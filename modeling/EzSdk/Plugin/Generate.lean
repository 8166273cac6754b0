import EzSdk.Foundation.Tables
import EzSdk.Plugin.Templates

/-! `generate_code` of `ez_sdk.py`, and for which services the three C++ header templates
emit classes. -/

namespace EzSdk.Plugin

open Tables

structure FileDescriptor where
  name : String
  package : String
  service : List ServiceDescriptor
  deriving DecidableEq

/-- What protoc passes to the plugin; it passes each file once. -/
structure CodeGeneratorRequest where
  fileToGenerate : List String
  parameter : String
  protoFile : List FileDescriptor
  distinctFiles : (protoFile.map FileDescriptor.name).Nodup

/-- The items of the parameter that have an `=`, split at the first one. -/
def parseParams (parameter : String) : List (String × String) :=
  (pySplit ',' parameter).filterMap (fun item =>
    match pySplit '=' item with
    | key :: value :: rest => some (key, "=".intercalate (value :: rest))
    | _ => none)

/-- A later item for the same key replaces an earlier one in the dict. -/
def getParam (parameter key : String) : Option String :=
  (lastOf Prod.fst (parseParams parameter) key).map Prod.snd

def registryServices (request : CodeGeneratorRequest) : List String :=
  match getParam request.parameter "services" with
  | none => []
  | some services => if services = "" then [] else pySplit ';' services

def getFullyQualifiedName (protoFile : FileDescriptor) (svc : ServiceDescriptor) : String :=
  if protoFile.package = "" then svc.name else protoFile.package ++ "." ++ svc.name

/-- The service is listed in the `services` parameter. -/
def Listed (request : CodeGeneratorRequest) (file : FileDescriptor) (svc : ServiceDescriptor) : Prop :=
  getFullyQualifiedName file svc ∈ registryServices request

instance (request : CodeGeneratorRequest) (file : FileDescriptor) (svc : ServiceDescriptor) :
    Decidable (Listed request file svc) :=
  inferInstanceAs (Decidable (_ ∈ _))

/-- The variables of a template. `ezServices` has one entry for each name of a file. -/
structure Context where
  files : List FileDescriptor
  ezServices : AList (fun _ : String => String × List ServiceDescriptor)

def ezServicesOf (request : CodeGeneratorRequest) (protoFile : FileDescriptor) :
    String × List ServiceDescriptor :=
  (protoFile.name, protoFile.service.filter (fun svc => Listed request protoFile svc))

def makeContext (request : CodeGeneratorRequest) : Context where
  files := request.protoFile.filter (fun file => file.name ∈ request.fileToGenerate)
  ezServices := (request.protoFile.map (ezServicesOf request)).foldl (keepLast Prod.fst) ∅

/-- `EzServices[file.name]`; an undefined entry is as good as an empty one. -/
def Context.services (context : Context) (file : FileDescriptor) : List ServiceDescriptor :=
  ((context.ezServices.lookup file.name).map Prod.snd).getD []

structure CodeGeneratorResponse (Content : Type) where
  error : Option String
  file : List (String × Content)

/-- `getTemplate` and the template that it returns stand for Jinja; their errors are
given by their texts. -/
def generateCode {Content : Type}
    (getTemplate : String → Except String (Context → Except String Content))
    (request : CodeGeneratorRequest) : CodeGeneratorResponse Content :=
  match (getParam request.parameter "template_name").getD "" with
  | "" => ⟨some "Missing parameter: template_name", []⟩
  | templateName =>
    match getTemplate templateName with
    | .error message =>
      ⟨some ("Failed to load template " ++ templateName ++ ": " ++ message), []⟩
    | .ok template =>
      match template (makeContext request) with
      | .error message =>
        ⟨some ("Failed to render template " ++ templateName ++ ": " ++ message), []⟩
      | .ok content =>
        ⟨none, [((getParam request.parameter "output_name").getD "output.rs", content)]⟩

/-- The classes of a header, each given by its file and its service. -/
abbrev Classes := List (FileDescriptor × ServiceDescriptor)

/-- The loop of `grpc.pb.h.jinja2`: the filter decides about the file, and then every
service of the file is emitted. -/
def grpcPbH (context : Context) : Classes :=
  context.files.flatMap (fun file =>
    if file.service ≠ [] ∧ context.services file ≠ [] then file.service.map (fun svc => (file, svc))
    else [])

/-- The loop of the two reader-writer templates. -/
def readerWriterH (context : Context) : Classes :=
  context.files.flatMap (fun file =>
    if file.service ≠ [] ∧ context.services file ≠ [] then
      (context.services file).map (fun svc => (file, svc))
    else [])

/-- The services with a `StreamAdapter` and a `ServerReaderWriter`. -/
def serverReaderWriterH : Context → Classes := readerWriterH

/-- The services with a `ClientReaderWriter`. -/
def clientReaderWriterH : Context → Classes := readerWriterH

/-- A service of a file to generate that is listed. -/
structure Requested (request : CodeGeneratorRequest) (file : FileDescriptor)
    (svc : ServiceDescriptor) : Prop where
  present : file ∈ request.protoFile
  generated : file.name ∈ request.fileToGenerate
  declared : svc ∈ file.service
  listed : Listed request file svc

/-- The three headers have classes for the same services, namely those requested. -/
structure HeadersAgree (request : CodeGeneratorRequest) : Prop where
  server : ∀ pair, pair ∈ grpcPbH (makeContext request) ↔
    pair ∈ serverReaderWriterH (makeContext request)
  client : ∀ pair, pair ∈ grpcPbH (makeContext request) ↔
    pair ∈ clientReaderWriterH (makeContext request)
  requested : ∀ file svc, (file, svc) ∈ grpcPbH (makeContext request) ↔ Requested request file svc

section

variable (request : CodeGeneratorRequest)

theorem context_services (file : FileDescriptor) (present : file ∈ request.protoFile) :
    (makeContext request).services file =
      file.service.filter (fun svc => Listed request file svc) := by
  have names : ((request.protoFile.map (ezServicesOf request)).map Prod.fst).Nodup := by
    rw [List.map_map]
    exact request.distinctFiles
  have found : (makeContext request).ezServices.lookup file.name =
      some (ezServicesOf request file) := by
    have stored : lastOf Prod.fst (request.protoFile.map (ezServicesOf request)) file.name =
        some (ezServicesOf request file) :=
      lastOf_of_mem Prod.fst _ names _ (List.mem_map_of_mem present)
    rw [makeContext, lookup_lastOf, stored]
  rw [Context.services, found]
  rfl

theorem mem_files (file : FileDescriptor) :
    file ∈ (makeContext request).files ↔
      file ∈ request.protoFile ∧ file.name ∈ request.fileToGenerate := by
  simp [makeContext]

theorem services_ne_nil_iff (file : FileDescriptor) (present : file ∈ request.protoFile) :
    (makeContext request).services file ≠ [] ↔
      ∃ svc ∈ file.service, Listed request file svc := by
  rw [context_services request file present]
  simp [List.filter_eq_nil_iff]

/-- Both loops: over the files, under a test, over a list of services. -/
theorem mem_emitted (files : List FileDescriptor) (test : FileDescriptor → Prop) [DecidablePred test]
    (services : FileDescriptor → List ServiceDescriptor) (file : FileDescriptor)
    (svc : ServiceDescriptor) :
    (file, svc) ∈ files.flatMap (fun origin =>
        if test origin then (services origin).map (fun svc => (origin, svc)) else []) ↔
      file ∈ files ∧ test file ∧ svc ∈ services file := by
  constructor
  · intro emitted
    obtain ⟨origin, originMember, inside⟩ := List.mem_flatMap.mp emitted
    by_cases passes : test origin
    · rw [if_pos passes] at inside
      obtain ⟨svc, svcMember, same⟩ := List.mem_map.mp inside
      cases same
      exact ⟨originMember, passes, svcMember⟩
    · rw [if_neg passes] at inside
      exact absurd inside List.not_mem_nil
  · rintro ⟨fileMember, passes, svcMember⟩
    refine List.mem_flatMap.mpr ⟨file, fileMember, ?_⟩
    rw [if_pos passes]
    exact List.mem_map_of_mem svcMember

theorem mem_grpcPbH (file : FileDescriptor) (svc : ServiceDescriptor) :
    (file, svc) ∈ grpcPbH (makeContext request) ↔
      (file ∈ request.protoFile ∧ file.name ∈ request.fileToGenerate) ∧ svc ∈ file.service ∧
        ∃ other ∈ file.service, Listed request file other := by
  rw [grpcPbH, mem_emitted, mem_files]
  constructor
  · rintro ⟨generated, guard, declared⟩
    exact ⟨generated, declared, (services_ne_nil_iff request file generated.1).mp guard.2⟩
  · rintro ⟨generated, declared, listed⟩
    exact ⟨generated, ⟨List.ne_nil_of_mem declared,
      (services_ne_nil_iff request file generated.1).mpr listed⟩, declared⟩

theorem mem_readerWriterH (file : FileDescriptor) (svc : ServiceDescriptor) :
    (file, svc) ∈ readerWriterH (makeContext request) ↔ Requested request file svc := by
  rw [readerWriterH, mem_emitted, mem_files]
  constructor
  · rintro ⟨⟨present, generated⟩, _, kept⟩
    rw [context_services request file present, List.mem_filter, decide_eq_true_iff] at kept
    exact ⟨present, generated, kept.1, kept.2⟩
  · intro requested
    have kept : svc ∈ (makeContext request).services file := by
      rw [context_services request file requested.present, List.mem_filter, decide_eq_true_iff]
      exact ⟨requested.declared, requested.listed⟩
    exact ⟨⟨requested.present, requested.generated⟩,
      ⟨List.ne_nil_of_mem requested.declared, List.ne_nil_of_mem kept⟩, kept⟩

/-- The headers agree exactly when every file to generate has all of its services listed,
or none. -/
theorem headers_agree_iff :
    HeadersAgree request ↔
      ∀ file ∈ request.protoFile, file.name ∈ request.fileToGenerate →
        (∀ svc ∈ file.service, Listed request file svc) ∨
          (∀ svc ∈ file.service, ¬ Listed request file svc) := by
  constructor
  · intro agree file present generated
    by_cases listed : ∃ other ∈ file.service, Listed request file other
    · left
      intro svc declared
      have emitted := (mem_grpcPbH request file svc).mpr ⟨⟨present, generated⟩, declared, listed⟩
      exact ((agree.requested file svc).mp emitted).listed
    · right
      intro svc declared isListed
      exact listed ⟨svc, declared, isListed⟩
  · intro unmixed
    have requested : ∀ file svc,
        (file, svc) ∈ grpcPbH (makeContext request) ↔ Requested request file svc := by
      intro file svc
      rw [mem_grpcPbH]
      constructor
      · rintro ⟨⟨present, generated⟩, declared, other, otherDeclared, otherListed⟩
        refine ⟨present, generated, declared, ?_⟩
        rcases unmixed file present generated with all | none
        · exact all svc declared
        · exact absurd otherListed (none other otherDeclared)
      · intro requested
        exact ⟨⟨requested.present, requested.generated⟩, requested.declared, svc,
          requested.declared, requested.listed⟩
    have same : ∀ pair, pair ∈ grpcPbH (makeContext request) ↔
        pair ∈ readerWriterH (makeContext request) := by
      rintro ⟨file, svc⟩
      rw [requested, mem_readerWriterH]
    exact ⟨same, same, requested⟩

end

/-- One file with two services of which one is asked for. -/
def mixedRequest : CodeGeneratorRequest where
  fileToGenerate := ["pair.proto"]
  parameter := "template_name=grpc.pb.h.jinja2,services=example.First"
  protoFile := [⟨"pair.proto", "example", [⟨"First", [], by decide⟩, ⟨"Second", [], by decide⟩]⟩]
  distinctFiles := by decide

theorem unlisted_service_emitted :
    registryServices mixedRequest = ["example.First"] ∧
      (grpcPbH (makeContext mixedRequest)).map (fun pair => pair.2.name) = ["First", "Second"] ∧
      (serverReaderWriterH (makeContext mixedRequest)).map (fun pair => pair.2.name) = ["First"] ∧
      ¬ HeadersAgree mixedRequest := by
  refine ⟨by decide, by decide, by decide, ?_⟩
  intro agree
  have emitted : (⟨"pair.proto", "example", [⟨"First", [], by decide⟩, ⟨"Second", [], by decide⟩]⟩,
      ⟨"Second", [], by decide⟩) ∈ grpcPbH (makeContext mixedRequest) := by decide
  exact absurd ((agree.requested _ _).mp emitted).listed (by decide)

end EzSdk.Plugin
