import EzSdk.Bridge.Unary
import Mathlib.Data.List.Count

/-! What the templates emit for the rpcs of a service: the calls of the client stubs, the
arms of the two dispatch functions, and the methods that the user implements. -/

namespace EzSdk.Plugin

inductive Mode where
  | unary
  | stream
  deriving DecidableEq

structure MethodDescriptor where
  name : String
  inputType : String
  outputType : String
  clientStreaming : Bool
  serverStreaming : Bool
  deriving DecidableEq

/-- A service of a file; protoc rejects two methods of one name. -/
structure ServiceDescriptor where
  name : String
  method : List MethodDescriptor
  distinctNames : (method.map MethodDescriptor.name).Nodup
  deriving DecidableEq

/-- The test `not (rpc.client_streaming or rpc.server_streaming)`. -/
def MethodDescriptor.isUnary (rpc : MethodDescriptor) : Bool :=
  !(rpc.clientStreaming || rpc.serverStreaming)

/-- The test `rpc.client_streaming and rpc.server_streaming`. -/
def MethodDescriptor.isBidi (rpc : MethodDescriptor) : Bool :=
  rpc.clientStreaming && rpc.serverStreaming

/-- An emitted method: a call of a stub, or a declaration. -/
structure Signature where
  name : String
  mode : Mode
  requestType : String
  responseType : String
  deriving DecidableEq

def pySplit (separator : Char) (text : String) : List String :=
  (text.toList.splitOn separator).map String.ofList

/-- The filters `replace(".", "::") | replace("::", "", 1)`. -/
def cppTypeName (type : String) : String :=
  match pySplit '.' type with
  | [] => ""
  | first :: rest => first ++ "::".intercalate rest

/-- `split('.')[-1]`. -/
def rustTypeName (type : String) : String :=
  (pySplit '.' type).getLastD ""

def MethodDescriptor.signature (rpc : MethodDescriptor) (typeName : String → String) (mode : Mode) :
    Signature :=
  ⟨rpc.name, mode, typeName rpc.inputType, typeName rpc.outputType⟩

/-- What a set of templates emits for one service. An arm is given by the name that it
compares the method name with. -/
structure Output where
  stubCalls : List Signature
  unaryArms : List String
  streamArms : List String
  declared : List Signature

section Grpc

variable (svc : ServiceDescriptor)

/-- `AsyncInterface` and `AsyncStub` of `grpc.pb.h.jinja2`. -/
def cppAsyncStub : List Signature :=
  (svc.method.filter MethodDescriptor.isUnary).map (·.signature cppTypeName .unary)

def cppStub : List Signature :=
  svc.method.map (fun rpc =>
    if rpc.isUnary then rpc.signature cppTypeName .unary else rpc.signature cppTypeName .stream)

def cppIsolateRpcMethodHandler : List String :=
  (svc.method.filter MethodDescriptor.isUnary).map MethodDescriptor.name

def cppIsolateStreamRpcMethodHandler : List String :=
  (svc.method.filter MethodDescriptor.isBidi).map MethodDescriptor.name

/-- The virtual methods of `Service`. -/
def cppDeclarations : List Signature :=
  svc.method.map (fun rpc =>
    if rpc.isBidi then rpc.signature cppTypeName .stream else rpc.signature cppTypeName .unary)

def cppOutput : Output where
  stubCalls := cppAsyncStub svc ++ cppStub svc
  unaryArms := cppIsolateRpcMethodHandler svc
  streamArms := cppIsolateStreamRpcMethodHandler svc
  declared := cppDeclarations svc

/-- The loops of `isolate_stub.rs.jinja2`: first the unary methods, then the streams. -/
def rustStub : List Signature :=
  (svc.method.filter MethodDescriptor.isUnary).map (·.signature rustTypeName .unary) ++
    (svc.method.filter MethodDescriptor.isBidi).map (·.signature rustTypeName .stream)

def rustUnaryRpcHandler : List String :=
  (svc.method.filter MethodDescriptor.isUnary).map MethodDescriptor.name

def rustStreamingRpcHandler : List String :=
  (svc.method.filter MethodDescriptor.isBidi).map MethodDescriptor.name

/-- The trait of `isolate_rpc_service.rs.jinja2`. -/
def rustTrait : List Signature :=
  svc.method.map (fun rpc =>
    if rpc.isUnary then rpc.signature rustTypeName .unary else rpc.signature rustTypeName .stream)

def rustOutput : Output where
  stubCalls := rustStub svc
  unaryArms := rustUnaryRpcHandler svc
  streamArms := rustStreamingRpcHandler svc
  declared := rustTrait svc

end Grpc

def Output.arms (output : Output) : Mode → List String
  | .unary => output.unaryArms
  | .stream => output.streamArms

/-- Every rpc has one arm, and stubs and declarations have the mode of their arm. -/
structure Output.Consistent (output : Output) (svc : ServiceDescriptor) : Prop where
  oneArm : ∀ rpc ∈ svc.method,
    output.unaryArms.count rpc.name + output.streamArms.count rpc.name = 1
  stubsDispatched : ∀ call ∈ output.stubCalls, call.name ∈ output.arms call.mode
  declaredAsDispatched : ∀ declaration ∈ output.declared,
    declaration.name ∈ output.arms declaration.mode

theorem count_filter_name (test : MethodDescriptor → Bool) (methods : List MethodDescriptor)
    (distinct : (methods.map MethodDescriptor.name).Nodup) (rpc : MethodDescriptor)
    (member : rpc ∈ methods) :
    ((methods.filter test).map MethodDescriptor.name).count rpc.name =
      if test rpc = true then 1 else 0 := by
  induction methods with
  | nil => exact absurd member List.not_mem_nil
  | cons first rest ih =>
    rw [List.map_cons, List.nodup_cons] at distinct
    have absent : ∀ other ∈ rest, other.name ≠ first.name := by
      intro other otherMember same
      exact distinct.1 (same ▸ List.mem_map_of_mem otherMember)
    rcases List.mem_cons.mp member with rfl | later
    · have none_later : ((rest.filter test).map MethodDescriptor.name).count rpc.name = 0 := by
        apply List.count_eq_zero_of_not_mem
        intro found
        obtain ⟨other, otherMember, same⟩ := List.mem_map.mp found
        exact absent other (List.mem_of_mem_filter otherMember) same
      by_cases chosen : test rpc = true
      · simp [chosen, none_later]
      · simp [chosen, none_later]
    · have different : first.name ≠ rpc.name := (absent rpc later).symm
      by_cases chosen : test first = true
      · simp [chosen, List.count_cons_of_ne different, ih distinct.2 later]
      · simp [chosen, ih distinct.2 later]

/-- Both SDKs emit the arms of `isUnary` in one handler and those of `isBidi` in the
other. -/
structure Output.Dispatches (output : Output) (svc : ServiceDescriptor) : Prop where
  unary : output.unaryArms = (svc.method.filter MethodDescriptor.isUnary).map MethodDescriptor.name
  stream : output.streamArms = (svc.method.filter MethodDescriptor.isBidi).map MethodDescriptor.name

/-- The rpc streams in both directions or in none. -/
def MethodDescriptor.Symmetric (rpc : MethodDescriptor) : Prop :=
  rpc.clientStreaming = rpc.serverStreaming

theorem symmetric_cases (rpc : MethodDescriptor) (symmetric : rpc.Symmetric) :
    (rpc.isUnary = true ∧ rpc.isBidi = false) ∨ (rpc.isUnary = false ∧ rpc.isBidi = true) := by
  unfold MethodDescriptor.Symmetric at symmetric
  cases streams : rpc.serverStreaming with
  | false => simp [MethodDescriptor.isUnary, MethodDescriptor.isBidi, symmetric, streams]
  | true => simp [MethodDescriptor.isUnary, MethodDescriptor.isBidi, symmetric, streams]

theorem oneArm_iff (output : Output) (svc : ServiceDescriptor) (dispatches : output.Dispatches svc)
    (rpc : MethodDescriptor) (member : rpc ∈ svc.method) :
    output.unaryArms.count rpc.name + output.streamArms.count rpc.name = 1 ↔ rpc.Symmetric := by
  rw [dispatches.unary, dispatches.stream, count_filter_name _ _ svc.distinctNames rpc member,
    count_filter_name _ _ svc.distinctNames rpc member]
  unfold MethodDescriptor.isUnary MethodDescriptor.isBidi MethodDescriptor.Symmetric
  cases rpc.clientStreaming <;> cases rpc.serverStreaming <;> decide

/-- An emitted signature belongs to an rpc and has the mode of each test it passes. -/
def Signature.Follows (signature : Signature) (svc : ServiceDescriptor) : Prop :=
  ∃ rpc ∈ svc.method, signature.name = rpc.name ∧
    (rpc.isUnary = true → signature.mode = .unary) ∧ (rpc.isBidi = true → signature.mode = .stream)

theorem dispatched_of_follows (output : Output) (svc : ServiceDescriptor)
    (dispatches : output.Dispatches svc) (symmetric : ∀ rpc ∈ svc.method, rpc.Symmetric)
    (signature : Signature) (follows : signature.Follows svc) :
    signature.name ∈ output.arms signature.mode := by
  obtain ⟨rpc, member, name, unary, stream⟩ := follows
  rw [name]
  rcases symmetric_cases rpc (symmetric rpc member) with ⟨isUnary, _⟩ | ⟨_, isBidi⟩
  · rw [unary isUnary, Output.arms, dispatches.unary]
    exact List.mem_map_of_mem (List.mem_filter.mpr ⟨member, isUnary⟩)
  · rw [stream isBidi, Output.arms, dispatches.stream]
    exact List.mem_map_of_mem (List.mem_filter.mpr ⟨member, isBidi⟩)

theorem consistent_iff (output : Output) (svc : ServiceDescriptor)
    (dispatches : output.Dispatches svc)
    (stubs : ∀ call ∈ output.stubCalls, call.Follows svc)
    (declared : ∀ declaration ∈ output.declared, declaration.Follows svc) :
    output.Consistent svc ↔ ∀ rpc ∈ svc.method, rpc.Symmetric := by
  constructor
  · intro consistent rpc member
    exact (oneArm_iff output svc dispatches rpc member).mp (consistent.oneArm rpc member)
  · intro symmetric
    constructor
    · intro rpc member
      exact (oneArm_iff output svc dispatches rpc member).mpr (symmetric rpc member)
    · intro call member
      exact dispatched_of_follows output svc dispatches symmetric call (stubs call member)
    · intro declaration member
      exact dispatched_of_follows output svc dispatches symmetric declaration
        (declared declaration member)

section Follows

variable (svc : ServiceDescriptor) (rpc : MethodDescriptor) (typeName : String → String)

theorem not_both (rpc : MethodDescriptor) (isUnary : rpc.isUnary = true) : rpc.isBidi = false := by
  unfold MethodDescriptor.isUnary at isUnary
  unfold MethodDescriptor.isBidi
  cases streams : rpc.clientStreaming with
  | false => rfl
  | true => simp [streams] at isUnary

theorem not_unary (rpc : MethodDescriptor) (isBidi : rpc.isBidi = true) : rpc.isUnary = false := by
  cases isUnary : rpc.isUnary with
  | true => exact absurd isBidi (by simp [not_both rpc isUnary])
  | false => rfl

theorem unary_follows (member : rpc ∈ svc.method) (isUnary : rpc.isUnary = true) :
    (rpc.signature typeName .unary).Follows svc :=
  ⟨rpc, member, rfl, fun _ => rfl, fun isBidi => by simp [not_both rpc isUnary] at isBidi⟩

theorem stream_follows (member : rpc ∈ svc.method) (notUnary : rpc.isUnary = false) :
    (rpc.signature typeName .stream).Follows svc :=
  ⟨rpc, member, rfl, fun isUnary => by simp [notUnary] at isUnary, fun _ => rfl⟩

/-- The loop over the unary rpcs, of the C++ asynchronous stub and the Rust stub. -/
theorem unary_calls_follow {call : Signature}
    (member : call ∈ (svc.method.filter MethodDescriptor.isUnary).map (·.signature typeName .unary)) :
    call.Follows svc := by
  obtain ⟨rpc, chosen, rfl⟩ := List.mem_map.mp member
  obtain ⟨rpcMember, isUnary⟩ := List.mem_filter.mp chosen
  exact unary_follows svc rpc typeName rpcMember isUnary

/-- The choice by `isUnary`, of the C++ stub and the Rust trait. -/
theorem unary_else_stream_follow {call : Signature}
    (member : call ∈ svc.method.map (fun rpc =>
      if rpc.isUnary then rpc.signature typeName .unary else rpc.signature typeName .stream)) :
    call.Follows svc := by
  obtain ⟨rpc, rpcMember, rfl⟩ := List.mem_map.mp member
  cases isUnary : rpc.isUnary with
  | true => exact unary_follows svc rpc typeName rpcMember isUnary
  | false => exact stream_follows svc rpc typeName rpcMember isUnary

/-- The choice by `isBidi`, of the C++ declarations. -/
theorem stream_else_unary_follow {call : Signature}
    (member : call ∈ svc.method.map (fun rpc =>
      if rpc.isBidi then rpc.signature typeName .stream else rpc.signature typeName .unary)) :
    call.Follows svc := by
  obtain ⟨rpc, rpcMember, rfl⟩ := List.mem_map.mp member
  cases isBidi : rpc.isBidi with
  | true => exact stream_follows svc rpc typeName rpcMember (not_unary rpc isBidi)
  | false => exact ⟨rpc, rpcMember, rfl, fun _ => rfl, fun other => by simp [isBidi] at other⟩

end Follows

theorem cppOutput_consistent_iff (svc : ServiceDescriptor) :
    (cppOutput svc).Consistent svc ↔ ∀ rpc ∈ svc.method, rpc.Symmetric := by
  apply consistent_iff _ _ ⟨rfl, rfl⟩
  · intro call member
    rcases List.mem_append.mp member with async | sync
    · exact unary_calls_follow svc cppTypeName async
    · exact unary_else_stream_follow svc cppTypeName sync
  · intro declaration member
    exact stream_else_unary_follow svc cppTypeName member

theorem rustOutput_consistent_iff (svc : ServiceDescriptor) :
    (rustOutput svc).Consistent svc ↔ ∀ rpc ∈ svc.method, rpc.Symmetric := by
  apply consistent_iff _ _ ⟨rfl, rfl⟩
  · intro call member
    rcases List.mem_append.mp member with unary | stream
    · exact unary_calls_follow svc rustTypeName unary
    · obtain ⟨rpc, chosen, rfl⟩ := List.mem_map.mp stream
      obtain ⟨rpcMember, isBidi⟩ := List.mem_filter.mp chosen
      exact stream_follows svc rpc rustTypeName rpcMember (not_unary rpc isBidi)
  · intro declaration member
    exact unary_else_stream_follow svc rustTypeName member

/-- Dispatch, stubs and declarations of both languages fit together exactly for the
services without an rpc that streams in one direction only. -/
theorem generated_dispatch_consistent_iff (svc : ServiceDescriptor) :
    ((cppOutput svc).Consistent svc ∧ (rustOutput svc).Consistent svc) ↔
      ∀ rpc ∈ svc.method, rpc.clientStreaming = rpc.serverStreaming := by
  rw [cppOutput_consistent_iff, rustOutput_consistent_iff, and_self]
  rfl

/-- A service with one rpc that streams from the server only. -/
def watcher : ServiceDescriptor where
  name := "Watcher"
  method := [⟨"Watch", ".example.WatchRequest", ".example.WatchResponse", false, true⟩]
  distinctNames := by decide

/-- The C++ stub calls `Watch` as a stream and the user declares it as unary, the Rust
trait declares it as a stream, and nothing dispatches it. -/
theorem server_streaming_undispatched :
    (cppOutput watcher).stubCalls =
        [⟨"Watch", .stream, "example::WatchRequest", "example::WatchResponse"⟩] ∧
      (cppOutput watcher).declared =
        [⟨"Watch", .unary, "example::WatchRequest", "example::WatchResponse"⟩] ∧
      (cppOutput watcher).unaryArms = [] ∧ (cppOutput watcher).streamArms = [] ∧
      (rustOutput watcher).declared = [⟨"Watch", .stream, "WatchRequest", "WatchResponse"⟩] ∧
      (rustOutput watcher).unaryArms = [] ∧ (rustOutput watcher).streamArms = [] ∧
      ¬ (cppOutput watcher).Consistent watcher ∧ ¬ (rustOutput watcher).Consistent watcher := by
  refine ⟨by decide, by decide, rfl, rfl, by decide, rfl, rfl, ?_, ?_⟩
  · intro consistent
    exact absurd (consistent.oneArm _ List.mem_cons_self) (by decide)
  · intro consistent
    exact absurd (consistent.oneArm _ List.mem_cons_self) (by decide)

section Descriptor

variable {Msg : Type}

end Descriptor

end EzSdk.Plugin
