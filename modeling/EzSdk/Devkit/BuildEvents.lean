import EzSdk.Devkit.Paths
import EzSdk.Foundation.Postconditions
import EzSdk.Foundation.Tables

/-! The build event files that `bep.py` has bazel write, one for each target of a list, and which
lists of labels leave the events of all their targets behind. -/

namespace EzSdk.Devkit.BuildEvents

open LexicalPaths hiding Part Path
open FileTrees Postconditions Tables

/-! ### The script -/

inductive Command where
  | fetch
  | build
  deriving DecidableEq

/-- One run of bazel, as its command line asks for it. -/
structure Invocation where
  command : Command
  target : Chars
  eventFile : PurePath
  acceptRemoteCache : Bool
  deriving DecidableEq

/-- Whether a directory can be made and whether a command succeeds. -/
structure Host where
  mkdir : PurePath → Bool
  runCommand : Invocation → Bool

/-- `target.replace(":", "_")`. -/
def underscored (target : Chars) : Chars := target.map fun char => if char = ':' then '_' else char

/-- `target.replace(":", "_").split("/")[-1]`. -/
def sanitizedTargetName (target : Chars) : Chars := ((underscored target).splitOn '/').getLastD []

/-- The element of a path that a text without a slash is. -/
def component (text : Chars) : LexicalPaths.Part FileName :=
  if name : text ≠ [] ∧ text ≠ ".".toList ∧ text ≠ "..".toList ∧ '/' ∉ text then .name ⟨text, name⟩
  else if text = "..".toList then .up
  else .here

def bepJson : FileName := ⟨"bep.json".toList, by decide⟩

/-- `output_dir / sanitized_target_name / "bep.json"`. -/
def outputFile (outputDir : PurePath) (target : Chars) : PurePath :=
  (outputDir.join (.ofText ⟨.relative, [component (sanitizedTargetName target)]⟩)).descend [bepJson]

def makeDirectory (host : Host) (path : PurePath) : Except Raised Unit :=
  if host.mkdir path then .ok () else raise .osError

/-- `generate_build_event_json`: what bazel was run with. -/
def generateBuildEventJson (host : Host) (target : Chars) (outputPath : PurePath)
    (command : Command) : Except Raised Invocation :=
  let invocation : Invocation :=
    { command := command
      target := target
      eventFile := outputPath
      acceptRemoteCache := command ≠ .build }
  if host.runCommand invocation then .ok invocation else .error .systemExit

/-- The body of the loop over the targets. -/
def processTarget (host : Host) (command : Command) (outputDir : PurePath) (target : Chars) :
    Except Raised Invocation := do
  let file := outputFile outputDir target
  makeDirectory host file.parent
  generateBuildEventJson host target file command

/-- `generate_bazel_events_folder`: the runs of bazel, in their order. -/
def generateBazelEventsFolder (host : Host) (targets : List Chars) (command : Command)
    (outputDir : PurePath) : Except Raised (List Invocation) := do
  makeDirectory host outputDir
  if targets.length = 0 then
    let invocation ← generateBuildEventJson host "//...".toList (outputDir.descend [bepJson]) command
    return [invocation]
  else
    targets.mapM (processTarget host command outputDir)

/-! ### Labels -/

/-- A name between the separators of a label. -/
structure Segment extends FileName where
  noColon : ':' ∉ text
  deriving DecidableEq

/-- A name below some directories, such as a package or a target in a subdirectory of one. -/
structure Nested where
  parents : List Segment
  last : Segment
  deriving DecidableEq

/-- A package, by the segments of its name. The package of a repository's root has none. -/
structure Package where
  repository : Option Segment
  directory : Option Nested
  deriving DecidableEq

/-- The ways in which a target can be named: `//package:target`, `//package` for the target of
the package's own name, `:target` and `target`; the first two with or without a repository. -/
inductive Label where
  | explicit (package : Package) (target : Nested)
  | shorthand (repository : Option Segment) (directory : Nested)
  | colon (target : Nested)
  | bare (target : Nested)
  deriving DecidableEq

structure Target where
  package : Package
  name : Nested
  deriving DecidableEq

/-- The target that a label names in the package in which it is given. -/
def Label.denotes (current : Package) : Label → Target
  | explicit package target => ⟨package, target⟩
  | shorthand repository directory => ⟨⟨repository, some directory⟩, ⟨[], directory.last⟩⟩
  | colon target => ⟨current, target⟩
  | bare target => ⟨current, target⟩

def leading (parents : List Segment) : Chars := parents.flatMap fun parent => parent.text ++ ['/']

def Nested.text (nested : Nested) : Chars := leading nested.parents ++ nested.last.text

def repositoryText : Option Segment → Chars
  | none => "//".toList
  | some repository => '@' :: repository.text ++ "//".toList

def directoryText : Option Nested → Chars
  | none => []
  | some directory => directory.text

def Label.text : Label → Chars
  | explicit package target =>
    repositoryText package.repository ++ directoryText package.directory ++ ':' :: target.text
  | shorthand repository directory => repositoryText repository ++ directory.text
  | colon target => ':' :: target.text
  | bare target => target.text

/-! ### Which directory a label is given -/

/-- The last name of the package, where it has one, and the target's name. -/
def besidePackage (directory : Option Nested) (target : Segment) : FileName where
  text := (directory.elim [] fun nested => nested.last.text) ++ '_' :: target.text
  valid := by
    have marked : '_' ∈ (directory.elim [] fun nested => nested.last.text) ++ '_' :: target.text := by
      simp
    refine ⟨List.ne_nil_of_mem marked, ?_, ?_, ?_⟩
    · intro same
      rw [same] at marked
      exact absurd marked (by decide)
    · intro same
      rw [same] at marked
      exact absurd marked (by decide)
    · cases directory with
      | none => simp [target.valid.2.2.2]
      | some nested => simp [target.valid.2.2.2, nested.last.valid.2.2.2]

/-- The name of a label's own directory below the output directory: of its text, what follows the
last slash. -/
def Label.directoryName : Label → FileName
  | explicit package ⟨[], target⟩ => besidePackage package.directory target
  | explicit _ ⟨_ :: _, target⟩ => target.toFileName
  | shorthand _ directory => directory.last.toFileName
  | colon ⟨[], target⟩ => besidePackage none target
  | colon ⟨_ :: _, target⟩ => target.toFileName
  | bare target => target.last.toFileName

theorem underscored_append (first second : Chars) :
    underscored (first ++ second) = underscored first ++ underscored second :=
  List.map_append

theorem underscored_of_noColon {text : Chars} (noColon : ':' ∉ text) : underscored text = text := by
  have same : ∀ char ∈ text, (if char = ':' then '_' else char) = char := by
    intro char member
    have different : char ≠ ':' := fun colon => noColon (colon ▸ member)
    rw [if_neg different]
  exact (List.map_congr_left same).trans (List.map_id text)

theorem slash_notMem_underscored {text : Chars} (noSlash : '/' ∉ text) : '/' ∉ underscored text := by
  intro member
  obtain ⟨char, inText, mapped⟩ := List.mem_map.mp member
  split at mapped
  · exact absurd mapped (by decide)
  · exact noSlash (mapped ▸ inText)

theorem sanitized_of_noSlash {text : Chars} (noSlash : '/' ∉ text) :
    sanitizedTargetName text = underscored text := by
  rw [sanitizedTargetName, List.splitOn_eq_singleton (slash_notMem_underscored noSlash)]
  rfl

/-- Nothing before a slash is part of the name. -/
theorem sanitized_after_slash (front text : Chars) :
    sanitizedTargetName (front ++ '/' :: text) = sanitizedTargetName text := by
  have split : (underscored (front ++ '/' :: text)).splitOn '/' =
      (underscored front).splitOn '/' ++ (underscored text).splitOn '/' := by
    rw [underscored_append]
    exact List.splitOn_append_cons_self (underscored front) (underscored text)
  rw [sanitizedTargetName, sanitizedTargetName, split, List.getLastD_eq_getLast?,
    List.getLastD_eq_getLast?, List.getLast?_append_of_ne_nil _ (List.splitOn_ne_nil _ _)]

theorem sanitized_leading (parents : List Segment) (text : Chars) :
    sanitizedTargetName (leading parents ++ text) = sanitizedTargetName text := by
  induction parents with
  | nil => rfl
  | cons parent parents ih =>
    have shape : leading (parent :: parents) ++ text =
        parent.text ++ '/' :: (leading parents ++ text) := by
      simp [leading]
    rw [shape, sanitized_after_slash, ih]

theorem sanitized_segment (segment : Segment) : sanitizedTargetName segment.text = segment.text := by
  rw [sanitized_of_noSlash segment.valid.2.2.2, underscored_of_noColon segment.noColon]

theorem sanitized_nested (nested : Nested) :
    sanitizedTargetName nested.text = nested.last.text := by
  rw [Nested.text, sanitized_leading, sanitized_segment]

theorem sanitized_repository (repository : Option Segment) (text : Chars) :
    sanitizedTargetName (repositoryText repository ++ text) = sanitizedTargetName text := by
  cases repository with
  | none => exact sanitized_after_slash ['/'] text
  | some repository =>
    have shape : repositoryText (some repository) ++ text =
        ('@' :: repository.text ++ ['/']) ++ '/' :: text := by
      simp [repositoryText]
    rw [shape, sanitized_after_slash]

theorem sanitized_beside (directory : Option Nested) (target : Segment) :
    sanitizedTargetName (directoryText directory ++ ':' :: target.text) =
      (besidePackage directory target).text := by
  cases directory with
  | none =>
    have noSlash : '/' ∉ ':' :: target.text := by simp [target.valid.2.2.2]
    show sanitizedTargetName (':' :: target.text) = '_' :: target.text
    rw [sanitized_of_noSlash noSlash]
    exact congrArg ('_' :: ·) (underscored_of_noColon target.noColon)
  | some nested =>
    have noSlash : '/' ∉ nested.last.text ++ ':' :: target.text := by
      simp [target.valid.2.2.2, nested.last.valid.2.2.2]
    show sanitizedTargetName (leading nested.parents ++ nested.last.text ++ ':' :: target.text) = _
    rw [List.append_assoc, sanitized_leading, sanitized_of_noSlash noSlash, underscored_append,
      underscored_of_noColon nested.last.noColon]
    exact congrArg (fun name => nested.last.text ++ '_' :: name)
      (underscored_of_noColon target.noColon)

theorem sanitized_below (front : Chars) (parent : Segment) (parents : List Segment)
    (target : Segment) :
    sanitizedTargetName (front ++ Nested.text ⟨parent :: parents, target⟩) = target.text := by
  have shape : front ++ Nested.text ⟨parent :: parents, target⟩ =
      (front ++ parent.text) ++ '/' :: Nested.text ⟨parents, target⟩ := by
    simp [Nested.text, leading]
  rw [shape, sanitized_after_slash, sanitized_nested]

theorem sanitized_label (label : Label) :
    sanitizedTargetName label.text = label.directoryName.text := by
  cases label with
  | explicit package target =>
    cases target with
    | mk parents target =>
      cases parents with
      | nil =>
        show sanitizedTargetName (_ ++ _ ++ ':' :: target.text) = _
        rw [List.append_assoc, sanitized_repository, sanitized_beside]
        rfl
      | cons parent parents =>
        show sanitizedTargetName (_ ++ _ ++ ([':'] ++ Nested.text _)) = _
        rw [← List.append_assoc, sanitized_below]
        rfl
  | shorthand repository directory =>
    show sanitizedTargetName (_ ++ directory.text) = _
    rw [sanitized_repository, sanitized_nested]
    rfl
  | colon target =>
    cases target with
    | mk parents target =>
      cases parents with
      | nil => exact sanitized_beside none target
      | cons parent parents => exact sanitized_below [':'] parent parents target
  | bare target => exact sanitized_nested target

theorem component_name (name : FileName) : component name.text = .name name :=
  dif_pos name.valid

theorem outputFile_label (outputDir : PurePath) (label : Label) :
    outputFile outputDir label.text = outputDir.descend [label.directoryName, bepJson] := by
  rw [outputFile, sanitized_label, component_name]
  apply PurePath.ext
  · rfl
  · simp [PurePath.join, PurePath.ofText, PurePath.descend, dropHere]

theorem outputFile_eq_iff (outputDir : PurePath) (first second : Label) :
    outputFile outputDir first.text = outputFile outputDir second.text ↔
      first.directoryName = second.directoryName := by
  rw [outputFile_label, outputFile_label]
  simp [PurePath.descend]

/-! ### What a run leaves behind -/

/-- The run of bazel for one target of the list. -/
def invocationFor (command : Command) (outputDir : PurePath) (target : Chars) : Invocation where
  command := command
  target := target
  eventFile := outputFile outputDir target
  acceptRemoteCache := command ≠ .build

theorem processTarget_ok {host : Host} {command : Command} {outputDir : PurePath} {target : Chars}
    {invocation : Invocation} (ok : processTarget host command outputDir target = .ok invocation) :
    invocation = invocationFor command outputDir target := by
  have made := (check_ok_iff.mp ok).2
  dsimp only [generateBuildEventJson] at made
  split at made
  · exact (Except.ok.inj made).symm
  · cases made

/-- A run that ends has had bazel write every target's events, in the order of the list. -/
theorem folder_ok {host : Host} {targets : List Chars} {command : Command} {outputDir : PurePath}
    {invocations : List Invocation} (some : targets ≠ [])
    (ok : generateBazelEventsFolder host targets command outputDir = .ok invocations) :
    invocations = targets.map (invocationFor command outputDir) := by
  have loop := (check_ok_iff.mp ok).2
  rw [if_neg (mt List.length_eq_zero_iff.mp some)] at loop
  have each := mapM_ok_iff.mp loop
  clear ok loop some
  induction each with
  | nil => rfl
  | cons first _ ih => rw [processTarget_ok first, ih, List.map_cons]

/-- The events of every label of the list are in a file of its own below the output directory, and
are what the file still holds when the loop has ended. -/
structure EventsKept (labels : List Label) (command : Command) (outputDir : PurePath) : Prop where
  apart : (labels.map fun label => outputFile outputDir label.text).Nodup
  below : ∀ label ∈ labels, (outputFile outputDir label.text).isRelativeTo outputDir = true
  present : ∀ host invocations,
    generateBazelEventsFolder host (labels.map Label.text) command outputDir = .ok invocations →
      ∀ label ∈ labels,
        lastOf Invocation.eventFile invocations (outputFile outputDir label.text) =
          some (invocationFor command outputDir label.text)

theorem outputFile_below (outputDir : PurePath) (label : Label) :
    (outputFile outputDir label.text).isRelativeTo outputDir = true := by
  rw [outputFile_label]
  simp [PurePath.isRelativeTo, PurePath.descend]

theorem nodup_files_iff (labels : List Label) (outputDir : PurePath) :
    (labels.map fun label => outputFile outputDir label.text).Nodup ↔
      (labels.map Label.directoryName).Nodup := by
  unfold List.Nodup
  rw [List.pairwise_map, List.pairwise_map]
  simp only [ne_eq, outputFile_eq_iff]

/-- The events of all labels of a list are kept exactly when no two of the labels have the same
text after their last slash. -/
theorem events_kept_iff (labels : List Label) (command : Command) (outputDir : PurePath) :
    EventsKept labels command outputDir ↔ (labels.map Label.directoryName).Nodup := by
  constructor
  · intro kept
    exact (nodup_files_iff labels outputDir).mp kept.apart
  · intro distinct
    have apart := (nodup_files_iff labels outputDir).mpr distinct
    refine ⟨apart, fun label _ => outputFile_below outputDir label, ?_⟩
    intro host invocations ok label member
    have nonempty : labels.map Label.text ≠ [] := by
      rw [ne_eq, List.map_eq_nil_iff]
      exact List.ne_nil_of_mem member
    have found : lastOf (fun label => outputFile outputDir label.text) labels
        (outputFile outputDir label.text) = some label :=
      lastOf_of_mem (fun label : Label => outputFile outputDir label.text) labels apart label member
    rw [folder_ok nonempty ok, List.map_map, lastOf_map]
    exact congrArg (Option.map (invocationFor command outputDir ∘ Label.text)) found

def segment (text : String) (valid : text.toList ≠ [] ∧ text.toList ≠ ".".toList ∧
    text.toList ≠ "..".toList ∧ '/' ∉ text.toList ∧ ':' ∉ text.toList) : Segment where
  text := text.toList
  valid := ⟨valid.1, valid.2.1, valid.2.2.1, valid.2.2.2.1⟩
  noColon := valid.2.2.2.2

def serverTarget : Nested := ⟨[], segment "server" (by decide)⟩

/-- `//api:server`. -/
def apiServer : Label := .explicit ⟨none, some ⟨[], segment "api" (by decide)⟩⟩ serverTarget

/-- `//internal/api:server`. -/
def internalApiServer : Label :=
  .explicit ⟨none, some ⟨[segment "internal" (by decide)], segment "api" (by decide)⟩⟩ serverTarget

def bazelBep : PurePath := .named .relative [⟨"bazel-bep".toList, by decide⟩]

/-- Of two servers in packages of the same last name, only the second one's events are left. -/
theorem second_server_overwrites_first :
    (∀ current, ([apiServer, internalApiServer].map (Label.denotes current)).Nodup) ∧
      [apiServer, internalApiServer].map Label.text =
        ["//api:server".toList, "//internal/api:server".toList] ∧
      generateBazelEventsFolder ⟨fun _ => true, fun _ => true⟩
          ["//api:server".toList, "//internal/api:server".toList] .fetch bazelBep =
        .ok [⟨.fetch, "//api:server".toList, outputFile bazelBep apiServer.text, true⟩,
          ⟨.fetch, "//internal/api:server".toList, outputFile bazelBep apiServer.text, true⟩] ∧
      ¬ EventsKept [apiServer, internalApiServer] .fetch bazelBep := by
  refine ⟨?_, by decide, by decide, ?_⟩
  · intro current
    simp [Label.denotes, apiServer, internalApiServer]
  · intro kept
    have distinct := (nodup_files_iff _ _).mp kept.apart
    exact absurd distinct (by decide)

end EzSdk.Devkit.BuildEvents
