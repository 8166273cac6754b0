import EzSdk.Client.Model
import Mathlib.Data.List.Infix
import Mathlib.Data.List.TakeWhile
import Mathlib.Logic.Function.Basic

/-! Fileshares of `isolate_ez_bridge_client.cpp`: the two files of a share, the commit of
the staging file, and the event that tells the enforcer. -/

namespace EzSdk.Client

/-- A path or a handle, as the characters of its string. -/
abbrev PathText := List Char

/-- The regular files that exist, with their content. -/
abbrev Files := PathText → Option Bytes

inductive EventTopic where
  | unspecified
  | fileshare
  deriving DecidableEq

inductive FileshareEventType where
  | unspecified
  | fileUpdated
  deriving DecidableEq

structure PublishEventForRequest where
  topic : EventTopic
  handle : PathText
  eventType : FileshareEventType
  deriving DecidableEq

def stagingFileSuffix : PathText := ['.', 's', 't', 'a', 'g', 'i', 'n', 'g']

def tmpFileSuffix : PathText := ['.', 't', 'm', 'p']

/-- `path::filename`: what follows the last separator. -/
def filename (path : PathText) : PathText := (path.reverse.takeWhile (· ≠ '/')).reverse

/-- `path::parent_path`: the path without its last element and the separators before it. A
root has no element to take away. -/
def parentPath (path : PathText) : PathText :=
  let directory := (path.reverse.dropWhile (· ≠ '/')).reverse
  let stripped := (directory.reverse.dropWhile (· = '/')).reverse
  if stripped = [] then directory else stripped

structure CreateFileshareResponse where
  status : Status
  fileshareHandle : PathText
  sharedPath : PathText
  stagingPath : PathText

/-- `CreateFileshare` after the enforcer's answer; `opens` says for which of the two paths the
`ofstream` can be opened. -/
def createFileshare (status : Status) (fileshareHandle : PathText) (opens : PathText → Bool)
    (files : Files) : CreateFileshareResponse × Files :=
  if status.ok = false then (⟨status, [], [], []⟩, files)
  else
    let sharedPath := '/' :: (fileshareHandle ++ ['/', 'f', 'i', 'l', 'e'])
    let stagingPath := '/' :: (fileshareHandle ++ ['/', 'f', 'i', 'l', 'e']) ++ stagingFileSuffix
    (⟨status, fileshareHandle, sharedPath, stagingPath⟩,
      fun path =>
        if (path = sharedPath ∨ path = stagingPath) ∧ opens path = true then some [] else files path)

/-- How a copy goes that has a source and no target. A failure may leave a part. -/
inductive CopyOutcome where
  | succeeds
  | fails (message : String) (part : Option Bytes)
  deriving DecidableEq

/-- `std::filesystem::copy` with default options, with the message of its `error_code`. -/
def copyFile (source target : PathText) (outcome : CopyOutcome) (files : Files) :
    Option String × Files :=
  match files source, files target with
  | none, _ => (some "No such file or directory", files)
  | some _, some _ => (some "File exists", files)
  | some content, none =>
    match outcome with
    | .succeeds => (none, Function.update files target (some content))
    | .fails message part => (some message, Function.update files target part)

/-- `rename` of a file, when it succeeds. -/
def renameFile (source target : PathText) (files : Files) : Files :=
  Function.update (Function.update files target (files source)) source none

/-- What the outside does during one commit. -/
structure CommitCalls where
  copy : CopyOutcome
  rename : Option Errno
  publish : Status

/-- Where a commit ended. -/
inductive CommitStage where
  | arguments
  | copy
  | rename
  | publish
  deriving DecidableEq

structure Committed where
  status : AbslStatus
  stage : CommitStage
  files : Files
  published : List PublishEventForRequest

/-- The names of the codes, which gRPC and absl share. -/
def codeName : StatusCode → String
  | .ok => "OK"
  | .cancelled => "CANCELLED"
  | .unknown => "UNKNOWN"
  | .invalidArgument => "INVALID_ARGUMENT"
  | .deadlineExceeded => "DEADLINE_EXCEEDED"
  | .notFound => "NOT_FOUND"
  | .alreadyExists => "ALREADY_EXISTS"
  | .permissionDenied => "PERMISSION_DENIED"
  | .resourceExhausted => "RESOURCE_EXHAUSTED"
  | .failedPrecondition => "FAILED_PRECONDITION"
  | .aborted => "ABORTED"
  | .outOfRange => "OUT_OF_RANGE"
  | .unimplemented => "UNIMPLEMENTED"
  | .internal => "INTERNAL"
  | .unavailable => "UNAVAILABLE"
  | .dataLoss => "DATA_LOSS"
  | .unauthenticated => "UNAUTHENTICATED"

def toAbslStatus (status : Status) : AbslStatus :=
  if status.ok then .ok else .error (codeName status.code) status.message

/-- The shared file that belongs to a staging file. -/
def sharePath (stagingPath : PathText) : Except AbslStatus PathText :=
  if stagingFileSuffix.isSuffixOf stagingPath = false then
    .error (.error "INVALID_ARGUMENT" "staging_path must end with .staging")
  else
    let share := stagingPath.take (stagingPath.length - stagingFileSuffix.length)
    if share = [] then .error (.error "INVALID_ARGUMENT" "staging_path is invalid")
    else .ok share

def commitFileChanges (stagingPath : PathText) (calls : CommitCalls) (files : Files) : Committed :=
  match sharePath stagingPath with
  | .error status => ⟨status, .arguments, files, []⟩
  | .ok share =>
    let tmpPath := share ++ tmpFileSuffix
    match copyFile stagingPath tmpPath calls.copy files with
    | (some message, copied) =>
      ⟨.error "INTERNAL" ("Failed to copy staging file: " ++ message), .copy, copied, []⟩
    | (none, copied) =>
      match calls.rename with
      | some errno =>
        ⟨errnoToStatus errno "Failed to commit file changes via rename", .rename, copied, []⟩
      | none =>
        ⟨toAbslStatus calls.publish, .publish, renameFile tmpPath share copied,
          [⟨.fileshare, filename (parentPath share), .fileUpdated⟩]⟩

theorem sharePath_ok_iff (stagingPath share : PathText) :
    sharePath stagingPath = .ok share ↔ stagingPath = share ++ stagingFileSuffix ∧ share ≠ [] := by
  by_cases ends : stagingFileSuffix <:+ stagingPath
  · obtain ⟨front, whole⟩ := ends
    have isSuffix : stagingFileSuffix.isSuffixOf stagingPath = true :=
      List.isSuffixOf_iff_suffix.mpr ⟨front, whole⟩
    have taken : stagingPath.take (stagingPath.length - stagingFileSuffix.length) = front := by
      rw [← whole, List.length_append, Nat.add_sub_cancel, List.take_left]
    have same : stagingPath = share ++ stagingFileSuffix ↔ front = share := by
      rw [← whole, List.append_left_inj]
    rw [sharePath, isSuffix, taken, same]
    by_cases empty : front = []
    · subst empty
      simp [eq_comm]
    · simp only [reduceCtorEq, if_false, empty, Except.ok.injEq]
      constructor
      · rintro rfl
        exact ⟨rfl, empty⟩
      · exact And.left
  · have other : stagingFileSuffix.isSuffixOf stagingPath = false := by
      rw [Bool.eq_false_iff]
      exact fun suffix => ends (List.isSuffixOf_iff_suffix.mp suffix)
    rw [sharePath, other]
    simp only [if_true, reduceCtorEq, false_iff, not_and]
    rintro rfl
    exact absurd (List.suffix_append share stagingFileSuffix) ends

/-! ### One commit -/

/-- The ways in which a commit goes. -/
inductive CommitCase (stagingPath : PathText) (calls : CommitCalls) (files : Files) :
    Committed → Prop where
  | badArguments (codeName message : String)
      (rejected : sharePath stagingPath = .error (.error codeName message)) :
      CommitCase stagingPath calls files ⟨.error codeName message, .arguments, files, []⟩
  | blocked (share : PathText) (message : String) (named : sharePath stagingPath = .ok share)
      (impossible : files stagingPath = none ∨ (files (share ++ tmpFileSuffix)).isSome = true) :
      CommitCase stagingPath calls files
        ⟨.error "INTERNAL" ("Failed to copy staging file: " ++ message), .copy, files, []⟩
  | copyFailed (share : PathText) (content : Bytes) (message : String) (part : Option Bytes)
      (named : sharePath stagingPath = .ok share) (staged : files stagingPath = some content)
      (free : files (share ++ tmpFileSuffix) = none) (fails : calls.copy = .fails message part) :
      CommitCase stagingPath calls files
        ⟨.error "INTERNAL" ("Failed to copy staging file: " ++ message), .copy,
          Function.update files (share ++ tmpFileSuffix) part, []⟩
  | renameFailed (share : PathText) (content : Bytes) (errno : Errno)
      (named : sharePath stagingPath = .ok share) (staged : files stagingPath = some content)
      (free : files (share ++ tmpFileSuffix) = none) (copies : calls.copy = .succeeds)
      (fails : calls.rename = some errno) :
      CommitCase stagingPath calls files
        ⟨errnoToStatus errno "Failed to commit file changes via rename", .rename,
          Function.update files (share ++ tmpFileSuffix) (some content), []⟩
  | published (share : PathText) (content : Bytes)
      (named : sharePath stagingPath = .ok share) (staged : files stagingPath = some content)
      (free : files (share ++ tmpFileSuffix) = none) (copies : calls.copy = .succeeds)
      (renames : calls.rename = none) :
      CommitCase stagingPath calls files
        ⟨toAbslStatus calls.publish, .publish,
          renameFile (share ++ tmpFileSuffix) share
            (Function.update files (share ++ tmpFileSuffix) (some content)),
          [⟨.fileshare, filename (parentPath share), .fileUpdated⟩]⟩

variable {stagingPath share : PathText} {calls : CommitCalls} {files : Files} {status : AbslStatus}

theorem sharePath_error (rejected : sharePath stagingPath = .error status) :
    ∃ codeName message, status = .error codeName message := by
  unfold sharePath at rejected
  split at rejected
  · cases rejected
    exact ⟨_, _, rfl⟩
  · dsimp only at rejected
    split at rejected
    · cases rejected
      exact ⟨_, _, rfl⟩
    · cases rejected

theorem commit_case (stagingPath : PathText) (calls : CommitCalls) (files : Files) :
    CommitCase stagingPath calls files (commitFileChanges stagingPath calls files) := by
  cases named : sharePath stagingPath with
  | error status =>
    obtain ⟨codeName, message, is⟩ := sharePath_error named
    subst is
    simpa [commitFileChanges, named] using CommitCase.badArguments codeName message named
  | ok share =>
    cases staged : files stagingPath with
    | none =>
      have missing : CommitCase stagingPath calls files _ :=
        .blocked share "No such file or directory" named (.inl staged)
      simpa [commitFileChanges, named, copyFile, staged] using missing
    | some content =>
      cases there : files (share ++ tmpFileSuffix) with
      | some leftover =>
        have inTheWay : CommitCase stagingPath calls files _ :=
          .blocked share "File exists" named (.inr (by simp [there]))
        simpa [commitFileChanges, named, copyFile, staged, there] using inTheWay
      | none =>
        cases copies : calls.copy with
        | fails message part =>
          simpa [commitFileChanges, named, copyFile, staged, there, copies] using
            CommitCase.copyFailed share content message part named staged there copies
        | succeeds =>
          cases renames : calls.rename with
          | some errno =>
            simpa [commitFileChanges, named, copyFile, staged, there, copies, renames] using
              CommitCase.renameFailed share content errno named staged there copies renames
          | none =>
            simpa [commitFileChanges, named, copyFile, staged, there, copies, renames] using
              CommitCase.published share content named staged there copies renames

/-- A commit that reports OK has put the staged content into the shared file, keeps the staging
file, leaves no copy and has told the enforcer once; a commit that fails in its copy or its
rename has done nothing. -/
structure CommitAtomic (stagingPath : PathText) (calls : CommitCalls) (files : Files) : Prop where
  onOk : (commitFileChanges stagingPath calls files).status = .ok →
    ∃ share content handle, sharePath stagingPath = .ok share ∧ files stagingPath = some content ∧
      (commitFileChanges stagingPath calls files).files share = some content ∧
      (commitFileChanges stagingPath calls files).files stagingPath = some content ∧
      (commitFileChanges stagingPath calls files).files (share ++ tmpFileSuffix) = none ∧
      (commitFileChanges stagingPath calls files).published = [⟨.fileshare, handle, .fileUpdated⟩]
  onFailure : (commitFileChanges stagingPath calls files).stage = .copy ∨
      (commitFileChanges stagingPath calls files).stage = .rename →
    (commitFileChanges stagingPath calls files).status ≠ .ok ∧
      (commitFileChanges stagingPath calls files).published = [] ∧
      (commitFileChanges stagingPath calls files).files = files

/-- A copy that fails half way, or a rename that fails, leaves the copy behind. -/
def Leaves (stagingPath : PathText) (calls : CommitCalls) (files : Files) : Prop :=
  ∃ share, sharePath stagingPath = .ok share ∧ (files stagingPath).isSome = true ∧
    files (share ++ tmpFileSuffix) = none ∧
    ((∃ message part, calls.copy = .fails message (some part)) ∨
      (calls.copy = .succeeds ∧ calls.rename.isSome = true))

theorem share_ne_tmp (share : PathText) : share ≠ share ++ tmpFileSuffix := by
  intro same
  have lengths := congrArg List.length same
  simp [tmpFileSuffix] at lengths

theorem staging_ne_tmp (share : PathText) : share ++ stagingFileSuffix ≠ share ++ tmpFileSuffix := by
  rw [Ne, List.append_cancel_left_eq]
  decide

theorem staging_ne_share (share : PathText) : share ++ stagingFileSuffix ≠ share := by
  intro same
  have lengths := congrArg List.length same
  simp [stagingFileSuffix] at lengths

theorem update_ne_self (files : Files) (path : PathText) (content : Bytes) (free : files path = none) :
    Function.update files path (some content) ≠ files := by
  intro same
  have here := congrFun same path
  rw [Function.update_self, free] at here
  cases here

/-- What a commit that reaches the publish has done to the files. -/
theorem renamed_files (share : PathText) (content : Bytes) (files : Files) (path : PathText) :
    renameFile (share ++ tmpFileSuffix) share
        (Function.update files (share ++ tmpFileSuffix) (some content)) path =
      if path = share ++ tmpFileSuffix then none
      else if path = share then some content else files path := by
  unfold renameFile
  by_cases tmp : path = share ++ tmpFileSuffix
  · simp [tmp]
  · by_cases shared : path = share
    · rw [shared, if_neg (share_ne_tmp share), if_pos rfl, Function.update_of_ne (share_ne_tmp share),
        Function.update_self, Function.update_self]
    · simp [tmp, shared]

/-- What a commit that reports OK has done. -/
theorem commit_ok (succeeded : (commitFileChanges stagingPath calls files).status = .ok) :
    ∃ share content handle, sharePath stagingPath = .ok share ∧ files stagingPath = some content ∧
      (commitFileChanges stagingPath calls files).files share = some content ∧
      (commitFileChanges stagingPath calls files).files stagingPath = some content ∧
      (commitFileChanges stagingPath calls files).files (share ++ tmpFileSuffix) = none ∧
      (commitFileChanges stagingPath calls files).published =
        [⟨.fileshare, handle, .fileUpdated⟩] := by
  have known := commit_case stagingPath calls files
  generalize commitFileChanges stagingPath calls files = committed at known succeeded ⊢
  cases known with
  | badArguments codeName message rejected => cases succeeded
  | blocked share message named impossible => cases succeeded
  | copyFailed share content message part named staged free fails => cases succeeded
  | renameFailed share content errno named staged free copies fails => cases succeeded
  | published share content named staged free copies renames =>
    obtain ⟨is, _⟩ := (sharePath_ok_iff stagingPath share).mp named
    subst is
    have after := renamed_files share content files
    refine ⟨share, content, filename (parentPath share), named, staged, (after _).trans ?_,
      (after _).trans ?_, (after _).trans (if_pos rfl), rfl⟩
    · rw [if_neg (share_ne_tmp share), if_pos rfl]
    · rw [if_neg (staging_ne_tmp share), if_neg (staging_ne_share share), staged]

theorem commit_failed
    (failed : (commitFileChanges stagingPath calls files).stage = .copy ∨ (commitFileChanges stagingPath
      calls files).stage = .rename) :
    (commitFileChanges stagingPath calls files).status ≠ .ok ∧
      (commitFileChanges stagingPath calls files).published = [] ∧
      ((commitFileChanges stagingPath calls files).files = files ↔
        ¬ Leaves stagingPath calls files) := by
  have known := commit_case stagingPath calls files
  generalize commitFileChanges stagingPath calls files = committed at known failed ⊢
  cases known with
  | badArguments codeName message rejected => simp at failed
  | published share content named staged free copies renames => simp at failed
  | blocked share message named impossible =>
    refine ⟨by simp, rfl, iff_of_true rfl ?_⟩
    rintro ⟨other, alsoNamed, staged, free, _⟩
    cases named.symm.trans alsoNamed
    rcases impossible with missing | blocking
    · simp [missing] at staged
    · simp [free] at blocking
  | copyFailed share content message part named staged free fails =>
    refine ⟨by simp, rfl, ?_⟩
    cases part with
    | none =>
      have same : Function.update files (share ++ tmpFileSuffix) none = files := by
        rw [← free, Function.update_eq_self]
      refine iff_of_true same ?_
      rintro ⟨other, _, _, _, ⟨text, left, half⟩ | ⟨copies, _⟩⟩
      · cases fails.symm.trans half
      · cases fails.symm.trans copies
    | some left =>
      exact iff_of_false (update_ne_self files _ left free)
        (not_not.mpr ⟨share, named, by simp [staged], free, .inl ⟨message, left, fails⟩⟩)
  | renameFailed share content errno named staged free copies fails =>
    exact ⟨by simp [errnoToStatus], rfl, iff_of_false (update_ne_self files _ content free)
      (not_not.mpr ⟨share, named, by simp [staged], free, .inr ⟨copies, by simp [fails]⟩⟩)⟩

theorem leaves_fails (leaves : Leaves stagingPath calls files) :
    (commitFileChanges stagingPath calls files).stage = .copy ∨
      (commitFileChanges stagingPath calls files).stage = .rename := by
  obtain ⟨share, named, _, _, how⟩ := leaves
  have known := commit_case stagingPath calls files
  generalize commitFileChanges stagingPath calls files = committed at known ⊢
  cases known with
  | badArguments codeName message rejected => cases rejected.symm.trans named
  | blocked other message also impossible => exact .inl rfl
  | copyFailed other content message part also staged free fails => exact .inl rfl
  | renameFailed other content errno also staged free copies fails => exact .inr rfl
  | published other content also staged free copies renames =>
    rcases how with ⟨message, left, fails⟩ | ⟨_, refused⟩
    · cases copies.symm.trans fails
    · simp [renames] at refused

theorem commit_atomic_iff (stagingPath : PathText) (calls : CommitCalls) (files : Files) :
    CommitAtomic stagingPath calls files ↔ ¬ Leaves stagingPath calls files := by
  constructor
  · intro atomic leaves
    have failed := leaves_fails leaves
    have kept := (atomic.onFailure failed).2.2
    exact (commit_failed failed).2.2.mp kept leaves
  · intro clean
    refine ⟨commit_ok, fun failed => ?_⟩
    obtain ⟨reported, untold, changed⟩ := commit_failed failed
    exact ⟨reported, untold, changed.mpr clean⟩

/-! ### Sequences of commits -/

/-- A commit, before which the caller may have written the staging file anew. -/
structure StagedCommit where
  stagingPath : PathText
  written : Option Bytes
  calls : CommitCalls

def StagedCommit.prepare (commit : StagedCommit) (files : Files) : Files :=
  match commit.written with
  | none => files
  | some content => Function.update files commit.stagingPath (some content)

def StagedCommit.run (commit : StagedCommit) (files : Files) : Committed :=
  commitFileChanges commit.stagingPath commit.calls (commit.prepare files)

def commitStep (files : Files) (commit : StagedCommit) : Option Files :=
  some (commit.run files).files

/-- The path is a staging path, its file exists, and no call fails of itself. -/
def StagedCommit.Unhindered (commit : StagedCommit) (files : Files) : Prop :=
  (∃ share, sharePath commit.stagingPath = .ok share) ∧
    (commit.prepare files commit.stagingPath).isSome = true ∧
    commit.calls.copy = .succeeds ∧ commit.calls.rename = none ∧ commit.calls.publish.ok = true

/-- Every commit of the sequence is atomic, and failed commits of one path do not make a later
commit of this path fail. -/
structure AllOrNothing (stagingPath : PathText) (files : Files) (commits : List StagedCommit) :
    Prop where
  each : Runs.EveryStep commitStep
    (fun files commit => CommitAtomic commit.stagingPath commit.calls (commit.prepare files))
    files commits
  retry : (∀ commit ∈ commits, commit.stagingPath = stagingPath) →
    Runs.EveryStep commitStep (fun files commit => (commit.run files).status ≠ .ok) files commits →
    ∀ reached, Runs.run commitStep files commits = some reached →
      ∀ later : StagedCommit, later.stagingPath = stagingPath → later.Unhindered reached →
        (later.run reached).status = .ok

/-- No copy is in the way at the start, and no commit leaves one behind. -/
structure Tidy (stagingPath : PathText) (files : Files) (commits : List StagedCommit) : Prop where
  fresh : (∀ commit ∈ commits, commit.stagingPath = stagingPath) →
    ∀ share, sharePath stagingPath = .ok share → files (share ++ tmpFileSuffix) = none
  clean : Runs.EveryStep commitStep
    (fun files commit => ¬ Leaves commit.stagingPath commit.calls (commit.prepare files))
    files commits

variable {commit : StagedCommit} {commits : List StagedCommit}

/-- Writing the staging file does not touch the temporary one. -/
theorem prepare_tmp (files : Files) (ofShare : commit.stagingPath = share ++ stagingFileSuffix) :
    commit.prepare files (share ++ tmpFileSuffix) = files (share ++ tmpFileSuffix) := by
  cases written : commit.written with
  | none => simp only [StagedCommit.prepare, written]
  | some content =>
    simp only [StagedCommit.prepare, written, ofShare]
    exact Function.update_of_ne (staging_ne_tmp share).symm _ _

theorem commit_keeps_free (named : sharePath (share ++ stagingFileSuffix) = .ok share)
    (free : files (share ++ tmpFileSuffix) = none)
    (clean : ¬ Leaves (share ++ stagingFileSuffix) calls files) :
    (commitFileChanges (share ++ stagingFileSuffix) calls files).files (share ++ tmpFileSuffix) =
      none := by
  have known := commit_case (share ++ stagingFileSuffix) calls files
  generalize commitFileChanges (share ++ stagingFileSuffix) calls files = committed at known
  have only (other : PathText) (also : sharePath (share ++ stagingFileSuffix) = .ok other) :
      other = share := Except.ok.inj (also.symm.trans named)
  cases known with
  | badArguments codeName message rejected => exact free
  | blocked other message also impossible => exact free
  | copyFailed other content message part also staged unused fails =>
    cases only other also
    cases part with
    | none => exact Function.update_self _ _ _
    | some left =>
      exact absurd ⟨share, named, by simp [staged], free, .inl ⟨message, left, fails⟩⟩ clean
  | renameFailed other content errno also staged unused copies fails =>
    exact absurd ⟨share, named, by simp [staged], free, .inr ⟨copies, by simp [fails]⟩⟩ clean
  | published other content also staged unused copies renames =>
    cases only other also
    exact (renamed_files share content files _).trans (if_pos rfl)

theorem commit_blocked (calls : CommitCalls)
    (named : sharePath (share ++ stagingFileSuffix) = .ok share)
    (blocking : (files (share ++ tmpFileSuffix)).isSome = true) :
    (commitFileChanges (share ++ stagingFileSuffix) calls files).status ≠ .ok ∧
      (commitFileChanges (share ++ stagingFileSuffix) calls files).files = files := by
  obtain ⟨leftover, there⟩ := Option.isSome_iff_exists.mp blocking
  cases staged : files (share ++ stagingFileSuffix) <;>
    simp [commitFileChanges, named, copyFile, staged, there]

theorem commit_unhindered (ofShare : commit.stagingPath = share ++ stagingFileSuffix)
    (named : sharePath commit.stagingPath = .ok share) (free : files (share ++ tmpFileSuffix) = none)
    (unhindered : commit.Unhindered files) :
    (commit.run files).status = .ok := by
  obtain ⟨_, staged, copies, renames, publishes⟩ := unhindered
  obtain ⟨content, there⟩ := Option.isSome_iff_exists.mp staged
  have unused : commit.prepare files (share ++ tmpFileSuffix) = none :=
    (prepare_tmp files ofShare).trans free
  simp [StagedCommit.run, commitFileChanges, named, copyFile, there, unused, copies, renames,
    toAbslStatus, publishes]

theorem allOrNothing_of_tidy (tidy : Tidy stagingPath files commits) :
    AllOrNothing stagingPath files commits where
  each := Runs.everyStep_mono _ _
    (fun before commit clean =>
      (commit_atomic_iff commit.stagingPath commit.calls (commit.prepare before)).mpr clean)
    files commits tidy.clean
  retry := by
    intro onePath _ reached ran later samePath unhindered
    obtain ⟨share, named⟩ := unhindered.1
    rw [samePath] at named
    obtain ⟨is, _⟩ := (sharePath_ok_iff stagingPath share).mp named
    subst is
    have free : reached (share ++ tmpFileSuffix) = none := by
      refine Runs.run_preserves_allowed (fun files => files (share ++ tmpFileSuffix) = none) _ ?_
        files reached commits (tidy.fresh onePath share named)
        (Runs.everyStep_and _ _ files commits tidy.clean
          (Runs.everyStep_of_mem _ files commits (fun commit member _ => onePath commit member))) ran
      rintro before ⟨path, written, calls⟩ next unused ⟨clean, ofShare⟩ taken
      cases ofShare
      cases taken
      exact commit_keeps_free named ((prepare_tmp before rfl).trans unused) clean
    exact commit_unhindered samePath (samePath ▸ named) free unhindered

theorem blocked_step (named : sharePath (share ++ stagingFileSuffix) = .ok share)
    (ofShare : commit.stagingPath = share ++ stagingFileSuffix)
    (blocking : (files (share ++ tmpFileSuffix)).isSome = true) :
    (commit.run files).status ≠ .ok ∧
      ((commit.run files).files (share ++ tmpFileSuffix)).isSome = true := by
  have there : (commit.prepare files (share ++ tmpFileSuffix)).isSome = true := by
    rw [prepare_tmp files ofShare]
    exact blocking
  have blocked := commit_blocked commit.calls named there
  rw [StagedCommit.run, ofShare, blocked.2]
  exact ⟨blocked.1, there⟩

theorem tidy_of_allOrNothing (atomic : AllOrNothing stagingPath files commits) :
    Tidy stagingPath files commits where
  clean := Runs.everyStep_mono _ _
    (fun before commit kept =>
      (commit_atomic_iff commit.stagingPath commit.calls (commit.prepare before)).mp kept)
    files commits atomic.each
  fresh := by
    intro onePath share named
    obtain ⟨is, _⟩ := (sharePath_ok_iff stagingPath share).mp named
    subst is
    by_contra used
    have blocking : (files (share ++ tmpFileSuffix)).isSome = true :=
      Option.isSome_iff_ne_none.mpr used
    have every : Runs.EveryStep commitStep
        (fun _ commit => commit.stagingPath = share ++ stagingFileSuffix) files commits :=
      Runs.everyStep_of_mem _ files commits (fun commit member _ => onePath commit member)
    have stays : ∀ before commit next, (before (share ++ tmpFileSuffix)).isSome = true →
        commit.stagingPath = share ++ stagingFileSuffix → commitStep before commit = some next →
        (next (share ++ tmpFileSuffix)).isSome = true := by
      intro before commit next there ofShare taken
      cases taken
      exact (blocked_step named ofShare there).2
    -- every commit fails at the file in the way, and so does one that nobody hinders
    have failing : Runs.EveryStep commitStep (fun files commit => (commit.run files).status ≠ .ok)
        files commits :=
      Runs.everyStep_of_invariant _ _ _ stays
        (fun before commit there ofShare => (blocked_step named ofShare there).1)
        files commits blocking every
    have total : ∀ before commit, ∃ next, commitStep before commit = some next :=
      fun before commit => ⟨_, rfl⟩
    obtain ⟨reached, ran⟩ := Runs.run_exists total files commits
    have last := Runs.run_preserves_allowed _ _ stays files reached commits blocking every ran
    let later : StagedCommit := ⟨share ++ stagingFileSuffix, some [], .succeeds, none, .OK⟩
    have unhindered : later.Unhindered reached :=
      ⟨⟨share, named⟩, by simp [later, StagedCommit.prepare], rfl, rfl, rfl⟩
    exact (blocked_step named rfl last).1
      (atomic.retry onePath failing reached ran later rfl unhindered)

theorem commits_all_or_nothing_iff (stagingPath : PathText) (files : Files)
    (commits : List StagedCommit) :
    AllOrNothing stagingPath files commits ↔ Tidy stagingPath files commits :=
  ⟨tidy_of_allOrNothing, allOrNothing_of_tidy⟩

/-- The two files of a share `h`, with something staged. -/
def stagedFiles : Files := fun path =>
  if path = ['/', 'h', '/', 'f', 'i', 'l', 'e'] then some []
  else if path = ['/', 'h', '/', 'f', 'i', 'l', 'e'] ++ stagingFileSuffix then some [1]
  else none

/-- A commit of the share `h` whose rename goes as given. -/
def shareCommit (rename : Option Errno) : StagedCommit :=
  ⟨['/', 'h', '/', 'f', 'i', 'l', 'e'] ++ stagingFileSuffix, none, .succeeds, rename, .OK⟩

theorem commit_leaves_copy :
    let failing := shareCommit (some ⟨"INTERNAL", "Input/output error"⟩)
    let tmp := ['/', 'h', '/', 'f', 'i', 'l', 'e'] ++ tmpFileSuffix
    stagedFiles tmp = none ∧ (failing.run stagedFiles).stage = .rename ∧
      (failing.run stagedFiles).files tmp = some [1] ∧
      (shareCommit none).Unhindered (failing.run stagedFiles).files ∧
      ((shareCommit none).run (failing.run stagedFiles).files).status =
        .error "INTERNAL" "Failed to copy staging file: File exists" ∧
      ¬ AllOrNothing failing.stagingPath stagedFiles [failing] := by
  intro failing tmp
  have left : (failing.run stagedFiles).files tmp ≠ stagedFiles tmp := by decide
  refine ⟨by decide, by decide, by decide, ⟨⟨_, rfl⟩, by decide, rfl, rfl, rfl⟩, by decide, ?_⟩
  intro atomic
  exact left (congrFun (atomic.each.1.onFailure (.inr rfl)).2.2 tmp)

/-! ### Handles -/

/-- The shared file of a handle. -/
def handlePath (handle : PathText) : PathText := '/' :: (handle ++ ['/', 'f', 'i', 'l', 'e'])

theorem createFileshare_stagingPath (status : Status) (handle : PathText) (opens : PathText → Bool)
    (files : Files) (created : status.ok = true) :
    (createFileshare status handle opens files).1.stagingPath =
      handlePath handle ++ stagingFileSuffix := by
  simp [createFileshare, created, handlePath]

/-- The event of a commit names the directory of the shared file. -/
theorem publish_event (named : sharePath stagingPath = .ok share)
    (published : (commitFileChanges stagingPath calls files).stage = .publish) :
    (commitFileChanges stagingPath calls files).published =
      [⟨.fileshare, filename (parentPath share), .fileUpdated⟩] := by
  have known := commit_case stagingPath calls files
  generalize commitFileChanges stagingPath calls files = committed at known published ⊢
  cases known with
  | badArguments codeName message rejected => cases published
  | blocked other message also impossible => cases published
  | copyFailed other content message part also staged free fails => cases published
  | renameFailed other content errno also staged free copies fails => cases published
  | published other content also staged free copies renames =>
    cases named.symm.trans also
    rfl

theorem separator_not_mem_filename (path : PathText) : '/' ∉ filename path := by
  intro member
  have kept := List.mem_takeWhile_imp (List.mem_reverse.mp member)
  simp at kept

theorem parentPath_handlePath (handle : PathText) (nonempty : handle ≠ []) (flat : '/' ∉ handle) :
    parentPath (handlePath handle) = '/' :: handle := by
  obtain ⟨last, front, split⟩ := List.exists_cons_of_ne_nil (List.reverse_ne_nil_iff.mpr nonempty)
  have lastOther : last ≠ '/' := by
    intro same
    exact flat (List.mem_reverse.mp (by simp [split, same]))
  have reversed : (handlePath handle).reverse =
      ['e', 'l', 'i', 'f'] ++ '/' :: (handle.reverse ++ ['/']) := by simp [handlePath]
  have directory : (handlePath handle).reverse.dropWhile (· ≠ '/') =
      '/' :: (handle.reverse ++ ['/']) := by
    rw [reversed]
    rfl
  have stripped : ('/' :: (handle.reverse ++ ['/'])).dropWhile (· = '/') =
      handle.reverse ++ ['/'] := by
    simp [split, lastOther]
  simp only [parentPath, directory, List.reverse_reverse, stripped]
  simp

theorem filename_of_flat (handle : PathText) (flat : '/' ∉ handle) :
    filename ('/' :: handle) = handle := by
  have other : ∀ char ∈ handle.reverse, char ≠ '/' := by
    intro char member same
    exact flat (same ▸ List.mem_reverse.mp member)
  rw [filename, List.reverse_cons, List.takeWhile_append_of_pos (by simpa using other)]
  simp

theorem handle_round_trip_iff (status : Status) (handle : PathText) (opens : PathText → Bool)
    (files committed : Files) (calls : CommitCalls) (created : status.ok = true)
    (nonempty : handle ≠ [])
    (published : (commitFileChanges (createFileshare status handle opens files).1.stagingPath calls
      committed).stage = .publish) :
    (commitFileChanges (createFileshare status handle opens files).1.stagingPath calls
        committed).published = [⟨.fileshare, handle, .fileUpdated⟩] ↔ '/' ∉ handle := by
  have named : sharePath (createFileshare status handle opens files).1.stagingPath =
      .ok (handlePath handle) :=
    (sharePath_ok_iff _ _).mpr
      ⟨createFileshare_stagingPath status handle opens files created, by simp [handlePath]⟩
  rw [publish_event named published]
  constructor
  · intro same
    have handles : filename (parentPath (handlePath handle)) = handle := by simpa using same
    rw [← handles]
    exact separator_not_mem_filename _
  · intro flat
    rw [parentPath_handlePath handle nonempty flat, filename_of_flat handle flat]

theorem handle_round_trip_flat :
    (createFileshare .OK ['h'] (fun _ => true) (fun _ => none)).1.stagingPath =
        (shareCommit none).stagingPath ∧
      ((shareCommit none).run stagedFiles).published = [⟨.fileshare, ['h'], .fileUpdated⟩] :=
  ⟨rfl, (handle_round_trip_iff .OK ['h'] (fun _ => true) (fun _ => none) stagedFiles
    (shareCommit none).calls rfl (by simp) (by decide)).mpr (by simp)⟩

/-- A handle of the test service. -/
def nestedHandle : PathText :=
  ['t', 'm', 'p', '/', 'i', 's', 'o', 'l', 'a', 't', 'e', '_', 'e', 'z', '_', 'b', 'r', 'i', 'd', 'g',
    'e', '_', 't', 'e', 's', 't', '/', '0']

theorem nested_handle_lost :
    let created := createFileshare .OK nestedHandle (fun _ => true) (fun _ => none)
    (commitFileChanges created.1.stagingPath ⟨.succeeds, none, .OK⟩ created.2).status = .ok ∧
      created.1.fileshareHandle = nestedHandle ∧ nestedHandle ≠ ['0'] ∧
      (commitFileChanges created.1.stagingPath ⟨.succeeds, none, .OK⟩ created.2).published =
        [⟨.fileshare, ['0'], .fileUpdated⟩] := by
  decide

end EzSdk.Client
