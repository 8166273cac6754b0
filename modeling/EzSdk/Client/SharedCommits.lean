import EzSdk.Client.Sharing

/-! A fileshare in use refines the commits of `CommitFileChanges` that go one after the other. A
commit takes place at its `rename`. -/

namespace EzSdk.Client.Sharing

open Inodes

/-- The content that a commit puts into the shared file. -/
def newContent (path : PathText) (committed : Committed) : List Bytes :=
  if committed.stage = .publish then (committed.files path).toList else []

/-- The contents that the commits put into the shared file. -/
def newContents (path : PathText) : Files → List StagedCommit → List Bytes
  | _, [] => []
  | files, commit :: commits =>
    newContent path (commit.run files) ++ newContents path (commit.run files).files commits

theorem newContents_concat (path : PathText) (start files : Files) (commits : List StagedCommit)
    (commit : StagedCommit) (ran : Runs.run commitStep start commits = some files) :
    newContents path start (commits ++ [commit]) =
      newContents path start commits ++ newContent path (commit.run files) := by
  induction commits generalizing start with
  | nil =>
    cases ran
    simp [newContents]
  | cons first commits ih =>
    rcases (Runs.run_cons _ _ _ _).mp ran with ⟨next, taken, rest⟩
    cases taken
    simp only [List.cons_append, newContents, ih _ rest, List.append_assoc]

/-- The files with what has been written to the staging file since the last commit. -/
def staged (path : PathText) (written : Option Bytes) (files : Files) : Files :=
  StagedCommit.prepare ⟨path ++ stagingFileSuffix, written, .succeeds, none, .OK⟩ files

theorem update_staged (path : PathText) (written : Option Bytes) (content : Bytes) (files : Files) :
    Function.update (staged path written files) (path ++ stagingFileSuffix) (some content) =
      staged path (some content) files := by
  cases written with
  | none => rfl
  | some old => exact Function.update_idem _ _ _

/-! ### The ways of a commit -/

def commitOf (path : PathText) (calls : CommitCalls) (files : Files) : Committed :=
  commitFileChanges (path ++ stagingFileSuffix) calls files

section Commit

variable {path : PathText} {files : Files} (nonempty : path ≠ [])

include nonempty

theorem commit_in_the_way (impossible : files (path ++ stagingFileSuffix) = none ∨
      files (path ++ tmpFileSuffix) ≠ none) (calls : CommitCalls) :
    (commitOf path calls files).stage = .copy ∧ (commitOf path calls files).files = files := by
  have named := (sharePath_ok_iff (path ++ stagingFileSuffix) path).mpr ⟨rfl, nonempty⟩
  cases source : files (path ++ stagingFileSuffix) with
  | none => simp [commitOf, commitFileChanges, named, copyFile, source]
  | some content =>
    rcases Option.ne_none_iff_exists'.mp (impossible.resolve_left (by simp [source])) with ⟨other, target⟩
    simp [commitOf, commitFileChanges, named, copyFile, source, target]

variable {content : Bytes} (source : files (path ++ stagingFileSuffix) = some content)
  (free : files (path ++ tmpFileSuffix) = none)

include source free

theorem commit_copy_fails (message : String) (part : Option Bytes) (rename : Option Errno) (publish : Status) :
    (commitOf path ⟨.fails message part, rename, publish⟩ files).stage = .copy ∧
      (commitOf path ⟨.fails message part, rename, publish⟩ files).files =
        Function.update files (path ++ tmpFileSuffix) part := by
  have named := (sharePath_ok_iff (path ++ stagingFileSuffix) path).mpr ⟨rfl, nonempty⟩
  simp [commitOf, commitFileChanges, named, copyFile, source, free]

theorem commit_rename_fails (errno : Errno) (publish : Status) :
    (commitOf path ⟨.succeeds, some errno, publish⟩ files).stage = .rename ∧
      (commitOf path ⟨.succeeds, some errno, publish⟩ files).files =
        Function.update files (path ++ tmpFileSuffix) (some content) := by
  have named := (sharePath_ok_iff (path ++ stagingFileSuffix) path).mpr ⟨rfl, nonempty⟩
  simp [commitOf, commitFileChanges, named, copyFile, source, free]

theorem commit_renames (publish : Status) :
    (commitOf path ⟨.succeeds, none, publish⟩ files).stage = .publish ∧
      (commitOf path ⟨.succeeds, none, publish⟩ files).files =
        renameFile (path ++ tmpFileSuffix) path
          (Function.update files (path ++ tmpFileSuffix) (some content)) := by
  have named := (sharePath_ok_iff (path ++ stagingFileSuffix) path).mpr ⟨rfl, nonempty⟩
  simp [commitOf, commitFileChanges, named, copyFile, source, free]

end Commit

/-! ### The simulation -/

/-- The commits that have been asked for and have not taken place. -/
def pending (share : Share) : Nat :=
  match share.owner with
  | .copying _ _ _ => 1
  | .copied _ => 1
  | _ => 0

/-- What is on the disk, where the commits so far and the last writes have led to these files. -/
def OnDisk (path : PathText) (share : Share) (files : Files) : Prop :=
  match share.owner with
  | .copying _ tmp _ => files (path ++ tmpFileSuffix) = none ∧
      share.disk.view = Function.update files (path ++ tmpFileSuffix) (some (share.disk.content tmp))
  | .copied tmp => files (path ++ tmpFileSuffix) = none ∧
      share.disk.view = Function.update files (path ++ tmpFileSuffix) (some (share.disk.content tmp))
  | _ => share.disk.view = files

structure Explained (path : PathText) (start : Files) (initial : Bytes) (share : Share) (asked : Nat)
    (commits : List StagedCommit) (files : Files) (written : Option Bytes) : Prop where
  paths : ∀ commit ∈ commits, commit.stagingPath = path ++ stagingFileSuffix
  ran : Runs.run commitStep start commits = some files
  versions : share.versions = initial :: newContents path start commits
  onDisk : OnDisk path share (staged path written files)
  asked : asked = commits.length + pending share

section Simulation

variable {path : PathText} {start files : Files} {initial : Bytes} {share next : Share} {asked later : Nat}
  {commits : List StagedCommit} {written : Option Bytes}

/-- A commit takes place. -/
theorem explained_commit (explained : Explained path start initial share asked commits files written)
    (calls : CommitCalls)
    (versions : next.versions = share.versions ++ newContent path (commitOf path calls (staged path written files)))
    (onDisk : OnDisk path next (commitOf path calls (staged path written files)).files)
    (counted : later = commits.length + 1 + pending next) :
    ∃ commits files written, Explained path start initial next later commits files written := by
  let commit : StagedCommit := ⟨path ++ stagingFileSuffix, written, calls⟩
  have same : commit.run files = commitOf path calls (staged path written files) := rfl
  refine ⟨commits ++ [commit], (commit.run files).files, none, ?_, ?_, ?_, onDisk, ?_⟩
  · intro other member
    rcases List.mem_append.mp member with old | new
    · exact explained.paths other old
    · rw [List.mem_singleton.mp new]
  · exact (Runs.run_append _ _ _ _).mpr ⟨files, explained.ran, rfl⟩
  · rw [versions, explained.versions, newContents_concat path start files commits commit explained.ran, same]
    rfl
  · rw [counted, List.length_append]
    rfl

theorem view_of_named {target : PathText} {inode : Nat} (named : share.disk.entry target = some inode) :
    share.disk.view target = some (share.disk.content inode) := by
  rw [Disk.view, named, Option.map_some]

theorem explained_keeps (explained : Explained path start initial share asked commits files written)
    (later : Option Bytes) (versions : next.versions = share.versions)
    (onDisk : OnDisk path next (staged path later files)) (counted : pending next = pending share) :
    ∃ commits files written, Explained path start initial next asked commits files written :=
  ⟨commits, files, later, explained.paths, explained.ran, versions.trans explained.versions, onDisk,
    counted ▸ explained.asked⟩

theorem staged_source {copy : Bytes} (onDisk : share.disk.view =
      Function.update (staged path written files) (path ++ tmpFileSuffix) (some copy))
    {staging : Nat} (named : share.disk.entry (path ++ stagingFileSuffix) = some staging) :
    staged path written files (path ++ stagingFileSuffix) = some (share.disk.content staging) := by
  have seen := view_of_named named
  rwa [onDisk, Function.update_of_ne (staging_ne_tmp path)] at seen

/-- The commit that an event of the owner asks for. -/
def commitsAsked : OwnerEvent → Nat
  | .commits => 1
  | _ => 0

theorem explained_ownerStep {event : OwnerEvent} (nonempty : path ≠ []) (busy : Busy path share)
    (explained : Explained path start initial share asked commits files written)
    (taken : OwnerSteps path share event next) :
    ∃ commits files written,
      Explained path start initial next (asked + commitsAsked event) commits files written := by
  have onDisk := explained.onDisk
  have counted := explained.asked
  cases taken with
  | truncates staging idle named =>
    simp only [OnDisk, idle] at onDisk
    refine explained_keeps explained (some []) rfl ?_ (by simp [pending, idle])
    simp only [OnDisk]
    rw [Disk.view_set named, onDisk, update_staged]
  | creates idle unnamed =>
    simp only [OnDisk, idle] at onDisk
    refine explained_keeps explained (some []) rfl ?_ (by simp [pending, idle])
    simp only [OnDisk]
    rw [Disk.view_create, onDisk, update_staged]
  | writes staging bytes writing =>
    simp only [OnDisk, writing] at onDisk
    simp only [Busy, writing] at busy
    refine explained_keeps explained (some (share.disk.content staging ++ bytes)) rfl ?_ rfl
    simp only [OnDisk, writing]
    rw [Disk.view_set busy, onDisk, update_staged]
  | closes staging writing =>
    simp only [OnDisk, writing] at onDisk
    exact explained_keeps explained written rfl onDisk (by simp [pending, writing])
  | copyOpens staging idle named free =>
    simp only [OnDisk, idle] at onDisk
    refine ⟨commits, files, written, explained.paths, explained.ran, explained.versions, ⟨?_, ?_⟩, ?_⟩
    · rw [← onDisk, Disk.view, free, Option.map_none]
    · rw [Disk.view_create, onDisk]
      simp [Disk.create]
    · simp [counted, commitsAsked, pending, idle]
  | blocked idle impossible =>
    simp only [OnDisk, idle] at onDisk
    have absent : staged path written files (path ++ stagingFileSuffix) = none ∨
        staged path written files (path ++ tmpFileSuffix) ≠ none := by
      rw [← onDisk]
      simpa [Disk.view] using impossible
    have fails := commit_in_the_way nonempty absent ⟨.succeeds, none, .OK⟩
    apply explained_commit explained ⟨.succeeds, none, .OK⟩
    · simp [newContent, fails]
    · simpa only [OnDisk, idle, fails] using onDisk
    · simp [counted, commitsAsked, pending, idle]
  | copies staging tmp done count copying =>
    simp only [OnDisk, copying] at onDisk
    simp only [Busy, copying] at busy
    refine explained_keeps explained written rfl ⟨onDisk.1, ?_⟩ (by simp [pending, copying])
    rw [Disk.view_set busy.2.1, onDisk.2, Function.update_idem]
    simp [Disk.set]
  | copied staging tmp done count copying all =>
    simp only [OnDisk, copying] at onDisk
    exact explained_keeps explained written rfl onDisk (by simp [pending, copying])
  | copyFails staging tmp done leaves copying =>
    simp only [OnDisk, copying] at onDisk
    simp only [Busy, copying] at busy
    have source := staged_source onDisk.2 busy.1
    have fails (part : Option Bytes) := commit_copy_fails nonempty source onDisk.1 "" part none .OK
    apply explained_commit explained
      ⟨.fails "" (if leaves then some (share.disk.content tmp) else none), none, .OK⟩
    · simp [newContent, fails]
    · rw [(fails _).2]
      cases leaves with
      | true => exact onDisk.2
      | false =>
        refine (Disk.view_remove _).trans ?_
        rw [onDisk.2, Function.update_idem]
        rfl
    · simp [counted, commitsAsked, pending, copying]
  | renames tmp whole =>
    simp only [OnDisk, whole] at onDisk
    simp only [Busy, whole] at busy
    rcases busy with ⟨staging, named, target, same⟩
    have source := staged_source onDisk.2 named
    have moves := commit_renames nonempty source onDisk.1 .OK
    have new : newContent path (commitOf path ⟨.succeeds, none, .OK⟩ (staged path written files)) =
        [share.disk.content tmp] := by
      rw [newContent, if_pos moves.1, moves.2, renamed_files, if_neg (share_ne_tmp path), if_pos rfl, same]
      rfl
    apply explained_commit explained ⟨.succeeds, none, .OK⟩
    · rw [new]
    · rw [moves.2, ← same]
      refine (Disk.view_rename (share_ne_tmp path)).trans ?_
      rw [onDisk.2]
      rfl
    · simp [counted, commitsAsked, pending, whole]
  | renameFails tmp whole =>
    simp only [OnDisk, whole] at onDisk
    simp only [Busy, whole] at busy
    rcases busy with ⟨staging, named, target, same⟩
    have source := staged_source onDisk.2 named
    have fails := commit_rename_fails nonempty source onDisk.1 ⟨"INTERNAL", ""⟩ .OK
    apply explained_commit explained ⟨.succeeds, some ⟨"INTERNAL", ""⟩, .OK⟩
    · simp [newContent, fails]
    · rw [fails.2, ← same]
      exact onDisk.2
    · simp [counted, commitsAsked, pending, whole]
  | publishes publishing
  | publishFails publishing =>
    simp only [OnDisk, publishing] at onDisk
    exact explained_keeps explained written rfl onDisk (by simp [pending, publishing])

theorem explained_readerStep {index : Nat} {event : ReaderEvent}
    (explained : Explained path start initial share asked commits files written)
    (taken : ReaderSteps path share index event next) :
    Explained path start initial next asked commits files written := by
  cases taken <;> exact { explained with }

end Simulation

/-- A call of `CommitFileChanges`. -/
def asksCommit : Event → Option Unit
  | .owner .commits => some ()
  | _ => none

theorem run_explained (path : PathText) (nonempty : path ≠ []) (disk : Disk PathText UInt8) (initial : Bytes)
    (shared : disk.view path = some initial) (events : List Event) (final : Share)
    (reached : Runs.run (step path) (begin disk initial) events = some final) :
    ∃ commits files written, Explained path disk.view initial final (events.filterMap asksCommit).length
      commits files written := by
  have whole : Sound path final ∧ ∃ commits files written,
      Explained path disk.view initial final (events.filterMap asksCommit).length commits files written := by
    apply Runs.run_history (fun share asked => Sound path share ∧ ∃ commits files written,
      Explained path disk.view initial share asked.length commits files written) asksCommit ?_ _ final events
      ⟨sound_begin shared, [], disk.view, none, nofun, rfl, rfl, rfl, rfl⟩ reached
    intro share event next asked held taken
    rcases held with ⟨sound, commits, files, written, explained⟩
    refine ⟨sound_step sound taken, ?_⟩
    cases event with
    | owner event =>
      have counted : (asked ++ (asksCommit (.owner event)).toList).length =
          asked.length + commitsAsked event := by
        rw [List.length_append]
        cases event <;> rfl
      rw [counted]
      exact explained_ownerStep nonempty sound.busy explained (ownerStep_spec taken)
    | reader index event =>
      have counted : asked ++ (asksCommit (.reader index event)).toList = asked := List.append_nil asked
      rw [counted]
      exact ⟨commits, files, written, explained_readerStep explained (readerStep_spec taken)⟩
  exact whole.2

theorem onDisk_shared {path : PathText} {share : Share} {files : Files} (onDisk : OnDisk path share files) :
    share.disk.view path = files path := by
  unfold OnDisk at onDisk
  split at onDisk
  · rw [onDisk.2, Function.update_of_ne (share_ne_tmp path)]
  · rw [onDisk.2, Function.update_of_ne (share_ne_tmp path)]
  · rw [onDisk]

theorem staged_shared (path : PathText) (written : Option Bytes) (files : Files) :
    staged path written files path = files path := by
  cases written with
  | none => rfl
  | some content => exact Function.update_of_ne (staging_ne_share path).symm _ _

/-- However the system calls of the owner and of the readers interleave, and whichever of them fail,
there are commits one after the other, each as `CommitFileChanges` does it alone, that explain the
share. The shared file is as they leave it, and its versions are what they have put into it. When the
owner is idle, each of its calls is one of them, and all files are as they leave them, but for what has
been written to the staging file since. -/
theorem share_refines_commits (path : PathText) (nonempty : path ≠ []) (disk : Disk PathText UInt8)
    (initial : Bytes) (shared : disk.view path = some initial) (events : List Event) (final : Share)
    (reached : Runs.run (step path) (begin disk initial) events = some final) :
    ∃ commits files, (∀ commit ∈ commits, commit.stagingPath = path ++ stagingFileSuffix) ∧
      Runs.run commitStep disk.view commits = some files ∧
      final.versions = initial :: newContents path disk.view commits ∧ final.disk.view path = files path ∧
      (final.owner = .idle → commits.length = (events.filterMap asksCommit).length ∧
        ∃ written, final.disk.view = staged path written files) := by
  rcases run_explained path nonempty disk initial shared events final reached with
    ⟨commits, files, written, explained⟩
  have onDisk := explained.onDisk
  refine ⟨commits, files, explained.paths, explained.ran, explained.versions, ?_, ?_⟩
  · exact (onDisk_shared onDisk).trans (staged_shared path written files)
  · intro idle
    simp only [OnDisk, idle] at onDisk
    refine ⟨?_, written, onDisk⟩
    have counted := explained.asked
    simp only [pending, idle] at counted
    omega

theorem overlapping_refines_commits :
    ∃ final commits files, Runs.run (step (handlePath ['h'])) (begin (created (handlePath ['h'])) []) overlapping =
        some final ∧ commits.length = 1 ∧
      Runs.run commitStep (created (handlePath ['h'])).view commits = some files ∧
      ∃ written, final.disk.view = staged (handlePath ['h']) written files := by
  rcases share_refines_commits (handlePath ['h']) (List.cons_ne_nil _ _) (created (handlePath ['h'])) [] rfl
    overlapping _ rfl with ⟨commits, files, _, ran, _, _, idle⟩
  exact ⟨_, commits, files, rfl, (idle rfl).1, ran, (idle rfl).2⟩

end EzSdk.Client.Sharing
