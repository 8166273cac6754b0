import EzSdk.Client.Fileshares
import EzSdk.Foundation.Inodes
import EzSdk.Foundation.Runs

/-! A fileshare while it is in use: the owner writes the staging file and commits, one system call
after the other, and isolates that it is shared with read the shared file meanwhile. -/

namespace EzSdk.Client.Sharing

open Inodes

/-- What the owner is doing. Open files are inodes. -/
inductive Owner where
  | idle
  /-- The staging file is open in an `ofstream`. -/
  | writing (staging : Nat)
  /-- `std::filesystem::copy` has copied so many bytes. -/
  | copying (staging tmp : Nat) (count : Nat)
  /-- The copy is complete. -/
  | copied (tmp : Nat)
  | publishing

/-- A reader of the shared file. It has opened the version with this number after the events for the
versions that it has `heard`. -/
structure Reader where
  inode : Nat
  version : Nat
  heard : List Nat
  got : Bytes

/-- `versions` are the contents that the shared file has had, `published` are those of them that the
enforcer has been told about. -/
structure Share where
  disk : Disk PathText UInt8
  owner : Owner
  versions : List Bytes
  published : List Nat
  reading : Nat → Option Reader
  finished : List Reader

def Share.setReading (share : Share) (index : Nat) (reader : Option Reader) : Share :=
  { share with reading := Function.update share.reading index reader }

/-- The next bytes of the file. -/
def Share.chunk (share : Share) (inode offset count : Nat) : Bytes :=
  ((share.disk.content inode).drop offset).take count

/-- A share that no one uses yet. -/
def begin (disk : Disk PathText UInt8) (initial : Bytes) : Share where
  disk := disk
  owner := .idle
  versions := [initial]
  published := []
  reading := fun _ => none
  finished := []

inductive OwnerEvent where
  | opensStaging
  | writes (bytes : Bytes)
  | closesStaging
  /-- `CommitFileChanges` is called, and its copy opens both files if it can. -/
  | commits
  | copies (count : Nat)
  /-- The copy fails, and leaves its target or does not. -/
  | copyFails (leaves : Bool)
  | renames (ok : Bool)
  /-- `PublishEventFor` returns, and the enforcer has got the event or has not. -/
  | publishes (told : Bool)

inductive ReaderEvent where
  | opens
  | reads (count : Nat)
  /-- The reader finds the end of the file. -/
  | ends

inductive Event where
  | owner (event : OwnerEvent)
  | reader (index : Nat) (event : ReaderEvent)

section Steps

variable (path : PathText)

def ownerStep (share : Share) : OwnerEvent → Option Share
  | .opensStaging =>
    match share.owner, share.disk.entry (path ++ stagingFileSuffix) with
    | .idle, some staging => some { share with disk := share.disk.set staging [], owner := .writing staging }
    | .idle, none =>
      some { share with
        disk := share.disk.create (path ++ stagingFileSuffix)
        owner := .writing share.disk.fresh }
    | _, _ => none
  | .writes bytes =>
    match share.owner with
    | .writing staging =>
      some { share with disk := share.disk.set staging (share.disk.content staging ++ bytes) }
    | _ => none
  | .closesStaging =>
    match share.owner with
    | .writing _ => some { share with owner := .idle }
    | _ => none
  | .commits =>
    match share.owner with
    | .idle =>
      match share.disk.entry (path ++ stagingFileSuffix), share.disk.entry (path ++ tmpFileSuffix) with
      | some staging, none =>
        some { share with
          disk := share.disk.create (path ++ tmpFileSuffix)
          owner := .copying staging share.disk.fresh 0 }
      | _, _ => some share
    | _ => none
  | .copies count =>
    match share.owner with
    | .copying staging tmp done =>
      let chunk := share.chunk staging done (count + 1)
      if chunk = [] then some { share with owner := .copied tmp }
      else
        some { share with
          disk := share.disk.set tmp (share.disk.content tmp ++ chunk)
          owner := .copying staging tmp (done + chunk.length) }
    | _ => none
  | .copyFails leaves =>
    match share.owner with
    | .copying _ _ _ =>
      some { share with
        disk := if leaves then share.disk else share.disk.remove (path ++ tmpFileSuffix)
        owner := .idle }
    | _ => none
  | .renames ok =>
    match share.owner with
    | .copied tmp =>
      if ok then
        some { share with
          disk := share.disk.rename (path ++ tmpFileSuffix) path
          owner := .publishing
          versions := share.versions ++ [share.disk.content tmp] }
      else some { share with owner := .idle }
    | _ => none
  | .publishes told =>
    match share.owner with
    | .publishing =>
      if told then
        some { share with owner := .idle, published := share.published ++ [share.versions.length - 1] }
      else some { share with owner := .idle }
    | _ => none

def readerStep (share : Share) (index : Nat) : ReaderEvent → Option Share
  | .opens =>
    match share.disk.entry path, share.reading index with
    | some inode, none =>
      some (share.setReading index (some ⟨inode, share.versions.length - 1, share.published, []⟩))
    | _, _ => none
  | .reads count =>
    match share.reading index with
    | some reader =>
      let chunk := share.chunk reader.inode reader.got.length count
      some (share.setReading index (some { reader with got := reader.got ++ chunk }))
    | none => none
  | .ends =>
    match share.reading index with
    | some reader =>
      if (share.disk.content reader.inode).length ≤ reader.got.length then
        some { share.setReading index none with finished := share.finished ++ [reader] }
      else none
    | none => none

def step (share : Share) : Event → Option Share
  | .owner event => ownerStep path share event
  | .reader index event => readerStep path share index event

end Steps

/-! ### What a step does -/

/-- The ways in which a system call of the owner goes. -/
inductive OwnerSteps (path : PathText) (share : Share) : OwnerEvent → Share → Prop where
  | truncates (staging : Nat) (idle : share.owner = .idle)
      (named : share.disk.entry (path ++ stagingFileSuffix) = some staging) :
      OwnerSteps path share .opensStaging
        { share with disk := share.disk.set staging [], owner := .writing staging }
  | creates (idle : share.owner = .idle) (unnamed : share.disk.entry (path ++ stagingFileSuffix) = none) :
      OwnerSteps path share .opensStaging { share with
        disk := share.disk.create (path ++ stagingFileSuffix)
        owner := .writing share.disk.fresh }
  | writes (staging : Nat) (bytes : Bytes) (writing : share.owner = .writing staging) :
      OwnerSteps path share (.writes bytes)
        { share with disk := share.disk.set staging (share.disk.content staging ++ bytes) }
  | closes (staging : Nat) (writing : share.owner = .writing staging) :
      OwnerSteps path share .closesStaging { share with owner := .idle }
  | copyOpens (staging : Nat) (idle : share.owner = .idle)
      (named : share.disk.entry (path ++ stagingFileSuffix) = some staging)
      (free : share.disk.entry (path ++ tmpFileSuffix) = none) :
      OwnerSteps path share .commits { share with
        disk := share.disk.create (path ++ tmpFileSuffix)
        owner := .copying staging share.disk.fresh 0 }
  | blocked (idle : share.owner = .idle)
      (impossible : share.disk.entry (path ++ stagingFileSuffix) = none ∨
        share.disk.entry (path ++ tmpFileSuffix) ≠ none) : OwnerSteps path share .commits share
  | copies (staging tmp done count : Nat) (copying : share.owner = .copying staging tmp done) :
      OwnerSteps path share (.copies count) { share with
        disk := share.disk.set tmp (share.disk.content tmp ++ share.chunk staging done (count + 1))
        owner := .copying staging tmp (done + (share.chunk staging done (count + 1)).length) }
  | copied (staging tmp done count : Nat) (copying : share.owner = .copying staging tmp done)
      (all : (share.disk.content staging).length ≤ done) :
      OwnerSteps path share (.copies count) { share with owner := .copied tmp }
  | copyFails (staging tmp done : Nat) (leaves : Bool) (copying : share.owner = .copying staging tmp done) :
      OwnerSteps path share (.copyFails leaves) { share with
        disk := if leaves then share.disk else share.disk.remove (path ++ tmpFileSuffix)
        owner := .idle }
  | renames (tmp : Nat) (whole : share.owner = .copied tmp) :
      OwnerSteps path share (.renames true) { share with
        disk := share.disk.rename (path ++ tmpFileSuffix) path
        owner := .publishing
        versions := share.versions ++ [share.disk.content tmp] }
  | renameFails (tmp : Nat) (whole : share.owner = .copied tmp) :
      OwnerSteps path share (.renames false) { share with owner := .idle }
  | publishes (publishing : share.owner = .publishing) :
      OwnerSteps path share (.publishes true)
        { share with owner := .idle, published := share.published ++ [share.versions.length - 1] }
  | publishFails (publishing : share.owner = .publishing) :
      OwnerSteps path share (.publishes false) { share with owner := .idle }

theorem ownerStep_spec {path : PathText} {share next : Share} {event : OwnerEvent}
    (taken : ownerStep path share event = some next) : OwnerSteps path share event next := by
  cases event with
  | opensStaging =>
    simp only [ownerStep] at taken
    split at taken
    · rename_i staging idle named
      cases taken
      exact .truncates staging idle named
    · rename_i idle unnamed
      cases taken
      exact .creates idle unnamed
    · cases taken
  | writes bytes =>
    simp only [ownerStep] at taken
    split at taken
    · rename_i staging writing
      cases taken
      exact .writes staging bytes writing
    · cases taken
  | closesStaging =>
    simp only [ownerStep] at taken
    split at taken
    · rename_i staging writing
      cases taken
      exact .closes staging writing
    · cases taken
  | commits =>
    simp only [ownerStep] at taken
    split at taken
    · rename_i idle
      split at taken
      · rename_i staging named free
        cases taken
        exact .copyOpens staging idle named free
      · rename_i other
        cases taken
        apply OwnerSteps.blocked idle
        cases named : share.disk.entry (path ++ stagingFileSuffix) with
        | none => exact .inl rfl
        | some staging => exact .inr (other staging named)
    · cases taken
  | copies count =>
    simp only [ownerStep] at taken
    split at taken
    · rename_i staging tmp done copying
      split at taken
      · rename_i nothing
        cases taken
        apply OwnerSteps.copied staging tmp done count copying
        simpa [Share.chunk] using nothing
      · cases taken
        exact .copies staging tmp done count copying
    · cases taken
  | copyFails leaves =>
    simp only [ownerStep] at taken
    split at taken
    · rename_i staging tmp done copying
      cases taken
      exact .copyFails staging tmp done leaves copying
    · cases taken
  | renames ok =>
    simp only [ownerStep] at taken
    split at taken
    · rename_i tmp whole
      cases ok with
      | true =>
        cases taken
        exact .renames tmp whole
      | false =>
        cases taken
        exact .renameFails tmp whole
    · cases taken
  | publishes told =>
    simp only [ownerStep] at taken
    split at taken
    · rename_i publishing
      cases told with
      | true =>
        cases taken
        exact .publishes publishing
      | false =>
        cases taken
        exact .publishFails publishing
    · cases taken

inductive ReaderSteps (path : PathText) (share : Share) (index : Nat) : ReaderEvent → Share → Prop where
  | opens (inode : Nat) (named : share.disk.entry path = some inode) :
      ReaderSteps path share index .opens
        (share.setReading index (some ⟨inode, share.versions.length - 1, share.published, []⟩))
  | reads (reader : Reader) (count : Nat) (here : share.reading index = some reader) :
      ReaderSteps path share index (.reads count) (share.setReading index
        (some { reader with got := reader.got ++ share.chunk reader.inode reader.got.length count }))
  | ends (reader : Reader) (here : share.reading index = some reader)
      (all : (share.disk.content reader.inode).length ≤ reader.got.length) :
      ReaderSteps path share index .ends
        { share.setReading index none with finished := share.finished ++ [reader] }

theorem readerStep_spec {path : PathText} {share next : Share} {index : Nat} {event : ReaderEvent}
    (taken : readerStep path share index event = some next) : ReaderSteps path share index event next := by
  cases event with
  | opens =>
    simp only [readerStep] at taken
    split at taken
    · rename_i inode named _
      cases taken
      exact .opens inode named
    · cases taken
  | reads count =>
    simp only [readerStep] at taken
    split at taken
    · rename_i reader here
      cases taken
      exact .reads reader count here
    · cases taken
  | ends =>
    simp only [readerStep] at taken
    split at taken
    · rename_i reader here
      split at taken
      · rename_i all
        cases taken
        exact .ends reader here all
      · cases taken
    · cases taken

/-! ### Whole versions -/

/-- The files that the owner has open are still behind their names, and the copy is that of the
staging file. -/
def Busy (path : PathText) (share : Share) : Prop :=
  match share.owner with
  | .idle => True
  | .writing staging => share.disk.entry (path ++ stagingFileSuffix) = some staging
  | .copying staging tmp done =>
    share.disk.entry (path ++ stagingFileSuffix) = some staging ∧
      share.disk.entry (path ++ tmpFileSuffix) = some tmp ∧
      share.disk.content tmp = (share.disk.content staging).take done
  | .copied tmp => ∃ staging, share.disk.entry (path ++ stagingFileSuffix) = some staging ∧
      share.disk.entry (path ++ tmpFileSuffix) = some tmp ∧
      share.disk.content tmp = share.disk.content staging
  | .publishing => True

/-- An inode that no one writes any more. -/
structure Sealed (path : PathText) (disk : Disk PathText UInt8) (inode : Nat) : Prop where
  old : inode < disk.fresh
  staging : disk.entry (path ++ stagingFileSuffix) ≠ some inode
  tmp : disk.entry (path ++ tmpFileSuffix) ≠ some inode

theorem sealed_shared {path : PathText} {disk : Disk PathText UInt8} {inode : Nat}
    (named : disk.entry path = some inode) : Sealed path disk inode where
  old := disk.used path inode named
  staging also := staging_ne_share path (disk.apart _ _ inode also named)
  tmp also := share_ne_tmp path (disk.apart _ _ inode named also)

section Step

variable {path : PathText} {share next : Share}

theorem busy_step {event : OwnerEvent} (busy : Busy path share) (taken : OwnerSteps path share event next) :
    Busy path next := by
  cases taken with
  | truncates staging idle named => exact named
  | creates idle unnamed => simp [Busy, Disk.create]
  | writes staging bytes writing =>
    simp only [Busy, writing] at busy ⊢
    exact busy
  | closes staging writing => trivial
  | copyOpens staging idle named free =>
    refine ⟨?_, by simp [Disk.create], by simp [Disk.create]⟩
    exact (Function.update_of_ne (staging_ne_tmp path) _ _).trans named
  | blocked idle impossible => exact busy
  | copies staging tmp done count copying =>
    simp only [Busy, copying] at busy
    rcases busy with ⟨source, target, copied⟩
    have differ : staging ≠ tmp := by
      intro same
      exact staging_ne_tmp path (share.disk.apart _ _ tmp (same ▸ source) target)
    refine ⟨source, target, ?_⟩
    have taken : share.chunk staging done (count + 1) =
        ((share.disk.content staging).drop done).take (share.chunk staging done (count + 1)).length :=
      List.prefix_iff_eq_take.mp (List.take_prefix _ _)
    have behind : (share.disk.set tmp (share.disk.content tmp ++
        share.chunk staging done (count + 1))).content staging = share.disk.content staging :=
      Function.update_of_ne differ _ _
    have here : (share.disk.set tmp (share.disk.content tmp ++
        share.chunk staging done (count + 1))).content tmp =
          share.disk.content tmp ++ share.chunk staging done (count + 1) :=
      Function.update_self _ _ _
    rw [behind, here, List.take_add, ← taken, copied]
  | copied staging tmp done count copying all =>
    simp only [Busy, copying] at busy
    rcases busy with ⟨source, target, copied⟩
    exact ⟨staging, source, target, copied.trans (List.take_of_length_le all)⟩
  | copyFails staging tmp done leaves copying => trivial
  | renames tmp whole => trivial
  | renameFails tmp whole => trivial
  | publishes publishing => trivial
  | publishFails publishing => trivial

/-- The owner writes only to inodes that are not sealed. -/
theorem sealed_step {event : OwnerEvent} {inode : Nat} (busy : Busy path share)
    (taken : OwnerSteps path share event next) (closed : Sealed path share.disk inode) :
    Sealed path next.disk inode ∧ next.disk.content inode = share.disk.content inode := by
  have unwritten (target : PathText) (written : Nat) (named : share.disk.entry target = some written)
      (differs : share.disk.entry target ≠ some inode) (bytes : Bytes) :
      (share.disk.set written bytes).content inode = share.disk.content inode := by
    apply Function.update_of_ne
    intro same
    exact differs (same ▸ named)
  have created (target : PathText) :
      Sealed path (share.disk.create target) inode ∧
        (share.disk.create target).content inode = share.disk.content inode := by
    have old := Nat.ne_of_lt closed.old
    have other (name : PathText) (differs : share.disk.entry name ≠ some inode) :
        (share.disk.create target).entry name ≠ some inode := by
      by_cases same : name = target
      · simp [Disk.create, same, Ne.symm old]
      · simpa [Disk.create, same] using differs
    exact ⟨⟨Nat.lt_succ_of_lt closed.old, other _ closed.staging, other _ closed.tmp⟩,
      Function.update_of_ne old _ _⟩
  cases taken with
  | truncates staging idle named =>
    exact ⟨{ closed with }, unwritten _ staging named closed.staging _⟩
  | creates idle unnamed => exact created _
  | writes staging bytes writing =>
    simp only [Busy, writing] at busy
    exact ⟨{ closed with }, unwritten _ staging busy closed.staging _⟩
  | copyOpens staging idle named free => exact created _
  | copies staging tmp done count copying =>
    simp only [Busy, copying] at busy
    exact ⟨{ closed with }, unwritten _ tmp busy.2.1 closed.tmp _⟩
  | copyFails staging tmp done leaves copying =>
    cases leaves with
    | true => exact ⟨closed, rfl⟩
    | false =>
      refine ⟨⟨closed.old, ?_, by simp [Disk.remove]⟩, rfl⟩
      simpa [Disk.remove, staging_ne_tmp path] using closed.staging
  | renames tmp whole =>
    refine ⟨⟨closed.old, ?_, by simp [Disk.rename, Disk.renameEntry]⟩, rfl⟩
    simpa [Disk.rename, Disk.renameEntry, staging_ne_tmp path, staging_ne_share path] using closed.staging
  | _ => exact ⟨closed, rfl⟩

/-- The shared file has the last version, and only versions are published. -/
structure Current (path : PathText) (share : Share) : Prop where
  some : share.versions ≠ []
  shared : share.disk.view path = share.versions.getLast?
  published : ∀ version ∈ share.published, version < share.versions.length

theorem current_step {event : OwnerEvent} (busy : Busy path share) (current : Current path share)
    (taken : OwnerSteps path share event next) : Current path next := by
  rcases current with ⟨some, shared, published⟩
  have kept (other : PathText) (differs : path ≠ other) (bytes : Option Bytes) :
      Function.update share.disk.view other bytes path = share.versions.getLast? :=
    (Function.update_of_ne differs _ _).trans shared
  have apart := Ne.symm (staging_ne_share path)
  cases taken with
  | truncates staging idle named =>
    exact ⟨some, (congrFun (Disk.view_set named _) path).trans (kept _ apart _), published⟩
  | creates idle unnamed =>
    exact ⟨some, (congrFun (Disk.view_create _) path).trans (kept _ apart _), published⟩
  | writes staging bytes writing =>
    simp only [Busy, writing] at busy
    exact ⟨some, (congrFun (Disk.view_set busy _) path).trans (kept _ apart _), published⟩
  | copyOpens staging idle named free =>
    exact ⟨some, (congrFun (Disk.view_create _) path).trans (kept _ (share_ne_tmp path) _), published⟩
  | copies staging tmp done count copying =>
    simp only [Busy, copying] at busy
    exact ⟨some, (congrFun (Disk.view_set busy.2.1 _) path).trans (kept _ (share_ne_tmp path) _), published⟩
  | copyFails staging tmp done leaves copying =>
    cases leaves with
    | true => exact ⟨some, shared, published⟩
    | false => exact ⟨some, (congrFun (Disk.view_remove _) path).trans (kept _ (share_ne_tmp path) _), published⟩
  | renames tmp whole =>
    simp only [Busy, whole] at busy
    rcases busy with ⟨staging, _, target, _⟩
    refine ⟨by simp, ?_, ?_⟩
    · rw [List.getLast?_concat]
      simp [Disk.view, Disk.rename, Disk.renameEntry, share_ne_tmp path, target]
    · intro version member
      have old := published version member
      rw [List.length_append]
      omega
  | publishes publishing =>
    refine ⟨some, shared, ?_⟩
    intro version member
    rcases List.mem_append.mp member with old | new
    · exact published version old
    · have positive := List.length_pos_iff.mpr some
      have same := List.mem_singleton.mp new
      change version < share.versions.length
      omega
  | _ => exact ⟨some, shared, published⟩

theorem versions_grow {event : OwnerEvent} (taken : OwnerSteps path share event next) :
    share.versions <+: next.versions := by
  cases taken with
  | renames tmp whole => exact List.prefix_append _ _
  | _ => exact List.prefix_refl _

theorem readers_stay {event : OwnerEvent} (taken : OwnerSteps path share event next) :
    next.reading = share.reading ∧ next.finished = share.finished := by
  cases taken <;> exact ⟨rfl, rfl⟩

/-- The reader has a part of a version before it that no one changes. -/
structure Readable (path : PathText) (share : Share) (reader : Reader) : Prop where
  closed : Sealed path share.disk reader.inode
  version : share.versions[reader.version]? = some (share.disk.content reader.inode)
  got : reader.got <+: share.disk.content reader.inode
  heard : ∀ version ∈ reader.heard, version ≤ reader.version

/-- The reader has got a whole version, and none from before it heard of another. -/
structure Whole (share : Share) (reader : Reader) : Prop where
  version : share.versions[reader.version]? = some reader.got
  heard : ∀ version ∈ reader.heard, version ≤ reader.version

structure Sound (path : PathText) (share : Share) : Prop where
  busy : Busy path share
  current : Current path share
  reading : ∀ index reader, share.reading index = some reader → Readable path share reader
  finished : ∀ reader ∈ share.finished, Whole share reader

theorem version_stays {versions later : List Bytes} {version : Nat} {content : Bytes}
    (grows : versions <+: later) (found : versions[version]? = some content) :
    later[version]? = some content := by
  rcases List.getElem?_eq_some_iff.mp found with ⟨bound, same⟩
  rw [List.prefix_iff_getElem?.mp grows version bound, same]

theorem sound_ownerStep {event : OwnerEvent} (sound : Sound path share)
    (taken : OwnerSteps path share event next) : Sound path next := by
  have grows := versions_grow taken
  have stay := readers_stay taken
  refine ⟨busy_step sound.busy taken, current_step sound.busy sound.current taken, ?_, ?_⟩
  · intro index reader here
    rw [stay.1] at here
    have readable := sound.reading index reader here
    have kept := sealed_step sound.busy taken readable.closed
    exact ⟨kept.1, kept.2 ▸ version_stays grows readable.version, kept.2 ▸ readable.got, readable.heard⟩
  · intro reader member
    rw [stay.2] at member
    have whole := sound.finished reader member
    exact ⟨version_stays grows whole.version, whole.heard⟩

/-- Who opens the shared file has the last version before it. -/
theorem readable_opened (current : Current path share) {inode : Nat}
    (named : share.disk.entry path = some inode) :
    Readable path share ⟨inode, share.versions.length - 1, share.published, []⟩ := by
  refine ⟨sealed_shared named, ?_, List.nil_prefix, ?_⟩
  · have shared := current.shared
    rw [Disk.view, named, List.getLast?_eq_getElem?] at shared
    exact shared.symm
  · intro version member
    have told := current.published version member
    change version ≤ share.versions.length - 1
    omega

theorem readable_reads {reader : Reader} (readable : Readable path share reader) (count : Nat) :
    Readable path share
      { reader with got := reader.got ++ share.chunk reader.inode reader.got.length count } := by
  refine ⟨readable.closed, readable.version, ?_, readable.heard⟩
  rcases readable.got with ⟨rest, whole⟩
  change reader.got ++ (List.drop _ (share.disk.content reader.inode)).take count <+: _
  rw [← whole, List.drop_left]
  exact (List.prefix_append_right_inj reader.got).mpr (List.take_prefix _ _)

theorem whole_at_end {reader : Reader} (readable : Readable path share reader)
    (all : (share.disk.content reader.inode).length ≤ reader.got.length) : Whole share reader := by
  have same := readable.got.eq_of_length_le all
  exact ⟨same ▸ readable.version, readable.heard⟩

theorem sound_setReading (sound : Sound path share) (index : Nat) (entry : Option Reader)
    (readable : ∀ reader, entry = some reader → Readable path share reader) :
    Sound path (share.setReading index entry) := by
  refine ⟨sound.busy, ⟨sound.current.some, sound.current.shared, sound.current.published⟩, ?_, ?_⟩
  · intro other reader here
    change Function.update share.reading index entry other = some reader at here
    by_cases same : other = index
    · rw [same, Function.update_self] at here
      exact { readable reader here with }
    · rw [Function.update_of_ne same] at here
      exact { sound.reading other reader here with }
  · intro reader member
    exact { sound.finished reader member with }

theorem sound_readerStep {index : Nat} {event : ReaderEvent} (sound : Sound path share)
    (taken : ReaderSteps path share index event next) : Sound path next := by
  cases taken with
  | opens inode named =>
    apply sound_setReading sound
    intro reader same
    cases same
    exact readable_opened sound.current named
  | reads reader count here =>
    apply sound_setReading sound
    intro later same
    cases same
    exact readable_reads (sound.reading index reader here) count
  | ends reader here all =>
    have closed := sound_setReading sound index none nofun
    refine ⟨closed.busy, { closed.current with }, ?_, ?_⟩
    · intro other opened there
      exact { closed.reading other opened there with }
    · intro finished member
      rcases List.mem_append.mp member with old | new
      · exact { sound.finished finished old with }
      · rw [List.mem_singleton.mp new]
        exact { whole_at_end (sound.reading index reader here) all with }

theorem sound_step {event : Event} (sound : Sound path share) (taken : step path share event = some next) :
    Sound path next := by
  cases event with
  | owner event => exact sound_ownerStep sound (ownerStep_spec taken)
  | reader index event => exact sound_readerStep sound (readerStep_spec taken)

end Step

theorem sound_begin {path : PathText} {disk : Disk PathText UInt8} {initial : Bytes}
    (shared : disk.view path = some initial) : Sound path (begin disk initial) where
  busy := trivial
  current := ⟨List.cons_ne_nil _ _, shared, nofun⟩
  reading := nofun
  finished := nofun

/-- In every interleaving of the owner's system calls, of which any may fail, with those of any number
of readers, a reader that comes to the end of the shared file has got a version of it as a whole. It is
the newest of which the reader had been told when it opened the file, or a newer one. -/
theorem reads_are_versions (path : PathText) (disk : Disk PathText UInt8) (initial : Bytes)
    (shared : disk.view path = some initial) (events : List Event) (final : Share)
    (reached : Runs.run (step path) (begin disk initial) events = some final) :
    ∀ reader ∈ final.finished, final.versions[reader.version]? = some reader.got ∧
      ∀ version ∈ reader.heard, version ≤ reader.version := by
  have sound : Sound path final :=
    Runs.run_preserves (Sound path) (fun _ _ _ held taken => sound_step held taken) _ final events
      (sound_begin shared) reached
  intro reader member
  have whole := sound.finished reader member
  exact ⟨whole.version, whole.heard⟩

/-- The disk of a new fileshare, with nothing else. -/
def created (path : PathText) : Disk PathText UInt8 :=
  (Disk.empty.create path).create (path ++ stagingFileSuffix)

/-- It is what `CreateFileshare` leaves. -/
theorem view_created (handle : PathText) :
    (created (handlePath handle)).view = (createFileshare .OK handle (fun _ => true) (fun _ => none)).2 := by
  have split : (createFileshare .OK handle (fun _ => true) (fun _ => none)).2 = fun path =>
      if path = handlePath handle ∨ path = handlePath handle ++ stagingFileSuffix then some [] else none := by
    funext path
    simp [createFileshare, Status.ok, Status.OK, handlePath]
  rw [created, Disk.view_create, Disk.view_create, split]
  funext path
  by_cases staging : path = handlePath handle ++ stagingFileSuffix
  · simp [staging]
  · by_cases shared : path = handlePath handle
    · simp [shared, Ne.symm (staging_ne_share _)]
    · simp [staging, shared, Disk.view, Disk.empty]

/-- Two readers, of which one opens the file during a commit and reads on after it. -/
def overlapping : List Event :=
  [.owner .opensStaging, .owner (.writes [1, 2, 3]), .owner .closesStaging, .owner .commits,
    .reader 0 .opens, .owner (.copies 1), .owner (.copies 1), .owner (.copies 1), .owner (.renames true),
    .owner (.publishes true), .reader 1 .opens, .reader 0 (.reads 5), .reader 1 (.reads 2), .owner .opensStaging,
    .reader 1 (.reads 2), .reader 1 .ends, .reader 0 .ends, .owner .closesStaging]

theorem overlapping_reads_are_versions :
    ∃ final, Runs.run (step (handlePath ['h'])) (begin (created (handlePath ['h'])) []) overlapping = some final ∧
      final.versions = [[], [1, 2, 3]] ∧ final.finished.map Reader.got = [[1, 2, 3], []] ∧
      ∀ reader ∈ final.finished, final.versions[reader.version]? = some reader.got ∧
        ∀ version ∈ reader.heard, version ≤ reader.version :=
  ⟨_, rfl, rfl, rfl,
    reads_are_versions (handlePath ['h']) (created (handlePath ['h'])) [] rfl overlapping _ rfl⟩

/-! ### A copy that is left behind -/

/-- A commit has left its copy, and no other has got past it. -/
structure Stuck (path : PathText) (share : Share) : Prop where
  left : share.disk.entry (path ++ tmpFileSuffix) ≠ none
  outside : share.owner = .idle ∨ ∃ staging, share.owner = .writing staging ∧
    share.disk.entry (path ++ stagingFileSuffix) = some staging

/-- To write the staging file changes neither the shared file nor the copy. -/
theorem stuck_step {path : PathText} {share next : Share} {event : Event} (stuck : Stuck path share)
    (taken : step path share event = some next) :
    Stuck path next ∧ next.versions = share.versions ∧ next.published = share.published ∧
      next.disk.view path = share.disk.view path := by
  have apart := Ne.symm (staging_ne_share path)
  have idle (other : share.owner ≠ .idle) : ∃ staging, share.owner = .writing staging ∧
      share.disk.entry (path ++ stagingFileSuffix) = some staging := stuck.outside.resolve_left other
  cases event with
  | reader index event => cases readerStep_spec taken <;> exact ⟨{ stuck with }, rfl, rfl, rfl⟩
  | owner event =>
    cases ownerStep_spec taken with
    | truncates staging _ named =>
      refine ⟨⟨stuck.left, .inr ⟨staging, rfl, named⟩⟩, rfl, rfl, ?_⟩
      exact (congrFun (Disk.view_set named _) path).trans (Function.update_of_ne apart _ _)
    | creates _ unnamed =>
      refine ⟨⟨?_, .inr ⟨_, rfl, Function.update_self _ _ _⟩⟩, rfl, rfl, ?_⟩
      · simpa [Disk.create, (staging_ne_tmp path).symm] using stuck.left
      · exact (congrFun (Disk.view_create _) path).trans (Function.update_of_ne apart _ _)
    | writes staging bytes writing =>
      rcases idle (by simp [writing]) with ⟨other, owner, named⟩
      cases writing.symm.trans owner
      refine ⟨⟨stuck.left, .inr ⟨staging, writing, named⟩⟩, rfl, rfl, ?_⟩
      exact (congrFun (Disk.view_set named _) path).trans (Function.update_of_ne apart _ _)
    | closes staging writing => exact ⟨⟨stuck.left, .inl rfl⟩, rfl, rfl, rfl⟩
    | copyOpens staging _ named free => exact absurd free stuck.left
    | blocked _ impossible => exact ⟨stuck, rfl, rfl, rfl⟩
    | copies staging tmp done count owner
    | copied staging tmp done count owner all
    | copyFails staging tmp done leaves owner
    | renames tmp owner
    | renameFails tmp owner
    | publishes owner
    | publishFails owner =>
      rcases idle (by simp [owner]) with ⟨_, writing, _⟩
      cases owner.symm.trans writing

/-- Once a commit has failed and left its copy, the share is dead: whatever its owner and the readers do
from then on, the shared file stays as it is and no one is told of an update any more. -/
theorem left_copy_ends_share (path : PathText) (share : Share) (idle : share.owner = .idle)
    (left : share.disk.entry (path ++ tmpFileSuffix) ≠ none) (events : List Event) (final : Share)
    (reached : Runs.run (step path) share events = some final) :
    final.versions = share.versions ∧ final.published = share.published ∧
      final.disk.view path = share.disk.view path := by
  have kept : Stuck path final ∧ final.versions = share.versions ∧ final.published = share.published ∧
      final.disk.view path = share.disk.view path := by
    apply Runs.run_preserves (fun state => Stuck path state ∧ state.versions = share.versions ∧
      state.published = share.published ∧ state.disk.view path = share.disk.view path) ?_ share final events
      ⟨⟨left, .inl idle⟩, rfl, rfl, rfl⟩ reached
    intro state event next held taken
    rcases held with ⟨stuck, versions, published, shared⟩
    rcases stuck_step stuck taken with ⟨still, sameVersions, samePublished, sameShared⟩
    exact ⟨still, sameVersions.trans versions, samePublished.trans published, sameShared.trans shared⟩
  exact kept.2

/-- The first commit fails at its rename. -/
def failing : List Event :=
  [.owner .opensStaging, .owner (.writes [1, 2, 3]), .owner .closesStaging, .owner .commits,
    .owner (.copies 5), .owner (.copies 5), .owner (.renames false)]

theorem failing_ends_share :
    ∃ share final, Runs.run (step (handlePath ['h'])) (begin (created (handlePath ['h'])) []) failing =
        some share ∧
      Runs.run (step (handlePath ['h'])) share [.owner .commits, .reader 0 .opens, .owner .commits] =
        some final ∧
      final.versions = share.versions ∧ final.published = share.published ∧
        final.disk.view (handlePath ['h']) = share.disk.view (handlePath ['h']) :=
  ⟨_, _, rfl, rfl, left_copy_ends_share (handlePath ['h']) _ rfl (by decide)
    [.owner .commits, .reader 0 .opens, .owner .commits] _ rfl⟩

end EzSdk.Client.Sharing
