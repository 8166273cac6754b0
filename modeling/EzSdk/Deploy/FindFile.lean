import EzSdk.Deploy.Unzip
import EzSdk.Foundation.Tables

/-! `findFileInZip` of `unzip.go` and the extraction that follows it: for which archives the file
that was searched for is in the destination afterwards. -/

namespace EzSdk.Deploy

open LexicalPaths Tables

/-- `fs.ValidPath`. -/
def validPath (name : Bytes) : Bool :=
  name.toByteArray.validateUTF8 &&
    (name = dot || (name.splitOn slash).all fun element =>
      element ≠ [] && element ≠ dot && element ≠ dotDot)

/-- The text of an `fs.PathError` of the search. -/
def findError (filename : Bytes) (error : String) : Bytes :=
  ascii "findFileInZip " ++ filename ++ ascii ": " ++ ascii error

def findFileInZip (archive : Except Bytes (List ZipEntry)) (filename : Bytes) : Except Bytes Bytes :=
  if validPath filename = false then .error (findError filename "invalid argument")
  else if dir filename ≠ dot then .error (findError filename "invalid argument")
  else
    match archive with
    | .error error => .error (ascii "reading zip file -- " ++ error)
    | .ok entries =>
      match entries.find? fun entry => base entry.name = filename with
      | some entry => .ok (dir entry.name)
      | none => .error (findError filename "file does not exist")

/-- A valid name of a single component. -/
structure SingleName extends Element where
  utf8 : bytes.toByteArray.validateUTF8 = true

def isMatch (name : SingleName) (entry : ZipEntry) : Bool := base entry.name = name.bytes

theorem validPath_single (name : SingleName) : validPath name.bytes = true := by
  rw [validPath, name.utf8, List.splitOn_eq_singleton name.noSlash]
  simp [name.nonempty, name.notDot, name.notDotDot]

theorem dir_single (name : SingleName) : dir name.bytes = dot := by
  have unrooted : isRooted name.bytes = false := by
    rw [isRooted, decide_eq_false_iff_not]
    intro starts
    exact name.noSlash (List.mem_of_head? starts)
  rw [dir, unrooted, partsOf, List.splitOn_eq_singleton name.noSlash]
  rfl

theorem findFileInZip_single (entries : List ZipEntry) (name : SingleName) :
    findFileInZip (.ok entries) name.bytes =
      match entries.find? (isMatch name) with
      | some entry => .ok (dir entry.name)
      | none => .error (findError name.bytes "file does not exist") := by
  have valid : ¬ validPath name.bytes = false := by simp [validPath_single]
  rw [findFileInZip, if_neg valid, if_neg (not_not.mpr (dir_single name))]
  rfl

/-! ### Where a run writes -/

/-- Where the extraction puts an entry, if anywhere. -/
def place (base destination : GoPath) (entry : ZipEntry) : Option GoPath :=
  if entry.isDir then none
  else
    match base.rel entry.path with
    | none => none
    | some relative =>
      if relative = Path.descent [] then none else some (destination.append relative)

/-- The files of an archive with their places, in the order in which they are written. -/
def placed (base destination : GoPath) (entries : List ZipEntry) : List (ZipEntry × GoPath) :=
  entries.filterMap fun entry => (place base destination entry).map fun path => (entry, path)

/-- The directories that a file at the path needs. -/
def parents (path : GoPath) : List GoPath := lineage (parse (dir (render path)))

theorem mem_mkdirAll_dirs (path needed : GoPath) (disk : Disk) :
    needed ∈ (mkdirAll path .succeeds disk).dirs ↔ needed ∈ disk.dirs ∨ needed ∈ lineage path := by
  by_cases present : needed ∈ disk.dirs
  · simp [mkdirAll, present]
  · simp [mkdirAll, present]

section Run

variable (basedir dest : Bytes) (rooted : (parse basedir).rooted = true) (destSome : dest ≠ [])

include rooted destSome in
theorem extractAll_step (outcomes : Nat → EntryOutcome) (index : Nat) (entry : ZipEntry)
    (entries : List ZipEntry) (disk : Disk) :
    extractAll basedir dest outcomes index (entry :: entries) disk =
      match place (parse basedir) (parse dest) entry with
      | none => extractAll basedir dest outcomes (index + 1) entries disk
      | some path =>
        match writeFile entry (render path) (outcomes index) disk with
        | (some error, disk) => (.panicked error, disk)
        | (none, disk) => extractAll basedir dest outcomes (index + 1) entries disk := by
  obtain ⟨relative, found, _, leads, turn⟩ := extractAll_turn basedir dest entry rooted destSome
  have related : (parse basedir).rel entry.path = some relative := by
    obtain ⟨other, isRelative, rendered⟩ := Option.map_eq_some_iff.mp found
    rw [ZipEntry.path, isRelative, render_injective rendered]
  have written : join [dest, render relative] = render ((parse dest).append relative) := by
    rw [join_eq_render dest _ destSome (render_ne_nil relative), leads]
  by_cases skipped : entry.isDir = true ∨ relative = Path.descent []
  · have nowhere : place (parse basedir) (parse dest) entry = none := by
      rcases skipped with directory | here
      · simp [place, directory]
      · simp [place, related, here]
    rw [turn, if_pos skipped]
    exact nowhere ▸ rfl
  · have somewhere : place (parse basedir) (parse dest) entry = some ((parse dest).append relative) := by
      rw [not_or] at skipped
      simp [place, related, skipped]
    rw [turn, if_neg skipped, written]
    exact somewhere ▸ rfl

include rooted destSome in
theorem extractAll_log (outcomes : Nat → EntryOutcome) (index : Nat) (entries : List ZipEntry)
    (disk after : Disk)
    (ended : extractAll basedir dest outcomes index entries disk = (.returned none, after)) :
    after.wrote = disk.wrote ++ placed (parse basedir) (parse dest) entries ∧
      disk.dirs ⊆ after.dirs := by
  induction entries generalizing index disk with
  | nil =>
    simp only [extractAll, Prod.mk.injEq, true_and] at ended
    rw [← ended]
    exact ⟨(List.append_nil _).symm, fun _ member => member⟩
  | cons entry entries ih =>
    rw [extractAll_step basedir dest rooted destSome] at ended
    rw [placed, List.filterMap_cons]
    cases put : place (parse basedir) (parse dest) entry with
    | none =>
      rw [put] at ended
      exact ih (index + 1) disk ended
    | some path =>
      rw [put] at ended
      cases wrote : writeFile entry (render path) (outcomes index) disk with
      | mk error middle =>
        cases error with
        | some error => simp [wrote] at ended
        | none =>
          simp only [wrote] at ended
          obtain ⟨log, kept⟩ := ih (index + 1) middle ended
          obtain ⟨added, made⟩ := writeFile_none entry _ _ disk middle wrote
          rw [parse_render] at added
          constructor
          · rw [log, added, List.append_assoc]
            rfl
          · intro needed member
            apply kept
            rw [made]
            exact List.mem_append_left _ member

/-- No call fails. -/
def smooth : Nat → EntryOutcome := fun _ => ⟨none, .succeeds, none, none⟩

include rooted destSome in
/-- If no call fails, just the directories that the files need have been made. -/
theorem extractAll_smooth_dirs (index : Nat) (entries : List ZipEntry) (disk : Disk)
    (needed : GoPath) :
    needed ∈ (extractAll basedir dest smooth index entries disk).2.dirs ↔
      needed ∈ disk.dirs ∨
        ∃ write ∈ placed (parse basedir) (parse dest) entries, needed ∈ parents write.2 := by
  induction entries generalizing index disk with
  | nil => simp [extractAll, placed]
  | cons entry entries ih =>
    rw [extractAll_step basedir dest rooted destSome, placed, List.filterMap_cons]
    cases put : place (parse basedir) (parse dest) entry with
    | none => exact ih (index + 1) disk
    | some path =>
      have later := ih (index + 1) (writeFile entry (render path) (smooth index) disk).2
      have made : needed ∈ (writeFile entry (render path) (smooth index) disk).2.dirs ↔
          needed ∈ disk.dirs ∨ needed ∈ parents path :=
        mem_mkdirAll_dirs (parse (dir (render path))) needed disk
      rw [made, or_assoc] at later
      simp only [Option.map_some, List.exists_mem_cons_iff]
      exact later

end Run

/-! ### The file after the extraction -/

/-- What exists is a directory or a file, and the directories of every file exist. -/
structure Feasible (disk : Disk) : Prop where
  notDirectory : ∀ write ∈ disk.wrote, write.2.names ≠ [] ∧ write.2 ∉ disk.dirs
  parents : ∀ write ∈ disk.wrote, ∀ needed ∈ parents write.2, needed ∈ disk.dirs

/-- The directory exists and nothing is in it. -/
structure EmptyDirectory (dirs : List GoPath) (directory : GoPath) : Prop where
  present : ∀ needed ∈ lineage directory, needed ∈ dirs
  empty : ∀ path ∈ dirs, Inside directory path → path = directory

/-- The path of the file that was searched for, in the destination. -/
def wantedFile (dest : Bytes) (name : SingleName) : GoPath :=
  (parse dest).append (Path.descent [name.toElement])

/-- The search finds an archive's files of the name and nothing else, and after an extraction with
the directory that was found, the destination has a file of the name, with the content of such a
file of the archive. -/
structure RunnerExtracted (entries : List ZipEntry) (name : SingleName) (dest : Bytes) : Prop where
  found : (∃ basedir, findFileInZip (.ok entries) name.bytes = .ok basedir) ↔
    ∃ entry ∈ entries, entry.isDir = false ∧ isMatch name entry = true
  extracted : ∀ basedir, findFileInZip (.ok entries) name.bytes = .ok basedir →
    ∀ dirs destOutcome outcomes after, EmptyDirectory dirs (parse dest) →
      unzipToDir (.ok entries) basedir dest destOutcome outcomes dirs = (.returned none, after) →
        Feasible after →
          ∃ entry ∈ entries, entry.isDir = false ∧ isMatch name entry = true ∧
            lastOf Prod.snd after.wrote (wantedFile dest name) = some (entry, wantedFile dest name) ∧
            wantedFile dest name ∉ after.dirs

/-- Some file is put where a directory has to be. -/
def Clash (base destination : GoPath) (entries : List ZipEntry) : Prop :=
  ∃ write ∈ placed base destination entries, write.2.names = [] ∨
    write.2 ∈ lineage destination ∨
      ∃ other ∈ placed base destination entries, write.2 ∈ parents other.2

/-- The last file that is put at the searched file's path has its name. -/
def LastIsMatch (base : GoPath) (entries : List ZipEntry) (name : SingleName) (dest : Bytes) : Prop :=
  ∃ entry, lastOf Prod.snd (placed base (parse dest) entries) (wantedFile dest name) =
    some (entry, wantedFile dest name) ∧ isMatch name entry = true

/-- What `unzipToDir` makes of the directory that the search returns. -/
def baseOf (entry : ZipEntry) : GoPath := parse (join [[slash], dir entry.name])

theorem find_ok_iff (entries : List ZipEntry) (name : SingleName) (basedir : Bytes) :
    findFileInZip (.ok entries) name.bytes = .ok basedir ↔
      ∃ first, entries.find? (isMatch name) = some first ∧ dir first.name = basedir := by
  rw [findFileInZip_single]
  cases entries.find? (isMatch name) with
  | none => simp
  | some first => simp

/-- The entry that a search finds has the name. -/
theorem not_unmatched {entries : List ZipEntry} {name : SingleName} {first : ZipEntry}
    (search : entries.find? (isMatch name) = some first) :
    ¬ ∀ entry ∈ entries, isMatch name entry = false := by
  intro nothing
  have matched := List.find?_some search
  rw [nothing first (List.mem_of_find?_eq_some search)] at matched
  cases matched

theorem mem_placed_iff {base destination : GoPath} {entries : List ZipEntry} {entry : ZipEntry}
    {path : GoPath} : (entry, path) ∈ placed base destination entries ↔
      entry ∈ entries ∧ place base destination entry = some path := by
  constructor
  · intro member
    obtain ⟨other, isEntry, put⟩ := List.mem_filterMap.mp member
    obtain ⟨path, isPlace, same⟩ := Option.map_eq_some_iff.mp put
    cases same
    exact ⟨isEntry, isPlace⟩
  · intro ⟨isEntry, isPlace⟩
    exact List.mem_filterMap.mpr ⟨entry, isEntry, Option.map_eq_some_iff.mpr ⟨path, isPlace, rfl⟩⟩

theorem placed_mem {base destination : GoPath} {entries : List ZipEntry} {entry : ZipEntry}
    {path : GoPath} (member : (entry, path) ∈ placed base destination entries) :
    entry ∈ entries ∧ entry.isDir = false := by
  obtain ⟨isEntry, isPlace⟩ := mem_placed_iff.mp member
  refine ⟨isEntry, ?_⟩
  cases directory : entry.isDir with
  | false => rfl
  | true => simp [place, directory] at isPlace

theorem no_clash_of_feasible {base destination : GoPath} {entries : List ZipEntry} {after : Disk}
    (log : after.wrote = placed base destination entries)
    (present : ∀ needed ∈ lineage destination, needed ∈ after.dirs) (feasible : Feasible after) :
    ¬ Clash base destination entries := by
  rintro ⟨write, member, clash⟩
  rw [← log] at member clash
  have isFile := feasible.notDirectory write member
  rcases clash with nameless | above | ⟨other, otherMember, isParent⟩
  · exact isFile.1 nameless
  · exact isFile.2 (present _ above)
  · exact isFile.2 (feasible.parents other otherMember _ isParent)

theorem emptyDirectory_lineage (directory : GoPath) : EmptyDirectory (lineage directory) directory :=
  ⟨fun _ member => member, eq_of_lineage_of_inside directory⟩

theorem smooth_run (entries : List ZipEntry) (basedir dest : Bytes)
    (apart : ¬ Clash (parse (join [[slash], basedir])) (parse dest) entries) :
    ∃ after, unzipToDir (.ok entries) basedir dest .succeeds smooth (lineage (parse dest)) =
        (.returned none, after) ∧
      after.wrote = placed (parse (join [[slash], basedir])) (parse dest) entries ∧
      Feasible after := by
  have rooted := parse_join_root basedir
  have destSome : clean dest ≠ [] := render_ne_nil _
  rw [unzipToDir_ok]
  generalize made : mkdirAll (parse dest) .succeeds ⟨lineage (parse dest), [], []⟩ = disk
  have ended := extractAll_succeeds (join [[slash], basedir]) (clean dest) rooted destSome 0
    entries disk
  have log := (extractAll_log (join [[slash], basedir]) (clean dest) rooted destSome smooth 0
    entries disk _ (Prod.ext ended rfl)).1
  have dirs := extractAll_smooth_dirs (join [[slash], basedir]) (clean dest) rooted destSome 0
    entries disk
  have startDirs : ∀ needed, needed ∈ disk.dirs ↔ needed ∈ lineage (parse dest) := by
    intro needed
    rw [← made, mem_mkdirAll_dirs]
    exact or_self_iff
  have startWrote : disk.wrote = [] := by
    rw [← made]
    rfl
  rw [parse_clean, startWrote, List.nil_append] at log
  rw [parse_clean] at dirs
  refine ⟨_, Prod.ext ended rfl, log, ?_, ?_⟩
  · intro write member
    have isPlaced := log ▸ member
    constructor
    · intro nameless
      exact apart ⟨write, isPlaced, .inl nameless⟩
    · intro isDirectory
      rcases (dirs _).mp isDirectory with above | isParent
      · exact apart ⟨write, isPlaced, .inr (.inl ((startDirs _).mp above))⟩
      · exact apart ⟨write, isPlaced, .inr (.inr isParent)⟩
  · intro write member needed isParent
    exact (dirs needed).mpr (.inr ⟨write, log ▸ member, isParent⟩)

theorem run_log_of_ended {entries : List ZipEntry} {basedir dest : Bytes} {destOutcome : MkdirOutcome}
    {outcomes : Nat → EntryOutcome} {dirs : List GoPath} {after : Disk}
    (ended : unzipToDir (.ok entries) basedir dest destOutcome outcomes dirs =
      (.returned none, after)) :
    after.wrote = placed (parse (join [[slash], basedir])) (parse dest) entries ∧
      dirs ⊆ after.dirs := by
  rw [unzipToDir_ok] at ended
  obtain ⟨log, kept⟩ := extractAll_log (join [[slash], basedir]) (clean dest)
    (parse_join_root basedir) (render_ne_nil _) outcomes 0 entries _ after ended
  rw [parse_clean] at log
  exact ⟨log, fun needed member => kept (List.mem_append_left _ member)⟩

/-- The searched file is in the destination after every extraction exactly when nothing has its
name, or some file has, and the entry that is found first leads to a base directory from which files
clash or the last file put at the searched file's path has its name. -/
theorem runner_extracted_iff (entries : List ZipEntry) (name : SingleName) (dest : Bytes) :
    RunnerExtracted entries name dest ↔
      (∀ entry ∈ entries, isMatch name entry = false) ∨
        (∃ entry ∈ entries, entry.isDir = false ∧ isMatch name entry = true) ∧
          ∀ first, entries.find? (isMatch name) = some first →
            Clash (baseOf first) (parse dest) entries ∨
              LastIsMatch (baseOf first) entries name dest := by
  constructor
  · intro holds
    cases search : entries.find? (isMatch name) with
    | none =>
      left
      intro entry member
      have unmatched := List.find?_eq_none.mp search entry member
      exact Bool.eq_false_iff.mpr unmatched
    | some first =>
      right
      have succeeds := (find_ok_iff entries name _).mpr ⟨first, search, rfl⟩
      refine ⟨holds.found.mp ⟨_, succeeds⟩, ?_⟩
      rintro _ ⟨⟩
      by_cases clash : Clash (baseOf first) (parse dest) entries
      · exact .inl clash
      · right
        obtain ⟨after, ended, log, feasible⟩ := smooth_run entries (dir first.name) dest clash
        obtain ⟨entry, _, _, isMatched, last, _⟩ := holds.extracted _ succeeds _ _ _ after
          (emptyDirectory_lineage (parse dest)) ended feasible
        rw [log] at last
        exact ⟨entry, last, isMatched⟩
  · intro condition
    constructor
    · constructor
      · rintro ⟨basedir, succeeds⟩
        obtain ⟨first, search, _⟩ := (find_ok_iff entries name basedir).mp succeeds
        rcases condition with nothing | ⟨file, _⟩
        · exact absurd nothing (not_unmatched search)
        · exact file
      · rintro ⟨entry, member, _, isMatched⟩
        cases search : entries.find? (isMatch name) with
        | none => exact absurd isMatched (List.find?_eq_none.mp search entry member)
        | some first => exact ⟨_, (find_ok_iff entries name _).mpr ⟨first, search, rfl⟩⟩
    · intro basedir succeeds dirs destOutcome outcomes after empty ended feasible
      obtain ⟨first, search, rfl⟩ := (find_ok_iff entries name basedir).mp succeeds
      obtain ⟨log, kept⟩ := run_log_of_ended ended
      have apart := no_clash_of_feasible log (fun _ above => kept (empty.present _ above)) feasible
      rcases condition with nothing | ⟨_, places⟩
      · exact absurd nothing (not_unmatched search)
      · rcases places first search with clash | ⟨entry, last, isMatched⟩
        · exact absurd clash apart
        · have member := (lastOf_mem Prod.snd _ _ _ last).1
          obtain ⟨isEntry, isFile⟩ := placed_mem member
          have written := log ▸ member
          exact ⟨entry, isEntry, isFile, isMatched, log ▸ last, (feasible.notDirectory _ written).2⟩

/-! ### A directory of the name -/

def testRunnerName : SingleName where
  bytes := ascii "testrunner.textproto"
  nonempty := by decide
  notDot := by decide
  notDotDot := by decide
  noSlash := by decide
  utf8 := by decide

/-- A directory of the name comes before the file. -/
def shadowedArchive : List ZipEntry :=
  [⟨ascii "testrunner.textproto/", true⟩, ⟨ascii "pkg/testrunner.textproto", false⟩]

/-- The extraction of that archive with the directory that the search returns. -/
def shadowedRun : Finish × Disk :=
  unzipToDir (.ok shadowedArchive) (ascii "testrunner.textproto") (ascii "/tmp/sut") .succeeds smooth
    (lineage (parse (ascii "/tmp/sut")))

/-- The search returns the directory, and the file is written next to the destination. -/
theorem runner_not_extracted :
    findFileInZip (.ok shadowedArchive) testRunnerName.bytes =
        .ok (ascii "testrunner.textproto") ∧
      shadowedRun.1 = .returned none ∧
      shadowedRun.2.wrote.map (fun write => render write.2) =
        [ascii "/tmp/pkg/testrunner.textproto"] ∧
      ¬ RunnerExtracted shadowedArchive testRunnerName (ascii "/tmp/sut") := by
  have searched : findFileInZip (.ok shadowedArchive) testRunnerName.bytes =
      .ok (ascii "testrunner.textproto") := by
    decide +kernel
  have ended : shadowedRun.1 = .returned none := by
    rw [shadowedRun, unzipToDir_ok]
    exact extractAll_succeeds _ _ (parse_join_root _) (render_ne_nil _) 0 _ _
  have feasible : Feasible shadowedRun.2 := ⟨by decide +kernel, by decide +kernel⟩
  refine ⟨searched, ended, by decide +kernel, ?_⟩
  intro holds
  obtain ⟨entry, _, _, _, last, _⟩ := holds.extracted _ searched _ _ _ shadowedRun.2
    (emptyDirectory_lineage (parse (ascii "/tmp/sut"))) (Prod.ext ended rfl) feasible
  have nothing : lastOf Prod.snd shadowedRun.2.wrote
      (wantedFile (ascii "/tmp/sut") testRunnerName) = none := by
    decide +kernel
  rw [nothing] at last
  cases last

end EzSdk.Deploy
