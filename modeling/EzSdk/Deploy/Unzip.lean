import EzSdk.Deploy.Filepath

/-! `unzipToDir` of `unzip.go`: where the entries of an archive are written. -/

namespace EzSdk.Deploy

open LexicalPaths

/-- An entry of an archive; `modeDir` is the directory bit of its attributes. -/
structure ZipEntry where
  name : Bytes
  modeDir : Bool
  deriving DecidableEq

/-- archive/zip also takes an entry whose name ends in a slash for a directory. -/
def ZipEntry.isDir (entry : ZipEntry) : Bool :=
  entry.modeDir || entry.name.getLast? == some slash

/-- What a call of `MkdirAll` comes to. When it fails it may have made some of the
missing directories. -/
inductive MkdirOutcome where
  | succeeds
  | fails (made : Nat) (isExist : Bool) (error : Bytes)

/-- What the calls for one entry come to, each with the text of its error: opening the
entry, making the directory, creating the file, and filling and closing it. -/
structure EntryOutcome where
  opens : Option Bytes
  mkdir : MkdirOutcome
  creates : Option Bytes
  fills : Option Bytes

/-- The directories that exist, and what has been made and written so far. -/
structure Disk where
  dirs : List GoPath
  made : List GoPath
  wrote : List (ZipEntry × GoPath)

/-- The directories that a path needs, from the top down to the path itself. -/
def lineage (path : GoPath) : List GoPath :=
  (List.range path.ups).map (fun above => ⟨false, above + 1, [], by simp⟩) ++
    (List.range path.names.length).map
      (fun depth => { path with names := path.names.take (depth + 1) })

def mkdirAll (path : GoPath) (outcome : MkdirOutcome) (disk : Disk) : Disk :=
  let missing := (lineage path).filter (· ∉ disk.dirs)
  let made := match outcome with
    | .succeeds => missing
    | .fails count _ _ => missing.take count
  { disk with dirs := disk.dirs ++ made, made := disk.made ++ made }

/-- The error with which the extraction of a file stops; one of the kind IsExist does not
stop it. -/
def MkdirOutcome.error : MkdirOutcome → Option Bytes
  | .succeeds => none
  | .fails _ isExist error => if isExist then none else some error

/-- The part of `extractAndWriteFile` from `f.Open` on. -/
def writeFile (entry : ZipEntry) (destPath : Bytes) (outcome : EntryOutcome) (disk : Disk) :
    Option Bytes × Disk :=
  match outcome.opens with
  | some error => (some error, disk)
  | none =>
    let disk := mkdirAll (parse (dir destPath)) outcome.mkdir disk
    match outcome.mkdir.error with
    | some error => (some error, disk)
    | none =>
      match outcome.creates with
      | some error => (some error, disk)
      | none =>
        (outcome.fills, { disk with wrote := disk.wrote ++ [(entry, parse destPath)] })

/-- The test of `validDestName`, which `extractAndWriteFile` repeats. -/
def validDestName (destName : Bytes) : Bool :=
  !(destName = [] || destName = dot || destName = [slash])

def extractAndWriteFile (dest : Bytes) (entry : ZipEntry) (destName : Bytes)
    (outcome : EntryOutcome) (disk : Disk) : Option Bytes × Disk :=
  if entry.isDir then (none, disk)
  else if validDestName destName = false then
    (some (ascii "illegal destination: " ++ destName), disk)
  else
    let destPath := join [dest, destName]
    match rel dest destPath with
    | none => (some (ascii "illegal file destination path: " ++ destPath), disk)
    | some _ => writeFile entry destPath outcome disk

/-- An error of an entry is not returned but panics. -/
inductive Finish where
  | returned (error : Option Bytes)
  | panicked (error : Bytes)

/-- The loop over the entries; `index` counts them. -/
def extractAll (basedir dest : Bytes) (outcomes : Nat → EntryOutcome) :
    Nat → List ZipEntry → Disk → Finish × Disk
  | _, [], disk => (.returned none, disk)
  | index, entry :: entries, disk =>
    match rel basedir (join [[slash], entry.name]) with
    | none => extractAll basedir dest outcomes (index + 1) entries disk
    | some destName =>
      if validDestName destName then
        match extractAndWriteFile dest entry destName (outcomes index) disk with
        | (some error, disk) => (.panicked error, disk)
        | (none, disk) => extractAll basedir dest outcomes (index + 1) entries disk
      else extractAll basedir dest outcomes (index + 1) entries disk

/-- `archive` is what `zip.NewReader` returns. -/
def unzipToDir (archive : Except Bytes (List ZipEntry)) (basedir dest : Bytes)
    (destOutcome : MkdirOutcome) (outcomes : Nat → EntryOutcome) (dirs : List GoPath) :
    Finish × Disk :=
  let basedir := join [[slash], basedir]
  let dest := clean dest
  let disk := ⟨dirs, [], []⟩
  match archive with
  | .error error => (.returned (some (ascii "reading zip file -- " ++ error)), disk)
  | .ok entries =>
    extractAll basedir dest outcomes 0 entries (mkdirAll (parse dest) destOutcome disk)

/-- The place of an entry in the archive, seen from its root. -/
def ZipEntry.path (entry : ZipEntry) : GoPath := parse (join [[slash], entry.name])

/-- The path is the directory or below it. -/
structure Inside (directory path : GoPath) : Prop where
  rooted : path.rooted = directory.rooted
  ups : path.ups = directory.ups
  names : directory.names <+: path.names

/-- The path is where a file below the base belongs: under the destination, at its path
relative to the base. -/
def Located (base destination : GoPath) (entry : ZipEntry) (path : GoPath) : Prop :=
  entry.isDir = false ∧ ∃ rest, rest ≠ [] ∧ entry.path.names = base.names ++ rest ∧
    path = destination.append (Path.descent rest)

/-- Nothing outside the destination is made or written, every file written is one from
below the base at its place, and a run without error has written all of those. -/
structure Contained (entries : List ZipEntry) (base destination : GoPath)
    (result : Finish × Disk) : Prop where
  made : ∀ path ∈ result.2.made, Inside destination path
  wroteInside : ∀ write ∈ result.2.wrote, Inside destination write.2
  wrote : ∀ write ∈ result.2.wrote, Located base destination write.1 write.2
  complete : result.1 = .returned none → ∀ entry ∈ entries, ∀ path,
    Located base destination entry path → (entry, path) ∈ result.2.wrote

section Entry

variable (basedir dest : Bytes)

/-- What the loop computes for an entry, in terms of paths: the name of an entry relative
to a rooted base is relative, invalid only for the base itself, and always leads from the
destination to a path that has a name relative to it. -/
theorem entry_relative (entry : ZipEntry) (rooted : (parse basedir).rooted = true)
    (destSome : dest ≠ []) :
    ∃ relative : GoPath,
      rel basedir (join [[slash], entry.name]) = some (render relative) ∧
      (validDestName (render relative) = true ↔ relative ≠ Path.descent []) ∧
      (∀ rest, relative = Path.descent rest ↔ entry.path.names = (parse basedir).names ++ rest) ∧
      parse (join [dest, render relative]) = (parse dest).append relative ∧
      (rel dest (join [dest, render relative])).isSome = true := by
  obtain ⟨relative, found, unrooted, below⟩ :=
    Path.rel_rooted (parse basedir) entry.path rooted (parse_join_root entry.name)
  have leads : parse (join [dest, render relative]) = (parse dest).append relative := by
    rw [parse_join dest (render relative) destSome (render_ne_nil relative),
      pushAll_partsOf_render]
    rfl
  refine ⟨relative, ?_, ?_, below, leads, ?_⟩
  · rw [rel, ← ZipEntry.path, found, Option.map_some]
  · have test : validDestName (render relative) = true ↔ ¬ (render relative = [] ∨
        render relative = dot ∨ render relative = [slash]) := by
      simp [validDestName, and_assoc]
    rw [test, render_relative_iff relative unrooted]
  · rw [rel, leads, Path.append, Option.isSome_map]
    exact Path.rel_isSome_of_pushAll _ _

theorem extractAll_cons (outcomes : Nat → EntryOutcome) (index : Nat) (entry : ZipEntry)
    (entries : List ZipEntry) (disk : Disk) (relative : GoPath)
    (found : rel basedir (join [[slash], entry.name]) = some (render relative))
    (valid : validDestName (render relative) = true ↔ relative ≠ Path.descent [])
    (leads : (rel dest (join [dest, render relative])).isSome = true) :
    extractAll basedir dest outcomes index (entry :: entries) disk =
      if entry.isDir = true ∨ relative = Path.descent [] then
        extractAll basedir dest outcomes (index + 1) entries disk
      else
        match writeFile entry (join [dest, render relative]) (outcomes index) disk with
        | (some error, disk) => (.panicked error, disk)
        | (none, disk) => extractAll basedir dest outcomes (index + 1) entries disk := by
  obtain ⟨written, isWritten⟩ := Option.isSome_iff_exists.mp leads
  by_cases here : relative = Path.descent []
  · have invalid : validDestName (render relative) = false := by
      rw [Bool.eq_false_iff]
      exact fun isValid => valid.mp isValid here
    rw [if_pos (.inr here)]
    simp [extractAll, found, invalid]
  · have isValid := valid.mpr here
    cases directory : entry.isDir with
    | true => simp [extractAll, found, isValid, extractAndWriteFile, directory]
    | false =>
      simp [extractAll, found, isValid, extractAndWriteFile, directory, isWritten, here]

theorem extractAll_turn (entry : ZipEntry) (rooted : (parse basedir).rooted = true)
    (destSome : dest ≠ []) :
    ∃ relative : GoPath,
      rel basedir (join [[slash], entry.name]) = some (render relative) ∧
      (∀ rest, relative = Path.descent rest ↔ entry.path.names = (parse basedir).names ++ rest) ∧
      parse (join [dest, render relative]) = (parse dest).append relative ∧
      ∀ outcomes index entries disk,
        extractAll basedir dest outcomes index (entry :: entries) disk =
          if entry.isDir = true ∨ relative = Path.descent [] then
            extractAll basedir dest outcomes (index + 1) entries disk
          else
            match writeFile entry (join [dest, render relative]) (outcomes index) disk with
            | (some error, disk) => (.panicked error, disk)
            | (none, disk) => extractAll basedir dest outcomes (index + 1) entries disk := by
  obtain ⟨relative, found, valid, descends, leads, comparable⟩ :=
    entry_relative basedir dest entry rooted destSome
  refine ⟨relative, found, descends, leads, ?_⟩
  intro outcomes index entries disk
  exact extractAll_cons basedir dest outcomes index entry entries disk relative found valid comparable

end Entry

/-- Nothing is forgotten of what a file's extraction finds on the disk. -/
theorem writeFile_none (entry : ZipEntry) (destPath : Bytes) (outcome : EntryOutcome)
    (disk after : Disk) (done : writeFile entry destPath outcome disk = (none, after)) :
    after.wrote = disk.wrote ++ [(entry, parse destPath)] ∧
      after.dirs = (mkdirAll (parse (dir destPath)) outcome.mkdir disk).dirs := by
  unfold writeFile at done
  cases opens : outcome.opens with
  | some error => simp [opens] at done
  | none =>
    cases stops : outcome.mkdir.error with
    | some error => simp [opens, stops] at done
    | none =>
      cases creates : outcome.creates with
      | some error => simp [opens, stops, creates] at done
      | none =>
        simp only [opens, stops, creates, Prod.mk.injEq] at done
        rw [← done.2]
        exact ⟨rfl, rfl⟩

section Loop

variable (basedir dest : Bytes)

theorem extractAll_complete (rooted : (parse basedir).rooted = true) (destSome : dest ≠ [])
    (outcomes : Nat → EntryOutcome) (index : Nat) (entries : List ZipEntry) (disk after : Disk)
    (ended : extractAll basedir dest outcomes index entries disk = (.returned none, after)) :
    (∀ write ∈ disk.wrote, write ∈ after.wrote) ∧
      ∀ entry ∈ entries, entry.isDir = false → ∀ relative,
        rel basedir (join [[slash], entry.name]) = some (render relative) →
        relative ≠ Path.descent [] → (entry, (parse dest).append relative) ∈ after.wrote := by
  induction entries generalizing index disk with
  | nil =>
    simp only [extractAll, Prod.mk.injEq, true_and] at ended
    rw [← ended]
    exact ⟨fun _ member => member, fun _ member => absurd member List.not_mem_nil⟩
  | cons entry entries ih =>
    obtain ⟨relative, found, _, leads, turn⟩ := extractAll_turn basedir dest entry rooted destSome
    rw [turn] at ended
    have same : ∀ other, rel basedir (join [[slash], entry.name]) = some (render other) →
        other = relative :=
      fun _ otherFound => render_injective (Option.some.inj (otherFound.symm.trans found))
    by_cases skipped : entry.isDir = true ∨ relative = Path.descent []
    · rw [if_pos skipped] at ended
      obtain ⟨kept, written⟩ := ih (index + 1) disk ended
      refine ⟨kept, ?_⟩
      intro other member file otherRelative otherFound proper
      rcases List.mem_cons.mp member with rfl | later
      · rw [same otherRelative otherFound] at proper
        rcases skipped with directory | here
        · rw [file] at directory
          exact absurd directory (by decide)
        · exact absurd here proper
      · exact written other later file otherRelative otherFound proper
    · rw [if_neg skipped] at ended
      cases extracted : writeFile entry (join [dest, render relative]) (outcomes index) disk with
      | mk error middle =>
        cases error with
        | some error => simp [extracted] at ended
        | none =>
          simp only [extracted] at ended
          obtain ⟨kept, written⟩ := ih (index + 1) middle ended
          have added := (writeFile_none entry _ _ disk middle extracted).1
          rw [leads] at added
          constructor
          · intro write member
            exact kept write (by rw [added]; exact List.mem_append_left _ member)
          · intro other member file otherRelative otherFound proper
            rcases List.mem_cons.mp member with rfl | later
            · rw [same otherRelative otherFound]
              exact kept _ (by rw [added]; exact List.mem_append_right _ List.mem_cons_self)
            · exact written other later file otherRelative otherFound proper

theorem extractAll_succeeds (rooted : (parse basedir).rooted = true) (destSome : dest ≠ [])
    (index : Nat) (entries : List ZipEntry) (disk : Disk) :
    (extractAll basedir dest (fun _ => ⟨none, .succeeds, none, none⟩) index entries disk).1 =
      .returned none := by
  induction entries generalizing index disk with
  | nil => rfl
  | cons entry entries ih =>
    obtain ⟨relative, _, _, _, turn⟩ := extractAll_turn basedir dest entry rooted destSome
    rw [turn]
    by_cases skipped : entry.isDir = true ∨ relative = Path.descent []
    · rw [if_pos skipped]
      exact ih (index + 1) disk
    · rw [if_neg skipped]
      exact ih (index + 1) _

theorem extractAll_unopened (rooted : (parse basedir).rooted = true) (destSome : dest ≠ [])
    (index : Nat) (entries : List ZipEntry) (disk : Disk) :
    (extractAll basedir dest (fun _ => ⟨some [], .succeeds, none, none⟩) index entries disk).2 =
      disk := by
  induction entries generalizing index with
  | nil => rfl
  | cons entry entries ih =>
    obtain ⟨relative, _, _, _, turn⟩ := extractAll_turn basedir dest entry rooted destSome
    rw [turn]
    by_cases skipped : entry.isDir = true ∨ relative = Path.descent []
    · rw [if_pos skipped]
      exact ih (index + 1)
    · rw [if_neg skipped]
      rfl

end Loop

section Lineage

variable (destination : GoPath)

theorem inside_refl : Inside destination destination := ⟨rfl, rfl, List.prefix_rfl⟩

theorem inside_append (rest : List Element) :
    Inside destination (destination.append (Path.descent rest)) := by
  rw [Path.append_descent]
  exact ⟨rfl, rfl, List.prefix_append _ _⟩

/-- Of the directories that the destination needs, only itself is inside it. -/
theorem eq_of_lineage_of_inside (path : GoPath) (needed : path ∈ lineage destination)
    (inside : Inside destination path) : path = destination := by
  rcases List.mem_append.mp needed with up | name
  · obtain ⟨above, bound, rfl⟩ := List.mem_map.mp up
    have rooted := inside.rooted
    have ups := inside.ups
    have names := List.prefix_nil.mp inside.names
    cases destination with
    | mk isRooted count elements grounded => simp_all
  · obtain ⟨depth, bound, rfl⟩ := List.mem_map.mp name
    have longEnough := inside.names.length_le
    rw [List.mem_range] at bound
    simp only [List.length_take] at longEnough
    have whole : destination.names.take (depth + 1) = destination.names :=
      List.take_of_length_le (by omega)
    simp only [whole]

theorem lineage_append (rest : List Element) (path : GoPath)
    (needed : path ∈ lineage (destination.append (Path.descent rest))) :
    path ∈ lineage destination ∨ Inside destination path := by
  rw [Path.append_descent] at needed
  rcases List.mem_append.mp needed with up | name
  · exact .inl (List.mem_append_left _ up)
  · obtain ⟨depth, bound, rfl⟩ := List.mem_map.mp name
    by_cases short : depth + 1 ≤ destination.names.length
    · left
      refine List.mem_append_right _ (List.mem_map.mpr ⟨depth, List.mem_range.mpr (by omega), ?_⟩)
      simp only [List.take_append_of_le_length short]
    · right
      refine ⟨rfl, rfl, ?_⟩
      rw [List.take_append, List.take_of_length_le (by omega)]
      exact List.prefix_append _ _

end Lineage

section Containment

variable (base destination : GoPath)

/-- What holds of the disk while files from below the base are extracted: what is above
the destination exists, and what was made and written is as it should be. -/
structure Orderly (disk : Disk) : Prop where
  above : ∀ path ∈ lineage destination, path ≠ destination → path ∈ disk.dirs
  made : ∀ path ∈ disk.made, Inside destination path
  wrote : ∀ write ∈ disk.wrote, Located base destination write.1 write.2

theorem orderly_mkdirAll (disk : Disk) (outcome : MkdirOutcome) (path : GoPath)
    (orderly : Orderly base destination disk)
    (near : ∀ needed ∈ lineage path, needed ∈ lineage destination ∨ Inside destination needed) :
    Orderly base destination (mkdirAll path outcome disk) := by
  have missing : ∀ needed ∈ (lineage path).filter (· ∉ disk.dirs), Inside destination needed := by
    intro needed member
    obtain ⟨isNeeded, absent⟩ := List.mem_filter.mp member
    rcases near needed isNeeded with above | inside
    · by_cases same : needed = destination
      · rw [same]
        exact inside_refl destination
      · exact absurd (orderly.above needed above same) (by simpa using absent)
    · exact inside
  have made : ∀ needed ∈ (match outcome with
      | .succeeds => (lineage path).filter (· ∉ disk.dirs)
      | .fails count _ _ => ((lineage path).filter (· ∉ disk.dirs)).take count),
      Inside destination needed := by
    intro needed member
    cases outcome with
    | succeeds => exact missing needed member
    | fails count isExist error => exact missing needed (List.mem_of_mem_take member)
  constructor
  · intro needed member different
    exact List.mem_append_left _ (orderly.above needed member different)
  · intro needed member
    rcases List.mem_append.mp member with old | new
    · exact orderly.made needed old
    · exact made needed new
  · exact orderly.wrote

theorem orderly_writeFile (disk : Disk) (entry : ZipEntry) (destPath : Bytes)
    (outcome : EntryOutcome) (orderly : Orderly base destination disk)
    (located : Located base destination entry (parse destPath))
    (near : ∀ needed ∈ lineage (parse (dir destPath)),
      needed ∈ lineage destination ∨ Inside destination needed) :
    Orderly base destination (writeFile entry destPath outcome disk).2 := by
  have made := orderly_mkdirAll base destination disk outcome.mkdir _ orderly near
  unfold writeFile
  cases opens : outcome.opens with
  | some error => exact orderly
  | none =>
    cases stops : outcome.mkdir.error with
    | some error => exact made
    | none =>
      cases creates : outcome.creates with
      | some error => exact made
      | none =>
        refine ⟨made.above, made.made, ?_⟩
        intro write member
        rcases List.mem_append.mp member with old | new
        · exact made.wrote write old
        · rw [List.mem_singleton.mp new]
          exact located

end Containment

section Main

variable (basedir dest : Bytes)

/-- The directory of a file that belongs under the destination is under it. -/
theorem parse_dir_located (destSome : dest ≠ []) (rest : List Element) (proper : rest ≠ []) :
    parse (dir (join [dest, render (Path.descent rest)])) =
      (parse dest).append (Path.descent rest.dropLast) := by
  have rendered := join_eq_render dest (render (Path.descent rest)) destSome (render_ne_nil _)
  have leads : parse (join [dest, render (Path.descent rest)]) =
      (parse dest).append (Path.descent rest) := by
    rw [parse_join dest _ destSome (render_ne_nil _), pushAll_partsOf_render]
    rfl
  rw [Path.append_descent] at leads
  rw [rendered, leads, parse_dir_render _ (by simp [proper]), Path.append_descent]
  simp only [List.dropLast_append_of_ne_nil proper]

theorem orderly_extractAll (rooted : (parse basedir).rooted = true) (destSome : dest ≠ [])
    (outcomes : Nat → EntryOutcome) (index : Nat) (entries : List ZipEntry) (disk : Disk)
    (below : ∀ entry ∈ entries, entry.isDir = false → (parse basedir).names <+: entry.path.names)
    (orderly : Orderly (parse basedir) (parse dest) disk) :
    Orderly (parse basedir) (parse dest)
      (extractAll basedir dest outcomes index entries disk).2 := by
  induction entries generalizing index disk with
  | nil => exact orderly
  | cons entry entries ih =>
    have later := fun other member => below other (List.mem_cons_of_mem _ member)
    obtain ⟨relative, _, descends, leads, turn⟩ :=
      extractAll_turn basedir dest entry rooted destSome
    rw [turn]
    by_cases skipped : entry.isDir = true ∨ relative = Path.descent []
    · rw [if_pos skipped]
      exact ih (index + 1) disk later orderly
    · rw [if_neg skipped]
      obtain ⟨notDirectory, notHere⟩ := not_or.mp skipped
      have file : entry.isDir = false := Bool.eq_false_iff.mpr notDirectory
      obtain ⟨rest, whole⟩ := below entry List.mem_cons_self file
      have descent : relative = Path.descent rest := (descends rest).mpr whole.symm
      have proper : rest ≠ [] := by
        rintro rfl
        exact notHere descent
      have located : Located (parse basedir) (parse dest) entry
          (parse (join [dest, render relative])) := by
        refine ⟨file, rest, proper, whole.symm, ?_⟩
        rw [leads, descent]
      have written := orderly_writeFile (parse basedir) (parse dest) disk entry _ (outcomes index)
        orderly located (by
          rw [descent, parse_dir_located dest destSome rest proper]
          exact fun needed member => lineage_append (parse dest) rest.dropLast needed member)
      cases extracted : writeFile entry (join [dest, render relative]) (outcomes index) disk with
      | mk error after =>
        rw [extracted] at written
        cases error with
        | some error => exact written
        | none => exact ih (index + 1) after later written

end Main

theorem unzipToDir_ok (entries : List ZipEntry) (basedir dest : Bytes) (destOutcome : MkdirOutcome)
    (outcomes : Nat → EntryOutcome) (dirs : List GoPath) :
    unzipToDir (.ok entries) basedir dest destOutcome outcomes dirs =
      extractAll (join [[slash], basedir]) (clean dest) outcomes 0 entries
        (mkdirAll (parse dest) destOutcome ⟨dirs, [], []⟩) := by
  rw [unzipToDir, parse_clean]

section Exact

variable (entries : List ZipEntry) (basedir dest : Bytes) (dirs : List GoPath)

/-- Let every call succeed; then each file is written, so it is from below the base. -/
theorem below_of_contained
    (contained : ∀ destOutcome outcomes,
      Contained entries (parse (join [[slash], basedir])) (parse dest)
        (unzipToDir (.ok entries) basedir dest destOutcome outcomes dirs))
    (entry : ZipEntry) (member : entry ∈ entries) (file : entry.isDir = false) :
    (parse (join [[slash], basedir])).names <+: entry.path.names := by
  have rooted := parse_join_root basedir
  have destSome : clean dest ≠ [] := render_ne_nil _
  have run := contained .succeeds (fun _ => ⟨none, .succeeds, none, none⟩)
  rw [unzipToDir_ok] at run
  obtain ⟨relative, found, _, descends, _, _⟩ :=
    entry_relative (join [[slash], basedir]) (clean dest) entry rooted destSome
  by_cases here : relative = Path.descent []
  · exact ⟨[], ((descends []).mp here).symm⟩
  · have ended := extractAll_succeeds (join [[slash], basedir]) (clean dest) rooted destSome 0
      entries (mkdirAll (parse dest) .succeeds ⟨dirs, [], []⟩)
    have written := (extractAll_complete (join [[slash], basedir]) (clean dest) rooted destSome _
      0 entries _ _ (Prod.ext ended rfl)).2 entry member file relative found here
    obtain ⟨_, rest, _, whole, _⟩ := run.wrote _ written
    exact ⟨rest, whole.symm⟩

/-- Making the destination makes the parents that it lacks. -/
theorem above_of_contained
    (contained : ∀ destOutcome outcomes,
      Contained entries (parse (join [[slash], basedir])) (parse dest)
        (unzipToDir (.ok entries) basedir dest destOutcome outcomes dirs))
    (path : GoPath) (needed : path ∈ lineage (parse dest)) (different : path ≠ parse dest) :
    path ∈ dirs := by
  by_contra absent
  have destSome : clean dest ≠ [] := render_ne_nil _
  have run := contained .succeeds (fun _ => ⟨some [], .succeeds, none, none⟩)
  rw [unzipToDir_ok] at run
  have inside := run.made path (by
    rw [extractAll_unopened _ _ (parse_join_root basedir) destSome]
    simp [mkdirAll, needed, absent])
  exact different (eq_of_lineage_of_inside (parse dest) path needed inside)

theorem contained_of_below
    (below : ∀ entry ∈ entries, entry.isDir = false →
      (parse (join [[slash], basedir])).names <+: entry.path.names)
    (above : ∀ path ∈ lineage (parse dest), path ≠ parse dest → path ∈ dirs)
    (destOutcome : MkdirOutcome) (outcomes : Nat → EntryOutcome) :
    Contained entries (parse (join [[slash], basedir])) (parse dest)
      (unzipToDir (.ok entries) basedir dest destOutcome outcomes dirs) := by
  have rooted := parse_join_root basedir
  have destSome : clean dest ≠ [] := render_ne_nil _
  have initial : Orderly (parse (join [[slash], basedir])) (parse dest) ⟨dirs, [], []⟩ :=
    ⟨above, fun _ member => absurd member List.not_mem_nil,
      fun _ member => absurd member List.not_mem_nil⟩
  have started := orderly_mkdirAll _ _ _ destOutcome (parse dest) initial
    (fun needed member => .inl member)
  have orderly := orderly_extractAll (join [[slash], basedir]) (clean dest) rooted destSome
    outcomes 0 entries _ below (by rw [parse_clean]; exact started)
  rw [parse_clean, ← unzipToDir_ok] at orderly
  refine ⟨orderly.made, ?_, orderly.wrote, ?_⟩
  · intro write member
    obtain ⟨_, rest, _, _, place⟩ := orderly.wrote write member
    rw [place]
    exact inside_append _ rest
  · intro ended entry member path located
    obtain ⟨file, rest, proper, whole, place⟩ := located
    obtain ⟨relative, found, _, descends, _, _⟩ :=
      entry_relative (join [[slash], basedir]) (clean dest) entry rooted destSome
    have descent : relative = Path.descent rest := (descends rest).mpr whole
    have notHere : relative ≠ Path.descent [] := by
      rw [descent]
      exact fun same => proper (congrArg Path.names same)
    rw [unzipToDir_ok] at ended ⊢
    have written := (extractAll_complete (join [[slash], basedir]) (clean dest) rooted destSome
      outcomes 0 entries _ _ (Prod.ext ended rfl)).2 entry member file relative found notHere
    rw [parse_clean] at written
    rw [place, ← descent]
    exact written

/-- Whatever the calls to the operating system come to, an extraction stays inside its
destination and writes the files from below the base directory, each at its place, exactly
when the archive has no file elsewhere and the destination's parents exist. -/
theorem extraction_contained_iff :
    (∀ destOutcome outcomes,
      Contained entries (parse (join [[slash], basedir])) (parse dest)
        (unzipToDir (.ok entries) basedir dest destOutcome outcomes dirs)) ↔
    (∀ entry ∈ entries, entry.isDir = false →
      (parse (join [[slash], basedir])).names <+: entry.path.names) ∧
    ∀ path ∈ lineage (parse dest), path ≠ parse dest → path ∈ dirs := by
  constructor
  · intro contained
    exact ⟨below_of_contained entries basedir dest dirs contained,
      above_of_contained entries basedir dest dirs contained⟩
  · intro condition
    exact contained_of_below entries basedir dest dirs condition.1 condition.2

end Exact

/-- An archive with one file in the base directory and one next to it. -/
def strayArchive : List ZipEntry :=
  [⟨ascii "pkg/testrunner.textproto", false⟩, ⟨ascii "other/passwd", false⟩]

theorem file_written_outside :
    (unzipToDir (.ok strayArchive) (ascii "pkg") (ascii "/tmp/sut") .succeeds
        (fun _ => ⟨none, .succeeds, none, none⟩) [parse (ascii "/tmp")]).2.wrote.map
        (fun write => render write.2) =
      [ascii "/tmp/sut/testrunner.textproto", ascii "/tmp/other/passwd"] ∧
    ¬ ∀ destOutcome outcomes,
      Contained strayArchive (parse (join [[slash], ascii "pkg"])) (parse (ascii "/tmp/sut"))
        (unzipToDir (.ok strayArchive) (ascii "pkg") (ascii "/tmp/sut") destOutcome outcomes
          [parse (ascii "/tmp")]) := by
  refine ⟨by decide, ?_⟩
  intro contained
  have run := contained .succeeds (fun _ => ⟨none, .succeeds, none, none⟩)
  have written : (⟨ascii "other/passwd", false⟩, parse (ascii "/tmp/other/passwd")) ∈
      (unzipToDir (.ok strayArchive) (ascii "pkg") (ascii "/tmp/sut") .succeeds
        (fun _ => ⟨none, .succeeds, none, none⟩) [parse (ascii "/tmp")]).2.wrote := by decide
  exact absurd (run.wroteInside _ written).names (by decide)

end EzSdk.Deploy
