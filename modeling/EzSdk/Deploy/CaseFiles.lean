import EzSdk.Devkit.Python
import EzSdk.Foundation.Tables

/-! How the files of a functional test suite are grouped into test cases by their names, and for
which sets of files the grouping loses none of them. -/

namespace EzSdk.Deploy.CaseFiles

open Devkit Tables

inductive FileType where
  | request
  | reply
  | preFilter
  | postFilter
  | postFilterSlurp
  deriving DecidableEq

def fileTypes : List FileType := [.request, .reply, .preFilter, .postFilter, .postFilterSlurp]

theorem mem_fileTypes (fileType : FileType) : fileType ∈ fileTypes := by
  cases fileType <;> decide

/-- Suffixes of which every file name ends in one at most. -/
structure Suffixes where
  of : FileType → Chars
  apart : ∀ {first second path}, of first <:+ path → of second <:+ path → first = second

def defaultSuffix : FileType → Chars
  | .request => ".request.json".toList
  | .reply => ".reply.json".toList
  | .preFilter => ".pre-filter.jq".toList
  | .postFilter => ".filter.jq".toList
  | .postFilterSlurp => ".filter.slurp.jq".toList

theorem defaultSuffix_apart (first second : FileType)
    (shorter : defaultSuffix first <:+ defaultSuffix second) : first = second := by
  revert shorter
  cases first <;> cases second <;> decide

def defaultSuffixes : Suffixes where
  of := defaultSuffix
  apart := by
    intro first second path endsFirst endsSecond
    cases List.suffix_or_suffix_of_suffix endsFirst endsSecond with
    | inl shorter => exact defaultSuffix_apart first second shorter
    | inr shorter => exact (defaultSuffix_apart second first shorter).symm

/-- The files that the glob of each type matches, as paths from the package's directory. -/
structure Matched (suffixes : Suffixes) where
  files : FileType → List Chars
  ends : ∀ {fileType path}, path ∈ files fileType → suffixes.of fileType <:+ path

/-! ### The macro -/

def removesuffix (text suffix : Chars) : Chars :=
  if suffix <:+ text then text.take (text.length - suffix.length) else text

/-- `text.rpartition("/")[2]`. -/
def afterLastSlash (text : Chars) : Chars := (text.splitOn '/').getLastD []

variable (suffixes : Suffixes)

/-- A path without its suffix: the directory and the base name. -/
def stem (fileType : FileType) (path : Chars) : Chars := removesuffix path (suffixes.of fileType)

def testName (fileType : FileType) (path : Chars) : Chars := afterLastSlash (stem suffixes fileType path)

def slotOf (entry : FileType × Chars) : Chars × FileType := (testName suffixes entry.1 entry.2, entry.1)

variable {suffixes} (found : Matched suffixes)

def globbed : List (FileType × Chars) :=
  fileTypes.flatMap fun fileType => (found.files fileType).map fun path => (fileType, path)

/-- The dictionary `files`. -/
def filesBySlot : AList (fun _ : Chars × FileType => FileType × Chars) :=
  (globbed found).foldl (keepLast (slotOf suffixes)) ∅

/-- `files.get((test_name, file_type), "")`. -/
def fileOf (name : Chars) (fileType : FileType) : Chars :=
  (((filesBySlot found).lookup (name, fileType)).map Prod.snd).getD []

abbrev TestFiles := AList (fun _ : Chars => Chars × (FileType → Chars))

/-- `functional_test_files_for`. -/
def functionalTestFilesFor : TestFiles :=
  ((filesBySlot found).keys.map fun slot => (slot.1, fileOf found slot.1)).foldl (keepLast Prod.fst) ∅

/-- The path is what the test case of the name has for the type. -/
def Occurs (testFiles : TestFiles) (path name : Chars) (fileType : FileType) : Prop :=
  ∃ case, testFiles.lookup name = some case ∧ case.2 fileType = path

/-! ### What is in the mapping -/

theorem mem_globbed (fileType : FileType) (path : Chars) :
    (fileType, path) ∈ globbed found ↔ path ∈ found.files fileType := by
  simp [globbed, mem_fileTypes]

theorem stem_append {fileType : FileType} {path : Chars} (member : path ∈ found.files fileType) :
    stem suffixes fileType path ++ suffixes.of fileType = path := by
  have ends := found.ends member
  rw [stem, removesuffix, if_pos ends]
  exact List.suffix_iff_eq_append.mp ends

theorem suffix_ne_nil (fileType : FileType) : suffixes.of fileType ≠ [] := by
  intro empty
  have every : ∀ other, fileType = other := by
    intro other
    have endsIn : suffixes.of fileType <:+ suffixes.of other := by
      rw [empty]
      exact List.nil_suffix
    exact suffixes.apart endsIn List.suffix_rfl
  have different : FileType.request ≠ FileType.reply := by decide
  exact different ((every .request).symm.trans (every .reply))

theorem matched_ne_nil {fileType : FileType} {path : Chars} (member : path ∈ found.files fileType) :
    path ≠ [] := by
  rw [← stem_append found member]
  exact List.append_ne_nil_of_right_ne_nil _ (suffix_ne_nil fileType)

theorem lookup_filesBySlot (slot : Chars × FileType) :
    (filesBySlot found).lookup slot = lastOf (slotOf suffixes) (globbed found) slot := by
  rw [filesBySlot, lookup_lastOf]

theorem fileOf_of_none {name : Chars} {fileType : FileType}
    (none : lastOf (slotOf suffixes) (globbed found) (name, fileType) = none) :
    fileOf found name fileType = [] := by
  rw [fileOf, lookup_filesBySlot, none]
  rfl

/-- Only a name of the dictionary has a test case, and it has the files of the dictionary. -/
theorem lookup_testFiles {name : Chars} {case : Chars × (FileType → Chars)}
    (present : (functionalTestFilesFor found).lookup name = some case) :
    case = (name, fileOf found name) := by
  rw [functionalTestFilesFor, lookup_lastOf, lastOf_map] at present
  obtain ⟨slot, last, made⟩ := Option.map_eq_some_iff.mp present
  have named : slot.1 = name := (lastOf_mem _ _ _ _ last).2
  rw [← made, named]

theorem testFiles_has {slot : Chars × FileType} (present : slot ∈ filesBySlot found) :
    ∃ case, (functionalTestFilesFor found).lookup slot.1 = some case := by
  rw [functionalTestFilesFor, lookup_lastOf]
  apply lastOf_exists Prod.fst _ (slot.1, fileOf found slot.1)
  exact List.mem_map.mpr ⟨slot, AList.mem_keys.mp present, rfl⟩

theorem occurs_iff {path : Chars} (something : path ≠ []) (name : Chars) (fileType : FileType) :
    Occurs (functionalTestFilesFor found) path name fileType ↔
      lastOf (slotOf suffixes) (globbed found) (name, fileType) = some (fileType, path) := by
  constructor
  · rintro ⟨case, present, same⟩
    rw [lookup_testFiles found present] at same
    cases last : lastOf (slotOf suffixes) (globbed found) (name, fileType) with
    | none => exact absurd (same.symm.trans (fileOf_of_none found last)) something
    | some entry =>
      have typed := congrArg Prod.snd (lastOf_mem _ _ _ _ last).2
      simp only [fileOf, lookup_filesBySlot, last] at same
      exact congrArg some (Prod.ext typed same)
  · intro last
    have present : (name, fileType) ∈ filesBySlot found := by
      rw [← AList.lookup_isSome, lookup_filesBySlot, last]
      rfl
    obtain ⟨case, has⟩ := testFiles_has found present
    refine ⟨case, has, ?_⟩
    rw [lookup_testFiles found has]
    simp only [fileOf, lookup_filesBySlot, last]
    rfl

theorem occurs_slot {fileType occursAs : FileType} {path name : Chars}
    (member : path ∈ found.files fileType)
    (occurs : Occurs (functionalTestFilesFor found) path name occursAs) :
    name = testName suffixes fileType path ∧ occursAs = fileType := by
  have last := (occurs_iff found (matched_ne_nil found member) name occursAs).mp occurs
  obtain ⟨globbedAs, slot⟩ := lastOf_mem _ _ _ _ last
  have typed : occursAs = fileType :=
    suffixes.apart (found.ends ((mem_globbed found _ _).mp globbedAs)) (found.ends member)
  subst typed
  exact ⟨(congrArg Prod.fst slot).symm, rfl⟩

/-! ### Which sets of files are grouped without loss -/

/-- Every file is in exactly one test case and there under its own type, and the files of a test
case agree in directory and base name. -/
structure Grouped : Prop where
  kept : ∀ fileType, ∀ path ∈ found.files fileType, ∃ name, ∀ otherName otherType,
    Occurs (functionalTestFilesFor found) path otherName otherType ↔
      otherName = name ∧ otherType = fileType
  together : ∀ name firstType secondType first second, first ≠ [] → second ≠ [] →
    Occurs (functionalTestFilesFor found) first name firstType →
      Occurs (functionalTestFilesFor found) second name secondType →
        stem suffixes firstType first = stem suffixes secondType second

/-- Files with one base name are in one directory. -/
def NamesSettleDirectories : Prop :=
  ∀ firstType secondType, ∀ first ∈ found.files firstType, ∀ second ∈ found.files secondType,
    testName suffixes firstType first = testName suffixes secondType second →
      stem suffixes firstType first = stem suffixes secondType second

theorem kept_occurs (grouped : Grouped found) {fileType : FileType} {path : Chars}
    (member : path ∈ found.files fileType) :
    Occurs (functionalTestFilesFor found) path (testName suffixes fileType path) fileType := by
  obtain ⟨name, exactly⟩ := grouped.kept fileType path member
  have occurs := (exactly name fileType).mpr ⟨rfl, rfl⟩
  have own := (occurs_slot found member occurs).1
  rw [← own]
  exact occurs

theorem occurs_of_settled (settled : NamesSettleDirectories found) {fileType : FileType} {path : Chars}
    (member : path ∈ found.files fileType) :
    Occurs (functionalTestFilesFor found) path (testName suffixes fileType path) fileType := by
  rw [occurs_iff found (matched_ne_nil found member)]
  obtain ⟨entry, last⟩ := lastOf_exists (slotOf suffixes) (globbed found) (fileType, path)
    ((mem_globbed found _ _).mpr member)
  obtain ⟨globbedAs, slot⟩ := lastOf_mem _ _ _ _ last
  cases entry with
  | mk otherType other =>
    have typed : otherType = fileType := congrArg Prod.snd slot
    subst typed
    have otherMember := (mem_globbed found _ _).mp globbedAs
    have stems := settled otherType otherType other otherMember path member
      (congrArg Prod.fst slot)
    have same : other = path := by
      rw [← stem_append found otherMember, stems, stem_append found member]
    rw [← same]
    exact same ▸ last

/-- The grouping loses and mixes nothing exactly when no two matched files with the same base name
are in different directories. -/
theorem grouped_iff : Grouped found ↔ NamesSettleDirectories found := by
  constructor
  · intro grouped firstType secondType first firstMember second secondMember sameName
    have occursFirst := kept_occurs found grouped firstMember
    have occursSecond := kept_occurs found grouped secondMember
    rw [sameName] at occursFirst
    exact grouped.together _ firstType secondType first second (matched_ne_nil found firstMember)
      (matched_ne_nil found secondMember) occursFirst occursSecond
  · intro settled
    constructor
    · intro fileType path member
      refine ⟨testName suffixes fileType path, ?_⟩
      intro otherName otherType
      constructor
      · exact occurs_slot found member
      · rintro ⟨rfl, rfl⟩
        exact occurs_of_settled found settled member
    · intro name firstType secondType first second firstSome secondSome occursFirst occursSecond
      obtain ⟨firstGlobbed, firstSlot⟩ :=
        lastOf_mem _ _ _ _ ((occurs_iff found firstSome name firstType).mp occursFirst)
      obtain ⟨secondGlobbed, secondSlot⟩ :=
        lastOf_mem _ _ _ _ ((occurs_iff found secondSome name secondType).mp occursSecond)
      have sameName : testName suffixes firstType first = testName suffixes secondType second :=
        (congrArg Prod.fst firstSlot).trans (congrArg Prod.fst secondSlot).symm
      exact settled firstType secondType first ((mem_globbed found _ _).mp firstGlobbed) second
        ((mem_globbed found _ _).mp secondGlobbed) sameName

def loginRequest : Chars := "login/ok.request.json".toList
def logoutRequest : Chars := "logout/ok.request.json".toList

def twoDirectories : Matched defaultSuffixes where
  files
    | .request => [loginRequest, logoutRequest]
    | _ => []
  ends := by
    have each : ∀ path ∈ [loginRequest, logoutRequest], defaultSuffix .request <:+ path := by decide
    intro fileType path member
    cases fileType with
    | request => exact each path member
    | reply => cases member
    | preFilter => cases member
    | postFilter => cases member
    | postFilterSlurp => cases member

theorem login_not_occurs (name : Chars) (fileType : FileType) :
    ¬ Occurs (functionalTestFilesFor twoDirectories) loginRequest name fileType := by
  intro occurs
  have member : loginRequest ∈ twoDirectories.files .request := by decide
  obtain ⟨rfl, rfl⟩ := occurs_slot twoDirectories member occurs
  rw [occurs_iff twoDirectories (by decide)] at occurs
  exact absurd occurs (by decide)

/-- Of two requests with equal names in two directories, only one is in the only test case. -/
theorem request_lost :
    (functionalTestFilesFor twoDirectories).keys = ["ok".toList] ∧
      Occurs (functionalTestFilesFor twoDirectories) logoutRequest "ok".toList .request ∧
      (∀ name fileType,
        ¬ Occurs (functionalTestFilesFor twoDirectories) loginRequest name fileType) ∧
      ¬ Grouped twoDirectories := by
  refine ⟨by decide, ?_, login_not_occurs, ?_⟩
  · rw [occurs_iff twoDirectories (by decide)]
    decide
  · intro grouped
    have member : loginRequest ∈ twoDirectories.files .request := by decide
    exact login_not_occurs _ _ (kept_occurs twoDirectories grouped member)

end EzSdk.Deploy.CaseFiles
