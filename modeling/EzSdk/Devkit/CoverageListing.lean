import EzSdk.Devkit.CoverageGate
import EzSdk.Devkit.CoverageSections

/-! Whether the report of `coverage_report.py` lists exactly the lines and branches that a record does
not count as hit. -/

namespace EzSdk.Devkit.Coverage

open Postconditions Tables Texts

/-! ### Consistent files -/

/-- The line or the branch that a line of a record is about. -/
def Data.item : Data → Option Item
  | line number _ _ => some (.line number.value)
  | branch number block index _ => some (.branch number.value block.value index.value)
  | _ => none

/-- The line or the branch was hit. -/
def Data.counted : Data → Bool
  | line _ hits _ => hits.value ≠ 0
  | branch _ _ _ taken => taken.any fun number => number.value ≠ 0
  | _ => false

def Data.isLine : Data → Bool
  | line _ _ _ => true
  | _ => false

def Data.isBranch : Data → Bool
  | branch _ _ _ _ => true
  | _ => false

/-- The numbers of a record are those of its lines. -/
structure Record.Consistent (record : Record) : Prop where
  linesFound : record.total .linesFound = record.data.countP Data.isLine
  linesHit : record.total .linesHit = record.data.countP fun data => data.isLine && data.counted
  branchesFound : record.total .branchesFound = record.data.countP Data.isBranch
  branchesHit : record.total .branchesHit = record.data.countP fun data => data.isBranch && data.counted

/-- A file with one consistent record for each source file. -/
structure ConsistentFile where
  records : List Record
  onePerFile : (records.map Record.path).Nodup
  oneLine : ∀ record ∈ records, '\n' ∉ record.path
  consistent : ∀ record ∈ records, record.Consistent

variable (python : Python)

/-- There is a report, which lists a line or a branch of a record exactly when it was not hit, lists
nothing else, and lists some branch of each record that has more branches than were hit. -/
def ListingComplete (file : ConsistentFile) : Prop :=
  ∀ linesThreshold branchThreshold, ∃ report,
    generateLcovReport python (some (lcovLines file.records)) linesThreshold branchThreshold =
      .ok report ∧
    (∀ record ∈ file.records, ∀ data ∈ record.data, ∀ item, data.item = some item →
      (report.lists record.path item ↔ data.counted = false)) ∧
    (∀ path item, report.lists path item →
      ∃ record ∈ file.records, record.path = path ∧ ∃ data ∈ record.data, data.item = some item) ∧
    ∀ record ∈ file.records, record.total .branchesHit < record.total .branchesFound →
      ∃ number block index, report.lists record.path (.branch number block index)

/-! ### What the script marks as uncovered -/

/-- The line or the branch that the script takes to be uncovered. A taken field of zero is not among
the marks. -/
def Data.mark : Data → Option Item
  | line number hits _ => if hits.value = 0 then some (.line number.value) else none
  | branch number block index none => some (.branch number.value block.value index.value)
  | _ => none

/-- The last record that is kept under the path marks the line or the branch. -/
def Marked (records : List Record) (path : Chars) (item : Item) : Prop :=
  path ≠ [] ∧ ∃ last, lastOf Record.key records path = some last ∧ ∃ data ∈ last.data, data.mark = some item

/-- What is marked under the path of a record are the lines and branches of it that were not hit, and
nothing else is marked. -/
def MarksUncounted (file : ConsistentFile) : Prop :=
  (∀ record ∈ file.records, ∀ data ∈ record.data, ∀ item, data.item = some item →
    (Marked file.records record.path item ↔ data.counted = false)) ∧
  ∀ path item, Marked file.records path item →
    ∃ record ∈ file.records, record.path = path ∧ ∃ data ∈ record.data, data.item = some item

theorem addData_misses (coverage : FileCoverage) (data : Data) (item : Item) :
    (addData coverage data).misses item ↔ coverage.misses item ∨ data.mark = some item := by
  cases data with
  | count counter value =>
    have unchanged : (addData coverage (.count counter value)).misses item ↔ coverage.misses item := by
      cases item <;> rfl
    simp [unchanged, Data.mark]
  | line number hits checksum =>
    by_cases zero : hits.value = 0
    · cases item with
      | line other =>
        simp [addData, zero, FileCoverage.addLine, FileCoverage.misses, Data.mark, eq_comm]
      | branch other block index =>
        simp [addData, zero, FileCoverage.addLine, FileCoverage.misses, Data.mark]
    · simp [addData, zero, Data.mark]
  | branch number block index taken =>
    cases taken with
    | none =>
      cases item with
      | line other => simp [addData, FileCoverage.addBranch, FileCoverage.misses, Data.mark]
      | branch other otherBlock otherIndex =>
        simp [addData, FileCoverage.addBranch, FileCoverage.misses, Data.mark, eq_comm]
    | some taken => simp [addData, Data.mark]
  | other plain => simp [addData, Data.mark]

theorem foldl_addData_misses (data : List Data) (coverage : FileCoverage) (item : Item) :
    (data.foldl addData coverage).misses item ↔
      coverage.misses item ∨ ∃ line ∈ data, line.mark = some item := by
  induction data generalizing coverage with
  | nil => simp
  | cons first data ih =>
    rw [List.foldl_cons, ih, addData_misses, or_assoc, List.exists_mem_cons_iff]

theorem not_empty_misses (path : Chars) (item : Item) : ¬ (FileCoverage.empty path).misses item := by
  cases item with
  | line number => exact List.not_mem_nil
  | branch number block index => exact List.not_mem_nil

theorem coverage_misses (record : Record) (item : Item) :
    record.coverage.misses item ↔ record.key ≠ [] ∧ ∃ data ∈ record.data, data.mark = some item := by
  rw [Record.coverage]
  by_cases unnamed : record.key = []
  · rw [if_pos unnamed]
    simp [unnamed, not_empty_misses]
  · rw [if_neg unnamed, foldl_addData_misses]
    simp [unnamed, not_empty_misses]

theorem addData_plain {coverage : FileCoverage} (plain : coverage.Plain) (data : Data) :
    (addData coverage data).Plain := by
  cases data with
  | count counter value => exact ⟨plain.oneLine, plain.lines, plain.branches⟩
  | line number hits checksum =>
    rw [addData]
    split
    · refine ⟨plain.oneLine, ?_, plain.branches⟩
      intro line member
      cases List.mem_append.mp member with
      | inl old => exact plain.lines line old
      | inr new =>
        rw [List.mem_singleton.mp new]
        exact Int.natCast_nonneg _
    · exact plain
  | branch number block index taken =>
    cases taken with
    | none =>
      refine ⟨plain.oneLine, plain.lines, ?_⟩
      intro branch member
      cases List.mem_append.mp member with
      | inl old => exact plain.branches branch old
      | inr new =>
        rw [List.mem_singleton.mp new]
        exact ⟨Int.natCast_nonneg _, Int.natCast_nonneg _, Int.natCast_nonneg _⟩
    | some taken => exact plain
  | other line => exact plain

theorem foldl_addData_plain (data : List Data) {coverage : FileCoverage} (plain : coverage.Plain) :
    (data.foldl addData coverage).Plain := by
  induction data generalizing coverage with
  | nil => exact plain
  | cons first data ih => exact ih (addData_plain plain first)

theorem empty_plain {path : Chars} (oneLine : '\n' ∉ path) : (FileCoverage.empty path).Plain :=
  ⟨oneLine, by simp [FileCoverage.empty], by simp [FileCoverage.empty]⟩

theorem coverage_plain {record : Record} (oneLine : '\n' ∉ record.path) : record.coverage.Plain := by
  have keyOneLine : '\n' ∉ record.key := by
    intro member
    apply oneLine
    have inPath := remove_subset sourceMarker _ member
    exact (List.rdropWhile_prefix _ _).subset inPath
  rw [Record.coverage]
  split
  · exact empty_plain List.not_mem_nil
  · exact foldl_addData_plain record.data (empty_plain keyOneLine)

/-! ### The report of a consistent file -/

theorem counted_le (data : List Data) (isKind : Data → Bool) :
    data.countP (fun line => isKind line && line.counted) ≤ data.countP isKind := by
  apply List.countP_mono_left
  intro line _ both
  exact (Bool.and_eq_true_iff.mp both).1

/-- If fewer lines of a kind are counted than there are, one of them is not. -/
theorem exists_uncounted {data : List Data} {isKind : Data → Bool}
    (fewer : data.countP (fun line => isKind line && line.counted) < data.countP isKind) :
    ∃ line ∈ data, isKind line = true ∧ line.counted = false := by
  by_contra none
  apply Nat.not_le_of_lt fewer
  apply List.countP_mono_left
  intro line member kind
  cases counted : line.counted with
  | true => simp [kind]
  | false => exact absurd ⟨line, member, kind, counted⟩ none

theorem percent_ok {record : Record} {hit found : Counter}
    (le : record.total hit ≤ record.total found) :
    ∃ percent, coveragePercent python record.coverage hit found = .ok percent := by
  rw [coveragePercent]
  by_cases unnamed : record.key = []
  · rw [Record.coverage, if_pos unnamed]
    exact ⟨1, rfl⟩
  · rw [coverage_count record unnamed, coverage_count record unnamed]
    by_cases nothing : record.total found = 0
    · rw [if_pos (by exact_mod_cast nothing)]
      exact ⟨1, rfl⟩
    · obtain ⟨quotient, divided⟩ := @python.divide_ratio (record.total hit) (record.total found)
        (Int.natCast_nonneg _) (by exact_mod_cast le) (by omega)
      rw [if_neg (by exact_mod_cast nothing), divided]
      exact ⟨quotient, rfl⟩

theorem Final.mem {records : List Record} {record : Record} (final : Final records record) :
    record ∈ records :=
  (lastOf_mem Record.key records _ record final).1

theorem report_exists (file : ConsistentFile) (linesThreshold branchThreshold : Rat) :
    ∃ report,
      generateLcovReport python (some (lcovLines file.records)) linesThreshold branchThreshold =
        .ok report ∧
      report.missing = ((coverages (recordTable file.records)).map generateMissingCoverageReport).filter
        (· ≠ "") := by
  have tested : ∀ coverage ∈ coverages (recordTable file.records),
      ∃ verdict, meetsThresholds python linesThreshold branchThreshold coverage = .ok verdict := by
    intro coverage member
    obtain ⟨record, final, rfl⟩ := (mem_coverages_recordTable file.records coverage).mp member
    have consistent := file.consistent record final.mem
    have linesLe : record.total .linesHit ≤ record.total .linesFound := by
      rw [consistent.linesHit, consistent.linesFound]
      exact counted_le record.data Data.isLine
    have branchesLe : record.total .branchesHit ≤ record.total .branchesFound := by
      rw [consistent.branchesHit, consistent.branchesFound]
      exact counted_le record.data Data.isBranch
    obtain ⟨lines, linesOk⟩ := percent_ok python linesLe
    obtain ⟨branches, branchesOk⟩ := percent_ok python branchesLe
    rw [meetsThresholds, lineCoveragePercent, branchCoveragePercent, linesOk, branchesOk]
    exact ⟨_, rfl⟩
  obtain ⟨verdicts, ok⟩ := mapM_ok_of_forall tested
  rw [generateLcovReport_lcovLines, printAndValidateReport, ok]
  exact ⟨_, rfl, rfl⟩

theorem lists_iff_marked (file : ConsistentFile) {report : Report}
    (printed : report.missing = ((coverages (recordTable file.records)).map
      generateMissingCoverageReport).filter (· ≠ "")) (path : Chars) (item : Item) :
    report.lists path item ↔ Marked file.records path item := by
  have plain : ∀ coverage ∈ coverages (recordTable file.records), coverage.Plain := by
    intro coverage member
    obtain ⟨record, final, rfl⟩ := (mem_coverages_recordTable file.records coverage).mp member
    exact coverage_plain (file.oneLine record final.mem)
  rw [lists_iff printed plain]
  constructor
  · rintro ⟨coverage, member, rfl, misses⟩
    obtain ⟨record, final, rfl⟩ := (mem_coverages_recordTable file.records coverage).mp member
    rw [coverage_filePath]
    obtain ⟨named, marks⟩ := (coverage_misses record item).mp misses
    exact ⟨named, record, final, marks⟩
  · rintro ⟨named, last, found, marks⟩
    have key := (lastOf_mem Record.key file.records path last found).2
    subst key
    exact ⟨last.coverage, (mem_coverages_recordTable file.records _).mpr ⟨last, found, rfl⟩,
      coverage_filePath last, (coverage_misses last item).mpr ⟨named, marks⟩⟩

theorem listingComplete_iff_marks (file : ConsistentFile) :
    ListingComplete python file ↔ MarksUncounted file := by
  constructor
  · intro complete
    obtain ⟨report, ok, exactly, only, _⟩ := complete 0 0
    obtain ⟨other, otherOk, printed⟩ := report_exists python file 0 0
    cases ok.symm.trans otherOk
    have marked := lists_iff_marked file printed
    constructor
    · intro record member data isData item about
      rw [← marked]
      exact exactly record member data isData item about
    · intro path item isMarked
      exact only path item ((marked path item).mpr isMarked)
  · rintro ⟨exactly, only⟩ linesThreshold branchThreshold
    obtain ⟨report, ok, printed⟩ := report_exists python file linesThreshold branchThreshold
    have marked := lists_iff_marked file printed
    refine ⟨report, ok, ?_, ?_, ?_⟩
    · intro record member data isData item about
      rw [marked]
      exact exactly record member data isData item about
    · intro path item lists
      exact only path item ((marked path item).mp lists)
    · intro record member fewer
      have consistent := file.consistent record member
      rw [consistent.branchesHit, consistent.branchesFound] at fewer
      obtain ⟨data, isData, isBranch, uncounted⟩ := exists_uncounted fewer
      cases data with
      | branch number block index taken =>
        exact ⟨_, _, _, (marked _ _).mpr ((exactly record member _ isData _ rfl).mpr uncounted)⟩
      | count counter value => cases isBranch
      | line number hits checksum => cases isBranch
      | other plain => cases isBranch

/-! ### Files with plain paths -/

theorem item_of_mark {data : Data} {item : Item} (marks : data.mark = some item) :
    data.item = some item ∧ data.counted = false := by
  cases data with
  | count counter value => cases marks
  | line number hits checksum =>
    rw [Data.mark] at marks
    split at marks
    · rename_i zero
      exact ⟨marks, by simp [Data.counted, zero]⟩
    · cases marks
  | branch number block index taken =>
    cases taken with
    | none => exact ⟨marks, rfl⟩
    | some taken => cases marks
  | other plain => cases marks

theorem mark_of_uncounted {data : Data} {item : Item} (about : data.item = some item)
    (uncounted : data.counted = false)
    (taken : ∀ number block index value, data = .branch number block index (some value) →
      value.value ≠ 0) : data.mark = some item := by
  cases data with
  | count counter value => cases about
  | line number hits checksum =>
    have zero : hits.value = 0 := by simpa [Data.counted] using uncounted
    rw [Data.mark, if_pos zero]
    exact about
  | branch number block index value =>
    cases value with
    | none => exact about
    | some value =>
      have zero : value.value = 0 := by simpa [Data.counted] using uncounted
      exact absurd zero (taken number block index value rfl)
  | other plain => cases about

/-- The script keeps the paths as they are, and none is empty. -/
def ConsistentFile.PlainPaths (file : ConsistentFile) : Prop :=
  ∀ record ∈ file.records, record.key = record.path ∧ record.path ≠ []

/-- Each line and branch has one line in its record. -/
def ConsistentFile.OneEach (file : ConsistentFile) : Prop :=
  ∀ record ∈ file.records, ∀ data ∈ record.data, ∀ other ∈ record.data, ∀ item,
    data.item = some item → other.item = some item → data = other

/-- No branch is reached and not taken. -/
def ConsistentFile.NoneUntaken (file : ConsistentFile) : Prop :=
  ∀ record ∈ file.records, ∀ number block index taken,
    .branch number block index (some taken) ∈ record.data → taken.value ≠ 0

theorem marksUncounted_iff_of_plain (file : ConsistentFile) (plain : file.PlainPaths) (oneEach : file.OneEach) :
    MarksUncounted file ↔ file.NoneUntaken := by
  have keys : file.records.map Record.key = file.records.map Record.path :=
    List.map_congr_left fun record member => (plain record member).1
  have distinct : (file.records.map Record.key).Nodup := keys ▸ file.onePerFile
  have last : ∀ record ∈ file.records, lastOf Record.key file.records record.path = some record := by
    intro record member
    rw [← (plain record member).1]
    exact lastOf_of_mem Record.key file.records distinct record member
  have marked : ∀ record ∈ file.records, ∀ item,
      Marked file.records record.path item ↔ ∃ data ∈ record.data, data.mark = some item := by
    intro record member item
    simp [Marked, last record member, (plain record member).2]
  constructor
  · rintro ⟨exactly, _⟩ record member number block index taken isData zero
    have uncounted : (Data.branch number block index (some taken)).counted = false := by
      simp [Data.counted, zero]
    have isMarked := (exactly record member _ isData _ rfl).mpr uncounted
    obtain ⟨other, isOther, marks⟩ := (marked record member _).mp isMarked
    -- the only line about the branch does not mark it
    have same := oneEach record member _ isData other isOther _ rfl (item_of_mark marks).1
    rw [← same] at marks
    cases marks
  · intro taken
    constructor
    · intro record member data isData item about
      rw [marked record member]
      constructor
      · rintro ⟨other, isOther, marks⟩
        have same := oneEach record member data isData other isOther item about (item_of_mark marks).1
        rw [same]
        exact (item_of_mark marks).2
      · intro uncounted
        refine ⟨data, isData, mark_of_uncounted about uncounted ?_⟩
        intro number block index value shape
        exact taken record member number block index value (shape ▸ isData)
    · rintro path item ⟨_, record, found, data, isData, marks⟩
      obtain ⟨member, key⟩ := lastOf_mem Record.key file.records path record found
      exact ⟨record, member, (plain record member).1.symm.trans key, data, isData, (item_of_mark marks).1⟩

/-- The listing is complete exactly when what the last record of a path marks are the lines and
branches of the record with that path that were not hit. In a file with plain paths, where each line and
branch has one line, that is when no branch is reached and not taken. -/
theorem listing_complete_iff (file : ConsistentFile) :
    (ListingComplete python file ↔ MarksUncounted file) ∧
      (file.PlainPaths → file.OneEach → (ListingComplete python file ↔ file.NoneUntaken)) := by
  have marks := listingComplete_iff_marks python file
  refine ⟨marks, ?_⟩
  intro plain oneEach
  exact marks.trans (marksUncounted_iff_of_plain file plain oneEach)

/-! ### An unlisted branch -/

/-- A record with one branch, which was reached and not taken. -/
def untakenRecord : Record :=
  ⟨[], "a.cc".toList, [.branch one zero zero (some zero), .count .branchesFound one,
    .count .branchesHit zero]⟩

def untakenFile : ConsistentFile where
  records := [untakenRecord]
  onePerFile := by decide
  oneLine := by decide
  consistent := by
    intro record member
    cases List.mem_singleton.mp member
    exact ⟨rfl, rfl, rfl, rfl⟩

/-- Nothing is listed, although fewer branches were hit than found. -/
theorem untaken_branch_unlisted :
    generateLcovReport exactPython (some (lcovLines untakenFile.records)) 0 0 = .ok ⟨true, []⟩ ∧
      untakenRecord.total .branchesHit < untakenRecord.total .branchesFound ∧
      ¬ ListingComplete exactPython untakenFile := by
  have printed : generateLcovReport exactPython (some (lcovLines untakenFile.records)) 0 0 =
      .ok ⟨true, []⟩ := by
    decide +kernel
  have fewer : untakenRecord.total .branchesHit < untakenRecord.total .branchesFound := by decide
  refine ⟨printed, fewer, ?_⟩
  intro complete
  obtain ⟨report, ok, _, _, listed⟩ := complete 0 0
  cases printed.symm.trans ok
  obtain ⟨_, _, _, _, inReport, _⟩ := listed untakenRecord List.mem_cons_self fewer
  cases inReport

end EzSdk.Devkit.Coverage
