import EzSdk.Devkit.Lcov
import Mathlib.Algebra.Order.Ring.Rat
import Mathlib.Data.List.MinMax

/-! The verdict of `coverage_report.py` about the thresholds, and for which files it is one about every
record. -/

namespace EzSdk.Devkit.Coverage

open Postconditions Tables Texts

/-! ### The ratios of a record -/

def Data.valueOf (counter : Counter) : Data → Option Nat
  | count which value => if which = counter then some value.value else none
  | _ => none

/-- A number of a record, of which the last line counts. -/
def Record.total (record : Record) (counter : Counter) : Nat :=
  (record.data.filterMap (Data.valueOf counter)).getLast?.getD 0

def Record.ratio (record : Record) (hit found : Counter) : Rat :=
  if record.total found = 0 then 1 else (record.total hit : Rat) / record.total found

def Record.lineRatio (record : Record) : Rat := record.ratio .linesHit .linesFound
def Record.branchRatio (record : Record) : Rat := record.ratio .branchesHit .branchesFound

variable (python : Python)

/-- Whatever the thresholds are, the verdict is positive only if every record meets them. -/
def GateSound (records : List Record) : Prop :=
  ∀ linesThreshold branchThreshold, python.isFloat linesThreshold → python.isFloat branchThreshold →
    ∀ report, generateLcovReport python (some (lcovLines records)) linesThreshold branchThreshold =
        .ok report → report.valid = true →
      ∀ record ∈ records, linesThreshold ≤ record.lineRatio ∧ branchThreshold ≤ record.branchRatio

/-- No later record has the same path. -/
def Final (records : List Record) (record : Record) : Prop :=
  lastOf Record.key records record.key = some record

theorem final_of_lastOf {records : List Record} {path : Chars} {record : Record}
    (last : lastOf Record.key records path = some record) : Final records record := by
  rw [Final, (lastOf_mem Record.key records path record last).2, last]

/-! ### When the verdict is positive -/

theorem mapM_all_iff {Item Error : Type} {test : Item → Except Error Bool} (items : List Item) :
    (∃ verdicts, items.mapM test = .ok verdicts ∧ verdicts.all id = true) ↔
      ∀ item ∈ items, test item = .ok true := by
  constructor
  · rintro ⟨verdicts, ok, all⟩ item member
    obtain ⟨verdict, isVerdict, tested⟩ := mapM_ok_mem ok member
    have positive : verdict = true := List.all_eq_true.mp all verdict isVerdict
    rw [tested, positive]
  · intro each
    obtain ⟨verdicts, ok⟩ := mapM_ok_of_forall fun item member => ⟨true, each item member⟩
    refine ⟨verdicts, ok, List.all_eq_true.mpr ?_⟩
    intro verdict isVerdict
    obtain ⟨item, member, tested⟩ := mapM_ok_mem_value ok isVerdict
    rw [each item member] at tested
    exact (Except.ok.inj tested).symm

theorem mem_coverages_iff (table : CoverageData) (coverage : FileCoverage) :
    coverage ∈ coverages table ↔ ∃ path, table.lookup path = some coverage := by
  constructor
  · intro member
    obtain ⟨⟨path, other⟩, isEntry, same⟩ := List.mem_map.mp member
    cases same
    exact ⟨path, AList.mem_lookup_iff.mpr isEntry⟩
  · rintro ⟨path, found⟩
    exact List.mem_map.mpr ⟨⟨path, coverage⟩, AList.mem_lookup_iff.mp found, rfl⟩

theorem mem_coverages_recordTable (records : List Record) (coverage : FileCoverage) :
    coverage ∈ coverages (recordTable records) ↔
      ∃ record, Final records record ∧ record.coverage = coverage := by
  rw [mem_coverages_iff]
  constructor
  · rintro ⟨path, found⟩
    rw [lookup_recordTable] at found
    obtain ⟨record, last, rfl⟩ := Option.map_eq_some_iff.mp found
    exact ⟨record, final_of_lastOf last, rfl⟩
  · rintro ⟨record, final, rfl⟩
    refine ⟨record.key, ?_⟩
    rw [lookup_recordTable, final]
    rfl

theorem generateLcovReport_lcovLines (records : List Record) (linesThreshold branchThreshold : Rat) :
    generateLcovReport python (some (lcovLines records)) linesThreshold branchThreshold =
      printAndValidateReport python (recordTable records) linesThreshold branchThreshold := by
  show (lcovLines records).foldlM (readLine python) ⟨∅, none⟩ >>= _ = _
  rw [read_lcovLines]
  rfl

/-- The verdict is positive exactly when every last record of a path meets the thresholds. -/
theorem valid_iff (records : List Record) (linesThreshold branchThreshold : Rat) :
    (∃ report, generateLcovReport python (some (lcovLines records)) linesThreshold branchThreshold =
        .ok report ∧ report.valid = true) ↔
      ∀ record, Final records record →
        meetsThresholds python linesThreshold branchThreshold record.coverage = .ok true := by
  rw [generateLcovReport_lcovLines, printAndValidateReport]
  constructor
  · rintro ⟨report, ok, valid⟩ record final
    obtain ⟨verdicts, tested, made⟩ := bind_ok_iff.mp ok
    cases made
    apply (mapM_all_iff (coverages (recordTable records))).mp ⟨verdicts, tested, valid⟩
    exact (mem_coverages_recordTable records _).mpr ⟨record, final, rfl⟩
  · intro each
    have tests : ∀ coverage ∈ coverages (recordTable records),
        meetsThresholds python linesThreshold branchThreshold coverage = .ok true := by
      intro coverage member
      obtain ⟨record, final, rfl⟩ := (mem_coverages_recordTable records coverage).mp member
      exact each record final
    obtain ⟨verdicts, tested, valid⟩ := (mapM_all_iff _).mpr tests
    exact ⟨_, bind_ok_iff.mpr ⟨verdicts, tested, rfl⟩, valid⟩

theorem meets_iff (linesThreshold branchThreshold : Rat) (coverage : FileCoverage) :
    meetsThresholds python linesThreshold branchThreshold coverage = .ok true ↔
      ∃ lines branches, lineCoveragePercent python coverage = .ok lines ∧
        branchCoveragePercent python coverage = .ok branches ∧ linesThreshold ≤ lines ∧
          branchThreshold ≤ branches := by
  rw [meetsThresholds]
  cases lineCoveragePercent python coverage with
  | error error => simp [bind, Except.bind]
  | ok lines =>
    cases branchCoveragePercent python coverage with
    | error error => simp [bind, Except.bind]
    | ok branches => simp [bind, Except.bind, pure, Except.pure]

/-! ### When it is about every record -/

/-- The percentage of a record that is not there where Python raises an error. -/
def overflows (record : Record) : Prop :=
  (∃ error, lineCoveragePercent python record.coverage = .error error) ∨
    ∃ error, branchCoveragePercent python record.coverage = .error error

theorem percent_isFloat {coverage : FileCoverage} {hit found : Counter} {percent : Rat}
    (ok : coveragePercent python coverage hit found = .ok percent) : python.isFloat percent := by
  rw [coveragePercent] at ok
  split at ok
  · cases ok
    exact python.one_isFloat
  · split at ok
    · cases ok
    · rename_i divided
      cases ok
      exact python.divide_isFloat divided

/-- Of some coverages with percentages, one has the least. -/
theorem exists_least (percentOf : FileCoverage → Except LcovError Rat) (items : List FileCoverage)
    (something : items ≠ []) (each : ∀ item ∈ items, ∃ percent, percentOf item = .ok percent) :
    ∃ least ∈ items, ∃ percent, percentOf least = .ok percent ∧
      ∀ item ∈ items, ∀ other, percentOf item = .ok other → percent ≤ other := by
  have value : ∀ item percent, percentOf item = .ok percent →
      (percentOf item).toOption.getD 0 = percent := by
    intro item percent ok
    rw [ok]
    rfl
  cases chosen : items.argmin fun item => (percentOf item).toOption.getD 0 with
  | none => exact absurd (List.argmin_eq_none.mp chosen) something
  | some least =>
    have member := List.argmin_mem chosen
    obtain ⟨percent, ok⟩ := each least member
    refine ⟨least, member, percent, ok, ?_⟩
    intro item isItem other otherOk
    have le := List.le_of_mem_argmin isItem chosen
    rwa [value least percent ok, value item other otherOk] at le

theorem coverages_ne_nil {records : List Record} {record : Record} (member : record ∈ records) :
    coverages (recordTable records) ≠ [] := by
  obtain ⟨last, found⟩ := lastOf_exists Record.key records record member
  exact List.ne_nil_of_mem
    ((mem_coverages_recordTable records _).mpr ⟨last, final_of_lastOf found, rfl⟩)

theorem percents_of_no_overflow {records : List Record}
    (computes : ¬ ∃ record, Final records record ∧ overflows python record) {coverage : FileCoverage}
    (member : coverage ∈ coverages (recordTable records)) :
    (∃ percent, lineCoveragePercent python coverage = .ok percent) ∧
      ∃ percent, branchCoveragePercent python coverage = .ok percent := by
  obtain ⟨record, final, rfl⟩ := (mem_coverages_recordTable records coverage).mp member
  constructor
  · cases result : lineCoveragePercent python record.coverage with
    | ok percent => exact ⟨percent, rfl⟩
    | error error => exact absurd ⟨record, final, .inl ⟨error, result⟩⟩ computes
  · cases result : branchCoveragePercent python record.coverage with
    | ok percent => exact ⟨percent, rfl⟩
    | error error => exact absurd ⟨record, final, .inr ⟨error, result⟩⟩ computes

/-- The verdict is about every record exactly when a percentage cannot be computed, or no record is
below all last records of the paths: for every record some last record has a percentage, as it is
computed, that is not above the record's own ratio, both for lines and for branches. -/
theorem gate_sound_iff (records : List Record) :
    GateSound python records ↔
      (∃ record, Final records record ∧ overflows python record) ∨
        ∀ record ∈ records,
          (∃ final percent, Final records final ∧
            lineCoveragePercent python final.coverage = .ok percent ∧ percent ≤ record.lineRatio) ∧
          ∃ final percent, Final records final ∧
            branchCoveragePercent python final.coverage = .ok percent ∧
              percent ≤ record.branchRatio := by
  constructor
  · intro sound
    by_cases raises : ∃ record, Final records record ∧ overflows python record
    · exact .inl raises
    · right
      intro record member
      have something := coverages_ne_nil member
      have percents := fun coverage isCoverage =>
        @percents_of_no_overflow python records raises coverage isCoverage
      -- with the least percentages as thresholds the verdict is positive
      obtain ⟨lowLines, linesMember, lines, linesOk, leastLines⟩ := exists_least
        (lineCoveragePercent python) _ something fun item isItem => (percents item isItem).1
      obtain ⟨lowBranches, branchesMember, branches, branchesOk, leastBranches⟩ := exists_least
        (branchCoveragePercent python) _ something fun item isItem => (percents item isItem).2
      have met : ∀ final, Final records final →
          meetsThresholds python lines branches final.coverage = .ok true := by
        intro final isFinal
        have isCoverage := (mem_coverages_recordTable records _).mpr ⟨final, isFinal, rfl⟩
        obtain ⟨⟨finalLines, ok⟩, finalBranches, otherOk⟩ := percents _ isCoverage
        exact (meets_iff python _ _ _).mpr ⟨finalLines, finalBranches, ok, otherOk,
          leastLines _ isCoverage _ ok, leastBranches _ isCoverage _ otherOk⟩
      obtain ⟨report, ok, valid⟩ := (valid_iff python records lines branches).mpr met
      obtain ⟨linesBelow, branchesBelow⟩ := sound lines branches (percent_isFloat python linesOk)
        (percent_isFloat python branchesOk) report ok valid record member
      obtain ⟨linesFinal, isLines, rfl⟩ := (mem_coverages_recordTable records _).mp linesMember
      obtain ⟨branchesFinal, isBranches, rfl⟩ := (mem_coverages_recordTable records _).mp branchesMember
      exact ⟨⟨linesFinal, lines, isLines, linesOk, linesBelow⟩, branchesFinal, branches, isBranches,
        branchesOk, branchesBelow⟩
  · intro condition linesThreshold branchThreshold _ _ report ok valid record member
    have each := (valid_iff python records linesThreshold branchThreshold).mp ⟨report, ok, valid⟩
    cases condition with
    | inl raises =>
      obtain ⟨final, isFinal, overflow⟩ := raises
      obtain ⟨lines, branches, linesOk, branchesOk, _⟩ :=
        (meets_iff python _ _ final.coverage).mp (each final isFinal)
      rcases overflow with ⟨error, failed⟩ | ⟨error, failed⟩
      · rw [linesOk] at failed
        cases failed
      · rw [branchesOk] at failed
        cases failed
    | inr below =>
      obtain ⟨⟨final, percent, isFinal, linesOk, le⟩, other, otherPercent, otherFinal, branchesOk,
        otherLe⟩ := below record member
      obtain ⟨lines, _, ok, _, met, _⟩ := (meets_iff python _ _ final.coverage).mp (each final isFinal)
      obtain ⟨_, branches, _, otherOk, _, otherMet⟩ :=
        (meets_iff python _ _ other.coverage).mp (each other otherFinal)
      cases linesOk.symm.trans ok
      cases branchesOk.symm.trans otherOk
      exact ⟨met.trans le, otherMet.trans otherLe⟩

/-! ### Files on which it is -/

theorem addData_count (coverage : FileCoverage) (data : Data) (counter : Counter) :
    (addData coverage data).count counter =
      ((data.valueOf counter).map Int.ofNat).getD (coverage.count counter) := by
  cases data with
  | count which value =>
    by_cases same : which = counter
    · simp [addData, FileCoverage.setCount, Data.valueOf, same]
    · simp [addData, FileCoverage.setCount, Data.valueOf, same, Ne.symm same]
  | line number hits checksum =>
    rw [addData]
    split
    · rfl
    · rfl
  | branch number block index taken =>
    cases taken with
    | none => rfl
    | some taken => rfl
  | other plain => rfl

theorem coverage_count (record : Record) (named : record.key ≠ []) (counter : Counter) :
    record.coverage.count counter = record.total counter := by
  rw [Record.coverage, if_neg named, Record.total]
  induction record.data using List.reverseRecOn with
  | nil => rfl
  | append_singleton data last ih =>
    rw [List.foldl_append, List.foldl_cons, List.foldl_nil, addData_count, ih, List.filterMap_append]
    cases value : last.valueOf counter with
    | none => simp [value]
    | some value => simp [value]

/-- The quotient of two numbers of the record, as it is computed, is above their ratio. -/
def RoundedUp (record : Record) (hit found : Counter) : Prop :=
  ∃ quotient, python.divide (record.total hit) (record.total found) = some quotient ∧
    (record.total hit : Rat) / record.total found < quotient

theorem percent_le_ratio {record : Record} (named : record.key ≠ []) {hit found : Counter}
    (notUp : ¬ RoundedUp python record hit found) {percent : Rat}
    (ok : coveragePercent python record.coverage hit found = .ok percent) :
    percent ≤ record.ratio hit found := by
  rw [coveragePercent, coverage_count record named, coverage_count record named] at ok
  rw [Record.ratio]
  by_cases nothing : record.total found = 0
  · rw [if_pos (by exact_mod_cast nothing)] at ok
    cases ok
    rw [if_pos nothing]
  · rw [if_neg (by exact_mod_cast nothing)] at ok
    rw [if_neg nothing]
    split at ok
    · cases ok
    · rename_i quotient divided
      cases ok
      by_contra above
      exact notUp ⟨percent, divided, not_le.mp above⟩

/-- It suffices that every record has a path of its own, and no quotient is rounded up. -/
theorem gate_sound_of_distinct (records : List Record) (distinct : (records.map Record.key).Nodup)
    (named : ∀ record ∈ records, record.key ≠ [])
    (notUp : ∀ record ∈ records, ¬ RoundedUp python record .linesHit .linesFound ∧
      ¬ RoundedUp python record .branchesHit .branchesFound) : GateSound python records := by
  intro linesThreshold branchThreshold _ _ report ok valid record member
  have final : Final records record := lastOf_of_mem Record.key records distinct record member
  have met := (valid_iff python records linesThreshold branchThreshold).mp ⟨report, ok, valid⟩ record final
  obtain ⟨lines, branches, linesOk, branchesOk, linesMet, branchesMet⟩ := (meets_iff python _ _ _).mp met
  obtain ⟨linesNotUp, branchesNotUp⟩ := notUp record member
  exact ⟨linesMet.trans (percent_le_ratio python (named record member) linesNotUp linesOk),
    branchesMet.trans (percent_le_ratio python (named record member) branchesNotUp branchesOk)⟩

/-! ### A masked record -/

/-- An interpreter that reads plain numerals only and computes ratios exactly. -/
def exactPython : Python where
  int text := if text ≠ [] ∧ text.all Char.isDigit then some (digitsValue text) else none
  int_numeral := by
    intro numeral
    have ascii : numeral.digits.all Char.isDigit = true := List.all_eq_true.mpr numeral.ascii
    rw [if_pos ⟨numeral.nonempty, ascii⟩]
    rfl
  isFloat _ := True
  divide dividend divisor := some ((dividend : Rat) / divisor)
  one_isFloat := trivial
  divide_isFloat _ := trivial
  divide_ratio _ _ _ := ⟨_, rfl⟩

def digit (char : Char) (isDigit : char.isDigit = true) : Numeral where
  digits := [char]
  nonempty := List.cons_ne_nil _ _
  ascii := by
    intro other member
    rw [List.mem_singleton.mp member]
    exact isDigit

def one : Numeral := digit '1' rfl
def zero : Numeral := digit '0' rfl

/-- Two records of one source file, of which the first has no line hit. -/
def maskedRecords : List Record :=
  [⟨[], "a.cc".toList, [.count .linesFound one, .count .linesHit zero]⟩,
    ⟨[], "a.cc".toList, [.count .linesFound one, .count .linesHit one]⟩]

/-- The verdict of the second record, with all thresholds at one, hides the first. -/
theorem first_record_masked :
    generateLcovReport exactPython (some (lcovLines maskedRecords)) 1 1 = .ok ⟨true, []⟩ ∧
      ¬ GateSound exactPython maskedRecords := by
  have verdict : generateLcovReport exactPython (some (lcovLines maskedRecords)) 1 1 =
      .ok ⟨true, []⟩ := by
    decide +kernel
  refine ⟨verdict, ?_⟩
  intro sound
  have met := sound 1 1 trivial trivial _ verdict rfl _ (List.mem_cons_self)
  have low : ¬ (1 : Rat) ≤
      (⟨[], "a.cc".toList, [.count .linesFound one, .count .linesHit zero]⟩ : Record).lineRatio := by
    decide +kernel
  exact low met.1

end EzSdk.Devkit.Coverage
