import EzSdk.Devkit.Python
import EzSdk.Foundation.Postconditions
import EzSdk.Foundation.Tables
import EzSdk.Foundation.Texts
import Mathlib.Data.Rat.Defs

/-! `coverage_report.py`: how the lines of an LCOV file become a table of coverages, the report about
what is missing and the verdict about the thresholds. -/

namespace EzSdk.Devkit.Coverage

open Postconditions Tables Texts

/-! ### Python -/

inductive LcovError where
  | valueError
  | indexError
  | overflowError
  deriving DecidableEq

/-- Decimal digits, as LCOV writes its numbers. -/
structure Numeral where
  digits : Chars
  nonempty : digits ≠ []
  ascii : ∀ char ∈ digits, char.isDigit = true
  deriving DecidableEq

def digitValue (char : Char) : Nat := char.toNat - '0'.toNat

def digitsValue (digits : Chars) : Nat := digits.foldl (fun value char => 10 * value + digitValue char) 0

def Numeral.value (numeral : Numeral) : Nat := digitsValue numeral.digits

/-- What the script uses of Python: `int` of a text, which reads at least plain numerals of any length,
and `/` of two integers, of whose values nothing is assumed but that they are floats. There is none
where an `OverflowError` is raised, which does not happen for ratios between zero and one. -/
structure Python where
  int : Chars → Option Int
  int_numeral : ∀ numeral : Numeral, int numeral.digits = some (numeral.value : Int)
  isFloat : Rat → Prop
  divide : Int → Int → Option Rat
  one_isFloat : isFloat 1
  divide_isFloat : ∀ {dividend divisor quotient}, divide dividend divisor = some quotient → isFloat quotient
  divide_ratio : ∀ {dividend divisor : Int}, 0 ≤ dividend → dividend ≤ divisor → 0 < divisor →
    ∃ quotient, divide dividend divisor = some quotient

/-- The characters for which `str.isspace` holds. -/
def isSpace (char : Char) : Bool :=
  char.toNat ∈ [0x20, 0x85, 0xA0, 0x1680, 0x2028, 0x2029, 0x202F, 0x205F, 0x3000] ||
    (9 ≤ char.toNat && char.toNat ≤ 13) || (0x1C ≤ char.toNat && char.toNat ≤ 0x1F) ||
    (0x2000 ≤ char.toNat && char.toNat ≤ 0x200A)

/-! ### The coverage of a file -/

/-- The numbers that a record sums up. -/
inductive Counter where
  | linesFound
  | linesHit
  | branchesFound
  | branchesHit
  deriving DecidableEq

def Counter.marker : Counter → Chars
  | linesFound => "LF:".toList
  | linesHit => "LH:".toList
  | branchesFound => "BRF:".toList
  | branchesHit => "BRH:".toList

/-- `FileCoverage`. A branch is given by its line, its block and its own number. -/
structure FileCoverage where
  filePath : Chars
  count : Counter → Int
  uncoveredLines : List Int
  uncoveredBranches : List (Int × Int × Int)

def FileCoverage.empty (filePath : Chars) : FileCoverage := ⟨filePath, fun _ => 0, [], []⟩

def FileCoverage.setCount (coverage : FileCoverage) (counter : Counter) (value : Int) : FileCoverage :=
  { coverage with count := fun other => if other = counter then value else coverage.count other }

def FileCoverage.addLine (coverage : FileCoverage) (line : Int) : FileCoverage :=
  { coverage with uncoveredLines := coverage.uncoveredLines ++ [line] }

def FileCoverage.addBranch (coverage : FileCoverage) (branch : Int × Int × Int) : FileCoverage :=
  { coverage with uncoveredBranches := coverage.uncoveredBranches ++ [branch] }

variable (python : Python)

/-- The ratio of two counters, which is one if nothing was found. -/
def coveragePercent (coverage : FileCoverage) (hit found : Counter) : Except LcovError Rat :=
  if coverage.count found = 0 then .ok 1
  else
    match python.divide (coverage.count hit) (coverage.count found) with
    | none => .error .overflowError
    | some quotient => .ok quotient

def lineCoveragePercent (coverage : FileCoverage) : Except LcovError Rat :=
  coveragePercent python coverage .linesHit .linesFound

def branchCoveragePercent (coverage : FileCoverage) : Except LcovError Rat :=
  coveragePercent python coverage .branchesHit .branchesFound

/-! ### The parser -/

def int (text : Chars) : Except LcovError Int :=
  match python.int text with
  | none => .error .valueError
  | some value => .ok value

def part (parts : List Chars) (index : Nat) : Except LcovError Chars :=
  match parts[index]? with
  | none => .error .indexError
  | some text => .ok text

def counters : List Counter := [.linesFound, .linesHit, .branchesFound, .branchesHit]

def lineMarker : Chars := "DA:".toList
def branchMarker : Chars := "BRDA:".toList
def branchStart : Chars := "BRDA".toList

/-- The branch of `parse_lcov_data_line` for a line that starts with `DA:`. -/
def parseLineData (line : Chars) (coverage : FileCoverage) : Except LcovError FileCoverage := do
  let parts := line.splitOn ','
  let lineNumber ← int python (remove lineMarker (← part parts 0))
  let hitCount ← int python (← part parts 1)
  return if hitCount = 0 then coverage.addLine lineNumber else coverage

/-- The branch for a line that starts with `BRDA`. -/
def parseBranchData (line : Chars) (coverage : FileCoverage) : Except LcovError FileCoverage := do
  let parts := line.splitOn ','
  let lineNumber ← int python (remove branchMarker (← part parts 0))
  let blockId ← int python (← part parts 1)
  let branchId ← int python (← part parts 2)
  let hitMarker ← part parts 3
  return if hitMarker = "-".toList then coverage.addBranch (lineNumber, blockId, branchId) else coverage

/-- `parse_lcov_data_line`. -/
def parseLcovDataLine (line : Chars) (coverage : FileCoverage) : Except LcovError FileCoverage :=
  match counters.find? fun counter => counter.marker.isPrefixOf line with
  | some counter => do
    let value ← int python (remove counter.marker line)
    return coverage.setCount counter value
  | none =>
    if lineMarker.isPrefixOf line then parseLineData python line coverage
    else if branchStart.isPrefixOf line then parseBranchData python line coverage
    else .ok coverage

abbrev CoverageData := AList (fun _ : Chars => FileCoverage)

/-- The variables of the loop over the lines. -/
structure Reader where
  coverageData : CoverageData
  currentFilePath : Option Chars

def sourceMarker : Chars := "SF:".toList
def endOfRecord : Chars := "end_of_record".toList

/-- One turn of the loop over the lines. The empty path counts as none. -/
def readLine (reader : Reader) (raw : Chars) : Except LcovError Reader :=
  let line := strip isSpace raw
  if sourceMarker.isPrefixOf line then
    let path := remove sourceMarker line
    .ok ⟨reader.coverageData.insert path (.empty path), some path⟩
  else if line = endOfRecord then .ok ⟨reader.coverageData, none⟩
  else
    match reader.currentFilePath with
    | none => .ok reader
    | some path =>
      if path = [] then .ok reader
      else
        match reader.coverageData.lookup path with
        | none => .ok reader
        | some coverage => do
          let parsed ← parseLcovDataLine python line coverage
          return ⟨reader.coverageData.insert path parsed, some path⟩

/-! ### The report -/

/-- The loop of `group_consecutive_numbers`, at a number behind `previous` in a range that starts
with `start`. -/
def groupFrom (start previous : Int) : List Int → List (Int × Int)
  | [] => [(start, previous)]
  | number :: numbers =>
    if number ≠ previous + 1 then (start, previous) :: groupFrom number number numbers
    else groupFrom start number numbers

/-- The ranges that `group_consecutive_numbers` prints. -/
def groupRanges (numbers : List Int) : List (Int × Int) :=
  match numbers.mergeSort with
  | [] => []
  | first :: later => groupFrom first first later

def rangeText (range : Int × Int) : String :=
  if range.1 = range.2 then toString range.1 else toString range.1 ++ "-" ++ toString range.2

def groupConsecutiveNumbers (numbers : List Int) : String :=
  ", ".intercalate ((groupRanges numbers).map rangeText)

def branchText (branch : Int × Int × Int) : String :=
  "Line " ++ toString branch.1 ++ ": (block: " ++ toString branch.2.1 ++ ", branch: " ++
    toString branch.2.2 ++ ")"

def getMissingBranchesStr (coverage : FileCoverage) : String :=
  "\n".intercalate (coverage.uncoveredBranches.map branchText)

/-- `generate_missing_coverage_report`, which is empty where nothing is missing. -/
def generateMissingCoverageReport (coverage : FileCoverage) : String :=
  if coverage.uncoveredLines = [] ∧ coverage.uncoveredBranches = [] then ""
  else
    let lines := groupConsecutiveNumbers coverage.uncoveredLines
    let branches := getMissingBranchesStr coverage
    "\nFile: " ++ String.ofList coverage.filePath ++ "\n" ++
      (if lines = "" then "" else "Lines to test: " ++ lines ++ "\n") ++
      (if branches = "" then "" else "Branches to test:\n" ++ branches)

/-- The verdict, and the reports about missing coverage that are printed. -/
structure Report where
  valid : Bool
  missing : List String
  deriving DecidableEq

/-- Whether a file meets the thresholds. -/
def meetsThresholds (linesThreshold branchThreshold : Rat) (coverage : FileCoverage) :
    Except LcovError Bool := do
  let lines ← lineCoveragePercent python coverage
  let branches ← branchCoveragePercent python coverage
  return !(lines < linesThreshold || branches < branchThreshold)

def coverages (coverageData : CoverageData) : List FileCoverage :=
  coverageData.entries.map fun entry => entry.2

/-- `print_and_validate_report`. -/
def printAndValidateReport (coverageData : CoverageData) (linesThreshold branchThreshold : Rat) :
    Except LcovError Report := do
  let verdicts ← (coverages coverageData).mapM (meetsThresholds python linesThreshold branchThreshold)
  let reports := (coverages coverageData).map generateMissingCoverageReport
  return ⟨verdicts.all id, reports.filter (· ≠ "")⟩

/-- `generate_lcov_report` on the lines of the file, if there is one. -/
def generateLcovReport (file : Option (List Chars)) (linesThreshold branchThreshold : Rat) :
    Except LcovError Report :=
  match file with
  | none => .ok ⟨false, []⟩
  | some lines => do
    let reader ← lines.foldlM (readLine python) ⟨∅, none⟩
    printAndValidateReport python reader.coverageData linesThreshold branchThreshold

end EzSdk.Devkit.Coverage
