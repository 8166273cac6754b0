import EzSdk.Devkit.LineRanges

/-! What the report about missing coverage says: the sections it consists of, which lines and branches
they list, and that a section can be read off its text. -/

namespace EzSdk.Devkit.Coverage

open Texts

/-! ### Sections -/

/-- A line or a branch that a report may list. -/
inductive Item where
  | line (number : Nat)
  | branch (number block index : Nat)
  deriving DecidableEq

/-- A section of the report: a path, ranges of lines and branches. -/
structure Section where
  path : Chars
  oneLine : '\n' ∉ path
  ranges : List (Nat × Nat)
  branches : List (Nat × Nat × Nat)

def Section.lists (entry : Section) : Item → Prop
  | .line number => ∃ range ∈ entry.ranges, range.1 ≤ number ∧ number ≤ range.2
  | .branch number block index => (number, block, index) ∈ entry.branches

def missingBranchText (branch : Nat × Nat × Nat) : String := branchText (branch.1, branch.2.1, branch.2.2)

def Section.linesText (entry : Section) : String :=
  if entry.ranges = [] then ""
  else "Lines to test: " ++ ", ".intercalate (entry.ranges.map lineRangeText) ++ "\n"

def Section.branchesText (entry : Section) : String :=
  if entry.branches = [] then ""
  else "Branches to test:\n" ++ "\n".intercalate (entry.branches.map missingBranchText)

/-- How a section is printed. -/
def Section.text (entry : Section) : String :=
  "\nFile: " ++ String.ofList entry.path ++ "\n" ++ entry.linesText ++ entry.branchesText

/-! ### Reading a section -/

theorem number_injective {number other : Nat} (same : Nat.toDigits 10 number = Nat.toDigits 10 other) :
    number = other := by
  have values := congrArg (fun digits => Nat.ofDigitChars 10 digits 0) same
  simpa using values

theorem notMem_missingBranchText (branch : Nat × Nat × Nat) :
    '\n' ∉ (missingBranchText branch).toList := by
  have plain : ∀ number : Nat, '\n' ∉ Nat.toDigits 10 number := notMem_number (by decide)
  simp only [missingBranchText, branchText, toString_cast]
  simp [plain]

theorem missingBranchText_injective {branch other : Nat × Nat × Nat}
    (same : (missingBranchText branch).toList = (missingBranchText other).toList) : branch = other := by
  obtain ⟨number, block, index⟩ := branch
  obtain ⟨otherNumber, otherBlock, otherIndex⟩ := other
  have shape : ∀ number block index : Nat, (missingBranchText (number, block, index)).toList =
      "Line ".toList ++ (Nat.toDigits 10 number ++ ':' :: (" (block: ".toList ++
        (Nat.toDigits 10 block ++ ',' :: (" branch: ".toList ++
          (Nat.toDigits 10 index ++ ')' :: []))))) := by
    intro number block index
    simp only [missingBranchText, branchText, toString_cast]
    simp
  rw [shape, shape] at same
  obtain ⟨numbers, blocksSame⟩ := field_injective (notMem_number (by decide) _)
    (notMem_number (by decide) _) (List.append_cancel_left same)
  obtain ⟨blocks, indicesSame⟩ := field_injective (notMem_number (by decide) _)
    (notMem_number (by decide) _) (List.append_cancel_left blocksSame)
  obtain ⟨indices, _⟩ := field_injective (notMem_number (by decide) _)
    (notMem_number (by decide) _) (List.append_cancel_left indicesSame)
  rw [number_injective numbers, number_injective blocks, number_injective indices]

/-- A text of lines can be read back, if each of them can. -/
theorem lines_injective {Entry : Type} {render : Entry → String}
    (oneLine : ∀ entry, '\n' ∉ (render entry).toList)
    (injective : ∀ {entry other}, (render entry).toList = (render other).toList → entry = other)
    {entries others : List Entry} (something : entries ≠ []) (otherSomething : others ≠ [])
    (same : ("\n".intercalate (entries.map render)).toList =
      ("\n".intercalate (others.map render)).toList) : entries = others := by
  have lines : ∀ items : List Entry, items ≠ [] →
      ("\n".intercalate (items.map render)).toList.splitOn '\n' = items.map (String.toList ∘ render) := by
    intro items someItem
    rw [String.toList_intercalate, List.map_map]
    apply List.splitOn_intercalate '\n'
    · intro line member
      obtain ⟨entry, _, rfl⟩ := List.mem_map.mp member
      exact oneLine entry
    · simpa using someItem
  have texts : entries.map (String.toList ∘ render) = others.map (String.toList ∘ render) := by
    rw [← lines entries something, same, lines others otherSomething]
  exact List.map_injective_iff.mpr (fun _ _ => injective) texts

theorem linesText_toList (entry : Section) : entry.linesText.toList =
    if entry.ranges = [] then []
    else "Lines to test: ".toList ++ ((rangesText entry.ranges).toList ++ ['\n']) := by
  rw [Section.linesText, rangesText]
  split
  · rfl
  · simp

theorem branchesText_toList (entry : Section) : entry.branchesText.toList =
    if entry.branches = [] then []
    else "Branches to test:\n".toList ++
      ("\n".intercalate (entry.branches.map missingBranchText)).toList := by
  rw [Section.branchesText]
  split
  · rfl
  · simp

theorem branches_of_text {entry other : Section}
    (same : entry.branchesText.toList = other.branchesText.toList) : entry.branches = other.branches := by
  rw [branchesText_toList, branchesText_toList] at same
  by_cases nothing : entry.branches = []
  · by_cases otherNothing : other.branches = []
    · rw [nothing, otherNothing]
    · rw [if_pos nothing, if_neg otherNothing] at same
      cases same
  · by_cases otherNothing : other.branches = []
    · rw [if_neg nothing, if_pos otherNothing] at same
      cases same
    · rw [if_neg nothing, if_neg otherNothing] at same
      exact lines_injective notMem_missingBranchText missingBranchText_injective nothing otherNothing
        (List.append_cancel_left same)

theorem ranges_oneLine (ranges : List (Nat × Nat)) :
    '\n' ∉ (rangesText ranges).toList := by
  rw [rangesText, String.toList_intercalate]
  apply notMem_intercalate (by decide)
  intro field member
  rw [List.map_map] at member
  obtain ⟨range, _, rfl⟩ := List.mem_map.mp member
  exact notMem_lineRangeText (by decide) (by decide) range

theorem lists_of_text {entry other : Section}
    (same : entry.linesText.toList ++ entry.branchesText.toList =
      other.linesText.toList ++ other.branchesText.toList) :
    entry.ranges = other.ranges ∧ entry.branches = other.branches := by
  rw [linesText_toList, linesText_toList] at same
  -- the first letter tells whether there are ranges
  by_cases nothing : entry.ranges = []
  · by_cases otherNothing : other.ranges = []
    · rw [if_pos nothing, if_pos otherNothing] at same
      exact ⟨nothing.trans otherNothing.symm, branches_of_text same⟩
    · rw [if_pos nothing, if_neg otherNothing, branchesText_toList] at same
      split at same
      · cases same
      · cases same
  · by_cases otherNothing : other.ranges = []
    · rw [if_neg nothing, if_pos otherNothing, branchesText_toList other] at same
      split at same
      · cases same
      · cases same
    · rw [if_neg nothing, if_neg otherNothing] at same
      simp only [List.append_assoc] at same
      obtain ⟨texts, later⟩ := field_injective (ranges_oneLine _) (ranges_oneLine _)
        (List.append_cancel_left same)
      exact ⟨rangesText_injective texts, branches_of_text later⟩

/-- A section can be read off its text. -/
theorem Section.text_injective {entry other : Section} (same : entry.text = other.text) :
    entry = other := by
  have shape : ∀ entry : Section, entry.text.toList = "\nFile: ".toList ++
      (entry.path ++ '\n' :: (entry.linesText.toList ++ entry.branchesText.toList)) := by
    intro entry
    simp [Section.text]
  have texts := congrArg String.toList same
  rw [shape, shape] at texts
  obtain ⟨paths, later⟩ := field_injective entry.oneLine other.oneLine (List.append_cancel_left texts)
  obtain ⟨ranges, branches⟩ := lists_of_text later
  cases entry
  cases other
  cases paths
  cases ranges
  cases branches
  rfl

/-! ### The section of a file -/

/-- A coverage of a path that is one line, with numbers that are not negative. -/
structure FileCoverage.Plain (coverage : FileCoverage) : Prop where
  oneLine : '\n' ∉ coverage.filePath
  lines : ∀ line ∈ coverage.uncoveredLines, 0 ≤ line
  branches : ∀ branch ∈ coverage.uncoveredBranches, 0 ≤ branch.1 ∧ 0 ≤ branch.2.1 ∧ 0 ≤ branch.2.2

def FileCoverage.misses (coverage : FileCoverage) : Item → Prop
  | .line number => (number : Int) ∈ coverage.uncoveredLines
  | .branch number block index =>
    ((number : Int), (block : Int), (index : Int)) ∈ coverage.uncoveredBranches

def sectionOf (coverage : FileCoverage) (plain : coverage.Plain) : Section where
  path := coverage.filePath
  oneLine := plain.oneLine
  ranges := (groupRanges coverage.uncoveredLines).map fun range => (range.1.toNat, range.2.toNat)
  branches := coverage.uncoveredBranches.map fun branch =>
    (branch.1.toNat, branch.2.1.toNat, branch.2.2.toNat)

theorem sectionOf_lists {coverage : FileCoverage} (plain : coverage.Plain) (item : Item) :
    (sectionOf coverage plain).lists item ↔ coverage.misses item := by
  cases item with
  | line number => exact naturalRanges_covers plain.lines number
  | branch number block index =>
    constructor
    · intro member
      obtain ⟨branch, isBranch, same⟩ := List.mem_map.mp member
      obtain ⟨first, second, third⟩ := plain.branches branch isBranch
      cases same
      rw [FileCoverage.misses, Int.toNat_of_nonneg first, Int.toNat_of_nonneg second,
        Int.toNat_of_nonneg third]
      exact isBranch
    · intro member
      exact List.mem_map.mpr ⟨_, member, rfl⟩

theorem branchText_cast {branch : Int × Int × Int} (number : 0 ≤ branch.1) (block : 0 ≤ branch.2.1)
    (index : 0 ≤ branch.2.2) :
    missingBranchText (branch.1.toNat, branch.2.1.toNat, branch.2.2.toNat) = branchText branch := by
  rw [missingBranchText, Int.toNat_of_nonneg number, Int.toNat_of_nonneg block, Int.toNat_of_nonneg index]

theorem linesText_sectionOf {coverage : FileCoverage} (plain : coverage.Plain) :
    (if groupConsecutiveNumbers coverage.uncoveredLines = "" then ""
      else "Lines to test: " ++ groupConsecutiveNumbers coverage.uncoveredLines ++ "\n") =
      (sectionOf coverage plain).linesText := by
  rw [groupConsecutiveNumbers_eq plain.lines]
  change _ = if naturalRanges coverage.uncoveredLines = [] then ""
    else "Lines to test: " ++ rangesText (naturalRanges coverage.uncoveredLines) ++ "\n"
  by_cases nothing : naturalRanges coverage.uncoveredLines = []
  · rw [if_pos nothing, nothing]
    rfl
  · rw [if_neg nothing, if_neg (rangesText_ne_empty nothing)]

theorem branchesText_sectionOf {coverage : FileCoverage} (plain : coverage.Plain) :
    (if getMissingBranchesStr coverage = "" then ""
      else "Branches to test:\n" ++ getMissingBranchesStr coverage) =
      (sectionOf coverage plain).branchesText := by
  have texts : (sectionOf coverage plain).branches.map missingBranchText =
      coverage.uncoveredBranches.map branchText := by
    rw [sectionOf, List.map_map]
    apply List.map_congr_left
    intro branch member
    obtain ⟨number, block, index⟩ := plain.branches branch member
    exact branchText_cast number block index
  rw [Section.branchesText, getMissingBranchesStr, ← texts]
  by_cases nothing : (sectionOf coverage plain).branches = []
  · rw [if_pos nothing, nothing]
    rfl
  · have visible : "\n".intercalate ((sectionOf coverage plain).branches.map missingBranchText) ≠ "" := by
      apply intercalate_ne_empty
      · simpa using nothing
      · intro text member
        obtain ⟨branch, _, rfl⟩ := List.mem_map.mp member
        simp [missingBranchText, branchText]
    rw [if_neg nothing, if_neg visible]

/-- The report about a file with something missing is the text of its section. -/
theorem sectionOf_text {coverage : FileCoverage} (plain : coverage.Plain)
    (something : ¬ (coverage.uncoveredLines = [] ∧ coverage.uncoveredBranches = [])) :
    generateMissingCoverageReport coverage = (sectionOf coverage plain).text := by
  rw [generateMissingCoverageReport, if_neg something]
  dsimp only
  rw [linesText_sectionOf plain, branchesText_sectionOf plain]
  rfl

theorem generateMissingCoverageReport_eq_empty (coverage : FileCoverage) :
    generateMissingCoverageReport coverage = "" ↔
      coverage.uncoveredLines = [] ∧ coverage.uncoveredBranches = [] := by
  constructor
  · intro empty
    by_contra something
    rw [generateMissingCoverageReport, if_neg something] at empty
    simp at empty
  · intro nothing
    rw [generateMissingCoverageReport, if_pos nothing]

/-- The report lists a line or a branch in the section of a path. -/
def Report.lists (report : Report) (path : Chars) (item : Item) : Prop :=
  ∃ entry : Section, entry.text ∈ report.missing ∧ entry.path = path ∧ entry.lists item

/-- The reports that are printed about some files list what is uncovered in them. -/
theorem lists_iff {report : Report} {files : List FileCoverage}
    (printed : report.missing = (files.map generateMissingCoverageReport).filter (· ≠ ""))
    (plain : ∀ coverage ∈ files, coverage.Plain) (path : Chars) (item : Item) :
    report.lists path item ↔ ∃ coverage ∈ files, coverage.filePath = path ∧ coverage.misses item := by
  constructor
  · rintro ⟨entry, member, rfl, lists⟩
    rw [printed, List.mem_filter, List.mem_map] at member
    obtain ⟨⟨coverage, isFile, made⟩, visible⟩ := member
    have something : ¬ (coverage.uncoveredLines = [] ∧ coverage.uncoveredBranches = []) := by
      rw [← generateMissingCoverageReport_eq_empty, made]
      simpa using visible
    rw [sectionOf_text (plain coverage isFile) something] at made
    cases Section.text_injective made
    exact ⟨coverage, isFile, rfl, (sectionOf_lists _ item).mp lists⟩
  · rintro ⟨coverage, isFile, rfl, misses⟩
    have something : ¬ (coverage.uncoveredLines = [] ∧ coverage.uncoveredBranches = []) := by
      rintro ⟨noLines, noBranches⟩
      cases item with
      | line number => simp [FileCoverage.misses, noLines] at misses
      | branch number block index => simp [FileCoverage.misses, noBranches] at misses
    refine ⟨sectionOf coverage (plain coverage isFile), ?_, rfl, (sectionOf_lists _ item).mpr misses⟩
    rw [printed, ← sectionOf_text (plain coverage isFile) something, List.mem_filter, List.mem_map]
    have visible := (generateMissingCoverageReport_eq_empty coverage).not.mpr something
    exact ⟨⟨coverage, isFile, rfl⟩, by simpa using visible⟩

end EzSdk.Devkit.Coverage
