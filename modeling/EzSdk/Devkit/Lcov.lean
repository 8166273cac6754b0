import EzSdk.Devkit.Coverage

/-! Well-formed LCOV records, the lines by which they are written, and what the script's parser makes
of them. -/

namespace EzSdk.Devkit.Coverage

open Postconditions Tables Texts

/-- A line that has no meaning for the script, such as a test's name or a function's. -/
structure OtherLine where
  text : Chars
  notSource : sourceMarker.isPrefixOf (strip isSpace text) = false
  notEnd : strip isSpace text ≠ endOfRecord
  notCounter : ∀ counter : Counter, counter.marker.isPrefixOf (strip isSpace text) = false
  notLine : lineMarker.isPrefixOf (strip isSpace text) = false
  notBranch : branchStart.isPrefixOf (strip isSpace text) = false

/-- A line of a record. A branch that was never reached has no number in its taken field. -/
inductive Data where
  | count (counter : Counter) (value : Numeral)
  | line (number hits : Numeral) (checksum : Option Chars)
  | branch (number block index : Numeral) (taken : Option Numeral)
  | other (plain : OtherLine)

/-- What stands between two `end_of_record` lines: the path of the source file behind `SF:`, and
other lines before and after it. -/
structure Record where
  preamble : List OtherLine
  path : Chars
  data : List Data

def takenText : Option Numeral → Chars
  | none => "-".toList
  | some taken => taken.digits

def Data.text : Data → Chars
  | count counter value => counter.marker ++ value.digits
  | line number hits checksum =>
    lineMarker ++ number.digits ++ ',' :: hits.digits ++ checksum.elim [] fun text => ',' :: text
  | branch number block index taken =>
    branchMarker ++ number.digits ++ ',' :: block.digits ++ ',' :: index.digits ++
      ',' :: takenText taken
  | other plain => plain.text

def Record.lines (record : Record) : List Chars :=
  record.preamble.map OtherLine.text ++ [sourceMarker ++ record.path] ++ record.data.map Data.text ++
    [endOfRecord]

/-- The lines of a file. -/
def lcovLines (records : List Record) : List Chars := records.flatMap Record.lines

/-- The path under which a record is kept. -/
def Record.key (record : Record) : Chars := remove sourceMarker (record.path.rdropWhile isSpace)

/-- What a line adds to the coverage of its file. -/
def addData (coverage : FileCoverage) : Data → FileCoverage
  | .count counter value => coverage.setCount counter value.value
  | .line number hits _ => if hits.value = 0 then coverage.addLine number.value else coverage
  | .branch number block index none => coverage.addBranch (number.value, block.value, index.value)
  | .branch _ _ _ (some _) => coverage
  | .other _ => coverage

/-- The coverage of a record. Lines behind an empty path are not read. -/
def Record.coverage (record : Record) : FileCoverage :=
  if record.key = [] then .empty [] else record.data.foldl addData (.empty record.key)

/-! ### Numerals and lines -/

theorem not_isSpace_of_isDigit {char : Char} (digit : char.isDigit = true) : isSpace char = false := by
  have bounds : 48 ≤ char.toNat ∧ char.toNat ≤ 57 := by
    simp only [Char.isDigit, Bool.and_eq_true, decide_eq_true_eq] at digit
    exact ⟨digit.1, digit.2⟩
  simp only [isSpace, List.mem_cons, List.not_mem_nil, or_false, Bool.or_eq_false_iff,
    decide_eq_false_iff_not, Bool.and_eq_false_iff]
  omega

/-- A character that is not a digit is not in a numeral. -/
theorem Numeral.notMem (numeral : Numeral) {char : Char} (notDigit : char.isDigit = false) :
    char ∉ numeral.digits := by
  intro member
  rw [numeral.ascii char member] at notDigit
  cases notDigit

theorem strip_numeral (front text : Chars) (numeral : Numeral)
    (visible : front.head?.map isSpace = some false) :
    strip isSpace (front ++ numeral.digits ++ text) =
      front ++ numeral.digits ++ text.rdropWhile isSpace := by
  rcases List.eq_nil_or_concat' numeral.digits with nothing | ⟨digits, last, split⟩
  · exact absurd nothing numeral.nonempty
  · have isDigit := numeral.ascii last (by simp [split])
    cases front with
    | nil => cases visible
    | cons first middle =>
      have stripped := strip_append first last (middle ++ digits) text (Option.some.inj visible)
        (not_isSpace_of_isDigit isDigit)
      simpa [split] using stripped

theorem int_numeral (python : Python) (numeral : Numeral) :
    int python numeral.digits = .ok numeral.value := by
  rw [int, python.int_numeral]

variable (python : Python)

/-! ### Parsing one line -/

theorem parse_count (counter : Counter) (value : Numeral) (coverage : FileCoverage) :
    parseLcovDataLine python (counter.marker ++ value.digits) coverage =
      .ok (coverage.setCount counter value.value) := by
  have found : (counters.find? fun other => other.marker.isPrefixOf (counter.marker ++ value.digits)) =
      some counter := by
    cases counter <;> rfl
  have removed : remove counter.marker (counter.marker ++ value.digits) = value.digits := by
    cases counter with
    | linesFound => exact remove_front_of_notMem 'L' _ _ (value.notMem (by decide))
    | linesHit => exact remove_front_of_notMem 'L' _ _ (value.notMem (by decide))
    | branchesFound => exact remove_front_of_notMem 'B' _ _ (value.notMem (by decide))
    | branchesHit => exact remove_front_of_notMem 'B' _ _ (value.notMem (by decide))
  rw [parseLcovDataLine, found]
  dsimp only
  rw [removed, int_numeral]
  rfl

theorem find_lineMarker (text : Chars) :
    (counters.find? fun counter => counter.marker.isPrefixOf (lineMarker ++ text)) = none := by
  rfl

theorem find_branchMarker (text : Chars) :
    (counters.find? fun counter => counter.marker.isPrefixOf (branchMarker ++ text)) = none := by
  rfl

theorem splitOn_numeral (numeral : Numeral) (tail : Chars) (ends : tail = [] ∨ ∃ text, tail = ',' :: text) :
    ∃ fields, (numeral.digits ++ tail).splitOn ',' = numeral.digits :: fields := by
  have plain : ',' ∉ numeral.digits := numeral.notMem (by decide)
  cases ends with
  | inl nothing =>
    rw [nothing, List.append_nil, List.splitOn_eq_singleton plain]
    exact ⟨[], rfl⟩
  | inr more =>
    obtain ⟨text, rfl⟩ := more
    exact ⟨_, splitOn_cons ',' numeral.digits text plain⟩

theorem lineData_of_parts {line : Chars} {number hits : Numeral} {fields : List Chars}
    (parts : line.splitOn ',' = (lineMarker ++ number.digits) :: hits.digits :: fields)
    (coverage : FileCoverage) :
    parseLineData python line coverage =
      .ok (if hits.value = 0 then coverage.addLine number.value else coverage) := by
  have removed : remove lineMarker (lineMarker ++ number.digits) = number.digits :=
    remove_front_of_notMem 'D' _ _ (number.notMem (by decide))
  have first : part ((lineMarker ++ number.digits) :: hits.digits :: fields) 0 =
      .ok (lineMarker ++ number.digits) := rfl
  have second : part ((lineMarker ++ number.digits) :: hits.digits :: fields) 1 = .ok hits.digits := rfl
  simp only [parseLineData, parts, first, second, bind, Except.bind, removed, int_numeral, pure,
    Except.pure, Int.natCast_eq_zero]

theorem parse_line (number hits : Numeral) (tail : Chars) (ends : tail = [] ∨ ∃ text, tail = ',' :: text)
    (coverage : FileCoverage) :
    parseLcovDataLine python (lineMarker ++ number.digits ++ ',' :: (hits.digits ++ tail)) coverage =
      .ok (if hits.value = 0 then coverage.addLine number.value else coverage) := by
  have plain : ',' ∉ lineMarker ++ number.digits := by
    simp [number.notMem, lineMarker]
  obtain ⟨fields, later⟩ := splitOn_numeral hits tail ends
  have parts : (lineMarker ++ number.digits ++ ',' :: (hits.digits ++ tail)).splitOn ',' =
      (lineMarker ++ number.digits) :: hits.digits :: fields := by
    rw [splitOn_cons ',' _ _ plain, later]
  have starts : lineMarker.isPrefixOf (lineMarker ++ number.digits ++ ',' :: (hits.digits ++ tail)) := by
    rw [List.isPrefixOf_iff_prefix, List.append_assoc]
    exact List.prefix_append _ _
  have none := find_lineMarker (number.digits ++ ',' :: (hits.digits ++ tail))
  rw [← List.append_assoc] at none
  rw [parseLcovDataLine, none]
  dsimp only
  rw [if_pos starts, lineData_of_parts python parts]

theorem takenText_eq_dash (taken : Option Numeral) : takenText taken = "-".toList ↔ taken = none := by
  cases taken with
  | none => simp [takenText]
  | some taken =>
    have differs : taken.digits ≠ "-".toList := by
      intro same
      have isDash : '-' ∈ taken.digits := same ▸ List.mem_cons_self
      exact taken.notMem (by decide) isDash
    simpa [takenText] using differs

theorem branchData_of_parts {line : Chars} {number block index : Numeral} {taken : Option Numeral}
    (parts : line.splitOn ',' =
      [branchMarker ++ number.digits, block.digits, index.digits, takenText taken])
    (coverage : FileCoverage) :
    parseBranchData python line coverage =
      .ok (addData coverage (.branch number block index taken)) := by
  have removed : remove branchMarker (branchMarker ++ number.digits) = number.digits :=
    remove_front_of_notMem 'B' _ _ (number.notMem (by decide))
  generalize marked : branchMarker ++ number.digits = first at parts removed
  have part0 : part [first, block.digits, index.digits, takenText taken] 0 = .ok first := rfl
  have part1 : part [first, block.digits, index.digits, takenText taken] 1 = .ok block.digits := rfl
  have part2 : part [first, block.digits, index.digits, takenText taken] 2 = .ok index.digits := rfl
  have part3 : part [first, block.digits, index.digits, takenText taken] 3 = .ok (takenText taken) := rfl
  simp only [parseBranchData, parts, part0, part1, part2, part3, bind, Except.bind, removed, int_numeral,
    pure, Except.pure, takenText_eq_dash]
  cases taken with
  | none => rfl
  | some taken => rfl

theorem takenText_noComma (taken : Option Numeral) : ',' ∉ takenText taken := by
  cases taken with
  | none => decide
  | some taken => exact taken.notMem (by decide)

theorem parse_branch (number block index : Numeral) (taken : Option Numeral) (coverage : FileCoverage) :
    parseLcovDataLine python (Data.branch number block index taken).text coverage =
      .ok (addData coverage (.branch number block index taken)) := by
  have plain : ',' ∉ branchMarker ++ number.digits := by
    simp [number.notMem, branchMarker]
  have shape : (Data.branch number block index taken).text = branchMarker ++ number.digits ++
      ',' :: (block.digits ++ ',' :: (index.digits ++ ',' :: takenText taken)) := by
    simp [Data.text]
  have parts : (Data.branch number block index taken).text.splitOn ',' =
      [branchMarker ++ number.digits, block.digits, index.digits, takenText taken] := by
    rw [shape, splitOn_cons ',' _ _ plain, splitOn_cons ',' _ _ (block.notMem (by decide)),
      splitOn_cons ',' _ _ (index.notMem (by decide)), List.splitOn_eq_singleton (takenText_noComma taken)]
  have none : (counters.find? fun counter =>
      counter.marker.isPrefixOf (Data.branch number block index taken).text) = none := by
    rw [shape, List.append_assoc]
    exact find_branchMarker _
  have notLine : lineMarker.isPrefixOf (Data.branch number block index taken).text = false := by
    rw [shape, List.append_assoc]
    rfl
  have isBranch : branchStart.isPrefixOf (Data.branch number block index taken).text = true := by
    rw [shape, List.append_assoc]
    rfl
  rw [parseLcovDataLine, none]
  simp only [notLine, isBranch, Bool.false_eq_true, if_false, if_true]
  exact branchData_of_parts python parts coverage

theorem parse_data (data : Data) (coverage : FileCoverage) :
    parseLcovDataLine python (strip isSpace data.text) coverage = .ok (addData coverage data) := by
  cases data with
  | count counter value =>
    have visible : counter.marker.head?.map isSpace = some false := by cases counter <;> decide
    have stripped : strip isSpace (counter.marker ++ value.digits) = counter.marker ++ value.digits := by
      simpa using strip_numeral counter.marker [] value visible
    show parseLcovDataLine python (strip isSpace (counter.marker ++ value.digits)) coverage = _
    rw [stripped, parse_count]
    rfl
  | line number hits checksum =>
    have shape : ∀ tail : Chars, lineMarker ++ number.digits ++ [','] ++ hits.digits ++ tail =
        lineMarker ++ number.digits ++ ',' :: (hits.digits ++ tail) := by
      intro tail
      simp
    have stripped := fun tail =>
      strip_numeral (lineMarker ++ number.digits ++ [',']) tail hits rfl
    have text : (Data.line number hits checksum).text =
        lineMarker ++ number.digits ++ [','] ++ hits.digits ++
          checksum.elim [] fun text => ',' :: text := by
      simp [Data.text]
    rw [text, stripped, shape, parse_line]
    · rfl
    · cases checksum with
      | none => exact .inl rfl
      | some checksum =>
        right
        exact ⟨_, rdropWhile_append_of_last [] checksum (by decide)⟩
  | branch number block index taken =>
    have stripped : strip isSpace (Data.branch number block index taken).text =
        (Data.branch number block index taken).text := by
      cases taken with
      | none =>
        have ends := strip_append 'B' '-' ("RDA:".toList ++ number.digits ++ ',' :: block.digits ++
          ',' :: index.digits ++ [',']) [] (by decide : isSpace 'B' = false)
          (by decide : isSpace '-' = false)
        simpa [Data.text, takenText, branchMarker] using ends
      | some taken =>
        have ends := strip_numeral (branchMarker ++ number.digits ++ ',' :: block.digits ++
          ',' :: index.digits ++ [',']) [] taken rfl
        simpa [Data.text, takenText] using ends
    rw [stripped, parse_branch]
  | other plain =>
    have none : (counters.find? fun counter =>
        counter.marker.isPrefixOf (strip isSpace plain.text)) = none := by
      apply List.find?_eq_none.mpr
      intro counter _
      simp [plain.notCounter counter]
    show parseLcovDataLine python (strip isSpace plain.text) coverage = _
    rw [parseLcovDataLine, none]
    simp only [plain.notLine, plain.notBranch, Bool.false_eq_true, if_false]
    rfl

/-! ### Reading records -/

theorem strip_cons (first : Char) (text : Chars) (visible : isSpace first = false) :
    strip isSpace (first :: text) = first :: text.rdropWhile isSpace := by
  have start : (first :: text).dropWhile isSpace = first :: text := by simp [visible]
  rw [strip, start]
  exact rdropWhile_append_of_last [] text visible

/-- A line that starts otherwise is neither the start nor the end of a record. -/
theorem inner_of_first {first : Char} {text : Chars} (visible : isSpace first = false)
    (notSource : 'S' ≠ first) (notEnd : first ≠ 'e') :
    sourceMarker.isPrefixOf (strip isSpace (first :: text)) = false ∧
      strip isSpace (first :: text) ≠ endOfRecord := by
  rw [strip_cons first text visible]
  constructor
  · rw [Bool.eq_false_iff, ne_eq, List.isPrefixOf_iff_prefix]
    intro starts
    exact notSource (List.cons_prefix_cons.mp starts).1
  · intro same
    exact notEnd (List.cons.inj same).1

theorem data_inner (data : Data) : sourceMarker.isPrefixOf (strip isSpace data.text) = false ∧
    strip isSpace data.text ≠ endOfRecord := by
  cases data with
  | count counter value =>
    cases counter with
    | linesFound => exact inner_of_first (by decide) (by decide) (by decide)
    | linesHit => exact inner_of_first (by decide) (by decide) (by decide)
    | branchesFound => exact inner_of_first (by decide) (by decide) (by decide)
    | branchesHit => exact inner_of_first (by decide) (by decide) (by decide)
  | line number hits checksum => exact inner_of_first (by decide) (by decide) (by decide)
  | branch number block index taken => exact inner_of_first (by decide) (by decide) (by decide)
  | other plain => exact ⟨plain.notSource, plain.notEnd⟩

theorem read_source (table : CoverageData) (current : Option Chars) (record : Record) :
    readLine python ⟨table, current⟩ (sourceMarker ++ record.path) =
      .ok ⟨table.insert record.key (.empty record.key), some record.key⟩ := by
  have stripped : strip isSpace (sourceMarker ++ record.path) =
      sourceMarker ++ record.path.rdropWhile isSpace :=
    strip_append 'S' ':' ['F'] record.path (by decide) (by decide)
  have starts : sourceMarker.isPrefixOf (sourceMarker ++ record.path.rdropWhile isSpace) = true :=
    List.isPrefixOf_iff_prefix.mpr (List.prefix_append _ _)
  have removed : remove sourceMarker (sourceMarker ++ record.path.rdropWhile isSpace) = record.key :=
    remove_front 'S' ['F', ':'] _
  simp only [readLine, stripped, starts, if_true, removed]

theorem read_end (table : CoverageData) (current : Option Chars) :
    readLine python ⟨table, current⟩ endOfRecord = .ok ⟨table, none⟩ := by
  have stripped : strip isSpace endOfRecord = endOfRecord := by decide
  have notSource : sourceMarker.isPrefixOf endOfRecord = false := by decide
  simp only [readLine, stripped, notSource, if_true, Bool.false_eq_true, if_false]

theorem read_preamble (table : CoverageData) (plain : OtherLine) :
    readLine python ⟨table, none⟩ plain.text = .ok ⟨table, none⟩ := by
  simp only [readLine, plain.notSource, plain.notEnd, Bool.false_eq_true, if_false]

theorem read_data (table : CoverageData) (path : Chars) (named : path ≠ []) (coverage : FileCoverage)
    (data : Data) :
    readLine python ⟨table.insert path coverage, some path⟩ data.text =
      .ok ⟨table.insert path (addData coverage data), some path⟩ := by
  obtain ⟨notSource, notEnd⟩ := data_inner data
  simp only [readLine, notSource, notEnd, named, Bool.false_eq_true, if_false, AList.lookup_insert,
    parse_data, bind, Except.bind, pure, Except.pure, AList.insert_insert]

theorem read_unnamed (table : CoverageData) (data : Data) :
    readLine python ⟨table, some []⟩ data.text = .ok ⟨table, some []⟩ := by
  obtain ⟨notSource, notEnd⟩ := data_inner data
  simp only [readLine, notSource, notEnd, Bool.false_eq_true, if_false, if_true]

theorem foldlM_cons_ok {reader next : Reader} {line : Chars} {lines : List Chars}
    (read : readLine python reader line = .ok next) :
    (line :: lines).foldlM (readLine python) reader = lines.foldlM (readLine python) next := by
  rw [List.foldlM_cons, read]
  rfl

theorem read_preambles (table : CoverageData) (preamble : List OtherLine) (lines : List Chars) :
    (preamble.map OtherLine.text ++ lines).foldlM (readLine python) ⟨table, none⟩ =
      lines.foldlM (readLine python) ⟨table, none⟩ := by
  induction preamble with
  | nil => rfl
  | cons plain preamble ih =>
    show (plain.text :: (preamble.map OtherLine.text ++ lines)).foldlM _ _ = _
    rw [foldlM_cons_ok python (read_preamble python table plain), ih]

theorem read_datas (table : CoverageData) (path : Chars) (named : path ≠ []) (data : List Data)
    (coverage : FileCoverage) (lines : List Chars) :
    (data.map Data.text ++ lines).foldlM (readLine python) ⟨table.insert path coverage, some path⟩ =
      lines.foldlM (readLine python) ⟨table.insert path (data.foldl addData coverage), some path⟩ := by
  induction data generalizing coverage with
  | nil => rfl
  | cons first data ih =>
    show (first.text :: (data.map Data.text ++ lines)).foldlM _ _ = _
    rw [foldlM_cons_ok python (read_data python table path named coverage first), ih]
    rfl

theorem read_unnameds (table : CoverageData) (data : List Data) (lines : List Chars) :
    (data.map Data.text ++ lines).foldlM (readLine python) ⟨table, some []⟩ =
      lines.foldlM (readLine python) ⟨table, some []⟩ := by
  induction data with
  | nil => rfl
  | cons first data ih =>
    show (first.text :: (data.map Data.text ++ lines)).foldlM _ _ = _
    rw [foldlM_cons_ok python (read_unnamed python table first), ih]

/-- A record leaves its coverage under its path, whatever was there. -/
theorem read_record (table : CoverageData) (record : Record) (lines : List Chars) :
    (record.lines ++ lines).foldlM (readLine python) ⟨table, none⟩ =
      lines.foldlM (readLine python) ⟨table.insert record.key record.coverage, none⟩ := by
  have shape : record.lines ++ lines = record.preamble.map OtherLine.text ++
      ((sourceMarker ++ record.path) :: (record.data.map Data.text ++ (endOfRecord :: lines))) := by
    simp [Record.lines]
  rw [shape, read_preambles, foldlM_cons_ok python (read_source python table none record)]
  by_cases unnamed : record.key = []
  · rw [unnamed, read_unnameds, foldlM_cons_ok python (read_end python _ _), Record.coverage,
      if_pos unnamed]
  · rw [read_datas python table record.key unnamed, foldlM_cons_ok python (read_end python _ _),
      Record.coverage, if_neg unnamed]

theorem foldl_addData_filePath (data : List Data) (coverage : FileCoverage) :
    (data.foldl addData coverage).filePath = coverage.filePath := by
  induction data generalizing coverage with
  | nil => rfl
  | cons first data ih =>
    rw [List.foldl_cons, ih]
    cases first with
    | count counter value => rfl
    | line number hits checksum =>
      rw [addData]
      split
      · rfl
      · rfl
    | branch number block index taken =>
      cases taken with
      | none => rfl
      | some taken => rfl
    | other plain => rfl

theorem coverage_filePath (record : Record) : record.coverage.filePath = record.key := by
  rw [Record.coverage]
  split
  · rename_i unnamed
    exact unnamed.symm
  · exact foldl_addData_filePath record.data (.empty record.key)

/-- The table after all records. -/
def recordTable (records : List Record) : CoverageData :=
  (records.map Record.coverage).foldl (keepLast FileCoverage.filePath) ∅

/-- The parser reads well-formed records without an error, each into the place of its path. -/
theorem read_lcovLines (records : List Record) :
    (lcovLines records).foldlM (readLine python) ⟨∅, none⟩ = .ok ⟨recordTable records, none⟩ := by
  have each : ∀ table : CoverageData, (lcovLines records).foldlM (readLine python) ⟨table, none⟩ =
      .ok ⟨(records.map Record.coverage).foldl (keepLast FileCoverage.filePath) table, none⟩ := by
    induction records with
    | nil => intro table; rfl
    | cons record records ih =>
      intro table
      have step : keepLast FileCoverage.filePath table record.coverage =
          table.insert record.key record.coverage := by
        rw [keepLast, coverage_filePath]
      show (record.lines ++ lcovLines records).foldlM _ _ = _
      rw [read_record, ih, List.map_cons, List.foldl_cons, step]
  exact each ∅

theorem lookup_recordTable (records : List Record) (path : Chars) :
    (recordTable records).lookup path = (lastOf Record.key records path).map Record.coverage := by
  have keys : (fun record : Record => record.coverage.filePath) = Record.key :=
    funext coverage_filePath
  rw [recordTable, lookup_lastOf, lastOf_map, keys]

end EzSdk.Devkit.Coverage
