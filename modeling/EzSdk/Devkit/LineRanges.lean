import EzSdk.Devkit.Coverage
import EzSdk.Foundation.RangeLists
import Mathlib.Algebra.Order.Ring.Int
import Mathlib.Algebra.Order.SuccPred
import Mathlib.Data.Int.SuccPred
import Mathlib.Data.List.Sort
import Mathlib.Data.Nat.SuccPred

/-! `group_consecutive_numbers` of `coverage_report.py`: the ranges that it prints, and how they are
read back from the text. -/

namespace EzSdk.Devkit.Coverage

open RangeLists Texts

/-! ### The ranges of the loop -/

theorem groupFrom_covers {start previous : Int} (ordered : start ≤ previous) (numbers : List Int)
    (line : Int) :
    Covers (groupFrom start previous numbers) line ↔
      (start ≤ line ∧ line ≤ previous) ∨ line ∈ numbers := by
  induction numbers generalizing start previous with
  | nil => simp [groupFrom, Covers]
  | cons number numbers ih =>
    rw [groupFrom]
    by_cases gap : number ≠ previous + 1
    · have single : number ≤ line ∧ line ≤ number ↔ line = number := by omega
      rw [if_pos gap, covers_cons, ih (le_refl number), List.mem_cons, single]
    · have longer : start ≤ line ∧ line ≤ number ↔
          (start ≤ line ∧ line ≤ previous) ∨ line = number := by omega
      rw [if_neg gap, ih (by omega), List.mem_cons, longer, or_assoc]

theorem groupFrom_ordered {start previous : Int} (ordered : start ≤ previous) (numbers : List Int) :
    ∀ range ∈ groupFrom start previous numbers, range.1 ≤ range.2 := by
  induction numbers generalizing start previous with
  | nil =>
    intro range member
    rw [groupFrom, List.mem_singleton] at member
    rw [member]
    exact ordered
  | cons number numbers ih =>
    rw [groupFrom]
    split
    · intro range member
      cases List.mem_cons.mp member with
      | inl first =>
        rw [first]
        exact ordered
      | inr later => exact ih (le_refl number) range later
    · rename_i next
      exact ih (by omega)

/-- On increasing numbers, a range that is closed ends before a gap. -/
theorem groupFrom_canonical {start previous : Int} {numbers : List Int} (ordered : start ≤ previous)
    (increasing : (previous :: numbers).Pairwise (· < ·)) :
    Canonical (groupFrom start previous numbers) := by
  induction numbers generalizing start previous with
  | nil => exact canonical_cons ordered (by simp) ⟨by simp, List.Pairwise.nil⟩
  | cons number numbers ih =>
    obtain ⟨above, later⟩ := List.pairwise_cons.mp increasing
    have next : previous < number := above number List.mem_cons_self
    rw [groupFrom]
    by_cases gap : number ≠ previous + 1
    · rw [if_pos gap]
      apply canonical_cons ordered _ (ih (le_refl number) later)
      intro range member
      -- the later ranges start with one of the later numbers
      have stop := groupFrom_ordered (le_refl number) numbers range member
      have notBefore : number ≤ range.1 := by
        cases (groupFrom_covers (le_refl number) numbers range.1).mp
            ⟨range, member, le_refl _, stop⟩ with
        | inl inside => exact inside.1
        | inr isNumber => exact ((List.pairwise_cons.mp later).1 _ isNumber).le
      rw [Apart, Order.succ_eq_add_one]
      omega
    · rw [if_neg gap]
      exact ih (by omega) later

theorem groupRanges_covers (numbers : List Int) (line : Int) :
    Covers (groupRanges numbers) line ↔ line ∈ numbers := by
  have sorted : line ∈ numbers ↔ line ∈ numbers.mergeSort := List.mem_mergeSort.symm
  rw [sorted, groupRanges]
  cases numbers.mergeSort with
  | nil => simp [Covers]
  | cons first later =>
    have single : first ≤ line ∧ line ≤ first ↔ line = first := by omega
    show Covers (groupFrom first first later) line ↔ _
    rw [groupFrom_covers (le_refl first), List.mem_cons, single]

theorem groupRanges_ordered (numbers : List Int) : ∀ range ∈ groupRanges numbers, range.1 ≤ range.2 := by
  rw [groupRanges]
  cases numbers.mergeSort with
  | nil => simp
  | cons first later => exact groupFrom_ordered (le_refl first) later

theorem groupRanges_ends {numbers : List Int} {range : Int × Int} (member : range ∈ groupRanges numbers) :
    range.1 ∈ numbers ∧ range.2 ∈ numbers := by
  have ordered := groupRanges_ordered numbers range member
  exact ⟨(groupRanges_covers numbers _).mp ⟨range, member, le_refl _, ordered⟩,
    (groupRanges_covers numbers _).mp ⟨range, member, ordered, le_refl _⟩⟩

theorem mergeSort_increasing {numbers : List Int} (distinct : numbers.Nodup) :
    numbers.mergeSort.Pairwise (· < ·) := by
  have sorted : numbers.mergeSort.Pairwise (· ≤ ·) := List.pairwise_mergeSort' (· ≤ ·) numbers
  have apart : numbers.mergeSort.Pairwise (· ≠ ·) :=
    (List.mergeSort_perm numbers _).nodup_iff.mpr distinct
  exact (sorted.and apart).imp fun both => lt_of_le_of_ne both.1 both.2

theorem groupRanges_canonical {numbers : List Int} (distinct : numbers.Nodup) :
    Canonical (groupRanges numbers) := by
  have increasing := mergeSort_increasing distinct
  rw [groupRanges]
  cases sorted : numbers.mergeSort with
  | nil => exact ⟨by simp, List.Pairwise.nil⟩
  | cons first later =>
    rw [sorted] at increasing
    exact groupFrom_canonical (le_refl first) increasing

/-! ### Ranges of line numbers and their text -/

def lineRangeText (range : Nat × Nat) : String := rangeText (range.1, range.2)

theorem toString_cast (number : Nat) : toString (number : Int) = toString number := rfl

theorem notMem_number {char : Char} (notDigit : char.isDigit = false) (number : Nat) :
    char ∉ Nat.toDigits 10 number := by
  intro member
  have digit := Nat.isDigit_of_mem_toDigits (by decide) (by decide) member
  rw [notDigit] at digit
  cases digit

theorem lineRangeText_toList (start stop : Nat) : (lineRangeText (start, stop)).toList =
    if start = stop then Nat.toDigits 10 start
    else Nat.toDigits 10 start ++ '-' :: Nat.toDigits 10 stop := by
  simp only [lineRangeText, rangeText, toString_cast, Nat.cast_inj]
  split
  · simp
  · simp

theorem notMem_lineRangeText {char : Char} (notDigit : char.isDigit = false) (notDash : char ≠ '-')
    (range : Nat × Nat) : char ∉ (lineRangeText range).toList := by
  have plain := notMem_number notDigit
  rw [lineRangeText_toList]
  split
  · exact plain range.1
  · simp [plain, notDash]

theorem lineRangeText_ne_empty (range : Nat × Nat) : lineRangeText range ≠ "" := by
  intro empty
  have nothing : (lineRangeText range).toList = [] := by simp [empty]
  rw [lineRangeText_toList] at nothing
  split at nothing
  · exact Nat.toDigits_ne_nil nothing
  · simp at nothing

theorem intercalate_ne_empty (separator : String) {texts : List String} (something : texts ≠ [])
    (each : ∀ text ∈ texts, text ≠ "") : separator.intercalate texts ≠ "" := by
  cases texts with
  | nil => exact absurd rfl something
  | cons text texts =>
    have visible := each text List.mem_cons_self
    cases texts with
    | nil => simpa using visible
    | cons next texts => simp [String.intercalate_cons_cons, visible]

def rangesText (ranges : List (Nat × Nat)) : String := ", ".intercalate (ranges.map lineRangeText)

theorem rangesText_ne_empty {ranges : List (Nat × Nat)} (something : ranges ≠ []) :
    rangesText ranges ≠ "" := by
  apply intercalate_ne_empty
  · simpa using something
  · intro text member
    obtain ⟨range, _, rfl⟩ := List.mem_map.mp member
    exact lineRangeText_ne_empty range

/-! ### Reading a text back -/

def readNumber (text : Chars) : Option Nat :=
  if text ≠ [] ∧ text.all Char.isDigit then some (Nat.ofDigitChars 10 text 0) else none

/-- A number, or two with a dash between them. -/
def readRange (text : Chars) : Option (Nat × Nat) :=
  match text.splitOn '-' with
  | [number] => (readNumber number).map fun number => (number, number)
  | [start, stop] => do
    let start ← readNumber start
    let stop ← readNumber stop
    return (start, stop)
  | _ => none

/-- A range with spaces before it. -/
def readPiece (piece : Chars) : Option (Nat × Nat) :=
  readRange (piece.dropWhile (· = ' '))

/-- Ranges between commas; no range at all is the empty text. -/
def readRanges (text : Chars) : Option (List (Nat × Nat)) :=
  if text = [] then some [] else (text.splitOn ',').mapM readPiece

theorem readNumber_toDigits (number : Nat) : readNumber (Nat.toDigits 10 number) = some number := by
  have digits : (Nat.toDigits 10 number).all Char.isDigit = true := by
    rw [List.all_eq_true]
    intro char member
    exact Nat.isDigit_of_mem_toDigits (by decide) (by decide) member
  rw [readNumber, if_pos ⟨Nat.toDigits_ne_nil, digits⟩, Nat.ofDigitChars_ten_toDigits]

theorem readRange_text (range : Nat × Nat) : readRange (lineRangeText range).toList = some range := by
  obtain ⟨start, stop⟩ := range
  have noDash : ∀ number : Nat, '-' ∉ Nat.toDigits 10 number := notMem_number (by decide)
  rw [lineRangeText_toList]
  by_cases single : start = stop
  · have split : (Nat.toDigits 10 start).splitOn '-' = [Nat.toDigits 10 start] :=
      List.splitOn_eq_singleton (noDash start)
    rw [if_pos single, readRange, split, ← single]
    simp [readNumber_toDigits]
  · have split : (Nat.toDigits 10 start ++ '-' :: Nat.toDigits 10 stop).splitOn '-' =
        [Nat.toDigits 10 start, Nat.toDigits 10 stop] := by
      rw [splitOn_cons '-' _ _ (noDash start), List.splitOn_eq_singleton (noDash stop)]
    rw [if_neg single, readRange, split]
    simp [readNumber_toDigits]

section Pieces

variable {spaces : Chars} (blank : ∀ char ∈ spaces, char = ' ')

include blank

theorem readPiece_text (range : Nat × Nat) :
    readPiece (spaces ++ (lineRangeText range).toList) = some range := by
  -- The text of a range has no space of its own, so only the spaces before it are dropped.
  have start : (lineRangeText range).toList.dropWhile (· = ' ') = (lineRangeText range).toList := by
    apply List.dropWhile_eq_self_iff.mpr
    intro something isSpace
    have inText := List.getElem_mem something
    rw [of_decide_eq_true isSpace] at inText
    exact notMem_lineRangeText (by decide) (by decide) range inText
  have dropped : (spaces ++ (lineRangeText range).toList).dropWhile (· = ' ') =
      (lineRangeText range).toList := by
    rw [List.dropWhile_append_of_pos, start]
    intro char member
    exact decide_eq_true (blank char member)
  rw [readPiece, dropped, readRange_text]

theorem readPieces_text (ranges : List (Nat × Nat)) :
    (ranges.map fun range => spaces ++ (lineRangeText range).toList).mapM readPiece =
      some ranges := by
  induction ranges with
  | nil => rfl
  | cons range ranges ih =>
    rw [List.map_cons, List.mapM_cons, readPiece_text blank, ih]
    rfl

end Pieces

/-- Between the commas stand the ranges, all but the first behind the space of the separator. -/
theorem splitOn_rangesText (range : Nat × Nat) (ranges : List (Nat × Nat)) :
    (rangesText (range :: ranges)).toList.splitOn ',' =
      (lineRangeText range).toList :: ranges.map fun range => [' '] ++ (lineRangeText range).toList := by
  have fields : (rangesText (range :: ranges)).toList = (',' :: [' ']).intercalate
      ((lineRangeText range).toList :: ranges.map fun range => (lineRangeText range).toList) := by
    rw [rangesText, String.toList_intercalate, List.map_map]
    rfl
  have plain : ∀ field ∈ (lineRangeText range).toList ::
      ranges.map (fun range => (lineRangeText range).toList), ',' ∉ field := by
    intro field member
    obtain ⟨other, _, rfl⟩ : ∃ other ∈ range :: ranges, (lineRangeText other).toList = field :=
      List.mem_map.mp member
    exact notMem_lineRangeText (by decide) (by decide) other
  rw [fields, splitOn_intercalate_cons (by decide) plain, List.map_map]
  rfl

theorem readRanges_text (ranges : List (Nat × Nat)) :
    readRanges (rangesText ranges).toList = some ranges := by
  cases ranges with
  | nil => rfl
  | cons range ranges =>
    have visible : (rangesText (range :: ranges)).toList ≠ [] := by
      simpa using rangesText_ne_empty (List.cons_ne_nil range ranges)
    have first : readPiece (lineRangeText range).toList = some range :=
      readPiece_text (List.forall_mem_nil _) range
    have later : (ranges.map fun range => [' '] ++ (lineRangeText range).toList).mapM readPiece =
        some ranges := readPieces_text (by simp) ranges
    rw [readRanges, if_neg visible, splitOn_rangesText, List.mapM_cons, first, later]
    rfl

example : readRanges "1-3, 6-7, 10".toList = some [(1, 3), (6, 7), (10, 10)] := by
  decide +kernel

theorem rangesText_injective {ranges others : List (Nat × Nat)}
    (same : (rangesText ranges).toList = (rangesText others).toList) : ranges = others := by
  have read := readRanges_text ranges
  rw [same, readRanges_text] at read
  exact (Option.some.inj read).symm

/-! ### Line numbers -/

/-- The ranges of numbers that are not negative. -/
def naturalRanges (numbers : List Int) : List (Nat × Nat) :=
  (groupRanges numbers).map fun range => (range.1.toNat, range.2.toNat)

theorem rangeText_cast {range : Int × Int} (start : 0 ≤ range.1) (stop : 0 ≤ range.2) :
    lineRangeText (range.1.toNat, range.2.toNat) = rangeText range := by
  rw [lineRangeText, Int.toNat_of_nonneg start, Int.toNat_of_nonneg stop]

theorem naturalRanges_ordered (numbers : List Int) :
    ∀ range ∈ naturalRanges numbers, range.1 ≤ range.2 := by
  intro range member
  obtain ⟨original, isRange, rfl⟩ := List.mem_map.mp member
  exact Int.toNat_le_toNat (groupRanges_ordered numbers original isRange)

section Natural

variable {numbers : List Int} (natural : ∀ number ∈ numbers, 0 ≤ number)

include natural

theorem groupConsecutiveNumbers_eq :
    groupConsecutiveNumbers numbers = rangesText (naturalRanges numbers) := by
  have texts : (naturalRanges numbers).map lineRangeText = (groupRanges numbers).map rangeText := by
    rw [naturalRanges, List.map_map]
    apply List.map_congr_left
    intro range member
    obtain ⟨start, stop⟩ := groupRanges_ends member
    exact rangeText_cast (natural _ start) (natural _ stop)
  rw [groupConsecutiveNumbers, rangesText, texts]

theorem naturalRanges_covers (number : Nat) :
    Covers (naturalRanges numbers) number ↔ (number : Int) ∈ numbers := by
  have casts : ∀ range ∈ groupRanges numbers,
      (range.1.toNat ≤ number ∧ number ≤ range.2.toNat ↔ range.1 ≤ number ∧ number ≤ range.2) := by
    intro range member
    obtain ⟨start, stop⟩ := groupRanges_ends member
    have startNatural := natural _ start
    have stopNatural := natural _ stop
    omega
  rw [← groupRanges_covers numbers number]
  constructor
  · rintro ⟨range, member, inside⟩
    obtain ⟨original, isRange, rfl⟩ := List.mem_map.mp member
    exact ⟨original, isRange, (casts original isRange).mp inside⟩
  · rintro ⟨range, isRange, inside⟩
    exact ⟨_, List.mem_map_of_mem isRange, (casts range isRange).mpr inside⟩

/-- Between the ranges of distinct numbers at least one number is missing. -/
theorem naturalRanges_apart (distinct : numbers.Nodup) :
    (naturalRanges numbers).Pairwise fun range next => range.2 + 2 ≤ next.1 := by
  apply List.pairwise_map.mpr
  apply (groupRanges_canonical distinct).apart.imp_of_mem
  intro range next isRange isNext apart
  have stop := natural _ (groupRanges_ends isRange).2
  have start := natural _ (groupRanges_ends isNext).1
  rw [Apart, Order.succ_eq_add_one] at apart
  dsimp only
  omega

end Natural

/-! ### Grouping is lossless and canonical -/

/-- Distinct numbers that are not negative, in any order. -/
structure LineNumbers where
  list : List Int
  natural : ∀ number ∈ list, 0 ≤ number
  distinct : list.Nodup

/-- The text can be read back as ranges that denote the numbers and are increasing, disjoint and
maximal; it is the same for all orders of the numbers and for no other numbers. -/
structure GroupsFaithfully (numbers : LineNumbers) : Prop where
  readBack : ∃ ranges, readRanges (groupConsecutiveNumbers numbers.list).toList = some ranges ∧
    (∀ number : Nat, Covers ranges number ↔ (number : Int) ∈ numbers.list) ∧
    (∀ range ∈ ranges, range.1 ≤ range.2) ∧
    ranges.Pairwise fun range next => range.2 + 2 ≤ next.1
  anyOrder : ∀ reordered : List Int, reordered.Perm numbers.list →
    groupConsecutiveNumbers reordered = groupConsecutiveNumbers numbers.list
  differs : ∀ other : LineNumbers, (∃ number, ¬ (number ∈ other.list ↔ number ∈ numbers.list)) →
    groupConsecutiveNumbers other.list ≠ groupConsecutiveNumbers numbers.list

theorem readRanges_group (numbers : LineNumbers) :
    readRanges (groupConsecutiveNumbers numbers.list).toList = some (naturalRanges numbers.list) := by
  rw [groupConsecutiveNumbers_eq numbers.natural, readRanges_text]

theorem mem_iff_of_text {numbers other : LineNumbers}
    (same : groupConsecutiveNumbers other.list = groupConsecutiveNumbers numbers.list) (number : Int) :
    number ∈ other.list ↔ number ∈ numbers.list := by
  have ranges : naturalRanges other.list = naturalRanges numbers.list := by
    have read := readRanges_group other
    rw [same, readRanges_group] at read
    exact (Option.some.inj read).symm
  by_cases negative : number < 0
  · constructor
    · intro member
      exact absurd (other.natural number member) (not_le.mpr negative)
    · intro member
      exact absurd (numbers.natural number member) (not_le.mpr negative)
  · obtain ⟨natural, rfl⟩ := Int.eq_ofNat_of_zero_le (not_lt.mp negative)
    rw [← naturalRanges_covers other.natural, ← naturalRanges_covers numbers.natural, ranges]

theorem groups_faithfully (numbers : LineNumbers) : GroupsFaithfully numbers := by
  constructor
  · exact ⟨naturalRanges numbers.list, readRanges_group numbers, naturalRanges_covers numbers.natural,
      naturalRanges_ordered numbers.list, naturalRanges_apart numbers.natural numbers.distinct⟩
  · intro reordered permuted
    have ranges : groupRanges reordered = groupRanges numbers.list := by
      apply canonical_unique (groupRanges_canonical (permuted.nodup_iff.mpr numbers.distinct))
        (groupRanges_canonical numbers.distinct)
      intro line
      rw [groupRanges_covers, groupRanges_covers, permuted.mem_iff]
    rw [groupConsecutiveNumbers, groupConsecutiveNumbers, ranges]
  · intro other different same
    obtain ⟨number, differs⟩ := different
    exact differs (mem_iff_of_text same number)

end EzSdk.Devkit.Coverage
