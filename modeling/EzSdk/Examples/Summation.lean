import EzSdk.Proto
import Mathlib.Algebra.BigOperators.Group.List.Basic
import Mathlib.Tactic.Linarith
import Mathlib.Tactic.Ring

/-! The summation examples: the monolithic server that adds in a loop, the server that subtracts
entries of a precomputed table, and the client that sends the sum it expects. -/

namespace EzSdk.Summation

/-- The value is one of `int64_t`. -/
def Fits (value : Int) : Prop := -2 ^ 63 ≤ value ∧ value < 2 ^ 63

instance (value : Int) : Decidable (Fits value) :=
  inferInstanceAs (Decidable (_ ∧ _))

/-- Why a request has no response: signed overflow, or a status. -/
inductive Fault where
  | undefined
  | status (status : Status)
  deriving DecidableEq

def int64 (value : Int) : Except Fault Int :=
  if Fits value then .ok value else .error .undefined

def addInt64 (left right : Int) : Except Fault Int := int64 (left + right)

structure IntegerSequenceRequest where
  startAt : Int
  endAt : Int
  expectedResult : Option Int
  startFits : Fits startAt
  endFits : Fits endAt

/-- The values of `i` in a loop from `startAt` to `endAt`. -/
def counted (startAt endAt : Int) : List Int :=
  (List.range (endAt + 1 - startAt).toNat).map (fun turn : Nat => startAt + turn)

/-- The `for` loop of the C++ servers. Its `i++` can overflow too. -/
def forLoop (add : Int → Int → Except Fault Int) (request : IntegerSequenceRequest) :
    Except Fault Int :=
  (counted request.startAt request.endAt).foldlM (fun result i => do
    let sum ← add result i
    let _ ← addInt64 i 1
    return sum) 0

/-- An expectation of 0 is none. -/
def checkExpected (code : StatusCode) (request : IntegerSequenceRequest) (result : Int) :
    Except Fault Int :=
  let expected := request.expectedResult.getD 0
  if expected ≠ 0 ∧ expected ≠ result then .error (.status ⟨code, "Expected result mismatch"⟩)
  else .ok result

/-- `IntegerSequence` of the monolithic server, and `CloneIntegerSequence`. -/
def monolithic (request : IntegerSequenceRequest) : Except Fault Int := do
  let result ← forLoop addInt64 request
  checkExpected .invalidArgument request result

/-- The conversion of a `uint64_t` to `int64_t`. -/
def toInt64 (value : Int) : Int := value.bmod (2 ^ 64)

/-- The turn of `precompute_table` for `i`, whose sum is one of `uint64_t`. -/
def precomputeEntry (table : List Int) (i : Nat) : List Int :=
  table.set i (toInt64 (table.getD (i - 1) 0 + i))

def precomputeTable (lookupTable : List Int) : List Int :=
  (List.range' 1 (lookupTable.length - 1)).foldl precomputeEntry lookupTable

/-- The comparison of an `int64_t` with a `size_t`. -/
def atLeastSize (value : Int) (size : Nat) : Bool := (size : Int) ≤ value % 2 ^ 64

/-- `IntegerSequence` of the server with the table. -/
def lookup (lookupTable : List Int) (request : IntegerSequenceRequest) : Except Fault Int :=
  let startAt := request.startAt
  let endAt := request.endAt
  if atLeastSize startAt lookupTable.length ∨ atLeastSize endAt lookupTable.length ∨
      startAt < 0 ∨ endAt < 0 then
    .error (.status ⟨.invalidArgument, "Out of bounds"⟩)
  else do
    let startAt := if startAt = 0 then 1 else startAt
    let result ← int64 (lookupTable.getD endAt.toNat 0 - lookupTable.getD (startAt - 1).toNat 0)
    checkExpected .invalidArgument request result

/-- `lookup_table_` of a new `SimpleAddImpl`. Both calls that would fetch the backend's table are
commented out. -/
def newLookupTable : List Int := []

/-- `get_expected_sum_result` of the client; Rust divides towards zero. -/
def getExpectedSumResult (sumStart sumEnd : Int) : Except Fault Int := do
  let above ← int64 (sumEnd * (← int64 (sumEnd + 1)))
  let below ← int64 ((← int64 (sumStart - 1)) * sumStart)
  return (← int64 (above - below)).tdiv 2

/-! ### The loop -/

theorem int64_ok {value : Int} (fits : Fits value) : int64 value = .ok value := by
  rw [int64, if_pos fits]

/-- A loop whose sums stay within bounds gives the sum of its values. -/
theorem foldlM_add (items : List Int) (result : Int)
    (sums : ∀ turn < items.length, Fits (result + (items.take (turn + 1)).sum))
    (steps : ∀ i ∈ items, Fits (i + 1)) :
    items.foldlM (fun result i => do
      let sum ← addInt64 result i
      let _ ← addInt64 i 1
      return sum) result = Except.ok (result + items.sum) := by
  induction items generalizing result with
  | nil => simp [pure, Except.pure]
  | cons first items ih =>
    have fits : Fits (result + first) := by simpa using sums 0 (by simp)
    have later := ih (result + first) ?_ (fun i member => steps i (List.mem_cons_of_mem first member))
    · rw [List.foldlM_cons, addInt64, int64_ok fits, addInt64, int64_ok (steps first List.mem_cons_self)]
      simpa [bind, Except.bind, pure, Except.pure, add_assoc] using later
    · intro turn bound
      have next := sums (turn + 1) (by simpa using bound)
      simpa [add_assoc] using next

theorem sum_range_map (startAt : Int) (count : Nat) :
    2 * ((List.range count).map (fun turn : Nat => startAt + turn)).sum =
      count * (2 * startAt + count - 1) := by
  induction count with
  | zero => simp
  | succ count ih =>
    rw [List.range_succ, List.map_append, List.sum_append, mul_add, ih]
    push_cast
    simp
    ring

theorem sum_counted (startAt endAt : Int) (ordered : startAt ≤ endAt + 1) :
    2 * (counted startAt endAt).sum = (endAt + 1 - startAt) * (startAt + endAt) := by
  have count : ((endAt + 1 - startAt).toNat : Int) = endAt + 1 - startAt := by omega
  rw [counted, sum_range_map, count]
  ring

theorem take_counted (startAt endAt : Int) (turn : Nat) (bound : turn < (counted startAt endAt).length) :
    (counted startAt endAt).take (turn + 1) = counted startAt (startAt + turn) := by
  have turns : turn < (endAt + 1 - startAt).toNat := by simpa [counted] using bound
  have count : (startAt + turn + 1 - startAt).toNat = turn + 1 := by omega
  rw [counted, counted, count, ← List.map_take, List.take_range, Nat.min_eq_left (by omega)]

theorem mem_counted (startAt endAt i : Int) : i ∈ counted startAt endAt ↔ startAt ≤ i ∧ i ≤ endAt := by
  constructor
  · intro member
    rcases List.mem_map.mp member with ⟨turn, within, rfl⟩
    have bound := List.mem_range.mp within
    omega
  · intro bounds
    apply List.mem_map.mpr
    exact ⟨(i - startAt).toNat, List.mem_range.mpr (by omega), by omega⟩

theorem counted_reversed {startAt endAt : Int} (reversed : endAt < startAt) :
    counted startAt endAt = [] := by
  have none_left : (endAt + 1 - startAt).toNat = 0 := by omega
  rw [counted, none_left, List.range_zero, List.map_nil]

theorem forLoop_small (request : IntegerSequenceRequest) (positive : 0 ≤ request.startAt)
    (small : request.endAt < 2 ^ 31) :
    forLoop addInt64 request = .ok (counted request.startAt request.endAt).sum := by
  have sums (turn : Nat) (bound : turn < (counted request.startAt request.endAt).length) :
      Fits (0 + ((counted request.startAt request.endAt).take (turn + 1)).sum) := by
    have turns : turn < (request.endAt + 1 - request.startAt).toNat := by simpa [counted] using bound
    have double := sum_counted request.startAt (request.startAt + turn) (by omega)
    have first : request.startAt + turn + 1 - request.startAt ≤ 2 ^ 31 := by omega
    have second : request.startAt + (request.startAt + turn) ≤ 2 ^ 32 := by omega
    have low : 0 ≤ (request.startAt + turn + 1 - request.startAt) *
        (request.startAt + (request.startAt + turn)) := by
      apply mul_nonneg <;> omega
    have high : (request.startAt + turn + 1 - request.startAt) *
        (request.startAt + (request.startAt + turn)) ≤ 2 ^ 31 * 2 ^ 32 := by
      apply mul_le_mul first second <;> omega
    rw [take_counted _ _ _ bound, zero_add]
    constructor <;> omega
  have steps (i : Int) (member : i ∈ counted request.startAt request.endAt) : Fits (i + 1) := by
    have bounds := (mem_counted _ _ i).mp member
    constructor <;> omega
  rw [forLoop, foldlM_add _ 0 sums steps, zero_add]

/-! ### The table -/

theorem toInt64_of_fits {value : Int} (fits : Fits value) : toInt64 value = value :=
  Int.bmod_eq_of_le fits.1 fits.2

theorem getD_precomputeEntry (table : List Int) (i other : Nat) (bound : i < table.length) :
    (precomputeEntry table i).getD other 0 =
      if other = i then toInt64 (table.getD (i - 1) 0 + i) else table.getD other 0 := by
  unfold precomputeEntry
  by_cases same : other = i
  · subst same
    simp [List.getD_eq_getElem?_getD, bound]
  · have apart : i ≠ other := fun equal => same equal.symm
    simp [List.getD_eq_getElem?_getD, same, List.getElem?_set_ne apart]

theorem foldl_precomputeEntry (table : List Int) (small : table.length ≤ 2 ^ 31)
    (zero : table.getD 0 0 = 0) (turns : Nat) (bound : turns < table.length) :
    ((List.range' 1 turns).foldl precomputeEntry table).length = table.length ∧
      ∀ i ≤ turns, 2 * ((List.range' 1 turns).foldl precomputeEntry table).getD i 0 = i * (i + 1) := by
  induction turns with
  | zero =>
    refine ⟨rfl, ?_⟩
    intro i atMost
    have first : i = 0 := by omega
    simp only [List.range'_zero, List.foldl_nil, first, zero]
    rfl
  | succ turns ih =>
    rcases ih (by omega) with ⟨length, entries⟩
    rw [List.range'_concat, List.foldl_append, List.foldl_cons, List.foldl_nil]
    refine ⟨by rw [precomputeEntry, List.length_set, length], ?_⟩
    intro i atMost
    rw [getD_precomputeEntry _ _ _ (by omega)]
    split
    · rename_i last
      have before := entries turns (Nat.le_refl turns)
      have turn : 1 + 1 * turns - 1 = turns := by omega
      have square : (turns : Int) * (turns + 1) ≤ 2 ^ 31 * 2 ^ 31 := by
        apply mul_le_mul <;> omega
      have positive : 0 ≤ (turns : Int) * (turns + 1) := by
        apply mul_nonneg <;> omega
      rw [turn, toInt64_of_fits (by constructor <;> push_cast <;> omega), mul_add, before, last]
      push_cast
      ring
    · exact entries i (by omega)

theorem precomputeTable_entries (size : Nat) (small : size ≤ 2 ^ 31) (i : Nat) (bound : i < size) :
    2 * (precomputeTable (List.replicate size 0)).getD i 0 = i * (i + 1) := by
  have filled := foldl_precomputeEntry (List.replicate size 0) (by simpa using small)
    (by cases size <;> rfl) (size - 1) (by simp; omega)
  have turns : (List.replicate size (0 : Int)).length - 1 = size - 1 := by simp
  rw [precomputeTable, turns]
  exact filled.2 i (by omega)

theorem precomputeTable_length (table : List Int) : (precomputeTable table).length = table.length := by
  unfold precomputeTable
  generalize List.range' 1 (table.length - 1) = turns
  induction turns generalizing table with
  | nil => rfl
  | cons turn turns ih => rw [List.foldl_cons, ih, precomputeEntry, List.length_set]

theorem atLeastSize_false {value : Int} {size : Nat} (positive : 0 ≤ value) (bound : value < size)
    (small : size ≤ 2 ^ 31) : atLeastSize value size = false := by
  have same : value % 2 ^ 64 = value := Int.emod_eq_of_lt positive (by omega)
  rw [atLeastSize, same, decide_eq_false_iff_not]
  omega

theorem products_bounded (sumStart sumEnd : Int) (start : 0 ≤ sumStart ∧ sumStart < 2 ^ 31)
    (finish : 0 ≤ sumEnd ∧ sumEnd < 2 ^ 31) :
    (0 ≤ sumEnd * (sumEnd + 1) ∧ sumEnd * (sumEnd + 1) ≤ 2 ^ 62) ∧
      0 ≤ (sumStart - 1) * sumStart ∧ (sumStart - 1) * sumStart ≤ 2 ^ 62 := by
  have power : (2 : Int) ^ 31 * 2 ^ 31 = 2 ^ 62 := by norm_num
  refine ⟨⟨?_, ?_⟩, ?_, ?_⟩
  · apply mul_nonneg <;> omega
  · rw [← power]
    apply mul_le_mul <;> omega
  · rcases Int.lt_or_eq_of_le start.1 with more | zero
    · apply mul_nonneg <;> omega
    · rw [← zero]
      decide
  · rw [← power]
    apply mul_le_mul <;> omega

theorem lookup_inBounds (size : Nat) (small : size ≤ 2 ^ 31) (request : IntegerSequenceRequest)
    (start : 0 ≤ request.startAt ∧ request.startAt < size)
    (finish : 0 ≤ request.endAt ∧ request.endAt < size) :
    ∃ result, 2 * result = request.endAt * (request.endAt + 1) - (request.startAt - 1) * request.startAt ∧
      lookup (precomputeTable (List.replicate size 0)) request =
        checkExpected .invalidArgument request result := by
  have length : (precomputeTable (List.replicate size 0)).length = size := by
    rw [precomputeTable_length, List.length_replicate]
  have within : ¬ (atLeastSize request.startAt size = true ∨ atLeastSize request.endAt size = true ∨
      request.startAt < 0 ∨ request.endAt < 0) := by
    rw [atLeastSize_false start.1 start.2 small, atLeastSize_false finish.1 finish.2 small]
    simp only [Bool.false_eq_true, false_or]
    omega
  have last := precomputeTable_entries size small request.endAt.toNat (by omega)
  rw [Int.toNat_of_nonneg finish.1] at last
  -- For 0 and for 1 the entry before the start is the first one.
  have before : 2 * (precomputeTable (List.replicate size 0)).getD
      ((if request.startAt = 0 then 1 else request.startAt) - 1).toNat 0 =
      (request.startAt - 1) * request.startAt := by
    split
    · rename_i zero
      rw [zero]
      exact precomputeTable_entries size small 0 (by omega)
    · have entry := precomputeTable_entries size small (request.startAt - 1).toNat (by omega)
      rw [entry, Int.toNat_of_nonneg (by omega)]
      ring
  have bounds := products_bounded request.startAt request.endAt (by omega) (by omega)
  refine ⟨(precomputeTable (List.replicate size 0)).getD request.endAt.toNat 0 -
    (precomputeTable (List.replicate size 0)).getD
      ((if request.startAt = 0 then 1 else request.startAt) - 1).toNat 0, by omega, ?_⟩
  simp only [lookup, length, within, if_false]
  rw [int64_ok (by constructor <;> omega)]
  rfl

/-! ### The client -/

theorem getExpectedSumResult_inBounds (sumStart sumEnd result : Int)
    (start : 0 ≤ sumStart ∧ sumStart < 2 ^ 31) (finish : 0 ≤ sumEnd ∧ sumEnd < 2 ^ 31)
    (double : 2 * result = sumEnd * (sumEnd + 1) - (sumStart - 1) * sumStart) :
    getExpectedSumResult sumStart sumEnd = .ok result := by
  have bounds := products_bounded sumStart sumEnd start finish
  have next : int64 (sumEnd + 1) = .ok (sumEnd + 1) := int64_ok (by constructor <;> omega)
  have previous : int64 (sumStart - 1) = .ok (sumStart - 1) := int64_ok (by constructor <;> omega)
  have above : int64 (sumEnd * (sumEnd + 1)) = .ok (sumEnd * (sumEnd + 1)) :=
    int64_ok (by constructor <;> omega)
  have below : int64 ((sumStart - 1) * sumStart) = .ok ((sumStart - 1) * sumStart) :=
    int64_ok (by constructor <;> omega)
  have difference : int64 (2 * result) = .ok (2 * result) := int64_ok (by constructor <;> omega)
  simp only [getExpectedSumResult, next, previous, above, below, bind, Except.bind, pure, Except.pure,
    ← double, difference, Int.mul_tdiv_cancel_left _ (by decide : (2 : Int) ≠ 0)]

theorem forLoop_result (request : IntegerSequenceRequest) (positive : 0 ≤ request.startAt)
    (small : request.endAt < 2 ^ 31) :
    (request.endAt < request.startAt → forLoop addInt64 request = .ok 0) ∧
      ∀ result, request.startAt ≤ request.endAt + 1 →
        2 * result = request.endAt * (request.endAt + 1) - (request.startAt - 1) * request.startAt →
        forLoop addInt64 request = .ok result := by
  have summed := forLoop_small request positive small
  constructor
  · intro reversed
    rw [summed, counted_reversed reversed, List.sum_nil]
  · intro result ordered double
    have total := sum_counted request.startAt request.endAt ordered
    have same : (request.endAt + 1 - request.startAt) * (request.startAt + request.endAt) =
        request.endAt * (request.endAt + 1) - (request.startAt - 1) * request.startAt := by ring
    have equal : (counted request.startAt request.endAt).sum = result := by omega
    rw [summed, equal]

theorem checkExpected_met (code : StatusCode) (request : IntegerSequenceRequest) (result : Int)
    (met : request.expectedResult = some result) : checkExpected code request result = .ok result := by
  simp [checkExpected, met]

theorem lookup_newLookupTable (request : IntegerSequenceRequest) :
    lookup newLookupTable request = .error (.status ⟨.invalidArgument, "Out of bounds"⟩) := by
  have large : atLeastSize request.startAt 0 = true :=
    decide_eq_true (Int.emod_nonneg request.startAt (by decide))
  simp [lookup, newLookupTable, large]

/-- If the server had fetched a table of up to 2³¹ entries: for bounds in the table it answers as the one
with the loop if the range is not reversed by more than one, whatever is expected. The table has the sum
that the client computes for every range; the loop has it only for those. As it is, the server has no
table and refuses. -/
theorem sums_agree (size : Nat) (small : size ≤ 2 ^ 31) (lookupTable : List Int)
    (fetched : lookupTable = precomputeTable (List.replicate size 0)) (request : IntegerSequenceRequest)
    (start : 0 ≤ request.startAt ∧ request.startAt < size)
    (finish : 0 ≤ request.endAt ∧ request.endAt < size) :
    (request.startAt ≤ request.endAt + 1 → lookup lookupTable request = monolithic request) ∧
    (∃ expected, getExpectedSumResult request.startAt request.endAt = .ok expected ∧
      (request.expectedResult = some expected →
        lookup lookupTable request = .ok expected ∧
        (monolithic request = .ok expected ↔ request.startAt ≤ request.endAt + 1))) ∧
    lookup newLookupTable request = .error (.status ⟨.invalidArgument, "Out of bounds"⟩) := by
  subst fetched
  rcases lookup_inBounds size small request start finish with ⟨result, double, answered⟩
  have computed := getExpectedSumResult_inBounds request.startAt request.endAt result (by omega) (by omega)
    double
  rcases forLoop_result request start.1 (by omega) with ⟨reversed, ordered⟩
  refine ⟨?_, ⟨result, computed, ?_⟩, lookup_newLookupTable request⟩
  · intro inOrder
    rw [answered, monolithic, ordered result inOrder double]
    rfl
  · intro met
    refine ⟨by rw [answered, checkExpected_met _ request result met], ?_⟩
    constructor
    · intro accepted
      by_contra later
      -- A sum of zero is not what the client expects of a reversed range.
      have negative : request.endAt * (request.endAt + 1) < (request.startAt - 1) * request.startAt := by
        nlinarith
      have nonzero : result ≠ 0 := by omega
      rw [monolithic, reversed (by omega)] at accepted
      simp [checkExpected, met, bind, Except.bind, nonzero] at accepted
    · intro inOrder
      rw [monolithic, ordered result inOrder double]
      exact checkExpected_met _ request result met

/-- The sum from 3 to 5, and the reversed range from 5 to 3. -/
theorem sums_agree_small :
    (lookup (precomputeTable (List.replicate 8 0)) ⟨3, 5, some 12, by decide, by decide⟩ =
      monolithic ⟨3, 5, some 12, by decide, by decide⟩) ∧
    ∃ expected, getExpectedSumResult 5 3 = .ok expected ∧ expected = -4 ∧
      lookup (precomputeTable (List.replicate 8 0)) ⟨5, 3, some (-4), by decide, by decide⟩ = .ok (-4) ∧
      monolithic ⟨5, 3, some (-4), by decide, by decide⟩ ≠ .ok (-4) := by
  have forwards := sums_agree 8 (by decide) _ rfl ⟨3, 5, some 12, by decide, by decide⟩ (by decide)
    (by decide)
  have backwards := sums_agree 8 (by decide) _ rfl ⟨5, 3, some (-4), by decide, by decide⟩ (by decide)
    (by decide)
  refine ⟨forwards.1 (by decide), ?_⟩
  rcases backwards.2.1 with ⟨expected, computed, accepted⟩
  have value : expected = -4 := by
    have evaluated : getExpectedSumResult 5 3 = .ok (-4) := rfl
    exact (Except.ok.inj (evaluated.symm.trans computed)).symm
  subst value
  rcases accepted rfl with ⟨found, looped⟩
  exact ⟨-4, computed, rfl, found, fun same => absurd (looped.mp same) (by decide)⟩

end EzSdk.Summation
