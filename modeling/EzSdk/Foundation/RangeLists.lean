import Mathlib.Data.List.Basic
import Mathlib.Order.SuccPred.Basic

/-! Lists of closed ranges of a linear order. A list whose ranges are in order and have gaps between
them is determined by the points that it covers. -/

namespace EzSdk.RangeLists

variable {Point : Type} [LinearOrder Point]

/-- The point is in a range of the list. -/
def Covers (ranges : List (Point × Point)) (point : Point) : Prop :=
  ∃ range ∈ ranges, range.1 ≤ point ∧ point ≤ range.2

theorem covers_cons (range : Point × Point) (ranges : List (Point × Point)) (point : Point) :
    Covers (range :: ranges) point ↔ (range.1 ≤ point ∧ point ≤ range.2) ∨ Covers ranges point :=
  List.exists_mem_cons_iff _ _ _

theorem not_covers_nil (point : Point) : ¬ Covers [] point := by
  simp [Covers]

variable [SuccOrder Point]

/-- Some point lies between the end of the range and the start of the next. -/
def Apart (range next : Point × Point) : Prop := Order.succ range.2 < next.1

structure Canonical (ranges : List (Point × Point)) : Prop where
  ordered : ∀ range ∈ ranges, range.1 ≤ range.2
  apart : ranges.Pairwise Apart

variable {range other : Point × Point} {ranges others : List (Point × Point)}

theorem canonical_cons (ordered : range.1 ≤ range.2) (apart : ∀ next ∈ ranges, Apart range next)
    (canonical : Canonical ranges) : Canonical (range :: ranges) :=
  ⟨List.forall_mem_cons.mpr ⟨ordered, canonical.ordered⟩, List.pairwise_cons.mpr ⟨apart, canonical.apart⟩⟩

theorem Canonical.tail (canonical : Canonical (range :: ranges)) : Canonical ranges :=
  ⟨(List.forall_mem_cons.mp canonical.ordered).2, (List.pairwise_cons.mp canonical.apart).2⟩

theorem Canonical.head_ordered (canonical : Canonical (range :: ranges)) : range.1 ≤ range.2 :=
  canonical.ordered range List.mem_cons_self

theorem Canonical.covers_start (canonical : Canonical (range :: ranges)) :
    Covers (range :: ranges) range.1 :=
  ⟨range, List.mem_cons_self, le_refl _, canonical.head_ordered⟩

/-- What the later ranges cover lies behind the first, and a gap is between them. -/
theorem Canonical.succ_lt (canonical : Canonical (range :: ranges)) {point : Point}
    (later : Covers ranges point) : Order.succ range.2 < point := by
  obtain ⟨next, member, start, _⟩ := later
  have apart : Apart range next := (List.pairwise_cons.mp canonical.apart).1 next member
  exact lt_of_lt_of_le apart start

theorem Canonical.start_le (canonical : Canonical (range :: ranges)) {point : Point}
    (covered : Covers (range :: ranges) point) : range.1 ≤ point := by
  cases (covers_cons _ _ _).mp covered with
  | inl inside => exact inside.1
  | inr later =>
    calc range.1 ≤ range.2 := canonical.head_ordered
      _ ≤ Order.succ range.2 := Order.le_succ _
      _ ≤ point := (canonical.succ_lt later).le

theorem Canonical.covers_tail_iff (canonical : Canonical (range :: ranges)) (point : Point) :
    Covers ranges point ↔ Covers (range :: ranges) point ∧ range.2 < point := by
  rw [covers_cons]
  constructor
  · intro later
    exact ⟨.inr later, lt_of_le_of_lt (Order.le_succ _) (canonical.succ_lt later)⟩
  · intro ⟨covered, behind⟩
    cases covered with
    | inl inside => exact absurd inside.2 (not_le.mpr behind)
    | inr later => exact later

section Same

variable (canonical : Canonical (range :: ranges)) (otherCanonical : Canonical (other :: others))
  (same : ∀ point, Covers (range :: ranges) point ↔ Covers (other :: others) point)

include canonical otherCanonical same

theorem start_eq : range.1 = other.1 := by
  apply le_antisymm
  · exact canonical.start_le ((same _).mpr otherCanonical.covers_start)
  · exact otherCanonical.start_le ((same _).mp canonical.covers_start)

/-- A first range that ended earlier would leave the point after it uncovered. -/
theorem stop_le : other.2 ≤ range.2 := by
  by_contra longer
  have behind : range.2 < other.2 := not_le.mp longer
  have next : range.2 < Order.succ range.2 := Order.lt_succ_of_not_isMax (not_isMax_of_lt behind)
  have fromStart : other.1 ≤ Order.succ range.2 :=
    calc other.1 = range.1 := (start_eq canonical otherCanonical same).symm
      _ ≤ range.2 := canonical.head_ordered
      _ ≤ Order.succ range.2 := next.le
  have covered := (same (Order.succ range.2)).mpr
    ⟨other, List.mem_cons_self, fromStart, Order.succ_le_of_lt behind⟩
  cases (covers_cons _ _ _).mp covered with
  | inl inside => exact absurd inside.2 (not_le.mpr next)
  | inr later => exact lt_irrefl _ (canonical.succ_lt later)

end Same

/-- Two canonical lists that cover the same points are equal. -/
theorem canonical_unique (canonical : Canonical ranges) (otherCanonical : Canonical others)
    (same : ∀ point, Covers ranges point ↔ Covers others point) : ranges = others := by
  induction ranges generalizing others with
  | nil =>
    cases others with
    | nil => rfl
    | cons other others =>
      exact absurd ((same other.1).mpr otherCanonical.covers_start) (not_covers_nil _)
  | cons range ranges ih =>
    cases others with
    | nil => exact absurd ((same range.1).mp canonical.covers_start) (not_covers_nil _)
    | cons other others =>
      have starts := start_eq canonical otherCanonical same
      have stops : range.2 = other.2 :=
        le_antisymm (stop_le otherCanonical canonical fun point => (same point).symm)
          (stop_le canonical otherCanonical same)
      have tails : ∀ point, Covers ranges point ↔ Covers others point := by
        intro point
        rw [canonical.covers_tail_iff, otherCanonical.covers_tail_iff, same, stops]
      rw [Prod.ext starts stops, ih canonical.tail otherCanonical.tail tails]

end EzSdk.RangeLists
