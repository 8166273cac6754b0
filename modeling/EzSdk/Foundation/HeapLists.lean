import Mathlib.Data.List.Basic

/-! Lookups in lists that grow at the end and change in place, as models of heaps. -/

namespace EzSdk.HeapLists

variable {Item : Type}

theorem getElem?_set_some (items : List Item) (index other : Nat)
    (item changed found : Item) (present : items[index]? = some item) :
    (items.set index changed)[other]? = some found ↔
      (other = index ∧ found = changed) ∨ (other ≠ index ∧ items[other]? = some found) := by
  have bound : index < items.length := (List.getElem?_eq_some_iff.mp present).1
  rw [List.getElem?_set]
  by_cases same : index = other
  · subst same
    simp [bound, eq_comm]
  · have different : other ≠ index := fun equal => same equal.symm
    simp [same, different]

/-- An item other than the one that is replaced stays. -/
theorem eq_or_mem_set (items : List Item) (index : Nat) (item changed other : Item)
    (present : items[index]? = some item) (member : other ∈ items) :
    other = item ∨ other ∈ items.set index changed := by
  obtain ⟨position, at_position⟩ := List.mem_iff_getElem?.mp member
  by_cases here : position = index
  · subst here
    exact .inl (Option.some.inj (at_position.symm.trans present))
  · right
    exact List.mem_of_getElem? ((getElem?_set_some items index position item changed other present).mpr
      (.inr ⟨here, at_position⟩))

/-- The item that replaces another one is there. -/
theorem mem_set_of_present (items : List Item) (index : Nat) (item changed : Item)
    (present : items[index]? = some item) : changed ∈ items.set index changed :=
  List.mem_set (List.getElem?_eq_some_iff.mp present).1 changed

theorem map_set_same {View : Type} (view : Item → View) (items : List Item) (index : Nat)
    (item changed : Item) (present : items[index]? = some item) (same : view changed = view item) :
    (items.set index changed).map view = items.map view := by
  have unchanged : (items.map view)[index]? = some (view item) := by simp [present]
  obtain ⟨bound, stored⟩ := List.getElem?_eq_some_iff.mp unchanged
  rw [List.map_set, same, ← stored, List.set_getElem_self]

theorem getElem?_append_one (items : List Item) (last found : Item) (index : Nat) :
    (items ++ [last])[index]? = some found ↔
      items[index]? = some found ∨ (index = items.length ∧ found = last) := by
  rcases Nat.lt_trichotomy index items.length with before | same | after
  · rw [List.getElem?_append_left before]
    constructor
    · exact .inl
    · rintro (present | ⟨equal, _⟩)
      · exact present
      · omega
  · subst same
    simp [eq_comm]
  · have outside : items[index]? = none := List.getElem?_eq_none (Nat.le_of_lt after)
    have beyond : (items ++ [last])[index]? = none := by
      apply List.getElem?_eq_none
      simp only [List.length_append, List.length_singleton]
      omega
    rw [outside, beyond]
    constructor
    · intro absurd
      cases absurd
    · rintro (absurd | ⟨equal, _⟩)
      · cases absurd
      · omega

/-- What replacing one item does to the number of occurrences of any item. -/
theorem count_set [DecidableEq Item] (items : List Item) (index : Nat) (item changed counted : Item)
    (present : items[index]? = some item) :
    (items.set index changed).count counted + (if item = counted then 1 else 0) =
      items.count counted + (if changed = counted then 1 else 0) := by
  induction items generalizing index with
  | nil => simp at present
  | cons head tail ih =>
    cases index with
    | zero =>
      have same : head = item := by simpa using present
      subst same
      simp only [List.set_cons_zero, List.count_cons, beq_iff_eq]
      omega
    | succ index =>
      have later := ih index (by simpa using present)
      simp only [List.set_cons_succ, List.count_cons]
      omega

/-- The same for what is seen of the items. -/
theorem count_map_set {View : Type} [DecidableEq View] (view : Item → View) (items : List Item)
    (index : Nat) (item changed : Item) (counted : View) (present : items[index]? = some item) :
    ((items.set index changed).map view).count counted + (if view item = counted then 1 else 0) =
      (items.map view).count counted + (if view changed = counted then 1 else 0) := by
  have seen : (items.map view)[index]? = some (view item) := by simp [present]
  rw [List.map_set]
  exact count_set (items.map view) index (view item) (view changed) counted seen

end EzSdk.HeapLists
