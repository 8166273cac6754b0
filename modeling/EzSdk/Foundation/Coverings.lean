import Mathlib.Order.Antichain
import Mathlib.Order.UpperLower.Closure

/-! The elements of a finite set in a partial order that have no other element of the set below
them: they are the only part of the set that has something below each element and nothing
twice. -/

namespace EzSdk.Coverings

variable {Element : Type} [PartialOrder Element]

/-- The kept elements of a set: none is below another, and each element has one below it. -/
structure MinimalCover (kept all : Set Element) : Prop where
  subset : kept ⊆ all
  antichain : IsAntichain (· ≤ ·) kept
  covers : ∀ element ∈ all, ∃ below ∈ kept, below ≤ element

variable {kept other all more : Set Element}

/-- What has a kept element below it, and that element another one, is kept itself. -/
theorem MinimalCover.mem_of_mem (cover : MinimalCover kept all) (second : MinimalCover other all)
    {element : Element} (member : element ∈ kept) : element ∈ other := by
  obtain ⟨below, inOther, belowElement⟩ := second.covers element (cover.subset member)
  obtain ⟨lowest, inKept, belowBelow⟩ := cover.covers below (second.subset inOther)
  have same : lowest = element :=
    cover.antichain.eq inKept member (belowBelow.trans belowElement)
  have equal : below = element := le_antisymm belowElement (same ▸ belowBelow)
  exact equal ▸ inOther

theorem MinimalCover.unique (cover : MinimalCover kept all) (second : MinimalCover other all) :
    kept = other :=
  Set.Subset.antisymm (fun _ => cover.mem_of_mem second) (fun _ => second.mem_of_mem cover)

/-- The same lies above the kept elements as above all. -/
theorem MinimalCover.upperClosure_eq (cover : MinimalCover kept all) :
    upperClosure kept = upperClosure all := by
  ext element
  simp only [SetLike.mem_coe, mem_upperClosure]
  constructor
  · rintro ⟨below, member, isBelow⟩
    exact ⟨below, cover.subset member, isBelow⟩
  · rintro ⟨below, member, isBelow⟩
    obtain ⟨lowest, inKept, belowBelow⟩ := cover.covers below member
    exact ⟨lowest, inKept, belowBelow.trans isBelow⟩

theorem MinimalCover.refl_of_antichain (antichain : IsAntichain (· ≤ ·) kept) : MinimalCover kept kept :=
  ⟨Set.Subset.rfl, antichain, fun element member => ⟨element, member, le_refl element⟩⟩

/-- What is kept of the kept elements of two sets is what is kept of both sets. -/
theorem MinimalCover.union {first second : Set Element} (ofFirst : MinimalCover first all)
    (ofSecond : MinimalCover second more) (cover : MinimalCover kept (first ∪ second)) :
    MinimalCover kept (all ∪ more) := by
  refine ⟨?_, cover.antichain, ?_⟩
  · exact cover.subset.trans (Set.union_subset_union ofFirst.subset ofSecond.subset)
  · have above {part whole : Set Element} (ofPart : MinimalCover part whole)
        (inside : part ⊆ first ∪ second) (element : Element) (member : element ∈ whole) :
        ∃ below ∈ kept, below ≤ element := by
      obtain ⟨middle, inPart, isBelow⟩ := ofPart.covers element member
      obtain ⟨below, inKept, belowMiddle⟩ := cover.covers middle (inside inPart)
      exact ⟨below, inKept, belowMiddle.trans isBelow⟩
    intro element member
    cases member with
    | inl inAll => exact above ofFirst Set.subset_union_left element inAll
    | inr inMore => exact above ofSecond Set.subset_union_right element inMore

/-! ### Keeping elements one by one -/

section Insertion

variable [DecidableLE Element]

/-- Keep an element if nothing kept is below it, instead of what is above it. -/
def insertMinimal (minimal : List Element) (element : Element) : List Element :=
  if minimal.any (· ≤ element) then minimal
  else minimal.filter (fun kept => ¬ element ≤ kept) ++ [element]

theorem mem_insertMinimal {minimal : List Element} {element other : Element}
    (lowest : ∀ kept ∈ minimal, ¬ kept ≤ element) :
    other ∈ insertMinimal minimal element ↔ other ∈ minimal ∧ ¬ element ≤ other ∨ other = element := by
  have nothing : minimal.any (· ≤ element) = false := by simpa using lowest
  simp [insertMinimal, nothing]

theorem minimalCover_insert {minimal : List Element} (element : Element)
    (cover : MinimalCover {kept | kept ∈ minimal} all) :
    MinimalCover {kept | kept ∈ insertMinimal minimal element} (insert element all) := by
  by_cases covered : ∃ kept ∈ minimal, kept ≤ element
  · have unchanged : insertMinimal minimal element = minimal :=
      if_pos (List.any_eq_true.mpr (by simpa using covered))
    rw [unchanged]
    refine ⟨cover.subset.trans (Set.subset_insert element all), cover.antichain, ?_⟩
    intro other member
    cases member with
    | inl same => exact same ▸ covered
    | inr old => exact cover.covers other old
  · have lowest : ∀ kept ∈ minimal, ¬ kept ≤ element := fun kept member below =>
      covered ⟨kept, member, below⟩
    simp only [mem_insertMinimal lowest]
    constructor
    · rintro kept (⟨old, _⟩ | same)
      · exact Set.mem_insert_of_mem element (cover.subset old)
      · exact same ▸ Set.mem_insert element all
    · rintro left (⟨inLeft, notAbove⟩ | rfl) right (⟨inRight, _⟩ | rfl) different below
      · exact cover.antichain inLeft inRight different below
      · exact lowest left inLeft below
      · rename_i notAbove
        exact notAbove below
      · exact different rfl
    · intro other member
      cases member with
      | inl same => exact ⟨element, .inr rfl, same ▸ le_refl element⟩
      | inr old =>
        obtain ⟨kept, inMinimal, below⟩ := cover.covers other old
        by_cases above : element ≤ kept
        · exact ⟨element, .inr rfl, above.trans below⟩
        · exact ⟨kept, .inl ⟨inMinimal, above⟩, below⟩

/-- In whatever order the elements are taken, the minimal ones are kept. -/
theorem minimalCover_foldl (elements : List Element) {minimal : List Element}
    (cover : MinimalCover {kept | kept ∈ minimal} all) :
    MinimalCover {kept | kept ∈ elements.foldl insertMinimal minimal}
      ({element | element ∈ elements} ∪ all) := by
  induction elements generalizing minimal all with
  | nil => simpa using cover
  | cons element elements ih =>
    have rest := ih (minimalCover_insert element cover)
    have same : {other | other ∈ element :: elements} ∪ all =
        {other | other ∈ elements} ∪ insert element all := by
      ext other
      simp only [Set.mem_union, Set.mem_ofPred_eq, List.mem_cons, Set.mem_insert_iff]
      tauto
    rw [same]
    exact rest

theorem minimalCover_of_list (elements : List Element) :
    MinimalCover {kept | kept ∈ elements.foldl insertMinimal []} {element | element ∈ elements} := by
  have empty : MinimalCover {kept | kept ∈ ([] : List Element)} ∅ :=
    ⟨fun _ absent => absurd absent List.not_mem_nil, fun _ absent => absurd absent List.not_mem_nil,
      fun _ absent => absurd absent (Set.notMem_empty _)⟩
  simpa using minimalCover_foldl elements empty

end Insertion

end EzSdk.Coverings
