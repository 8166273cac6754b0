import Mathlib.Data.List.Basic
import Mathlib.Order.Bounds.Basic

/-! Collecting all that can be found from a start: what is found is kept once, and what can be
searched itself is put at the end of a queue. -/

namespace EzSdk.Discovery

variable {Item : Type}

structure Search (Item : Type) where
  found : List Item
  queue : List Item

section Definitions

variable [DecidableEq Item]

/-- Keep an item that is new. -/
def add (searchable : Item → Bool) (search : Search Item) (item : Item) : Search Item :=
  if item ∈ search.found then search
  else ⟨item :: search.found, if searchable item then search.queue ++ [item] else search.queue⟩

/-- Search the items of the queue, for a number of turns. -/
def loop (targets : Item → List Item) (searchable : Item → Bool) :
    Nat → List Item → Search Item → Option (List Item)
  | 0, _, _ => none
  | _ + 1, _, ⟨found, []⟩ => some found
  | turns + 1, searched, ⟨found, item :: queue⟩ =>
    if item ∈ searched then loop targets searchable turns searched ⟨found, queue⟩
    else loop targets searchable turns (item :: searched)
      ((targets item).foldl (add searchable) ⟨found, queue⟩)

end Definitions

/-- What is found from the start, or from something searchable that was found. -/
inductive Reached (targets : Item → List Item) (searchable : Item → Bool) (start : Item) :
    Item → Prop where
  | first {item : Item} (target : item ∈ targets start) : Reached targets searchable start item
  | next {item other : Item} (reached : Reached targets searchable start item)
      (opens : searchable item = true) (target : other ∈ targets item) :
      Reached targets searchable start other

/-- The set has all that is found from the start and from what is searchable in it. -/
structure Closed (targets : Item → List Item) (searchable : Item → Bool) (start : Item)
    (items : Set Item) : Prop where
  first : ∀ item ∈ targets start, item ∈ items
  next : ∀ item ∈ items, searchable item = true → ∀ other ∈ targets item, other ∈ items

variable {targets : Item → List Item} {searchable : Item → Bool} {start : Item}

theorem reached_isLeast :
    IsLeast {items | Closed targets searchable start items}
      {item | Reached targets searchable start item} := by
  constructor
  · exact ⟨fun item target => .first target, fun item reached opens other target =>
      .next reached opens target⟩
  · intro items closed item reached
    induction reached with
    | first target => exact closed.first _ target
    | next _ opens target ih => exact closed.next _ ih opens _ target

/-! ### Adding items -/

variable [DecidableEq Item]

theorem mem_found_add (search : Search Item) (item other : Item) :
    other ∈ (add searchable search item).found ↔ other = item ∨ other ∈ search.found := by
  unfold add
  split
  · rename_i old
    constructor
    · exact .inr
    · intro either
      rcases either with rfl | seen
      · exact old
      · exact seen
  · exact List.mem_cons

theorem mem_found_foldl (items : List Item) (search : Search Item) (other : Item) :
    other ∈ (items.foldl (add searchable) search).found ↔ other ∈ items ∨ other ∈ search.found := by
  induction items generalizing search with
  | nil => simp
  | cons item items ih =>
    rw [List.foldl_cons, ih, mem_found_add, List.mem_cons]
    constructor
    · rintro (later | rfl | seen)
      · exact .inl (.inr later)
      · exact .inl (.inl rfl)
      · exact .inr seen
    · rintro ((rfl | later) | seen)
      · exact .inr (.inl rfl)
      · exact .inl later
      · exact .inr (.inr seen)

theorem mem_queue_add (search : Search Item) (item other : Item) :
    other ∈ (add searchable search item).queue ↔ other ∈ search.queue ∨
      other = item ∧ item ∉ search.found ∧ searchable item = true := by
  unfold add
  split
  · rename_i old
    simp [old]
  · rename_i fresh
    cases opens : searchable item with
    | true => simp [fresh]
    | false => simp

theorem queue_foldl_of_mem {items : List Item} {search : Search Item} {other : Item}
    (queued : other ∈ search.queue) : other ∈ (items.foldl (add searchable) search).queue := by
  induction items generalizing search with
  | nil => exact queued
  | cons item items ih => exact ih ((mem_queue_add search item other).mpr (.inl queued))

/-- What is in the queue after some items are added was there, or is a searchable one of them. -/
theorem mem_queue_foldl {items : List Item} {search : Search Item} {other : Item}
    (member : other ∈ (items.foldl (add searchable) search).queue) :
    other ∈ search.queue ∨ other ∈ items ∧ searchable other = true := by
  induction items generalizing search with
  | nil => exact .inl member
  | cons item items ih =>
    rcases ih member with queued | ⟨later, opens⟩
    · rcases (mem_queue_add search item other).mp queued with old | ⟨rfl, _, opens⟩
      · exact .inl old
      · exact .inr ⟨List.mem_cons_self, opens⟩
    · exact .inr ⟨List.mem_cons_of_mem item later, opens⟩

/-- Whatever is searchable and found is in the queue, or was searched. -/
def Pending (searchable : Item → Bool) (searched : List Item) (search : Search Item) : Prop :=
  ∀ item ∈ search.found, searchable item = true → item ∈ search.queue ∨ item ∈ searched

theorem pending_add {searched : List Item} {search : Search Item} (item : Item)
    (pending : Pending searchable searched search) :
    Pending searchable searched (add searchable search item) := by
  intro other found opens
  rw [mem_queue_add]
  by_cases old : other ∈ search.found
  · rcases pending other old opens with queued | done
    · exact .inl (.inl queued)
    · exact .inr done
  · have same := ((mem_found_add search item other).mp found).resolve_right old
    exact .inl (.inr ⟨same, same ▸ old, same ▸ opens⟩)

theorem pending_foldl {searched : List Item} {search : Search Item} (items : List Item)
    (pending : Pending searchable searched search) :
    Pending searchable searched (items.foldl (add searchable) search) := by
  induction items generalizing search with
  | nil => exact pending
  | cons item items ih => exact ih (pending_add item pending)

/-! ### The loop -/

/-- The state of a search from a start. -/
structure Sound (targets : Item → List Item) (searchable : Item → Bool) (start : Item)
    (searched : List Item) (search : Search Item) : Prop where
  found : ∀ item ∈ search.found, Reached targets searchable start item
  queue : ∀ item ∈ search.queue, item = start ∨
    Reached targets searchable start item ∧ searchable item = true
  begun : start ∈ search.queue ∨ start ∈ searched
  opened : ∀ item ∈ searched, ∀ other ∈ targets item, other ∈ search.found
  pending : Pending searchable searched search

omit [DecidableEq Item] in
theorem sound_start : Sound targets searchable start [] ⟨[], [start]⟩ where
  found _ absent := absurd absent List.not_mem_nil
  queue _ member := .inl (List.mem_singleton.mp member)
  begun := .inl List.mem_cons_self
  opened _ absent := absurd absent List.not_mem_nil
  pending _ absent := absurd absent List.not_mem_nil

omit [DecidableEq Item] in
/-- The first item of the queue was searched before. -/
theorem sound_skip {searched found queue : List Item} {item : Item}
    (sound : Sound targets searchable start searched ⟨found, item :: queue⟩)
    (old : item ∈ searched) : Sound targets searchable start searched ⟨found, queue⟩ where
  found := sound.found
  queue other member := sound.queue other (List.mem_cons_of_mem item member)
  begun := by
    rcases sound.begun with queued | done
    · rcases List.mem_cons.mp queued with rfl | later
      · exact .inr old
      · exact .inl later
    · exact .inr done
  opened := sound.opened
  pending := by
    intro other found opens
    rcases sound.pending other found opens with queued | done
    · rcases List.mem_cons.mp queued with rfl | later
      · exact .inr old
      · exact .inl later
    · exact .inr done

omit [DecidableEq Item] in
theorem Sound.reached {searched found queue : List Item} {item other : Item}
    (sound : Sound targets searchable start searched ⟨found, item :: queue⟩)
    (target : other ∈ targets item) : Reached targets searchable start other := by
  rcases sound.queue item List.mem_cons_self with rfl | ⟨reached, opens⟩
  · exact .first target
  · exact .next reached opens target

/-- The first item of the queue is searched. -/
theorem sound_search {searched found queue : List Item} {item : Item}
    (sound : Sound targets searchable start searched ⟨found, item :: queue⟩) :
    Sound targets searchable start (item :: searched)
      ((targets item).foldl (add searchable) ⟨found, queue⟩) := by
  constructor
  · intro other member
    rcases (mem_found_foldl _ _ _).mp member with target | old
    · exact sound.reached target
    · exact sound.found other old
  · intro other member
    rcases mem_queue_foldl member with queued | ⟨target, opens⟩
    · exact sound.queue other (List.mem_cons_of_mem item queued)
    · exact .inr ⟨sound.reached target, opens⟩
  · rcases sound.begun with queued | done
    · rcases List.mem_cons.mp queued with rfl | later
      · exact .inr List.mem_cons_self
      · exact .inl (queue_foldl_of_mem later)
    · exact .inr (List.mem_cons_of_mem item done)
  · intro done member other target
    rw [mem_found_foldl]
    rcases List.mem_cons.mp member with rfl | old
    · exact .inl target
    · exact .inr (sound.opened done old other target)
  · apply pending_foldl
    intro other member opens
    rcases sound.pending other member opens with queued | done
    · rcases List.mem_cons.mp queued with rfl | later
      · exact .inr List.mem_cons_self
      · exact .inl later
    · exact .inr (List.mem_cons_of_mem item done)

omit [DecidableEq Item] in
/-- When the queue is empty, all has been found. -/
theorem found_iff_reached {searched found : List Item}
    (sound : Sound targets searchable start searched ⟨found, []⟩) (item : Item) :
    item ∈ found ↔ Reached targets searchable start item := by
  constructor
  · exact sound.found item
  · intro reached
    induction reached with
    | first target =>
      exact sound.opened start (sound.begun.resolve_left List.not_mem_nil) _ target
    | next _ opens target ih =>
      exact sound.opened _ ((sound.pending _ ih opens).resolve_left List.not_mem_nil) _ target

theorem loop_reached (turns : Nat) {searched : List Item} {search : Search Item} {result : List Item}
    (sound : Sound targets searchable start searched search)
    (ended : loop targets searchable turns searched search = some result) (item : Item) :
    item ∈ result ↔ Reached targets searchable start item := by
  induction turns generalizing searched search with
  | zero => cases ended
  | succ turns ih =>
    obtain ⟨found, queue⟩ := search
    cases queue with
    | nil =>
      cases ended
      exact found_iff_reached sound item
    | cons first queue =>
      rw [loop] at ended
      split at ended
      · rename_i old
        exact ih (sound_skip sound old) ended
      · exact ih (sound_search sound) ended

/-! ### The end of the loop -/

/-- The turns that are left, when only some items are searchable. -/
def effort (items : List Item) (search : Search Item) : Nat :=
  search.queue.length + (items.filter (· ∉ search.found)).length

theorem effort_add {items : List Item} (search : Search Item) {item : Item}
    (known : searchable item = true → item ∈ items) :
    effort items (add searchable search item) ≤ effort items search := by
  unfold add
  split
  · exact Nat.le_refl _
  · rename_i fresh
    have remaining : items.filter (· ∉ item :: search.found) =
        (items.filter (· ∉ search.found)).filter (· ≠ item) := by
      rw [List.filter_filter]
      apply List.filter_congr
      intro other _
      simp only [List.mem_cons, not_or, Bool.decide_and]
    cases opens : searchable item with
    | true =>
      have unseen : item ∈ items.filter (· ∉ search.found) :=
        List.mem_filter.mpr ⟨known opens, decide_eq_true fresh⟩
      have shorter : ((items.filter (· ∉ search.found)).filter (· ≠ item)).length <
          (items.filter (· ∉ search.found)).length :=
        List.length_filter_lt_length_iff_exists.mpr ⟨item, unseen, by simp⟩
      simp only [effort, remaining, if_true, List.length_append, List.length_singleton]
      omega
    | false =>
      have shorter : ((items.filter (· ∉ search.found)).filter (· ≠ item)).length ≤
          (items.filter (· ∉ search.found)).length := List.length_filter_le _ _
      simp only [effort, remaining, Bool.false_eq_true, if_false]
      omega

theorem effort_foldl {items others : List Item} (search : Search Item)
    (known : ∀ other ∈ others, searchable other = true → other ∈ items) :
    effort items (others.foldl (add searchable) search) ≤ effort items search := by
  induction others generalizing search with
  | nil => exact Nat.le_refl _
  | cons other others ih =>
    have first := effort_add search (known other List.mem_cons_self)
    have rest := ih (add searchable search other)
      (fun later member => known later (List.mem_cons_of_mem other member))
    exact Nat.le_trans rest first

/-- If what is reached and searchable is among finitely many items, the loop ends. -/
theorem loop_ends {items : List Item}
    (known : ∀ item, Reached targets searchable start item → searchable item = true → item ∈ items)
    (turns : Nat) {searched : List Item} {search : Search Item}
    (sound : Sound targets searchable start searched search) (enough : effort items search < turns) :
    ∃ result, loop targets searchable turns searched search = some result := by
  induction turns generalizing searched search with
  | zero => exact absurd enough (Nat.not_lt_zero _)
  | succ turns ih =>
    obtain ⟨found, queue⟩ := search
    cases queue with
    | nil => exact ⟨found, rfl⟩
    | cons item queue =>
      have popped : effort items ⟨found, queue⟩ < turns := by
        simp only [effort, List.length_cons] at enough ⊢
        omega
      have bounded := effort_foldl ⟨found, queue⟩
        (fun other target opens => known other (sound.reached target) opens)
      rw [loop]
      split
      · rename_i old
        exact ih (sound_skip sound old) popped
      · exact ih (sound_search sound) (Nat.lt_of_le_of_lt bounded popped)

end EzSdk.Discovery
