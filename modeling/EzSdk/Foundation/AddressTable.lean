import EzSdk.Foundation.HeapLists
import Mathlib.Logic.Function.Basic

/-! Objects at reusable addresses, the handles they claim under a key, and a table
from keys and addresses to handles. An object that is released leaves its entry in
the table. -/

namespace EzSdk.AddressTable

open HeapLists

variable {Key : Type}

/-- An object with the key and the handle that it has claimed, if any. -/
structure Resident (Key : Type) where
  address : Nat
  alive : Bool
  handle : Option (Key × Nat)

/-- Objects and handles are named by their positions; a handle remembers the object
that claimed it, and the key. -/
structure Heap (Key : Type) where
  residents : List (Resident Key)
  handles : List (Nat × Key)
  table : Key → Nat → Option Nat

/-- The heap after an object has claimed a new handle. -/
def Heap.claim [DecidableEq Key] (heap : Heap Key) (index : Nat) (resident : Resident Key)
    (key : Key) : Heap Key where
  residents := heap.residents.set index { resident with handle := some (key, heap.handles.length) }
  handles := heap.handles ++ [(index, key)]
  table := Function.update heap.table key
    (Function.update (heap.table key) resident.address (some heap.handles.length))

inductive TableStep [DecidableEq Key] (heap : Heap Key) : Heap Key → Prop where
  | idle : TableStep heap heap
  | allocate (address : Nat)
      (vacant : ∀ resident ∈ heap.residents, resident.alive = true → resident.address ≠ address) :
      TableStep heap { heap with residents := heap.residents ++ [⟨address, true, none⟩] }
  | release (index : Nat) (resident : Resident Key)
      (present : heap.residents[index]? = some resident) :
      TableStep heap
        { heap with residents := heap.residents.set index { resident with alive := false } }
  | claim (index : Nat) (resident : Resident Key) (key : Key)
      (present : heap.residents[index]? = some resident) (alive : resident.alive = true)
      (fresh : resident.handle = none) :
      TableStep heap (heap.claim index resident key)

/-- What holds of every heap: live objects have their addresses to themselves, each
handle belongs to the object that holds it, an entry was made at the address of its
handle's owner, and the entry of a live object is its own. -/
structure Owned (heap : Heap Key) : Prop where
  distinct : ∀ (left right : Nat) (first second : Resident Key),
    heap.residents[left]? = some first → heap.residents[right]? = some second →
    first.alive = true → second.alive = true → first.address = second.address → left = right
  claimed : ∀ (handle owner : Nat) (key : Key), heap.handles[handle]? = some (owner, key) ↔
    ∃ resident, heap.residents[owner]? = some resident ∧ resident.handle = some (key, handle)
  entry : ∀ (key : Key) (address handle : Nat), heap.table key address = some handle →
    ∃ owner resident, heap.handles[handle]? = some (owner, key) ∧
      heap.residents[owner]? = some resident ∧ resident.address = address
  held : ∀ (index handle : Nat) (resident : Resident Key) (key : Key),
    heap.residents[index]? = some resident → resident.alive = true →
    resident.handle = some (key, handle) → heap.table key resident.address = some handle

theorem owned_empty : Owned (⟨[], [], fun _ _ => none⟩ : Heap Key) := by
  constructor <;> simp

theorem owned_allocate (heap : Heap Key) (address : Nat) (owned : Owned heap)
    (vacant : ∀ resident ∈ heap.residents, resident.alive = true → resident.address ≠ address) :
    Owned { heap with residents := heap.residents ++ [⟨address, true, none⟩] } := by
  constructor
  · intro left right first second leftAt rightAt firstAlive secondAlive same
    rcases (getElem?_append_one _ _ _ _).mp leftAt with leftOld | ⟨leftNew, rfl⟩ <;>
      rcases (getElem?_append_one _ _ _ _).mp rightAt with rightOld | ⟨rightNew, rfl⟩
    · exact owned.distinct left right first second leftOld rightOld firstAlive secondAlive same
    · exact absurd same (vacant first (List.mem_of_getElem? leftOld) firstAlive)
    · exact absurd same.symm (vacant second (List.mem_of_getElem? rightOld) secondAlive)
    · exact leftNew.trans rightNew.symm
  · intro handle owner key
    rw [owned.claimed]
    constructor
    · rintro ⟨resident, present, holds⟩
      exact ⟨resident, (getElem?_append_one _ _ _ _).mpr (.inl present), holds⟩
    · rintro ⟨resident, present, holds⟩
      rcases (getElem?_append_one _ _ _ _).mp present with old | ⟨_, rfl⟩
      · exact ⟨resident, old, holds⟩
      · cases holds
  · intro key place handle found
    obtain ⟨owner, resident, stored, present, at_address⟩ := owned.entry key place handle found
    exact ⟨owner, resident, stored, (getElem?_append_one _ _ _ _).mpr (.inl present), at_address⟩
  · intro index handle resident key present alive holds
    rcases (getElem?_append_one _ _ _ _).mp present with old | ⟨_, rfl⟩
    · exact owned.held index handle resident key old alive holds
    · cases holds

theorem owned_release (heap : Heap Key) (index : Nat) (resident : Resident Key)
    (present : heap.residents[index]? = some resident) (owned : Owned heap) :
    Owned { heap with residents := heap.residents.set index { resident with alive := false } } := by
  have lookup := fun other found => getElem?_set_some heap.residents index other resident
    { resident with alive := false } found present
  constructor
  · intro left right first second leftAt rightAt firstAlive secondAlive same
    rcases (lookup left first).mp leftAt with ⟨_, rfl⟩ | ⟨_, leftOld⟩
    · cases firstAlive
    rcases (lookup right second).mp rightAt with ⟨_, rfl⟩ | ⟨_, rightOld⟩
    · cases secondAlive
    exact owned.distinct left right first second leftOld rightOld firstAlive secondAlive same
  · intro handle owner key
    rw [owned.claimed]
    constructor
    · rintro ⟨holder, stored, holds⟩
      by_cases same : owner = index
      · subst same
        cases Option.some.inj (present.symm.trans stored)
        exact ⟨_, (lookup owner _).mpr (.inl ⟨rfl, rfl⟩), holds⟩
      · exact ⟨holder, (lookup owner holder).mpr (.inr ⟨same, stored⟩), holds⟩
    · rintro ⟨holder, stored, holds⟩
      rcases (lookup owner holder).mp stored with ⟨rfl, rfl⟩ | ⟨_, old⟩
      · exact ⟨resident, present, holds⟩
      · exact ⟨holder, old, holds⟩
  · intro key place handle found
    obtain ⟨owner, holder, stored, ownerAt, at_address⟩ := owned.entry key place handle found
    by_cases same : owner = index
    · subst same
      cases Option.some.inj (present.symm.trans ownerAt)
      exact ⟨owner, _, stored, (lookup owner _).mpr (.inl ⟨rfl, rfl⟩), at_address⟩
    · exact ⟨owner, holder, stored, (lookup owner holder).mpr (.inr ⟨same, ownerAt⟩), at_address⟩
  · intro other handle holder key stored alive holds
    rcases (lookup other holder).mp stored with ⟨_, rfl⟩ | ⟨_, old⟩
    · cases alive
    · exact owned.held other handle holder key old alive holds

section Claim

variable [DecidableEq Key]

@[simp] theorem claim_table_same (heap : Heap Key) (index : Nat) (resident : Resident Key) (key : Key) :
    (heap.claim index resident key).table key resident.address = some heap.handles.length := by
  simp [Heap.claim]

theorem claim_table_other (heap : Heap Key) (index : Nat) (resident : Resident Key) (key other : Key)
    (address : Nat) (different : other = key → address ≠ resident.address) :
    (heap.claim index resident key).table other address = heap.table other address := by
  by_cases same : other = key
  · subst same
    simp [Heap.claim, different rfl]
  · simp [Heap.claim, same]

theorem owned_claim (heap : Heap Key) (index : Nat) (resident : Resident Key) (key : Key)
    (present : heap.residents[index]? = some resident) (alive : resident.alive = true)
    (fresh : resident.handle = none) (owned : Owned heap) :
    Owned (heap.claim index resident key) := by
  have lookup := fun other found => getElem?_set_some heap.residents index other resident
    { resident with handle := some (key, heap.handles.length) } found present
  -- No handle is held by the claiming object before the step.
  have unclaimed : ∀ (handle : Nat) (other : Key), heap.handles[handle]? ≠ some (index, other) := by
    intro handle other stored
    obtain ⟨holder, holderAt, holds⟩ := (owned.claimed handle index other).mp stored
    cases Option.some.inj (present.symm.trans holderAt)
    exact absurd (fresh.symm.trans holds) (by simp)
  constructor
  · intro left right first second leftAt rightAt firstAlive secondAlive same
    rcases (lookup left first).mp leftAt with ⟨leftSame, rfl⟩ | ⟨_, leftOld⟩ <;>
      rcases (lookup right second).mp rightAt with ⟨rightSame, rfl⟩ | ⟨_, rightOld⟩
    · exact leftSame.trans rightSame.symm
    · exact leftSame.trans
        (owned.distinct index right resident second present rightOld alive secondAlive same)
    · exact (owned.distinct left index first resident leftOld present firstAlive alive same).trans
        rightSame.symm
    · exact owned.distinct left right first second leftOld rightOld firstAlive secondAlive same
  · intro handle owner other
    rw [Heap.claim, getElem?_append_one, owned.claimed]
    constructor
    · rintro (⟨holder, stored, holds⟩ | ⟨rfl, pair⟩)
      · have different : owner ≠ index := by
          rintro rfl
          exact unclaimed handle other ((owned.claimed handle owner other).mpr ⟨holder, stored, holds⟩)
        exact ⟨holder, (lookup owner holder).mpr (.inr ⟨different, stored⟩), holds⟩
      · cases pair
        exact ⟨_, (lookup index _).mpr (.inl ⟨rfl, rfl⟩), rfl⟩
    · rintro ⟨holder, stored, holds⟩
      rcases (lookup owner holder).mp stored with ⟨rfl, rfl⟩ | ⟨_, old⟩
      · cases holds
        exact .inr ⟨rfl, rfl⟩
      · exact .inl ⟨holder, old, holds⟩
  · intro other place handle found
    by_cases here : other = key ∧ place = resident.address
    · obtain ⟨rfl, rfl⟩ := here
      rw [claim_table_same] at found
      cases found
      exact ⟨index, _, (getElem?_append_one _ _ _ _).mpr (.inr ⟨rfl, rfl⟩),
        (lookup index _).mpr (.inl ⟨rfl, rfl⟩), rfl⟩
    · rw [claim_table_other _ _ _ _ _ _ (fun same equal => here ⟨same, equal⟩)] at found
      obtain ⟨owner, holder, stored, ownerAt, at_address⟩ := owned.entry other place handle found
      have different : owner ≠ index := by
        rintro rfl
        exact unclaimed handle other stored
      exact ⟨owner, holder, (getElem?_append_one _ _ _ _).mpr (.inl stored),
        (lookup owner holder).mpr (.inr ⟨different, ownerAt⟩), at_address⟩
  · intro place handle holder other stored holderAlive holds
    rcases (lookup place holder).mp stored with ⟨rfl, rfl⟩ | ⟨different, old⟩
    · cases holds
      exact claim_table_same heap place resident key
    · rw [claim_table_other]
      · exact owned.held place handle holder other old holderAlive holds
      · intro _ equal
        exact different
          (owned.distinct place index holder resident old present holderAlive alive equal)

theorem owned_step (heap next : Heap Key) (owned : Owned heap) (taken : TableStep heap next) :
    Owned next := by
  cases taken with
  | idle => exact owned
  | allocate address vacant => exact owned_allocate heap address owned vacant
  | release index resident present => exact owned_release heap index resident present owned
  | claim index resident key present alive fresh =>
    exact owned_claim heap index resident key present alive fresh owned

end Claim

/-- What a live object finds at its address under a key is its own handle exactly
when it has claimed one under that key. -/
theorem owner_eq_iff (heap : Heap Key) (owned : Owned heap) (index handle owner : Nat)
    (resident : Resident Key) (key other : Key)
    (present : heap.residents[index]? = some resident) (alive : resident.alive = true)
    (found : heap.table key resident.address = some handle)
    (stored : heap.handles[handle]? = some (owner, other)) :
    owner = index ↔ resident.handle.map Prod.fst = some key := by
  obtain ⟨maker, _, made, _, _⟩ := owned.entry key resident.address handle found
  cases Option.some.inj (stored.symm.trans made)
  constructor
  · rintro rfl
    obtain ⟨holder, holderAt, holds⟩ := (owned.claimed handle owner key).mp stored
    cases Option.some.inj (present.symm.trans holderAt)
    simp [holds]
  · intro claims
    obtain ⟨⟨claimed, mine⟩, holds, rfl⟩ := Option.map_eq_some_iff.mp claims
    have own := owned.held index mine resident claimed present alive holds
    cases Option.some.inj (found.symm.trans own)
    have made := (owned.claimed handle index claimed).mpr ⟨resident, present, holds⟩
    cases Option.some.inj (stored.symm.trans made)
    rfl

end EzSdk.AddressTable
