import Mathlib.Algebra.Group.Nat.Defs
import Mathlib.Data.List.Nodup
import Mathlib.Data.List.Range
import Mathlib.Logic.Function.Basic

/-! Logs whose entries are numbered by 64-bit counters, one counter for each key. -/

namespace EzSdk.Serials

/-- The first values that a counter which starts at 0 and is incremented before use
gives out. -/
def serials (count : Nat) : List UInt64 :=
  (List.range count).map (fun index => UInt64.ofNat (index + 1))

theorem serials_succ (count : Nat) :
    serials (count + 1) = serials count ++ [UInt64.ofNat count + 1] := by
  simp [serials, List.range_succ]

theorem serials_nodup (count : Nat) (few : count ≤ 2 ^ 64) : (serials count).Nodup := by
  apply List.Nodup.map_on ?_ List.nodup_range
  intro first firstIn second secondIn same
  rw [List.mem_range] at firstIn secondIn
  have values : (first + 1) % 2 ^ 64 = (second + 1) % 2 ^ 64 := by
    have equal := congrArg UInt64.toNat same
    simpa using equal
  omega

theorem one_mem_serials (count : Nat) (positive : 0 < count) : 1 ∈ serials count :=
  List.mem_map.mpr ⟨0, List.mem_range.mpr positive, rfl⟩

section Log

variable {Entry Key : Type} [DecidableEq Key] (key : Entry → Key) (id : Entry → UInt64)

def entriesOf (log : List Entry) (wanted : Key) : List Entry :=
  log.filter (fun entry => key entry = wanted)

/-- The entries of each key are numbered 1, 2, and so on, and the key's counter holds
the last number. -/
structure Numbered (log : List Entry) (counter : Key → UInt64) : Prop where
  ids : ∀ wanted, (entriesOf key log wanted).map id = serials (entriesOf key log wanted).length
  next : ∀ wanted, counter wanted = UInt64.ofNat (entriesOf key log wanted).length

theorem numbered_nil : Numbered key id [] (fun _ => 0) :=
  ⟨fun _ => rfl, fun _ => rfl⟩

theorem numbered_append (log : List Entry) (counter : Key → UInt64) (entry : Entry)
    (numbered : Numbered key id log counter) (fresh : id entry = counter (key entry) + 1) :
    Numbered key id (log ++ [entry]) (Function.update counter (key entry) (id entry)) := by
  have own : entriesOf key (log ++ [entry]) (key entry) = entriesOf key log (key entry) ++ [entry] := by
    simp [entriesOf]
  have others : ∀ wanted, wanted ≠ key entry →
      entriesOf key (log ++ [entry]) wanted = entriesOf key log wanted := by
    intro wanted different
    simp [entriesOf, Ne.symm different]
  have number : id entry = UInt64.ofNat (entriesOf key log (key entry)).length + 1 := by
    rw [fresh, numbered.next]
  constructor
  · intro wanted
    by_cases same : wanted = key entry
    · subst same
      rw [own, List.map_append, numbered.ids, List.length_append, List.length_singleton, serials_succ,
        List.map_singleton, number]
    · rw [others wanted same]
      exact numbered.ids wanted
  · intro wanted
    by_cases same : wanted = key entry
    · subst same
      rw [Function.update_self, own, number, List.length_append, List.length_singleton,
        UInt64.ofNat_add]
      rfl
    · rw [Function.update_of_ne same, others wanted same]
      exact numbered.next wanted

/-- Entries of one key differ in their numbers. -/
theorem entry_of_id (log : List Entry) (counter : Key → UInt64) (first second : Entry)
    (numbered : Numbered key id log counter) (few : log.length ≤ 2 ^ 64)
    (firstIn : first ∈ log) (secondIn : second ∈ log) (keys : key first = key second)
    (ids : id first = id second) : first = second := by
  have bound : (entriesOf key log (key second)).length ≤ 2 ^ 64 :=
    (List.length_filter_le _ log).trans few
  have distinct : ((entriesOf key log (key second)).map id).Nodup := by
    rw [numbered.ids]
    exact serials_nodup _ bound
  exact List.inj_on_of_nodup_map distinct (List.mem_filter.mpr ⟨firstIn, by simp [keys]⟩)
    (List.mem_filter.mpr ⟨secondIn, by simp⟩) ids

/-- Each key that occurs has an entry with number 1. -/
theorem exists_first (log : List Entry) (counter : Key → UInt64) (entry : Entry)
    (numbered : Numbered key id log counter) (present : entry ∈ log) :
    ∃ first ∈ log, key first = key entry ∧ id first = 1 := by
  have member : entry ∈ entriesOf key log (key entry) := List.mem_filter.mpr ⟨present, by simp⟩
  have one := one_mem_serials _ (List.length_pos_of_mem member)
  rw [← numbered.ids] at one
  obtain ⟨first, firstIn, number⟩ := List.mem_map.mp one
  obtain ⟨listed, same⟩ := List.mem_filter.mp firstIn
  exact ⟨first, listed, by simpa using same, number⟩

end Log

end EzSdk.Serials
