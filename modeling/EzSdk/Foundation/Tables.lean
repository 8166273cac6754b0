import Mathlib.Data.List.AList

/-! Tables that are filled by a sequence of insertions, with the two ways in which an
insertion can treat a key that is already there. -/

namespace EzSdk.Tables

variable {Key Entry : Type} [DecidableEq Key]

/-- Insertion that leaves an entry of the same key in place. -/
def keepFirst (key : Entry → Key) (table : AList (fun _ : Key => Entry)) (entry : Entry) :
    AList (fun _ : Key => Entry) :=
  if key entry ∈ table then table else table.insert (key entry) entry

/-- Insertion that replaces an entry of the same key. -/
def keepLast (key : Entry → Key) (table : AList (fun _ : Key => Entry)) (entry : Entry) :
    AList (fun _ : Key => Entry) :=
  table.insert (key entry) entry

/-- The first of the entries that has the key. -/
def firstOf (key : Entry → Key) (entries : List Entry) (wanted : Key) : Option Entry :=
  entries.find? (fun entry => key entry = wanted)

/-- The last of the entries that has the key. -/
def lastOf (key : Entry → Key) (entries : List Entry) (wanted : Key) : Option Entry :=
  firstOf key entries.reverse wanted

variable (key : Entry → Key)

theorem firstOf_cons (entry : Entry) (entries : List Entry) (wanted : Key) :
    firstOf key (entry :: entries) wanted =
      if key entry = wanted then some entry else firstOf key entries wanted := by
  by_cases same : key entry = wanted
  · simp [firstOf, same]
  · simp [firstOf, same]

theorem lastOf_cons (entry : Entry) (entries : List Entry) (wanted : Key) :
    lastOf key (entry :: entries) wanted =
      (lastOf key entries wanted).or (if key entry = wanted then some entry else none) := by
  unfold lastOf firstOf
  rw [List.reverse_cons, List.find?_append]
  by_cases same : key entry = wanted
  · simp [same]
  · simp [same]

theorem lookup_keepFirst (table : AList (fun _ : Key => Entry)) (entry : Entry) (wanted : Key) :
    (keepFirst key table entry).lookup wanted =
      (table.lookup wanted).or (if key entry = wanted then some entry else none) := by
  by_cases present : key entry ∈ table
  · rw [keepFirst, if_pos present]
    by_cases same : key entry = wanted
    · obtain ⟨old, found⟩ := Option.isSome_iff_exists.mp (AList.lookup_isSome.mpr (same ▸ present))
      simp [found]
    · simp [same]
  · rw [keepFirst, if_neg present]
    by_cases same : key entry = wanted
    · subst same
      simp [AList.lookup_eq_none.mpr present]
    · simp [AList.lookup_insert_ne (Ne.symm same), same]

theorem lookup_keepLast (table : AList (fun _ : Key => Entry)) (entry : Entry) (wanted : Key) :
    (keepLast key table entry).lookup wanted =
      if key entry = wanted then some entry else table.lookup wanted := by
  by_cases same : key entry = wanted
  · subst same
    simp [keepLast]
  · simp [keepLast, AList.lookup_insert_ne (Ne.symm same), same]

/-- After any insertions that keep what is there, a key has its first entry. -/
theorem lookup_foldl_keepFirst (entries : List Entry) (table : AList (fun _ : Key => Entry))
    (wanted : Key) :
    (entries.foldl (keepFirst key) table).lookup wanted =
      (table.lookup wanted).or (firstOf key entries wanted) := by
  induction entries generalizing table with
  | nil => simp [firstOf]
  | cons entry entries ih =>
    rw [List.foldl_cons, ih, lookup_keepFirst, firstOf_cons, Option.or_assoc]
    by_cases same : key entry = wanted
    · simp [same]
    · simp [same]

/-- After any insertions that replace what is there, a key has its last entry. -/
theorem lookup_foldl_keepLast (entries : List Entry) (table : AList (fun _ : Key => Entry))
    (wanted : Key) :
    (entries.foldl (keepLast key) table).lookup wanted =
      (lastOf key entries wanted).or (table.lookup wanted) := by
  induction entries generalizing table with
  | nil => simp [lastOf, firstOf]
  | cons entry entries ih =>
    rw [List.foldl_cons, ih, lookup_keepLast, lastOf_cons, Option.or_assoc]
    by_cases same : key entry = wanted
    · simp [same]
    · simp [same]

theorem lookup_lastOf (entries : List Entry) (wanted : Key) :
    (entries.foldl (keepLast key) ∅).lookup wanted = lastOf key entries wanted := by
  rw [lookup_foldl_keepLast, AList.lookup_empty, Option.or_none]

theorem firstOf_mem (entries : List Entry) (wanted : Key) (entry : Entry)
    (found : firstOf key entries wanted = some entry) : entry ∈ entries ∧ key entry = wanted :=
  ⟨List.mem_of_find?_eq_some found, by simpa using List.find?_some found⟩

theorem firstOf_eq_none_iff (entries : List Entry) (wanted : Key) :
    firstOf key entries wanted = none ↔ wanted ∉ entries.map key := by
  simp [firstOf]

theorem firstOf_of_mem (entries : List Entry) (distinct : (entries.map key).Nodup) (entry : Entry)
    (member : entry ∈ entries) : firstOf key entries (key entry) = some entry := by
  induction entries with
  | nil => exact absurd member List.not_mem_nil
  | cons first entries ih =>
    rw [List.map_cons, List.nodup_cons] at distinct
    rw [firstOf_cons]
    rcases List.mem_cons.mp member with same | later
    · simp [same]
    · have different : key first ≠ key entry := by
        intro same
        exact distinct.1 (same ▸ List.mem_map_of_mem later)
      rw [if_neg different, ih distinct.2 later]

theorem lastOf_mem (entries : List Entry) (wanted : Key) (entry : Entry)
    (found : lastOf key entries wanted = some entry) : entry ∈ entries ∧ key entry = wanted := by
  obtain ⟨member, same⟩ := firstOf_mem key entries.reverse wanted entry found
  exact ⟨List.mem_reverse.mp member, same⟩

theorem lastOf_exists (entries : List Entry) (entry : Entry) (member : entry ∈ entries) :
    ∃ found, lastOf key entries (key entry) = some found := by
  cases result : lastOf key entries (key entry) with
  | some found => exact ⟨found, rfl⟩
  | none =>
    have absent := (firstOf_eq_none_iff key entries.reverse (key entry)).mp result
    exact absurd (List.mem_map_of_mem (List.mem_reverse.mpr member)) absent

/-- Where no key repeats, the first entry of a key is also its last. -/
theorem lastOf_eq_firstOf (entries : List Entry) (distinct : (entries.map key).Nodup)
    (wanted : Key) : lastOf key entries wanted = firstOf key entries wanted := by
  induction entries with
  | nil => rfl
  | cons entry entries ih =>
    rw [List.map_cons, List.nodup_cons] at distinct
    rw [lastOf_cons, firstOf_cons, ih distinct.2]
    by_cases same : key entry = wanted
    · subst same
      simp [(firstOf_eq_none_iff key entries (key entry)).mpr distinct.1]
    · simp [same]

theorem lastOf_of_mem (entries : List Entry) (distinct : (entries.map key).Nodup) (entry : Entry)
    (member : entry ∈ entries) : lastOf key entries (key entry) = some entry := by
  rw [lastOf_eq_firstOf key entries distinct, firstOf_of_mem key entries distinct entry member]

theorem firstOf_map {Other : Type} (entries : List Other) (image : Other → Entry) (wanted : Key) :
    firstOf key (entries.map image) wanted =
      (firstOf (fun entry => key (image entry)) entries wanted).map image := by
  unfold firstOf
  rw [List.find?_map]
  rfl

theorem lastOf_map {Other : Type} (entries : List Other) (image : Other → Entry) (wanted : Key) :
    lastOf key (entries.map image) wanted =
      (lastOf (fun entry => key (image entry)) entries wanted).map image := by
  unfold lastOf
  rw [← List.map_reverse, firstOf_map]

end EzSdk.Tables
