import EzSdk.Foundation.Postconditions
import Mathlib.Data.List.AList

/-! Recursion over dependencies with a table of earlier results, against the same recursion
without the table. -/

namespace EzSdk.Memoised

open Postconditions

/-- How the value of a key is made: what is read first, which says the dependencies, and
what is made of their values. `tooDeep` is the error of too many nested calls. -/
structure Recipe (Key Info Dependency Value Error : Type) where
  prepare : Key → Except Error (Info × List Dependency)
  key : Dependency → Except Error Key
  finish : Key → Info → List Value → Except Error Value
  tooDeep : Error

variable {Key Info Dependency Value Error : Type}

abbrev Table (Key Value : Type) := AList (fun _ : Key => Value)

namespace Recipe

variable (recipe : Recipe Key Info Dependency Value Error)

def plain : Nat → Key → Except Error Value
  | 0, _ => .error recipe.tooDeep
  | limit + 1, key => do
    let (info, dependencies) ← recipe.prepare key
    let values ← dependencies.mapM (fun dependency => do
      plain limit (← recipe.key dependency))
    recipe.finish key info values

/-- A value of a key, for whatever number of nested calls. -/
def Yields (key : Key) (value : Value) : Prop := ∃ limit, recipe.plain limit key = .ok value

variable [DecidableEq Key]

/-- The values of the dependencies, with the table handed from one to the next. -/
def collect (compute : Key → Table Key Value → Except Error (Value × Table Key Value)) :
    List Dependency → Table Key Value → Except Error (List Value × Table Key Value)
  | [], table => .ok ([], table)
  | dependency :: dependencies, table => do
    let key ← recipe.key dependency
    let (value, table) ← compute key table
    let (values, table) ← collect compute dependencies table
    return (value :: values, table)

def memoised : Nat → Key → Table Key Value → Except Error (Value × Table Key Value)
  | 0, _, _ => .error recipe.tooDeep
  | limit + 1, key, table =>
    match table.lookup key with
    | some value => .ok (value, table)
    | none => do
      let (info, dependencies) ← recipe.prepare key
      let (values, table) ← recipe.collect (memoised limit) dependencies table
      let value ← recipe.finish key info values
      return (value, table.insert key value)

end Recipe

variable {recipe : Recipe Key Info Dependency Value Error}

theorem plain_succ_iff {limit : Nat} {key : Key} {value : Value} :
    recipe.plain (limit + 1) key = .ok value ↔
      ∃ info dependencies values, recipe.prepare key = .ok (info, dependencies) ∧
        List.Forall₂ (fun dependency value => ∃ other, recipe.key dependency = .ok other ∧
          recipe.plain limit other = .ok value) dependencies values ∧
        recipe.finish key info values = .ok value := by
  simp only [Recipe.plain, bind_ok_iff, mapM_ok_iff, Prod.exists, exists_and_left]

theorem plain_dependency {limit : Nat} {key : Key} {value : Value} {info : Info}
    {dependencies : List Dependency} (ok : recipe.plain (limit + 1) key = .ok value)
    (prepared : recipe.prepare key = .ok (info, dependencies)) {dependency : Dependency}
    (member : dependency ∈ dependencies) :
    ∃ other result, recipe.key dependency = .ok other ∧ recipe.plain limit other = .ok result := by
  simp only [Recipe.plain, prepared, bind_ok_iff] at ok
  obtain ⟨_, ⟨⟩, values, computed, _⟩ := ok
  obtain ⟨result, _, found⟩ := mapM_ok_mem computed member
  obtain ⟨other, named, ends⟩ := bind_ok_iff.mp found
  exact ⟨other, result, named, ends⟩

theorem plain_mono {limit more : Nat} (le : limit ≤ more) :
    ∀ {key value}, recipe.plain limit key = .ok value → recipe.plain more key = .ok value := by
  induction limit generalizing more with
  | zero =>
    intro key value ok
    simp [Recipe.plain] at ok
  | succ limit ih =>
    intro key value ok
    obtain ⟨more, rfl⟩ : ∃ least, more = least + 1 := ⟨more - 1, by omega⟩
    obtain ⟨info, dependencies, values, prepared, each, finished⟩ := plain_succ_iff.mp ok
    refine plain_succ_iff.mpr ⟨info, dependencies, values, prepared, each.imp ?_, finished⟩
    rintro dependency result ⟨other, named, computed⟩
    exact ⟨other, named, ih (by omega) computed⟩

theorem yields_unique {key : Key} {value other : Value} (yields : recipe.Yields key value)
    (yieldsOther : recipe.Yields key other) : value = other := by
  obtain ⟨limit, ok⟩ := yields
  obtain ⟨limitOther, okOther⟩ := yieldsOther
  have first := plain_mono (Nat.le_max_left limit limitOther) ok
  have second := plain_mono (Nat.le_max_right limit limitOther) okOther
  exact Except.ok.inj (first.symm.trans second)

/-- Every dependency yields the value at its place. -/
abbrev EachYields (recipe : Recipe Key Info Dependency Value Error) :
    List Dependency → List Value → Prop :=
  List.Forall₂ (fun dependency value =>
    ∃ other, recipe.key dependency = .ok other ∧ recipe.Yields other value)

theorem common_limit {dependencies : List Dependency} {values : List Value}
    (each : EachYields recipe dependencies values) :
    ∃ limit, List.Forall₂ (fun dependency value => ∃ other, recipe.key dependency = .ok other ∧
      recipe.plain limit other = .ok value) dependencies values := by
  induction each with
  | nil => exact ⟨0, .nil⟩
  | cons first _ ih =>
    obtain ⟨other, named, limit, computed⟩ := first
    obtain ⟨limits, rest⟩ := ih
    refine ⟨max limit limits, .cons ⟨other, named, plain_mono (Nat.le_max_left ..) computed⟩ ?_⟩
    apply rest.imp
    rintro dependency value ⟨another, namedToo, computedToo⟩
    exact ⟨another, namedToo, plain_mono (Nat.le_max_right ..) computedToo⟩

theorem yields_of_each {key : Key} {info : Info} {dependencies : List Dependency}
    {values : List Value} {value : Value} (prepared : recipe.prepare key = .ok (info, dependencies))
    (each : EachYields recipe dependencies values)
    (finished : recipe.finish key info values = .ok value) : recipe.Yields key value := by
  obtain ⟨limit, computed⟩ := common_limit each
  exact ⟨limit + 1, plain_succ_iff.mpr ⟨info, dependencies, values, prepared, computed, finished⟩⟩

variable [DecidableEq Key]

/-- The table has only values that the recursion without a table yields. -/
def Sound (recipe : Recipe Key Info Dependency Value Error) (table : Table Key Value) : Prop :=
  ∀ key value, table.lookup key = some value → recipe.Yields key value

def Extends (table later : Table Key Value) : Prop :=
  ∀ key value, table.lookup key = some value → later.lookup key = some value

theorem sound_empty : Sound recipe ∅ := by
  intro key value found
  simp at found

theorem sound_insert {table : Table Key Value} {key : Key} {value : Value}
    (sound : Sound recipe table) (yields : recipe.Yields key value) :
    Sound recipe (table.insert key value) := by
  intro other result found
  by_cases same : other = key
  · subst same
    rw [AList.lookup_insert] at found
    cases found
    exact yields
  · rw [AList.lookup_insert_ne same] at found
    exact sound other result found

theorem extends_insert {table : Table Key Value} {key : Key} {value : Value}
    (sound : Sound recipe table) (yields : recipe.Yields key value) :
    Extends table (table.insert key value) := by
  intro other result found
  by_cases same : other = key
  · subst same
    rw [AList.lookup_insert, yields_unique yields (sound other result found)]
  · rwa [AList.lookup_insert_ne same]

/-- What a call keeps: the table stays sound and only grows. -/
def Keeps (recipe : Recipe Key Info Dependency Value Error)
    (compute : Key → Table Key Value → Except Error (Value × Table Key Value)) : Prop :=
  ∀ key table value later, Sound recipe table → compute key table = .ok (value, later) →
    recipe.Yields key value ∧ Sound recipe later ∧ Extends table later

theorem collect_sound {compute : Key → Table Key Value → Except Error (Value × Table Key Value)}
    (keeps : Keeps recipe compute) {dependencies : List Dependency} :
    ∀ {table values later}, Sound recipe table →
      recipe.collect compute dependencies table = .ok (values, later) →
      EachYields recipe dependencies values ∧ Sound recipe later ∧ Extends table later := by
  induction dependencies with
  | nil =>
    intro table values later sound ok
    cases ok
    exact ⟨.nil, sound, fun _ _ found => found⟩
  | cons dependency dependencies ih =>
    intro table values later sound ok
    simp only [Recipe.collect, bind_ok_iff, Prod.exists] at ok
    obtain ⟨key, named, value, middle, computed, rest, last, collected, ⟨⟩⟩ := ok
    obtain ⟨yields, soundMiddle, grows⟩ := keeps key table value middle sound computed
    obtain ⟨each, soundLast, growsMore⟩ := ih soundMiddle collected
    exact ⟨.cons ⟨key, named, yields⟩ each, soundLast,
      fun other result found => growsMore other result (grows other result found)⟩

/-- The recursion with the table yields what the recursion without it yields. -/
theorem memoised_sound (limit : Nat) {key : Key} {table later : Table Key Value} {value : Value}
    (sound : Sound recipe table) (ok : recipe.memoised limit key table = .ok (value, later)) :
    recipe.Yields key value ∧ Sound recipe later ∧ Extends table later ∧
      later.lookup key = some value := by
  induction limit generalizing key table value later with
  | zero => simp [Recipe.memoised] at ok
  | succ limit ih =>
    rw [Recipe.memoised] at ok
    cases stored : table.lookup key with
    | some result =>
      rw [stored] at ok
      cases ok
      exact ⟨sound key value stored, sound, fun _ _ found => found, stored⟩
    | none =>
      simp only [stored, bind_ok_iff, Prod.exists] at ok
      obtain ⟨info, dependencies, prepared, values, middle, collected, result, finished, ⟨⟩⟩ := ok
      have keeps : Keeps recipe (recipe.memoised limit) := by
        intro other before result after soundBefore computed
        obtain ⟨yields, soundAfter, grows, _⟩ := ih soundBefore computed
        exact ⟨yields, soundAfter, grows⟩
      obtain ⟨each, soundMiddle, grows⟩ := collect_sound keeps sound collected
      have yields := yields_of_each prepared each finished
      refine ⟨yields, sound_insert soundMiddle yields, ?_, AList.lookup_insert _⟩
      intro other result found
      exact extends_insert soundMiddle yields other result (grows other result found)

theorem memoised_unprepared (limit : Nat) {key : Key} {table : Table Key Value} {error : Error}
    (absent : table.lookup key = none) (fails : recipe.prepare key = .error error) :
    recipe.memoised (limit + 1) key table = .error error := by
  rw [Recipe.memoised, absent]
  simp [fails, bind, Except.bind]

/-- Dependencies that are in the table are taken from it. -/
theorem collect_stored (limit : Nat) {table : Table Key Value} {dependencies : List Dependency}
    {values : List Value}
    (stored : List.Forall₂ (fun dependency value => ∃ other,
      recipe.key dependency = .ok other ∧ table.lookup other = some value) dependencies values) :
    recipe.collect (recipe.memoised (limit + 1)) dependencies table = .ok (values, table) := by
  induction stored with
  | nil => rfl
  | @cons _ value _ _ first _ ih =>
    obtain ⟨other, named, found⟩ := first
    have hit : recipe.memoised (limit + 1) other table = .ok (value, table) := by
      rw [Recipe.memoised, found]
    simp [Recipe.collect, named, hit, ih, bind, Except.bind, pure, Except.pure]

theorem memoised_stored (limit : Nat) {key : Key} {table : Table Key Value} {info : Info}
    {dependencies : List Dependency} {values : List Value} (absent : table.lookup key = none)
    (prepared : recipe.prepare key = .ok (info, dependencies))
    (stored : List.Forall₂ (fun dependency value => ∃ other,
      recipe.key dependency = .ok other ∧ table.lookup other = some value) dependencies values) :
    recipe.memoised (limit + 2) key table =
      (recipe.finish key info values).map (fun value => (value, table.insert key value)) := by
  rw [Recipe.memoised, absent]
  simp only [prepared, collect_stored limit stored, bind, Except.bind]
  cases recipe.finish key info values <;> rfl

/-- What the recursion without a table yields, the recursion with a sound table returns,
with no more nested calls. -/
theorem memoised_complete (limit : Nat) {key : Key} {table : Table Key Value} {value : Value}
    (sound : Sound recipe table) (ok : recipe.plain limit key = .ok value) :
    ∃ later, recipe.memoised limit key table = .ok (value, later) := by
  induction limit generalizing key table value with
  | zero => simp [Recipe.plain] at ok
  | succ limit ih =>
    cases stored : table.lookup key with
    | some result =>
      have same : result = value := yields_unique (sound key result stored) ⟨limit + 1, ok⟩
      exact ⟨table, by rw [Recipe.memoised, stored, same]⟩
    | none =>
      obtain ⟨info, dependencies, values, prepared, each, finished⟩ := plain_succ_iff.mp ok
      have collects : ∀ before : Table Key Value, Sound recipe before →
          ∃ after, recipe.collect (recipe.memoised limit) dependencies before =
            .ok (values, after) := by
        clear prepared finished ok
        induction each with
        | nil => exact fun before _ => ⟨before, rfl⟩
        | @cons dependency result dependencies results first _ ihRest =>
          intro before soundBefore
          obtain ⟨other, named, computed⟩ := first
          obtain ⟨middle, hit⟩ := ih soundBefore computed
          obtain ⟨after, rest⟩ := ihRest middle (memoised_sound limit soundBefore hit).2.1
          refine ⟨after, ?_⟩
          simp [Recipe.collect, named, hit, rest, bind, Except.bind, pure, Except.pure]
      obtain ⟨after, collected⟩ := collects table sound
      refine ⟨after.insert key value, ?_⟩
      rw [Recipe.memoised, stored]
      simp [prepared, collected, finished, bind, Except.bind, pure, Except.pure]

/-- The tables that calls leave behind, those that stop with an error included: every value
was stored when the values of its dependencies were in the table. -/
inductive Filled (recipe : Recipe Key Info Dependency Value Error) : Table Key Value → Prop where
  | empty : Filled recipe ∅
  | store {table : Table Key Value} {key : Key} {info : Info} {dependencies : List Dependency}
      {values : List Value} {value : Value} (filled : Filled recipe table)
      (prepared : recipe.prepare key = .ok (info, dependencies))
      (stored : List.Forall₂ (fun dependency value => ∃ other,
        recipe.key dependency = .ok other ∧ table.lookup other = some value) dependencies values)
      (finished : recipe.finish key info values = .ok value) :
      Filled recipe (table.insert key value)

theorem Filled.sound {table : Table Key Value} (filled : Filled recipe table) :
    Sound recipe table := by
  induction filled with
  | empty => exact sound_empty
  | store _ prepared stored finished sound =>
    apply sound_insert sound
    refine yields_of_each prepared (stored.imp ?_) finished
    rintro dependency value ⟨other, named, found⟩
    exact ⟨other, named, sound other value found⟩

theorem memoised_filled (limit : Nat) {key : Key} {table later : Table Key Value} {value : Value}
    (filled : Filled recipe table) (ok : recipe.memoised limit key table = .ok (value, later)) :
    Filled recipe later := by
  induction limit generalizing key table value later with
  | zero => simp [Recipe.memoised] at ok
  | succ limit ih =>
    rw [Recipe.memoised] at ok
    cases present : table.lookup key with
    | some result =>
      rw [present] at ok
      cases ok
      exact filled
    | none =>
      simp only [present, bind_ok_iff, Prod.exists] at ok
      obtain ⟨info, dependencies, prepared, values, middle, collected, result, finished, ⟨⟩⟩ := ok
      -- the values of the dependencies stay in the table while the later ones are computed
      have collects : ∀ (before : Table Key Value) (rest : List Dependency) (results : List Value),
          Filled recipe before →
          recipe.collect (recipe.memoised limit) rest before = .ok (results, middle) →
          Filled recipe middle ∧ Extends before middle ∧
            List.Forall₂ (fun dependency value => ∃ other, recipe.key dependency = .ok other ∧
              middle.lookup other = some value) rest results := by
        intro before rest
        induction rest generalizing before with
        | nil =>
          intro results filledBefore nothing
          cases nothing
          exact ⟨filledBefore, fun _ _ found => found, .nil⟩
        | cons dependency rest ihRest =>
          intro results filledBefore more
          simp only [Recipe.collect, bind_ok_iff, Prod.exists] at more
          obtain ⟨other, named, first, after, computed, others, last, remaining, ⟨⟩⟩ := more
          obtain ⟨_, _, grows, found⟩ := memoised_sound limit filledBefore.sound computed
          obtain ⟨filledLast, growsMore, stored⟩ :=
            ihRest after others (ih filledBefore computed) remaining
          exact ⟨filledLast, fun _ _ held => growsMore _ _ (grows _ _ held),
            .cons ⟨other, named, growsMore _ _ found⟩ stored⟩
      obtain ⟨filledMiddle, _, stored⟩ := collects table dependencies values filled collected
      exact .store filledMiddle prepared stored finished

end EzSdk.Memoised
