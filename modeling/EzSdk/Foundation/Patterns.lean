import Mathlib.Data.List.Basic

/-! Patterns with captured groups, as a backtracking matcher reads them: repetition and
options are greedy, and the results come in the order in which they are tried. -/

namespace EzSdk.Patterns

variable {Symbol : Type}

/-- `ahead` looks at the rest of the text and takes nothing. -/
inductive Pattern (Symbol : Type) where
  | nothing
  | one (accepts : Symbol → Bool)
  | many (accepts : Symbol → Bool)
  | seq (first second : Pattern Symbol)
  | optional (inner : Pattern Symbol)
  | group (index : Nat) (inner : Pattern Symbol)
  | ahead (accepts : List Symbol → Bool)

abbrev Captures (Symbol : Type) := List (Nat × List Symbol)

/-- What is left after each number of accepted symbols, the longest run first. -/
def greedy (accepts : Symbol → Bool) : List Symbol → List (List Symbol)
  | [] => [[]]
  | symbol :: text =>
    if accepts symbol then greedy accepts text ++ [symbol :: text] else [symbol :: text]

namespace Pattern

/-- The captured groups and the rest of the text, for every way to match at its start. -/
def run : Pattern Symbol → List Symbol → List (Captures Symbol × List Symbol)
  | nothing, text => [([], text)]
  | one _, [] => []
  | one accepts, symbol :: text => if accepts symbol then [([], text)] else []
  | many accepts, text => (greedy accepts text).map (fun rest => ([], rest))
  | seq first second, text =>
    (first.run text).flatMap (fun (captures, middle) =>
      (second.run middle).map (fun (later, rest) => (captures ++ later, rest)))
  | optional inner, text => inner.run text ++ [([], text)]
  | group index inner, text =>
    (inner.run text).map (fun (captures, rest) =>
      ((index, text.take (text.length - rest.length)) :: captures, rest))
  | ahead accepts, text => if accepts text then [([], text)] else []

/-- The groups of the first match. -/
def captures? (pattern : Pattern Symbol) (text : List Symbol) : Option (Captures Symbol) :=
  (pattern.run text).head?.map Prod.fst

def plus (accepts : Symbol → Bool) : Pattern Symbol := seq (one accepts) (many accepts)

def times (accepts : Symbol → Bool) : Nat → Pattern Symbol
  | 0 => nothing
  | count + 1 => seq (one accepts) (times accepts count)

def word [DecidableEq Symbol] : List Symbol → Pattern Symbol
  | [] => nothing
  | symbol :: symbols => seq (one (· = symbol)) (word symbols)

/-- The pattern takes a text, before some rest, with these groups. -/
def Takes : Pattern Symbol → List Symbol → List Symbol → Captures Symbol → Prop
  | nothing, taken, _, captures => taken = [] ∧ captures = []
  | one accepts, taken, _, captures =>
    (∃ symbol, taken = [symbol] ∧ accepts symbol = true) ∧ captures = []
  | many accepts, taken, _, captures => (∀ symbol ∈ taken, accepts symbol = true) ∧ captures = []
  | seq first second, taken, rest, captures =>
    ∃ start middle early late, taken = start ++ middle ∧ captures = early ++ late ∧
      first.Takes start (middle ++ rest) early ∧ second.Takes middle rest late
  | optional inner, taken, rest, captures =>
    inner.Takes taken rest captures ∨ taken = [] ∧ captures = []
  | group index inner, taken, rest, captures =>
    ∃ within, captures = (index, taken) :: within ∧ inner.Takes taken rest within
  | ahead accepts, taken, rest, captures => taken = [] ∧ accepts rest = true ∧ captures = []

theorem mem_greedy_iff (accepts : Symbol → Bool) (text rest : List Symbol) :
    rest ∈ greedy accepts text ↔
      ∃ taken, text = taken ++ rest ∧ ∀ symbol ∈ taken, accepts symbol = true := by
  induction text with
  | nil =>
    constructor
    · intro member
      exact ⟨[], by simpa [greedy, eq_comm] using member, by simp⟩
    · rintro ⟨taken, split, _⟩
      simp [greedy, (List.append_eq_nil_iff.mp split.symm).2]
  | cons symbol text ih =>
    rw [greedy]
    constructor
    · intro member
      split at member
      · rename_i accepted
        rcases List.mem_append.mp member with later | here
        · obtain ⟨taken, rfl, all⟩ := ih.mp later
          exact ⟨symbol :: taken, rfl, by simpa [accepted] using all⟩
        · exact ⟨[], (List.mem_singleton.mp here).symm, by simp⟩
      · exact ⟨[], (List.mem_singleton.mp member).symm, by simp⟩
    · rintro ⟨taken, split, all⟩
      cases taken with
      | nil =>
        rw [List.nil_append] at split
        split <;> simp [split]
      | cons head taken =>
        obtain ⟨rfl, rfl⟩ := List.cons.inj split
        have accepted : accepts symbol = true := all symbol (by simp)
        rw [if_pos accepted]
        apply List.mem_append_left
        exact ih.mpr ⟨taken, rfl, fun other member => all other (by simp [member])⟩

/-- The matcher finds all the ways in which the pattern takes a beginning of the text. -/
theorem mem_run_iff (pattern : Pattern Symbol) :
    ∀ text captures rest, (captures, rest) ∈ pattern.run text ↔
      ∃ taken, text = taken ++ rest ∧ pattern.Takes taken rest captures := by
  induction pattern with
  | nothing =>
    intro text captures rest
    simp [run, Takes, eq_comm, and_comm]
  | one accepts =>
    intro text captures rest
    cases text with
    | nil => simp [run, Takes]
    | cons symbol text =>
      rw [run]
      constructor
      · intro member
        split at member
        · rename_i accepted
          obtain ⟨rfl, rfl⟩ := Prod.mk.inj (List.mem_singleton.mp member)
          exact ⟨[symbol], rfl, ⟨symbol, rfl, accepted⟩, rfl⟩
        · cases member
      · rintro ⟨taken, split, ⟨head, rfl, accepted⟩, rfl⟩
        obtain ⟨rfl, rfl⟩ := List.cons.inj split
        simp [accepted]
  | many accepts =>
    intro text captures rest
    simp only [run, Takes, List.mem_map, Prod.mk.injEq]
    constructor
    · rintro ⟨rest, member, rfl, rfl⟩
      obtain ⟨taken, split, all⟩ := (mem_greedy_iff accepts text rest).mp member
      exact ⟨taken, split, all, rfl⟩
    · rintro ⟨taken, split, all, rfl⟩
      exact ⟨rest, (mem_greedy_iff accepts text rest).mpr ⟨taken, split, all⟩, rfl, rfl⟩
  | seq first second ihFirst ihSecond =>
    intro text captures rest
    simp only [run, Takes, List.mem_flatMap, List.mem_map, Prod.mk.injEq, Prod.exists]
    constructor
    · rintro ⟨early, middle, inFirst, late, rest, inSecond, rfl, rfl⟩
      obtain ⟨start, rfl, takesFirst⟩ := (ihFirst _ _ _).mp inFirst
      obtain ⟨between, rfl, takesSecond⟩ := (ihSecond _ _ _).mp inSecond
      exact ⟨start ++ between, (List.append_assoc ..).symm, start, between, early, late, rfl,
        rfl, takesFirst, takesSecond⟩
    · rintro ⟨_, rfl, start, between, early, late, rfl, rfl, takesFirst, takesSecond⟩
      refine ⟨early, between ++ rest, (ihFirst _ _ _).mpr ?_, late, rest,
        (ihSecond _ _ _).mpr ⟨between, rfl, takesSecond⟩, rfl, rfl⟩
      exact ⟨start, List.append_assoc .., takesFirst⟩
  | optional inner ih =>
    intro text captures rest
    simp only [run, Takes, List.mem_append, ih, List.mem_singleton, Prod.mk.injEq]
    constructor
    · rintro (⟨taken, split, takes⟩ | ⟨rfl, rfl⟩)
      · exact ⟨taken, split, .inl takes⟩
      · exact ⟨[], rfl, .inr ⟨rfl, rfl⟩⟩
    · rintro ⟨taken, split, takes | ⟨rfl, rfl⟩⟩
      · exact .inl ⟨taken, split, takes⟩
      · exact .inr ⟨rfl, split.symm⟩
  | group index inner ih =>
    intro text captures rest
    simp only [run, Takes, List.mem_map, Prod.mk.injEq, Prod.exists, ih]
    constructor
    · rintro ⟨within, rest, ⟨taken, rfl, takes⟩, rfl, rfl⟩
      exact ⟨taken, rfl, within, by simp, takes⟩
    · rintro ⟨taken, rfl, within, rfl, takes⟩
      exact ⟨within, rest, ⟨taken, rfl, takes⟩, by simp, rfl⟩
  | ahead accepts =>
    intro text captures rest
    simp only [run, Takes]
    constructor
    · intro member
      split at member
      · rename_i accepted
        obtain ⟨rfl, rfl⟩ := Prod.mk.inj (List.mem_singleton.mp member)
        exact ⟨[], rfl, rfl, accepted, rfl⟩
      · cases member
    · rintro ⟨_, rfl, rfl, accepted, rfl⟩
      simp [accepted]

theorem takes_plus_iff (accepts : Symbol → Bool) (taken rest : List Symbol)
    (captures : Captures Symbol) :
    (plus accepts).Takes taken rest captures ↔
      (taken ≠ [] ∧ ∀ symbol ∈ taken, accepts symbol = true) ∧ captures = [] := by
  constructor
  · rintro ⟨_, more, _, _, rfl, rfl, ⟨⟨symbol, rfl, accepted⟩, rfl⟩, all, rfl⟩
    exact ⟨⟨by simp, by simpa [accepted] using all⟩, rfl⟩
  · rintro ⟨⟨something, all⟩, rfl⟩
    obtain ⟨symbol, more, rfl⟩ := List.exists_cons_of_ne_nil something
    exact ⟨[symbol], more, [], [], rfl, rfl, ⟨⟨symbol, rfl, all symbol (by simp)⟩, rfl⟩,
      fun other member => all other (by simp [member]), rfl⟩

theorem takes_times_iff (accepts : Symbol → Bool) (count : Nat) :
    ∀ taken rest captures, (times accepts count).Takes taken rest captures ↔
      (taken.length = count ∧ ∀ symbol ∈ taken, accepts symbol = true) ∧ captures = [] := by
  induction count with
  | zero =>
    intro taken rest captures
    simp +contextual [times, Takes]
  | succ count ih =>
    intro taken rest captures
    constructor
    · rintro ⟨_, more, _, late, rfl, rfl, ⟨⟨symbol, rfl, accepted⟩, rfl⟩, takes⟩
      obtain ⟨⟨long, all⟩, rfl⟩ := (ih _ _ _).mp takes
      exact ⟨⟨by simp [long], by simpa [accepted] using all⟩, rfl⟩
    · rintro ⟨⟨long, all⟩, rfl⟩
      obtain ⟨symbol, more, rfl⟩ := List.exists_cons_of_length_eq_add_one long
      refine ⟨[symbol], more, [], [], rfl, rfl, ⟨⟨symbol, rfl, all symbol (by simp)⟩, rfl⟩, ?_⟩
      exact (ih _ _ _).mpr ⟨⟨by simpa using long, fun other member => all other (by simp [member])⟩,
        rfl⟩

theorem takes_word_iff [DecidableEq Symbol] (symbols : List Symbol) :
    ∀ taken rest captures, (word symbols).Takes taken rest captures ↔
      taken = symbols ∧ captures = [] := by
  induction symbols with
  | nil =>
    intro taken rest captures
    simp [word, Takes]
  | cons symbol symbols ih =>
    intro taken rest captures
    simp only [word, Takes, ih]
    constructor
    · rintro ⟨_, _, _, _, rfl, rfl, ⟨⟨first, rfl, same⟩, rfl⟩, rfl, rfl⟩
      exact ⟨by simpa using same, rfl⟩
    · rintro ⟨rfl, rfl⟩
      exact ⟨[symbol], symbols, [], [], rfl, rfl, ⟨⟨symbol, rfl, by simp⟩, rfl⟩, rfl, rfl⟩

theorem takes_ahead_iff (accepts : List Symbol → Bool) (taken rest : List Symbol)
    (captures : Captures Symbol) :
    (ahead accepts).Takes taken rest captures ↔
      taken = [] ∧ accepts rest = true ∧ captures = [] := Iff.rfl

/-- A sequence whose first part captures nothing. -/
theorem takes_silent_seq_iff {silent next : Pattern Symbol} {accepted : List Symbol → Prop}
    (takesSilent : ∀ taken rest captures,
      silent.Takes taken rest captures ↔ accepted taken ∧ captures = [])
    (taken rest : List Symbol) (captures : Captures Symbol) :
    (seq silent next).Takes taken rest captures ↔
      ∃ start more, taken = start ++ more ∧ accepted start ∧ next.Takes more rest captures := by
  simp only [Takes, takesSilent]
  constructor
  · rintro ⟨start, more, _, late, rfl, rfl, ⟨accepts, rfl⟩, takes⟩
    exact ⟨start, more, rfl, accepts, takes⟩
  · rintro ⟨start, more, rfl, accepts, takes⟩
    exact ⟨start, more, [], captures, rfl, rfl, ⟨accepts, rfl⟩, takes⟩

theorem takes_word_seq_iff [DecidableEq Symbol] (symbols : List Symbol) {next : Pattern Symbol}
    (taken rest : List Symbol) (captures : Captures Symbol) :
    (seq (word symbols) next).Takes taken rest captures ↔
      ∃ more, taken = symbols ++ more ∧ next.Takes more rest captures := by
  rw [takes_silent_seq_iff (takes_word_iff symbols)]
  constructor
  · rintro ⟨_, more, split, rfl, takes⟩
    exact ⟨more, split, takes⟩
  · rintro ⟨more, split, takes⟩
    exact ⟨symbols, more, split, rfl, takes⟩

/-- A sequence whose first part is a group that captures nothing else. -/
theorem takes_group_seq_iff {silent next : Pattern Symbol} {accepted : List Symbol → Prop}
    (takesSilent : ∀ taken rest captures,
      silent.Takes taken rest captures ↔ accepted taken ∧ captures = [])
    (index : Nat) (taken rest : List Symbol) (captures : Captures Symbol) :
    (seq (group index silent) next).Takes taken rest captures ↔
      ∃ start more late, taken = start ++ more ∧ accepted start ∧
        captures = (index, start) :: late ∧ next.Takes more rest late := by
  simp only [Takes, takesSilent]
  constructor
  · rintro ⟨start, more, _, late, rfl, rfl, ⟨_, rfl, accepts, rfl⟩, takes⟩
    exact ⟨start, more, late, rfl, accepts, rfl, takes⟩
  · rintro ⟨start, more, late, rfl, accepts, rfl, takes⟩
    exact ⟨start, more, [(index, start)], late, rfl, rfl, ⟨[], rfl, accepts, rfl⟩, takes⟩

end Pattern

end EzSdk.Patterns
