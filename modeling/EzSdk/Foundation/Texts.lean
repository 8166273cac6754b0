import Mathlib.Data.List.DropRight

/-! Stripping a text, removing a pattern from it, splitting it into fields and joining fields, as
scripting languages do it. -/

namespace EzSdk.Texts

variable {Symbol : Type}

section Strip

variable (isSpace : Symbol → Bool)

/-- The text without spaces at its start and its end. -/
def strip (text : List Symbol) : List Symbol := (text.dropWhile isSpace).rdropWhile isSpace

variable {isSpace}

theorem rdropWhile_append_of_last (front text : List Symbol) {last : Symbol}
    (visible : isSpace last = false) :
    (front ++ last :: text).rdropWhile isSpace = front ++ last :: text.rdropWhile isSpace := by
  induction text using List.reverseRecOn with
  | nil =>
    rw [List.rdropWhile_concat, if_neg (by simp [visible])]
    rfl
  | append_singleton text symbol ih =>
    have shape : front ++ last :: (text ++ [symbol]) = (front ++ last :: text) ++ [symbol] := by simp
    rw [shape, List.rdropWhile_concat, List.rdropWhile_concat]
    split
    · exact ih
    · exact shape.symm

/-- Between two visible symbols nothing is stripped. -/
theorem strip_append (first last : Symbol) (middle text : List Symbol)
    (firstVisible : isSpace first = false) (lastVisible : isSpace last = false) :
    strip isSpace (first :: middle ++ last :: text) =
      first :: middle ++ last :: text.rdropWhile isSpace := by
  have start : (first :: middle ++ last :: text).dropWhile isSpace = first :: middle ++ last :: text := by
    simp [firstVisible]
  rw [strip, start]
  exact rdropWhile_append_of_last (first :: middle) text lastVisible

end Strip

section Remove

variable [DecidableEq Symbol]

/-- The text without the occurrences of the pattern, which are looked for from left to right; `skip`
symbols are still to be left out. -/
def removeFrom (pattern : List Symbol) : Nat → List Symbol → List Symbol
  | _, [] => []
  | skip + 1, _ :: text => removeFrom pattern skip text
  | 0, symbol :: text =>
    if pattern <+: symbol :: text then removeFrom pattern (pattern.length - 1) text
    else symbol :: removeFrom pattern 0 text

/-- `text.replace(pattern, "")`. -/
def remove (pattern text : List Symbol) : List Symbol := removeFrom pattern 0 text

theorem removeFrom_skip (pattern front text : List Symbol) :
    removeFrom pattern front.length (front ++ text) = removeFrom pattern 0 text := by
  induction front with
  | nil => rfl
  | cons symbol front ih => exact ih

theorem remove_front (first : Symbol) (pattern text : List Symbol) :
    remove (first :: pattern) (first :: pattern ++ text) = remove (first :: pattern) text := by
  have starts : first :: pattern <+: first :: (pattern ++ text) := List.prefix_append _ _
  show removeFrom _ 0 (first :: (pattern ++ text)) = _
  rw [removeFrom, if_pos starts]
  exact removeFrom_skip (first :: pattern) pattern text

theorem remove_of_notMem (first : Symbol) (pattern text : List Symbol) (absent : first ∉ text) :
    remove (first :: pattern) text = text := by
  induction text with
  | nil => rfl
  | cons symbol text ih =>
    rw [List.mem_cons, not_or] at absent
    have differs : ¬ first :: pattern <+: symbol :: text := by
      intro starts
      exact absent.1 (List.cons_prefix_cons.mp starts).1
    rw [remove, removeFrom, if_neg differs]
    exact congrArg (symbol :: ·) (ih absent.2)

/-- What is left of a text behind a pattern that it does not contain. -/
theorem remove_front_of_notMem (first : Symbol) (pattern text : List Symbol) (absent : first ∉ text) :
    remove (first :: pattern) (first :: pattern ++ text) = text := by
  rw [remove_front, remove_of_notMem first pattern text absent]

theorem removeFrom_subset (pattern : List Symbol) (skip : Nat) (text : List Symbol) :
    removeFrom pattern skip text ⊆ text := by
  induction text generalizing skip with
  | nil => cases skip <;> exact List.Subset.refl _
  | cons symbol text ih =>
    cases skip with
    | succ skip => exact List.subset_cons_of_subset _ (ih skip)
    | zero =>
      rw [removeFrom]
      split
      · exact List.subset_cons_of_subset _ (ih _)
      · exact List.cons_subset_cons _ (ih 0)

theorem remove_subset (pattern text : List Symbol) : remove pattern text ⊆ text :=
  removeFrom_subset pattern 0 text

end Remove

section Injective

/-- A field and what follows it can be read off a text, if the separator does not occur in fields. -/
theorem field_injective {separator : Symbol} {field other : List Symbol} (plain : separator ∉ field)
    (otherPlain : separator ∉ other) {text rest : List Symbol}
    (same : field ++ separator :: text = other ++ separator :: rest) : field = other ∧ text = rest := by
  induction field generalizing other with
  | nil =>
    cases other with
    | nil => exact ⟨rfl, (List.cons.inj same).2⟩
    | cons symbol other =>
      have isSeparator := (List.cons.inj same).1
      exact absurd (isSeparator ▸ List.mem_cons_self) otherPlain
  | cons symbol field ih =>
    cases other with
    | nil =>
      have isSeparator := (List.cons.inj same).1
      exact absurd (isSeparator ▸ List.mem_cons_self) plain
    | cons otherSymbol other =>
      obtain ⟨first, later⟩ := List.cons.inj same
      have fields := ih (fun member => plain (List.mem_cons_of_mem _ member))
        (fun member => otherPlain (List.mem_cons_of_mem _ member)) later
      exact ⟨by rw [first, fields.1], fields.2⟩

theorem notMem_intercalate {symbol : Symbol} {separator : List Symbol} {fields : List (List Symbol)}
    (absent : symbol ∉ separator) (plain : ∀ field ∈ fields, symbol ∉ field) :
    symbol ∉ separator.intercalate fields := by
  induction fields with
  | nil => simp
  | cons field fields ih =>
    have later := ih fun other member => plain other (List.mem_cons_of_mem _ member)
    have first := plain field List.mem_cons_self
    cases fields with
    | nil => simpa using first
    | cons next fields =>
      rw [List.intercalate_cons_cons, List.mem_append, List.mem_append]
      intro member
      rcases member with (inField | inSeparator) | inLater
      · exact first inField
      · exact absent inSeparator
      · exact later inLater

end Injective

section Fields

variable [BEq Symbol] [LawfulBEq Symbol]

/-- The first field of a text. -/
theorem splitOn_cons (separator : Symbol) (field text : List Symbol) (plain : separator ∉ field) :
    (field ++ separator :: text).splitOn separator = field :: text.splitOn separator := by
  rw [List.splitOn_append_cons_self, List.splitOn_eq_singleton plain]
  rfl

/-- What splitting leaves of joined fields, if only the first symbol of the separator is split at. -/
theorem splitOn_intercalate_cons {separator : Symbol} {tail : List Symbol} (tailPlain : separator ∉ tail)
    {field : List Symbol} {fields : List (List Symbol)} (plain : ∀ other ∈ field :: fields, separator ∉ other) :
    ((separator :: tail).intercalate (field :: fields)).splitOn separator =
      field :: fields.map (tail ++ ·) := by
  induction fields generalizing field with
  | nil =>
    rw [List.intercalate_singleton, List.splitOn_eq_singleton (plain field List.mem_cons_self)]
    rfl
  | cons next fields ih =>
    obtain ⟨fieldPlain, laterPlain⟩ := List.forall_mem_cons.mp plain
    obtain ⟨nextPlain, restPlain⟩ := List.forall_mem_cons.mp laterPlain
    have marked : ∀ other ∈ (tail ++ next) :: fields, separator ∉ other := by
      rw [List.forall_mem_cons]
      exact ⟨by simp [tailPlain, nextPlain], restPlain⟩
    have shape : tail ++ (separator :: tail).intercalate (next :: fields) =
        (separator :: tail).intercalate ((tail ++ next) :: fields) := by
      cases fields with
      | nil => simp
      | cons other fields => simp [List.intercalate_cons_cons]
    rw [List.intercalate_cons_cons, List.append_assoc, List.cons_append,
      splitOn_cons separator field _ fieldPlain, shape, ih marked, List.map_cons]

end Fields

end EzSdk.Texts
