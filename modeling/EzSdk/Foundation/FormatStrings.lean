import Mathlib.Data.List.Basic

/-! Format strings with named fields and with fields that take the next positional
argument. Doubled braces stand for braces; what is put into a field is not read again. -/

namespace EzSdk.FormatStrings

abbrev Text := List Char

/-- Where the reader of a format string is: in the text, behind a closing brace there, or in a
field of which it has read the first characters. -/
inductive Place where
  | text
  | closing
  | field (key : Text)

/-- The value for a field, and the positional arguments that are left. -/
def fieldValue (named : List (Text × Text)) : Text → List Text → Option (Text × List Text)
  | [], [] => none
  | [], value :: later => some (value, later)
  | key, positional => (named.lookup key).map (fun value => (value, positional))

/-- A character that the key of a field can have. -/
def keyChar (char : Char) : Bool := !List.contains ['{', '}', '.', '[', ']', ','] char

def render (named : List (Text × Text)) : List Text → Place → Text → Option Text
  | _, .text, [] => some []
  | _, .closing, [] => none
  | _, .field _, [] => none
  | positional, .text, char :: rest =>
    if char = '{' then render named positional (.field []) rest
    else if char = '}' then render named positional .closing rest
    else (render named positional .text rest).map (char :: ·)
  | positional, .closing, char :: rest =>
    if char = '}' then (render named positional .text rest).map (char :: ·) else none
  | positional, .field key, char :: rest =>
    if char = '{' then
      if key = [] then (render named positional .text rest).map (char :: ·) else none
    else if char = '}' then
      (fieldValue named key positional).bind (fun (value, later) =>
        (render named later .text rest).map (value ++ ·))
    else if keyChar char then render named positional (.field (key ++ [char])) rest
    else none

/-- A text that a format string can have as it is. -/
def Plain (text : Text) : Prop := '{' ∉ text ∧ '}' ∉ text

instance (text : Text) : Decidable (Plain text) := inferInstanceAs (Decidable (_ ∧ _))

variable {named : List (Text × Text)} {positional : List Text}

theorem render_nil : render named positional .text [] = some [] := rfl

theorem render_plain {text : Text} (plain : Plain text) (rest : Text) :
    render named positional .text (text ++ rest) =
      (render named positional .text rest).map (text ++ ·) := by
  induction text with
  | nil => simp
  | cons char text ih =>
    obtain ⟨noOpening, noClosing⟩ := plain
    rw [List.mem_cons, not_or] at noOpening noClosing
    have later := ih ⟨noOpening.2, noClosing.2⟩
    simp [render, Ne.symm noOpening.1, Ne.symm noClosing.1, later, Function.comp_def]

/-- In a field, up to its closing brace. -/
theorem render_key {key : Text} (allowed : key.all keyChar = true) (read rest : Text) :
    render named positional (.field read) (key ++ '}' :: rest) =
      (fieldValue named (read ++ key) positional).bind (fun (value, later) =>
        (render named later .text rest).map (value ++ ·)) := by
  induction key generalizing read with
  | nil => simp [render]
  | cons char key ih =>
    rw [List.all_cons, Bool.and_eq_true] at allowed
    have notOpening : char ≠ '{' := fun same => absurd (same ▸ allowed.1) (by decide)
    have notClosing : char ≠ '}' := fun same => absurd (same ▸ allowed.1) (by decide)
    simp [render, notOpening, notClosing, allowed.1, ih allowed.2 (read ++ [char])]

theorem render_named {key value : Text} (nonempty : key ≠ []) (allowed : key.all keyChar = true)
    (found : named.lookup key = some value) (rest : Text) :
    render named positional .text ('{' :: (key ++ '}' :: rest)) =
      (render named positional .text rest).map (value ++ ·) := by
  have taken : fieldValue named key positional = some (value, positional) := by
    cases key with
    | nil => exact absurd rfl nonempty
    | cons char key => simp [fieldValue, found]
  simp [render, render_key allowed, taken]

theorem render_next (value rest : Text) :
    render named (value :: positional) .text ('{' :: '}' :: rest) =
      (render named positional .text rest).map (value ++ ·) := by
  simp [render, fieldValue]

end EzSdk.FormatStrings
