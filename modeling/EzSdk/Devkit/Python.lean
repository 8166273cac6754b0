import EzSdk.Proto
import Mathlib.Data.Char
import Mathlib.Data.List.Infix
import Mathlib.Data.List.Lex
import Mathlib.Data.List.Sort

/-! The Python values and exceptions that the scripts of the devkit deal with. -/

namespace EzSdk.Devkit

/-- Texts that were decoded from bytes. -/
abbrev Chars := List Char

/-- A character of a Python string. `json.load` makes single surrogates of escapes. -/
inductive CodePoint where
  | char (value : Char)
  | surrogate (offset : Fin 2048)
  deriving DecidableEq

instance : Coe Char CodePoint := ⟨.char⟩

namespace CodePoint

def code : CodePoint → Nat
  | char value => value.toNat
  | surrogate offset => 0xD800 + offset

theorem char_not_surrogate (value : Char) (offset : Fin 2048) : value.toNat ≠ 0xD800 + offset := by
  have valid := value.valid
  rw [UInt32.isValidChar, Nat.isValidChar] at valid
  have same : value.val.toNat = value.toNat := rfl
  omega

theorem code_injective : Function.Injective code := by
  intro first second same
  cases first with
  | char value =>
    cases second with
    | char other => exact congrArg char (Char.toNat_inj.mp same)
    | surrogate offset => exact absurd same (char_not_surrogate value offset)
  | surrogate offset =>
    cases second with
    | char value => exact absurd same.symm (char_not_surrogate value offset)
    | surrogate other => exact congrArg surrogate (Fin.ext (Nat.add_left_cancel same))

end CodePoint

instance : LinearOrder CodePoint := LinearOrder.lift' CodePoint.code CodePoint.code_injective

abbrev Str := List CodePoint

/-- A string literal. -/
def py (text : String) : Str := text.toList.map .char

@[simp]
theorem py_eq_nil_iff (text : String) : py text = [] ↔ text = "" := by
  simp [py]

@[simp]
theorem char_mem_py_iff (char : Char) (text : String) : .char char ∈ py text ↔ char ∈ text.toList := by
  simp [py]

/-- `encode("utf-8")`, which raises an exception for a surrogate. -/
def utf8 : Str → Option Bytes
  | [] => some []
  | .char value :: text => (utf8 text).map (String.utf8EncodeChar value ++ ·)
  | .surrogate _ :: _ => none

def encodes (text : Str) : Bool := (utf8 text).isSome

@[simp]
theorem encodes_nil : encodes [] = true := rfl

theorem encodes_cons (char : CodePoint) (text : Str) :
    encodes (char :: text) = (encodes [char] && encodes text) := by
  cases char <;> simp [encodes, utf8]

@[simp]
theorem encodes_append (text rest : Str) : encodes (text ++ rest) = (encodes text && encodes rest) := by
  induction text with
  | nil => rfl
  | cons char text ih => rw [List.cons_append, encodes_cons, ih, encodes_cons char text, Bool.and_assoc]

@[simp]
theorem encodes_py (text : String) : encodes (py text) = true := by
  rw [py]
  induction text.toList with
  | nil => rfl
  | cons char chars ih => simpa [encodes, utf8] using ih

/-- What `json.load` returns. The fields of an object are in the order of the dict; of a
float only its truth value is kept. -/
inductive Json where
  | null
  | bool (value : Bool)
  | int (value : Int)
  | float (zero : Bool)
  | str (text : Str)
  | arr (elements : List Json)
  | obj (fields : List (Str × Json))

inductive Exception where
  | keyError
  | typeError
  | attributeError
  | valueError (text : Str)
  | jsonDecodeError
  | unicodeEncodeError
  | osError
  | recursionError
  deriving DecidableEq

/-- `sys.exit` raises SystemExit, which is not an `Exception`. -/
inductive Raised where
  | systemExit
  | exception (exception : Exception)
  deriving DecidableEq

abbrev raise {Value : Type} (exception : Exception) : Except Raised Value :=
  .error (.exception exception)

abbrev exit {Value : Type} : Except Raised Value := .error .systemExit

/-- `try` with one `except` clause. -/
def catching {Value : Type} (caught : Exception → Bool) (handler : Except Raised Value) :
    Except Raised Value → Except Raised Value
  | .error (.exception exception) =>
    if caught exception then handler else raise exception
  | result => result

/-- JSONDecodeError and UnicodeEncodeError are derived from ValueError. -/
def Exception.isValueError : Exception → Bool
  | valueError _ => true
  | jsonDecodeError => true
  | unicodeEncodeError => true
  | _ => false

namespace Json

def typeName : Json → Str
  | null => py "NoneType"
  | bool _ => py "bool"
  | int _ => py "int"
  | float _ => py "float"
  | str _ => py "str"
  | arr _ => py "list"
  | obj _ => py "dict"

def truthy : Json → Bool
  | null => false
  | bool value => value
  | int value => value ≠ 0
  | float zero => !zero
  | str text => !text.isEmpty
  | arr elements => !elements.isEmpty
  | obj fields => !fields.isEmpty

def isText (wanted : Str) : Json → Bool
  | str text => text = wanted
  | _ => false

/-- `key in value` -/
def contains (key : Str) : Json → Except Raised Bool
  | obj fields => .ok (fields.any (·.1 = key))
  | arr elements => .ok (elements.any (isText key))
  | str text => .ok (decide (key <:+: text))
  | _ => raise .typeError

/-- `value[key]` -/
def subscript (key : Str) : Json → Except Raised Json
  | obj fields =>
    match fields.lookup key with
    | some value => .ok value
    | none => raise .keyError
  | _ => raise .typeError

/-- `value.items()` -/
def items : Json → Except Raised (List (Str × Json))
  | obj fields => .ok fields
  | _ => raise .attributeError

end Json

/-- `str(value)`, of which only that it leaves a string as it is matters. -/
structure Display where
  text : Json → Str
  ofStr : ∀ text', text (.str text') = text'

/-- A JSON file: `unreadable` and `tooDeep` stand for the errors of the system and of the
recursion limit, `undecodable` for a ValueError that is no JSONDecodeError. -/
inductive JsonFile where
  | absent
  | unreadable
  | tooDeep
  | undecodable
  | invalid
  | parsed (json : Json)

/-- `exists`, `open` and `json.load`. -/
def JsonFile.load : JsonFile → Except Raised (Option Json)
  | absent => .ok none
  | unreadable => raise .osError
  | tooDeep => raise .recursionError
  | undecodable => raise (.valueError [])
  | invalid => raise .jsonDecodeError
  | parsed json => .ok (some json)

/-- `list.sort` of strings. -/
def sorted (texts : List Str) : List Str := texts.insertionSort (· ≤ ·)

end EzSdk.Devkit
