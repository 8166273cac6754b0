import EzSdk.Plugin.RustModules

/-! `_snakecase` of `ez_sdk.py` against its specification: one pass that looks at the neighbours of
each place between two characters. -/

namespace EzSdk.Plugin

/-- A character of an ASCII identifier. -/
def IdentifierChar (char : Char) : Prop := char.isAlphanum = true ∨ char = '_'

structure Identifier where
  text : String
  valid : ∀ char ∈ text.toList, IdentifierChar char

/-- Underscores at the places where the characters before and after and the one behind them pass a
test. -/
def separated (test : Char → Char → Option Char → Bool) : List Char → List Char
  | before :: after :: rest =>
    if test before after rest.head? then before :: '_' :: separated test (after :: rest)
    else before :: separated test (after :: rest)
  | rest => rest

/-- Between a lower-case letter or digit and an upper-case letter. -/
def wordStarts (before after : Char) (_ : Option Char) : Bool := lowerOrDigit before && after.isUpper

/-- Between upper-case letters of which the second one begins a word. -/
def acronymEnds (before after : Char) (behind : Option Char) : Bool :=
  before.isUpper && after.isUpper && behind.any lowerOrDigit

def boundary (before after : Char) (behind : Option Char) : Bool :=
  wordStarts before after behind || acronymEnds before after behind

/-- The specification. -/
def snakecaseSpec (text : String) : String :=
  lower (String.ofList (separated boundary text.toList))

/-! ### The passes look at places one by one -/

theorem upper_not_lowerOrDigit {char : Char} (upper : char.isUpper = true) :
    lowerOrDigit char = false := by
  change decide ('A'.val ≤ char.val ∧ char.val ≤ 'Z'.val) = true at upper
  have bounds := of_decide_eq_true upper
  simp only [UInt32.le_iff_toNat_le] at bounds
  have firstUpper : 'A'.val.toNat = 65 := rfl
  have lastUpper : 'Z'.val.toNat = 90 := rfl
  have firstLower : 'a'.val.toNat = 97 := rfl
  have lastDigit : '9'.val.toNat = 57 := rfl
  change ((decide ('a'.val ≤ char.val) && decide (char.val ≤ 'z'.val)) ||
    (decide ('0'.val ≤ char.val) && decide (char.val ≤ '9'.val))) = false
  simp only [Bool.or_eq_false_iff, Bool.and_eq_false_iff, decide_eq_false_iff_not,
    UInt32.le_iff_toNat_le]
  omega

/-- A character before which no place passes is kept alone. -/
theorem separated_cons {test : Char → Char → Option Char → Bool} {first : Char} (rest : List Char)
    (never : ∀ after behind, test first after behind = false) :
    separated test (first :: rest) = first :: separated test rest := by
  cases rest with
  | nil => rfl
  | cons second rest => simp [separated, never]

theorem wordStarts_upper {before : Char} (upper : before.isUpper = true) (after : Char)
    (behind : Option Char) : wordStarts before after behind = false := by
  simp [wordStarts, upper_not_lowerOrDigit upper]

theorem acronymEnds_other {before : Char} (other : before.isUpper = false) (after : Char)
    (behind : Option Char) : acronymEnds before after behind = false := by
  simp [acronymEnds, other]

/-- A match ends in an upper-case letter, with which no other match begins. -/
theorem lowerUpperSub_eq (text : List Char) : lowerUpperSub text = separated wordStarts text := by
  induction text using lowerUpperSub.induct with
  | case1 first second rest found ih =>
    rw [lowerUpperSub, if_pos found, separated, wordStarts, if_pos found, ih]
    rw [Bool.and_eq_true] at found
    rw [separated_cons rest (wordStarts_upper found.2)]
  | case2 first second rest notFound ih =>
    rw [lowerUpperSub, if_neg notFound, separated, wordStarts, if_neg notFound, ih]
  | case3 text short =>
    match text with
    | [] => rfl
    | [_] => rfl
    | first :: second :: rest => exact absurd rfl (short first second rest)

/-- A match ends in a lower-case letter or digit behind an upper-case letter; no other match begins
with either. -/
theorem upperUpperSub_eq (text : List Char) : upperUpperSub text = separated acronymEnds text := by
  induction text using upperUpperSub.induct with
  | case1 first second third rest found ih =>
    have passes : acronymEnds first second (third :: rest).head? = true := found
    rw [upperUpperSub, if_pos found, separated, if_pos passes, ih]
    rw [Bool.and_eq_true] at found
    have small : third.isUpper = false := by
      cases upper : third.isUpper with
      | false => rfl
      | true => exact absurd found.2 (by simp [upper_not_lowerOrDigit upper])
    have inside : acronymEnds second third rest.head? = false := by simp [acronymEnds, small]
    rw [separated, if_neg (by simp [inside]), separated_cons rest (acronymEnds_other small)]
  | case2 first second third rest notFound ih =>
    have fails : ¬ acronymEnds first second (third :: rest).head? = true := notFound
    rw [upperUpperSub, if_neg notFound, separated, if_neg fails, ih]
  | case3 text short =>
    match text with
    | [] => rfl
    | [_] => rfl
    | [_, _] => simp [upperUpperSub, separated, acronymEnds]
    | first :: second :: third :: rest => exact absurd rfl (short first second third rest)

theorem head_separated (test : Char → Char → Option Char → Bool) (text : List Char) :
    (separated test text).head? = text.head? := by
  match text with
  | [] => rfl
  | [_] => rfl
  | before :: after :: rest =>
    rw [separated]
    split
    · rfl
    · rfl

/-- What the second pass sees around a place is what was there before the first pass. -/
theorem separated_separated (text : List Char) :
    separated acronymEnds (separated wordStarts text) = separated boundary text := by
  induction text with
  | nil => rfl
  | cons before text ih =>
    cases text with
    | nil => rfl
    | cons after rest =>
      rw [separated, separated]
      cases starts : wordStarts before after rest.head? with
      | true =>
        have small : before.isUpper = false := by
          cases upper : before.isUpper with
          | false => rfl
          | true => exact absurd starts (by simp [wordStarts_upper upper])
        have underscore : ('_' : Char).isUpper = false := by decide
        rw [if_pos rfl, separated_cons _ (acronymEnds_other small),
          separated_cons _ (acronymEnds_other underscore), ih, boundary, starts, Bool.true_or,
          if_pos rfl]
      | false =>
        obtain ⟨later, inner⟩ : ∃ later, separated wordStarts (after :: rest) = after :: later :=
          List.head?_eq_some_iff.mp (head_separated wordStarts (after :: rest))
        have behind : acronymEnds before after later.head? =
            acronymEnds before after rest.head? := by
          cases upper : after.isUpper with
          | false => simp [acronymEnds, upper]
          | true =>
            rw [separated_cons rest (wordStarts_upper upper)] at inner
            rw [← (List.cons.inj inner).2, head_separated]
        rw [if_neg Bool.false_ne_true, inner, separated, behind, ← inner, ih, boundary, starts,
          Bool.false_or]

/-! ### Texts in lower case -/

theorem isUpper_toLower (char : Char) : char.toLower.isUpper = false := by
  by_cases upper : 'A'.val ≤ char.val ∧ char.val ≤ 'Z'.val
  · have checked : ∀ code < 128, (Char.ofNat code).toLower.isUpper = false := by decide +kernel
    have small := upper.2
    rw [UInt32.le_iff_toNat_le] at small
    have code := checked char.toNat (Nat.lt_of_le_of_lt small (by decide))
    rwa [Char.ofNat_toNat] at code
  · have same : char.toLower = char := dif_neg upper
    rw [same]
    exact decide_eq_false upper

theorem toLower_of_not_upper {char : Char} (other : char.isUpper = false) : char.toLower = char :=
  dif_neg (of_decide_eq_false other)

theorem separated_lower (text : List Char) (lowerCase : ∀ char ∈ text, char.isUpper = false) :
    separated boundary text = text := by
  induction text with
  | nil => rfl
  | cons first text ih =>
    have small := lowerCase first List.mem_cons_self
    have rest := ih (fun char member => lowerCase char (List.mem_cons_of_mem first member))
    cases text with
    | nil => rfl
    | cons second text =>
      have next := lowerCase second (List.mem_cons_of_mem first List.mem_cons_self)
      have inside : boundary first second text.head? = false := by
        simp [boundary, wordStarts, acronymEnds, small, next]
      rw [separated, inside, if_neg Bool.false_ne_true, rest]

theorem snakecase_eq_spec (text : String) : snakecase text = snakecaseSpec text := by
  rw [snakecase, snakecaseSpec, lowerUpperSub_eq, upperUpperSub_eq, separated_separated]

theorem lower_of_lower {text : String} (lowerCase : ∀ char ∈ text.toList, char.isUpper = false) :
    lower text = text := by
  rw [lower]
  have same : text.toList.map Char.toLower = text.toList := by
    calc text.toList.map Char.toLower = text.toList.map id :=
          List.map_congr_left (fun char member => toLower_of_not_upper (lowerCase char member))
      _ = text.toList := List.map_id _
  rw [same, String.ofList_toList]

/-! ### Identifiers -/

theorem mem_separated {test : Char → Char → Option Char → Bool} {text : List Char} {char : Char}
    (member : char ∈ separated test text) : char ∈ text ∨ char = '_' := by
  induction text with
  | nil => exact .inl member
  | cons first text ih =>
    cases text with
    | nil => exact .inl member
    | cons second text =>
      rw [separated] at member
      split at member
      · rcases List.mem_cons.mp member with rfl | later
        · exact .inl List.mem_cons_self
        · rcases List.mem_cons.mp later with rfl | inRest
          · exact .inr rfl
          · exact (ih inRest).imp_left (List.mem_cons_of_mem _)
      · rcases List.mem_cons.mp member with rfl | inRest
        · exact .inl List.mem_cons_self
        · exact (ih inRest).imp_left (List.mem_cons_of_mem _)

theorem identifierChar_toLower {char : Char} (isValid : IdentifierChar char) :
    IdentifierChar char.toLower := by
  by_cases upper : char.isUpper = true
  · have checked : ∀ code < 128, (Char.ofNat code).isUpper = true →
        (Char.ofNat code).toLower.isAlphanum = true := by decide +kernel
    have small : char.toNat ≤ 90 := UInt32.le_iff_toNat_le.mp (of_decide_eq_true upper).2
    have code := checked char.toNat (by omega)
    rw [Char.ofNat_toNat] at code
    exact .inl (code upper)
  · rwa [toLower_of_not_upper (Bool.eq_false_iff.mpr upper)]

theorem snakecase_valid (name : Identifier) :
    ∀ char ∈ (snakecase name.text).toList, IdentifierChar char := by
  intro char member
  rw [snakecase_eq_spec, snakecaseSpec, lower, String.toList_ofList, String.toList_ofList] at member
  obtain ⟨original, inside, rfl⟩ := List.mem_map.mp member
  rcases mem_separated inside with inText | rfl
  · exact identifierChar_toLower (name.valid original inText)
  · exact .inr rfl

/-- On identifiers the two passes do what the specification says, and nothing to their own result,
which is an identifier. -/
theorem snakecase_one_pass (name : Identifier) :
    snakecase name.text = snakecaseSpec name.text ∧
      snakecase (snakecase name.text) = snakecase name.text ∧
      ∀ char ∈ (snakecase name.text).toList, IdentifierChar char := by
  refine ⟨snakecase_eq_spec name.text, ?_, snakecase_valid name⟩
  have lowerCase : ∀ char ∈ (snakecase name.text).toList, char.isUpper = false := by
    intro char member
    rw [snakecase, lower, String.toList_ofList] at member
    obtain ⟨original, _, same⟩ := List.mem_map.mp member
    rw [← same]
    exact isUpper_toLower original
  calc snakecase (snakecase name.text)
      = lower (String.ofList (separated boundary (snakecase name.text).toList)) :=
        snakecase_eq_spec _
    _ = lower (snakecase name.text) := by rw [separated_lower _ lowerCase, String.ofList_toList]
    _ = snakecase name.text := lower_of_lower lowerCase

example : snakecaseSpec "parseHTTPServerV2Request" = "parse_http_server_v2_request" := by
  decide +kernel

end EzSdk.Plugin
