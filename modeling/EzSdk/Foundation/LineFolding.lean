import Mathlib.Data.List.Basic

/-! `fold -s` of the GNU core utilities on single lines: where a line is broken, that nothing of it
is lost, and that every piece fits. -/

namespace EzSdk.LineFolding

/-- Where the column is after a byte: backspaces, carriage returns and tabs move it. -/
def adjustColumn (column : Nat) (byte : UInt8) : Nat :=
  if byte = 8 then column - 1
  else if byte = 13 then 0
  else if byte = 9 then column + (8 - column % 8)
  else column + 1

def columns (text : List UInt8) : Nat := text.foldl adjustColumn 0

def isBlank (byte : UInt8) : Bool := byte = 32 || byte = 9

/-- The text up to its last blank, if it has one, and what follows that. -/
def splitLastBlank (text : List UInt8) : Option (List UInt8 × List UInt8) :=
  let front := (text.reverse.dropWhile fun byte => !isBlank byte).reverse
  if front = [] then none
  else some (front, (text.reverse.takeWhile fun byte => !isBlank byte).reverse)

/-- The pieces that are printed, and the piece that is being filled. -/
structure Folding where
  printed : List (List UInt8)
  current : List UInt8

/-- Break before the byte, unless the piece is empty. -/
def breakHard (folding : Folding) (byte : UInt8) : Folding :=
  if folding.current = [] then ⟨folding.printed, [byte]⟩
  else ⟨folding.printed ++ [folding.current], [byte]⟩

/-- The next byte of a line. One that does not fit goes to the next piece, with what stands between
it and the last blank before it. -/
def putByte (width : Nat) (folding : Folding) (byte : UInt8) : Folding :=
  if columns (folding.current ++ [byte]) ≤ width then
    ⟨folding.printed, folding.current ++ [byte]⟩
  else
    match splitLastBlank folding.current with
    | none => breakHard folding byte
    | some (front, back) =>
      if columns (back ++ [byte]) ≤ width then ⟨folding.printed ++ [front], back ++ [byte]⟩
      else breakHard ⟨folding.printed ++ [front], back⟩ byte

/-- The pieces of a line. -/
def foldLine (width : Nat) (line : List UInt8) : List (List UInt8) :=
  let folding := line.foldl (putByte width) ⟨[], []⟩
  folding.printed ++ [folding.current]

/-! ### Nothing is lost -/

def Folding.text (folding : Folding) : List UInt8 := folding.printed.flatten ++ folding.current

theorem splitLastBlank_append {text front back : List UInt8}
    (split : splitLastBlank text = some (front, back)) : front ++ back = text ∧ front ≠ [] := by
  unfold splitLastBlank at split
  dsimp only at split
  split at split
  · cases split
  · rename_i something
    cases split
    refine ⟨?_, something⟩
    rw [← List.reverse_append, List.takeWhile_append_dropWhile, List.reverse_reverse]

theorem breakHard_text (folding : Folding) (byte : UInt8) :
    (breakHard folding byte).text = folding.text ++ [byte] := by
  unfold breakHard
  split
  · rename_i nothing
    simp [Folding.text, nothing]
  · simp [Folding.text]

/-- No byte is dropped or moved. -/
theorem putByte_text (width : Nat) (folding : Folding) (byte : UInt8) :
    (putByte width folding byte).text = folding.text ++ [byte] := by
  unfold putByte
  split
  · simp [Folding.text]
  · split
    · exact breakHard_text folding byte
    · rename_i front back split
      have whole := (splitLastBlank_append split).1
      split
      · simp [Folding.text, ← whole]
      · rw [breakHard_text]
        simp [Folding.text, ← whole]

theorem foldl_putByte_text (width : Nat) (line : List UInt8) (folding : Folding) :
    (line.foldl (putByte width) folding).text = folding.text ++ line := by
  induction line generalizing folding with
  | nil => simp
  | cons byte line ih =>
    rw [List.foldl_cons, ih, putByte_text, List.append_assoc]
    rfl

theorem foldLine_flatten (width : Nat) (line : List UInt8) : (foldLine width line).flatten = line := by
  have whole := foldl_putByte_text width line ⟨[], []⟩
  simpa [foldLine, Folding.text] using whole

/-! ### No piece is empty, and every piece fits -/

theorem adjustColumn_mono (byte : UInt8) {first second : Nat} (le : first ≤ second) :
    adjustColumn first byte ≤ adjustColumn second byte := by
  unfold adjustColumn
  split
  · omega
  · split
    · exact Nat.le_refl 0
    · split
      · omega
      · omega

theorem foldl_adjustColumn_mono (text : List UInt8) {first second : Nat} (le : first ≤ second) :
    text.foldl adjustColumn first ≤ text.foldl adjustColumn second := by
  induction text generalizing first second with
  | nil => exact le
  | cons byte text ih => exact ih (adjustColumn_mono byte le)

/-- A text does not need more columns when what stands before it is taken away. -/
theorem columns_le_append (front text : List UInt8) : columns text ≤ columns (front ++ text) := by
  rw [columns, columns, List.foldl_append]
  exact foldl_adjustColumn_mono text (Nat.zero_le _)

theorem columns_singleton (byte : UInt8) : columns [byte] ≤ 8 := by
  show adjustColumn 0 byte ≤ 8
  unfold adjustColumn
  split
  · omega
  · split
    · omega
    · split
      · omega
      · omega

/-- A text that fits from its start on. -/
def Fits (width : Nat) (text : List UInt8) : Prop := ∀ front, front <+: text → columns front ≤ width

theorem Fits.concat {width : Nat} {text : List UInt8} {byte : UInt8} (fits : Fits width text)
    (whole : columns (text ++ [byte]) ≤ width) : Fits width (text ++ [byte]) := by
  intro front isPrefix
  cases List.prefix_concat_iff.mp isPrefix with
  | inl same =>
    rw [same]
    exact whole
  | inr shorter => exact fits front shorter

/-- A single byte fits wherever a tab does. -/
theorem fits_singleton {width : Nat} (wide : 8 ≤ width) (byte : UInt8) : Fits width [byte] := by
  have empty : Fits width [] := by
    intro front isPrefix
    rw [List.prefix_nil.mp isPrefix]
    exact Nat.zero_le _
  exact empty.concat (Nat.le_trans (columns_singleton byte) wide)

/-- What holds while a line is folded: only the piece of an empty line is empty, and all pieces
fit. -/
structure Filled (width : Nat) (folding : Folding) : Prop where
  printed : ∀ piece ∈ folding.printed, piece ≠ [] ∧ columns piece ≤ width
  started : folding.current = [] → folding.printed = []
  fits : Fits width folding.current

theorem printed_concat {width : Nat} {pieces : List (List UInt8)} {last : List UInt8}
    (pieces_ok : ∀ piece ∈ pieces, piece ≠ [] ∧ columns piece ≤ width) (something : last ≠ [])
    (fits : columns last ≤ width) : ∀ piece ∈ pieces ++ [last], piece ≠ [] ∧ columns piece ≤ width := by
  intro piece member
  cases List.mem_append.mp member with
  | inl earlier => exact pieces_ok piece earlier
  | inr isLast =>
    rw [List.mem_singleton.mp isLast]
    exact ⟨something, fits⟩

theorem filled_breakHard {width : Nat} (wide : 8 ≤ width) (folding : Folding) (byte : UInt8)
    (printed : ∀ piece ∈ folding.printed, piece ≠ [] ∧ columns piece ≤ width)
    (fits : Fits width folding.current) : Filled width (breakHard folding byte) := by
  unfold breakHard
  split
  · exact ⟨printed, nofun, fits_singleton wide byte⟩
  · rename_i something
    exact ⟨printed_concat printed something (fits _ List.prefix_rfl), nofun,
      fits_singleton wide byte⟩

theorem filled_putByte {width : Nat} (wide : 8 ≤ width) (folding : Folding) (byte : UInt8)
    (filled : Filled width folding) : Filled width (putByte width folding byte) := by
  unfold putByte
  split
  · rename_i whole
    exact ⟨filled.printed, by simp, filled.fits.concat whole⟩
  · split
    · exact filled_breakHard wide folding byte filled.printed filled.fits
    · rename_i front back split
      obtain ⟨whole, something⟩ := splitLastBlank_append split
      have frontFits : columns front ≤ width := filled.fits front ⟨back, whole⟩
      have printed := printed_concat filled.printed something frontFits
      have backFits : Fits width back := by
        intro start isPrefix
        have longer : front ++ start <+: folding.current := by
          rw [← whole]
          exact (List.prefix_append_right_inj front).mpr isPrefix
        exact Nat.le_trans (columns_le_append front start) (filled.fits _ longer)
      split
      · rename_i fitsToo
        exact ⟨printed, by simp, backFits.concat fitsToo⟩
      · exact filled_breakHard wide ⟨_, back⟩ byte printed backFits

theorem filled_foldl {width : Nat} (wide : 8 ≤ width) (line : List UInt8) (folding : Folding)
    (filled : Filled width folding) : Filled width (line.foldl (putByte width) folding) := by
  induction line generalizing folding with
  | nil => exact filled
  | cons byte line ih => exact ih _ (filled_putByte wide folding byte filled)

theorem filled_start (width : Nat) : Filled width ⟨[], []⟩ := by
  refine ⟨nofun, fun _ => rfl, ?_⟩
  intro front isPrefix
  rw [List.prefix_nil.mp isPrefix]
  exact Nat.zero_le _

/-- Every piece of a line fits. -/
theorem foldLine_fits {width : Nat} (wide : 8 ≤ width) (line : List UInt8) :
    ∀ piece ∈ foldLine width line, columns piece ≤ width := by
  have filled := filled_foldl wide line ⟨[], []⟩ (filled_start width)
  intro piece member
  cases List.mem_append.mp member with
  | inl isPrinted => exact (filled.printed piece isPrinted).2
  | inr isCurrent =>
    rw [List.mem_singleton.mp isCurrent]
    exact filled.fits _ List.prefix_rfl

/-- The pieces of a line start with a part of the line that is not empty. -/
theorem foldLine_cons {width : Nat} (wide : 8 ≤ width) (line : List UInt8) (something : line ≠ []) :
    ∃ piece pieces, foldLine width line = piece :: pieces ∧ piece ≠ [] ∧ piece <+: line := by
  have filled := filled_foldl wide line ⟨[], []⟩ (filled_start width)
  have flat := foldLine_flatten width line
  unfold foldLine at flat ⊢
  generalize line.foldl (putByte width) ⟨[], []⟩ = folding at filled flat
  dsimp only at flat ⊢
  cases pieces : folding.printed with
  | nil =>
    rw [pieces] at flat
    have current : folding.current = line := by simpa using flat
    exact ⟨folding.current, [], rfl, current ▸ something, current ▸ List.prefix_rfl⟩
  | cons piece printed =>
    have isPiece := filled.printed piece (pieces ▸ List.mem_cons_self)
    rw [pieces] at flat
    refine ⟨piece, printed ++ [folding.current], rfl, isPiece.1, ?_⟩
    rw [← flat]
    exact List.prefix_append piece _

end EzSdk.LineFolding
