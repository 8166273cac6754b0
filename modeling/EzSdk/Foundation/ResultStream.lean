import Mathlib.Data.Seq.Basic

/-! Finite or infinite streams of results, as an rpc framework carries them: the
stream ends with its first error. -/

namespace EzSdk.ResultStream

open Stream'

variable {Error Item Other : Type}

def isError : Except Error Item → Bool
  | .error _ => true
  | .ok _ => false

/-- An item before this position is an error. -/
def errorBefore (stream : Seq (Except Error Item)) (position : Nat) : Bool :=
  (List.range position).any (fun earlier => (stream.get? earlier).any isError)

/-- The items of a stream up to and including the first error. -/
def throughError (stream : Seq (Except Error Item)) : Seq (Except Error Item) where
  val := fun position => if errorBefore stream position then none else stream.get? position
  property := by
    intro position
    simp only
    cases before : errorBefore stream position with
    | true =>
      have later : errorBefore stream (position + 1) = true := by
        simp only [errorBefore, List.range_succ, List.any_append, Bool.or_eq_true]
        exact .inl before
      simp [later]
    | false =>
      intro ended
      have after := stream.le_stable (Nat.le_succ position) (by simpa using ended)
      simp [after]

theorem throughError_get? (stream : Seq (Except Error Item)) (position : Nat) :
    (throughError stream).get? position =
      if errorBefore stream position then none else stream.get? position := rfl

theorem errorBefore_map (change : Except Error Item → Except Error Other)
    (kind : ∀ item, isError (change item) = isError item) (stream : Seq (Except Error Item))
    (position : Nat) : errorBefore (stream.map change) position = errorBefore stream position := by
  simp only [errorBefore, Seq.map_get?]
  congr 1
  funext earlier
  cases stream.get? earlier with
  | none => rfl
  | some item => exact kind item

/-- Changing items in a way that keeps errors errors and values values commutes with
ending the stream at the first error. -/
theorem throughError_map (change : Except Error Item → Except Error Other)
    (kind : ∀ item, isError (change item) = isError item) (stream : Seq (Except Error Item)) :
    throughError (stream.map change) = (throughError stream).map change := by
  apply Seq.ext
  intro position
  simp only [throughError_get?, Seq.map_get?, errorBefore_map change kind]
  cases errorBefore stream position <;> rfl

/-- No item after an error is left to find another error before. -/
theorem errorBefore_throughError (stream : Seq (Except Error Item)) (position : Nat)
    (none_before : errorBefore stream position = false) :
    errorBefore (throughError stream) position = false := by
  rw [errorBefore, List.any_eq_false] at none_before ⊢
  intro earlier member
  rw [throughError_get?]
  cases errorBefore stream earlier with
  | true => simp
  | false => exact none_before earlier member

theorem throughError_throughError (stream : Seq (Except Error Item)) :
    throughError (throughError stream) = throughError stream := by
  apply Seq.ext
  intro position
  rw [throughError_get?]
  cases before : errorBefore stream position with
  | true => simp [throughError_get?, before]
  | false => simp [errorBefore_throughError stream position before]

theorem throughError_singleton (error : Error) :
    throughError (Seq.cons (.error error) Seq.nil : Seq (Except Error Item)) =
      Seq.cons (.error error) Seq.nil := by
  apply Seq.ext
  intro position
  cases position with
  | zero => rfl
  | succ position => simp [throughError_get?]

end EzSdk.ResultStream
