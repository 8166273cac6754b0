import Mathlib.Data.List.Basic

/-! Paths as lexical processing sees them: a root or not, some steps up, and names. -/

namespace EzSdk.LexicalPaths

variable {Name : Type}

/-- An element between two separators of a path. -/
inductive Part (Name : Type) where
  | here
  | up
  | name (name : Name)
  deriving DecidableEq

/-- A path without anything left to eliminate. Nothing is above a root. -/
structure Path (Name : Type) where
  rooted : Bool
  ups : Nat
  names : List Name
  grounded : rooted = true → ups = 0
  deriving DecidableEq

namespace Path

def start (rooted : Bool) : Path Name := ⟨rooted, 0, [], fun _ => rfl⟩

/-- The relative path that names no step up. -/
def descent (names : List Name) : Path Name := ⟨false, 0, names, fun _ => rfl⟩

def goUp (path : Path Name) : Path Name :=
  match path.names with
  | [] =>
    { path with
      ups := if path.rooted then path.ups else path.ups + 1
      grounded := by
        intro rooted
        rw [if_pos rooted]
        exact path.grounded rooted }
  | _ :: _ => { path with names := path.names.dropLast }

def push (path : Path Name) : Part Name → Path Name
  | .here => path
  | .up => path.goUp
  | .name name => { path with names := path.names ++ [name] }

def pushAll (path : Path Name) (parts : List (Part Name)) : Path Name :=
  parts.foldl push path

/-- The elements by which the path is written. -/
def parts (path : Path Name) : List (Part Name) :=
  List.replicate path.ups .up ++ path.names.map .name

/-- The path that a relative path leads to from another. -/
def append (path other : Path Name) : Path Name := path.pushAll other.parts

theorem pushAll_append (path : Path Name) (first second : List (Part Name)) :
    path.pushAll (first ++ second) = (path.pushAll first).pushAll second :=
  List.foldl_append

theorem pushAll_here (path : Path Name) (count : Nat) :
    path.pushAll (List.replicate count .here) = path := by
  induction count with
  | zero => rfl
  | succ count ih => exact ih

theorem pushAll_names (path : Path Name) (names : List Name) :
    path.pushAll (names.map .name) = { path with names := path.names ++ names } := by
  induction names generalizing path with
  | nil => simp [pushAll]
  | cons name names ih =>
    have rest := ih (path.push (.name name))
    rw [List.map_cons, pushAll, List.foldl_cons, ← pushAll, rest]
    simp [push]

theorem goUp_names (path : Path Name) : path.goUp.names = path.names.dropLast := by
  cases path with
  | mk rooted ups names grounded => cases names <;> rfl

theorem append_descent (path : Path Name) (names : List Name) :
    path.append (descent names) = { path with names := path.names ++ names } := by
  rw [append, parts, descent, List.replicate_zero, List.nil_append, pushAll_names]

/-- Steps up from a path without names leave the root, or count. -/
theorem pushAll_ups (rooted : Bool) (ups count : Nat) (grounded : rooted = true → ups = 0) :
    (⟨rooted, ups, [], grounded⟩ : Path Name).pushAll (List.replicate count .up) =
      ⟨rooted, if rooted then ups else ups + count, [], by
        intro isRooted
        rw [if_pos isRooted]
        exact grounded isRooted⟩ := by
  induction count generalizing ups with
  | zero => simp [pushAll]
  | succ count ih =>
    rw [List.replicate_succ, pushAll, List.foldl_cons, ← pushAll]
    cases rooted with
    | false =>
      simp only [push, goUp, Bool.false_eq_true, if_false]
      rw [ih]
      simp [Nat.add_assoc, Nat.add_comm 1 count]
    | true =>
      simp only [push, goUp, if_true]
      rw [ih]
      simp

/-- A path is what its elements lead to from its start. -/
theorem start_pushAll_parts (path : Path Name) : (start path.rooted).pushAll path.parts = path := by
  rw [parts, pushAll_append, start, pushAll_ups, pushAll_names]
  cases path with
  | mk rooted ups names grounded =>
    cases rooted with
    | false => simp
    | true => simp [grounded rfl]

/-- A step changes neither the root nor, downwards, the number of steps up. -/
theorem push_bounds (path : Path Name) (part : Part Name) :
    (path.push part).rooted = path.rooted ∧ path.ups ≤ (path.push part).ups := by
  cases part with
  | here => exact ⟨rfl, Nat.le_refl _⟩
  | name name => exact ⟨rfl, Nat.le_refl _⟩
  | up =>
    cases path with
    | mk rooted ups names grounded =>
      cases names with
      | nil =>
        refine ⟨rfl, ?_⟩
        cases rooted with
        | false => exact Nat.le_succ ups
        | true => exact Nat.le_refl ups
      | cons name names => exact ⟨rfl, Nat.le_refl _⟩

theorem pushAll_bounds (path : Path Name) (parts : List (Part Name)) :
    (path.pushAll parts).rooted = path.rooted ∧ path.ups ≤ (path.pushAll parts).ups := by
  induction parts generalizing path with
  | nil => exact ⟨rfl, Nat.le_refl _⟩
  | cons part parts ih =>
    have first := push_bounds path part
    have rest := ih (path.push part)
    exact ⟨rest.1.trans first.1, Nat.le_trans first.2 rest.2⟩

/-- A rooted path names no step up. -/
theorem parts_of_rooted (path : Path Name) (rooted : path.rooted = true) :
    path.parts = path.names.map .name := by
  rw [parts, path.grounded rooted, List.replicate_zero, List.nil_append]

end Path

/-- The names that are left of the steps of a rooted path when every step up takes back the name
before it. -/
def lexical (steps : List (Part Name)) : List Name := ((Path.start true).pushAll steps).names

theorem lexical_snoc (steps : List (Part Name)) (step : Part Name) :
    lexical (steps ++ [step]) = match step with
      | .here => lexical steps
      | .up => (lexical steps).dropLast
      | .name name => lexical steps ++ [name] := by
  rw [lexical, Path.pushAll_append]
  cases step with
  | here => rfl
  | up => exact Path.goUp_names _
  | name name => rfl

theorem lexical_append_names (steps : List (Part Name)) (names : List Name) :
    lexical (steps ++ names.map .name) = lexical steps ++ names := by
  rw [lexical, Path.pushAll_append, Path.pushAll_names]
  rfl

theorem lexical_names (names : List Name) : lexical (names.map .name) = names :=
  lexical_append_names [] names

section Relative

variable [DecidableEq Name]

/-- What is left of two lists after their common first elements. -/
def dropCommon : List Name → List Name → List Name × List Name
  | left :: lefts, right :: rights =>
    if left = right then dropCommon lefts rights else (left :: lefts, right :: rights)
  | lefts, rights => (lefts, rights)

theorem dropCommon_append (names rest : List Name) : dropCommon names (names ++ rest) = ([], rest) := by
  induction names with
  | nil => cases rest <;> rfl
  | cons name names ih => simp [dropCommon, ih]

theorem dropCommon_of_fst_nil (lefts rights rest : List Name)
    (nothingLeft : dropCommon lefts rights = ([], rest)) : rights = lefts ++ rest := by
  induction lefts generalizing rights with
  | nil =>
    cases rights with
    | nil => simpa [dropCommon] using nothingLeft
    | cons right rights => simpa [dropCommon] using nothingLeft
  | cons left lefts ih =>
    cases rights with
    | nil => simp [dropCommon] at nothingLeft
    | cons right rights =>
      by_cases same : left = right
      · rw [dropCommon, if_pos same] at nothingLeft
        rw [ih rights nothingLeft, same]
        rfl
      · rw [dropCommon, if_neg same] at nothingLeft
        simp at nothingLeft

/-- The first elements that two lists have in common. -/
def common : List Name → List Name → List Name
  | left :: lefts, right :: rights => if left = right then left :: common lefts rights else []
  | _, _ => []

theorem common_prefix_left (lefts rights : List Name) : common lefts rights <+: lefts := by
  induction lefts generalizing rights with
  | nil => cases rights <;> exact List.nil_prefix
  | cons left lefts ih =>
    cases rights with
    | nil => exact List.nil_prefix
    | cons right rights =>
      rw [common]
      split
      · exact List.cons_prefix_cons.mpr ⟨rfl, ih rights⟩
      · exact List.nil_prefix

theorem common_eq_left_iff (lefts rights : List Name) :
    common lefts rights = lefts ↔ lefts <+: rights := by
  induction lefts generalizing rights with
  | nil => cases rights <;> simp [common]
  | cons left lefts ih =>
    cases rights with
    | nil => simp [common]
    | cons right rights =>
      rw [List.cons_prefix_cons, common]
      by_cases same : left = right
      · simp [same, ih]
      · simp [same]

/-- The relative path from one path to another. There is none between a rooted and an
unrooted path, nor down from steps up whose names are not known. -/
def Path.rel (base target : Path Name) : Option (Path Name) :=
  if base.rooted ≠ target.rooted ∨ target.ups < base.ups then none
  else if base.ups < target.ups then
    some ⟨false, base.names.length + (target.ups - base.ups), target.names, by simp⟩
  else
    some ⟨false, (dropCommon base.names target.names).1.length,
      (dropCommon base.names target.names).2, by simp⟩

theorem Path.rel_isSome_of_pushAll (base : Path Name) (parts : List (Part Name)) :
    (base.rel (base.pushAll parts)).isSome = true := by
  obtain ⟨rooted, ups⟩ := pushAll_bounds base parts
  have comparable : ¬ (base.rooted ≠ (base.pushAll parts).rooted ∨
      (base.pushAll parts).ups < base.ups) := by
    rw [not_or, not_not]
    exact ⟨rooted.symm, Nat.not_lt.mpr ups⟩
  rw [Path.rel, if_neg comparable]
  by_cases higher : base.ups < (base.pushAll parts).ups
  · simp [higher]
  · simp [higher]

/-- Between rooted paths there always is a relative path; it names no step up exactly
when the target is below the base. -/
theorem Path.rel_rooted (base target : Path Name) (baseRooted : base.rooted = true)
    (targetRooted : target.rooted = true) :
    ∃ relative, base.rel target = some relative ∧ relative.rooted = false ∧
      ∀ rest, relative = descent rest ↔ target.names = base.names ++ rest := by
  have comparable : ¬ (base.rooted ≠ target.rooted ∨ target.ups < base.ups) := by
    simp [baseRooted, targetRooted, base.grounded baseRooted]
  have level : ¬ base.ups < target.ups := by
    simp [target.grounded targetRooted]
  refine ⟨_, by rw [Path.rel, if_neg comparable, if_neg level], rfl, ?_⟩
  intro rest
  constructor
  · intro same
    simp only [descent, Path.mk.injEq, List.length_eq_zero_iff, true_and] at same
    exact dropCommon_of_fst_nil _ _ _ (Prod.ext same.1 same.2)
  · intro below
    simp [descent, below, dropCommon_append]

end Relative

end EzSdk.LexicalPaths
