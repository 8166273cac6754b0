import EzSdk.Devkit.MountScan
import EzSdk.Foundation.Coverings

/-! The minimal mounts: of all paths that are to be mounted, those without an ancestor among
them. -/

namespace EzSdk.Devkit

open LexicalPaths hiding Part Path
open FileTrees Coverings

/-! ### Ancestors -/

namespace PurePath

theorem isRelativeTo_iff {path other : PurePath} :
    path.isRelativeTo other = true ↔ path.root = other.root ∧ other.parts <+: path.parts :=
  decide_eq_true_iff

/-- An ancestor is below a path. -/
instance : PartialOrder PurePath where
  le path other := other.isRelativeTo path = true
  le_refl path := isRelativeTo_iff.mpr ⟨rfl, List.prefix_refl _⟩
  le_trans first second third := by
    intro below above
    rw [isRelativeTo_iff] at below above ⊢
    exact ⟨above.1.trans below.1, below.2.trans above.2⟩
  le_antisymm first second := by
    intro below above
    rw [isRelativeTo_iff] at below above
    exact PurePath.ext above.1 (below.2.eq_of_length_le above.2.length_le)

instance : DecidableLE PurePath := fun path other =>
  inferInstanceAs (Decidable (other.isRelativeTo path = true))

theorem le_iff {path other : PurePath} : path ≤ other ↔ other.isRelativeTo path = true := Iff.rfl

end PurePath

/-! ### The order in which paths are sorted -/

def partText : LexicalPaths.Part FileName → Chars
  | .here => ".".toList
  | .up => "..".toList
  | .name name => name.text

def rootText : Root → Chars
  | .relative => []
  | .slash => "/".toList
  | .slashes => "//".toList

/-- `str(path)`. -/
def PurePath.str (path : PurePath) : Chars :=
  if path.root = .relative ∧ path.parts = [] then ".".toList
  else rootText path.root ++ List.intercalate "/".toList (path.parts.map partText)

/-- Paths are compared by the parts of their text. -/
def PurePath.sortKey (path : PurePath) : List Chars := path.str.splitOn '/'

def sortedPaths (paths : List PurePath) : List PurePath :=
  paths.mergeSort (fun path other => path.sortKey ≤ other.sortKey)

/-! ### Minimising -/

/-- One turn of the loop of `_minimize_paths`. -/
def minimizeStep (minimalPaths : List PurePath) (path : PurePath) : List PurePath :=
  if minimalPaths.any (fun kept => path.isRelativeTo kept) then minimalPaths
  else minimalPaths.filter (fun kept => ¬ kept.isRelativeTo path) ++ [path]

/-- `_minimize_paths`, for a set of paths that is iterated in some order. -/
def minimizePaths (paths : List PurePath) : List PurePath := (sortedPaths paths).foldl minimizeStep []

theorem minimizeStep_eq : minimizeStep = insertMinimal := by
  funext minimalPaths path
  simp only [minimizeStep, insertMinimal, PurePath.le_iff, Bool.decide_eq_true]

/-- The paths without an ancestor among them are kept. -/
theorem minimizePaths_cover (paths : List PurePath) :
    MinimalCover {path | path ∈ minimizePaths paths} {path | path ∈ paths} := by
  have cover := minimalCover_of_list (sortedPaths paths)
  have same : {path | path ∈ sortedPaths paths} = {path | path ∈ paths} :=
    Set.ext (fun _ => List.mem_mergeSort)
  rw [same, ← minimizeStep_eq] at cover
  exact cover

/-- A part of some paths in which no path is an ancestor of another, and in which every path has
itself or an ancestor. -/
structure CoveringAntichain (kept : Set PurePath) (paths : List PurePath) : Prop where
  subset : kept ⊆ {path | path ∈ paths}
  apart : ∀ path ∈ kept, ∀ other ∈ kept, path ≠ other → path.isRelativeTo other = false
  covers : ∀ path ∈ paths, ∃ ancestor ∈ kept, path.isRelativeTo ancestor = true

/-- The path or an ancestor is among the paths. -/
def Covered (paths : List PurePath) (path : PurePath) : Prop :=
  ∃ ancestor ∈ paths, path.isRelativeTo ancestor = true

theorem coveringAntichain_iff (kept : Set PurePath) (paths : List PurePath) :
    CoveringAntichain kept paths ↔ MinimalCover kept {path | path ∈ paths} := by
  constructor
  · intro covering
    refine ⟨covering.subset, ?_, covering.covers⟩
    intro path member other otherMember different below
    have unrelated := covering.apart other otherMember path member different.symm
    rw [PurePath.le_iff, unrelated] at below
    cases below
  · intro cover
    refine ⟨cover.subset, ?_, cover.covers⟩
    intro path member other otherMember different
    rw [← Bool.not_eq_true]
    exact cover.antichain otherMember member different.symm

theorem covered_minimizePaths (paths : List PurePath) (path : PurePath) :
    Covered (minimizePaths paths) path ↔ Covered paths path := by
  have above (paths : List PurePath) : Covered paths path ↔
      path ∈ upperClosure {path | path ∈ paths} := mem_upperClosure.symm
  rw [above, above, (minimizePaths_cover paths).upperClosure_eq]

/-- Of a set of paths, in whatever order it is iterated, the only part is returned in which no path
is an ancestor of another and every path of the set has itself or an ancestor. So minimising again
changes nothing, more coverage before gives more coverage after, and the parts of a union can be
minimised first. -/
theorem minimized_paths_unique (paths : List PurePath) :
    (∀ kept, CoveringAntichain kept paths ↔ kept = {path | path ∈ minimizePaths paths}) ∧
    (∀ iteration : List PurePath, (∀ path, path ∈ iteration ↔ path ∈ paths) →
      ∀ path, path ∈ minimizePaths iteration ↔ path ∈ minimizePaths paths) ∧
    (∀ path, path ∈ minimizePaths (minimizePaths paths) ↔ path ∈ minimizePaths paths) ∧
    (∀ others, (∀ path, Covered paths path → Covered others path) →
      ∀ path, Covered (minimizePaths paths) path → Covered (minimizePaths others) path) ∧
    (∀ others path, path ∈ minimizePaths (paths ++ others) ↔
      path ∈ minimizePaths (minimizePaths paths ++ minimizePaths others)) := by
  have cover := minimizePaths_cover paths
  refine ⟨?_, ?_, ?_, ?_, ?_⟩
  · intro kept
    rw [coveringAntichain_iff]
    constructor
    · intro other
      exact other.unique cover
    · intro same
      exact same ▸ cover
  · intro iteration same
    have equal : {path | path ∈ iteration} = {path | path ∈ paths} := Set.ext same
    have again := minimizePaths_cover iteration
    rw [equal] at again
    exact Set.ext_iff.mp (again.unique cover)
  · have again := minimizePaths_cover (minimizePaths paths)
    exact Set.ext_iff.mp (again.unique (.refl_of_antichain cover.antichain))
  · intro others more path
    rw [covered_minimizePaths, covered_minimizePaths]
    exact more path
  · intro others
    have union (first second : List PurePath) : {path | path ∈ first ++ second} =
        {path | path ∈ first} ∪ {path | path ∈ second} := Set.ext (fun _ => List.mem_append)
    have whole := minimizePaths_cover (paths ++ others)
    have parts := minimizePaths_cover (minimizePaths paths ++ minimizePaths others)
    rw [union] at whole parts
    exact Set.ext_iff.mp (whole.unique (cover.union (minimizePaths_cover others) parts))

end EzSdk.Devkit
