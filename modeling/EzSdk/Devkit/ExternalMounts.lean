import EzSdk.Devkit.Paths
import EzSdk.Foundation.Discovery
import Mathlib.Data.List.Dedup
import Mathlib.Logic.Relation

/-! The scan of a directory for links that lead out of it, as `list_external_mounts.py` does it.
Loops have fuel; `none` says that it did not suffice. -/

namespace EzSdk.Devkit

open LexicalPaths hiding Part Path
open FileTrees Discovery Relation

def venv : FileName := ⟨".venv".toList, by decide⟩

def isBazelName (name : FileName) : Bool := "bazel-".toList.isPrefixOf name.text

/-- How `os.scandir` lists the directories, in any order, which may be another one each time that
a directory is listed: for each tree that is walked and each directory in it. -/
structure Scandir (tree : FileTree FileName) where
  names : PurePath → PurePath → List FileName
  nodup : ∀ dir root, (names dir root).Nodup
  complete : ∀ dir root name, name ∈ names dir root ↔
    ∃ place, tree.resolve root.parts = some place ∧ ∃ node, tree.entry place name = some node

section Model

variable (tree : FileTree FileName)

/-- The directories that `os.walk(top, topdown=True, followlinks=False)` yields, each with
`all_entries`. What the loop body removes from `dirs` is not walked. -/
def walk (names : PurePath → List FileName) : Nat → PurePath → Option (List (PurePath × List FileName))
  | 0, _ => none
  | fuel + 1, root => do
    let dirs := ((names root).filter (fun name => isDir tree (root.descend [name]))).erase venv
    let files := (names root).filter (fun name => !isDir tree (root.descend [name]))
    let entered := dirs.filter (fun name => !isSymlink tree (root.descend [name]))
    let below ← entered.mapM (fun name => walk names fuel (root.descend [name]))
    return (root, dirs ++ files) :: below.flatten

def isOutside (scanDirAbs absTarget : PurePath) : Bool :=
  (scanDirAbs.commonpath absTarget.normpath).normpath ≠ scanDirAbs

/-- `_process_symlink`, with `external_paths` and `worklist` as the state. -/
def processSymlink (scanDirAbs : PurePath) :
    Nat → List PurePath → PurePath → Search PurePath → Option (Search PurePath)
  | 0, _, _, _ => none
  | fuel + 1, visitedInChain, currentPath, search =>
    match readlink tree currentPath with
    | none => some search
    | some target =>
      let absTarget := currentPath.parent.join (.ofText target)
      if currentPath ∈ visitedInChain then some search
      else if !pathExists tree absTarget then some search
      else
        let added :=
          if isOutside scanDirAbs absTarget then add (isDir tree) search absTarget.normpath
          else search
        processSymlink scanDirAbs fuel (currentPath :: visitedInChain) absTarget added

def scanEntry (scanDirAbs : PurePath) (fuel : Nat) (root : PurePath) (search : Search PurePath)
    (name : FileName) : Option (Search PurePath) :=
  if isSymlink tree (root.descend [name]) then
    if isBazelName name then some search
    else processSymlink tree scanDirAbs fuel [] (root.descend [name]) search
  else some search

variable {tree} (scandir : Scandir tree)

def scanTree (scanDirAbs : PurePath) (fuel : Nat) (currentDir : PurePath) (search : Search PurePath) :
    Option (Search PurePath) := do
  let visits ← walk tree (scandir.names currentDir) fuel currentDir
  visits.foldlM
    (fun search visit => visit.2.foldlM (scanEntry tree scanDirAbs fuel visit.1) search) search

/-- The loop over the worklist. -/
def scanLoop (scanDirAbs : PurePath) (fuel : Nat) :
    Nat → List PurePath → Search PurePath → Option (List PurePath)
  | 0, _, _ => none
  | _ + 1, _, ⟨externalPaths, []⟩ => some externalPaths
  | turns + 1, scanned, ⟨externalPaths, currentDir :: worklist⟩ =>
    if currentDir ∈ scanned then scanLoop scanDirAbs fuel turns scanned ⟨externalPaths, worklist⟩
    else do
      let search ← scanTree scandir scanDirAbs fuel currentDir ⟨externalPaths, worklist⟩
      scanLoop scanDirAbs fuel turns (currentDir :: scanned) search

/-- `list_external_mounts`; `resolve` is `Path.resolve`, which leaves neither links nor steps
up. -/
def listExternalMounts (resolve : PurePath → List FileName) (fuel : Nat) (scanDir : PurePath) :
    Option (List PurePath) :=
  let scanDirAbs := .ofNames (resolve scanDir)
  scanLoop scandir scanDirAbs fuel fuel [] ⟨[], [scanDirAbs]⟩

end Model

/-- The directories listed in the order of the table of the tree. -/
def Scandir.inTableOrder (tree : FileTree FileName) : Scandir tree where
  names _ root :=
    match tree.resolve root.parts with
    | some place => tree.names.dedup.filter (fun name => (tree.entry place name).isSome)
    | none => []
  nodup _ root := by
    split
    · exact (List.nodup_dedup _).filter _
    · exact List.nodup_nil
  complete _ root name := by
    split
    · rename_i place resolved
      simp only [List.mem_filter, List.mem_dedup, Option.isSome_iff_exists, resolved, Option.some.injEq,
        exists_eq_left']
      constructor
      · exact And.right
      · rintro ⟨node, found⟩
        exact ⟨entry_name_mem found, node, found⟩
    · rename_i unresolved
      simp [unresolved]

variable {tree : FileTree FileName} {scanDirAbs : PurePath}

/-! ### What is outside of the scanned directory -/

theorem isOutside_iff (names : List FileName) (target : PurePath) :
    isOutside (.ofNames names) target = true ↔
      ¬ (PurePath.ofNames names).parts <+: target.normpath.parts := by
  obtain ⟨count, same⟩ : ∃ count, common (names.map .name) target.normpath.parts =
      (names.take count).map .name := by
    have inside := common_prefix_left (names.map .name) target.normpath.parts
    rw [List.prefix_iff_eq_take] at inside
    exact ⟨_, inside.trans (List.map_take).symm⟩
  have shared : (PurePath.ofNames names).commonpath target.normpath = .ofNames (names.take count) :=
    PurePath.ext rfl same
  rw [isOutside, decide_eq_true_iff, shared, PurePath.normpath_ofNames, ← shared, ne_eq,
    PurePath.ext_iff]
  rw [← common_eq_left_iff]
  exact not_congr (and_iff_right rfl)

/-! ### The hops of a chain of links -/

/-- One turn of the loop of `_process_symlink`: from a link to what its text names, which
exists. -/
def HopTo (tree : FileTree FileName) (path target : PurePath) : Prop :=
  ∃ text, readlink tree path = some text ∧ target = path.parent.join (.ofText text) ∧
    pathExists tree target = true

/-- How many links the system follows to get to the end of a path. -/
def linksOnWay (tree : FileTree FileName) (path : PurePath) : Nat :=
  match tree.follow tree.linkLimit [] path.parts with
  | some (_, left) => tree.linkLimit - left
  | none => tree.linkLimit + 1

/-- What a link leads to is reached from its text with at least one link less. -/
theorem follows_target {path : PurePath} {text : Text FileName} {final : Place FileName} {left : Nat}
    (read : readlink tree path = some text)
    (follows : Follows tree tree.linkLimit [] path.parts final left) :
    ∃ spare, left < spare ∧
      Follows tree tree.linkLimit [] (path.parent.join (.ofText text)).parts final spare := by
  obtain ⟨above, name, place, parts, resolved, found⟩ := readlink_eq_some_iff.mp read
  obtain ⟨budget, toParent⟩ := resolve_eq_some_iff.mp resolved
  rw [parts] at follows
  obtain ⟨middle, between, first, last⟩ := follows_append_iff.mp follows
  obtain ⟨rfl, rfl⟩ := first.unique toParent
  have parent : path.parent.parts = above := by
    show path.parts.dropLast = above
    rw [parts, List.dropLast_concat]
  cases last with
  | entry other noLink _ =>
    rw [found] at other
    cases other
    exact absurd rfl (noLink text)
  | @link budget _ _ other _ _ _ linked rest =>
    rw [found] at linked
    cases linked
    rw [List.append_nil] at rest
    have along := (follows_dropHere_iff.mp rest).1
    by_cases kind : text.root = .relative
    · rw [kind] at along
      refine ⟨left + 1, Nat.lt_succ_self left, ?_⟩
      simp only [PurePath.join, PurePath.ofText, kind, if_true, parent]
      exact toParent.append (along.more 1)
    · have fewer := toParent.left_le
      obtain ⟨more, enough⟩ := Nat.exists_eq_add_of_le (Nat.le_of_succ_le fewer)
      rw [FileTree.base_absolute kind] at along
      refine ⟨left + more, by omega, ?_⟩
      simp only [PurePath.join, PurePath.ofText, kind, if_false]
      rw [enough]
      exact along.more more

/-- Along a chain there are less and less links to follow. -/
theorem HopTo.fewer_links {path target : PurePath} (hop : HopTo tree path target) :
    linksOnWay tree target < linksOnWay tree path := by
  obtain ⟨text, read, rfl, present⟩ := hop
  obtain ⟨final, left, follows⟩ := pathExists_iff.mp present
  have targetLinks : linksOnWay tree (path.parent.join (.ofText text)) = tree.linkLimit - left := by
    rw [linksOnWay, follows.follow]
  have within := follows.left_le
  rw [targetLinks]
  cases before : tree.follow tree.linkLimit [] path.parts with
  | none =>
    rw [linksOnWay, before]
    exact Nat.lt_succ_of_le (Nat.sub_le _ _)
  | some reached =>
    obtain ⟨place, others⟩ := reached
    obtain ⟨spare, more, along⟩ := follows_target read (follows_of_follow before)
    obtain ⟨_, rfl⟩ := along.unique follows
    rw [linksOnWay, before]
    show tree.linkLimit - spare < tree.linkLimit - others
    omega

/-- The targets of a chain of links that exist, up to a number of hops. -/
def chain (tree : FileTree FileName) : Nat → PurePath → List PurePath
  | 0, _ => []
  | hops + 1, path =>
    match readlink tree path with
    | none => []
    | some text =>
      let target := path.parent.join (.ofText text)
      if pathExists tree target then target :: chain tree hops target else []

theorem mem_chain_iff (hops : Nat) {path : PurePath} (enough : linksOnWay tree path ≤ hops)
    (target : PurePath) : target ∈ chain tree hops path ↔ TransGen (HopTo tree) path target := by
  induction hops generalizing path with
  | zero =>
    constructor
    · intro absent
      cases absent
    · intro reached
      obtain ⟨next, hop, _⟩ := TransGen.head'_iff.mp reached
      have fewer := hop.fewer_links
      omega
  | succ hops ih =>
    rw [TransGen.head'_iff, chain]
    cases read : readlink tree path with
    | none =>
      constructor
      · intro absent
        cases absent
      · rintro ⟨next, ⟨text, other, _⟩, _⟩
        rw [read] at other
        cases other
    | some text =>
      by_cases present : pathExists tree (path.parent.join (.ofText text)) = true
      · have hop : HopTo tree path (path.parent.join (.ofText text)) := ⟨text, read, rfl, present⟩
        have shorter := Nat.le_of_lt_succ (Nat.lt_of_lt_of_le hop.fewer_links enough)
        simp only [present, if_true, List.mem_cons, ih shorter]
        constructor
        · rintro (rfl | later)
          · exact ⟨_, hop, .refl⟩
          · exact ⟨_, hop, later.to_reflTransGen⟩
        · rintro ⟨next, ⟨other, readOther, rfl, _⟩, rest⟩
          cases read.symm.trans readOther
          exact (reflTransGen_iff_eq_or_transGen.mp rest)
      · simp only [present, Bool.false_eq_true, if_false, List.not_mem_nil, false_iff]
        rintro ⟨next, ⟨other, readOther, rfl, exists_⟩, _⟩
        cases read.symm.trans readOther
        exact present exists_

/-- What is added to the external paths for some targets. -/
def external (scanDirAbs : PurePath) (targets : List PurePath) : List PurePath :=
  (targets.filter (isOutside scanDirAbs)).map PurePath.normpath

/-- A chain is processed to its end: no path comes up twice, since each has less links on its
way than those before. -/
theorem processSymlink_eq (fuel : Nat) {visited : List PurePath} {current : PurePath}
    (search : Search PurePath) (enough : linksOnWay tree current < fuel)
    (before : ∀ path ∈ visited, linksOnWay tree current < linksOnWay tree path) :
    processSymlink tree scanDirAbs fuel visited current search =
      some ((external scanDirAbs (chain tree fuel current)).foldl (add (isDir tree)) search) := by
  induction fuel generalizing visited current search with
  | zero => exact absurd enough (Nat.not_lt_zero _)
  | succ fuel ih =>
    have fresh : current ∉ visited := fun seen => Nat.lt_irrefl _ (before current seen)
    rw [processSymlink, chain]
    cases read : readlink tree current with
    | none => rfl
    | some text =>
      by_cases present : pathExists tree (current.parent.join (.ofText text)) = true
      · have hop : HopTo tree current (current.parent.join (.ofText text)) :=
          ⟨text, read, rfl, present⟩
        have shorter := hop.fewer_links
        have earlier : ∀ path ∈ current :: visited,
            linksOnWay tree (current.parent.join (.ofText text)) < linksOnWay tree path := by
          intro path member
          rcases List.mem_cons.mp member with rfl | old
          · exact shorter
          · exact Nat.lt_trans shorter (before path old)
        simp only [fresh, if_false, present, Bool.not_true, Bool.false_eq_true, if_true]
        rw [ih _ (by omega) earlier]
        by_cases outside : isOutside scanDirAbs (current.parent.join (.ofText text)) = true
        · simp [external, outside]
        · simp [external, outside]
      · simp [fresh, present, external]

end EzSdk.Devkit
