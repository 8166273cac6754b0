import EzSdk.Devkit.ExternalMounts
import EzSdk.Foundation.Postconditions

/-! What the scan for external mounts finds: the least set of paths that holds the targets of all
links in the trees that are scanned. -/

namespace EzSdk.Devkit

open LexicalPaths hiding Part Path
open FileTrees Discovery Relation

variable {tree : FileTree FileName} {scanDirAbs : PurePath}

/-! ### The trees that are scanned -/

/-- A directory has something under a name, below some names. -/
def InTree (tree : FileTree FileName) (dir : PurePath) (names : List FileName)
    (name : FileName) : Prop :=
  ∃ place, tree.resolve dir.parts = some place ∧ Present tree (place ++ names ++ [name])

/-- On the way there is no directory called `.venv`, and at its end neither such a directory nor a
link to a directory. -/
def OutsideVenvs (tree : FileTree FileName) (dir : PurePath) (names : List FileName)
    (name : FileName) : Prop :=
  venv ∉ names ∧ (name = venv → isDir tree (dir.descend (names ++ [name])) = false)

theorem resolve_child {dir : PurePath} {place : Place FileName} {name : FileName}
    (resolved : tree.resolve dir.parts = some place) (found : tree.entry place name = some .directory) :
    tree.resolve (dir.descend [name]).parts = some (place ++ [name]) := by
  obtain ⟨left, follows⟩ := resolve_eq_some_iff.mp resolved
  exact resolve_eq_some_iff.mpr ⟨left, follows.append (.entry found (by simp) .done)⟩

/-- `os.walk` enters the directories that are not links. -/
theorem entered_iff {dir : PurePath} {place : Place FileName} {name : FileName}
    (resolved : tree.resolve dir.parts = some place) :
    isDir tree (dir.descend [name]) = true ∧ isSymlink tree (dir.descend [name]) = false ↔
      tree.entry place name = some .directory := by
  constructor
  · intro both
    obtain ⟨final, leads, directory⟩ := isDir_iff.mp both.1
    obtain ⟨left, follows⟩ := resolve_eq_some_iff.mp leads
    obtain ⟨middle, between, first, last⟩ := follows_append_iff.mp follows
    cases resolved.symm.trans (resolve_eq_some_iff.mpr ⟨between, first⟩)
    cases last with
    | link found _ =>
      have linked := (readlink_descend resolved).mpr found
      rw [isSymlink, linked] at both
      cases both.2
    | entry found noLink rest =>
      obtain ⟨rfl, _⟩ := follows_nil_iff.mp rest
      rw [isDirectory_iff] at directory
      exact node_snoc directory
  · intro found
    constructor
    · exact isDir_iff.mpr ⟨_, resolve_child resolved found, isDirectory_iff.mpr (entry_eq_some found).2⟩
    · rw [isSymlink, Option.isSome_eq_false_iff, Option.isNone_iff_eq_none,
        Option.eq_none_iff_forall_ne_some]
      intro text read
      cases found.symm.trans ((readlink_descend resolved).mp read)

theorem inTree_nil {dir : PurePath} {place : Place FileName} {name : FileName}
    (resolved : tree.resolve dir.parts = some place) :
    InTree tree dir [] name ↔ ∃ node, tree.entry place name = some node := by
  simp only [InTree, resolved, Option.some.injEq, exists_eq_left', List.append_nil]
  constructor
  · rintro ⟨node, found⟩
    exact ⟨node, node_snoc found⟩
  · rintro ⟨node, found⟩
    exact ⟨node, (entry_eq_some found).2⟩

theorem inTree_cons {dir : PurePath} {place : Place FileName} {first name : FileName}
    {names : List FileName} (resolved : tree.resolve dir.parts = some place) :
    InTree tree dir (first :: names) name ↔
      tree.entry place first = some .directory ∧ InTree tree (dir.descend [first]) names name := by
  have same : place ++ first :: names ++ [name] = place ++ [first] ++ names ++ [name] := by simp
  constructor
  · rintro ⟨other, leads, present⟩
    cases resolved.symm.trans leads
    rw [same, List.append_assoc] at present
    have directory := isDirectory_of_present_append present (by simp)
    have found := node_snoc (isDirectory_iff.mp directory)
    exact ⟨found, _, resolve_child resolved found, by rwa [List.append_assoc]⟩
  · rintro ⟨found, other, leads, present⟩
    cases (resolve_child resolved found).symm.trans leads
    exact ⟨place, resolved, same ▸ present⟩

theorem outsideVenvs_cons {dir : PurePath} {first name : FileName} {names : List FileName} :
    OutsideVenvs tree dir (first :: names) name ↔
      first ≠ venv ∧ OutsideVenvs tree (dir.descend [first]) names name := by
  simp only [OutsideVenvs, PurePath.descend_descend, List.nil_append, List.mem_cons, not_or,
    List.cons_append, ne_eq, @eq_comm _ first venv, and_assoc]

/-- The walk yields a name in a directory. -/
def Yields (visits : List (PurePath × List FileName)) (above : PurePath) (name : FileName) : Prop :=
  ∃ visit ∈ visits, visit.1 = above ∧ name ∈ visit.2

/-- The entries of the tree outside of the `.venv` directories. -/
def Walks (tree : FileTree FileName) (root above : PurePath) (name : FileName) : Prop :=
  ∃ names, above = root.descend names ∧ InTree tree root names name ∧ OutsideVenvs tree root names name

theorem walks_iff {root above : PurePath} {name : FileName} {place : Place FileName}
    (resolved : tree.resolve root.parts = some place) :
    Walks tree root above name ↔
      (above = root ∧ (∃ node, tree.entry place name = some node) ∧
        (name = venv → isDir tree (root.descend [name]) = false)) ∨
      ∃ first, (tree.entry place first = some .directory ∧ first ≠ venv) ∧
        Walks tree (root.descend [first]) above name := by
  constructor
  · rintro ⟨names, rfl, inTree, outside⟩
    cases names with
    | nil => exact .inl ⟨by simp [PurePath.descend], (inTree_nil resolved).mp inTree, outside.2⟩
    | cons first names =>
      obtain ⟨found, below⟩ := (inTree_cons resolved).mp inTree
      obtain ⟨notVenv, others⟩ := outsideVenvs_cons.mp outside
      refine .inr ⟨first, ⟨found, notVenv⟩, names, ?_, below, others⟩
      rw [PurePath.descend_descend]
      rfl
  · rintro (⟨rfl, entry, notVenv⟩ | ⟨first, ⟨found, notVenv⟩, names, rfl, below, others⟩)
    · exact ⟨[], by simp [PurePath.descend], (inTree_nil resolved).mpr entry, by simp, notVenv⟩
    · refine ⟨first :: names, ?_, (inTree_cons resolved).mpr ⟨found, below⟩,
        outsideVenvs_cons.mpr ⟨notVenv, others⟩⟩
      rw [PurePath.descend_descend]
      rfl

/-- `all_entries` of a directory. -/
theorem mem_entries_iff (isDirectory : FileName → Bool) {names : List FileName} (nodup : names.Nodup)
    (name : FileName) :
    name ∈ (names.filter isDirectory).erase venv ++ names.filter (fun name => !isDirectory name) ↔
      name ∈ names ∧ (name = venv → isDirectory name = false) := by
  rw [List.mem_append, (nodup.filter _).mem_erase_iff, List.mem_filter, List.mem_filter]
  cases isDirectory name with
  | false => simp
  | true => simp [and_comm]

theorem Scandir.names_eq_nil (scandir : Scandir tree) (dir : PurePath) {root : PurePath}
    (unresolved : tree.resolve root.parts = none) : scandir.names dir root = [] := by
  rw [List.eq_nil_iff_forall_not_mem]
  intro name member
  obtain ⟨place, leads, _⟩ := (scandir.complete dir root name).mp member
  rw [unresolved] at leads
  cases leads

theorem Scandir.mem_names_iff (scandir : Scandir tree) (dir : PurePath) {root : PurePath}
    {place : Place FileName} (resolved : tree.resolve root.parts = some place) (name : FileName) :
    name ∈ scandir.names dir root ↔ ∃ node, tree.entry place name = some node := by
  rw [scandir.complete, resolved]
  simp

theorem Scandir.mem_entered_iff (scandir : Scandir tree) (dir : PurePath) {root : PurePath}
    {place : Place FileName} (resolved : tree.resolve root.parts = some place) (name : FileName) :
    name ∈ (((scandir.names dir root).filter (fun name => isDir tree (root.descend [name]))).erase
        venv).filter (fun name => !isSymlink tree (root.descend [name])) ↔
      tree.entry place name = some .directory ∧ name ≠ venv := by
  rw [List.mem_filter, ((scandir.nodup dir root).filter _).mem_erase_iff, List.mem_filter,
    scandir.mem_names_iff dir resolved, ← entered_iff resolved, Bool.not_eq_true']
  constructor
  · intro ⟨⟨notVenv, _, directory⟩, noLink⟩
    exact ⟨⟨directory, noLink⟩, notVenv⟩
  · intro ⟨⟨directory, noLink⟩, notVenv⟩
    exact ⟨⟨notVenv, ⟨_, (entered_iff resolved).mp ⟨directory, noLink⟩⟩, directory⟩, noLink⟩

theorem yields_cons (root : PurePath) (entries : List FileName)
    (later : List (PurePath × List FileName)) (above : PurePath) (name : FileName) :
    Yields ((root, entries) :: later) above name ↔
      above = root ∧ name ∈ entries ∨ Yields later above name := by
  simp only [Yields, List.mem_cons, or_and_right, exists_or, exists_eq_left, @eq_comm _ root above]

theorem yields_flatten (visits : List (List (PurePath × List FileName))) (above : PurePath)
    (name : FileName) : Yields visits.flatten above name ↔ ∃ part ∈ visits, Yields part above name := by
  constructor
  · intro ⟨visit, member, found⟩
    obtain ⟨part, among, within⟩ := List.mem_flatten.mp member
    exact ⟨part, among, visit, within, found⟩
  · intro ⟨part, among, visit, within, found⟩
    exact ⟨visit, List.mem_flatten.mpr ⟨part, among, within⟩, found⟩

/-- With fuel for the depth of the tree, the walk yields all its entries outside of the `.venv`
directories. -/
theorem walk_spec (scandir : Scandir tree) (dir : PurePath) (fuel : Nat) (root : PurePath)
    (positive : 0 < fuel)
    (enough : ∀ place, tree.resolve root.parts = some place → tree.depth < fuel + place.length) :
    ∃ visits, walk tree (scandir.names dir) fuel root = some visits ∧
      ∀ above name, Yields visits above name ↔ Walks tree root above name := by
  induction fuel generalizing root with
  | zero => exact absurd positive (Nat.lt_irrefl 0)
  | succ fuel ih =>
    cases resolved : tree.resolve root.parts with
    | none =>
      refine ⟨[(root, [])], by simp [walk, scandir.names_eq_nil dir resolved], ?_⟩
      intro above name
      simp [Yields, Walks, InTree, resolved]
    | some place =>
      have entered := scandir.mem_entered_iff dir resolved
      let isDirectory (name : FileName) := isDir tree (root.descend [name])
      let dirs := ((scandir.names dir root).filter isDirectory).erase venv
      have deeper : ∀ name ∈ dirs.filter (fun name => !isSymlink tree (root.descend [name])),
          ∃ visits, walk tree (scandir.names dir) fuel (root.descend [name]) = some visits ∧
            ∀ above other, Yields visits above other ↔
              Walks tree (root.descend [name]) above other := by
        intro name member
        have found := ((entered name).mp member).1
        have bounded := present_length_le ⟨_, (entry_eq_some found).2⟩
        have room := enough place resolved
        rw [List.length_append, List.length_singleton] at bounded
        apply ih
        · omega
        · intro child leads
          cases (resolve_child resolved found).symm.trans leads
          rw [List.length_append, List.length_singleton]
          omega
      obtain ⟨below, walked, sound, complete⟩ := Postconditions.mapM_total _ deeper
      refine ⟨(root, dirs ++ (scandir.names dir root).filter (fun name => !isDirectory name)) ::
        below.flatten, ?_, ?_⟩
      · rw [walk]
        simp only [dirs, isDirectory] at walked ⊢
        rw [walked]
        rfl
      · intro above name
        rw [walks_iff resolved, ← scandir.mem_names_iff dir resolved,
          ← mem_entries_iff isDirectory (scandir.nodup dir root), yields_cons, yields_flatten]
        apply or_congr_right
        constructor
        · intro ⟨visits, among, yields⟩
          obtain ⟨first, isEntered, spec⟩ := sound visits among
          exact ⟨first, (entered first).mp isEntered, (spec above name).mp yields⟩
        · intro ⟨first, isEntered, walks⟩
          obtain ⟨visits, among, spec⟩ := complete first ((entered first).mpr isEntered)
          exact ⟨visits, among, (spec above name).mpr walks⟩

/-! ### The targets of a tree -/

/-- What is added for an entry of a directory. -/
def entryTargets (tree : FileTree FileName) (scanDirAbs : PurePath) (fuel : Nat) (root : PurePath)
    (name : FileName) : List PurePath :=
  if isSymlink tree (root.descend [name]) = true ∧ isBazelName name = false then
    external scanDirAbs (chain tree fuel (root.descend [name]))
  else []

/-- What is added for a directory of the worklist. -/
def treeTargets (scandir : Scandir tree) (scanDirAbs : PurePath) (fuel : Nat) (dir : PurePath) :
    List PurePath :=
  ((walk tree (scandir.names dir) fuel dir).getD []).flatMap
    (fun visit => visit.2.flatMap (entryTargets tree scanDirAbs fuel visit.1))

/-- A path that is to be added for a directory: a link in its tree leads to it, one hop after
another, and out of the scanned directory. -/
def Target (tree : FileTree FileName) (scanDirAbs : PurePath) (counted : List FileName → FileName → Prop)
    (dir path : PurePath) : Prop :=
  ∃ names name, InTree tree dir names name ∧ counted names name ∧ isBazelName name = false ∧
    ∃ target, TransGen (HopTo tree) (dir.descend (names ++ [name])) target ∧
      ¬ scanDirAbs.parts <+: target.normpath.parts ∧ path = target.normpath

theorem linksOnWay_le (path : PurePath) : linksOnWay tree path ≤ tree.linkLimit + 1 := by
  unfold linksOnWay
  split
  · omega
  · exact Nat.le_refl _

theorem mem_entryTargets (names : List FileName) {fuel : Nat} (enough : tree.linkLimit < fuel)
    (root : PurePath) (name : FileName) (path : PurePath) :
    path ∈ entryTargets tree (.ofNames names) fuel root name ↔ isBazelName name = false ∧
      ∃ target, TransGen (HopTo tree) (root.descend [name]) target ∧
        ¬ (PurePath.ofNames names).parts <+: target.normpath.parts ∧ path = target.normpath := by
  have bounded : linksOnWay tree (root.descend [name]) ≤ fuel :=
    Nat.le_trans (linksOnWay_le _) enough
  unfold entryTargets
  split
  · rename_i both
    simp only [external, List.mem_map, List.mem_filter, mem_chain_iff fuel bounded, isOutside_iff]
    constructor
    · rintro ⟨target, ⟨hops, outside⟩, rfl⟩
      exact ⟨both.2, target, hops, outside, rfl⟩
    · rintro ⟨_, target, hops, outside, rfl⟩
      exact ⟨target, ⟨hops, outside⟩, rfl⟩
  · rename_i skipped
    constructor
    · intro absent
      cases absent
    · rintro ⟨notBazel, target, hops, _⟩
      obtain ⟨next, ⟨text, read, _⟩, _⟩ := TransGen.head'_iff.mp hops
      exact absurd ⟨by rw [isSymlink, read]; rfl, notBazel⟩ skipped

section Enough

variable (scandir : Scandir tree) {fuel : Nat} (deep : tree.depth < fuel)
include deep

theorem walk_enough (dir : PurePath) :
    ∃ visits, walk tree (scandir.names dir) fuel dir = some visits ∧
      ∀ above name, Yields visits above name ↔ Walks tree dir above name :=
  walk_spec scandir dir fuel dir (Nat.zero_lt_of_lt deep) (fun _ _ => Nat.lt_add_right _ deep)

variable (long : tree.linkLimit + 1 < fuel)
include long

theorem mem_treeTargets (names : List FileName) (dir path : PurePath) :
    path ∈ treeTargets scandir (.ofNames names) fuel dir ↔
      Target tree (.ofNames names) (OutsideVenvs tree dir) dir path := by
  obtain ⟨visits, walked, spec⟩ := walk_enough scandir deep dir
  have links := mem_entryTargets names (Nat.lt_of_succ_lt long)
  simp only [treeTargets, walked, Option.getD_some, List.mem_flatMap]
  constructor
  · rintro ⟨visit, member, name, inside, target⟩
    obtain ⟨above, same, inTree, outside⟩ := (spec visit.1 name).mp ⟨visit, member, rfl, inside⟩
    rw [links, same, PurePath.descend_descend] at target
    exact ⟨above, name, inTree, outside, target⟩
  · rintro ⟨above, name, inTree, outside, target⟩
    obtain ⟨visit, member, same, inside⟩ := (spec _ name).mpr ⟨above, rfl, inTree, outside⟩
    refine ⟨visit, member, name, inside, ?_⟩
    rw [links, same, PurePath.descend_descend]
    exact target

theorem scanTree_eq (dir : PurePath) (search : Search PurePath) :
    scanTree scandir scanDirAbs fuel dir search =
      some ((treeTargets scandir scanDirAbs fuel dir).foldl (add (isDir tree)) search) := by
  have entries (root : PurePath) (search : Search PurePath) (name : FileName) :
      scanEntry tree scanDirAbs fuel root search name =
        some ((entryTargets tree scanDirAbs fuel root name).foldl (add (isDir tree)) search) := by
    have bounded := Nat.lt_of_le_of_lt (linksOnWay_le (root.descend [name])) long
    have chained : processSymlink tree scanDirAbs fuel [] (root.descend [name]) search =
        some ((external scanDirAbs (chain tree fuel (root.descend [name]))).foldl (add (isDir tree))
          search) :=
      processSymlink_eq fuel search bounded (by simp)
    cases linked : isSymlink tree (root.descend [name]) with
    | false => simp [scanEntry, entryTargets, linked]
    | true =>
      cases bazel : isBazelName name with
      | true => simp [scanEntry, entryTargets, linked, bazel]
      | false => simp [scanEntry, entryTargets, linked, bazel, chained]
  obtain ⟨visits, walked, _⟩ := walk_enough scandir deep dir
  have directories (search : Search PurePath) (visit : PurePath × List FileName) :
      visit.2.foldlM (scanEntry tree scanDirAbs fuel visit.1) search =
        some ((visit.2.flatMap (entryTargets tree scanDirAbs fuel visit.1)).foldl (add (isDir tree))
          search) := by
    rw [Postconditions.foldlM_total (entries visit.1), List.foldl_flatMap]
  rw [scanTree, treeTargets, walked, Option.getD_some]
  simp only [Option.bind_eq_bind, Option.bind_some]
  rw [Postconditions.foldlM_total directories, List.foldl_flatMap]

theorem scanLoop_eq (turns : Nat) (scanned : List PurePath) (search : Search PurePath) :
    scanLoop scandir scanDirAbs fuel turns scanned search =
      loop (treeTargets scandir scanDirAbs fuel) (isDir tree) turns scanned search := by
  induction turns generalizing scanned search with
  | zero => rfl
  | succ turns ih =>
    obtain ⟨externalPaths, worklist⟩ := search
    cases worklist with
    | nil => rfl
    | cons dir worklist =>
      rw [scanLoop, loop, scanTree_eq scandir deep long]
      simp only [Option.bind_eq_bind, Option.bind_some, ih]

end Enough

/-! ### The end of the scan -/

theorem absolute_of_hops {path target : PurePath} (absolute : path.root ≠ .relative)
    (hops : TransGen (HopTo tree) path target) : target.root ≠ .relative := by
  have hopAbsolute {path target : PurePath} (absolute : path.root ≠ .relative)
      (hop : HopTo tree path target) : target.root ≠ .relative := by
    obtain ⟨text, _, rfl, _⟩ := hop
    exact PurePath.join_root _ _ absolute
  induction hops with
  | single hop => exact hopAbsolute absolute hop
  | tail _ hop ih => exact hopAbsolute ih hop

/-- The directories that can come to the worklist. -/
def candidates (tree : FileTree FileName) : List PurePath :=
  tree.pathsFromRoot.flatMap (fun names => [.named .slash names, .named .slashes names])

theorem mem_candidates {target : PurePath} (absolute : target.root ≠ .relative)
    (directory : isDir tree target.normpath = true) : target.normpath ∈ candidates tree := by
  obtain ⟨place, resolved, _⟩ := isDir_iff.mp directory
  obtain ⟨left, follows⟩ := resolve_eq_some_iff.mp resolved
  rw [PurePath.normpath_absolute absolute] at follows ⊢
  refine List.mem_flatMap.mpr ⟨_, mem_pathsFromRoot follows, ?_⟩
  cases kind : target.root with
  | relative => exact absurd kind absolute
  | slash => exact List.mem_cons_self
  | slashes => exact List.mem_cons_of_mem _ List.mem_cons_self

/-- The set holds the targets of the scanned directory and of every directory in it. -/
def HoldsTargets (tree : FileTree FileName) (scanDirAbs : PurePath)
    (counted : PurePath → List FileName → FileName → Prop) (mounts : Set PurePath) : Prop :=
  ∀ dir, dir = scanDirAbs ∨ dir ∈ mounts ∧ isDir tree dir = true →
    ∀ path, Target tree scanDirAbs (counted dir) dir path → path ∈ mounts

/-- Fuel with which the scan comes to its end. -/
def scanFuel (tree : FileTree FileName) : Nat :=
  tree.depth + tree.linkLimit + (candidates tree).length + 2

section Result

variable (scandir : Scandir tree) {names : List FileName} {fuel : Nat} (enough : scanFuel tree ≤ fuel)
include enough

theorem fuel_suffices : tree.depth < fuel ∧ tree.linkLimit + 1 < fuel ∧
    (candidates tree).length + 1 < fuel := by
  unfold scanFuel at enough
  omega

theorem reached_absolute {path : PurePath}
    (reached : Reached (treeTargets scandir (.ofNames names) fuel) (isDir tree) (.ofNames names) path) :
    ∃ target : PurePath, target.root ≠ .relative ∧ path = target.normpath := by
  obtain ⟨deep, long, _⟩ := fuel_suffices enough
  induction reached with
  | first target =>
    obtain ⟨_, _, _, _, _, final, hops, _, rfl⟩ := (mem_treeTargets scandir deep long _ _ _).mp target
    have scanned := PurePath.ofNames_absolute names
    exact ⟨final, absolute_of_hops (PurePath.descend_absolute scanned _) hops, rfl⟩
  | next _ _ target ih =>
    obtain ⟨dir, absolute, rfl⟩ := ih
    obtain ⟨_, _, _, _, _, final, hops, _, rfl⟩ := (mem_treeTargets scandir deep long _ _ _).mp target
    have normal : dir.normpath.root ≠ .relative := absolute
    exact ⟨final, absolute_of_hops (PurePath.descend_absolute normal _) hops, rfl⟩

theorem holdsTargets_iff (mounts : Set PurePath) :
    HoldsTargets tree (.ofNames names) (OutsideVenvs tree) mounts ↔
      Closed (treeTargets scandir (.ofNames names) fuel) (isDir tree) (.ofNames names) mounts := by
  obtain ⟨deep, long, _⟩ := fuel_suffices enough
  have targets := mem_treeTargets scandir deep long names
  constructor
  · intro holds
    constructor
    · intro path target
      exact holds _ (.inl rfl) path ((targets _ _).mp target)
    · intro dir member directory path target
      exact holds dir (.inr ⟨member, directory⟩) path ((targets _ _).mp target)
  · rintro closed dir (rfl | ⟨member, directory⟩) path target
    · exact closed.first path ((targets _ _).mpr target)
    · exact closed.next dir member directory path ((targets _ _).mpr target)

/-- The scan ends, and finds the least set that holds the targets. -/
theorem scan_isLeast (resolve : PurePath → List FileName) (scanDir : PurePath) :
    ∃ result, listExternalMounts scandir resolve fuel scanDir = some result ∧
      (∀ path ∈ result, path.root ≠ .relative) ∧
      IsLeast {mounts | HoldsTargets tree (.ofNames (resolve scanDir)) (OutsideVenvs tree) mounts}
        {path | path ∈ result} := by
  obtain ⟨deep, long, many⟩ := fuel_suffices enough
  have known : ∀ path, Reached (treeTargets scandir (.ofNames (resolve scanDir)) fuel) (isDir tree)
      (.ofNames (resolve scanDir)) path → isDir tree path = true → path ∈ candidates tree := by
    intro path reached directory
    obtain ⟨target, absolute, rfl⟩ := reached_absolute scandir enough reached
    exact mem_candidates absolute directory
  have bounded : effort (candidates tree) ⟨[], [PurePath.ofNames (resolve scanDir)]⟩ < fuel := by
    have fewer := List.length_filter_le (fun path => decide (path ∉ ([] : List PurePath)))
      (candidates tree)
    simp only [effort, List.length_singleton]
    omega
  obtain ⟨result, ended⟩ := loop_ends known fuel sound_start bounded
  have found : {path | path ∈ result} =
      {path | Reached (treeTargets scandir (.ofNames (resolve scanDir)) fuel) (isDir tree)
        (.ofNames (resolve scanDir)) path} :=
    Set.ext (loop_reached fuel sound_start ended)
  refine ⟨result, ?_, ?_, ?_⟩
  · rw [listExternalMounts, scanLoop_eq scandir deep long, ended]
  · intro path member
    obtain ⟨target, absolute, rfl⟩ :=
      reached_absolute scandir enough ((loop_reached fuel sound_start ended path).mp member)
    exact absolute
  · rw [found]
    simp only [holdsTargets_iff scandir enough]
    exact reached_isLeast

end Result

/-- Whatever links a file tree has, the scan ends. It finds the least set that holds, for the
scanned directory and for each directory in the set, the targets that lie outside of the scanned
directory of all links in its tree, but not of those in a `.venv` directory or called `bazel-`. So
the order in which directories are listed makes no difference. -/
theorem external_mounts_least (tree : FileTree FileName) (resolve : PurePath → List FileName)
    (scanDir : PurePath) :
    ∃ mounts : Set PurePath,
      IsLeast {mounts | HoldsTargets tree (.ofNames (resolve scanDir)) (OutsideVenvs tree) mounts}
          mounts ∧
        ∃ bound, ∀ (scandir : Scandir tree) (fuel : Nat), bound ≤ fuel →
          ∃ result, listExternalMounts scandir resolve fuel scanDir = some result ∧
            ∀ path, path ∈ result ↔ path ∈ mounts := by
  obtain ⟨first, _, _, least⟩ :=
    scan_isLeast (.inTableOrder tree) (Nat.le_refl (scanFuel tree)) resolve scanDir
  refine ⟨_, least, scanFuel tree, ?_⟩
  intro scandir fuel enough
  obtain ⟨result, ended, _, alsoLeast⟩ := scan_isLeast scandir enough resolve scanDir
  exact ⟨result, ended, Set.ext_iff.mp (alsoLeast.unique least)⟩

/-! ### Links that are called `.venv` -/

namespace VenvLinks

def scan : FileName := ⟨"scan".toList, by decide⟩
def ext : FileName := ⟨"ext".toList, by decide⟩
def one : FileName := ⟨"one".toList, by decide⟩
def two : FileName := ⟨"two".toList, by decide⟩

/-- In `/scan`, `one/.venv` is a link to the file `/ext/one` and `two/.venv` a link to the
directory `/ext/two`. -/
def venvTree : FileTree FileName where
  table := [([scan], .directory), ([scan, one], .directory), ([scan, two], .directory),
    ([ext], .directory), ([ext, one], .file 1), ([ext, two], .directory),
    ([scan, one, venv], .link ⟨.slash, [.name ext, .name one]⟩),
    ([scan, two, venv], .link ⟨.slash, [.name ext, .name two]⟩)]
  linkLimit := 40
  parents := by decide

theorem only_venv_links : ∀ entry ∈ venvTree.table, ∀ text, entry.2 = .link text →
    entry.1.getLast? = some venv := by
  intro entry member text isLink
  have kinds : ∀ entry ∈ venvTree.table, entry.1.getLast? = some venv ∨ entry.2 = .directory ∨
      entry.2 = .file 1 := by decide
  have kind := kinds entry member
  rw [isLink] at kind
  simpa using kind

theorem found : listExternalMounts (.inTableOrder venvTree) (fun _ => [scan]) 50 (.ofNames [scan]) =
    some [.ofNames [ext, one]] := by
  decide +kernel

end VenvLinks

open VenvLinks in
/-- The target of a link called `.venv` is found if it is a file and not if it is a directory. So
the result is neither the least set when nothing that is called `.venv` counts, nor when only what
is below it does not count. -/
theorem venv_links_differ :
    listExternalMounts (.inTableOrder venvTree) (fun _ => [scan]) 50 (.ofNames [scan]) =
        some [.ofNames [ext, one]] ∧
      ¬ IsLeast {mounts | HoldsTargets venvTree (.ofNames [scan])
        (fun _ names name => venv ∉ names ∧ name ≠ venv) mounts} {path | path ∈ [.ofNames [ext, one]]} ∧
      ¬ IsLeast {mounts | HoldsTargets venvTree (.ofNames [scan])
        (fun _ names _ => venv ∉ names) mounts} {path | path ∈ [.ofNames [ext, one]]} := by
  refine ⟨found, ?_, ?_⟩
  · intro least
    have empty : HoldsTargets venvTree (.ofNames [scan])
        (fun _ names name => venv ∉ names ∧ name ≠ venv) ∅ := by
      rintro dir _ path ⟨names, name, _, counted, _, target, hops, _⟩
      obtain ⟨next, ⟨text, read, _⟩, _⟩ := TransGen.head'_iff.mp hops
      obtain ⟨above, last, place, parts, _, linked⟩ := readlink_eq_some_iff.mp read
      have called := only_venv_links _ (node_mem (entry_eq_some linked).2 (by simp)) text rfl
      have same := congrArg List.getLast? parts
      simp only [PurePath.descend, List.map_append, List.map_cons, List.map_nil, ← List.append_assoc,
        List.getLast?_concat, Option.some.injEq, LexicalPaths.Part.name.injEq] at same called
      exact absurd (same.trans called) counted.2
    have absent := least.2 empty (List.mem_singleton.mpr rfl)
    exact absent
  · intro least
    have inTree : InTree venvTree (.ofNames [scan]) [two] venv :=
      ⟨[scan], by decide +kernel, .link ⟨.slash, [.name ext, .name two]⟩, by decide +kernel⟩
    have hop : HopTo venvTree ((PurePath.ofNames [scan]).descend [two, venv]) (.ofNames [ext, two]) :=
      ⟨⟨.slash, [.name ext, .name two]⟩, by decide +kernel, by decide +kernel, by decide +kernel⟩
    have held := least.1 (.ofNames [scan]) (.inl rfl) (.ofNames [ext, two])
      ⟨[two], venv, inTree, by decide, by decide, _, .single hop, by decide +kernel, by decide +kernel⟩
    exact absurd held (by decide +kernel)

end EzSdk.Devkit
