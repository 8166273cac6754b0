import EzSdk.Foundation.LexicalPaths
import Mathlib.Data.List.Induction

/-! File trees with symbolic links, and how a system follows a path through them: step by
step, with the text of a link in the place of the link, and no more links than a limit. -/

namespace EzSdk.FileTrees

open LexicalPaths hiding Part Path

variable {Name : Type} [DecidableEq Name]

/-- What a path begins with. Two slashes are kept apart by path libraries, but lead to the same
directory. -/
inductive Root where
  | relative
  | slash
  | slashes
  deriving DecidableEq

abbrev Steps (Name : Type) := List (LexicalPaths.Part Name)

/-- The text of a link. -/
structure Text (Name : Type) where
  root : Root
  steps : Steps Name
  deriving DecidableEq

inductive Node (Name : Type) where
  | file (inode : Nat)
  | directory
  | link (text : Text Name)
  deriving DecidableEq

/-- A place in the tree: the names on the way from the root. -/
abbrev Place (Name : Type) := List Name

/-- A file under another name is the same file. -/
inductive Identity (Name : Type) where
  | file (inode : Nat)
  | directory (place : Place Name)
  deriving DecidableEq

/-- What is not in a directory does not exist. The root is not in the table. -/
structure FileTree (Name : Type) [DecidableEq Name] where
  table : List (Place Name × Node Name)
  linkLimit : Nat
  parents : ∀ entry ∈ table, entry.1.dropLast = [] ∨
    table.lookup entry.1.dropLast = some .directory

variable (tree : FileTree Name)

namespace FileTree

def node : Place Name → Option (Node Name)
  | [] => some .directory
  | name :: names => tree.table.lookup (name :: names)

def isDirectory (place : Place Name) : Bool := tree.node place = some .directory

/-- The entry of a directory under a name. -/
def entry (place : Place Name) (name : Name) : Option (Node Name) :=
  if tree.isDirectory place then tree.node (place ++ [name]) else none

/-- Where the text of a link in a directory begins. -/
def base (place : Place Name) : Root → Place Name
  | .relative => place
  | _ => []

omit [DecidableEq Name] in
theorem base_absolute {place : Place Name} {root : Root} (absolute : root ≠ .relative) :
    base place root = [] := by
  cases root with
  | relative => exact absurd rfl absolute
  | slash => rfl
  | slashes => rfl

/-- Follow the steps up to the first link, and from there go on by `again`. -/
def followWith (again : Place Name → Steps Name → Option (Place Name × Nat)) (budget : Nat) :
    Place Name → Steps Name → Option (Place Name × Nat)
  | place, [] => some (place, budget)
  | place, .here :: steps => if tree.isDirectory place then followWith again budget place steps else none
  | place, .up :: steps =>
    if tree.isDirectory place then followWith again budget place.dropLast steps else none
  | place, .name name :: steps =>
    match tree.entry place name with
    | none => none
    | some (.link text) => again (base place text.root) (text.steps ++ steps)
    | some _ => followWith again budget (place ++ [name]) steps

/-- Where the steps lead from a place, and how many links may still be followed then. -/
def follow : Nat → Place Name → Steps Name → Option (Place Name × Nat)
  | 0 => tree.followWith (fun _ _ => none) 0
  | budget + 1 => tree.followWith (follow budget) (budget + 1)

/-- The place that a path from the root leads to. -/
def resolve (steps : Steps Name) : Option (Place Name) :=
  (tree.follow tree.linkLimit [] steps).map Prod.fst

/-- What is at a place that is no link. -/
def identity (place : Place Name) : Option (Identity Name) :=
  match tree.node place with
  | some (.file inode) => some (.file inode)
  | some .directory => some (.directory place)
  | _ => none

/-- The file or directory that a path from the root refers to. -/
def refersTo (steps : Steps Name) : Option (Identity Name) :=
  (tree.resolve steps).bind tree.identity

end FileTree

/-! ### Single steps -/

section Steps

variable {tree} {budget : Nat} {place : Place Name} {steps : Steps Name}

@[simp]
theorem follow_nil : tree.follow budget place [] = some (place, budget) := by
  cases budget <;> rfl

theorem follow_here : tree.follow budget place (.here :: steps) =
    if tree.isDirectory place then tree.follow budget place steps else none := by
  cases budget <;> rfl

theorem follow_up : tree.follow budget place (.up :: steps) =
    if tree.isDirectory place then tree.follow budget place.dropLast steps else none := by
  cases budget <;> rfl

theorem follow_name_absent {name : Name} (absent : tree.entry place name = none) :
    tree.follow budget place (.name name :: steps) = none := by
  cases budget <;> simp [FileTree.follow, FileTree.followWith, absent]

theorem follow_name_link {name : Name} {text : Text Name}
    (found : tree.entry place name = some (.link text)) :
    tree.follow budget place (.name name :: steps) =
      match budget with
      | 0 => none
      | budget + 1 => tree.follow budget (FileTree.base place text.root) (text.steps ++ steps) := by
  cases budget <;> simp [FileTree.follow, FileTree.followWith, found]

theorem follow_name_entry {name : Name} {node : Node Name} (found : tree.entry place name = some node)
    (noLink : ∀ text, node ≠ .link text) :
    tree.follow budget place (.name name :: steps) = tree.follow budget (place ++ [name]) steps := by
  cases node with
  | link text => exact absurd rfl (noLink text)
  | file inode => cases budget <;> simp [FileTree.follow, FileTree.followWith, found]
  | directory => cases budget <;> simp [FileTree.follow, FileTree.followWith, found]

end Steps

/-- The cases in which a path is followed. The budget is the outer measure and the steps the
inner one, since a link puts its text before them. -/
@[elab_as_elim]
theorem follow_induction {motive : Nat → Place Name → Steps Name → Prop}
    (done : ∀ budget place, motive budget place [])
    (here : ∀ budget place steps, motive budget place steps → motive budget place (.here :: steps))
    (up : ∀ budget place steps, motive budget place.dropLast steps → motive budget place (.up :: steps))
    (absent : ∀ budget place name steps, tree.entry place name = none →
      motive budget place (.name name :: steps))
    (exhausted : ∀ place name text steps, tree.entry place name = some (.link text) →
      motive 0 place (.name name :: steps))
    (link : ∀ budget place name text steps, tree.entry place name = some (.link text) →
      motive budget (FileTree.base place text.root) (text.steps ++ steps) →
      motive (budget + 1) place (.name name :: steps))
    (entry : ∀ budget place name node steps, tree.entry place name = some node →
      (∀ text, node ≠ .link text) → motive budget (place ++ [name]) steps →
      motive budget place (.name name :: steps)) :
    ∀ budget place steps, motive budget place steps := by
  have named (budget : Nat) (steps : Steps Name)
      (ih : ∀ place, motive budget place steps)
      (linked : ∀ place name text, tree.entry place name = some (.link text) →
        motive budget place (.name name :: steps))
      (place : Place Name) (name : Name) : motive budget place (.name name :: steps) := by
    cases found : tree.entry place name with
    | none => exact absent budget place name steps found
    | some node =>
      cases node with
      | link text => exact linked place name text found
      | file inode => exact entry budget place name _ steps found (by simp) (ih _)
      | directory => exact entry budget place name _ steps found (by simp) (ih _)
  intro budget
  induction budget with
  | zero =>
    intro place steps
    induction steps generalizing place with
    | nil => exact done 0 place
    | cons step steps ih =>
      cases step with
      | here => exact here 0 place steps (ih place)
      | up => exact up 0 place steps (ih _)
      | name name =>
        exact named 0 steps ih
          (fun place name text found => exhausted place name text steps found) place name
  | succ budget shorter =>
    intro place steps
    induction steps generalizing place with
    | nil => exact done (budget + 1) place
    | cons step steps ih =>
      cases step with
      | here => exact here (budget + 1) place steps (ih place)
      | up => exact up (budget + 1) place steps (ih _)
      | name name =>
        exact named (budget + 1) steps ih
          (fun place name text found =>
            link budget place name text steps found (shorter _ _)) place name

variable {tree}

/-- The second part of a path is followed from where the first leads. -/
theorem follow_append (budget : Nat) (place : Place Name) (first second : Steps Name) :
    tree.follow budget place (first ++ second) =
      (tree.follow budget place first).bind (fun reached => tree.follow reached.2 reached.1 second) := by
  induction budget, place, first using follow_induction tree with
  | done budget place => simp
  | here budget place steps ih =>
    rw [List.cons_append, follow_here, follow_here]
    split
    · exact ih
    · rfl
  | up budget place steps ih =>
    rw [List.cons_append, follow_up, follow_up]
    split
    · exact ih
    · rfl
  | absent budget place name steps found =>
    rw [List.cons_append, follow_name_absent found, follow_name_absent found]
    rfl
  | exhausted place name text steps found =>
    rw [List.cons_append, follow_name_link found, follow_name_link found]
    rfl
  | link budget place name text steps found ih =>
    rw [List.cons_append, follow_name_link found, follow_name_link found]
    rw [List.append_assoc] at ih
    exact ih
  | entry budget place name node steps found noLink ih =>
    rw [List.cons_append, follow_name_entry found noLink, follow_name_entry found noLink]
    exact ih

theorem follow_append_eq_some {budget left : Nat} {place final : Place Name}
    {first second : Steps Name} :
    tree.follow budget place (first ++ second) = some (final, left) ↔
      ∃ middle between, tree.follow budget place first = some (middle, between) ∧
        tree.follow between middle second = some (final, left) := by
  rw [follow_append, Option.bind_eq_some_iff]
  simp only [Prod.exists]

/-- The steps lead from one place to another. -/
inductive Follows (tree : FileTree Name) : Nat → Place Name → Steps Name → Place Name → Nat → Prop where
  | done {budget place} : Follows tree budget place [] place budget
  | here {budget place steps final left} (directory : tree.isDirectory place = true)
      (rest : Follows tree budget place steps final left) :
      Follows tree budget place (.here :: steps) final left
  | up {budget place steps final left} (directory : tree.isDirectory place = true)
      (rest : Follows tree budget place.dropLast steps final left) :
      Follows tree budget place (.up :: steps) final left
  | link {budget place name text steps final left}
      (found : tree.entry place name = some (.link text))
      (rest : Follows tree budget (FileTree.base place text.root) (text.steps ++ steps) final left) :
      Follows tree (budget + 1) place (.name name :: steps) final left
  | entry {budget place name node steps final left} (found : tree.entry place name = some node)
      (noLink : ∀ text, node ≠ .link text)
      (rest : Follows tree budget (place ++ [name]) steps final left) :
      Follows tree budget place (.name name :: steps) final left

theorem follows_of_follow {budget left : Nat} {place final : Place Name} {steps : Steps Name}
    (followed : tree.follow budget place steps = some (final, left)) :
    Follows tree budget place steps final left := by
  induction budget, place, steps using follow_induction tree with
  | done budget place =>
    cases follow_nil.symm.trans followed
    exact .done
  | here budget place steps ih =>
    rw [follow_here] at followed
    split at followed
    · rename_i directory
      exact .here directory (ih followed)
    · cases followed
  | up budget place steps ih =>
    rw [follow_up] at followed
    split at followed
    · rename_i directory
      exact .up directory (ih followed)
    · cases followed
  | absent budget place name steps found =>
    rw [follow_name_absent found] at followed
    cases followed
  | exhausted place name text steps found =>
    rw [follow_name_link found] at followed
    cases followed
  | link budget place name text steps found ih =>
    rw [follow_name_link found] at followed
    exact .link found (ih followed)
  | entry budget place name node steps found noLink ih =>
    rw [follow_name_entry found noLink] at followed
    exact .entry found noLink (ih followed)

theorem Follows.follow {budget left : Nat} {place final : Place Name} {steps : Steps Name}
    (follows : Follows tree budget place steps final left) :
    tree.follow budget place steps = some (final, left) := by
  induction follows with
  | done => exact follow_nil
  | here directory _ ih => rw [follow_here, if_pos directory, ih]
  | up directory _ ih => rw [follow_up, if_pos directory, ih]
  | link found _ ih =>
    rw [follow_name_link found]
    exact ih
  | entry found noLink _ ih => rw [follow_name_entry found noLink, ih]

theorem follow_eq_some_iff {budget left : Nat} {place final : Place Name} {steps : Steps Name} :
    tree.follow budget place steps = some (final, left) ↔ Follows tree budget place steps final left :=
  ⟨follows_of_follow, Follows.follow⟩

section Following

variable {budget left : Nat} {place final : Place Name} {steps : Steps Name}
  (follows : Follows tree budget place steps final left)
include follows

/-- Links that need not be followed are left over. -/
theorem Follows.more (more : Nat) : Follows tree (budget + more) place steps final (left + more) := by
  induction follows with
  | done => exact .done
  | here directory _ ih => exact .here directory ih
  | up directory _ ih => exact .up directory ih
  | link found _ ih =>
    rw [Nat.add_right_comm]
    exact .link found ih
  | entry found noLink _ ih => exact .entry found noLink ih

theorem Follows.left_le : left ≤ budget := by
  induction follows with
  | done => exact Nat.le_refl _
  | here _ _ ih => exact ih
  | up _ _ ih => exact ih
  | link _ _ ih => exact Nat.le_succ_of_le ih
  | entry _ _ _ ih => exact ih

end Following

theorem Follows.append {budget between left : Nat} {place middle final : Place Name}
    {first second : Steps Name} (one : Follows tree budget place first middle between)
    (other : Follows tree between middle second final left) :
    Follows tree budget place (first ++ second) final left :=
  follows_of_follow (follow_append_eq_some.mpr ⟨middle, between, one.follow, other.follow⟩)

theorem follows_append_iff {budget left : Nat} {place final : Place Name}
    {first second : Steps Name} :
    Follows tree budget place (first ++ second) final left ↔
      ∃ middle between, Follows tree budget place first middle between ∧
        Follows tree between middle second final left := by
  simp only [← follow_eq_some_iff, follow_append_eq_some]

theorem follows_nil_iff {budget left : Nat} {place final : Place Name} :
    Follows tree budget place [] final left ↔ final = place ∧ left = budget := by
  rw [← follow_eq_some_iff, follow_nil, Option.some.injEq, Prod.mk.injEq, eq_comm, @eq_comm _ left]

/-- A path leads to one place only. -/
theorem Follows.unique {budget left left' : Nat} {place final final' : Place Name}
    {steps : Steps Name} (one : Follows tree budget place steps final left)
    (other : Follows tree budget place steps final' left') : final = final' ∧ left = left' :=
  Prod.mk.inj (Option.some.inj (one.follow.symm.trans other.follow))

theorem resolve_eq_some_iff {steps : Steps Name} {final : Place Name} :
    tree.resolve steps = some final ↔ ∃ left, Follows tree tree.linkLimit [] steps final left := by
  simp only [FileTree.resolve, Option.map_eq_some_iff, Prod.exists, exists_and_right, exists_eq_right,
    follow_eq_some_iff]

/-! ### What is at a place -/

section Places

variable {place : Place Name} {name : Name} {node : Node Name}

theorem lookup_mem {table : List (Place Name × Node Name)}
    (found : table.lookup place = some node) : (place, node) ∈ table := by
  obtain ⟨before, after, same, _⟩ := List.lookup_eq_some_iff.mp found
  rw [same]
  exact List.mem_append_right before List.mem_cons_self

theorem isDirectory_iff : tree.isDirectory place = true ↔ tree.node place = some .directory :=
  decide_eq_true_iff

theorem entry_eq_some (found : tree.entry place name = some node) :
    tree.isDirectory place = true ∧ tree.node (place ++ [name]) = some node := by
  unfold FileTree.entry at found
  split at found
  · rename_i directory
    exact ⟨directory, found⟩
  · cases found

theorem node_mem (found : tree.node place = some node) (notRoot : place ≠ []) :
    (place, node) ∈ tree.table := by
  cases place with
  | nil => exact absurd rfl notRoot
  | cons name names => exact lookup_mem found

/-- Whatever exists is in a directory. -/
theorem isDirectory_dropLast (found : tree.node place = some node) :
    tree.isDirectory place.dropLast = true := by
  rw [isDirectory_iff]
  by_cases root : place = []
  · rw [root]
    rfl
  · rcases tree.parents _ (node_mem found root) with top | inside
    · rw [top]
      rfl
    · generalize place.dropLast = parent at inside
      cases parent with
      | nil => rfl
      | cons name names => exact inside

theorem node_snoc (found : tree.node (place ++ [name]) = some node) :
    tree.entry place name = some node := by
  have inside := isDirectory_dropLast found
  rw [List.dropLast_concat] at inside
  rw [FileTree.entry, if_pos inside, found]

/-- Something is at the place. -/
def Present (tree : FileTree Name) (place : Place Name) : Prop := ∃ node, tree.node place = some node

theorem present_root : Present tree [] := ⟨.directory, rfl⟩

theorem present_of_isDirectory (directory : tree.isDirectory place = true) : Present tree place :=
  ⟨.directory, isDirectory_iff.mp directory⟩

theorem isDirectory_of_present_append {more : List Name} (present : Present tree (place ++ more))
    (nonempty : more ≠ []) : tree.isDirectory place = true := by
  induction more using List.reverseRecOn with
  | nil => exact absurd rfl nonempty
  | append_singleton more last ih =>
    obtain ⟨node, found⟩ := present
    have inside := isDirectory_dropLast found
    rw [← List.append_assoc, List.dropLast_concat] at inside
    cases more with
    | nil => rwa [List.append_nil] at inside
    | cons first more => exact ih (present_of_isDirectory inside) (List.cons_ne_nil _ _)

theorem Follows.present {budget left : Nat} {final : Place Name} {steps : Steps Name}
    (follows : Follows tree budget place steps final left) (present : Present tree place) :
    Present tree final := by
  induction follows with
  | done => exact present
  | here _ _ ih => exact ih present
  | up directory _ ih =>
    exact ih (present_of_isDirectory (isDirectory_dropLast (isDirectory_iff.mp directory)))
  | @link budget place name text steps final left found _ ih =>
    apply ih
    by_cases root : text.root = .relative
    · rw [root]
      exact present_of_isDirectory (entry_eq_some found).1
    · rw [FileTree.base_absolute root]
      exact present_root
  | entry found _ _ ih => exact ih ⟨_, (entry_eq_some found).2⟩

theorem identity_of_entry (found : tree.entry place name = some node)
    (noLink : ∀ text, node ≠ .link text) : ∃ file, tree.identity (place ++ [name]) = some file := by
  have there := (entry_eq_some found).2
  cases node with
  | file inode => exact ⟨.file inode, by rw [FileTree.identity, there]⟩
  | directory => exact ⟨.directory _, by rw [FileTree.identity, there]⟩
  | link text => exact absurd rfl (noLink text)

theorem identity_of_isDirectory (directory : tree.isDirectory place = true) :
    tree.identity place = some (.directory place) := by
  rw [FileTree.identity, isDirectory_iff.mp directory]

/-- No path ends at a link. -/
theorem Follows.identity {budget left : Nat} {final : Place Name} {steps : Steps Name}
    (follows : Follows tree budget place steps final left)
    (begins : ∃ file, tree.identity place = some file) : ∃ file, tree.identity final = some file := by
  induction follows with
  | done => exact begins
  | here _ _ ih => exact ih begins
  | up directory _ ih =>
    exact ih ⟨_, identity_of_isDirectory (isDirectory_dropLast (isDirectory_iff.mp directory))⟩
  | @link budget place name text steps final left found _ ih =>
    apply ih
    by_cases root : text.root = .relative
    · rw [root]
      exact ⟨_, identity_of_isDirectory (entry_eq_some found).1⟩
    · rw [FileTree.base_absolute root]
      exact ⟨.directory [], rfl⟩
  | entry found noLink _ ih => exact ih (identity_of_entry found noLink)

theorem refersTo_eq_some_iff {steps : Steps Name} {file : Identity Name} :
    tree.refersTo steps = some file ↔ ∃ final left, Follows tree tree.linkLimit [] steps final left ∧
      tree.identity final = some file := by
  simp only [FileTree.refersTo, Option.bind_eq_some_iff, resolve_eq_some_iff]
  constructor
  · rintro ⟨final, ⟨left, follows⟩, same⟩
    exact ⟨final, left, follows, same⟩
  · rintro ⟨final, left, follows, same⟩
    exact ⟨final, ⟨left, follows⟩, same⟩

end Places

/-! ### The paths that lead somewhere are finitely many -/

namespace FileTree

/-- The length of the longest way from the root. -/
def depth (tree : FileTree Name) : Nat := (tree.table.map (fun entry => entry.1.length)).foldr max 0

/-- All the names in the tree. -/
def names (tree : FileTree Name) : List Name := tree.table.flatMap Prod.fst

end FileTree

theorem le_foldr_max {number : Nat} {numbers : List Nat} (member : number ∈ numbers) :
    number ≤ numbers.foldr max 0 := by
  induction numbers with
  | nil => cases member
  | cons first numbers ih =>
    rw [List.foldr_cons]
    rcases List.mem_cons.mp member with rfl | later
    · exact Nat.le_max_left _ _
    · exact Nat.le_trans (ih later) (Nat.le_max_right _ _)

theorem present_length_le {place : Place Name} (present : Present tree place) :
    place.length ≤ tree.depth := by
  obtain ⟨node, found⟩ := present
  by_cases root : place = []
  · rw [root]
    exact Nat.zero_le _
  · exact le_foldr_max (List.mem_map.mpr ⟨(place, node), node_mem found root, rfl⟩)

theorem entry_name_mem {place : Place Name} {name : Name} {node : Node Name}
    (found : tree.entry place name = some node) : name ∈ tree.names := by
  have member := node_mem (entry_eq_some found).2 (by simp)
  exact List.mem_flatMap.mpr ⟨_, member, by simp⟩

/-- The lists of some names up to a length. -/
def listsUpTo (names : List Name) : Nat → List (List Name)
  | 0 => [[]]
  | length + 1 => [] :: names.flatMap (fun name => (listsUpTo names length).map (name :: ·))

omit [DecidableEq Name] in
theorem mem_listsUpTo {names : List Name} (length : Nat) {path : List Name}
    (known : ∀ name ∈ path, name ∈ names) (short : path.length ≤ length) :
    path ∈ listsUpTo names length := by
  induction length generalizing path with
  | zero => simp [listsUpTo, List.length_eq_zero_iff.mp (Nat.le_zero.mp short)]
  | succ length ih =>
    cases path with
    | nil => exact List.mem_cons_self
    | cons name path =>
      have shorter := ih (fun other member => known other (List.mem_cons_of_mem name member))
        (Nat.le_of_succ_le_succ short)
      exact List.mem_cons_of_mem _ (List.mem_flatMap.mpr
        ⟨name, known name List.mem_cons_self, List.mem_map_of_mem shorter⟩)

/-- One name takes the path deeper, or takes a link. -/
theorem follows_name_cases {budget left : Nat} {place final : Place Name} {name : Name}
    (follows : Follows tree budget place [.name name] final left) (present : Present tree place) :
    name ∈ tree.names ∧ Present tree final ∧
      (final.length = place.length + 1 ∧ left = budget ∨ left < budget) := by
  have reached := follows.present present
  cases follows with
  | link found rest =>
    exact ⟨entry_name_mem found, reached, .inr (Nat.lt_succ_of_le rest.left_le)⟩
  | entry found noLink rest =>
    obtain ⟨rfl, rfl⟩ := follows_nil_iff.mp rest
    exact ⟨entry_name_mem found, reached, .inl ⟨by simp, rfl⟩⟩

/-- A path of names that leads somewhere has names of the tree, and between two links no more
than the depth of the tree. -/
theorem follows_names_bounded (path : List Name) {budget left : Nat} {place final : Place Name}
    (follows : Follows tree budget place (path.map .name) final left) (present : Present tree place) :
    (∀ name ∈ path, name ∈ tree.names) ∧
      path.length ≤ budget * (tree.depth + 1) + (tree.depth - place.length) := by
  induction path generalizing budget place with
  | nil => exact ⟨fun _ absent => absurd absent List.not_mem_nil, Nat.zero_le _⟩
  | cons name path ih =>
    have split : Follows tree budget place ([.name name] ++ path.map .name) final left := follows
    obtain ⟨middle, between, first, rest⟩ := follows_append_iff.mp split
    obtain ⟨known, reached, progress⟩ := follows_name_cases first present
    obtain ⟨others, bounded⟩ := ih rest reached
    have deep := present_length_le reached
    refine ⟨?_, ?_⟩
    · intro other member
      rcases List.mem_cons.mp member with rfl | later
      · exact known
      · exact others other later
    · rw [List.length_cons]
      rcases progress with ⟨deeper, rfl⟩ | fewer
      · omega
      · have shrinks : (between + 1) * (tree.depth + 1) ≤ budget * (tree.depth + 1) :=
          Nat.mul_le_mul_right _ fewer
        rw [Nat.succ_mul] at shrinks
        omega

/-- All paths of names that lead from the root somewhere. -/
def FileTree.pathsFromRoot (tree : FileTree Name) : List (List Name) :=
  listsUpTo tree.names (tree.linkLimit * (tree.depth + 1) + tree.depth)

theorem mem_pathsFromRoot {path : List Name} {final : Place Name} {left : Nat}
    (follows : Follows tree tree.linkLimit [] (path.map .name) final left) :
    path ∈ tree.pathsFromRoot := by
  obtain ⟨known, short⟩ := follows_names_bounded path follows present_root
  exact mem_listsUpTo _ known short

/-! ### Steps that stay -/

/-- The steps without those that stay where they are. -/
def dropHere (steps : Steps Name) : Steps Name := steps.filter (· ≠ .here)

theorem here_notMem_dropHere {steps : Steps Name} : .here ∉ dropHere steps := by
  simp [dropHere]

section Staying

variable {budget left : Nat} {place final : Place Name} {steps : Steps Name}

theorem dropHere_here : dropHere (.here :: steps) = dropHere steps := rfl

theorem dropHere_cons {step : LexicalPaths.Part Name} (moves : step ≠ .here) :
    dropHere (step :: steps) = step :: dropHere steps :=
  List.filter_cons_of_pos (decide_eq_true moves)

/-- The first step starts in a directory. -/
theorem Follows.isDirectory {step : LexicalPaths.Part Name}
    (follows : Follows tree budget place (step :: steps) final left) : tree.isDirectory place = true := by
  cases follows with
  | here directory _ => exact directory
  | up directory _ => exact directory
  | link found _ => exact (entry_eq_some found).1
  | entry found _ _ => exact (entry_eq_some found).1

theorem follows_cons_iff {step : LexicalPaths.Part Name} :
    Follows tree budget place (step :: steps) final left ↔
      ∃ middle between, Follows tree budget place [step] middle between ∧
        Follows tree between middle steps final left := by
  rw [← follows_append_iff, List.singleton_append]

theorem follows_here_iff : Follows tree budget place (.here :: steps) final left ↔
    tree.isDirectory place = true ∧ Follows tree budget place steps final left := by
  constructor
  · intro follows
    cases follows with
    | here directory rest => exact ⟨directory, rest⟩
  · intro both
    exact .here both.1 both.2

omit [DecidableEq Name] in
theorem getLast?_cons_of_moves {step : LexicalPaths.Part Name} (moves : step ≠ .here) :
    (step :: steps).getLast? = some .here ↔ steps.getLast? = some .here := by
  cases steps with
  | nil => simp [moves]
  | cons next steps => rw [List.getLast?_cons_cons]

theorem getLast?_of_dropHere_nil (stays : dropHere steps = []) (nonempty : steps ≠ []) :
    steps.getLast? = some .here := by
  rw [List.getLast?_eq_some_getLast nonempty]
  have last := List.filter_eq_nil_iff.mp stays _ (List.getLast_mem nonempty)
  rw [of_not_not (fun moves => last (decide_eq_true moves))]

/-- A step that stays only asks for a directory, which the step after it does as well. -/
theorem follows_dropHere_iff : Follows tree budget place steps final left ↔
    Follows tree budget place (dropHere steps) final left ∧
      (steps.getLast? = some .here → tree.isDirectory final = true) := by
  induction steps generalizing budget place with
  | nil => simp [dropHere]
  | cons step steps ih =>
    by_cases stays : step = .here
    · subst stays
      rw [follows_here_iff, ih, dropHere_here]
      cases rest : dropHere steps with
      | nil =>
        have ends := getLast?_of_dropHere_nil (dropHere_here.trans rest) (List.cons_ne_nil _ _)
        rw [ends, follows_nil_iff]
        constructor
        · intro both
          exact ⟨both.2.1, fun _ => both.2.1.1 ▸ both.1⟩
        · intro both
          have directory := both.2 rfl
          exact ⟨both.1.1 ▸ directory, both.1, fun _ => directory⟩
      | cons next more =>
        have nonempty : steps ≠ [] := by
          intro empty
          rw [empty] at rest
          cases rest
        obtain ⟨first, others, rfl⟩ := List.exists_cons_of_ne_nil nonempty
        rw [List.getLast?_cons_cons]
        constructor
        · intro both
          exact both.2
        · intro both
          exact ⟨both.1.isDirectory, both⟩
    · rw [dropHere_cons stays, getLast?_cons_of_moves stays, follows_cons_iff,
        @follows_cons_iff _ _ _ _ _ _ _ (dropHere steps)]
      -- the condition on the last step does not depend on what is between
      simp only [ih, ← and_assoc, exists_and_right]

end Staying

/-! ### Steps up, followed and taken back -/

/-- Every name that a step up takes back is that of a directory, not of a link. -/
def Straight (tree : FileTree Name) (steps : Steps Name) : Prop :=
  ∀ before, before ++ [.up] <+: steps → ∀ names name, lexical before = names ++ [name] →
    ∀ place, tree.resolve (names.map .name) = some place → tree.entry place name = some .directory

/-- Then taking the steps up back before the path is followed leads to the same place. -/
theorem Straight.follows_lexical (steps : Steps Name) {final : Place Name} {left : Nat}
    (straight : Straight tree steps) (follows : Follows tree tree.linkLimit [] steps final left) :
    ∃ spare, left ≤ spare ∧
      Follows tree tree.linkLimit [] ((lexical steps).map .name) final spare := by
  induction steps using List.reverseRecOn generalizing final left with
  | nil => exact ⟨left, Nat.le_refl left, follows⟩
  | append_singleton steps step ih =>
    obtain ⟨middle, between, first, last⟩ := follows_append_iff.mp follows
    have earlier : Straight tree steps := fun before inside =>
      straight before (inside.trans (List.prefix_append _ _))
    obtain ⟨spare, enough, along⟩ := ih earlier first
    rw [lexical_snoc]
    cases step with
    | here =>
      obtain ⟨_, rest⟩ := follows_here_iff.mp last
      obtain ⟨rfl, rfl⟩ := follows_nil_iff.mp rest
      exact ⟨spare, enough, along⟩
    | name name =>
      obtain ⟨more, rfl⟩ := Nat.exists_eq_add_of_le enough
      refine ⟨left + more, Nat.le_add_right _ _, ?_⟩
      rw [List.map_append]
      exact along.append (last.more more)
    | up =>
      cases last with
      | up directory rest =>
        obtain ⟨rfl, rfl⟩ := follows_nil_iff.mp rest
        rcases List.eq_nil_or_concat (lexical steps) with top | ⟨names, name, same⟩
        · rw [top] at along ⊢
          obtain ⟨rfl, rfl⟩ := follows_nil_iff.mp along
          exact ⟨tree.linkLimit, enough, .done⟩
        · rw [List.concat_eq_append] at same
          rw [same, List.map_append] at along
          obtain ⟨above, others, toParent, toName⟩ := follows_append_iff.mp along
          have found := straight steps (List.prefix_refl _) names name same above
            (resolve_eq_some_iff.mpr ⟨others, toParent⟩)
          have fewer := toName.left_le
          cases toName with
          | link linked _ =>
            rw [found] at linked
            cases linked
          | entry _ _ rest =>
            obtain ⟨rfl, rfl⟩ := follows_nil_iff.mp rest
            rw [same, List.dropLast_concat, List.dropLast_concat]
            exact ⟨_, enough, toParent⟩

end EzSdk.FileTrees
