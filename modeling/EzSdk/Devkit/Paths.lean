import EzSdk.Devkit.Python
import EzSdk.Foundation.FileTrees

/-! Paths as `pathlib` and `os.path` of a POSIX system treat them, and what they ask a file tree
about an absolute path. -/

namespace EzSdk.Devkit

open LexicalPaths hiding Part Path
open FileTrees

/-- What can be a name in a directory. -/
structure FileName where
  text : Chars
  valid : text ≠ [] ∧ text ≠ ".".toList ∧ text ≠ "..".toList ∧ '/' ∉ text
  deriving DecidableEq

/-- A `pathlib` path: its root and the parts of its text, of which `.` is left out. -/
@[ext]
structure PurePath where
  root : Root
  parts : Steps FileName
  moves : .here ∉ parts
  deriving DecidableEq

namespace PurePath

/-- `Path(text)`. -/
def ofText (text : Text FileName) : PurePath := ⟨text.root, dropHere text.steps, here_notMem_dropHere⟩

def named (root : Root) (names : List FileName) : PurePath := ⟨root, names.map .name, by simp⟩

/-- The absolute path of some names. -/
def ofNames (names : List FileName) : PurePath := named .slash names

/-- `path / other`. -/
def join (path other : PurePath) : PurePath :=
  if other.root = .relative then
    ⟨path.root, path.parts ++ other.parts, by simp [path.moves, other.moves]⟩
  else other

/-- `path / name / ...`. -/
def descend (path : PurePath) (names : List FileName) : PurePath :=
  ⟨path.root, path.parts ++ names.map .name, by simp [path.moves]⟩

def parent (path : PurePath) : PurePath :=
  ⟨path.root, path.parts.dropLast, fun member => path.moves (List.mem_of_mem_dropLast member)⟩

/-- `Path(os.path.normpath(str(path)))`. -/
def normpath (path : PurePath) : PurePath :=
  ⟨path.root, ((LexicalPaths.Path.start (path.root ≠ .relative)).pushAll path.parts).parts,
    by simp [LexicalPaths.Path.parts]⟩

/-- `os.path.commonpath` of two absolute paths. -/
def commonpath (first second : PurePath) : PurePath :=
  ⟨.slash, common first.parts second.parts, fun member =>
    first.moves ((common_prefix_left first.parts second.parts).subset member)⟩

def isRelativeTo (path other : PurePath) : Bool := path.root = other.root ∧ other.parts <+: path.parts

theorem ofNames_absolute (names : List FileName) : (ofNames names).root ≠ .relative := by
  simp [ofNames, named]

theorem descend_absolute {path : PurePath} (absolute : path.root ≠ .relative) (names : List FileName) :
    (path.descend names).root ≠ .relative := absolute

theorem descend_descend (path : PurePath) (first second : List FileName) :
    (path.descend first).descend second = path.descend (first ++ second) := by
  simp [descend]

/-- Nothing of an absolute path is left to go up. -/
theorem normpath_absolute {path : PurePath} (absolute : path.root ≠ .relative) :
    path.normpath = named path.root (lexical path.parts) := by
  have rooted : ((LexicalPaths.Path.start true).pushAll path.parts).rooted = true :=
    (LexicalPaths.Path.pushAll_bounds (LexicalPaths.Path.start true) path.parts).1
  apply PurePath.ext
  · rfl
  · show ((LexicalPaths.Path.start (path.root ≠ .relative)).pushAll path.parts).parts = _
    rw [decide_eq_true absolute, LexicalPaths.Path.parts_of_rooted _ rooted]
    rfl

theorem normpath_parts {path : PurePath} (absolute : path.root ≠ .relative) :
    path.normpath.parts = (lexical path.parts).map .name :=
  congrArg parts (normpath_absolute absolute)

theorem normpath_ofNames (names : List FileName) : (ofNames names).normpath = ofNames names := by
  rw [normpath_absolute (ofNames_absolute names)]
  exact congrArg (named .slash) (lexical_names names)

theorem join_root (path other : PurePath) (absolute : path.root ≠ .relative) :
    (path.join other).root ≠ .relative := by
  rw [join]
  split
  · exact absolute
  · assumption

end PurePath

/-! ### Asking the file tree -/

section Queries

variable (tree : FileTree FileName) (path : PurePath)

/-- `path.exists()`. -/
def pathExists : Bool := (tree.resolve path.parts).isSome

def isDir : Bool :=
  match tree.resolve path.parts with
  | some place => tree.isDirectory place
  | none => false

/-- The text of the link that the path itself names. -/
def readlink : Option (Text FileName) :=
  match path.parts.getLast? with
  | some (.name name) =>
    match tree.resolve path.parts.dropLast with
    | some place =>
      match tree.entry place name with
      | some (.link text) => some text
      | _ => none
    | none => none
  | _ => none

def isSymlink : Bool := (readlink tree path).isSome

end Queries

variable {tree : FileTree FileName} {path : PurePath}

theorem pathExists_iff : pathExists tree path = true ↔
    ∃ final left, Follows tree tree.linkLimit [] path.parts final left := by
  simp only [pathExists, Option.isSome_iff_exists, resolve_eq_some_iff]

theorem isDir_iff : isDir tree path = true ↔
    ∃ place, tree.resolve path.parts = some place ∧ tree.isDirectory place = true := by
  unfold isDir
  cases tree.resolve path.parts with
  | none => simp
  | some place => simp

theorem readlink_eq_some_iff {text : Text FileName} : readlink tree path = some text ↔
    ∃ above name place, path.parts = above ++ [.name name] ∧ tree.resolve above = some place ∧
      tree.entry place name = some (.link text) := by
  constructor
  · intro read
    unfold readlink at read
    split at read
    · rename_i name last
      have parts := List.dropLast_append_getLast? _ last
      split at read
      · rename_i place resolved
        split at read
        · rename_i found
          cases read
          exact ⟨_, name, place, parts.symm, resolved, found⟩
        · cases read
      · cases read
    · cases read
  · rintro ⟨above, name, place, parts, resolved, found⟩
    simp [readlink, parts, resolved, found]

/-- Below a directory, a name is looked up in the place of the directory. -/
theorem readlink_descend {dir : PurePath} {name : FileName} {text : Text FileName}
    {place : Place FileName} (resolved : tree.resolve dir.parts = some place) :
    readlink tree (dir.descend [name]) = some text ↔ tree.entry place name = some (.link text) := by
  rw [readlink_eq_some_iff]
  constructor
  · rintro ⟨above, other, reached, parts, leads, found⟩
    obtain ⟨rfl, last⟩ := List.append_inj' parts rfl
    cases last
    cases resolved.symm.trans leads
    exact found
  · intro found
    exact ⟨dir.parts, name, place, rfl, resolved, found⟩

end EzSdk.Devkit
