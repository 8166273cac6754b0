import Mathlib.Logic.Function.Basic

/-! Names of files and the inodes behind them. Who has opened a file keeps its inode, whatever
becomes of the name. -/

namespace EzSdk.Inodes

/-- No inode has two names, and none from `fresh` on has one. -/
structure Disk (Path Byte : Type) where
  entry : Path → Option Nat
  content : Nat → List Byte
  fresh : Nat
  used : ∀ path inode, entry path = some inode → inode < fresh
  apart : ∀ path other inode, entry path = some inode → entry other = some inode → path = other

namespace Disk

variable {Path Byte : Type} (disk : Disk Path Byte)

/-- What one finds who opens the path. -/
def view (path : Path) : Option (List Byte) := (disk.entry path).map disk.content

def empty : Disk Path Byte where
  entry := fun _ => none
  content := fun _ => []
  fresh := 0
  used := nofun
  apart := nofun

/-- Overwrite what is behind an inode. -/
def set (inode : Nat) (bytes : List Byte) : Disk Path Byte :=
  { disk with content := Function.update disk.content inode bytes }

variable [DecidableEq Path]

/-- The path gets a new inode, without content. -/
def create (path : Path) : Disk Path Byte where
  entry := Function.update disk.entry path (some disk.fresh)
  content := Function.update disk.content disk.fresh []
  fresh := disk.fresh + 1
  used := by
    intro other inode named
    by_cases same : other = path
    · rw [same, Function.update_self] at named
      cases named
      omega
    · rw [Function.update_of_ne same] at named
      have old := disk.used other inode named
      omega
  apart := by
    intro one other inode first second
    by_cases left : one = path <;> by_cases right : other = path
    · rw [left, right]
    · rw [left, Function.update_self] at first
      rw [Function.update_of_ne right] at second
      cases first
      exact absurd (disk.used other _ second) (Nat.lt_irrefl _)
    · rw [right, Function.update_self] at second
      rw [Function.update_of_ne left] at first
      cases second
      exact absurd (disk.used one _ first) (Nat.lt_irrefl _)
    · rw [Function.update_of_ne left] at first
      rw [Function.update_of_ne right] at second
      exact disk.apart one other inode first second

def remove (path : Path) : Disk Path Byte where
  entry := Function.update disk.entry path none
  content := disk.content
  fresh := disk.fresh
  used := by
    intro other inode named
    by_cases same : other = path
    · rw [same, Function.update_self] at named
      cases named
    · rw [Function.update_of_ne same] at named
      exact disk.used other inode named
  apart := by
    intro one other inode first second
    by_cases left : one = path
    · rw [left, Function.update_self] at first
      cases first
    · by_cases right : other = path
      · rw [right, Function.update_self] at second
        cases second
      · rw [Function.update_of_ne left] at first
        rw [Function.update_of_ne right] at second
        exact disk.apart one other inode first second

/-- The entry of `source` replaces that of `target`. -/
def renameEntry (source target : Path) (path : Path) : Option Nat :=
  if path = source then none else if path = target then disk.entry source else disk.entry path

theorem renameEntry_eq_some {source target path : Path} {inode : Nat}
    (named : disk.renameEntry source target path = some inode) :
    (path = target ∧ disk.entry source = some inode) ∨ (path ≠ source ∧ disk.entry path = some inode) := by
  unfold renameEntry at named
  by_cases first : path = source
  · simp [first] at named
  · by_cases second : path = target
    · rw [if_neg first, if_pos second] at named
      exact .inl ⟨second, named⟩
    · rw [if_neg first, if_neg second] at named
      exact .inr ⟨first, named⟩

/-- `rename`, of different paths. -/
def rename (source target : Path) : Disk Path Byte where
  entry := disk.renameEntry source target
  content := disk.content
  fresh := disk.fresh
  used := by
    intro path inode named
    rcases disk.renameEntry_eq_some named with ⟨_, moved⟩ | ⟨_, old⟩
    · exact disk.used source inode moved
    · exact disk.used path inode old
  apart := by
    intro one other inode first second
    rcases disk.renameEntry_eq_some first with ⟨isTarget, moved⟩ | ⟨left, old⟩
    · rcases disk.renameEntry_eq_some second with ⟨alsoTarget, _⟩ | ⟨right, stays⟩
      · rw [isTarget, alsoTarget]
      · exact absurd (disk.apart other source inode stays moved) right
    · rcases disk.renameEntry_eq_some second with ⟨_, moved⟩ | ⟨_, stays⟩
      · exact absurd (disk.apart one source inode old moved) left
      · exact disk.apart one other inode old stays

/-! ### What the operations do to the view -/

variable {disk}

theorem view_set {path : Path} {inode : Nat} (named : disk.entry path = some inode) (bytes : List Byte) :
    (disk.set inode bytes).view = Function.update disk.view path (some bytes) := by
  funext other
  by_cases same : other = path
  · simp [same, view, set, named]
  · rw [Function.update_of_ne same]
    cases entry : disk.entry other with
    | none => simp [view, set, entry]
    | some found =>
      have differs : found ≠ inode := by
        intro equal
        exact same (disk.apart other path inode (equal ▸ entry) named)
      simp [view, set, entry, differs]

theorem view_create (path : Path) : (disk.create path).view = Function.update disk.view path (some []) := by
  funext other
  by_cases same : other = path
  · simp [same, view, create]
  · cases entry : disk.entry other with
    | none => simp [view, create, same, entry]
    | some found =>
      have old : found ≠ disk.fresh := Nat.ne_of_lt (disk.used other found entry)
      simp [view, create, same, entry, old]

theorem view_remove (path : Path) : (disk.remove path).view = Function.update disk.view path none := by
  funext other
  by_cases same : other = path
  · simp [same, view, remove]
  · simp [view, remove, same]

theorem view_rename {source target : Path} (differ : target ≠ source) :
    (disk.rename source target).view =
      Function.update (Function.update disk.view target (disk.view source)) source none := by
  funext path
  by_cases first : path = source
  · simp [first, view, rename, renameEntry]
  · by_cases second : path = target
    · simp [second, differ, view, rename, renameEntry]
    · simp [first, second, view, rename, renameEntry]

end Disk

end EzSdk.Inodes
