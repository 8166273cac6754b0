import EzSdk.Devkit.MountScan

/-! Whether an external mount is the file or directory that the link leads to. Its path is taken
from the text of the link with every `..` taken back before the path is followed, while the system
goes up from where the names before the `..` lead to. -/

namespace EzSdk.Devkit

open LexicalPaths hiding Part Path
open FileTrees Relation

variable {tree : FileTree FileName}

/-- `abs_target`. -/
def hopTarget (link : PurePath) (text : Text FileName) : PurePath := link.parent.join (.ofText text)

/-- What the text of a link names for the system. -/
def systemTarget (link : PurePath) (text : Text FileName) : Steps FileName :=
  if text.root = .relative then link.parent.parts ++ text.steps else text.steps

/-- The scan adds a path for a link that it comes to. -/
structure AddedFor (tree : FileTree FileName) (scanDirAbs : PurePath) (mounts : Set PurePath)
    (link : PurePath) (text : Text FileName) : Prop where
  chained : ∃ dir, (dir = scanDirAbs ∨ dir ∈ mounts ∧ isDir tree dir = true) ∧
    ∃ names name, InTree tree dir names name ∧ OutsideVenvs tree dir names name ∧
      isBazelName name = false ∧ ReflTransGen (HopTo tree) (dir.descend (names ++ [name])) link
  read : readlink tree link = some text
  present : pathExists tree (hopTarget link text) = true
  outside : ¬ scanDirAbs.parts <+: (hopTarget link text).normpath.parts

/-- The path exists, and is the file or directory that the system gets to by the link. -/
def Denotes (tree : FileTree FileName) (path link : PurePath) (text : Text FileName) : Prop :=
  ∃ file, tree.refersTo (systemTarget link text) = some file ∧ tree.refersTo path.parts = some file

/-! ### The text as the system reads it -/

theorem follows_systemTarget_iff {link : PurePath} {text : Text FileName} {final : Place FileName}
    {left : Nat} :
    Follows tree tree.linkLimit [] (systemTarget link text) final left ↔
      Follows tree tree.linkLimit [] (hopTarget link text).parts final left ∧
        (text.steps.getLast? = some .here → tree.isDirectory final = true) := by
  unfold systemTarget hopTarget PurePath.join
  by_cases relative : text.root = .relative
  · have same : (PurePath.ofText text).root = .relative := relative
    rw [if_pos relative, if_pos same]
    simp only [PurePath.ofText, follows_append_iff, @follows_dropHere_iff _ _ _ _ _ _ _ text.steps,
      ← and_assoc, exists_and_right]
  · have same : ¬ (PurePath.ofText text).root = .relative := relative
    rw [if_neg relative, if_neg same]
    exact follows_dropHere_iff

theorem isDir_of_follows {path : PurePath} {final : Place FileName} {left : Nat}
    (follows : Follows tree tree.linkLimit [] path.parts final left) :
    isDir tree path = tree.isDirectory final := by
  rw [isDir, resolve_eq_some_iff.mpr ⟨left, follows⟩]

/-- When no name that a `..` takes back is that of a link, the path is what the system gets to, unless
the text ends in a slash or a dot and names no directory. -/
theorem denotes_iff_of_straight {link : PurePath} {text : Text FileName}
    (absolute : (hopTarget link text).root ≠ .relative)
    (present : pathExists tree (hopTarget link text) = true)
    (straight : Straight tree (hopTarget link text).parts) :
    Denotes tree (hopTarget link text).normpath link text ↔
      (text.steps.getLast? = some .here → isDir tree (hopTarget link text) = true) := by
  constructor
  · rintro ⟨file, bySystem, _⟩ ends
    obtain ⟨final, left, follows, _⟩ := refersTo_eq_some_iff.mp bySystem
    obtain ⟨along, last⟩ := follows_systemTarget_iff.mp follows
    rw [isDir_of_follows along]
    exact last ends
  · intro directory
    obtain ⟨final, left, follows⟩ := pathExists_iff.mp present
    obtain ⟨file, same⟩ := follows.identity ⟨.directory [], rfl⟩
    rw [isDir_of_follows follows] at directory
    obtain ⟨spare, _, along⟩ := straight.follows_lexical _ follows
    refine ⟨file, refersTo_eq_some_iff.mpr ?_, refersTo_eq_some_iff.mpr ?_⟩
    · exact ⟨final, left, follows_systemTarget_iff.mpr ⟨follows, directory⟩, same⟩
    · rw [PurePath.normpath_parts absolute]
      exact ⟨final, spare, along, same⟩

/-! ### All mounts -/

theorem AddedFor.absolute {scanDirAbs link : PurePath} {mounts : Set PurePath} {text : Text FileName}
    (scanned : scanDirAbs.root ≠ .relative) (absolute : ∀ path ∈ mounts, path.root ≠ .relative)
    (added : AddedFor tree scanDirAbs mounts link text) : (hopTarget link text).root ≠ .relative := by
  obtain ⟨dir, searched, names, name, _, _, _, chained⟩ := added.chained
  have fromRoot : dir.root ≠ .relative := by
    rcases searched with rfl | ⟨member, _⟩
    · exact scanned
    · exact absolute dir member
  have hop : HopTo tree link (hopTarget link text) := ⟨text, added.read, rfl, added.present⟩
  exact absolute_of_hops (PurePath.descend_absolute fromRoot _) (TransGen.tail' chained hop)

theorem addedFor_of_least {scanDirAbs : PurePath} {mounts : Set PurePath}
    (least : IsLeast {mounts | HoldsTargets tree scanDirAbs (OutsideVenvs tree) mounts} mounts) :
    ∀ path ∈ mounts, ∃ link text, AddedFor tree scanDirAbs mounts link text ∧
      path = (hopTarget link text).normpath := by
  -- the paths of which this is true hold the targets themselves
  have holds : HoldsTargets tree scanDirAbs (OutsideVenvs tree) {path ∈ mounts | ∃ link text,
      AddedFor tree scanDirAbs mounts link text ∧ path = (hopTarget link text).normpath} := by
    intro dir searched path target
    have searchedToo : dir = scanDirAbs ∨ dir ∈ mounts ∧ isDir tree dir = true :=
      searched.imp_right fun ⟨inside, directory⟩ => ⟨inside.1, directory⟩
    refine ⟨least.1 dir searchedToo path target, ?_⟩
    obtain ⟨names, name, inTree, outsideVenvs, notBazel, last, hops, outside, rfl⟩ := target
    obtain ⟨link, chained, text, read, rfl, present⟩ := TransGen.tail'_iff.mp hops
    exact ⟨link, text, ⟨⟨dir, searchedToo, names, name, inTree, outsideVenvs, notBazel, chained⟩,
      read, present, outside⟩, rfl⟩
  exact fun path member => (least.2 holds member).2

/-- Every external mount is added for some link, and is what a link that it is added for leads to if
no name that a `..` of its target takes back is that of a link, and, in case its text ends in a slash
or a dot, the target is a directory. Of such targets the second is also needed. -/
theorem mounts_denote_targets (tree : FileTree FileName) (resolve : PurePath → List FileName)
    (scanDir : PurePath) :
    ∃ bound, ∀ (scandir : Scandir tree) (fuel : Nat), bound ≤ fuel →
      ∃ result, listExternalMounts scandir resolve fuel scanDir = some result ∧
        ∀ path ∈ result,
          (∃ link text,
            AddedFor tree (.ofNames (resolve scanDir)) {path | path ∈ result} link text ∧
              path = (hopTarget link text).normpath) ∧
          ∀ link text,
            AddedFor tree (.ofNames (resolve scanDir)) {path | path ∈ result} link text →
              path = (hopTarget link text).normpath →
                Straight tree (hopTarget link text).parts →
                  (Denotes tree path link text ↔
                    (text.steps.getLast? = some .here → isDir tree (hopTarget link text) = true)) := by
  refine ⟨scanFuel tree, ?_⟩
  intro scandir fuel enough
  obtain ⟨result, ended, absolute, least⟩ := scan_isLeast scandir enough resolve scanDir
  refine ⟨result, ended, ?_⟩
  intro path member
  refine ⟨addedFor_of_least least path member, ?_⟩
  rintro link text added rfl straight
  have fromRoot := added.absolute (PurePath.ofNames_absolute _) absolute
  exact denotes_iff_of_straight fromRoot added.present straight

/-! ### A link that is lost -/

namespace DetouredLink

open VenvLinks (scan ext)

def other : FileName := ⟨"other".toList, by decide⟩
def deep : FileName := ⟨"deep".toList, by decide⟩
def link : FileName := ⟨"link".toList, by decide⟩
def file : FileName := ⟨"file".toList, by decide⟩

/-- The text `../ext/link/../file`. -/
def text : Text FileName := ⟨.relative, [.up, .name ext, .name link, .up, .name file]⟩

/-- `/scan/link` has this text, and `/ext/link` is a link to `/other/deep`. -/
def detour : FileTree FileName where
  table := [([scan], .directory), ([scan, link], .link text), ([ext], .directory),
    ([ext, link], .link ⟨.slash, [.name other, .name deep]⟩), ([other], .directory),
    ([other, deep], .directory), ([other, file], .file 1)]
  linkLimit := 40
  parents := by decide

end DetouredLink

open DetouredLink VenvLinks in
/-- The link leads to `/other/file`. The mount for it is `/ext/file`, which does not exist. -/
theorem detoured_link_lost :
    listExternalMounts (.inTableOrder detour) (fun _ => [scan]) 50 (.ofNames [scan]) =
        some [.ofNames [ext, file]] ∧
      AddedFor detour (.ofNames [scan]) {path | path ∈ [.ofNames [ext, file]]}
        (.ofNames [scan, link]) text ∧
      (hopTarget (.ofNames [scan, link]) text).normpath = .ofNames [ext, file] ∧
      detour.refersTo (systemTarget (.ofNames [scan, link]) text) = some (.file 1) ∧
      pathExists detour (.ofNames [ext, file]) = false := by
  have inTree : InTree detour (.ofNames [scan]) [] link :=
    ⟨[scan], by decide +kernel, .link text, by decide +kernel⟩
  have outside : OutsideVenvs detour (.ofNames [scan]) [] link :=
    ⟨List.not_mem_nil, fun same => absurd same (by decide)⟩
  have added : AddedFor detour (.ofNames [scan]) {path | path ∈ [.ofNames [ext, file]]}
      (.ofNames [scan, link]) text :=
    { chained := ⟨.ofNames [scan], .inl rfl, [], link, inTree, outside, by decide, .refl⟩
      read := by decide +kernel
      present := by decide +kernel
      outside := by decide +kernel }
  exact ⟨by decide +kernel, added, by decide +kernel, by decide +kernel, by decide +kernel⟩

end EzSdk.Devkit
