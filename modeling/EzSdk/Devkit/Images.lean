import EzSdk.Devkit.Tags
import EzSdk.Foundation.Patterns

/-! The images that `docker_cleanup.py` may remove: `IMAGE_PATTERN` and the allow-list. -/

namespace EzSdk.Devkit

open Patterns

/-- `ALLOWED_IMAGE_NAMES` -/
def allowedImageNames : List Str :=
  ["build-env", "build-env-debian", "build-env-rockylinux", "clion-ide", "dev-env", "gcloud-env",
    "goland-ide", "ide-env", "intellij-ide", "nitro-cli-linux6", "pycharm-ide", "tool-env",
    "vscode-ide", "vscode-server"].map py

/-- `.` -/
def notNewline (char : CodePoint) : Bool := char ≠ '\n'

/-- `[^/:]` -/
def isNameChar (char : CodePoint) : Bool := char ≠ '/' && char ≠ ':'

/-- `[a-zA-Z0-9_]` -/
def isArchChar (char : CodePoint) : Bool :=
  ('a' ≤ char && char ≤ 'z') || ('A' ≤ char && char ≤ 'Z') || ('0' ≤ char && char ≤ '9') ||
    char = '_'

/-- `$`, which is also before a newline at the end. -/
def atEnd (rest : Str) : Bool := rest = [] || rest = ['\n']

/-- `IMAGE_PATTERN`; `match` looks for it at the start of the text. -/
def imagePattern : Pattern CodePoint :=
  .seq (.optional (.seq (.many notNewline) (.word (py "/")))) <|
  .seq (.word (py "devkit")) <|
  .seq (.optional (.seq (.word (py "/")) (.many notNewline))) <|
  .seq (.word (py "/")) <| .seq (.group 1 (.plus isNameChar)) <|
  .seq (.word (py ":")) <| .seq (.group 2 (.plus isArchChar)) <|
  .seq (.word (py "-")) <| .seq (.group 3 (.times isHex 64)) (.ahead atEnd)

/-- `match.group(1)`, where there is a match. -/
def matchedName (image : Str) : Option Str :=
  (imagePattern.captures? image).bind (List.lookup 1)

def filterAllowedImages (images : List Str) : List Str :=
  images.filter (fun image => (matchedName image).any allowedImageNames.contains)

/-- What the pattern says of an image: a path with the component `devkit`, the name, the
architecture and the hash. -/
structure Reads (image before after name arch hash rest : Str) : Prop where
  text : image = before ++ (py "devkit" ++ (after ++ (py "/" ++ (name ++ (py ":" ++ (arch ++
    (py "-" ++ (hash ++ rest))))))))
  before : before = [] ∨ ∃ path, before = path ++ py "/" ∧ ∀ char ∈ path, notNewline char = true
  after : after = [] ∨ ∃ path, after = py "/" ++ path ∧ ∀ char ∈ path, notNewline char = true
  name : name ≠ [] ∧ ∀ char ∈ name, isNameChar char = true
  arch : arch ≠ [] ∧ ∀ char ∈ arch, isArchChar char = true
  hash : hash.length = 64 ∧ ∀ char ∈ hash, isHex char = true
  rest : atEnd rest = true

def HasFormat (image name : Str) : Prop :=
  ∃ before after arch hash rest, Reads image before after name arch hash rest

theorem takes_before_iff (taken rest : Str) (captures : Captures CodePoint) :
    (Pattern.optional (.seq (.many notNewline) (.word (py "/")))).Takes taken rest captures ↔
      (taken = [] ∨ ∃ path, taken = path ++ py "/" ∧ ∀ char ∈ path, notNewline char = true) ∧
        captures = [] := by
  simp only [Pattern.Takes, Pattern.takes_word_iff]
  constructor
  · rintro (⟨path, _, _, _, rfl, rfl, ⟨all, rfl⟩, rfl, rfl⟩ | ⟨rfl, rfl⟩)
    · exact ⟨.inr ⟨path, rfl, all⟩, rfl⟩
    · exact ⟨.inl rfl, rfl⟩
  · rintro ⟨rfl | ⟨path, rfl, all⟩, rfl⟩
    · exact .inr ⟨rfl, rfl⟩
    · exact .inl ⟨path, py "/", [], [], rfl, rfl, ⟨all, rfl⟩, rfl, rfl⟩

theorem takes_after_iff (taken rest : Str) (captures : Captures CodePoint) :
    (Pattern.optional (.seq (.word (py "/")) (.many notNewline))).Takes taken rest captures ↔
      (taken = [] ∨ ∃ path, taken = py "/" ++ path ∧ ∀ char ∈ path, notNewline char = true) ∧
        captures = [] := by
  simp only [Pattern.Takes, Pattern.takes_word_iff]
  constructor
  · rintro (⟨_, path, _, _, rfl, rfl, ⟨rfl, rfl⟩, all, rfl⟩ | ⟨rfl, rfl⟩)
    · exact ⟨.inr ⟨path, rfl, all⟩, rfl⟩
    · exact ⟨.inl rfl, rfl⟩
  · rintro ⟨rfl | ⟨path, rfl, all⟩, rfl⟩
    · exact .inr ⟨rfl, rfl⟩
    · exact .inl ⟨py "/", path, [], [], rfl, rfl, ⟨rfl, rfl⟩, all, rfl⟩

/-- The part of the pattern after the path. -/
theorem takes_reference_iff (taken rest : Str) (captures : Captures CodePoint) :
    (Pattern.seq (.word (py "/")) <| .seq (.group 1 (.plus isNameChar)) <|
      .seq (.word (py ":")) <| .seq (.group 2 (.plus isArchChar)) <|
      .seq (.word (py "-")) <| .seq (.group 3 (.times isHex 64)) (.ahead atEnd)).Takes
        taken rest captures ↔
      ∃ name arch hash, taken = py "/" ++ (name ++ (py ":" ++ (arch ++ (py "-" ++ hash)))) ∧
        (name ≠ [] ∧ ∀ char ∈ name, isNameChar char = true) ∧
        (arch ≠ [] ∧ ∀ char ∈ arch, isArchChar char = true) ∧
        (hash.length = 64 ∧ ∀ char ∈ hash, isHex char = true) ∧ atEnd rest = true ∧
        captures = [(1, name), (2, arch), (3, hash)] := by
  simp only [Pattern.takes_word_seq_iff, Pattern.takes_group_seq_iff (Pattern.takes_plus_iff _),
    Pattern.takes_group_seq_iff (Pattern.takes_times_iff _ _), Pattern.takes_ahead_iff]
  constructor
  · rintro ⟨_, rfl, name, _, _, rfl, okName, rfl, _, rfl, arch, _, _, rfl, okArch, rfl, _, rfl,
      hash, _, _, rfl, okHash, rfl, rfl, ends, rfl⟩
    exact ⟨name, arch, hash, by simp, okName, okArch, okHash, ends, rfl⟩
  · rintro ⟨name, arch, hash, rfl, okName, okArch, okHash, ends, rfl⟩
    exact ⟨_, rfl, name, _, _, rfl, okName, rfl, _, rfl, arch, _, _, rfl, okArch, rfl, _, rfl,
      hash, [], _, by simp, okHash, rfl, rfl, ends, rfl⟩

theorem mem_run_imagePattern_iff (image : Str) (captures : Captures CodePoint) (rest : Str) :
    (captures, rest) ∈ imagePattern.run image ↔
      ∃ before after name arch hash, Reads image before after name arch hash rest ∧
        captures = [(1, name), (2, arch), (3, hash)] := by
  simp only [Pattern.mem_run_iff, imagePattern, Pattern.takes_silent_seq_iff takes_before_iff,
    Pattern.takes_silent_seq_iff takes_after_iff, Pattern.takes_word_seq_iff (py "devkit"),
    takes_reference_iff]
  constructor
  · rintro ⟨_, rfl, before, _, rfl, okBefore, _, rfl, after, _, rfl, okAfter, name, arch, hash, rfl,
      okName, okArch, okHash, ends, rfl⟩
    refine ⟨before, after, name, arch, hash, ⟨?_, okBefore, okAfter, okName, okArch, okHash, ends⟩,
      rfl⟩
    simp
  · rintro ⟨before, after, name, arch, hash, reads, rfl⟩
    refine ⟨_, ?_, before, _, rfl, reads.before, _, rfl, after, _, rfl, reads.after, name, arch,
      hash, rfl, reads.name, reads.arch, reads.hash, reads.rest, rfl⟩
    simp [reads.text]

theorem last_part_unique {mark : CodePoint} {path path' rest rest' : Str}
    (same : path ++ mark :: rest = path' ++ mark :: rest') (free : mark ∉ rest)
    (free' : mark ∉ rest') : rest = rest' := by
  rcases List.append_eq_append_iff.mp same with ⟨between, _, split⟩ | ⟨between, _, split⟩
  · cases between with
    | nil => exact (List.cons.inj split).2
    | cons char between =>
      have member : mark ∈ rest := by simp [(List.cons.inj split).2]
      exact absurd member free
  · cases between with
    | nil => exact ((List.cons.inj split).2).symm
    | cons char between =>
      have member : mark ∈ rest' := by simp [(List.cons.inj split).2]
      exact absurd member free'

theorem first_part_unique {mark : CodePoint} {part part' rest rest' : Str}
    (same : part ++ mark :: rest = part' ++ mark :: rest') (free : mark ∉ part)
    (free' : mark ∉ part') : part = part' := by
  have flipped : rest.reverse ++ mark :: part.reverse = rest'.reverse ++ mark :: part'.reverse := by
    simpa using congrArg List.reverse same
  exact List.reverse_inj.mp
    (last_part_unique flipped (by simpa using free) (by simpa using free'))

theorem Reads.slash_not_mem {image before after name arch hash rest : Str}
    (reads : Reads image before after name arch hash rest) :
    CodePoint.char '/' ∉ name ++ (py ":" ++ (arch ++ (py "-" ++ (hash ++ rest)))) := by
  intro member
  have ends := reads.rest
  simp only [List.mem_append] at member
  rcases member with inName | colon | inArch | dash | inHash | inRest
  · exact absurd (reads.name.2 _ inName) (by decide)
  · exact absurd colon (by decide)
  · exact absurd (reads.arch.2 _ inArch) (by decide)
  · exact absurd dash (by decide)
  · exact absurd (reads.hash.2 _ inHash) (by decide)
  · simp only [atEnd, Bool.or_eq_true, decide_eq_true_eq] at ends
    rcases ends with rfl | rfl
    · cases inRest
    · exact absurd inRest (by decide)

theorem Reads.colon_not_mem {image before after name arch hash rest : Str}
    (reads : Reads image before after name arch hash rest) : CodePoint.char ':' ∉ name := by
  intro member
  exact absurd (reads.name.2 _ member) (by decide)

theorem hasFormat_unique {image name other : Str} (format : HasFormat image name)
    (formatOther : HasFormat image other) : name = other := by
  obtain ⟨before, after, arch, hash, rest, reads⟩ := format
  obtain ⟨before', after', arch', hash', rest', reads'⟩ := formatOther
  have same : (before ++ py "devkit" ++ after) ++ CodePoint.char '/' ::
        (name ++ (py ":" ++ (arch ++ (py "-" ++ (hash ++ rest))))) =
      (before' ++ py "devkit" ++ after') ++ CodePoint.char '/' ::
        (other ++ (py ":" ++ (arch' ++ (py "-" ++ (hash' ++ rest'))))) := by
    have slash : py "/" = [CodePoint.char '/'] := rfl
    simpa [List.append_assoc, slash] using reads.text.symm.trans reads'.text
  have sameEnd := last_part_unique same reads.slash_not_mem reads'.slash_not_mem
  exact first_part_unique sameEnd reads.colon_not_mem reads'.colon_not_mem

theorem hasFormat_of_captures {image : Str} {captures : Captures CodePoint} {name : Str}
    (matched : imagePattern.captures? image = some captures)
    (group : captures.lookup 1 = some name) : HasFormat image name := by
  obtain ⟨⟨_, rest⟩, first, rfl⟩ := Option.map_eq_some_iff.mp matched
  obtain ⟨before, after, found, arch, hash, reads, rfl⟩ :=
    (mem_run_imagePattern_iff image _ rest).mp (List.mem_of_mem_head? first)
  cases group
  exact ⟨before, after, arch, hash, rest, reads⟩

theorem matchedName_iff (image name : Str) : matchedName image = some name ↔ HasFormat image name := by
  constructor
  · intro matched
    obtain ⟨captures, found, group⟩ := Option.bind_eq_some_iff.mp matched
    exact hasFormat_of_captures found group
  · intro format
    obtain ⟨before, after, arch, hash, rest, reads⟩ := format
    have member := (mem_run_imagePattern_iff image _ rest).mpr
      ⟨before, after, name, arch, hash, reads, rfl⟩
    obtain ⟨⟨captures, left⟩, first⟩ : ∃ first, (imagePattern.run image).head? = some first :=
      Option.ne_none_iff_exists'.mp (by
        rw [Ne, List.head?_eq_none_iff]
        exact List.ne_nil_of_mem member)
    obtain ⟨_, _, found, foundArch, foundHash, _, rfl⟩ :=
      (mem_run_imagePattern_iff image captures left).mp (List.mem_of_mem_head? first)
    have matched : imagePattern.captures? image =
        some [(1, found), (2, foundArch), (3, foundHash)] := by
      rw [Pattern.captures?, first]
      rfl
    have same := hasFormat_unique (hasFormat_of_captures matched rfl)
      ⟨before, after, arch, hash, rest, reads⟩
    rw [matchedName, matched, ← same]
    rfl

/-- The images that may be removed. -/
def Removable (image : Str) : Prop := ∃ name ∈ allowedImageNames, HasFormat image name

theorem mem_filterAllowedImages_iff (images : List Str) (image : Str) :
    image ∈ filterAllowedImages images ↔ image ∈ images ∧ Removable image := by
  rw [filterAllowedImages, List.mem_filter, Option.any_eq_true]
  simp only [matchedName_iff, List.contains_iff_mem, Removable]
  simp only [and_comm]

end EzSdk.Devkit
