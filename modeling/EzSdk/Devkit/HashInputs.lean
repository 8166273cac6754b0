import EzSdk.Devkit.Tags
import Mathlib.Data.List.Flatten

/-! What `calculate_sha256` hashes. The Dockerfile and the sorted build arguments are fed
to the hash one after the other, with nothing between them. -/

namespace EzSdk.Devkit

/-- A build of an image: the content of its Dockerfile, and its build arguments in any
order. -/
structure ImageBuild where
  dockerfile : Bytes
  buildArgs : List Str
  deriving DecidableEq

namespace ImageBuild

/-- The texts that are fed to the hash, if all arguments can be encoded. -/
def parts (build : ImageBuild) : Option (List Bytes) :=
  ((sorted build.buildArgs).mapM utf8).map (build.dockerfile :: ·)

/-- The bytes that are hashed. -/
def hashInput (build : ImageBuild) : Option Bytes := build.parts.map List.flatten

/-- The same Dockerfile and the same build arguments, each as often. -/
def Same (build other : ImageBuild) : Prop :=
  build.dockerfile = other.dockerfile ∧ build.buildArgs.Perm other.buildArgs

/-- The tag of the build. -/
def tag (builder : DockerBuilder) (digest : Digest) (imageName : Str) (build : ImageBuild) :
    Option Str :=
  build.hashInput.map (fun input =>
    builder.getImageTag dockerArch imageName (digest.hexdigest input))

end ImageBuild

/-- The end of `calculate_tag_for_image` makes the tag of the build. -/
theorem makeTag_readable (builder : DockerBuilder) (digest : Digest) (imageName : Str)
    (content : Bytes) (argNames depTags : List Str) :
    builder.makeTag digest (some imageName) (.readable content, argNames) depTags =
      match ImageBuild.tag builder digest imageName ⟨content,
        List.zipWith DockerBuilder.depArg argNames depTags ++ builder.extraArgs imageName⟩ with
      | some tag => .ok tag
      | none => raise .unicodeEncodeError := by
  simp only [DockerBuilder.makeTag, calculateSha256, ImageBuild.tag, ImageBuild.hashInput,
    ImageBuild.parts, Option.getD_some]
  cases (sorted (List.zipWith DockerBuilder.depArg argNames depTags ++
    builder.extraArgs imageName)).mapM utf8 with
  | none => rfl
  | some texts => rfl

/-! ### Texts that are fed one after the other -/

theorem utf8_eq_some_iff (text : Str) (bytes : Bytes) :
    utf8 text = some bytes ↔
      ∃ chars : List Char, text = chars.map .char ∧ bytes = chars.flatMap String.utf8EncodeChar := by
  induction text generalizing bytes with
  | nil => simp [utf8, eq_comm]
  | cons char text ih =>
    cases char with
    | surrogate offset =>
      constructor
      · intro encoded
        cases encoded
      · rintro ⟨chars, same, _⟩
        cases chars <;> cases same
    | char value =>
      simp only [utf8, Option.map_eq_some_iff, ih]
      constructor
      · rintro ⟨_, ⟨chars, rfl, rfl⟩, rfl⟩
        exact ⟨value :: chars, rfl, rfl⟩
      · rintro ⟨_ | ⟨other, chars⟩, same, rfl⟩
        · cases same
        · cases same
          exact ⟨_, ⟨chars, rfl, rfl⟩, rfl⟩

theorem utf8_injective {first second : Str} {bytes : Bytes} (encoded : utf8 first = some bytes)
    (encodedToo : utf8 second = some bytes) : first = second := by
  obtain ⟨chars, rfl, rfl⟩ := (utf8_eq_some_iff _ _).mp encoded
  obtain ⟨others, rfl, same⟩ := (utf8_eq_some_iff _ _).mp encodedToo
  have bytes : chars.utf8Encode = others.utf8Encode := congrArg List.toByteArray same
  have texts : String.ofList chars = String.ofList others := by
    apply String.toByteArray_inj.mp
    rw [String.toByteArray_ofList, String.toByteArray_ofList, bytes]
  rw [String.ofList_injective texts]

theorem mapM_utf8_injective {first second : List Str} {texts : List Bytes}
    (encoded : first.mapM utf8 = some texts) (encodedToo : second.mapM utf8 = some texts) :
    first = second := by
  induction first generalizing second texts with
  | nil =>
    cases encoded
    cases second with
    | nil => rfl
    | cons text second => simp [List.mapM_cons, Option.bind_eq_some_iff] at encodedToo
  | cons text first ih =>
    simp only [List.mapM_cons, bind, Option.bind_eq_some_iff] at encoded
    obtain ⟨bytes, one, rest, others, made⟩ := encoded
    cases made
    cases second with
    | nil => cases encodedToo
    | cons other second =>
      simp only [List.mapM_cons, bind, Option.bind_eq_some_iff] at encodedToo
      obtain ⟨_, two, _, othersToo, made⟩ := encodedToo
      cases made
      rw [utf8_injective one two, ih others othersToo]

theorem sorted_eq_iff (first second : List Str) : sorted first = sorted second ↔ first.Perm second := by
  have firstPerm : (sorted first).Perm first := List.perm_insertionSort (· ≤ ·) first
  have secondPerm : (sorted second).Perm second := List.perm_insertionSort (· ≤ ·) second
  constructor
  · intro same
    exact firstPerm.symm.trans (same ▸ secondPerm)
  · intro permuted
    exact (firstPerm.trans (permuted.trans secondPerm.symm)).eq_of_pairwise'
      (List.pairwise_insertionSort (· ≤ ·) first) (List.pairwise_insertionSort (· ≤ ·) second)

theorem same_of_parts {first second : ImageBuild} {texts : List Bytes}
    (parts : first.parts = some texts) (partsToo : second.parts = some texts) : first.Same second := by
  obtain ⟨args, encoded, rfl⟩ := Option.map_eq_some_iff.mp parts
  obtain ⟨others, encodedToo, same⟩ := Option.map_eq_some_iff.mp partsToo
  obtain ⟨dockerfile, rfl⟩ := List.cons.inj same
  exact ⟨dockerfile.symm, (sorted_eq_iff _ _).mp (mapM_utf8_injective encoded encodedToo)⟩

/-- Texts that can be told apart when they are fed one after the other: they have the same lengths one
by one, or where they first differ, neither text begins with the other one, or one has nothing more. -/
inductive Apart : List Bytes → List Bytes → Prop where
  | sameLengths {texts others : List Bytes} :
      texts.map List.length = others.map List.length → Apart texts others
  | differ {text other : Bytes} {texts others : List Bytes} :
      ¬ text <+: other → ¬ other <+: text → Apart (text :: texts) (other :: others)
  | firstEnds {text : Bytes} {others : List Bytes} : text ∈ others → text ≠ [] → Apart [] others
  | secondEnds {text : Bytes} {texts : List Bytes} : text ∈ texts → text ≠ [] → Apart texts []
  | next {text : Bytes} {texts others : List Bytes} :
      Apart texts others → Apart (text :: texts) (text :: others)

theorem Apart.eq_of_flatten {texts others : List Bytes} (apart : Apart texts others)
    (same : texts.flatten = others.flatten) : texts = others := by
  induction apart with
  | sameLengths lengths => exact List.eq_iff_flatten_eq.mpr ⟨same, lengths⟩
  | @differ text other texts others notBefore notAfter =>
    rw [List.flatten_cons, List.flatten_cons] at same
    have inWhole : other <+: text ++ texts.flatten := same ▸ List.prefix_append other _
    rcases List.prefix_or_prefix_of_prefix (List.prefix_append text _) inWhole with before | after
    · exact absurd before notBefore
    · exact absurd after notAfter
  | firstEnds member something =>
    exact absurd (List.flatten_eq_nil_iff.mp same.symm _ member) something
  | secondEnds member something =>
    exact absurd (List.flatten_eq_nil_iff.mp same _ member) something
  | next _ ih =>
    rw [List.flatten_cons, List.flatten_cons] at same
    rw [ih (List.append_cancel_left same)]

/-! ### Builds that are separated -/

theorem getImageTag_inj (builder : DockerBuilder) (arch imageName first second : Str) :
    builder.getImageTag arch imageName first = builder.getImageTag arch imageName second ↔
      first = second := by
  unfold DockerBuilder.getImageTag
  split <;> simp

/-- The hash tells the two inputs apart if they differ. -/
def Digest.NoCollision (digest : Digest) (first second : Bytes) : Prop :=
  digest.hexdigest first = digest.hexdigest second → first = second

/-- Different builds have different inputs, and equal tags, unless the hash collides, mean
equal builds. -/
def Separated (builder : DockerBuilder) (digest : Digest) (imageName : Str)
    (first second : ImageBuild) : Prop :=
  ∀ input other, first.hashInput = some input → second.hashInput = some other →
    (¬ first.Same second → input ≠ other) ∧
      (digest.NoCollision input other →
        first.tag builder digest imageName = second.tag builder digest imageName →
          first.Same second)

/-- The Dockerfile and the sorted arguments in UTF-8 of the one can be told from those of the other. -/
def Distinguishable (first second : ImageBuild) : Prop :=
  ∀ texts others, first.parts = some texts → second.parts = some others → Apart texts others

/-- A builder without images, with these further arguments for the image web. -/
def webBuilder (packages keys : List Str) : DockerBuilder where
  searchPaths := []
  repo := []
  space := py "devkit"
  extraMaps := ⟨insertTexts ∅ (py "web") (some packages), insertTexts ∅ (py "web") (some keys), ∅⟩
  imageConfigsMap := ∅

end EzSdk.Devkit
