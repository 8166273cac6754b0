import EzSdk.Devkit.Images
import EzSdk.Devkit.Validation

/-! The names under which `docker/build.py` builds images, as `docker_cleanup.py` looks for
them: by the prefix of the configuration, and by `IMAGE_PATTERN`. -/

namespace EzSdk.Devkit

open Postconditions

/-- The prefix that the repository and the namespace of a builder give. -/
def DockerBuilder.imagePrefix (builder : DockerBuilder) : Str :=
  if builder.repo = [] then builder.space else builder.repo ++ py "/" ++ builder.space

/-- The last component of a tag. -/
def tagComponent (arch imageName sha : Str) : Str :=
  imageName ++ py ":" ++ (arch ++ py "-" ++ sha)

theorem getImageTag_eq (builder : DockerBuilder) (arch imageName sha : Str) :
    builder.getImageTag arch imageName sha =
      builder.imagePrefix ++ py "/" ++ tagComponent arch imageName sha := by
  unfold DockerBuilder.getImageTag DockerBuilder.imagePrefix tagComponent
  split <;> simp

/-! ### The prefix of an accepted configuration -/

theorem catching_exit_ok {Value : Type} {caught : Exception → Bool} {result : Except Raised Value}
    {value : Value} (ok : catching caught exit result = .ok value) : result = .ok value := by
  cases result with
  | ok found => exact ok
  | error raised =>
    cases raised with
    | systemExit => cases ok
    | exception exception =>
      rw [catching] at ok
      split at ok <;> cases ok

theorem parseRegistryConfig_absent (display : Display) {config : Json}
    (absent : config.contains (py "docker") = .ok false) :
    parseRegistryConfig display config = .ok ([], py "devkit") := by
  simp only [parseRegistryConfig, absent, bind, Except.bind]
  rfl

/-- What a configuration file gives that is accepted. -/
theorem loadConfig_parts (display : Display) {configFile : JsonFile} {good : Str → Prop}
    (goodTexts : ∀ config text, configFile = .parsed config → RegistryText config text → good text)
    {repo space : Str} {maps : ExtraMaps}
    (loaded : loadConfig display configFile = .ok (repo, space, maps)) :
    RegistryParts good repo space ∧
      (configFile = .absent ∧ repo = [] ∧ space = py "devkit" ∨
        ∃ config, configFile = .parsed config ∧
          parseRegistryConfig display config = .ok (repo, space)) := by
  have ok := catching_exit_ok loaded
  cases configFile with
  | absent =>
    cases ok
    exact ⟨⟨.inl rfl, .inl rfl⟩, .inl ⟨rfl, rfl, rfl⟩⟩
  | unreadable => cases ok
  | tooDeep => cases ok
  | undecodable => cases ok
  | invalid => cases ok
  | parsed config =>
    obtain ⟨accepted, ok⟩ := check_ok_iff.mp ok
    have conforms := (validateConfig_ok_iff _ _ _).mp accepted
    obtain ⟨foundRepo, foundSpace, parsed, parts⟩ := parseRegistryConfig_accepted display conforms
      (fun text isText => goodTexts config text rfl isText)
    obtain ⟨present, contained, ok⟩ := bind_ok_iff.mp ok
    have same : foundRepo = repo ∧ foundSpace = space := by
      cases present with
      | false =>
        have parsedAbsent := parseRegistryConfig_absent display contained
        cases parsed.symm.trans parsedAbsent
        cases ok
        exact ⟨rfl, rfl⟩
      | true =>
        obtain ⟨pair, parsedPair, ok⟩ := bind_ok_iff.mp ok
        cases parsed.symm.trans parsedPair
        obtain ⟨_, _, ⟨⟩⟩ := bind_ok_iff.mp ok
        exact ⟨rfl, rfl⟩
    obtain ⟨rfl, rfl⟩ := same
    exact ⟨parts, .inr ⟨config, rfl, parsed⟩⟩

theorem getImagePrefix_accepted (display : Display) {configFile : JsonFile} {repo space : Str}
    (found : configFile = .absent ∧ repo = [] ∧ space = py "devkit" ∨
      ∃ config, configFile = .parsed config ∧ parseRegistryConfig display config = .ok (repo, space)) :
    getImagePrefix display configFile =
      .ok (if repo = [] then space else repo ++ py "/" ++ space) := by
  rcases found with ⟨rfl, rfl, rfl⟩ | ⟨config, rfl, parsed⟩
  · rfl
  · simp only [getImagePrefix, JsonFile.load, parsed, bind, Except.bind]
    rfl

theorem newDockerBuilder_loaded (display : Display) {configFile : JsonFile}
    {searchPaths : List ImageDir} {builder : DockerBuilder}
    (made : newDockerBuilder display configFile searchPaths = .ok builder) :
    ∃ maps, loadConfig display configFile = .ok (builder.repo, builder.space, maps) := by
  obtain ⟨⟨repo, space, maps⟩, loaded, made⟩ := bind_ok_iff.mp made
  obtain ⟨_, _, ⟨⟩⟩ := bind_ok_iff.mp made
  exact ⟨maps, loaded⟩

/-! ### The tag -/

theorem not_mem_tagComponent {arch imageName sha : Str} (name : ∀ char ∈ imageName, isNameChar char = true)
    (archText : ∀ char ∈ arch, isArchChar char = true) (hash : ∀ char ∈ sha, isHex char = true) :
    CodePoint.char '/' ∉ tagComponent arch imageName sha := by
  intro member
  simp only [tagComponent, List.mem_append] at member
  rcases member with (inName | inColon) | (inArch | inDash) | inHash
  · exact absurd (name _ inName) (by decide)
  · exact absurd inColon (by decide)
  · exact absurd (archText _ inArch) (by decide)
  · exact absurd inDash (by decide)
  · exact absurd (hash _ inHash) (by decide)

/-- The pattern reads a tag: the repository before `devkit`, the namespace after it. -/
theorem getImageTag_reads {builder : DockerBuilder} {arch imageName sha : Str}
    (parts : RegistryParts (fun text => CodePoint.char '\n' ∉ text) builder.repo builder.space)
    (name : imageName ≠ [] ∧ ∀ char ∈ imageName, isNameChar char = true)
    (archText : arch ≠ [] ∧ ∀ char ∈ arch, isArchChar char = true)
    (hash : sha.length = 64 ∧ ∀ char ∈ sha, isHex char = true) :
    HasFormat (builder.getImageTag arch imageName sha) imageName := by
  have lines {text : Str} (unbroken : CodePoint.char '\n' ∉ text) :
      ∀ char ∈ text, notNewline char = true := by
    intro char member
    exact decide_eq_true (fun newline => unbroken (newline ▸ member))
  obtain ⟨after, space, okAfter⟩ : ∃ after, builder.space = py "devkit" ++ after ∧
      (after = [] ∨ ∃ path, after = py "/" ++ path ∧ ∀ char ∈ path, notNewline char = true) := by
    rcases parts.space with plain | ⟨text, unbroken, named⟩
    · exact ⟨[], plain, .inl rfl⟩
    · exact ⟨py "/" ++ text, named, .inr ⟨text, rfl, lines unbroken⟩⟩
  obtain ⟨before, start, okBefore⟩ : ∃ before, builder.imagePrefix = before ++ builder.space ∧
      (before = [] ∨ ∃ path, before = path ++ py "/" ∧ ∀ char ∈ path, notNewline char = true) := by
    rcases parts.repo with none | ⟨host, project, repository, okHost, okProject, okRepository, repo⟩
    · exact ⟨[], by simp [DockerBuilder.imagePrefix, none], .inl rfl⟩
    · have some : builder.repo ≠ [] := by simp [repo]
      refine ⟨builder.repo ++ py "/", by simp [DockerBuilder.imagePrefix, some], .inr ⟨_, rfl, ?_⟩⟩
      apply lines
      simp [repo, okHost, okProject, okRepository]
  refine ⟨before, after, arch, sha, [], ?_, okBefore, okAfter, name, archText, hash, rfl⟩
  rw [getImageTag_eq, start, space]
  simp [tagComponent]

theorem allowed_name {imageName : Str} (allowed : imageName ∈ allowedImageNames) :
    imageName ≠ [] ∧ ∀ char ∈ imageName, isNameChar char = true := by
  have all : ∀ name ∈ allowedImageNames, name ≠ [] ∧ name.all isNameChar = true := by decide
  exact ⟨(all imageName allowed).1, List.all_eq_true.mp (all imageName allowed).2⟩

theorem tag_selected_and_matched (display : Display) {configFile : JsonFile}
    {searchPaths : List ImageDir} {builder : DockerBuilder}
    (accepted : newDockerBuilder display configFile searchPaths = .ok builder)
    (unbroken : ∀ config text, configFile = .parsed config → RegistryText config text →
      CodePoint.char '\n' ∉ text)
    {imageName arch sha : Str} (allowed : imageName ∈ allowedImageNames)
    (archText : arch ≠ [] ∧ ∀ char ∈ arch, isArchChar char = true)
    (hash : sha.length = 64 ∧ ∀ char ∈ sha, isHex char = true) :
    (∃ imagePrefix component, getImagePrefix display configFile = .ok imagePrefix ∧
      builder.getImageTag arch imageName sha = imagePrefix ++ py "/" ++ component ∧
      component ≠ [] ∧ CodePoint.char '/' ∉ component) ∧
    matchedName (builder.getImageTag arch imageName sha) = some imageName := by
  obtain ⟨maps, loaded⟩ := newDockerBuilder_loaded display accepted
  obtain ⟨parts, found⟩ := loadConfig_parts display unbroken loaded
  have name := allowed_name allowed
  refine ⟨⟨builder.imagePrefix, tagComponent arch imageName sha, ?_, ?_, ?_, ?_⟩, ?_⟩
  · exact getImagePrefix_accepted display found
  · exact getImageTag_eq builder arch imageName sha
  · simp [tagComponent]
  · exact not_mem_tagComponent name.2 archText.2 hash.2
  · exact (matchedName_iff _ _).mpr (getImageTag_reads parts name archText hash)

/-- The registry has a port, and `devkit` occurs in every part of it. -/
def portConfig : Json :=
  .obj [(py "docker", .obj [(py "registry", .obj [(py "host", .str (py "devkit:5000")),
    (py "project", .str (py "devkit")), (py "repository", .str (py "a:1-devkit")),
    (py "namespace", .str (py "x/devkit/y:2"))])])]

theorem portConfig_unbroken {text : Str} (isText : RegistryText portConfig text) :
    CodePoint.char '\n' ∉ text := by
  obtain ⟨fields, docker, registry, key, ⟨⟩, ⟨⟩, ⟨⟩, found⟩ := isText
  simp only [List.lookup_cons, List.lookup_nil] at found
  repeat' split at found
  all_goals cases found
  all_goals decide

theorem port_tag_matched :
    validateConfig [] portConfig configSchema = .ok () ∧ ∀ display : Display,
      ∃ builder imagePrefix component,
        newDockerBuilder display (.parsed portConfig) [] = .ok builder ∧
        getImagePrefix display (.parsed portConfig) = .ok imagePrefix ∧
        builder.getImageTag (py "arm64") (py "dev-env") (List.replicate 64 '0') =
          imagePrefix ++ py "/" ++ component ∧ CodePoint.char '/' ∉ component ∧
        matchedName (builder.getImageTag (py "arm64") (py "dev-env") (List.replicate 64 '0')) =
          some (py "dev-env") := by
  refine ⟨rfl, fun display => ?_⟩
  obtain ⟨builder, made⟩ : ∃ builder, newDockerBuilder display (.parsed portConfig) [] = .ok builder :=
    ⟨_, rfl⟩
  have unbroken : ∀ config text, JsonFile.parsed portConfig = .parsed config →
      RegistryText config text → CodePoint.char '\n' ∉ text := by
    rintro config text ⟨⟩ isText
    exact portConfig_unbroken isText
  have allowed : py "dev-env" ∈ allowedImageNames := by decide
  have arch : py "arm64" ≠ [] ∧ ∀ char ∈ py "arm64", isArchChar char = true :=
    ⟨by decide, List.all_eq_true.mp (by decide)⟩
  have hash : (List.replicate 64 (CodePoint.char '0')).length = 64 ∧
      ∀ char ∈ List.replicate 64 (CodePoint.char '0'), isHex char = true := by
    refine ⟨List.length_replicate, fun char member => ?_⟩
    rw [List.eq_of_mem_replicate member]
    rfl
  obtain ⟨⟨imagePrefix, component, found, split, _, single⟩, matched⟩ :=
    tag_selected_and_matched display made unbroken allowed arch hash
  exact ⟨builder, imagePrefix, component, made, found, split, single, matched⟩

end EzSdk.Devkit
