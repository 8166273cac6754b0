import EzSdk.Devkit.HashInputs
import EzSdk.Foundation.Scripts
import EzSdk.Foundation.Worklist

/-! `build_images` of `docker/build.py`: the build order for a list of targets, the
arguments of every build, and what docker is asked to do. -/

namespace EzSdk.Devkit

open Memoised Postconditions Scripts

/-- `full_graph[node]`, if the node is in the graph; its keys are distinct. -/
def neighbours (graph : Graph) (node : Node) : List Node :=
  (graph.filter (fun entry => some entry.1 = node)).flatMap Prod.snd

/-- The loop of `get_dependency_subgraph`, which takes nodes from a set in any order. -/
abbrev Visitor :=
  (graph : Graph) → (targets : List Str) → Worklist.Visit (neighbours graph) (targets.map some)

structure DockerfilePath where
  directory : ImageDir
  name : Str

def DockerfilePath.content (path : DockerfilePath) : Option Dockerfile :=
  path.directory.dockerfile path.name

/-- `docker buildx build`, with the values of its `--build-arg` options. The context is the
directory of the Dockerfile. -/
structure BuildCommand where
  tag : Str
  file : DockerfilePath
  noCache : Bool
  buildArgs : List Str

inductive DockerCommand where
  | imageInspect (tag : Str)
  | manifestInspect (tag : Str)
  | pull (tag : Str)
  | push (tag : Str)
  | build (command : BuildCommand)

/-- The exit status of a command, after those that were run before it; there is none if
docker is not found. -/
abbrev DockerHost := List DockerCommand → DockerCommand → Option Nat

inductive Stop where
  | raised (raised : Raised)
  | indexError
  deriving DecidableEq

structure BuildOptions where
  printTagMode : Bool
  noCache : Bool
  localFlag : Bool

abbrev DockerScript := Script Stop DockerCommand

def raising {Value : Type} (result : Except Raised Value) : DockerScript Value :=
  calculate (result.mapError .raised)

/-- A command whose failure ends the script. -/
def checked (host : DockerHost) (command : DockerCommand) : DockerScript Unit := do
  match ← perform host command with
  | some 0 => pure ()
  | _ => raising exit

/-- A command that only says whether it succeeds. -/
def succeeds (host : DockerHost) (command : DockerCommand) : DockerScript Bool := do
  match ← perform host command with
  | some status => pure (status == 0)
  | none => raising exit

/-- The values `name=value`. A name without a value is an IndexError. -/
def buildArgValues : List Str → Option (List Str)
  | [] => some []
  | [_] => none
  | argName :: argValue :: rest =>
    (buildArgValues rest).map (fun values => (argName ++ py "=" ++ argValue) :: values)

def buildImage (host : DockerHost) (tag : Str) (path : DockerfilePath) (buildArgsList : List Str)
    (noCache : Bool) : DockerScript Unit :=
  match buildArgValues buildArgsList with
  | none => calculate (.error .indexError)
  | some buildArgs => checked host (.build ⟨tag, path, noCache, buildArgs⟩)

/-- `not no_cache and` a check. -/
def unlessNoCache (noCache : Bool) (check : DockerScript Bool) : DockerScript Bool :=
  if noCache then pure false else check

/-- A failed push is only logged. -/
def manageDockerImage (host : DockerHost) (tag : Str) (path : DockerfilePath)
    (buildArgsList : List Str) (localImageMode noCache : Bool) (repo : Str) : DockerScript Unit := do
  let existsLocally ← unlessNoCache noCache (succeeds host (.imageInspect tag))
  if existsLocally then pure ()
  else if repo = [] ∨ localImageMode then buildImage host tag path buildArgsList noCache
  else
    let existsRemotely ← unlessNoCache noCache (succeeds host (.manifestInspect tag))
    if existsRemotely then checked host (.pull tag)
    else
      buildImage host tag path buildArgsList noCache
      let _ ← succeeds host (.push tag)

namespace DockerBuilder

variable (builder : DockerBuilder) (digest : Digest) (sorter : Sorter) (visitor : Visitor)

def getDependencySubgraph (targets : List Str) : Except Raised (List Node) := do
  let fullGraph ← builder.fullGraph
  let visitedNodes := (visitor fullGraph targets).visited
  match sorter (fullGraph.filter (fun entry => some entry.1 ∈ visitedNodes)) with
  | .order nodes _ => return nodes
  | .cycle _ => exit

/-- For the log the names are joined, which is a TypeError for a node that is no string. -/
def joinNames (nodes : List Node) : Except Raised Unit :=
  if none ∈ nodes then raise .typeError else .ok ()

/-- `get_build_order` -/
def getBuildOrderFor (targets : List Str) : Except Raised (List Node) :=
  if targets = [] then builder.getBuildOrder sorter
  else do
    let imagesToProcess ← builder.getDependencySubgraph sorter visitor targets
    joinNames imagesToProcess
    return imagesToProcess

/-- `calculate_tags`, with what is in `generated_tags` when it is called. -/
def calculateTagsFor (targets : List Str) (generatedTags : Table Node Str) :
    Except Raised (List Str) := do
  let imagesToProcess ← builder.getBuildOrderFor sorter visitor targets
  let generatedTags ← imagesToProcess.foldlM (builder.calculateNext digest) generatedTags
  imagesToProcess.mapM (generatedTag generatedTags)

/-- The first search path in which there is a Dockerfile of the image. -/
def dockerfilePath (imageName : Str) : Option DockerfilePath :=
  let dockerfileName := imageName ++ py ".Dockerfile"
  (builder.searchPaths.find? (fun path => (path.dockerfile dockerfileName).isSome)).map
    (fun directory => ⟨directory, dockerfileName⟩)

def extraPair (table : AList (fun _ : Str => List Str)) (argName imageName : Str) : List Str :=
  match (table.lookup imageName).getD [] with
  | [] => []
  | texts => [argName, (py " ").intercalate texts]

def extraPairs (imageName : Str) : List Str :=
  extraPair builder.extraMaps.packages (py "EXTRA_PACKAGES") imageName ++
    extraPair builder.extraMaps.keys (py "EXTRA_KEYS") imageName ++
    extraPair builder.extraMaps.repositories (py "EXTRA_REPOSITORIES") imageName

/-- `[arg_name, self.generated_tags[dep_image_name]]` -/
def depPair (generatedTags : Table Node Str) (item : Str × Json) : Except Raised (List Str) := do
  let depImageName ← dependencyNode item.2
  let depTag ← generatedTag generatedTags depImageName
  return [item.1, depTag]

/-- `local_flag or image_conf.get("local", False)` -/
def localImageMode (localFlag : Bool) : Json → Except Raised Bool
  | .obj fields => .ok (localFlag || ((fields.lookup (py "local")).map Json.truthy).getD false)
  | _ => if localFlag then .ok true else raise .attributeError

/-- What `build_images` collects for an image before it calls `manage_docker_image`. -/
def buildArguments (localFlag : Bool) (generatedTags : Table Node Str) :
    Node → Except Raised (DockerfilePath × List Str × Bool)
  | none => raise .keyError
  | some imageName =>
    match builder.imageConfigsMap.lookup imageName with
    | none => raise .keyError
    | some imageConf => do
      let localMode ← localImageMode localFlag imageConf
      match builder.dockerfilePath imageName with
      | none => exit
      | some path => do
        let dependencies ← imageConf.subscript (py "deps")
        let items ← dependencies.items
        let pairs ← items.mapM (depPair generatedTags)
        return (path, pairs.flatten ++ builder.extraPairs imageName, localMode)

/-- The body of the loop of `build_images`. `target` is the image whose tag is printed. -/
def buildTurn (host : DockerHost) (options : BuildOptions) (target : Option Str)
    (generatedTags : Table Node Str) (node : Node) : DockerScript (Table Node Str) := do
  let (tag, generatedTags) ←
    raising (builder.calculateTagForImage digest recursionLimit node generatedTags)
  let (path, buildArgs, localMode) ←
    raising (builder.buildArguments options.localFlag generatedTags node)
  manageDockerImage host tag path buildArgs localMode options.noCache builder.repo
  if options.printTagMode ∧ node = target then raising exit
  else pure generatedTags

/-- `target_images[0] if print_tag_mode else None` -/
def targetImageForTagPrint (options : BuildOptions) (targets : List Str) : Except Stop (Option Str) :=
  if options.printTagMode then
    match targets with
    | [] => .error .indexError
    | target :: _ => .ok (some target)
  else .ok none

/-- `build_images`, with what is in `generated_tags` when it is called. -/
def buildImages (host : DockerHost) (options : BuildOptions) (targets : List Str)
    (generatedTags : Table Node Str) : DockerScript (Table Node Str) := do
  let imagesToProcess ← raising (builder.getBuildOrderFor sorter visitor targets)
  let target ← calculate (targetImageForTagPrint options targets)
  imagesToProcess.foldlM (builder.buildTurn digest host options target) generatedTags

end DockerBuilder

/-! ### Build arguments -/

theorem buildArgValues_append {first second values others : List Str}
    (firstValues : buildArgValues first = some values)
    (secondValues : buildArgValues second = some others) :
    buildArgValues (first ++ second) = some (values ++ others) := by
  induction first using buildArgValues.induct generalizing values with
  | case1 =>
    cases firstValues
    exact secondValues
  | case2 argName => cases firstValues
  | case3 argName argValue rest ih =>
    simp only [buildArgValues, Option.map_eq_some_iff] at firstValues
    obtain ⟨restValues, more, rfl⟩ := firstValues
    simp [buildArgValues, ih more]

theorem extraPair_values (table : AList (fun _ : Str => List Str)) (argName imageName : Str) :
    buildArgValues (DockerBuilder.extraPair table argName imageName) =
      some (DockerBuilder.extraArg table argName imageName) := by
  unfold DockerBuilder.extraPair DockerBuilder.extraArg
  cases (table.lookup imageName).getD [] with
  | nil => rfl
  | cons text texts => rfl

theorem extraPairs_values (builder : DockerBuilder) (imageName : Str) :
    buildArgValues (builder.extraPairs imageName) = some (builder.extraArgs imageName) :=
  buildArgValues_append (buildArgValues_append (extraPair_values ..) (extraPair_values ..))
    (extraPair_values ..)

theorem depPairs_values {generatedTags : Table Node Str} {items : List (Str × Json)}
    {depTags : List Str}
    (stored : List.Forall₂ (fun item depTag => ∃ node, dependencyNode item.2 = .ok node ∧
      generatedTags.lookup node = some depTag) items depTags) :
    ∃ pairs, items.mapM (DockerBuilder.depPair generatedTags) = .ok pairs ∧
      buildArgValues pairs.flatten =
        some (List.zipWith DockerBuilder.depArg (items.map Prod.fst) depTags) := by
  induction stored with
  | nil => exact ⟨[], rfl, rfl⟩
  | @cons item depTag items depTags first _ ih =>
    obtain ⟨node, named, found⟩ := first
    obtain ⟨pairs, rest, values⟩ := ih
    have pair : DockerBuilder.depPair generatedTags item = .ok [item.1, depTag] := by
      simp [DockerBuilder.depPair, named, DockerBuilder.generatedTag, found, bind, Except.bind,
        pure, Except.pure]
    refine ⟨[item.1, depTag] :: pairs, ?_, ?_⟩
    · simp [List.mapM_cons, pair, rest, bind, Except.bind, pure, Except.pure]
    · simp [buildArgValues, values, DockerBuilder.depArg]

theorem findDockerfile_eq (builder : DockerBuilder) (imageName : Str) :
    builder.findDockerfile imageName = (builder.dockerfilePath imageName).bind DockerfilePath.content := by
  simp only [DockerBuilder.findDockerfile, DockerBuilder.dockerfilePath]
  generalize imageName ++ py ".Dockerfile" = dockerfileName
  induction builder.searchPaths with
  | nil => rfl
  | cons path paths ih =>
    rw [List.findSome?_cons, List.find?_cons]
    cases found : path.dockerfile dockerfileName with
    | none => simpa using ih
    | some dockerfile => simp [DockerfilePath.content, found]

/-! ### What is hashed into a tag -/

/-- The build is what the plain recursion hashes for the image: the content of its
Dockerfile, and its arguments with the tags of the dependencies. -/
structure HashedInto (builder : DockerBuilder) (digest : Digest) (imageName : Str)
    (build : ImageBuild) (tag : Str) : Prop where
  yields : (builder.recipe digest).Yields (some imageName) tag
  made : build.tag builder digest imageName = some tag
  source : ∃ argNames dependencies depTags,
    builder.readImage (some imageName) = .ok ((.readable build.dockerfile, argNames), dependencies) ∧
    EachYields (builder.recipe digest) dependencies depTags ∧
    build.buildArgs = List.zipWith DockerBuilder.depArg argNames depTags ++ builder.extraArgs imageName

/-- The build that docker is asked for is the one that was hashed into its tag. -/
def Matches (builder : DockerBuilder) (digest : Digest) (command : BuildCommand) : Prop :=
  ∃ imageName content, command.file.content = some (.readable content) ∧
    HashedInto builder digest imageName ⟨content, command.buildArgs⟩ command.tag

/-- What a tag of the plain recursion was made of. -/
theorem yields_source {builder : DockerBuilder} {digest : Digest} {imageName tag : Str}
    (yields : (builder.recipe digest).Yields (some imageName) tag) :
    ∃ content argNames dependencies depTags,
      builder.readImage (some imageName) = .ok ((.readable content, argNames), dependencies) ∧
      EachYields (builder.recipe digest) dependencies depTags ∧
      ImageBuild.tag builder digest imageName ⟨content,
        List.zipWith DockerBuilder.depArg argNames depTags ++ builder.extraArgs imageName⟩ =
          some tag := by
  obtain ⟨limit, ok⟩ := yields
  cases limit with
  | zero => cases ok
  | succ limit =>
    obtain ⟨⟨dockerfile, argNames⟩, dependencies, depTags, read, each, made⟩ := plain_succ_iff.mp ok
    cases dockerfile with
    | unreadable => cases made
    | readable content =>
      have result := (makeTag_readable builder digest imageName content argNames depTags).symm.trans made
      refine ⟨content, argNames, dependencies, depTags, read, each.imp ?_, ?_⟩
      · rintro dependency depTag ⟨node, named, computed⟩
        exact ⟨node, named, limit, computed⟩
      · split at result
        · rename_i found
          rw [found, Except.ok.inj result]
        · cases result

theorem getImageTag_text (builder : DockerBuilder) (imageName sha : Str) :
    builder.getImageTag dockerArch imageName sha =
      (if builder.repo = [] then [] else builder.repo ++ py "/") ++ builder.space ++ py "/" ++ imageName ++
        py ":amd64-" ++ sha := by
  have arch : py ":amd64-" = py ":" ++ dockerArch ++ py "-" := rfl
  unfold DockerBuilder.getImageTag
  split <;> simp [arch]

theorem yields_text {builder : DockerBuilder} {digest : Digest} {imageName tag : Str}
    (yields : (builder.recipe digest).Yields (some imageName) tag) :
    ∃ content argNames dependencies depTags args,
      builder.readImage (some imageName) = .ok ((.readable content, argNames), dependencies) ∧
      EachYields (builder.recipe digest) dependencies depTags ∧
      (sorted (List.zipWith (fun argName depTag => argName ++ py "=" ++ depTag) argNames depTags ++
        builder.extraArgs imageName)).mapM utf8 = some args ∧
      tag = (if builder.repo = [] then [] else builder.repo ++ py "/") ++ builder.space ++ py "/" ++
        imageName ++ py ":amd64-" ++ digest.hexdigest (content ++ args.flatten) := by
  obtain ⟨content, argNames, dependencies, depTags, read, each, made⟩ := yields_source yields
  obtain ⟨input, hashed, same⟩ := Option.map_eq_some_iff.mp made
  obtain ⟨parts, encoded, rfl⟩ := Option.map_eq_some_iff.mp hashed
  obtain ⟨args, encodedArgs, rfl⟩ := Option.map_eq_some_iff.mp encoded
  refine ⟨content, argNames, dependencies, depTags, args, read, each, encodedArgs, ?_⟩
  rw [← same, getImageTag_text, List.flatten_cons]

theorem readImage_items {builder : DockerBuilder} {imageName : Str} {dockerfile : Dockerfile}
    {argNames : List Str} {dependencies : List Json}
    (read : builder.readImage (some imageName) = .ok ((dockerfile, argNames), dependencies)) :
    ∃ fields deps items, builder.imageConfigsMap.lookup imageName = some (.obj fields) ∧
      (Json.obj fields).subscript (py "deps") = .ok deps ∧ deps.items = .ok items ∧
      argNames = items.map Prod.fst ∧ dependencies = items.map Prod.snd ∧
      builder.findDockerfile imageName = some dockerfile := by
  cases configured : builder.imageConfigsMap.lookup imageName with
  | none => simp [DockerBuilder.readImage, configured] at read
  | some conf =>
    simp only [DockerBuilder.readImage, configured, bind_ok_iff] at read
    obtain ⟨deps, subscripted, read⟩ := read
    cases found : builder.findDockerfile imageName with
    | none => simp [found] at read
    | some other =>
      simp only [found, bind_ok_iff] at read
      obtain ⟨items, listed, ⟨⟩⟩ := read
      cases conf with
      | obj fields => exact ⟨fields, deps, items, rfl, subscripted, listed, rfl, rfl, rfl⟩
      | null => cases subscripted
      | bool value => cases subscripted
      | int value => cases subscripted
      | float zero => cases subscripted
      | str text => cases subscripted
      | arr elements => cases subscripted

/-! ### The turn of an image -/

/-- How the turn of an image can fail: the script exits, or a Dockerfile cannot be read or an argument
not be encoded. -/
def Expected (raised : Raised) : Prop :=
  raised = .systemExit ∨ raised = .exception .osError ∨ raised = .exception .unicodeEncodeError

def ExpectedStop : Stop → Prop
  | .raised raised => Expected raised
  | .indexError => False

/-- Of the commands that docker is given, every build matches its tag. -/
def GoodCommand (builder : DockerBuilder) (digest : Digest) : DockerCommand → Prop
  | .build command => Matches builder digest command
  | _ => True

theorem performs_raising {Value : Type} {good : DockerCommand → Prop} {post : Value → Prop}
    {result : Except Raised Value} (meets : Meets Expected post result) :
    Performs ExpectedStop good post (raising result) := by
  apply performs_calculate
  cases result with
  | error raised => exact meets
  | ok value => exact meets

theorem performs_exit {Value : Type} {good : DockerCommand → Prop} {post : Value → Prop} :
    Performs ExpectedStop good post (raising exit) := by
  apply performs_raising
  exact .inl rfl

theorem performs_checked (host : DockerHost) {good : DockerCommand → Prop} {command : DockerCommand}
    (fine : good command) : Performs ExpectedStop good (fun _ => True) (checked host command) := by
  apply performs_bind (performs_perform host fine)
  intro status _
  split
  · exact performs_pure trivial
  · exact performs_exit

theorem performs_succeeds (host : DockerHost) {good : DockerCommand → Prop} {command : DockerCommand}
    (fine : good command) : Performs ExpectedStop good (fun _ => True) (succeeds host command) := by
  apply performs_bind (performs_perform host fine)
  intro status _
  cases status with
  | some status => exact performs_pure trivial
  | none => exact performs_exit

/-- The commands that the turn of an image may give to docker; those that are about the registry only
if the image is not kept local. -/
def Concerns (build : BuildCommand) (remote : Prop) : DockerCommand → Prop
  | .imageInspect tag => tag = build.tag
  | .manifestInspect tag => tag = build.tag ∧ remote
  | .pull tag => tag = build.tag ∧ remote
  | .push tag => tag = build.tag ∧ remote
  | .build command => command = build

theorem performs_manageDockerImage (host : DockerHost) {good : DockerCommand → Prop} {tag repo : Str}
    {path : DockerfilePath} {buildArgsList buildArgs : List Str} {localMode noCache : Bool}
    (values : buildArgValues buildArgsList = some buildArgs)
    (fine : ∀ command, Concerns ⟨tag, path, noCache, buildArgs⟩ (repo ≠ [] ∧ localMode = false) command →
      good command) :
    Performs ExpectedStop good (fun _ => True)
      (manageDockerImage host tag path buildArgsList localMode noCache repo) := by
  have builds : Performs ExpectedStop good (fun _ => True)
      (buildImage host tag path buildArgsList noCache) := by
    unfold buildImage
    rw [values]
    exact performs_checked host (fine (.build _) rfl)
  have asks (command : DockerCommand) (fineCommand : good command) :
      Performs ExpectedStop good (fun _ => True) (unlessNoCache noCache (succeeds host command)) := by
    unfold unlessNoCache
    split
    · exact performs_pure trivial
    · exact performs_succeeds host fineCommand
  apply performs_bind (asks (.imageInspect tag) (fine _ rfl))
  intro existsLocally _
  split
  · exact performs_pure trivial
  · split
    · exact builds
    · rename_i notLocal
      have remote : repo ≠ [] ∧ localMode = false := by simpa using notLocal
      apply performs_bind (asks (.manifestInspect tag) (fine (.manifestInspect tag) ⟨rfl, remote⟩))
      intro existsRemotely _
      split
      · exact performs_checked host (fine (.pull tag) ⟨rfl, remote⟩)
      · apply performs_bind builds
        intro _ _
        apply performs_bind (performs_succeeds host (fine (.push tag) ⟨rfl, remote⟩))
        intro _ _
        exact performs_pure trivial

section Turn

variable {builder : DockerBuilder} {digest : Digest}

theorem goodCommand_of_concerns {build : BuildCommand} {remote : Prop}
    (hashed : Matches builder digest build) {command : DockerCommand}
    (concerns : Concerns build remote command) : GoodCommand builder digest command := by
  cases command with
  | build other => exact concerns ▸ hashed
  | imageInspect tag => trivial
  | manifestInspect tag => trivial
  | pull tag => trivial
  | push tag => trivial

/-- In a sound table the tags of the dependencies are those that they yield. -/
theorem stored_of_yields {generatedTags : Table Node Str} {dependencies : List Json}
    {depTags : List Str} (sound : Sound (builder.recipe digest) generatedTags)
    (each : EachYields (builder.recipe digest) dependencies depTags)
    (known : ∀ dependency ∈ dependencies, ∀ node, dependencyNode dependency = .ok node →
      ∃ depTag, generatedTags.lookup node = some depTag) :
    List.Forall₂ (fun dependency depTag => ∃ node, dependencyNode dependency = .ok node ∧
      generatedTags.lookup node = some depTag) dependencies depTags := by
  induction each with
  | nil => exact .nil
  | @cons dependency depTag dependencies depTags first _ ih =>
    obtain ⟨node, named, yields⟩ := first
    obtain ⟨storedTag, found⟩ := known dependency List.mem_cons_self node named
    have same : storedTag = depTag := yields_unique (sound node storedTag found) yields
    refine .cons ⟨node, named, same ▸ found⟩ (ih ?_)
    exact fun other member => known other (List.mem_cons_of_mem dependency member)

/-- What is collected for an image that has its tag, when those it depends on have theirs. -/
theorem buildArguments_spec {generatedTags : Table Node Str} {imageName tag : Str} {conf : Json}
    {nodes : List Node} (localFlag noCache : Bool) (sound : Sound (builder.recipe digest) generatedTags)
    (configured : builder.imageConfigsMap.lookup imageName = some conf)
    (set : dependencySet conf = .ok nodes)
    (present : ∀ node ∈ nodes, ∃ depTag, generatedTags.lookup node = some depTag)
    (yields : (builder.recipe digest).Yields (some imageName) tag) :
    ∃ path buildArgsList localMode buildArgs,
      builder.buildArguments localFlag generatedTags (some imageName) =
        .ok (path, buildArgsList, localMode) ∧
      buildArgValues buildArgsList = some buildArgs ∧
      Matches builder digest ⟨tag, path, noCache, buildArgs⟩ := by
  obtain ⟨content, argNames, dependencies, depTags, read, each, made⟩ := yields_source yields
  obtain ⟨fields, deps, items, found, subscripted, listed, sameNames, sameDependencies, dockerfile⟩ :=
    readImage_items read
  have same : conf = .obj fields := Option.some.inj (configured.symm.trans found)
  subst same sameNames sameDependencies
  -- the dependencies of the configuration are those of the graph, so their tags are stored
  have known : ∀ dependency ∈ items.map Prod.snd, ∀ node, dependencyNode dependency = .ok node →
      ∃ depTag, generatedTags.lookup node = some depTag := by
    intro dependency member node named
    obtain ⟨otherDeps, otherSubscripted, more⟩ := bind_ok_iff.mp set
    obtain ⟨otherItems, otherListed, all⟩ := bind_ok_iff.mp more
    cases subscripted.symm.trans otherSubscripted
    cases listed.symm.trans otherListed
    obtain ⟨inSet, inNodes, namedToo⟩ := mapM_ok_mem all member
    cases named.symm.trans namedToo
    exact present node inNodes
  have stored := List.forall₂_map_left_iff.mp (stored_of_yields sound each known)
  obtain ⟨pairs, collected, values⟩ := depPairs_values stored
  obtain ⟨path, located, content_eq⟩ : ∃ path, builder.dockerfilePath imageName = some path ∧
      path.content = some (.readable content) := by
    rw [findDockerfile_eq] at dockerfile
    exact Option.bind_eq_some_iff.mp dockerfile
  obtain ⟨localMode, mode⟩ : ∃ localMode,
      DockerBuilder.localImageMode localFlag (.obj fields) = .ok localMode := ⟨_, rfl⟩
  have arguments : builder.buildArguments localFlag generatedTags (some imageName) =
      .ok (path, pairs.flatten ++ builder.extraPairs imageName, localMode) := by
    simp only [DockerBuilder.buildArguments, configured, mode, located, subscripted, listed, collected,
      bind, Except.bind, pure, Except.pure]
  exact ⟨path, _, localMode, _, arguments,
    buildArgValues_append values (extraPairs_values builder imageName), imageName, content, content_eq,
    yields, made, _, _, depTags, read, each, rfl⟩

/-- What the order of the images guarantees when it is the turn of one: it is configured, and
those it depends on have had their turns. -/
def BuildOrder (graph : Graph) (order : List Node) : Prop :=
  ∀ earlier node later, order = earlier ++ node :: later →
    ∃ imageName nodes, node = some imageName ∧ (imageName, nodes) ∈ graph ∧
      ∀ dependency ∈ nodes, dependency ∈ earlier

/-- What holds of `generated_tags` when these images have had their turns. -/
structure Processed (builder : DockerBuilder) (digest : Digest) (done : List Node)
    (generatedTags : Table Node Str) : Prop where
  filled : Filled (builder.recipe digest) generatedTags
  present : ∀ node ∈ done, ∃ tag, generatedTags.lookup node = some tag

theorem processed_grow {earlier : List Node} {node : Node} {tag : Str}
    {generatedTags later : Table Node Str} (processed : Processed builder digest earlier generatedTags)
    (filled : Filled (builder.recipe digest) later) (grows : Extends generatedTags later)
    (found : later.lookup node = some tag) : Processed builder digest (earlier ++ [node]) later := by
  refine ⟨filled, ?_⟩
  intro other member
  rcases List.mem_append.mp member with old | new
  · obtain ⟨depTag, held⟩ := processed.present other old
    exact ⟨depTag, grows other depTag held⟩
  · rw [List.mem_singleton.mp new]
    exact ⟨tag, found⟩

variable {graph : Graph}

theorem configured_of_entry (built : builder.fullGraph = .ok graph) {imageName : Str}
    {nodes : List Node} (entry : (imageName, nodes) ∈ graph) :
    ∃ conf, builder.imageConfigsMap.lookup imageName = some conf ∧ dependencySet conf = .ok nodes := by
  obtain ⟨⟨name, conf⟩, member, made⟩ := mapM_ok_mem_value built entry
  obtain ⟨set, read, ⟨⟩⟩ := bind_ok_iff.mp made
  exact ⟨conf, AList.mem_lookup_iff.mpr member, read⟩

/-- The tag of an image whose dependencies are in the table. -/
theorem calculateTag_meets {generatedTags : Table Node Str} {imageName : Str} {conf : Json}
    {nodes : List Node} (filled : Filled (builder.recipe digest) generatedTags)
    (configured : builder.imageConfigsMap.lookup imageName = some conf)
    (set : dependencySet conf = .ok nodes)
    (present : ∀ node ∈ nodes, ∃ depTag, generatedTags.lookup node = some depTag) :
    Meets Expected (fun result => (builder.recipe digest).Yields (some imageName) result.1 ∧
        Filled (builder.recipe digest) result.2 ∧ Extends generatedTags result.2 ∧
        result.2.lookup (some imageName) = some result.1)
      (builder.calculateTagForImage digest recursionLimit (some imageName) generatedTags) := by
  cases result : builder.calculateTagForImage digest recursionLimit (some imageName) generatedTags with
  | ok pair =>
    obtain ⟨yields, _, grows, found⟩ := memoised_sound recursionLimit filled.sound result
    exact ⟨yields, memoised_filled recursionLimit filled result, grows, found⟩
  | error raised =>
    cases held : generatedTags.lookup (some imageName) with
    | some tag =>
      have hit : builder.calculateTagForImage digest recursionLimit (some imageName) generatedTags =
          .ok (tag, generatedTags) := by
        rw [DockerBuilder.calculateTagForImage, recursionLimit, Recipe.memoised, held]
      cases hit.symm.trans result
    | none =>
      obtain ⟨items, _, named, read⟩ := readImage_configured configured set
      obtain ⟨tags, stored⟩ := stored_tags named present
      cases found : builder.findDockerfile imageName with
      | none =>
        rw [found] at read
        have unread : builder.calculateTagForImage digest recursionLimit (some imageName)
            generatedTags = exit := memoised_unprepared 999 held read
        cases unread.symm.trans result
        exact .inl rfl
      | some dockerfile =>
        rw [found] at read
        have computed : builder.calculateTagForImage digest recursionLimit (some imageName)
            generatedTags = (builder.makeTag digest (some imageName)
              (dockerfile, items.map Prod.fst) tags).map
                (fun tag => (tag, generatedTags.insert (some imageName) tag)) :=
          memoised_stored 998 held read stored
        cases dockerfile with
        | unreadable =>
          cases computed.symm.trans result
          exact .inr (.inl rfl)
        | readable content =>
          have failed := computed.symm.trans result
          rw [makeTag_readable] at failed
          split at failed
          · cases failed
          · cases failed
            exact .inr (.inr rfl)

/-- The turn of an image: docker is given nothing but a build that matches, and the image has
its tag afterwards. -/
theorem performs_buildTurn (built : builder.fullGraph = .ok graph) (host : DockerHost)
    (options : BuildOptions) (target : Option Str) {earlier : List Node} {imageName : Str}
    {nodes : List Node} {generatedTags : Table Node Str} (entry : (imageName, nodes) ∈ graph)
    (before : ∀ dependency ∈ nodes, dependency ∈ earlier)
    (processed : Processed builder digest earlier generatedTags) :
    Performs ExpectedStop (GoodCommand builder digest)
      (Processed builder digest (earlier ++ [some imageName]))
      (builder.buildTurn digest host options target generatedTags (some imageName)) := by
  obtain ⟨conf, configured, set⟩ := configured_of_entry built entry
  have present : ∀ node ∈ nodes, ∃ depTag, generatedTags.lookup node = some depTag :=
    fun node member => processed.present node (before node member)
  apply performs_bind (performs_raising (calculateTag_meets processed.filled configured set present))
  rintro ⟨tag, later⟩ ⟨yields, filled, grows, found⟩
  have presentLater : ∀ node ∈ nodes, ∃ depTag, later.lookup node = some depTag := by
    intro node member
    obtain ⟨depTag, held⟩ := present node member
    exact ⟨depTag, grows node depTag held⟩
  obtain ⟨path, buildArgsList, localMode, buildArgs, arguments, values, hashed⟩ :=
    buildArguments_spec options.localFlag options.noCache filled.sound configured set presentLater yields
  have finished := processed_grow processed filled grows found
  have collected : Meets Expected (· = (path, buildArgsList, localMode))
      (builder.buildArguments options.localFlag later (some imageName)) := by
    rw [arguments]
    exact rfl
  apply performs_bind (performs_raising collected)
  rintro _ rfl
  apply performs_bind (performs_manageDockerImage host values (fun _ => goodCommand_of_concerns hashed))
  intro _ _
  split
  · exact performs_exit
  · exact performs_pure finished

/-! ### The order of the images -/

/-- Every dependency names a configured image. -/
def DependenciesConfigured (graph : Graph) : Prop :=
  ∀ entry ∈ graph, ∀ dependency ∈ entry.2, ∃ other ∈ graph, dependency = some other.1

theorem buildOrder_full (configured : DependenciesConfigured graph) {order : List Node}
    (sorted : TopologicalOrder graph order) : BuildOrder graph order := by
  intro earlier node later split
  have member : node ∈ order := split ▸ List.mem_append_right earlier List.mem_cons_self
  have image : ∃ entry ∈ graph, node = some entry.1 := by
    obtain ⟨entry, inGraph, same | dependency⟩ := (sorted.complete node).mp member
    · exact ⟨entry, inGraph, same⟩
    · exact configured entry inGraph node dependency
  obtain ⟨⟨imageName, nodes⟩, inGraph, rfl⟩ := image
  exact ⟨imageName, nodes, rfl, inGraph, fun dependency depends =>
    sorted.before _ inGraph dependency depends earlier later split⟩

theorem mem_neighbours (graph : Graph) (node other : Node) :
    other ∈ neighbours graph node ↔ ∃ entry ∈ graph, some entry.1 = node ∧ other ∈ entry.2 := by
  simp [neighbours, List.mem_flatMap, List.mem_filter, and_assoc]

/-- The images that are visited from the targets are sorted among themselves. -/
theorem buildOrder_subgraph (configured : DependenciesConfigured graph) {start : List Node}
    (visit : Worklist.Visit (neighbours graph) start) {order : List Node}
    (sorted : TopologicalOrder (graph.filter (fun entry => some entry.1 ∈ visit.visited)) order) :
    BuildOrder graph order := by
  have selected : DependenciesConfigured
      (graph.filter (fun entry => some entry.1 ∈ visit.visited)) := by
    intro entry member dependency depends
    obtain ⟨inGraph, visited⟩ := List.mem_filter.mp member
    obtain ⟨other, otherInGraph, same⟩ := configured entry inGraph dependency depends
    have reached : dependency ∈ visit.visited :=
      visit.closed (of_decide_eq_true visited) ((mem_neighbours ..).mpr ⟨entry, inGraph, rfl, depends⟩)
    exact ⟨other, List.mem_filter.mpr ⟨otherInGraph, decide_eq_true (same ▸ reached)⟩, same⟩
  intro earlier node later split
  obtain ⟨imageName, nodes, same, member, before⟩ := buildOrder_full selected sorted earlier node later split
  exact ⟨imageName, nodes, same, (List.mem_filter.mp member).1, before⟩

theorem visitor_exists (graph : Graph) (targets : List Str) :
    Nonempty (Worklist.Visit (neighbours graph) (targets.map some)) := by
  apply Worklist.visit_exists (targets.map some ++ graph.flatMap Prod.snd)
  · intro node other leads
    obtain ⟨entry, inGraph, _, depends⟩ := (mem_neighbours ..).mp leads
    exact List.mem_append_right _ (List.mem_flatMap.mpr ⟨entry, inGraph, depends⟩)
  · exact fun node member => List.mem_append_left _ member

/-- The node is an image of the graph, or a dependency of one. -/
def hasNode (graph : Graph) (node : Node) : Bool :=
  graph.any (fun entry => decide (node = some entry.1 ∨ node ∈ entry.2))

theorem hasNode_iff (graph : Graph) (node : Node) :
    hasNode graph node = true ↔ ∃ entry ∈ graph, node = some entry.1 ∨ node ∈ entry.2 := by
  simp only [hasNode, List.any_eq_true, decide_eq_true_eq]

/-- A part of a graph without cycles has none. -/
theorem topological_filter {order : List Node} (sorted : TopologicalOrder graph order)
    (keep : Str × List Node → Bool) : ∃ suborder, TopologicalOrder (graph.filter keep) suborder := by
  have nodup : (order.filter (hasNode (graph.filter keep))).Nodup := sorted.nodup.filter _
  refine ⟨order.filter (hasNode (graph.filter keep)), nodup, ?_, ?_⟩
  · intro node
    rw [List.mem_filter, hasNode_iff]
    constructor
    · exact fun both => both.2
    · rintro ⟨entry, member, isNode⟩
      have inGraph := (List.mem_filter.mp member).1
      exact ⟨(sorted.complete node).mpr ⟨entry, inGraph, isNode⟩, entry, member, isNode⟩
  · intro entry member dependency depends earlier later split
    have inGraph := (List.mem_filter.mp member).1
    have placed : some entry.1 ∈ order := (sorted.complete _).mpr ⟨entry, inGraph, .inl rfl⟩
    obtain ⟨before, after, whole⟩ := List.append_of_mem placed
    have first := sorted.before entry inGraph dependency depends before after whole
    have self := (hasNode_iff (graph.filter keep) (some entry.1)).mpr ⟨entry, member, .inl rfl⟩
    have filtered : order.filter (hasNode (graph.filter keep)) =
        before.filter (hasNode (graph.filter keep)) ++
          some entry.1 :: after.filter (hasNode (graph.filter keep)) := by
      rw [whole, List.filter_append, List.filter_cons_of_pos self]
    -- the image occurs once, so both ways to cut the list at it are the same
    have unique : earlier = before.filter (hasNode (graph.filter keep)) := by
      have moved := List.nodup_middle.mp (split ▸ nodup)
      have absent := (List.nodup_cons.mp moved).1
      rw [List.mem_append, not_or] at absent
      exact ((List.append_cons_inj_of_notMem absent.1 absent.2).mp
        (split.symm.trans filtered)).1
    rw [unique]
    exact List.mem_filter.mpr ⟨first, (hasNode_iff _ _).mpr ⟨entry, member, .inr depends⟩⟩

/-- The images that are asked for: without targets, all. -/
def Asked (graph : Graph) (targets : List Str) (imageName : Str) : Prop :=
  (∃ nodes, (imageName, nodes) ∈ graph) ∧ (targets = [] ∨ imageName ∈ targets)

/-- Without a cycle an order is found, for all images as for those that the targets need. -/
theorem getBuildOrderFor_ok (built : builder.fullGraph = .ok graph)
    (configured : DependenciesConfigured graph) (acyclic : ∃ order, TopologicalOrder graph order)
    (sorter : Sorter) (visitor : Visitor) (targets : List Str) :
    ∃ order, builder.getBuildOrderFor sorter visitor targets = .ok order ∧ BuildOrder graph order ∧
      ∀ imageName, Asked graph targets imageName → some imageName ∈ order := by
  obtain ⟨whole, sortedWhole⟩ := acyclic
  unfold DockerBuilder.getBuildOrderFor
  split
  · simp only [DockerBuilder.getBuildOrder, built, bind, Except.bind]
    cases sorter graph with
    | order nodes sorted =>
      refine ⟨nodes, rfl, buildOrder_full configured sorted, ?_⟩
      rintro imageName ⟨⟨_, inGraph⟩, _⟩
      exact (sorted.complete _).mpr ⟨_, inGraph, .inl rfl⟩
    | cycle cyclic => exact absurd sortedWhole (cyclic whole)
  · rename_i someTargets
    simp only [DockerBuilder.getDependencySubgraph, built, bind, Except.bind]
    cases sorter (graph.filter (fun entry => some entry.1 ∈ (visitor graph targets).visited)) with
    | order nodes sorted =>
      have buildOrder := buildOrder_subgraph configured (visitor graph targets) sorted
      have joined : DockerBuilder.joinNames nodes = .ok () := by
        apply if_neg
        intro member
        obtain ⟨earlier, later, split⟩ := List.append_of_mem member
        obtain ⟨imageName, _, same, _⟩ := buildOrder earlier none later split
        cases same
      refine ⟨nodes, by simp [joined, pure, Except.pure], buildOrder, ?_⟩
      rintro imageName ⟨⟨_, inGraph⟩, asked⟩
      have visited : some imageName ∈ (visitor graph targets).visited :=
        (visitor graph targets).visits_start (List.mem_map_of_mem (asked.resolve_left someTargets))
      exact (sorted.complete _).mpr
        ⟨_, List.mem_filter.mpr ⟨inGraph, decide_eq_true visited⟩, .inl rfl⟩
    | cycle cyclic =>
      obtain ⟨suborder, sortedPart⟩ := topological_filter sortedWhole
        (fun entry => some entry.1 ∈ (visitor graph targets).visited)
      exact absurd sortedPart (cyclic suborder)

/-- How `build_images` can stop: as the turn of an image, or when the tag of a target is to be
printed and there is none. -/
def BuildStop (options : BuildOptions) (targets : List Str) (stop : Stop) : Prop :=
  ExpectedStop stop ∨ stop = .indexError ∧ options.printTagMode = true ∧ targets = []

theorem targetImage_meets (options : BuildOptions) (targets : List Str) :
    Meets (BuildStop options targets) (fun _ => True)
      (DockerBuilder.targetImageForTagPrint options targets) := by
  unfold DockerBuilder.targetImageForTagPrint
  split
  · rename_i mode
    cases targets with
    | nil => exact .inr ⟨rfl, mode, rfl⟩
    | cons first rest => trivial
  · trivial

/-- `build_images` from any table that earlier calls have left. -/
theorem performs_buildImages (built : builder.fullGraph = .ok graph)
    (configured : DependenciesConfigured graph) (acyclic : ∃ order, TopologicalOrder graph order)
    {generatedTags : Table Node Str} (filled : Filled (builder.recipe digest) generatedTags)
    (sorter : Sorter) (visitor : Visitor) (host : DockerHost) (options : BuildOptions)
    (targets : List Str) :
    Performs (BuildStop options targets) (GoodCommand builder digest)
      (Filled (builder.recipe digest))
      (builder.buildImages digest sorter visitor host options targets generatedTags) := by
  obtain ⟨order, ordered, buildOrder, _⟩ :=
    getBuildOrderFor_ok built configured acyclic sorter visitor targets
  have sorted : Meets Expected (· = order) (builder.getBuildOrderFor sorter visitor targets) := by
    rw [ordered]
    exact rfl
  apply performs_bind (performs_mono (performs_raising sorted) (fun _ => .inl) (fun _ => id))
  rintro imagesToProcess rfl
  apply performs_bind (performs_calculate (targetImage_meets options targets))
  intro target _
  have turns : Performs ExpectedStop (GoodCommand builder digest)
      (Processed builder digest imagesToProcess)
      (imagesToProcess.foldlM (builder.buildTurn digest host options target) generatedTags) := by
    apply performs_foldlM (Processed builder digest) imagesToProcess ?_ imagesToProcess [] _ rfl
    · exact ⟨filled, fun _ absent => absurd absent List.not_mem_nil⟩
    · intro earlier node later table split processed
      obtain ⟨imageName, nodes, rfl, entry, before⟩ := buildOrder earlier node later split
      exact performs_buildTurn built host options target entry before processed
  exact performs_mono turns (fun _ => .inl) (fun _ processed => processed.filled)

/-! ### All tags -/

theorem calculateTagsFor_meets (built : builder.fullGraph = .ok graph)
    (configured : DependenciesConfigured graph) (acyclic : ∃ order, TopologicalOrder graph order)
    {generatedTags : Table Node Str} (filled : Filled (builder.recipe digest) generatedTags)
    (sorter : Sorter) (visitor : Visitor) (targets : List Str) :
    ∃ order, builder.getBuildOrderFor sorter visitor targets = .ok order ∧
      (∀ imageName, Asked graph targets imageName → some imageName ∈ order) ∧
      Meets Expected (List.Forall₂ (builder.recipe digest).Yields order)
        (builder.calculateTagsFor digest sorter visitor targets generatedTags) := by
  obtain ⟨order, ordered, buildOrder, asked⟩ :=
    getBuildOrderFor_ok built configured acyclic sorter visitor targets
  refine ⟨order, ordered, asked, ?_⟩
  have turns : Meets Expected (Processed builder digest order)
      (order.foldlM (builder.calculateNext digest) generatedTags) := by
    apply meets_foldlM (Processed builder digest) order ?_ order [] _ rfl
    · exact ⟨filled, fun _ absent => absurd absent List.not_mem_nil⟩
    · intro earlier node later table split processed
      obtain ⟨imageName, nodes, rfl, entry, before⟩ := buildOrder earlier node later split
      obtain ⟨conf, found, set⟩ := configured_of_entry built entry
      apply meets_bind (calculateTag_meets processed.filled found set
        (fun dependency depends => processed.present dependency (before dependency depends)))
      rintro ⟨tag, after⟩ ⟨yields, filledAfter, grows, stored⟩
      exact processed_grow processed filledAfter grows stored
  simp only [DockerBuilder.calculateTagsFor, ordered]
  apply meets_bind turns
  intro final processed
  have each : ∀ node ∈ order, ∃ tag, DockerBuilder.generatedTag final node = .ok tag := by
    intro node member
    obtain ⟨tag, found⟩ := processed.present node member
    exact ⟨tag, by rw [DockerBuilder.generatedTag, found]⟩
  obtain ⟨tags, listed⟩ := mapM_ok_of_forall each
  rw [listed]
  apply (mapM_ok_iff.mp listed).imp
  intro node tag generated
  cases found : final.lookup node with
  | none =>
    rw [DockerBuilder.generatedTag, found] at generated
    cases generated
  | some stored =>
    rw [DockerBuilder.generatedTag, found] at generated
    cases generated
    exact processed.filled.sound node _ found

theorem firstTrouble_ready {nodes : List Node}
    (ready : ∀ node ∈ nodes, builder.status node = .ready) : builder.firstTrouble nodes = .ready := by
  induction nodes with
  | nil => rfl
  | cons node nodes ih =>
    rw [DockerBuilder.firstTrouble, ready node List.mem_cons_self]
    exact ih (fun other member => ready other (List.mem_cons_of_mem node member))

theorem yields_of_ready (built : builder.fullGraph = .ok graph)
    (configured : DependenciesConfigured graph) (acyclic : ∃ order, TopologicalOrder graph order)
    (ready : ∀ entry ∈ graph, builder.status (some entry.1) = .ready) :
    ∀ entry ∈ graph, ∃ tag, (builder.recipe digest).Yields (some entry.1) tag := by
  obtain ⟨order, sorted⟩ := acyclic
  have allReady : ∀ node ∈ order, builder.status node = .ready := by
    intro node member
    obtain ⟨entry, inGraph, rfl | depends⟩ := (sorted.complete node).mp member
    · exact ready entry inGraph
    · obtain ⟨other, otherInGraph, rfl⟩ := configured entry inGraph node depends
      exact ready other otherInGraph
  have loop := calculateAll_spec digest built sorted (List.nil_append order).symm
    (by simp) (fun node _ => AList.lookup_empty node)
    (fun node _ held => absurd (held.symm.trans (AList.lookup_empty node)) (by simp))
  rw [firstTrouble_ready allReady] at loop
  obtain ⟨final, computed⟩ := loop
  obtain ⟨sound, _, all⟩ := calculateAll_sound digest sound_empty computed
  intro entry inGraph
  obtain ⟨tag, found⟩ := all (some entry.1) ((sorted.complete _).mpr ⟨entry, inGraph, .inl rfl⟩)
  exact ⟨tag, sound _ tag found⟩

end Turn

/-- Tags do not depend on the table, and consist of the prefix, the name, the architecture and the hash
of the Dockerfile and the arguments. What is built is what was hashed into its tag. -/
theorem tags_match_builds {builder : DockerBuilder} (digest : Digest) {graph : Graph}
    (built : builder.fullGraph = .ok graph) (configured : DependenciesConfigured graph)
    (acyclic : ∃ order, TopologicalOrder graph order) {generatedTags : Table Node Str}
    (filled : Filled (builder.recipe digest) generatedTags) :
    (∀ limit node tag later,
      builder.calculateTagForImage digest limit node generatedTags = .ok (tag, later) →
        (builder.recipe digest).Yields node tag ∧ Filled (builder.recipe digest) later) ∧
    (∀ limit node tag, (builder.recipe digest).plain limit node = .ok tag →
      ∃ later, builder.calculateTagForImage digest limit node generatedTags = .ok (tag, later)) ∧
    (∀ imageName tag, (builder.recipe digest).Yields (some imageName) tag →
      ∃ content argNames dependencies depTags args,
        builder.readImage (some imageName) = .ok ((.readable content, argNames), dependencies) ∧
        EachYields (builder.recipe digest) dependencies depTags ∧
        (sorted (List.zipWith (fun argName depTag => argName ++ py "=" ++ depTag) argNames depTags ++
          builder.extraArgs imageName)).mapM utf8 = some args ∧
        tag = (if builder.repo = [] then [] else builder.repo ++ py "/") ++ builder.space ++ py "/" ++
          imageName ++ py ":amd64-" ++ digest.hexdigest (content ++ args.flatten)) ∧
    ((∀ entry ∈ graph, builder.status (some entry.1) = .ready) →
      ∀ entry ∈ graph, ∃ tag, (builder.recipe digest).Yields (some entry.1) tag) ∧
    ∀ (sorter : Sorter) (visitor : Visitor) (targets : List Str),
      (∃ order, builder.getBuildOrderFor sorter visitor targets = .ok order ∧
        (∀ imageName, Asked graph targets imageName → some imageName ∈ order) ∧
        Meets Expected (List.Forall₂ (builder.recipe digest).Yields order)
          (builder.calculateTagsFor digest sorter visitor targets generatedTags)) ∧
      ∀ (host : DockerHost) (options : BuildOptions),
        (∀ command, .build command ∈
            (builder.buildImages digest sorter visitor host options targets generatedTags []).2 →
          Matches builder digest command) ∧
        Meets (BuildStop options targets) (Filled (builder.recipe digest))
          (builder.buildImages digest sorter visitor host options targets generatedTags []).1 := by
  refine ⟨?_, ?_, fun _ _ => yields_text, yields_of_ready built configured acyclic, ?_⟩
  · intro limit node tag later ok
    exact ⟨(memoised_sound limit filled.sound ok).1, memoised_filled limit filled ok⟩
  · intro limit node tag ok
    exact memoised_complete limit filled.sound ok
  · intro sorter visitor targets
    refine ⟨calculateTagsFor_meets built configured acyclic filled sorter visitor targets, ?_⟩
    intro host options
    obtain ⟨good, ends⟩ := performs_buildImages built configured acyclic filled sorter visitor host
      options targets [] (fun _ absent => absurd absent List.not_mem_nil)
    exact ⟨fun command ran => good (.build command) ran, ends⟩

/-- An image on top of another, each with a Dockerfile. -/
def layeredBuilder : DockerBuilder where
  searchPaths := [⟨.absent, fun _ => some (.readable [70])⟩]
  repo := []
  space := py "devkit"
  extraMaps := ⟨∅, ∅, ∅⟩
  imageConfigsMap := (AList.insert (py "dev-env")
    (.obj [(py "deps", .obj [(py "BASE", .str (py "build-env"))])])
    (AList.insert (py "build-env") (.obj [(py "deps", .obj [])]) ∅))

def layeredGraph : Graph :=
  [(py "dev-env", [some (py "build-env")]), (py "build-env", [])]

theorem layeredGraph_configured : DependenciesConfigured layeredGraph := by
  unfold DependenciesConfigured
  decide

theorem layeredGraph_sorted :
    TopologicalOrder layeredGraph [some (py "build-env"), some (py "dev-env")] :=
  .of_check (by decide) (by decide) (by decide)

theorem layered_tags_match_builds :
    Nonempty Visitor ∧ layeredBuilder.fullGraph = .ok layeredGraph ∧
    ∀ digest : Digest,
      (∃ arg, utf8 (py "BASE=devkit/build-env:amd64-" ++ digest.hexdigest [70]) = some arg ∧
        (layeredBuilder.recipe digest).Yields (some (py "dev-env"))
          (py "devkit/dev-env:amd64-" ++ digest.hexdigest ([70] ++ arg))) ∧
      ∀ (sorter : Sorter) (visitor : Visitor) (host : DockerHost) (options : BuildOptions) command,
        .build command ∈ (layeredBuilder.buildImages digest sorter visitor host options
          [py "dev-env"] ∅ []).2 → Matches layeredBuilder digest command := by
  have built : layeredBuilder.fullGraph = .ok layeredGraph := rfl
  have visitor : Nonempty Visitor := ⟨fun graph targets => (visitor_exists graph targets).some⟩
  refine ⟨visitor, built, fun digest => ?_⟩
  obtain ⟨_, _, text, yields, builds⟩ := tags_match_builds digest built layeredGraph_configured
    ⟨_, layeredGraph_sorted⟩ .empty
  have ready : ∀ entry ∈ layeredGraph, layeredBuilder.status (some entry.1) = .ready := by decide
  obtain ⟨base, yieldsBase⟩ := yields ready (py "build-env", [])
    (List.mem_cons_of_mem _ List.mem_cons_self)
  obtain ⟨tag, yieldsTag⟩ := yields ready (py "dev-env", [some (py "build-env")]) List.mem_cons_self
  have baseText : base = py "devkit/build-env:amd64-" ++ digest.hexdigest [70] := by
    obtain ⟨_, _, _, _, _, ⟨⟩, ⟨⟩, ⟨⟩, rfl⟩ := text _ base yieldsBase
    rfl
  refine ⟨?_, fun sorter visitor host options command =>
    ((builds sorter visitor [py "dev-env"]).2 host options).1 command⟩
  obtain ⟨_, _, _, _, args, ⟨⟩, each, encoded, rfl⟩ := text _ tag yieldsTag
  obtain _ | ⟨⟨_, ⟨⟩, yieldsDep⟩, ⟨⟩⟩ := each
  rw [yields_unique yieldsDep yieldsBase, baseText] at encoded
  change [py "BASE=devkit/build-env:amd64-" ++ digest.hexdigest [70]].mapM utf8 = some args at encoded
  obtain ⟨arg, encodedArg, same⟩ := Option.bind_eq_some_iff.mp (List.mapM_cons.symm.trans encoded)
  obtain rfl : [arg] = args := Option.some.inj same
  rw [List.flatten_singleton] at yieldsTag
  exact ⟨arg, encodedArg, yieldsTag⟩

end EzSdk.Devkit
