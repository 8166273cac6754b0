import EzSdk.Devkit.Config
import EzSdk.Foundation.Memoised

/-! The tags of `docker/build.py`: `calculate_tag_for_image`, the build order and
`get_all_docker_image_tags`. -/

namespace EzSdk.Devkit

open Memoised Postconditions

def isHex : CodePoint → Bool
  | .char char => ('a' ≤ char && char ≤ 'f') || ('0' ≤ char && char ≤ '9')
  | .surrogate _ => false

/-- `hexdigest` of `hashlib.sha256`. -/
structure Digest where
  hexdigest : Bytes → Str
  length : ∀ bytes, (hexdigest bytes).length = 64
  hex : ∀ bytes, ∀ char ∈ hexdigest bytes, isHex char = true

/-- The name of an image. A dependency that is not a string is `none`, which no image is
called. -/
abbrev Node := Option Str

/-- A dependency as a key of a dict or an element of a set. -/
def dependencyNode : Json → Except Raised Node
  | .str name => .ok (some name)
  | .arr _ => raise .typeError
  | .obj _ => raise .typeError
  | _ => .ok none

namespace DockerBuilder

variable (builder : DockerBuilder)

/-- `get_image_tag`, with `self.arch`. -/
def getImageTag (arch imageName sha : Str) : Str :=
  let imagePath := builder.space ++ py "/" ++ imageName
  let tagSuffix := arch ++ py "-" ++ sha
  if builder.repo = [] then imagePath ++ py ":" ++ tagSuffix
  else builder.repo ++ py "/" ++ imagePath ++ py ":" ++ tagSuffix

def findDockerfile (imageName : Str) : Option Dockerfile :=
  builder.searchPaths.findSome? (fun path => path.dockerfile (imageName ++ py ".Dockerfile"))

def extraArg (table : AList (fun _ : Str => List Str)) (argName imageName : Str) : List Str :=
  match (table.lookup imageName).getD [] with
  | [] => []
  | texts => [argName ++ py "=" ++ (py " ").intercalate texts]

def extraArgs (imageName : Str) : List Str :=
  extraArg builder.extraMaps.packages (py "EXTRA_PACKAGES") imageName ++
    extraArg builder.extraMaps.keys (py "EXTRA_KEYS") imageName ++
    extraArg builder.extraMaps.repositories (py "EXTRA_REPOSITORIES") imageName

end DockerBuilder

/-- `self.arch` -/
def dockerArch : Str := py "amd64"

def calculateSha256 (digest : Digest) (dockerfile : Dockerfile) (sortedBuildArgs : List Str) :
    Except Raised Str :=
  match dockerfile with
  | .unreadable => raise .osError
  | .readable content =>
    match sortedBuildArgs.mapM utf8 with
    | none => raise .unicodeEncodeError
    | some texts => .ok (digest.hexdigest (content ++ texts.flatten))

namespace DockerBuilder

variable (builder : DockerBuilder) (digest : Digest)

/-- `calculate_tag_for_image` up to the loop over the dependencies. The names of the
build arguments are kept with the Dockerfile. -/
def readImage : Node → Except Raised ((Dockerfile × List Str) × List Json)
  | none => raise .keyError
  | some imageName =>
    match builder.imageConfigsMap.lookup imageName with
    | none => raise .keyError
    | some imageConf => do
      let dependencies ← imageConf.subscript (py "deps")
      match builder.findDockerfile imageName with
      | none => exit
      | some dockerfile => do
        let items ← dependencies.items
        return ((dockerfile, items.map Prod.fst), items.map Prod.snd)

/-- `f"{arg_name}={dep_tag}"` -/
def depArg (argName depTag : Str) : Str := argName ++ py "=" ++ depTag

/-- `calculate_tag_for_image` after that loop. -/
def makeTag (node : Node) (image : Dockerfile × List Str) (depTags : List Str) :
    Except Raised Str := do
  let imageName := node.getD []
  let buildArgs :=
    List.zipWith depArg image.2 depTags ++ builder.extraArgs imageName
  let sha ← calculateSha256 digest image.1 (sorted buildArgs)
  return builder.getImageTag dockerArch imageName sha

def recipe : Recipe Node (Dockerfile × List Str) Json Str Raised where
  prepare := builder.readImage
  key := dependencyNode
  finish := builder.makeTag digest
  tooDeep := .exception .recursionError

/-- The table is `generated_tags`; the number is that of the nested calls that Python
still allows. -/
def calculateTagForImage :
    Nat → Node → Table Node Str → Except Raised (Str × Table Node Str) :=
  (builder.recipe digest).memoised

end DockerBuilder

/-- The images, each with the set of its dependencies. -/
abbrev Graph := List (Str × List Node)

/-- The documented result of `static_order` of `graphlib`: every node once, after those it
depends on. -/
structure TopologicalOrder (graph : Graph) (order : List Node) : Prop where
  nodup : order.Nodup
  complete : ∀ node, node ∈ order ↔ ∃ entry ∈ graph, node = some entry.1 ∨ node ∈ entry.2
  before : ∀ entry ∈ graph, ∀ dependency ∈ entry.2, ∀ earlier later,
    order = earlier ++ some entry.1 :: later → dependency ∈ earlier

/-- A list that passes the checks for its images one by one. -/
theorem TopologicalOrder.of_check {graph : Graph} {order : List Node} (nodup : order.Nodup)
    (nodes : ∀ node ∈ order, ∃ entry ∈ graph, node = some entry.1 ∨ node ∈ entry.2)
    (placed : ∀ entry ∈ graph, some entry.1 ∈ order ∧
      ∀ dependency ∈ entry.2, dependency ∈ order.takeWhile (· ≠ some entry.1)) :
    TopologicalOrder graph order where
  nodup := nodup
  complete := by
    intro node
    constructor
    · exact nodes node
    · rintro ⟨entry, member, rfl | depends⟩
      · exact (placed entry member).1
      · exact (List.takeWhile_sublist _).mem ((placed entry member).2 node depends)
  before := by
    intro entry member dependency depends earlier later split
    have absent : some entry.1 ∉ earlier := by
      intro inside
      exact List.disjoint_of_nodup_append (split ▸ nodup) inside List.mem_cons_self
    have before : order.takeWhile (· ≠ some entry.1) = earlier := by
      rw [split, List.takeWhile_append_of_pos, List.takeWhile_cons_of_neg, List.append_nil]
      · simp
      · intro node inside
        exact decide_eq_true (fun same => absent (same ▸ inside))
    exact before ▸ (placed entry member).2 dependency depends

/-- The order is some topological one; a CycleError is raised when there is none. -/
inductive StaticOrder (graph : Graph) where
  | order (nodes : List Node) (sorted : TopologicalOrder graph nodes)
  | cycle (cyclic : ∀ nodes, ¬ TopologicalOrder graph nodes)

abbrev Sorter := (graph : Graph) → StaticOrder graph

/-- `set(conf["deps"].values())` -/
def dependencySet (conf : Json) : Except Raised (List Node) := do
  let dependencies ← conf.subscript (py "deps")
  let items ← dependencies.items
  (items.map Prod.snd).mapM dependencyNode

/-- What Python allows by default. -/
def recursionLimit : Nat := 1000

namespace DockerBuilder

variable (builder : DockerBuilder) (digest : Digest) (sorter : Sorter)

def fullGraph : Except Raised Graph :=
  builder.imageConfigsMap.entries.mapM (fun entry => do
    return (entry.1, ← dependencySet entry.2))

/-- `get_build_order` without targets. -/
def getBuildOrder : Except Raised (List Node) := do
  match sorter (← builder.fullGraph) with
  | .order nodes _ => return nodes
  | .cycle _ => exit

def calculateNext (table : Table Node Str) (node : Node) : Except Raised (Table Node Str) := do
  return (← builder.calculateTagForImage digest recursionLimit node table).2

def generatedTag (table : Table Node Str) (node : Node) : Except Raised Str :=
  match table.lookup node with
  | some tag => .ok tag
  | none => raise .keyError

def calculateTags : Except Raised (List Str) := do
  let imagesToProcess ← builder.getBuildOrder sorter
  let generatedTags ← imagesToProcess.foldlM (builder.calculateNext digest) ∅
  imagesToProcess.mapM (generatedTag generatedTags)

end DockerBuilder

def getAllDockerImageTags (display : Display) (digest : Digest) (sorter : Sorter)
    (configFile : JsonFile) (searchPaths : List ImageDir) : Except Raised (List Str) := do
  let builder ← newDockerBuilder display configFile searchPaths
  builder.calculateTags digest sorter

/-- What an image comes to when it is its turn. -/
inductive Status where
  | ready
  | missing
  | broken
  deriving DecidableEq

namespace DockerBuilder

/-- What the hash of an image is made of besides its Dockerfile: the names of the build arguments, the
parts of the tags of the dependencies, and the further arguments. -/
def hashedTexts (builder : DockerBuilder) (imageName : Str) (imageConf : Json) : List Str :=
  (match imageConf.subscript (py "deps") with
    | .ok (.obj items) =>
      items.flatMap (fun item =>
        match item.2 with
        | .str depImageName => [item.1, builder.repo, builder.space, depImageName]
        | _ => [])
    | _ => []) ++
  builder.extraArgs imageName

/-- `missing` is an image without Dockerfile; an image that is not configured, whose
Dockerfile cannot be read or whose texts cannot be encoded is `broken`. -/
def status (builder : DockerBuilder) : Node → Status
  | none => .broken
  | some imageName =>
    match builder.imageConfigsMap.lookup imageName, builder.findDockerfile imageName with
    | none, _ => .broken
    | some _, none => .missing
    | some _, some .unreadable => .broken
    | some imageConf, some (.readable _) =>
      if (builder.hashedTexts imageName imageConf).all encodes then .ready else .broken

def firstTrouble (builder : DockerBuilder) : List Node → Status
  | [] => .ready
  | node :: nodes =>
    match builder.status node with
    | .ready => builder.firstTrouble nodes
    | trouble => trouble

end DockerBuilder

/-! ### Texts that can be encoded -/

theorem mapM_utf8_isSome (texts : List Str) : (texts.mapM utf8).isSome = texts.all encodes := by
  induction texts with
  | nil => rfl
  | cons text texts ih =>
    rw [List.mapM_cons, List.all_cons, ← ih, encodes]
    cases utf8 text with
    | none => rfl
    | some bytes => cases texts.mapM utf8 <;> rfl

theorem encodes_hexdigest (digest : Digest) (bytes : Bytes) : encodes (digest.hexdigest bytes) = true := by
  have hex := digest.hex bytes
  generalize digest.hexdigest bytes = text at hex ⊢
  induction text with
  | nil => rfl
  | cons char text ih =>
    rw [encodes_cons, ih fun other member => hex other (List.mem_cons_of_mem char member)]
    cases char with
    | char value => rfl
    | surrogate offset => exact absurd (hex _ List.mem_cons_self) Bool.false_ne_true

theorem encodes_getImageTag (builder : DockerBuilder) (arch imageName sha : Str) :
    encodes (builder.getImageTag arch imageName sha) = (encodes builder.repo &&
      (encodes builder.space && (encodes imageName && (encodes arch && encodes sha)))) := by
  unfold DockerBuilder.getImageTag
  split
  · rename_i noRepo
    simp [noRepo]
  · simp

section Order

variable {builder : DockerBuilder} (digest : Digest) {graph : Graph}

/-- The tag of an image, with some hash. -/
def TagOf (builder : DockerBuilder) (digest : Digest) (node : Node) (tag : Str) : Prop :=
  ∃ imageName bytes, node = some imageName ∧
    tag = builder.getImageTag dockerArch imageName (digest.hexdigest bytes)

/-- An image of the configuration is a node of the graph, with its dependencies. -/
theorem entry_of_configured (built : builder.fullGraph = .ok graph) {name : Str} {conf : Json}
    (configured : builder.imageConfigsMap.lookup name = some conf) :
    ∃ nodes, (name, nodes) ∈ graph ∧ dependencySet conf = .ok nodes := by
  have member : ⟨name, conf⟩ ∈ builder.imageConfigsMap.entries :=
    AList.mem_lookup_iff.mp configured
  obtain ⟨entry, inGraph, made⟩ := mapM_ok_mem built member
  obtain ⟨nodes, read, ⟨⟩⟩ := bind_ok_iff.mp made
  exact ⟨nodes, inGraph, read⟩

theorem readImage_configured {name : Str} {conf : Json} {nodes : List Node}
    (configured : builder.imageConfigsMap.lookup name = some conf)
    (set : dependencySet conf = .ok nodes) :
    ∃ items, conf.subscript (py "deps") = .ok (.obj items) ∧
      List.Forall₂ (fun dependency node => dependencyNode dependency = .ok node)
        (items.map Prod.snd) nodes ∧
      builder.readImage (some name) =
        match builder.findDockerfile name with
        | none => exit
        | some dockerfile => .ok ((dockerfile, items.map Prod.fst), items.map Prod.snd) := by
  obtain ⟨dependencies, read, more⟩ := bind_ok_iff.mp set
  obtain ⟨items, listed, named⟩ := bind_ok_iff.mp more
  have same : dependencies = .obj items := by
    cases dependencies <;> cases listed
    rfl
  subst same
  refine ⟨items, read, mapM_ok_iff.mp named, ?_⟩
  simp only [DockerBuilder.readImage, configured, read, bind, Except.bind]
  cases builder.findDockerfile name with
  | none => rfl
  | some dockerfile => rfl

theorem stored_tags {table : Table Node Str} {dependencies : List Json} {nodes : List Node}
    (named : List.Forall₂ (fun dependency node => dependencyNode dependency = .ok node)
      dependencies nodes)
    (present : ∀ node ∈ nodes, ∃ tag, table.lookup node = some tag) :
    ∃ tags, List.Forall₂ (fun dependency tag => ∃ other,
      dependencyNode dependency = .ok other ∧ table.lookup other = some tag) dependencies tags := by
  induction named with
  | nil => exact ⟨[], .nil⟩
  | @cons dependency node dependencies nodes same _ ih =>
    obtain ⟨tag, found⟩ := present node (by simp)
    obtain ⟨tags, rest⟩ := ih (fun other member => present other (by simp [member]))
    exact ⟨tag :: tags, .cons ⟨node, same, found⟩ rest⟩

theorem calculateNext_unread {table : Table Node Str} {node : Node} {raised : Raised}
    (absent : table.lookup node = none) (fails : builder.readImage node = .error raised) :
    builder.calculateNext digest table node = .error raised := by
  have computed : builder.calculateTagForImage digest recursionLimit node table = .error raised :=
    memoised_unprepared 999 absent fails
  simp [DockerBuilder.calculateNext, computed, bind, Except.bind]

theorem calculateNext_read {table : Table Node Str} {node : Node} {image : Dockerfile × List Str}
    {dependencies : List Json} {tags : List Str} (absent : table.lookup node = none)
    (read : builder.readImage node = .ok (image, dependencies))
    (stored : List.Forall₂ (fun dependency tag => ∃ other,
      dependencyNode dependency = .ok other ∧ table.lookup other = some tag) dependencies tags) :
    builder.calculateNext digest table node =
      (builder.makeTag digest node image tags).map (fun tag => table.insert node tag) := by
  have computed : builder.calculateTagForImage digest recursionLimit node table =
      (builder.makeTag digest node image tags).map (fun tag => (tag, table.insert node tag)) :=
    memoised_stored 998 absent read stored
  rw [DockerBuilder.calculateNext, computed]
  cases builder.makeTag digest node image tags <;> rfl

theorem dependencyNode_some {dependency : Json} {name : Str}
    (named : dependencyNode dependency = .ok (some name)) : dependency = .str name := by
  cases dependency <;> cases named
  rfl

theorem depArgs_encode {items : List (Str × Json)} {tags : List Str}
    (stored : List.Forall₂ (fun item tag => ∃ node, dependencyNode item.2 = .ok node ∧
      TagOf builder digest node tag) items tags) :
    (List.zipWith DockerBuilder.depArg (items.map Prod.fst) tags).all encodes =
      (items.flatMap (fun item =>
        match item.2 with
        | .str depImageName => [item.1, builder.repo, builder.space, depImageName]
        | _ => [])).all encodes := by
  induction stored with
  | nil => rfl
  | @cons item tag items tags first _ ih =>
    obtain ⟨_, named, imageName, bytes, rfl, rfl⟩ := first
    rw [List.map_cons, List.zipWith_cons_cons, List.all_cons, ih, List.flatMap_cons, List.all_append,
      dependencyNode_some named]
    simp [DockerBuilder.depArg, encodes_getImageTag, dockerArch, encodes_hexdigest]

variable (builder) in
theorem makeTag_cases (name : Str) (content : Bytes) (argNames tags : List Str) :
    match (List.zipWith DockerBuilder.depArg argNames tags ++ builder.extraArgs name).all encodes with
    | true => ∃ tag, TagOf builder digest (some name) tag ∧
        builder.makeTag digest (some name) (.readable content, argNames) tags = .ok tag
    | false => builder.makeTag digest (some name) (.readable content, argNames) tags =
        raise .unicodeEncodeError := by
  have same := mapM_utf8_isSome
    (sorted (List.zipWith DockerBuilder.depArg argNames tags ++ builder.extraArgs name))
  rw [sorted, (List.perm_insertionSort _ _).all_eq, ← sorted] at same
  rw [← same]
  simp only [DockerBuilder.makeTag, calculateSha256, Option.getD_some]
  cases (sorted (List.zipWith DockerBuilder.depArg argNames tags ++ builder.extraArgs name)).mapM utf8 with
  | none => rfl
  | some texts => exact ⟨_, ⟨name, _, rfl, rfl⟩, rfl⟩

/-- What the turn of an image does when those it depends on have had theirs. -/
theorem calculateNext_spec (built : builder.fullGraph = .ok graph) {table : Table Node Str}
    {node : Node} (absent : table.lookup node = none)
    (present : ∀ name nodes, node = some name → (name, nodes) ∈ graph →
      ∀ other ∈ nodes, ∃ tag, table.lookup other = some tag)
    (tagged : ∀ other tag, table.lookup other = some tag → TagOf builder digest other tag) :
    match builder.status node with
    | .ready => ∃ tag, TagOf builder digest node tag ∧
        builder.calculateNext digest table node = .ok (table.insert node tag)
    | .missing => builder.calculateNext digest table node = exit
    | .broken => ∃ exception, builder.calculateNext digest table node = raise exception := by
  cases node with
  | none => exact ⟨.keyError, calculateNext_unread digest absent rfl⟩
  | some name =>
    cases configured : builder.imageConfigsMap.lookup name with
    | none =>
      have fails : builder.readImage (some name) = raise .keyError := by
        simp [DockerBuilder.readImage, configured]
      simpa [DockerBuilder.status, configured] using
        ⟨Exception.keyError, calculateNext_unread digest absent fails⟩
    | some conf =>
      obtain ⟨nodes, inGraph, set⟩ := entry_of_configured built configured
      obtain ⟨items, deps, named, read⟩ := readImage_configured configured set
      obtain ⟨tags, stored⟩ := stored_tags named (present name nodes rfl inGraph)
      cases found : builder.findDockerfile name with
      | none =>
        rw [found] at read
        simpa [DockerBuilder.status, configured, found] using calculateNext_unread digest absent read
      | some dockerfile =>
        rw [found] at read
        have computed := calculateNext_read digest absent read stored
        cases dockerfile with
        | unreadable =>
          simpa [DockerBuilder.status, configured, found] using
            ⟨Exception.osError, computed⟩
        | readable content =>
          have made := makeTag_cases builder digest name content (items.map Prod.fst) tags
          have sameTexts : (List.zipWith DockerBuilder.depArg (items.map Prod.fst) tags ++
              builder.extraArgs name).all encodes =
                (builder.hashedTexts name conf).all encodes := by
            rw [DockerBuilder.hashedTexts, deps, List.all_append, List.all_append,
              depArgs_encode digest]
            apply (List.forall₂_map_left_iff.mp stored).imp
            rintro item tag ⟨other, isNode, held⟩
            exact ⟨other, isNode, tagged other tag held⟩
          rw [sameTexts] at made
          cases encoded : (builder.hashedTexts name conf).all encodes with
          | true =>
            rw [encoded] at made
            obtain ⟨tag, isTag, ok⟩ := made
            rw [ok] at computed
            simpa [DockerBuilder.status, configured, found, encoded] using
              ⟨tag, isTag, computed⟩
          | false =>
            rw [encoded] at made
            rw [made] at computed
            simpa [DockerBuilder.status, configured, found, encoded] using
              ⟨Exception.unicodeEncodeError, computed⟩

/-- The loop of `calculate_tags`, from where the images up to some place have their tags. -/
theorem calculateAll_spec (built : builder.fullGraph = .ok graph) {order : List Node}
    (sorted : TopologicalOrder graph order) {later : List Node} :
    ∀ {earlier : List Node} {table : Table Node Str}, order = earlier ++ later →
      (∀ node ∈ earlier, ∃ tag, table.lookup node = some tag) →
      (∀ node, node ∉ earlier → table.lookup node = none) →
      (∀ node tag, table.lookup node = some tag → TagOf builder digest node tag) →
      match builder.firstTrouble later with
      | .ready => ∃ final, later.foldlM (builder.calculateNext digest) table = .ok final
      | .missing => later.foldlM (builder.calculateNext digest) table = exit
      | .broken => ∃ exception,
          later.foldlM (builder.calculateNext digest) table = raise exception := by
  induction later with
  | nil => exact fun {_ table} _ _ _ _ => ⟨table, rfl⟩
  | cons node later ih =>
    intro earlier table split had others tagged
    have fresh : node ∉ earlier := by
      intro member
      have nodup := split ▸ sorted.nodup
      exact List.disjoint_of_nodup_append nodup member (List.mem_cons_self ..)
    have depends : ∀ name nodes, node = some name → (name, nodes) ∈ graph →
        ∀ other ∈ nodes, ∃ tag, table.lookup other = some tag := by
      rintro name nodes rfl inGraph other member
      exact had other (sorted.before _ inGraph other member earlier later split)
    have turn := calculateNext_spec digest built (others node fresh) depends tagged
    rw [DockerBuilder.firstTrouble, List.foldlM_cons]
    cases status : builder.status node with
    | ready =>
      rw [status] at turn
      obtain ⟨tag, isTag, computed⟩ := turn
      rw [computed]
      have split' : order = (earlier ++ [node]) ++ later := by simp [split]
      apply ih split'
      · intro other member
        by_cases same : other = node
        · exact ⟨tag, by rw [same, AList.lookup_insert]⟩
        · rw [AList.lookup_insert_ne same]
          exact had other (by simpa [same] using member)
      · intro other absent
        simp only [List.mem_append, List.mem_singleton, not_or] at absent
        rw [AList.lookup_insert_ne absent.2]
        exact others other absent.1
      · intro other otherTag held
        by_cases same : other = node
        · rw [same, AList.lookup_insert] at held
          cases held
          exact same ▸ isTag
        · rw [AList.lookup_insert_ne same] at held
          exact tagged other otherTag held
    | missing =>
      rw [status] at turn
      simp [turn, bind, Except.bind]
    | broken =>
      rw [status] at turn
      obtain ⟨exception, raised⟩ := turn
      exact ⟨exception, by rw [raised]; rfl⟩

theorem calculateAll_sound {nodes : List Node} :
    ∀ {table later : Table Node Str}, Sound (builder.recipe digest) table →
      nodes.foldlM (builder.calculateNext digest) table = .ok later →
      Sound (builder.recipe digest) later ∧ Extends table later ∧
        ∀ node ∈ nodes, ∃ tag, later.lookup node = some tag := by
  induction nodes with
  | nil =>
    intro table later sound ok
    cases ok
    exact ⟨sound, fun _ _ found => found, by simp⟩
  | cons node nodes ih =>
    intro table later sound ok
    rw [List.foldlM_cons] at ok
    obtain ⟨middle, next, rest⟩ := bind_ok_iff.mp ok
    obtain ⟨⟨tag, _⟩, computed, ⟨⟩⟩ := bind_ok_iff.mp next
    obtain ⟨_, soundMiddle, grows, stored⟩ := memoised_sound recursionLimit sound computed
    obtain ⟨soundLater, growsMore, all⟩ := ih soundMiddle rest
    refine ⟨soundLater, fun other value found => growsMore _ _ (grows other value found), ?_⟩
    intro other member
    rcases List.mem_cons.mp member with rfl | inRest
    · exact ⟨tag, growsMore _ _ stored⟩
    · exact all other inRest

theorem getBuildOrder_sorted {sorter : Sorter} {order : List Node}
    (ok : builder.getBuildOrder sorter = .ok order) :
    ∃ graph, builder.fullGraph = .ok graph ∧ TopologicalOrder graph order := by
  obtain ⟨graph, built, chosen⟩ := bind_ok_iff.mp ok
  cases sorting : sorter graph with
  | cycle cyclic =>
    rw [sorting] at chosen
    cases chosen
  | order nodes sorted =>
    rw [sorting] at chosen
    cases chosen
    exact ⟨graph, built, sorted⟩

theorem configured_of_yields {name tag : Str}
    (yields : (builder.recipe digest).Yields (some name) tag) :
    ∃ conf, builder.imageConfigsMap.lookup name = some conf := by
  obtain ⟨limit | limit, ok⟩ := yields
  · cases ok
  · obtain ⟨image, dependencies, _, read, _⟩ := plain_succ_iff.mp ok
    cases configured : builder.imageConfigsMap.lookup name with
    | none => simp [DockerBuilder.recipe, DockerBuilder.readImage, configured] at read
    | some conf => exact ⟨conf, rfl⟩

theorem mem_calculateTags {sorter : Sorter} {tags : List Str}
    (ok : builder.calculateTags digest sorter = .ok tags) {name tag : Str}
    (yields : (builder.recipe digest).Yields (some name) tag) : tag ∈ tags := by
  obtain ⟨order, ordered, more⟩ := bind_ok_iff.mp ok
  obtain ⟨table, computed, listed⟩ := bind_ok_iff.mp more
  obtain ⟨graph, built, sorted⟩ := getBuildOrder_sorted ordered
  obtain ⟨sound, _, all⟩ := calculateAll_sound digest sound_empty computed
  obtain ⟨conf, configured⟩ := configured_of_yields digest yields
  obtain ⟨nodes, inGraph, _⟩ := entry_of_configured built configured
  have inOrder : some name ∈ order := (sorted.complete _).mpr ⟨_, inGraph, .inl rfl⟩
  obtain ⟨stored, found⟩ := all (some name) inOrder
  obtain ⟨result, member, generated⟩ := mapM_ok_mem listed inOrder
  rw [DockerBuilder.generatedTag, found] at generated
  cases generated
  rwa [yields_unique yields (sound _ _ found)]

end Order

section Raising

variable (display : Display) (digest : Digest) (sorter : Sorter) (configFile : JsonFile)
  (searchPaths : List ImageDir)

/-- What goes wrong first when the tags are calculated is not something at which the script
exits: an image has no dependencies that can be in a set, or the first image in the order
that is not ready is broken. -/
def DockerBuilder.TagsRaise (builder : DockerBuilder) : Prop :=
  match builder.fullGraph with
  | .error _ => True
  | .ok graph =>
    match sorter graph with
    | .cycle _ => False
    | .order nodes _ => builder.firstTrouble nodes = .broken

/-- The same with the loading of the files. -/
def TagsRaise : Prop :=
  match newDockerBuilder display configFile searchPaths with
  | .error raised => raised ≠ .systemExit
  | .ok builder => builder.TagsRaise sorter

/-- The result is no SystemExit. -/
abbrev NoExit {Value : Type} (result : Except Raised Value) : Prop :=
  Meets (· ≠ .systemExit) (fun _ => True) result

theorem dependencyNode_no_exit (dependency : Json) : NoExit (dependencyNode dependency) := by
  cases dependency <;> simp [dependencyNode, Meets]

theorem dependencySet_no_exit (conf : Json) : NoExit (dependencySet conf) := by
  have subscripts : NoExit (conf.subscript (py "deps")) := by
    rw [Json.subscript.eq_def]
    split
    · split <;> simp [Meets]
    · simp [Meets]
  have lists : ∀ dependencies : Json, NoExit dependencies.items := by
    intro dependencies
    cases dependencies <;> simp [Json.items, Meets]
  apply meets_bind subscripts
  intro dependencies _
  apply meets_bind (lists dependencies)
  intro items _
  exact meets_mapM (fun dependency _ => dependencyNode_no_exit dependency)

theorem fullGraph_no_exit (builder : DockerBuilder) : NoExit builder.fullGraph := by
  apply meets_mapM
  intro entry _
  apply meets_bind (dependencySet_no_exit entry.2)
  intro nodes _
  trivial

/-- The three ways in which the loop of `calculate_tags` ends. -/
theorem calculateTags_order {builder : DockerBuilder} {graph : Graph} {nodes : List Node}
    {sorted : TopologicalOrder graph nodes} (built : builder.fullGraph = .ok graph)
    (chosen : sorter graph = .order nodes sorted) :
    match builder.firstTrouble nodes with
    | .ready => ∃ tags, builder.calculateTags digest sorter = .ok tags
    | .missing => builder.calculateTags digest sorter = exit
    | .broken => ∃ exception, builder.calculateTags digest sorter = raise exception := by
  have ordered : builder.getBuildOrder sorter = .ok nodes := by
    simp [DockerBuilder.getBuildOrder, built, chosen, bind, Except.bind, pure, Except.pure]
  have loop := calculateAll_spec digest built sorted (List.nil_append nodes).symm
    (by simp) (fun node _ => AList.lookup_empty node)
    (fun node _ held => absurd (held.symm.trans (AList.lookup_empty node)) (by simp))
  simp only [DockerBuilder.calculateTags, ordered, bind, Except.bind]
  cases trouble : builder.firstTrouble nodes with
  | ready =>
    rw [trouble] at loop
    obtain ⟨final, computed⟩ := loop
    obtain ⟨_, _, all⟩ := calculateAll_sound digest sound_empty computed
    rw [computed]
    apply mapM_ok_of_forall
    intro node member
    obtain ⟨tag, found⟩ := all node member
    exact ⟨tag, by rw [DockerBuilder.generatedTag, found]⟩
  | missing =>
    rw [trouble] at loop
    simp [loop]
  | broken =>
    rw [trouble] at loop
    obtain ⟨exception, raised⟩ := loop
    exact ⟨exception, by rw [raised]⟩

theorem calculateTags_raises_iff (builder : DockerBuilder) :
    builder.TagsRaise sorter ↔
      ∃ exception, builder.calculateTags digest sorter = raise exception := by
  rw [DockerBuilder.TagsRaise]
  cases built : builder.fullGraph with
  | error raised =>
    have noExit : raised ≠ .systemExit := (fullGraph_no_exit builder).error built
    obtain ⟨exception, rfl⟩ : ∃ exception, raised = .exception exception := by
      cases raised with
      | systemExit => exact absurd rfl noExit
      | exception exception => exact ⟨exception, rfl⟩
    have raises : builder.calculateTags digest sorter = raise exception := by
      simp [DockerBuilder.calculateTags, DockerBuilder.getBuildOrder, built, bind, Except.bind]
    simp [raises]
  | ok graph =>
    cases chosen : sorter graph with
    | cycle cyclic =>
      have exits : builder.calculateTags digest sorter = exit := by
        simp [DockerBuilder.calculateTags, DockerBuilder.getBuildOrder, built, chosen,
          bind, Except.bind]
      simp [exits, chosen]
    | order nodes sorted =>
      have ends := calculateTags_order digest sorter built chosen
      cases trouble : builder.firstTrouble nodes with
      | ready =>
        rw [trouble] at ends
        obtain ⟨tags, ok⟩ := ends
        simp [ok, chosen, trouble]
      | missing =>
        rw [trouble] at ends
        simp [ends, chosen, trouble]
      | broken =>
        rw [trouble] at ends
        simpa [chosen, trouble] using ends

theorem tagsRaise_iff :
    TagsRaise display sorter configFile searchPaths ↔
      ∃ exception, getAllDockerImageTags display digest sorter configFile searchPaths =
        raise exception := by
  rw [TagsRaise, getAllDockerImageTags]
  cases newDockerBuilder display configFile searchPaths with
  | error raised => cases raised <;> simp [bind, Except.bind]
  | ok builder => exact calculateTags_raises_iff digest sorter builder

end Raising

theorem firstTrouble_broken {builder : DockerBuilder} {nodes : List Node} {node : Node}
    (member : node ∈ nodes) (broken : builder.status node = .broken)
    (noneMissing : ∀ other ∈ nodes, builder.status other ≠ .missing) :
    builder.firstTrouble nodes = .broken := by
  induction nodes with
  | nil => cases member
  | cons first nodes ih =>
    rw [DockerBuilder.firstTrouble]
    cases status : builder.status first with
    | ready =>
      have later : node ∈ nodes := by
        rcases List.mem_cons.mp member with rfl | later
        · rw [broken] at status
          cases status
        · exact later
      exact ih later (fun other inNodes => noneMissing other (List.mem_cons_of_mem first inNodes))
    | missing => exact absurd status (noneMissing first (List.mem_cons_self ..))
    | broken => rfl

end EzSdk.Devkit
