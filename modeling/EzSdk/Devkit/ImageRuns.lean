import EzSdk.Devkit.BuildOrder
import EzSdk.Devkit.Cleanup
import EzSdk.Devkit.ImageNames
import EzSdk.Devkit.ImageStore

/-! Whole runs of `build_images` of `docker/build.py`, one after the other on one machine, and on
machines that share a registry. -/

namespace EzSdk.Devkit

open DependencyOrders Memoised Postconditions Relation Scripts

/-! ### The images that a call needs -/

/-- The images that a call for the targets deals with: those that are configured and that a target is or
depends on, with their own dependencies. Without targets, all. -/
def DockerBuilder.Needs (builder : DockerBuilder) (targets : List Str) (node : Node) : Prop :=
  ∃ graph, builder.fullGraph = .ok graph ∧ ∃ entry ∈ graph,
    (targets = [] ∨ ReachableFrom graph targets (some entry.1)) ∧ (node = some entry.1 ∨ node ∈ entry.2)

section Order

variable {builder : DockerBuilder} {digest : Digest} {graph : Graph} {targets : List Str}
  {sorter : Sorter} {visitor : Visitor}

/-- The build order has the images that are needed, each after its dependencies. -/
theorem getBuildOrderFor_needs {order : List Node}
    (ordered : builder.getBuildOrderFor sorter visitor targets = .ok order) :
    ∃ graph, builder.fullGraph = .ok graph ∧ (∀ node, node ∈ order ↔ builder.Needs targets node) ∧
      Ordered (DependsOn graph) order := by
  have whole : ∃ graph, builder.fullGraph = .ok graph := by
    cases built : builder.fullGraph with
    | ok graph => exact ⟨graph, rfl⟩
    | error raised =>
      simp only [DockerBuilder.getBuildOrderFor, DockerBuilder.getBuildOrder,
        DockerBuilder.getDependencySubgraph, built] at ordered
      split at ordered <;> cases ordered
  obtain ⟨graph, built⟩ := whole
  have needs (node : Node) : builder.Needs targets node ↔ ∃ entry ∈ graph,
      (targets = [] ∨ ReachableFrom graph targets (some entry.1)) ∧
        (node = some entry.1 ∨ node ∈ entry.2) := by
    simp [DockerBuilder.Needs, built]
  refine ⟨graph, built, ?_⟩
  simp only [needs]
  by_cases noTargets : targets = []
  · rw [DockerBuilder.getBuildOrderFor, if_pos noTargets] at ordered
    simp only [DockerBuilder.getBuildOrder, built, bind, Except.bind] at ordered
    cases result : sorter graph with
    | cycle cyclic =>
      rw [result] at ordered
      cases ordered
    | order nodes sorted =>
      rw [result] at ordered
      cases ordered
      exact ⟨by simpa [noTargets] using sorted.complete, sorted.ordered⟩
  · rw [DockerBuilder.getBuildOrderFor, if_neg noTargets] at ordered
    obtain ⟨order, found, joined⟩ := bind_ok_iff.mp ordered
    obtain ⟨_, _, ⟨⟩⟩ := bind_ok_iff.mp joined
    simp only [DockerBuilder.getDependencySubgraph, built, bind, Except.bind] at found
    have isPart := visitedPart_filter (visitor graph targets)
    cases result : sorter (graph.filter fun entry => some entry.1 ∈ (visitor graph targets).visited) with
    | cycle cyclic =>
      rw [result] at found
      cases found
    | order nodes sorted =>
      rw [result] at found
      obtain rfl : nodes = order := Except.ok.inj found
      have complete (node : Node) : node ∈ nodes ↔ ∃ entry ∈ graph,
          some entry.1 ∈ (visitor graph targets).visited ∧ (node = some entry.1 ∨ node ∈ entry.2) := by
        simp only [sorted.complete, isPart _, and_assoc]
      refine ⟨fun node => ?_, ?_⟩
      · simp only [complete, mem_visited_iff_reachable, noTargets, false_or]
      · intro earlier node later split other depends
        have member : node ∈ nodes := split ▸ List.mem_append_right earlier List.mem_cons_self
        have visited : node ∈ (visitor graph targets).visited := by
          obtain ⟨entry, inGraph, visited, rfl | inside⟩ := (complete node).mp member
          · exact visited
          · exact (visitor graph targets).closed visited
              ((dependsOn_iff _ _).mpr ⟨entry, inGraph, rfl, inside⟩)
        exact sorted.ordered earlier node later split other
          ((dependsOn_visitedPart isPart node other).mpr ⟨visited, depends⟩)

theorem yields_named {node : Node} {tag : Str} (yields : (builder.recipe digest).Yields node tag) :
    ∃ imageName, node = some imageName := by
  cases node with
  | some imageName => exact ⟨imageName, rfl⟩
  | none =>
    obtain ⟨_ | limit, ok⟩ := yields
    · cases ok
    · obtain ⟨_, _, _, prepared, _⟩ := plain_succ_iff.mp ok
      cases prepared

theorem yields_configured (built : builder.fullGraph = .ok graph) {imageName tag : Str}
    (yields : (builder.recipe digest).Yields (some imageName) tag) :
    ∃ conf nodes, builder.imageConfigsMap.lookup imageName = some conf ∧
      dependencySet conf = .ok nodes ∧ (imageName, nodes) ∈ graph := by
  obtain ⟨_, _, _, _, read, _⟩ := yields_source yields
  obtain ⟨fields, _, _, configured, _⟩ := readImage_items read
  obtain ⟨nodes, inGraph, set⟩ := entry_of_configured built configured
  exact ⟨_, nodes, configured, set, inGraph⟩

theorem readImage_named {imageName : Str} {conf : Json} {nodes : List Node}
    {info : Dockerfile × List Str} {dependencies : List Json}
    (configured : builder.imageConfigsMap.lookup imageName = some conf)
    (set : dependencySet conf = .ok nodes)
    (read : builder.readImage (some imageName) = .ok (info, dependencies)) :
    dependencies.mapM dependencyNode = .ok nodes := by
  obtain ⟨items, _, named, readToo⟩ := readImage_configured configured set
  have both := read.symm.trans readToo
  split at both
  · cases both
  · cases both
    exact mapM_ok_iff.mpr named

theorem plain_dependsOn (built : builder.fullGraph = .ok graph) {limit : Nat} {node other : Node}
    {tag : Str} (computed : (builder.recipe digest).plain limit node = .ok tag)
    (depends : DependsOn graph node other) :
    ∃ less < limit, ∃ depTag, (builder.recipe digest).plain less other = .ok depTag := by
  cases limit with
  | zero => cases computed
  | succ limit =>
    obtain ⟨⟨imageName, nodes⟩, inGraph, rfl, inside⟩ := (dependsOn_iff node other).mp depends
    obtain ⟨conf, configured, set⟩ := configured_of_entry built inGraph
    obtain ⟨_, dependencies, _, prepared, _⟩ := plain_succ_iff.mp computed
    obtain ⟨dependency, member, named⟩ :=
      mapM_ok_mem_value (readImage_named configured set prepared) inside
    obtain ⟨another, depTag, namedToo, found⟩ := plain_dependency computed prepared member
    cases named.symm.trans namedToo
    exact ⟨limit, Nat.lt_succ_self limit, depTag, found⟩

theorem yields_acyclic (built : builder.fullGraph = .ok graph) {node : Node} {tag : Str}
    (yields : (builder.recipe digest).Yields node tag) : ¬ TransGen (DependsOn graph) node node := by
  obtain ⟨limit, computed⟩ := yields
  intro cycle
  have descends : ∀ limit tag, (builder.recipe digest).plain limit node = .ok tag →
      ∀ other, TransGen (DependsOn graph) node other →
        ∃ less < limit, ∃ depTag, (builder.recipe digest).plain less other = .ok depTag := by
    intro limit tag computed other path
    induction path with
    | single depends => exact plain_dependsOn built computed depends
    | tail _ depends ih =>
      obtain ⟨less, isLess, depTag, computedToo⟩ := ih
      obtain ⟨least, isLeast, found⟩ := plain_dependsOn built computedToo depends
      exact ⟨least, isLeast.trans isLess, found⟩
  induction limit using Nat.strong_induction_on generalizing tag with
  | _ limit ih =>
    obtain ⟨less, isLess, _, computedToo⟩ := descends limit tag computed node cycle
    exact ih less isLess computedToo

theorem getBuildOrderFor_exists (built : builder.fullGraph = .ok graph)
    (tagged : ∀ node, builder.Needs targets node → ∃ tag, (builder.recipe digest).Yields node tag)
    (sorter : Sorter) (visitor : Visitor) :
    ∃ order, builder.getBuildOrderFor sorter visitor targets = .ok order := by
  have acyclic {node : Node} (asked : targets = [] ∨ ReachableFrom graph targets node) :
      ¬ TransGen (DependsOn graph) node node := by
    intro cycle
    obtain ⟨other, first, _⟩ := TransGen.head'_iff.mp cycle
    obtain ⟨entry, inGraph, rfl, _⟩ := (dependsOn_iff node other).mp first
    obtain ⟨tag, yields⟩ := tagged _ ⟨graph, built, entry, inGraph, asked, .inl rfl⟩
    exact yields_acyclic built yields cycle
  by_cases noTargets : targets = []
  · obtain ⟨order, sorted⟩ := exists_topologicalOrder_iff.mpr (fun node => acyclic (.inl noTargets))
    rw [DockerBuilder.getBuildOrderFor, if_pos noTargets]
    simp only [DockerBuilder.getBuildOrder, built, bind, Except.bind]
    cases sorter graph with
    | order nodes _ => exact ⟨nodes, rfl⟩
    | cycle cyclic => exact absurd sorted (cyclic order)
  · have isPart := visitedPart_filter (visitor graph targets)
    have noCycle : ¬ ∃ node, ReachableFrom graph targets node ∧ TransGen (DependsOn graph) node node := by
      rintro ⟨node, reachable, cycle⟩
      exact acyclic (.inr reachable) cycle
    obtain ⟨order, sorted⟩ := exists_topologicalOrder_iff.mpr ((acyclic_visitedPart_iff isPart).mpr noCycle)
    rw [DockerBuilder.getBuildOrderFor, if_neg noTargets]
    simp only [DockerBuilder.getDependencySubgraph, built, bind, Except.bind]
    cases sorter (graph.filter fun entry => some entry.1 ∈ (visitor graph targets).visited) with
    | cycle cyclic => exact absurd sorted (cyclic order)
    | order nodes sortedNodes =>
      have joined : DockerBuilder.joinNames nodes = .ok () := by
        apply if_neg
        intro member
        obtain ⟨entry, inPart, isNode⟩ := (sortedNodes.complete none).mp member
        obtain ⟨inGraph, visited⟩ := (isPart entry).mp inPart
        obtain ⟨_, yields⟩ := tagged none ⟨graph, built, entry, inGraph,
          .inr ((mem_visited_iff_reachable _ _).mp visited), isNode⟩
        obtain ⟨_, ⟨⟩⟩ := yields_named yields
      exact ⟨nodes, by simp [joined, pure, Except.pure]⟩

end Order

/-! ### The turn of an image -/

section Turn

variable {builder : DockerBuilder} {digest : Digest} {graph : Graph}

/-- What `build_images` has found out about an image when it calls `manage_docker_image`, with the
images of the turns before. -/
structure Prepared (builder : DockerBuilder) (digest : Digest) (options : BuildOptions)
    (earlier : List Node) (imageName : Str) (build : BuildCommand) (buildArgsList : List Str)
    (localMode : Bool) : Prop where
  yields : (builder.recipe digest).Yields (some imageName) build.tag
  values : buildArgValues buildArgsList = some build.buildArgs
  noCache : build.noCache = options.noCache
  configured : ∃ conf nodes, builder.imageConfigsMap.lookup imageName = some conf ∧
    dependencySet conf = .ok nodes ∧ (∀ node ∈ nodes, node ∈ earlier) ∧
    DockerBuilder.localImageMode options.localFlag conf = .ok localMode

/-- A tag that the plain recursion yields is found, when those of the dependencies are stored. -/
theorem calculateTag_yields {generatedTags : Table Node Str} {imageName tag : Str} {conf : Json}
    {nodes : List Node} (filled : Filled (builder.recipe digest) generatedTags)
    (configured : builder.imageConfigsMap.lookup imageName = some conf)
    (set : dependencySet conf = .ok nodes)
    (present : ∀ node ∈ nodes, ∃ depTag, generatedTags.lookup node = some depTag)
    (yields : (builder.recipe digest).Yields (some imageName) tag) :
    ∃ later, builder.calculateTagForImage digest recursionLimit (some imageName) generatedTags =
      .ok (tag, later) := by
  cases held : generatedTags.lookup (some imageName) with
  | some stored =>
    have same := yields_unique yields (filled.sound _ stored held)
    exact ⟨generatedTags, by
      rw [DockerBuilder.calculateTagForImage, recursionLimit, Recipe.memoised, held, same]⟩
  | none =>
    obtain ⟨limit, computed⟩ := yields
    cases limit with
    | zero => cases computed
    | succ limit =>
      obtain ⟨info, dependencies, depTags, prepared, each, finished⟩ := plain_succ_iff.mp computed
      have known : ∀ dependency ∈ dependencies, ∀ node, dependencyNode dependency = .ok node →
          ∃ depTag, generatedTags.lookup node = some depTag := by
        intro dependency member node named
        obtain ⟨other, inNodes, namedToo⟩ :=
          mapM_ok_mem (readImage_named configured set prepared) member
        cases named.symm.trans namedToo
        exact present node inNodes
      have eachYields : EachYields (builder.recipe digest) dependencies depTags := by
        refine each.imp ?_
        rintro _ _ ⟨other, namedOther, found⟩
        exact ⟨other, namedOther, limit, found⟩
      have stored := stored_of_yields filled.sound eachYields known
      refine ⟨generatedTags.insert (some imageName) tag, ?_⟩
      have whole : builder.calculateTagForImage digest recursionLimit (some imageName)
          generatedTags = ((builder.recipe digest).finish (some imageName) info depTags).map
            (fun tag => (tag, generatedTags.insert (some imageName) tag)) :=
        memoised_stored 998 held prepared stored
      rw [whole, finished]
      rfl

theorem buildArguments_mode {generatedTags : Table Node Str} {imageName : Str} {conf : Json}
    {localFlag localMode : Bool} {path : DockerfilePath} {buildArgsList : List Str}
    (configured : builder.imageConfigsMap.lookup imageName = some conf)
    (collected : builder.buildArguments localFlag generatedTags (some imageName) =
      .ok (path, buildArgsList, localMode)) :
    DockerBuilder.localImageMode localFlag conf = .ok localMode := by
  simp only [DockerBuilder.buildArguments, configured] at collected
  obtain ⟨mode, found, rest⟩ := bind_ok_iff.mp collected
  cases located : builder.dockerfilePath imageName with
  | none => simp [located, exit] at rest
  | some other =>
    simp only [located, bind_ok_iff] at rest
    obtain ⟨_, _, _, _, _, _, returned⟩ := rest
    cases returned
    exact found

/-- Either the image has no tag, and its turn fails before docker is asked, or it is managed. -/
theorem buildTurn_cases (built : builder.fullGraph = .ok graph) (host : DockerHost)
    (options : BuildOptions) (target : Option Str) {earlier : List Node} {node : Node}
    {generatedTags : Table Node Str} (before : ∀ other, DependsOn graph node other → other ∈ earlier)
    (processed : Processed builder digest earlier generatedTags) :
    ((¬ ∃ tag, (builder.recipe digest).Yields node tag) ∧
      ∃ raised, builder.buildTurn digest host options target generatedTags node =
        raising (.error raised)) ∨
    ∃ imageName build buildArgsList localMode later, node = some imageName ∧
      Prepared builder digest options earlier imageName build buildArgsList localMode ∧
      Processed builder digest (earlier ++ [node]) later ∧
      builder.buildTurn digest host options target generatedTags node =
        (manageDockerImage host build.tag build.file buildArgsList localMode build.noCache builder.repo
          >>= fun _ => if options.printTagMode ∧ node = target then raising exit else pure later) := by
  have placed {imageName : Str} {nodes : List Node} (same : node = some imageName)
      (inGraph : (imageName, nodes) ∈ graph) : ∀ other ∈ nodes, other ∈ earlier :=
    fun other inside => before other ((dependsOn_iff _ _).mpr ⟨_, inGraph, same.symm, inside⟩)
  cases result : builder.calculateTagForImage digest recursionLimit node generatedTags with
  | error raised =>
    left
    constructor
    · rintro ⟨tag, yields⟩
      obtain ⟨imageName, same⟩ := yields_named yields
      subst same
      obtain ⟨conf, nodes, configured, set, inGraph⟩ := yields_configured built yields
      obtain ⟨later, found⟩ := calculateTag_yields processed.filled configured set
        (fun other inside => processed.present other (placed rfl inGraph other inside)) yields
      rw [found] at result
      cases result
    · refine ⟨raised, ?_⟩
      unfold DockerBuilder.buildTurn
      rw [result]
      rfl
  | ok pair =>
    right
    obtain ⟨tag, later⟩ := pair
    obtain ⟨yields, _, grows, found⟩ := memoised_sound recursionLimit processed.filled.sound result
    have filled := memoised_filled recursionLimit processed.filled result
    obtain ⟨imageName, same⟩ := yields_named yields
    subst same
    obtain ⟨conf, nodes, configured, set, inGraph⟩ := yields_configured built yields
    have presentLater : ∀ other ∈ nodes, ∃ depTag, later.lookup other = some depTag := by
      intro other inside
      obtain ⟨depTag, held⟩ := processed.present other (placed rfl inGraph other inside)
      exact ⟨depTag, grows other depTag held⟩
    obtain ⟨path, buildArgsList, localMode, buildArgs, arguments, values, _⟩ :=
      buildArguments_spec options.localFlag options.noCache filled.sound configured set presentLater yields
    refine ⟨imageName, ⟨tag, path, options.noCache, buildArgs⟩, buildArgsList, localMode, later, rfl,
      ⟨yields, values, rfl, conf, nodes, configured, set, placed rfl inGraph,
        buildArguments_mode configured arguments⟩,
      processed_grow processed filled grows found, ?_⟩
    unfold DockerBuilder.buildTurn
    rw [result]
    funext commands
    change (raising (builder.buildArguments options.localFlag later (some imageName)) >>= _) commands = _
    rw [arguments]
    rfl

end Turn

/-! ### Whole runs -/

/-- A process that calls `build_images`. The orders that Python and `graphlib` choose are its own. -/
structure BuildCall where
  sorter : Sorter
  visitor : Visitor
  options : BuildOptions
  targets : List Str

def BuildCall.run (call : BuildCall) (builder : DockerBuilder) (digest : Digest) (host : DockerHost) :
    DockerScript (Table Node Str) :=
  builder.buildImages digest call.sorter call.visitor host call.options call.targets ∅

/-- What the code needs, beside docker, for a call to come to its end: the configuration can be read,
and all images that are needed have tags. -/
structure Ready (builder : DockerBuilder) (digest : Digest) (call : BuildCall) : Prop where
  configured : ∃ graph, builder.fullGraph = .ok graph
  tagged : ∀ node, builder.Needs call.targets node → ∃ tag, (builder.recipe digest).Yields node tag
  printsNoTag : call.options.printTagMode = false

/-- Every turn of the call keeps an invariant about the images that have had their turns and all that
docker was asked. -/
def TurnsKeep (builder : DockerBuilder) (digest : Digest) (call : BuildCall)
    (host : DockerHost) (kept : List Node → List DockerCommand → Prop)
    (stopped : List DockerCommand → Prop) : Prop :=
  ∀ earlier imageName build buildArgsList localMode, builder.Needs call.targets (some imageName) →
    Prepared builder digest call.options earlier imageName build buildArgsList localMode →
      Ensures (kept earlier)
        (manageDockerImage host build.tag build.file buildArgsList localMode build.noCache builder.repo)
        (fun _ => kept (earlier ++ [some imageName])) stopped

section Run

variable {builder : DockerBuilder} {digest : Digest} {call : BuildCall} {host : DockerHost}
  {kept : List Node → List DockerCommand → Prop} {stopped : List DockerCommand → Prop}
  (turns : TurnsKeep builder digest call host kept stopped)
  (stops : Ready builder digest call ∨ ∀ earlier commands, kept earlier commands → stopped commands)

include turns stops

theorem buildTurn_ensures {graph : Graph} (built : builder.fullGraph = .ok graph) (target : Option Str)
    {earlier : List Node} {node : Node} {generatedTags : Table Node Str}
    (need : builder.Needs call.targets node)
    (before : ∀ other, DependsOn graph node other → other ∈ earlier) :
    Ensures (fun commands => kept earlier commands ∧ Processed builder digest earlier generatedTags)
      (builder.buildTurn digest host call.options target generatedTags node)
      (fun generatedTags commands => kept (earlier ++ [node]) commands ∧
        Processed builder digest (earlier ++ [node]) generatedTags) stopped := by
  intro commands holds
  rcases buildTurn_cases built host call.options target before holds.2 with
    ⟨untagged, raised, whole⟩ |
    ⟨imageName, build, buildArgsList, localMode, later, same, prepared, processed, whole⟩
  · rw [whole]
    rcases stops with ready | stops
    · exact absurd (ready.tagged node need) untagged
    · exact stops earlier commands holds.1
  · rw [whole]
    have ends : ∀ _ : Unit, Ensures (kept (earlier ++ [node]))
        (if call.options.printTagMode ∧ node = target then raising exit else pure later)
        (fun generatedTags commands => kept (earlier ++ [node]) commands ∧
          Processed builder digest (earlier ++ [node]) generatedTags) stopped := by
      intro _
      split
      · rename_i printed
        apply ensures_stop
        rcases stops with ready | stops
        · simp [ready.printsNoTag] at printed
        · exact stops (earlier ++ [node])
      · exact ensures_pure (fun _ kept => ⟨kept, processed⟩)
    subst same
    exact ensures_bind (turns earlier imageName build buildArgsList localMode need prepared) ends
      commands holds.1

theorem buildImages_ensures :
    Ensures (kept []) (call.run builder digest host)
      (fun generatedTags later => ∃ order, (∀ node, builder.Needs call.targets node → node ∈ order) ∧
        kept order later ∧ Processed builder digest order generatedTags) stopped := by
  unfold BuildCall.run DockerBuilder.buildImages
  cases ordered : builder.getBuildOrderFor call.sorter call.visitor call.targets with
  | error raised =>
    intro commands holds
    rcases stops with ready | stops
    · obtain ⟨graph, built⟩ := ready.configured
      obtain ⟨order, found⟩ := getBuildOrderFor_exists built ready.tagged call.sorter call.visitor
      cases found.symm.trans ordered
    · exact stops [] commands holds
  | ok order =>
    obtain ⟨graph, built, needs, before⟩ := getBuildOrderFor_needs ordered
    have loop (target : Option Str) : Ensures (fun commands => kept [] commands ∧
          Processed builder digest [] ∅)
        (order.foldlM (builder.buildTurn digest host call.options target) ∅)
        (fun generatedTags later => kept order later ∧ Processed builder digest order generatedTags)
        stopped := by
      apply ensures_foldlM (fun earlier generatedTags commands =>
        kept earlier commands ∧ Processed builder digest earlier generatedTags) order ?_ order [] ∅ rfl
      intro earlier node later generatedTags split
      have need := (needs node).mp (split ▸ List.mem_append_right earlier List.mem_cons_self)
      exact buildTurn_ensures turns stops built target need (before earlier node later split)
    have ordering : Ensures (kept []) (raising (.ok order))
        (fun imagesToProcess commands => imagesToProcess = order ∧ kept [] commands) stopped :=
      ensures_pure (fun _ holds => ⟨rfl, holds⟩)
    have naming : Ensures (kept [])
        (calculate (DockerBuilder.targetImageForTagPrint call.options call.targets))
        (fun _ => kept []) stopped := by
      apply ensures_calculate
      · exact fun _ _ _ holds => holds
      · intro stop named
        rcases stops with ready | stops
        · simp [DockerBuilder.targetImageForTagPrint, ready.printsNoTag] at named
        · exact stops []
    apply ensures_bind ordering
    rintro imagesToProcess commands ⟨same, holds⟩
    subst same
    refine ensures_bind naming (fun target => ensures_mono (loop target) ?_ ?_) commands holds
    · exact fun _ holds => ⟨holds, .empty, fun _ absent => absurd absent List.not_mem_nil⟩
    · exact fun _ _ ran => ⟨imagesToProcess, fun node => (needs node).mpr, ran⟩

end Run

/-! ### What a run leaves -/

section Results

variable (builder : DockerBuilder) (digest : Digest)

/-- The tag of the image is there. -/
def Present (images : List DockerCommand → Images) (commands : List DockerCommand) (node : Node) : Prop :=
  ∃ tag, (builder.recipe digest).Yields node tag ∧ tag ∈ (images commands).here

/-- Where docker was asked for a build, it had the images that this one is built on. -/
def BasesPresent (images : List DockerCommand → Images) (commands : List DockerCommand) : Prop :=
  ∀ earlier command, earlier ++ [.build command] <+: commands → ∃ imageName conf nodes,
    builder.imageConfigsMap.lookup imageName = some conf ∧ dependencySet conf = .ok nodes ∧
    (builder.recipe digest).Yields (some imageName) command.tag ∧
    ∀ node ∈ nodes, Present builder digest images earlier node

/-- The invariant of a run, with the images that have had their turns. -/
structure Kept (images : List DockerCommand → Images) (done : List Node)
    (commands : List DockerCommand) : Prop where
  present : ∀ node ∈ done, Present builder digest images commands node
  bases : BasesPresent builder digest images commands

variable {builder digest} {host : DockerHost} {images : List DockerCommand → Images} {call : BuildCall}

theorem kept_nil : Kept builder digest images [] [] where
  present _ absent := absurd absent List.not_mem_nil
  bases := by
    intro before command among
    simp at among

/-- The image that has had its turn is present with those before. -/
theorem present_turn {earlier : List Node} {imageName tag : Str} {commands : List DockerCommand}
    (before : ∀ node ∈ earlier, Present builder digest images commands node)
    (yields : (builder.recipe digest).Yields (some imageName) tag)
    (here : tag ∈ (images commands).here) :
    ∀ node ∈ earlier ++ [some imageName], Present builder digest images commands node := by
  intro node member
  rcases List.mem_append.mp member with old | new
  · exact before node old
  · rw [List.mem_singleton.mp new]
    exact ⟨tag, yields, here⟩

variable (keeps : KeepsImages host images)

include keeps

theorem present_grows {commands : List DockerCommand} {node : Node}
    (present : Present builder digest images commands node) (command : DockerCommand) :
    Present builder digest images (commands ++ [command]) node := by
  obtain ⟨tag, yields, here⟩ := present
  exact ⟨tag, yields, keeps.here commands command tag here⟩

theorem kept_concerns {options : BuildOptions} {earlier : List Node} {imageName : Str}
    {build : BuildCommand} {buildArgsList : List Str} {localMode : Bool}
    {commands : List DockerCommand} {command : DockerCommand} {remote : Prop}
    (prepared : Prepared builder digest options earlier imageName build buildArgsList localMode)
    (concerns : Concerns build remote command) (kept : Kept builder digest images earlier commands) :
    Kept builder digest images earlier (commands ++ [command]) where
  present node member := present_grows keeps (kept.present node member) command
  bases := by
    intro before other among
    rcases List.prefix_concat_iff.mp among with last | old
    · obtain ⟨same, ⟨⟩⟩ := List.append_inj' last rfl
      subst same
      cases concerns
      obtain ⟨conf, nodes, configured, set, done, _⟩ := prepared.configured
      exact ⟨imageName, conf, nodes, configured, set, prepared.yields,
        fun node depends => kept.present node (done node depends)⟩
    · exact kept.bases before other old

/-- The run keeps the invariant. It stops only where docker fails, or where it is not ready. -/
theorem run_kept {stopped : List DockerCommand → Prop}
    (fails : ∀ done commands command, Fails host images commands command →
      Kept builder digest images done (commands ++ [command]) → stopped (commands ++ [command]))
    (stops : Ready builder digest call ∨
      ∀ done commands, Kept builder digest images done commands → stopped commands) :
    Ensures (Kept builder digest images []) (call.run builder digest host)
      (fun generatedTags later => ∃ order, (∀ node, builder.Needs call.targets node → node ∈ order) ∧
        Kept builder digest images order later ∧ Processed builder digest order generatedTags)
      stopped := by
  apply buildImages_ensures ?_ stops
  intro earlier imageName build buildArgsList localMode _ prepared
  refine ensures_mono (manage_ensures keeps prepared.values
    (fun commands command concerns kept => kept_concerns keeps prepared concerns kept)
    (fun commands command concerns failed kept =>
      fails earlier commands command failed (kept_concerns keeps prepared concerns kept)))
    (fun _ kept => kept) ?_
  intro _ later after
  exact { after.1 with present := present_turn after.1.present prepared.yields after.2 }

theorem run_bases : BasesPresent builder digest images (call.run builder digest host []).2 := by
  have ensured : Ensures _ (call.run builder digest host) _
      (fun later => ∃ done, Kept builder digest images done later) :=
    run_kept keeps (fun done _ _ _ kept => ⟨done, kept⟩) (.inr (fun done _ kept => ⟨done, kept⟩))
  obtain ⟨_, kept⟩ := ensured.either kept_nil (fun _ _ ⟨order, _, kept, _⟩ => ⟨order, kept⟩)
  exact kept.bases

theorem run_present {generatedTags : Table Node Str}
    (ok : (call.run builder digest host []).1 = .ok generatedTags) {node : Node}
    (needed : builder.Needs call.targets node) :
    ∃ tag, generatedTags.lookup node = some tag ∧ (builder.recipe digest).Yields node tag ∧
      tag ∈ (images (call.run builder digest host []).2).here := by
  have ensured : Ensures _ (call.run builder digest host) _ (fun _ => True) :=
    run_kept keeps (fun _ _ _ _ _ => trivial) (.inr (fun _ _ _ => trivial))
  obtain ⟨order, complete, kept, processed⟩ := ensured.returned kept_nil ok
  obtain ⟨tag, found⟩ := processed.present node (complete node needed)
  obtain ⟨other, yields, here⟩ := kept.present node (complete node needed)
  have same := yields_unique (processed.filled.sound _ tag found) yields
  exact ⟨tag, found, same ▸ yields, same ▸ here⟩

theorem run_succeeds (works : ∀ commands command, ¬ Fails host images commands command)
    (ready : Ready builder digest call) :
    ∃ generatedTags, (call.run builder digest host []).1 = .ok generatedTags := by
  have ensured : Ensures _ (call.run builder digest host) _ (fun _ => False) :=
    run_kept keeps (fun _ commands command failed _ => works commands command failed) (.inl ready)
  obtain ⟨generatedTags, ok, _⟩ := ensured.returns kept_nil
  exact ⟨generatedTags, ok⟩

/-! ### Runs after a run -/

omit keeps

/-- A call for images that an earlier one needs is ready, if the earlier one has succeeded. -/
theorem ready_again {before : List DockerCommand} {generatedTags : Table Node Str}
    (first : (call.run builder digest host before).1 = .ok generatedTags) {again : BuildCall}
    (printsNoTag : again.options.printTagMode = false)
    (tagged : ∀ node, builder.Needs again.targets node → ∃ tag, (builder.recipe digest).Yields node tag) :
    Ready builder digest again := by
  refine ⟨?_, tagged, printsNoTag⟩
  unfold BuildCall.run DockerBuilder.buildImages at first
  cases ordered : builder.getBuildOrderFor call.sorter call.visitor call.targets with
  | error raised =>
    rw [ordered] at first
    cases first
  | ok order =>
    obtain ⟨graph, built, _⟩ := getBuildOrderFor_needs ordered
    exact ⟨graph, built⟩

/-- Since the commands at first, docker was only asked whether images are there. -/
def OnlyLooked (images : List DockerCommand → Images) (before later : List DockerCommand) : Prop :=
  ∃ looks, later = before ++ looks ∧ (∀ command ∈ looks, ∃ tag, command = .imageInspect tag) ∧
    images later = images before

include keeps

theorem onlyLooked_next {before later : List DockerCommand} (looked : OnlyLooked images before later)
    (tag : Str) : OnlyLooked images before (later ++ [.imageInspect tag]) := by
  obtain ⟨looks, same, only, unchanged⟩ := looked
  refine ⟨looks ++ [.imageInspect tag], by rw [same, List.append_assoc], ?_, ?_⟩
  · intro command member
    rcases List.mem_append.mp member with old | new
    · exact only command old
    · exact ⟨tag, List.mem_singleton.mp new⟩
  · rw [keeps.inspected, unchanged]

/-- A run that finds all images. -/
theorem run_looks {before : List DockerCommand} (cached : call.options.noCache = false)
    (ready : Ready builder digest call)
    (present : ∀ node, builder.Needs call.targets node → Present builder digest images before node) :
    ∃ laterTags, (call.run builder digest host before).1 = .ok laterTags ∧
      OnlyLooked images before (call.run builder digest host before).2 := by
  have turns : TurnsKeep builder digest call host (fun _ => OnlyLooked images before)
      (fun _ => False) := by
    intro earlier imageName build buildArgsList localMode needed prepared
    rw [prepared.noCache, cached]
    apply ensures_mono (manage_found keeps (OnlyLooked images before)
      (fun later looked => onlyLooked_next keeps looked build.tag)) ?_ (fun _ _ looked => looked)
    intro later looked
    obtain ⟨tag, yields, here⟩ := present _ needed
    obtain ⟨_, _, _, unchanged⟩ := id looked
    rw [unchanged, yields_unique prepared.yields yields]
    exact ⟨looked, here⟩
  have start : OnlyLooked images before before :=
    ⟨[], (List.append_nil before).symm, fun _ absent => absurd absent List.not_mem_nil, rfl⟩
  obtain ⟨laterTags, ok, _, _, looked, _⟩ := (buildImages_ensures turns (.inl ready)).returns start
  exact ⟨laterTags, ok, looked⟩

/-! ### Machines that share a registry -/

omit keeps

/-- There is a registry, and no image that is needed is kept local. -/
structure Remote (builder : DockerBuilder) (call : BuildCall) : Prop where
  repo : builder.repo ≠ []
  images : ∀ imageName conf, builder.Needs call.targets (some imageName) →
    builder.imageConfigsMap.lookup imageName = some conf →
      DockerBuilder.localImageMode call.options.localFlag conf = .ok false

theorem Remote.mode (remote : Remote builder call) {earlier : List Node} {imageName : Str}
    {build : BuildCommand} {buildArgsList : List Str} {localMode : Bool}
    (needed : builder.Needs call.targets (some imageName))
    (prepared : Prepared builder digest call.options earlier imageName build buildArgsList
      localMode) : localMode = false := by
  obtain ⟨conf, _, configured, _, _, mode⟩ := prepared.configured
  exact Except.ok.inj (mode.symm.trans (remote.images imageName conf needed configured))

/-- The tags of the images that the call needs. -/
def NeededTag (builder : DockerBuilder) (digest : Digest) (call : BuildCall) (tag : Str) : Prop :=
  ∃ node, builder.Needs call.targets node ∧ (builder.recipe digest).Yields node tag

include keeps

/-- Where images can be pushed, a run shares what it needs. -/
theorem run_shares (remote : Remote builder call)
    (pushes : ∀ commands, ∀ tag ∈ (images commands).here, host commands (.push tag) = some 0)
    (shared : Shared images (NeededTag builder digest call) []) {generatedTags : Table Node Str}
    (ok : (call.run builder digest host []).1 = .ok generatedTags) {tag : Str}
    (needed : NeededTag builder digest call tag) :
    tag ∈ (images (call.run builder digest host []).2).registry := by
  have turns : TurnsKeep builder digest call host
      (fun _ => Shared images (NeededTag builder digest call)) (fun _ => True) := by
    intro earlier imageName build buildArgsList localMode need prepared
    rw [remote.mode need prepared]
    exact manage_shares keeps prepared.values remote.repo (fun commands => pushes commands build.tag)
  obtain ⟨_, _, sharedLater, _⟩ :=
    (buildImages_ensures turns (.inr (fun _ _ _ => trivial))).returned shared ok
  obtain ⟨node, need, yields⟩ := needed
  obtain ⟨other, _, yieldsToo, here⟩ := run_present keeps ok need
  have same := yields_unique yields yieldsToo
  exact sharedLater tag ⟨node, need, yields⟩ (same ▸ here)

/-- The invariant of a run that fetches its images. -/
structure Fetched (builder : DockerBuilder) (digest : Digest) (images : List DockerCommand → Images)
    (done : List Node) (commands : List DockerCommand) : Prop where
  only : ∀ command ∈ commands, ∃ tag, Fetches tag command
  present : ∀ node ∈ done, Present builder digest images commands node
  registry : ∀ tag ∈ (images []).registry, tag ∈ (images commands).registry

theorem fetched_next {done : List Node} {commands : List DockerCommand} {command : DockerCommand}
    {tag : Str} (fetches : Fetches tag command) (fetched : Fetched builder digest images done commands) :
    Fetched builder digest images done (commands ++ [command]) where
  only other member := by
    rcases List.mem_append.mp member with old | new
    · exact fetched.only other old
    · exact ⟨tag, List.mem_singleton.mp new ▸ fetches⟩
  present node member := present_grows keeps (fetched.present node member) command
  registry other inRegistry := keeps.registry commands command other (fetched.registry other inRegistry)

/-- A run whose images are all in the registry. -/
theorem run_fetches (remote : Remote builder call) (cached : call.options.noCache = false)
    (reaches : Reaches host images) (ready : Ready builder digest call)
    (registry : ∀ node, builder.Needs call.targets node →
      ∃ tag ∈ (images []).registry, (builder.recipe digest).Yields node tag) :
    ∃ laterTags, (call.run builder digest host []).1 = .ok laterTags ∧
      (∀ command ∈ (call.run builder digest host []).2, ∃ tag, Fetches tag command) ∧
      ∀ node, builder.Needs call.targets node →
        Present builder digest images (call.run builder digest host []).2 node := by
  have turns : TurnsKeep builder digest call host (Fetched builder digest images) (fun _ => False) := by
    intro earlier imageName build buildArgsList localMode needed prepared
    rw [remote.mode needed prepared, prepared.noCache, cached]
    apply ensures_mono (manage_fetches keeps (Fetched builder digest images earlier) remote.repo reaches
      (fun commands command fetches fetched => fetched_next keeps fetches fetched))
    · intro commands fetched
      obtain ⟨tag, inRegistry, yields⟩ := registry _ needed
      rw [yields_unique prepared.yields yields]
      exact ⟨fetched, fetched.registry tag inRegistry⟩
    · intro _ later after
      exact { after.1 with present := present_turn after.1.present prepared.yields after.2 }
  have start : Fetched builder digest images [] [] :=
    ⟨fun _ absent => absurd absent List.not_mem_nil, fun _ absent => absurd absent List.not_mem_nil,
      fun _ inRegistry => inRegistry⟩
  obtain ⟨laterTags, ok, order, complete, fetched, _⟩ :=
    (buildImages_ensures turns (.inl ready)).returns start
  exact ⟨laterTags, ok, fetched.only, fun node needed => fetched.present _ (complete node needed)⟩

end Results

/-! ### Images that are kept local -/

section Local

variable {builder : DockerBuilder} {digest : Digest}

/-- The tag of the image if the command asks the registry for it. -/
def DockerCommand.registryTag : DockerCommand → Option Str
  | .imageInspect _ => none
  | .manifestInspect tag => some tag
  | .pull tag => some tag
  | .push tag => some tag
  | .build _ => none

/-- The registry is asked only about images that are not kept local. -/
def StaysLocal (builder : DockerBuilder) (digest : Digest) (options : BuildOptions)
    (command : DockerCommand) : Prop :=
  ∀ tag, command.registryTag = some tag → ∃ imageName conf,
    builder.imageConfigsMap.lookup imageName = some conf ∧
    (builder.recipe digest).Yields (some imageName) tag ∧
    DockerBuilder.localImageMode options.localFlag conf = .ok false

/-- The name of an image can be read off its tag. -/
theorem yields_name {imageName other tag : Str}
    (yields : (builder.recipe digest).Yields (some imageName) tag)
    (yieldsToo : (builder.recipe digest).Yields (some other) tag) : imageName = other := by
  obtain ⟨content, _, _, _, args, _, _, _, text⟩ := yields_text yields
  obtain ⟨contentToo, _, _, _, argsToo, _, _, _, textToo⟩ := yields_text yieldsToo
  have lengths : (digest.hexdigest (content ++ args.flatten)).length =
      (digest.hexdigest (contentToo ++ argsToo.flatten)).length :=
    (digest.length _).trans (digest.length _).symm
  have same := (List.append_inj' (text.symm.trans textToo) lengths).1
  exact List.append_cancel_left (List.append_cancel_right same)

theorem run_stays_local (call : BuildCall) (host : DockerHost) :
    ∀ command ∈ (call.run builder digest host []).2, StaysLocal builder digest call.options command := by
  have turns : TurnsKeep builder digest call host
      (fun _ commands => ∀ command ∈ commands, StaysLocal builder digest call.options command)
      (fun commands => ∀ command ∈ commands, StaysLocal builder digest call.options command) := by
    intro earlier imageName build buildArgsList localMode _ prepared
    refine (performs_manageDockerImage host prepared.values ?_).ensures
    intro command concerns tag asked
    obtain ⟨conf, _, configured, _, _, mode⟩ := prepared.configured
    have about : tag = build.tag ∧ builder.repo ≠ [] ∧ localMode = false := by
      cases command <;> cases asked <;> exact concerns
    obtain ⟨same, _, remote⟩ := about
    subst same remote
    exact ⟨imageName, conf, configured, prepared.yields, mode⟩
  apply (buildImages_ensures turns (.inr (fun _ _ kept => kept))).either
    (fun _ absent => absurd absent List.not_mem_nil)
  exact fun _ _ ⟨_, _, kept, _⟩ => kept

end Local

/-! ### An image on top of another -/

namespace Layered

noncomputable def call (localFlag : Bool) : BuildCall where
  sorter := someSorter
  visitor graph targets := (visitor_exists graph targets).some
  options := ⟨false, false, localFlag⟩
  targets := [py "dev-env"]

def dir : ImageDir where
  deps := .parsed (.obj [(py "build-env", .obj [(py "deps", .obj [])]),
    (py "dev-env", .obj [(py "deps", .obj [(py "BASE", .str (py "build-env"))])])])
  dockerfile := fun _ => some (.readable [70])

/-- The images of `layeredBuilder`, with a registry. -/
def builder : DockerBuilder := { layeredBuilder with
  searchPaths := [dir]
  repo := py "devkit:5000/devkit/a:1-devkit"
  space := py "devkit/x/devkit/y:2" }

/-- Docker without images, where every attempt succeeds. -/
def docker (registry : List Str) : Docker := ⟨⟨[], registry⟩, fun _ _ => 0⟩

theorem ready (localFlag : Bool) : Ready builder zeroDigest (call localFlag) where
  configured := ⟨layeredGraph, rfl⟩
  printsNoTag := rfl
  tagged := by
    rintro node ⟨graph, ⟨⟩, entry, inGraph, _, isNode⟩
    have image : ∃ other ∈ layeredGraph, node = some other.1 := by
      rcases isNode with same | depends
      · exact ⟨entry, inGraph, same⟩
      · exact layeredGraph_configured entry inGraph node depends
    obtain ⟨other, otherInGraph, rfl⟩ := image
    exact yields_of_ready rfl layeredGraph_configured ⟨_, layeredGraph_sorted⟩ (by decide) other
      otherInGraph

theorem base_needed (localFlag : Bool) : builder.Needs (call localFlag).targets (some (py "build-env")) :=
  ⟨layeredGraph, rfl, (py "dev-env", [some (py "build-env")]), List.mem_cons_self,
    .inr ⟨py "dev-env", List.mem_cons_self, .refl⟩, .inr List.mem_cons_self⟩

theorem succeeds : ∃ generatedTags,
    ((call false).run builder zeroDigest (docker []).host []).1 = .ok generatedTags :=
  run_succeeds (docker []).keepsImages (Docker.not_fails fun _ _ => rfl) (ready false)

theorem remote : Remote builder (call false) where
  repo := by decide
  images := by
    intro imageName conf _ configured
    have entry : (⟨imageName, conf⟩ : Sigma fun _ : Str => Json) ∈ builder.imageConfigsMap.entries :=
      AList.mem_lookup_iff.mp configured
    have whole : builder.imageConfigsMap.entries =
        [⟨py "dev-env", .obj [(py "deps", .obj [(py "BASE", .str (py "build-env"))])]⟩,
          ⟨py "build-env", .obj [(py "deps", .obj [])]⟩] := rfl
    rw [whole] at entry
    rcases List.mem_cons.mp entry with same | rest
    · cases same
      rfl
    · cases List.mem_singleton.mp rest
      rfl

/-- Docker lists all that it has after the run. -/
noncomputable def project : Project where
  display := textOnly
  digest := zeroDigest
  sorter := someSorter
  configFile := .parsed portConfig
  searchPaths := [dir]
  docker := fun _ _ => .listed
    ((docker []).after ((call false).run builder zeroDigest (docker []).host []).2).here.dedup
    (List.nodup_dedup _)

theorem loaded : newDockerBuilder textOnly (.parsed portConfig) [dir] = .ok builder := rfl

theorem protects : ¬ project.Unprotected := by
  have built : builder.fullGraph = .ok layeredGraph := rfl
  have ready : ∀ entry ∈ layeredGraph, builder.status (some entry.1) = .ready := by decide
  simp only [Project.Unprotected, TagsRaise, project, loaded, DockerBuilder.TagsRaise, built]
  split
  · exact id
  · rename_i nodes sorted _
    rw [firstTrouble_ready]
    · simp
    · intro node member
      rcases (sorted.complete node).mp member with ⟨entry, inGraph, same | depends⟩
      · rw [same]
        exact ready entry inGraph
      · rcases layeredGraph_configured entry inGraph node depends with ⟨other, alsoInGraph, same⟩
        rw [same]
        exact ready other alsoInGraph

end Layered

/-! ### The results -/

section Guarantees

variable {builder : DockerBuilder} {digest : Digest} {call : BuildCall} {host : DockerHost}
  {images : List DockerCommand → Images}

/-- Whether a run succeeds or not, docker has the images that a build is based on when it is asked for
the build. After a run that succeeds, docker has every image that is needed, under the tag that is in
the table. It succeeds if docker does not fail and the code is ready for it. -/
theorem build_provides_images (keeps : KeepsImages host images) (builder : DockerBuilder)
    (digest : Digest) (call : BuildCall) :
    BasesPresent builder digest images (call.run builder digest host []).2 ∧
    (∀ generatedTags, (call.run builder digest host []).1 = .ok generatedTags →
      ∀ node, builder.Needs call.targets node →
        ∃ tag, generatedTags.lookup node = some tag ∧ (builder.recipe digest).Yields node tag ∧
          tag ∈ (images (call.run builder digest host []).2).here) ∧
    ((∀ commands command, ¬ Fails host images commands command) → Ready builder digest call →
      ∃ generatedTags, (call.run builder digest host []).1 = .ok generatedTags) :=
  ⟨run_bases keeps, fun _ ok _ needed => run_present keeps ok needed, run_succeeds keeps⟩

theorem layered_images_provided : ∃ generatedTags tag,
    ((Layered.call false).run Layered.builder zeroDigest (Layered.docker []).host []).1 =
      .ok generatedTags ∧
    generatedTags.lookup (some (py "build-env")) = some tag ∧
    tag ∈ ((Layered.docker []).after
      ((Layered.call false).run Layered.builder zeroDigest (Layered.docker []).host []).2).here := by
  obtain ⟨_, present, returns⟩ := build_provides_images (Layered.docker []).keepsImages Layered.builder
    zeroDigest (Layered.call false)
  obtain ⟨generatedTags, ok⟩ := returns (Docker.not_fails fun _ _ => rfl) (Layered.ready false)
  obtain ⟨tag, found, _, here⟩ := present generatedTags ok _ (Layered.base_needed false)
  exact ⟨generatedTags, tag, ok, found, here⟩

/-- An image that is kept local, by its configuration or by `--local`, is neither pulled nor pushed, and
the registry is not asked about it, whatever docker does. -/
theorem local_images_stay_local (call : BuildCall) (host : DockerHost) {imageName tag : Str} {conf : Json}
    (configured : builder.imageConfigsMap.lookup imageName = some conf)
    (keptLocal : DockerBuilder.localImageMode call.options.localFlag conf = .ok true)
    (yields : (builder.recipe digest).Yields (some imageName) tag) :
    ∀ command ∈ (call.run builder digest host []).2, command.registryTag ≠ some tag := by
  intro command ran asked
  obtain ⟨other, otherConf, configuredToo, yieldsToo, remote⟩ :=
    run_stays_local call host command ran tag asked
  cases yields_name yields yieldsToo
  cases configured.symm.trans configuredToo
  cases keptLocal.symm.trans remote

theorem layered_local_commands : ∃ tag,
    (Layered.builder.recipe zeroDigest).Yields (some (py "build-env")) tag ∧
    ∀ host : DockerHost, ∀ command ∈ ((Layered.call true).run Layered.builder zeroDigest host []).2,
      command.registryTag ≠ some tag := by
  obtain ⟨tag, yields⟩ := (Layered.ready true).tagged _ (Layered.base_needed true)
  have configured : Layered.builder.imageConfigsMap.lookup (py "build-env") =
      some (.obj [(py "deps", .obj [])]) := rfl
  exact ⟨tag, yields, fun host => local_images_stay_local (Layered.call true) host configured rfl yields⟩

/-- After a run that succeeds, another one for the same images succeeds as well. It only looks for the
images, and changes nothing. -/
theorem second_run_only_looks (keeps : KeepsImages host images) {generatedTags : Table Node Str}
    (first : (call.run builder digest host []).1 = .ok generatedTags) {again : BuildCall}
    (fewer : ∀ node, builder.Needs again.targets node → builder.Needs call.targets node)
    (cached : again.options.noCache = false) (printsNoTag : again.options.printTagMode = false) :
    ∃ laterTags, (again.run builder digest host (call.run builder digest host []).2).1 = .ok laterTags ∧
      OnlyLooked images (call.run builder digest host []).2
        (again.run builder digest host (call.run builder digest host []).2).2 := by
  have present : ∀ node, builder.Needs again.targets node →
      Present builder digest images (call.run builder digest host []).2 node := by
    intro node needed
    obtain ⟨tag, _, yields, here⟩ := run_present keeps first (fewer node needed)
    exact ⟨tag, yields, here⟩
  exact run_looks keeps cached (ready_again first printsNoTag fun node needed =>
    (present node needed).imp fun _ => And.left) present

theorem layered_second_run : ∃ laterTags,
    ((Layered.call true).run Layered.builder zeroDigest (Layered.docker []).host
      ((Layered.call false).run Layered.builder zeroDigest (Layered.docker []).host []).2).1 =
        .ok laterTags := by
  obtain ⟨generatedTags, first⟩ := Layered.succeeds
  obtain ⟨laterTags, ok, _⟩ := second_run_only_looks (Layered.docker []).keepsImages first
    (show ∀ node, Layered.builder.Needs (Layered.call true).targets node → _ from fun _ needed => needed)
    rfl rfl
  exact ⟨laterTags, ok⟩

/-- An image is built once for all machines that share a registry: after a run on one of them that
could push, a run for the same images on another builds nothing, and yet has every image. -/
theorem registry_spares_builds (keeps : KeepsImages host images) (remote : Remote builder call)
    (pushes : ∀ commands, ∀ tag ∈ (images commands).here, host commands (.push tag) = some 0)
    (shared : Shared images (NeededTag builder digest call) []) {generatedTags : Table Node Str}
    (first : (call.run builder digest host []).1 = .ok generatedTags)
    {other : DockerHost} {otherImages : List DockerCommand → Images}
    (keepsToo : KeepsImages other otherImages) (reaches : Reaches other otherImages)
    (registry : ∀ tag ∈ (images (call.run builder digest host []).2).registry,
      tag ∈ (otherImages []).registry)
    {again : BuildCall}
    (fewer : ∀ node, builder.Needs again.targets node → builder.Needs call.targets node)
    (remoteToo : Remote builder again) (cached : again.options.noCache = false)
    (printsNoTag : again.options.printTagMode = false) :
    ∃ laterTags, (again.run builder digest other []).1 = .ok laterTags ∧
      (∀ command ∈ (again.run builder digest other []).2, ∃ tag, Fetches tag command) ∧
      ∀ node, builder.Needs again.targets node →
        Present builder digest otherImages (again.run builder digest other []).2 node := by
  have tagged : ∀ node, builder.Needs again.targets node →
      ∃ tag ∈ (otherImages []).registry, (builder.recipe digest).Yields node tag := by
    intro node needed
    obtain ⟨tag, _, yields, _⟩ := run_present keeps first (fewer node needed)
    have inRegistry := run_shares keeps remote pushes shared first ⟨node, fewer node needed, yields⟩
    exact ⟨tag, registry tag inRegistry, yields⟩
  exact run_fetches keepsToo remoteToo cached reaches (ready_again first printsNoTag fun node needed =>
    (tagged node needed).imp fun _ => And.right) tagged

theorem layered_images_shared : ∃ registry,
    ∀ command ∈ ((Layered.call false).run Layered.builder zeroDigest
      (Layered.docker registry).host []).2, ∃ tag, Fetches tag command := by
  obtain ⟨generatedTags, first⟩ := Layered.succeeds
  refine ⟨((Layered.docker []).after
    ((Layered.call false).run Layered.builder zeroDigest (Layered.docker []).host []).2).registry, ?_⟩
  obtain ⟨_, _, only, _⟩ := registry_spares_builds (Layered.docker []).keepsImages Layered.remote
    (Docker.pushes fun _ _ => rfl) (fun _ _ absent => absurd absent List.not_mem_nil) first (Layered.docker _).keepsImages
    (Docker.reaches fun _ _ => rfl) (fun _ pushed => pushed) (fun _ needed => needed) Layered.remote rfl rfl
  exact only

theorem yielded_not_passed {project : Project}
    (loaded : newDockerBuilder project.display project.configFile project.searchPaths = .ok builder)
    (protects : ¬ project.Unprotected) {imageName tag : Str}
    (yields : (builder.recipe project.digest).Yields (some imageName) tag)
    (cancellation : Cancellation) (batchSize thresholdDays : Int) :
    tag ∉ (project.cleanupImages cancellation batchSize thresholdDays).1 := by
  intro passed
  rcases (project.passed_spec passed).2.2 with ⟨ignored, computed, free⟩
  rw [Project.getIgnoredImages] at computed
  cases calculated : project.allTags with
  | ok tags =>
    rw [calculated] at computed
    cases computed
    rw [Project.allTags, getAllDockerImageTags, loaded] at calculated
    exact free (mem_calculateTags project.digest calculated yields)
  | error raised =>
    rw [calculated] at computed
    cases raised with
    | systemExit => cases computed
    | exception exception =>
      exact protects ((tagsRaise_iff _ project.digest _ _ _).mpr ⟨exception, calculated⟩)

/-- A cleanup costs no build: after a run that succeeds and a `docker_cleanup` of the same project, with
any threshold and cut short at any point, a run for the same images still finds them all. -/
theorem cleanup_spares_builds {project : Project}
    (loaded : newDockerBuilder project.display project.configFile project.searchPaths = .ok builder)
    (protects : ¬ project.Unprotected) (keeps : KeepsImages host images)
    {generatedTags : Table Node Str}
    (first : (call.run builder project.digest host []).1 = .ok generatedTags)
    (cancellation : Cancellation) (batchSize thresholdDays : Int) {later : DockerHost}
    {laterImages : List DockerCommand → Images} (keepsLater : KeepsImages later laterImages)
    (swept : ∀ tag ∈ (images (call.run builder project.digest host []).2).here,
      tag ∉ (project.cleanupImages cancellation batchSize thresholdDays).1 → tag ∈ (laterImages []).here)
    {again : BuildCall}
    (fewer : ∀ node, builder.Needs again.targets node → builder.Needs call.targets node)
    (cached : again.options.noCache = false) (printsNoTag : again.options.printTagMode = false) :
    ∃ laterTags, (again.run builder project.digest later []).1 = .ok laterTags ∧
      OnlyLooked laterImages [] (again.run builder project.digest later []).2 := by
  have present : ∀ node, builder.Needs again.targets node →
      Present builder project.digest laterImages [] node := by
    intro node needed
    obtain ⟨tag, _, yields, here⟩ := run_present keeps first (fewer node needed)
    obtain ⟨imageName, rfl⟩ := yields_named yields
    have kept := yielded_not_passed loaded protects yields cancellation batchSize thresholdDays
    exact ⟨tag, yields, swept tag here kept⟩
  exact run_looks keepsLater cached (ready_again first printsNoTag fun node needed =>
    (present node needed).imp fun _ => And.left) present

theorem layered_cleanup_spares : ∃ images laterTags,
    ((Layered.call false).run Layered.builder zeroDigest (Docker.host ⟨images, fun _ _ => 0⟩) []).1 =
      .ok laterTags := by
  obtain ⟨generatedTags, first⟩ := Layered.succeeds
  let kept := ((Layered.docker []).after
    ((Layered.call false).run Layered.builder zeroDigest (Layered.docker []).host []).2).here.filter
      (fun tag => !(Layered.project.cleanupImages uncancelled 4 7).1.contains tag)
  obtain ⟨laterTags, ok, _⟩ := cleanup_spares_builds Layered.loaded Layered.protects
    (Layered.docker []).keepsImages first uncancelled 4 7 (Docker.mk ⟨kept, []⟩ fun _ _ => 0).keepsImages
    (fun tag here free => List.mem_filter.mpr ⟨here, by simpa using free⟩) (fun _ needed => needed)
    rfl rfl
  exact ⟨⟨kept, []⟩, laterTags, ok⟩

end Guarantees

end EzSdk.Devkit
