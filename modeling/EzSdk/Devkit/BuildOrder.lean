import EzSdk.Devkit.BuildImages
import EzSdk.Foundation.DependencyOrders

/-! The order in which `get_build_order` of `docker/build.py` lists the images that some
targets need. -/

namespace EzSdk.Devkit

open DependencyOrders Relation Worklist

/-- The first image has the second among its dependencies. -/
abbrev DependsOn (graph : Graph) : Node → Node → Prop := Leads (neighbours graph)

/-- A target is the image, or depends on it by way of others. -/
def ReachableFrom (graph : Graph) (targets : List Str) (node : Node) : Prop :=
  ∃ target ∈ targets, ReflTransGen (DependsOn graph) (some target) node

/-- A target needs an image that needs itself. -/
def CycleFrom (graph : Graph) (targets : List Str) : Prop :=
  ∃ node, ReachableFrom graph targets node ∧ TransGen (DependsOn graph) node node

/-- The images that the targets need, every one once and after its dependencies. -/
structure ReachableOrder (graph : Graph) (targets : List Str) (order : List Node) : Prop where
  nodup : order.Nodup
  complete : ∀ node, node ∈ order ↔ ReachableFrom graph targets node
  ordered : Ordered (DependsOn graph) order

/-- Whichever node is taken from `nodes_to_visit`, the loop can take its turn, and it takes
no more turns than some number. -/
def LoopEnds (graph : Graph) (targets : List Str) : Prop :=
  ∃ bound, ∀ taken progress,
    Runs.run (step (neighbours graph)) ⟨targets.map some, []⟩ taken = some progress →
      taken.length ≤ bound ∧
        ∀ node ∈ progress.todo, ∃ after, step (neighbours graph) progress node = some after

/-! ### Cycles and topological orders -/

section Cycles

variable {graph : Graph}

theorem dependsOn_iff (node other : Node) :
    DependsOn graph node other ↔ ∃ entry ∈ graph, some entry.1 = node ∧ other ∈ entry.2 :=
  mem_neighbours graph node other

theorem TopologicalOrder.ordered {order : List Node} (sorted : TopologicalOrder graph order) :
    Ordered (DependsOn graph) order := by
  intro earlier node later split other depends
  obtain ⟨entry, member, rfl, inside⟩ := (dependsOn_iff node other).mp depends
  exact sorted.before entry member other inside earlier later split

/-- `graphlib` finds an order exactly when there is no cycle. -/
theorem exists_topologicalOrder_iff :
    (∃ order, TopologicalOrder graph order) ↔ Acyclic (DependsOn graph) := by
  constructor
  · rintro ⟨order, sorted⟩ node cycle
    obtain ⟨other, first, _⟩ := TransGen.head'_iff.mp cycle
    obtain ⟨entry, member, rfl, _⟩ := (dependsOn_iff node other).mp first
    have placed : some entry.1 ∈ order := (sorted.complete _).mpr ⟨entry, member, .inl rfl⟩
    exact not_needs_self sorted.nodup sorted.ordered placed cycle
  · intro acyclic
    have closed : ∀ node ∈ graph.flatMap (fun entry => some entry.1 :: entry.2),
        ∀ other, DependsOn graph node other →
          other ∈ graph.flatMap (fun entry => some entry.1 :: entry.2) := by
      intro node _ other depends
      obtain ⟨entry, member, _, inside⟩ := (dependsOn_iff node other).mp depends
      exact List.mem_flatMap.mpr ⟨entry, member, List.mem_cons_of_mem _ inside⟩
    obtain ⟨order, nodup, complete, ordered⟩ := exists_ordered acyclic _ closed
    refine ⟨order, nodup, ?_, ?_⟩
    · intro node
      simp only [complete, List.mem_flatMap, List.mem_cons]
    · intro entry member dependency depends earlier later split
      exact ordered earlier _ later split dependency
        ((dependsOn_iff _ _).mpr ⟨entry, member, rfl, depends⟩)

end Cycles

/-! ### The part of the graph that is visited -/

section Subgraph

variable {graph : Graph} {targets : List Str}
  (visit : Visit (neighbours graph) (targets.map some))

/-- `subgraph` -/
def VisitedPart (part : Graph) : Prop :=
  ∀ entry, entry ∈ part ↔ entry ∈ graph ∧ some entry.1 ∈ visit.visited

theorem visitedPart_filter :
    VisitedPart visit (graph.filter (fun entry => some entry.1 ∈ visit.visited)) := by
  intro entry
  rw [List.mem_filter, decide_eq_true_eq]

theorem mem_visited_iff_reachable (node : Node) :
    node ∈ visit.visited ↔ ReachableFrom graph targets node := by
  rw [visit.mem_visited_iff]
  constructor
  · rintro ⟨first, begins, path⟩
    obtain ⟨target, member, rfl⟩ := List.mem_map.mp begins
    exact ⟨target, member, path⟩
  · rintro ⟨target, member, path⟩
    exact ⟨some target, List.mem_map_of_mem member, path⟩

variable {visit} {part : Graph} (isPart : VisitedPart visit part)
include isPart

/-- An image that is visited keeps its dependencies. -/
theorem dependsOn_visitedPart (node other : Node) :
    DependsOn part node other ↔ node ∈ visit.visited ∧ DependsOn graph node other := by
  rw [dependsOn_iff, dependsOn_iff]
  constructor
  · rintro ⟨entry, member, rfl, depends⟩
    obtain ⟨inGraph, visited⟩ := (isPart entry).mp member
    exact ⟨visited, entry, inGraph, rfl, depends⟩
  · rintro ⟨visited, entry, inGraph, rfl, depends⟩
    exact ⟨entry, (isPart entry).mpr ⟨inGraph, visited⟩, rfl, depends⟩

theorem path_visitedPart {node other : Node} (visited : node ∈ visit.visited)
    (path : TransGen (DependsOn graph) node other) :
    other ∈ visit.visited ∧ TransGen (DependsOn part) node other := by
  induction path with
  | single depends =>
    exact ⟨visit.closed visited depends,
      .single ((dependsOn_visitedPart isPart _ _).mpr ⟨visited, depends⟩)⟩
  | tail _ depends ih =>
    exact ⟨visit.closed ih.1 depends,
      ih.2.tail ((dependsOn_visitedPart isPart _ _).mpr ⟨ih.1, depends⟩)⟩

/-- Only the cycles that the targets reach are in the subgraph. -/
theorem acyclic_visitedPart_iff :
    Acyclic (DependsOn part) ↔ ¬ CycleFrom graph targets := by
  constructor
  · rintro acyclic ⟨node, reachable, cycle⟩
    have visited := (mem_visited_iff_reachable visit node).mpr reachable
    exact acyclic node (path_visitedPart isPart visited cycle).2
  · intro none node cycle
    obtain ⟨other, first, _⟩ := TransGen.head'_iff.mp cycle
    have visited := ((dependsOn_visitedPart isPart node other).mp first).1
    refine none ⟨node, (mem_visited_iff_reachable visit node).mp visited, ?_⟩
    exact TransGen.mono (fun _ _ depends => ((dependsOn_visitedPart isPart _ _).mp depends).2) _ _ cycle

theorem node_visitedPart_iff (configured : ∀ target ∈ targets, ∃ nodes, (target, nodes) ∈ graph)
    (node : Node) :
    (∃ entry ∈ part, node = some entry.1 ∨ node ∈ entry.2) ↔
      ReachableFrom graph targets node := by
  constructor
  · rintro ⟨entry, member, isNode⟩
    obtain ⟨inGraph, visited⟩ := (isPart entry).mp member
    rw [← mem_visited_iff_reachable visit]
    rcases isNode with rfl | depends
    · exact visited
    · exact visit.closed visited ((dependsOn_iff _ _).mpr ⟨entry, inGraph, rfl, depends⟩)
  · rintro ⟨target, member, path⟩
    rcases path.cases_tail with same | ⟨other, before, depends⟩
    · obtain ⟨nodes, inGraph⟩ := configured target member
      have visited := visit.visits_start (List.mem_map_of_mem member)
      exact ⟨(target, nodes), (isPart _).mpr ⟨inGraph, visited⟩, .inl same⟩
    · have visited := (mem_visited_iff_reachable visit other).mpr ⟨target, member, before⟩
      obtain ⟨entry, inPart, _, inside⟩ :=
        (dependsOn_iff other node).mp ((dependsOn_visitedPart isPart other node).mpr ⟨visited, depends⟩)
      exact ⟨entry, inPart, .inr inside⟩

theorem reachableOrder_of_sorted
    (configured : ∀ target ∈ targets, ∃ nodes, (target, nodes) ∈ graph) {order : List Node}
    (sorted : TopologicalOrder part order) : ReachableOrder graph targets order where
  nodup := sorted.nodup
  complete node := (sorted.complete node).trans (node_visitedPart_iff isPart configured node)
  ordered := by
    intro earlier node later split other depends
    have member : node ∈ order := split ▸ List.mem_append_right earlier List.mem_cons_self
    have reachable := (node_visitedPart_iff isPart configured node).mp ((sorted.complete node).mp member)
    have visited := (mem_visited_iff_reachable visit node).mpr reachable
    exact sorted.ordered earlier node later split other
      ((dependsOn_visitedPart isPart node other).mpr ⟨visited, depends⟩)

end Subgraph

/-! ### The build order -/

theorem loop_ends (graph : Graph) (targets : List Str) : LoopEnds graph targets := by
  have inGraph : ∀ node, ∀ other ∈ neighbours graph node,
      other ∈ targets.map some ++ graph.flatMap Prod.snd := by
    intro node other leads
    obtain ⟨entry, member, _, depends⟩ := (mem_neighbours ..).mp leads
    exact List.mem_append_right _ (List.mem_flatMap.mpr ⟨entry, member, depends⟩)
  refine ⟨(Progress.mk (targets.map some) []).effort (neighbours graph)
    (targets.map some ++ graph.flatMap Prod.snd), fun taken progress ran => ⟨?_, ?_⟩⟩
  · exact Nat.le_of_add_right_le
      (run_bounded _ inGraph taken _ progress (fun node member => List.mem_append_left _ member) ran)
  · exact fun node member => step_isSome member

theorem getDependencySubgraph_spec {builder : DockerBuilder} {graph : Graph}
    (built : builder.fullGraph = .ok graph) {targets : List Str}
    (configured : ∀ target ∈ targets, ∃ nodes, (target, nodes) ∈ graph) (sorter : Sorter)
    (visitor : Visitor) :
    (¬ CycleFrom graph targets → ∃ order,
      builder.getDependencySubgraph sorter visitor targets = .ok order ∧
        ReachableOrder graph targets order) ∧
    (CycleFrom graph targets → builder.getDependencySubgraph sorter visitor targets = exit) := by
  have isPart := visitedPart_filter (visitor graph targets)
  have cycles := acyclic_visitedPart_iff isPart
  simp only [DockerBuilder.getDependencySubgraph, built, bind, Except.bind]
  cases sorter (graph.filter (fun entry => some entry.1 ∈ (visitor graph targets).visited)) with
  | order nodes sorted =>
    have acyclic := cycles.mp (exists_topologicalOrder_iff.mp ⟨nodes, sorted⟩)
    exact ⟨fun _ => ⟨nodes, rfl, reachableOrder_of_sorted isPart configured sorted⟩,
      fun cycle => absurd cycle acyclic⟩
  | cycle cyclic =>
    refine ⟨fun acyclic => ?_, fun _ => rfl⟩
    obtain ⟨order, sorted⟩ := exists_topologicalOrder_iff.mpr (cycles.mpr acyclic)
    exact absurd sorted (cyclic order)

theorem joinNames_reachable {graph : Graph} (named : ∀ entry ∈ graph, none ∉ entry.2)
    {targets : List Str} {order : List Node} (reachable : ReachableOrder graph targets order) :
    DockerBuilder.joinNames order = .ok () := by
  apply if_neg
  intro member
  obtain ⟨target, _, path⟩ := (reachable.complete none).mp member
  rcases path.cases_tail with same | ⟨other, _, depends⟩
  · cases same
  · obtain ⟨entry, inGraph, _, inside⟩ := (dependsOn_iff other none).mp depends
    exact named entry inGraph inside

theorem build_order_reachable {builder : DockerBuilder} {graph : Graph}
    (built : builder.fullGraph = .ok graph) (named : ∀ entry ∈ graph, none ∉ entry.2)
    {targets : List Str} (someTarget : targets ≠ [])
    (configured : ∀ target ∈ targets, ∃ nodes, (target, nodes) ∈ graph) :
    LoopEnds graph targets ∧ ∀ (sorter : Sorter) (visitor : Visitor),
      ((∃ order, builder.getBuildOrderFor sorter visitor targets = .ok order ∧
          ReachableOrder graph targets order) ∨
        builder.getBuildOrderFor sorter visitor targets = exit) ∧
      (builder.getBuildOrderFor sorter visitor targets = exit ↔ CycleFrom graph targets) := by
  refine ⟨loop_ends graph targets, fun sorter visitor => ?_⟩
  obtain ⟨finds, fails⟩ := getDependencySubgraph_spec built configured sorter visitor
  have unfolded : builder.getBuildOrderFor sorter visitor targets = do
      let imagesToProcess ← builder.getDependencySubgraph sorter visitor targets
      DockerBuilder.joinNames imagesToProcess
      return imagesToProcess := if_neg someTarget
  rw [unfolded]
  by_cases cycle : CycleFrom graph targets
  · simp [fails cycle, cycle, bind, Except.bind]
  · obtain ⟨order, found, reachable⟩ := finds cycle
    have joined := joinNames_reachable named reachable
    have result : (do
        let imagesToProcess ← builder.getDependencySubgraph sorter visitor targets
        DockerBuilder.joinNames imagesToProcess
        return imagesToProcess) = .ok order := by
      simp [found, joined, bind, Except.bind, pure, Except.pure]
    rw [result]
    refine ⟨.inl ⟨order, rfl, reachable⟩, ?_⟩
    simp [cycle]

/-- An image on top of two others, of which one is not configured, beside two images that
need each other. -/
def tangledBuilder : DockerBuilder where
  searchPaths := []
  repo := []
  space := py "devkit"
  extraMaps := ⟨∅, ∅, ∅⟩
  imageConfigsMap :=
    let image (deps : List (Str × Json)) : Json := .obj [(py "deps", .obj deps)]
    (AList.insert (py "dev-env") (image [(py "BASE", .str (py "build-env")),
        (py "TOOLS", .str (py "upstream"))])
      (AList.insert (py "build-env") (image [(py "BASE", .str (py "upstream"))])
        (AList.insert (py "left") (image [(py "BASE", .str (py "right"))])
          (AList.insert (py "right") (image [(py "BASE", .str (py "left"))]) ∅))))

def tangledGraph : Graph :=
  [(py "dev-env", [some (py "build-env"), some (py "upstream")]),
    (py "build-env", [some (py "upstream")]), (py "left", [some (py "right")]),
    (py "right", [some (py "left")])]

/-- The images that `dev-env` needs, each before those that need it. -/
def tangledOrder : List Node :=
  [some (py "upstream"), some (py "build-env"), some (py "dev-env")]

theorem tangled_step {node other : Node} (member : node ∈ tangledOrder)
    (depends : DependsOn tangledGraph node other) :
    other ∈ tangledOrder ∧ tangledOrder.idxOf other < tangledOrder.idxOf node := by
  have checked : ∀ node ∈ tangledOrder, ∀ other ∈ neighbours tangledGraph node,
      other ∈ tangledOrder ∧ tangledOrder.idxOf other < tangledOrder.idxOf node := by decide
  exact checked node member other depends

theorem tangled_path {node other : Node} (member : node ∈ tangledOrder)
    (path : TransGen (DependsOn tangledGraph) node other) :
    other ∈ tangledOrder ∧ tangledOrder.idxOf other < tangledOrder.idxOf node := by
  induction path with
  | single depends => exact tangled_step member depends
  | tail _ depends ih =>
    have next := tangled_step ih.1 depends
    exact ⟨next.1, next.2.trans ih.2⟩

theorem tangled_acyclic : ¬ CycleFrom tangledGraph [py "dev-env", py "dev-env"] := by
  rintro ⟨node, ⟨target, member, path⟩, cycle⟩
  have start : some target ∈ tangledOrder := by
    have same : target = py "dev-env" := by simpa using member
    rw [same]
    decide
  have reached : node ∈ tangledOrder := by
    rcases reflTransGen_iff_eq_or_transGen.mp path with same | path
    · exact same ▸ start
    · exact (tangled_path start path).1
  exact Nat.lt_irrefl _ (tangled_path reached cycle).2

theorem tangled_cyclic : CycleFrom tangledGraph [py "left"] := by
  refine ⟨some (py "left"), ⟨py "left", List.mem_singleton_self _, .refl⟩, ?_⟩
  have forth : DependsOn tangledGraph (some (py "left")) (some (py "right")) := by
    unfold DependsOn Leads
    decide
  have back : DependsOn tangledGraph (some (py "right")) (some (py "left")) := by
    unfold DependsOn Leads
    decide
  exact (TransGen.single forth).tail back

theorem tangled_build_order :
    tangledBuilder.fullGraph = .ok tangledGraph ∧ ∀ (sorter : Sorter) (visitor : Visitor),
      (∃ order, tangledBuilder.getBuildOrderFor sorter visitor [py "dev-env", py "dev-env"] =
        .ok order ∧ ReachableOrder tangledGraph [py "dev-env", py "dev-env"] order) ∧
      tangledBuilder.getBuildOrderFor sorter visitor [py "left"] = exit := by
  have built : tangledBuilder.fullGraph = .ok tangledGraph := rfl
  have named : ∀ entry ∈ tangledGraph, none ∉ entry.2 := by decide
  have devEnv : ∀ target ∈ [py "dev-env", py "dev-env"],
      ∃ nodes, (target, nodes) ∈ tangledGraph := by
    intro target member
    have same : target = py "dev-env" := by simpa using member
    exact ⟨[some (py "build-env"), some (py "upstream")], same ▸ List.mem_cons_self⟩
  have left : ∀ target ∈ [py "left"], ∃ nodes, (target, nodes) ∈ tangledGraph := by
    intro target member
    cases List.mem_singleton.mp member
    exact ⟨[some (py "right")], by decide⟩
  refine ⟨built, fun sorter visitor => ⟨?_, ?_⟩⟩
  · have found := (build_order_reachable built named (List.cons_ne_nil _ _) devEnv).2 sorter visitor
    exact found.1.resolve_right (fun exits => tangled_acyclic (found.2.mp exits))
  · have failed := (build_order_reachable built named (List.cons_ne_nil _ _) left).2 sorter visitor
    exact failed.2.mpr tangled_cyclic

end EzSdk.Devkit
