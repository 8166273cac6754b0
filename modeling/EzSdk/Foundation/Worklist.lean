import EzSdk.Foundation.Runs
import Mathlib.Algebra.Order.BigOperators.Group.List
import Mathlib.Algebra.Order.Group.Nat
import Mathlib.Algebra.Ring.Nat
import Mathlib.Logic.Relation

/-! Visiting a graph from some start with a set of nodes that are still to be visited, from
which the next node is taken in any order. -/

namespace EzSdk.Worklist

open Relation

variable {Node : Type} [DecidableEq Node]

/-- Both lists stand for sets. -/
structure Progress (Node : Type) where
  todo : List Node
  visited : List Node

/-- Take a node that is still to be visited. -/
def step (next : Node → List Node) (progress : Progress Node) (node : Node) : Option (Progress Node) :=
  if node ∈ progress.todo then
    let others := progress.todo.filter (· ≠ node)
    if node ∈ progress.visited then some { progress with todo := others }
    else some ⟨others ++ next node, node :: progress.visited⟩
  else none

/-- A visit from the start, up to where nothing is left to be visited. -/
structure Visit (next : Node → List Node) (start : List Node) where
  taken : List Node
  visited : List Node
  ends : Runs.run (step next) ⟨start, []⟩ taken = some ⟨[], visited⟩

variable {next : Node → List Node}

def Leads (next : Node → List Node) (node other : Node) : Prop := other ∈ next node

/-- The nodes that have been visited or will be. -/
def Progress.Known (progress : Progress Node) (node : Node) : Prop :=
  node ∈ progress.todo ∨ node ∈ progress.visited

theorem known_step {progress after : Progress Node} {node other : Node}
    (taken : step next progress node = some after) (known : progress.Known other) :
    after.Known other := by
  simp only [step, Option.ite_none_right_eq_some] at taken
  obtain ⟨_, taken⟩ := taken
  split at taken
  · rename_i visited
    cases taken
    rcases known with todo | seen
    · by_cases same : other = node
      · exact .inr (same ▸ visited)
      · exact .inl (List.mem_filter.mpr ⟨todo, decide_eq_true same⟩)
    · exact .inr seen
  · cases taken
    rcases known with todo | seen
    · by_cases same : other = node
      · exact .inr (List.mem_cons.mpr (.inl same))
      · exact .inl (List.mem_append_left _ (List.mem_filter.mpr ⟨todo, decide_eq_true same⟩))
    · exact .inr (List.mem_cons_of_mem node seen)

/-- What a visited node leads to is known. -/
def Followed (next : Node → List Node) (progress : Progress Node) : Prop :=
  ∀ node ∈ progress.visited, ∀ other ∈ next node, progress.Known other

theorem followed_step {progress after : Progress Node} {node : Node}
    (followed : Followed next progress) (taken : step next progress node = some after) :
    Followed next after := by
  intro visited member other leads
  by_cases old : visited ∈ progress.visited
  · exact known_step taken (followed visited old other leads)
  · simp only [step, Option.ite_none_right_eq_some] at taken
    obtain ⟨_, taken⟩ := taken
    split at taken
    · cases taken
      exact absurd member old
    · cases taken
      have same : visited = node := (List.mem_cons.mp member).resolve_right old
      exact .inl (List.mem_append_right _ (same ▸ leads))

theorem Visit.visits_start {start : List Node} (visit : Visit next start) {node : Node}
    (member : node ∈ start) : node ∈ visit.visited := by
  have known := Runs.run_preserves (fun progress => Progress.Known progress node)
    (fun _ _ _ known taken => known_step taken known) _ _ _ (.inl member) visit.ends
  exact known.resolve_left List.not_mem_nil

theorem Visit.closed {start : List Node} (visit : Visit next start) {node other : Node}
    (member : node ∈ visit.visited) (leads : other ∈ next node) : other ∈ visit.visited := by
  have followed := Runs.run_preserves (Followed next)
    (fun _ _ _ followed taken => followed_step followed taken) _ _ _
    (fun _ absent => absurd absent List.not_mem_nil) visit.ends
  exact (followed node member other leads).resolve_left List.not_mem_nil

/-- Nothing is visited that the start does not lead to. -/
def Within (next : Node → List Node) (start : List Node) (progress : Progress Node) : Prop :=
  ∀ node, progress.Known node → ∃ first ∈ start, ReflTransGen (Leads next) first node

theorem within_step {start : List Node} {progress after : Progress Node} {node : Node}
    (within : Within next start progress) (taken : step next progress node = some after) :
    Within next start after := by
  simp only [step, Option.ite_none_right_eq_some] at taken
  obtain ⟨member, taken⟩ := taken
  split at taken
  · cases taken
    rintro other (todo | seen)
    · exact within other (.inl (List.mem_filter.mp todo).1)
    · exact within other (.inr seen)
  · cases taken
    obtain ⟨first, begins, path⟩ := within node (.inl member)
    rintro other (todo | seen)
    · rcases List.mem_append.mp todo with kept | leads
      · exact within other (.inl (List.mem_filter.mp kept).1)
      · exact ⟨first, begins, path.tail leads⟩
    · rcases List.mem_cons.mp seen with rfl | old
      · exact ⟨first, begins, path⟩
      · exact within other (.inr old)

/-- A visit reaches what the start leads to, and nothing else. -/
theorem Visit.mem_visited_iff {start : List Node} (visit : Visit next start) (node : Node) :
    node ∈ visit.visited ↔ ∃ first ∈ start, ReflTransGen (Leads next) first node := by
  constructor
  · intro visited
    have within := Runs.run_preserves (Within next start)
      (fun _ _ _ within taken => within_step within taken) _ _ _
      (fun other known => ⟨other, known.resolve_right List.not_mem_nil, .refl⟩) visit.ends
    exact within node (.inr visited)
  · rintro ⟨first, begins, path⟩
    induction path with
    | refl => exact visit.visits_start begins
    | tail _ leads ih => exact visit.closed ih leads

/-- The nodes that are still to be visited, and those that the nodes not visited may add. -/
def Progress.effort (next : Node → List Node) (nodes : List Node) (progress : Progress Node) : Nat :=
  progress.todo.length +
    ((nodes.filter (· ∉ progress.visited)).map (fun node => (next node).length)).sum

theorem sum_filter_ne (weight : Node → Nat) (nodes : List Node) {node : Node} (member : node ∈ nodes) :
    ((nodes.filter (· ≠ node)).map weight).sum + weight node ≤ (nodes.map weight).sum := by
  obtain ⟨before, after, rfl⟩ := List.append_of_mem member
  have fewer (part : List Node) : ((part.filter (· ≠ node)).map weight).sum ≤ (part.map weight).sum :=
    (List.filter_sublist.map weight).sum_le_sum (fun _ _ => Nat.zero_le _)
  have first := fewer before
  have second := fewer after
  rw [List.filter_append, List.filter_cons_of_neg (by simp)]
  simp only [List.map_append, List.map_cons, List.sum_append, List.sum_cons]
  omega

/-- Every step takes some of the effort. -/
theorem step_effort {nodes : List Node} {progress after : Progress Node} {node : Node}
    (within : ∀ other ∈ progress.todo, other ∈ nodes) (taken : step next progress node = some after) :
    after.effort next nodes < progress.effort next nodes := by
  simp only [step, Option.ite_none_right_eq_some] at taken
  obtain ⟨member, taken⟩ := taken
  have shorter : (progress.todo.filter (· ≠ node)).length < progress.todo.length :=
    List.length_filter_lt_length_iff_exists.mpr ⟨node, member, by simp⟩
  split at taken
  · cases taken
    exact Nat.add_lt_add_right shorter _
  · rename_i fresh
    cases taken
    have unseen : node ∈ nodes.filter (· ∉ progress.visited) :=
      List.mem_filter.mpr ⟨within node member, decide_eq_true fresh⟩
    have spent := sum_filter_ne (fun other => (next other).length) _ unseen
    have remaining : nodes.filter (· ∉ node :: progress.visited) =
        (nodes.filter (· ∉ progress.visited)).filter (· ≠ node) := by
      rw [List.filter_filter]
      apply List.filter_congr
      intro other _
      simp only [List.mem_cons, not_or, Bool.decide_and]
    simp only [Progress.effort, remaining, List.length_append]
    omega

/-- What is to be visited stays among the nodes of the graph. -/
theorem todo_step {nodes : List Node} (inGraph : ∀ node, ∀ other ∈ next node, other ∈ nodes)
    {progress after : Progress Node} {node : Node} (within : ∀ other ∈ progress.todo, other ∈ nodes)
    (taken : step next progress node = some after) : ∀ other ∈ after.todo, other ∈ nodes := by
  simp only [step, Option.ite_none_right_eq_some] at taken
  obtain ⟨_, taken⟩ := taken
  split at taken
  · cases taken
    exact fun other kept => within other (List.mem_filter.mp kept).1
  · cases taken
    intro other known
    rcases List.mem_append.mp known with kept | leads
    · exact within other (List.mem_filter.mp kept).1
    · exact inGraph node other leads

/-- A node that is still to be visited can be taken. -/
theorem step_isSome {progress : Progress Node} {node : Node} (member : node ∈ progress.todo) :
    ∃ after, step next progress node = some after := by
  simp only [step, if_pos member]
  split
  · exact ⟨_, rfl⟩
  · exact ⟨_, rfl⟩

/-- In a finite graph no visit takes more steps than its effort at the start, whichever nodes
are taken. -/
theorem run_bounded (nodes : List Node) (inGraph : ∀ node, ∀ other ∈ next node, other ∈ nodes)
    (taken : List Node) (progress final : Progress Node)
    (within : ∀ other ∈ progress.todo, other ∈ nodes)
    (ran : Runs.run (step next) progress taken = some final) :
    taken.length + final.effort next nodes ≤ progress.effort next nodes := by
  induction taken generalizing progress with
  | nil =>
    cases ran
    exact Nat.le_of_eq (Nat.zero_add _)
  | cons node taken ih =>
    obtain ⟨after, first, rest⟩ := (Runs.run_cons ..).mp ran
    have more := ih after (todo_step inGraph within first) rest
    have less := step_effort within first
    rw [List.length_cons]
    omega

/-- In a finite graph a visit that has begun comes to its end, whichever node is taken
first. -/
theorem ends_from (nodes : List Node) (inGraph : ∀ node, ∀ other ∈ next node, other ∈ nodes)
    (progress : Progress Node) (within : ∀ other ∈ progress.todo, other ∈ nodes) :
    ∃ taken visited, Runs.run (step next) progress taken = some ⟨[], visited⟩ := by
  cases left : progress.todo with
  | nil => exact ⟨[], progress.visited, by rw [Runs.run, ← left]⟩
  | cons node rest =>
    have member : node ∈ progress.todo := left ▸ List.mem_cons_self
    obtain ⟨after, taken⟩ := step_isSome member
    have smaller := step_effort within taken
    obtain ⟨more, visited, ends⟩ := ends_from nodes inGraph after (todo_step inGraph within taken)
    exact ⟨node :: more, visited, (Runs.run_cons ..).mpr ⟨after, taken, ends⟩⟩
termination_by progress.effort next nodes
decreasing_by exact smaller

theorem visit_exists (nodes start : List Node)
    (inGraph : ∀ node, ∀ other ∈ next node, other ∈ nodes) (within : ∀ node ∈ start, node ∈ nodes) :
    Nonempty (Visit next start) := by
  obtain ⟨taken, visited, ends⟩ := ends_from nodes inGraph ⟨start, []⟩ within
  exact ⟨⟨taken, visited, ends⟩⟩

end EzSdk.Worklist
