import Mathlib.Data.List.Dedup
import Mathlib.Data.List.Sort
import Mathlib.Logic.Relation
import Mathlib.Order.Extension.Linear

/-! Lists in which everything comes after what it needs. A finite number of nodes can be
listed so exactly when none of them needs itself. -/

namespace EzSdk.DependencyOrders

open Relation

variable {Node : Type} {needs : Node → Node → Prop}

/-- Whatever a node of the list needs is before it. -/
def Ordered (needs : Node → Node → Prop) (order : List Node) : Prop :=
  ∀ earlier node later, order = earlier ++ node :: later → ∀ other, needs node other → other ∈ earlier

/-- No node needs itself, by way of others or at once. -/
def Acyclic (needs : Node → Node → Prop) : Prop := ∀ node, ¬ TransGen needs node node

theorem ordered_before {order : List Node} (ordered : Ordered needs order) {node other : Node}
    (path : TransGen needs node other) {earlier later : List Node}
    (split : order = earlier ++ node :: later) : other ∈ earlier := by
  induction path with
  | single needed => exact ordered earlier node later split _ needed
  | tail _ needed ih =>
    obtain ⟨first, second, rfl⟩ := List.append_of_mem ih
    have whole := split.trans (List.append_assoc ..)
    exact List.mem_append_left _ (ordered first _ _ whole _ needed)

/-- A node of an ordered list does not need itself. -/
theorem not_needs_self {order : List Node} (nodup : order.Nodup) (ordered : Ordered needs order)
    {node : Node} (member : node ∈ order) : ¬ TransGen needs node node := by
  intro path
  obtain ⟨earlier, later, split⟩ := List.append_of_mem member
  have before := ordered_before ordered path split
  exact List.disjoint_of_nodup_append (split ▸ nodup) before List.mem_cons_self

theorem isPartialOrder_of_acyclic (acyclic : Acyclic needs) :
    IsPartialOrder Node (fun other node => ReflTransGen needs node other) where
  refl _ := .refl
  trans _ _ _ first second := second.trans first
  antisymm := by
    intro other node forth back
    rcases reflTransGen_iff_eq_or_transGen.mp forth with same | path
    · exact same
    · exact absurd (path.trans_left back) (acyclic node)

/-- The nodes of a list can be ordered if none needs itself. -/
theorem exists_ordered (acyclic : Acyclic needs) (nodes : List Node)
    (closed : ∀ node ∈ nodes, ∀ other, needs node other → other ∈ nodes) :
    ∃ order : List Node, order.Nodup ∧ (∀ node, node ∈ order ↔ node ∈ nodes) ∧ Ordered needs order := by
  classical
  have partialOrder := isPartialOrder_of_acyclic acyclic
  obtain ⟨before, linear, extends_⟩ :=
    extend_partialOrder (fun other node => ReflTransGen needs node other)
  let order := nodes.dedup.insertionSort before
  have permuted : order.Perm nodes.dedup := List.perm_insertionSort before nodes.dedup
  have nodup : order.Nodup := permuted.nodup_iff.mpr nodes.nodup_dedup
  have complete (node : Node) : node ∈ order ↔ node ∈ nodes :=
    permuted.mem_iff.trans List.mem_dedup
  refine ⟨order, nodup, complete, ?_⟩
  intro earlier node later split other needed
  have placed : other ∈ earlier ++ node :: later := by
    rw [← split, complete]
    have member : node ∈ order := split ▸ List.mem_append_right earlier List.mem_cons_self
    exact closed node ((complete node).mp member) other needed
  have sorted : (earlier ++ node :: later).Pairwise before :=
    split ▸ List.pairwise_insertionSort before nodes.dedup
  rcases List.mem_append.mp placed with first | second
  · exact first
  · -- what stands after the node would also be before it
    rcases List.mem_cons.mp second with rfl | after
    · exact absurd (TransGen.single needed) (acyclic other)
    · have above : before node other :=
        List.rel_of_pairwise_cons (List.pairwise_append.mp sorted).2.1 after
      have below : before other node := extends_ _ _ (ReflTransGen.single needed)
      have same : node = other := antisymm above below
      exact absurd (TransGen.single (same ▸ needed)) (acyclic other)

end EzSdk.DependencyOrders
