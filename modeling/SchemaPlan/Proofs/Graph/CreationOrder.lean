import SchemaPlan.Graph.CreationOrder
import SchemaPlan.Proofs.Graph.References
import SchemaPlan.Proofs.Order.Topological

/-!
# Orders of creation and deletion

* `creationOrder_spec`: every object is created once, and after all that it depends on.
* `exists_creationOrder_iff_of_closed`: there is such an order exactly when no object depends on
  itself, directly or through others.
-/

set_option autoImplicit false

namespace SchemaPlan.SchemaGraph

open SchemaPlan.Order

variable {graph : SchemaGraph} {order : List ObjectId}

/-- No object depends on itself, directly or through others. -/
def Acyclic (graph : SchemaGraph) : Prop :=
  ∀ id, ¬ Relation.TransGen (fun a b => b ∈ graph.dependencies a) id id

theorem keys_prerequisites (graph : SchemaGraph) :
    graph.prerequisites.map Prerequisites.key = graph.ids := by
  simp only [prerequisites, ids, List.map_map]
  rfl

theorem ascending_prerequisites (graph : SchemaGraph) :
    Ascending Prerequisites.key graph.prerequisites :=
  List.pairwise_map.2 graph.ascending

theorem mem_prerequisites_iff {a b : ObjectId} :
    (∃ entry ∈ graph.prerequisites, entry.key = a ∧ b ∈ entry.before) ↔
      b ∈ graph.dependencies a := by
  rw [mem_dependencies_iff, prerequisites]
  simp only [List.mem_map, exists_exists_and_eq_and]

theorem creationOrder_eq_ok_iff :
    graph.creationOrder = .ok order ↔ Topological.sort graph.prerequisites = .ok order := by
  rw [creationOrder]
  split
  · rename_i heq
    rw [heq]
    simp only [Except.ok.injEq]
  · rename_i heq
    rw [heq]
    simp only [reduceCtorEq]

/-- **Every object is created once, and after all that it depends on.** -/
theorem creationOrder_spec (h : graph.creationOrder = .ok order) :
    order.Perm graph.ids ∧ (∀ id, id ∉ graph.dependencies id) ∧
      order.Pairwise fun a b => b ∉ graph.dependencies a := by
  obtain ⟨hperm, hself, hpairs⟩ :=
    Topological.sort_spec graph.ascending_prerequisites (creationOrder_eq_ok_iff.1 h)
  rw [keys_prerequisites] at hperm
  refine ⟨hperm, fun id hid => ?_, hpairs.imp fun {a b} hab hb => ?_⟩
  · obtain ⟨entry, hentry, rfl, hbefore⟩ := mem_prerequisites_iff.2 hid
    exact hself entry hentry hbefore
  · obtain ⟨entry, hentry, hkey, hbefore⟩ := mem_prerequisites_iff.2 hb
    exact hab entry hentry hkey hbefore

theorem deletionOrder_eq_ok_iff :
    graph.deletionOrder = .ok order ↔ graph.creationOrder = .ok order.reverse := by
  rw [deletionOrder]
  split
  · rename_i heq
    rw [heq, Except.ok.injEq, Except.ok.injEq, List.reverse_eq_iff]
  · rename_i heq
    rw [heq]
    simp only [reduceCtorEq]

/-- An object is dropped before each that it depends on. -/
theorem idxOf_lt_of_deletionOrder (h : graph.deletionOrder = .ok order) {a b : ObjectId}
    (hdep : b ∈ graph.dependencies a) (hb : b ∈ graph.ids) : order.idxOf a < order.idxOf b := by
  obtain ⟨hperm, hself, hpairs⟩ := creationOrder_spec (deletionOrder_eq_ok_iff.1 h)
  have hne : b ≠ a := by
    rintro rfl
    exact hself b hdep
  have hmem : ∀ {id}, id ∈ graph.ids → id ∈ order := fun hid =>
    List.mem_reverse.1 (hperm.mem_iff.2 hid)
  exact Topological.idxOf_lt_of_pairwise (R := fun b a => b ∈ graph.dependencies a)
    (List.pairwise_reverse.1 hpairs) (hmem hb) (hmem (mem_ids_of_mem_dependencies hdep)) hne hdep

theorem creationOrder_empty : SchemaGraph.empty.creationOrder = .ok [] := by
  refine creationOrder_eq_ok_iff.2
    (Topological.sort_of_ordered (ascending_prerequisites _) ?_ List.Pairwise.nil)
  intro entry hentry
  cases hentry

theorem deletionOrder_empty : SchemaGraph.empty.deletionOrder = .ok [] :=
  deletionOrder_eq_ok_iff.2 creationOrder_empty

/-- An object is created after each that it depends on. -/
theorem idxOf_lt_of_mem_dependencies (h : graph.creationOrder = .ok order) {a b : ObjectId}
    (hdep : b ∈ graph.dependencies a) (hb : b ∈ graph.ids) : order.idxOf b < order.idxOf a := by
  obtain ⟨hperm, hself, hpairs⟩ := creationOrder_spec h
  have hne : a ≠ b := by
    rintro rfl
    exact hself a hdep
  exact Topological.idxOf_lt_of_pairwise hpairs
    (hperm.mem_iff.2 (mem_ids_of_mem_dependencies hdep)) (hperm.mem_iff.2 hb) hne hdep

/-- **There is an order exactly when no object depends on itself**, in a graph all of whose
dependencies are objects. -/
theorem exists_creationOrder_iff_of_closed
    (hclosed : ∀ id other, other ∈ graph.dependencies id → other ∈ graph.ids) :
    (∃ order, graph.creationOrder = .ok order) ↔ graph.Acyclic := by
  have hneeds : Topological.Needs graph.prerequisites = fun a b => b ∈ graph.dependencies a := by
    funext a b
    rw [eq_iff_iff, Topological.Needs, keys_prerequisites, ← mem_prerequisites_iff]
    constructor
    · rintro ⟨entry, hentry, hkey, hbefore, -⟩
      exact ⟨entry, hentry, hkey, hbefore⟩
    · rintro ⟨entry, hentry, hkey, hbefore⟩
      have hmem : b ∈ graph.dependencies a :=
        mem_prerequisites_iff.1 ⟨entry, hentry, hkey, hbefore⟩
      exact ⟨entry, hentry, hkey, hbefore, hclosed a b hmem⟩
  simp only [creationOrder_eq_ok_iff]
  rw [Topological.exists_sort_iff graph.ascending_prerequisites, Topological.Acyclic, Acyclic, hneeds]

theorem exists_creationOrder_iff {objects : List SchemaObject}
    (h : register objects = .ok graph) :
    (∃ order, graph.creationOrder = .ok order) ↔ graph.Acyclic :=
  exists_creationOrder_iff_of_closed fun _ _ => Registration.closed_of_register h

/-- What is left without ignored extensions has an order exactly when it has no cycle. -/
theorem exists_creationOrder_withoutIgnored_iff (graph : SchemaGraph) (options : DiffOptions) :
    (∃ order, (graph.withoutIgnored options).creationOrder = .ok order) ↔
      (graph.withoutIgnored options).Acyclic :=
  exists_creationOrder_iff_of_closed fun _ _ hdep =>
    (mem_dependencies_withoutIgnored_iff.1 hdep).2.2

/-- Without an order of creation the outcome is a cycle. -/
theorem creationOrder_eq_error (h : ¬ ∃ order, graph.creationOrder = .ok order) :
    ∃ cycle, graph.creationOrder = .error (.cyclicDependency cycle) := by
  rw [creationOrder] at h ⊢
  cases heq : Topological.sort graph.prerequisites with
  | ok order =>
    rw [heq] at h
    exact absurd ⟨order, rfl⟩ h
  | error cycle => exact ⟨_, rfl⟩

end SchemaPlan.SchemaGraph
