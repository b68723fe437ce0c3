import SchemaPlan.Proofs.Catalog.Assembly
import SchemaPlan.Proofs.Graph.CreationOrder

/-!
# The layers of a schema

Tables use enum types, functions and extensions, and constraints, indexes and triggers use tables.
Only a function that names its dependencies can refer to its own layer or to one above, and a
catalog reports no function that does.

* `layer_lt_of_mem_references`: all other references lead to a lower layer.
* `acyclic_of_layered`: a layered graph has no cycle.
* `layered_of_graph`: the graph of a catalog is layered.
-/

set_option autoImplicit false

namespace SchemaPlan

/-- The layer of a kind: what tables use, the tables, and what belongs to them. -/
def ObjectKind.layer : ObjectKind → Nat
  | extension | enum | function => 0
  | table => 1
  | constraint | index | trigger => 2

namespace Registration

variable {objects : List SchemaObject} {id : ObjectId}

theorem kind_of_mem_calls {expression : String} (h : id ∈ calls objects expression) :
    id.kind = .function := by
  obtain ⟨_, -, rfl⟩ := List.mem_map.1 h
  rfl

theorem kind_of_mem_extensions (h : id ∈ extensions objects) : id.kind = .extension := by
  obtain ⟨object, hobject, rfl⟩ := List.mem_map.1 h
  have hkind := beq_iff_eq.1 (List.mem_filter.1 hobject).2
  rwa [SchemaObject.kind_id]

theorem layer_of_mem_columnDependencies {column : Column}
    (h : id ∈ columnDependencies objects column) : id.kind.layer = 0 := by
  simp only [columnDependencies, List.mem_append, List.mem_map, Option.mem_toList,
    List.mem_flatMap] at h
  rcases h with (⟨_, -, rfl⟩ | h) | ⟨_, -, h⟩
  · rfl
  · split at h
    · rw [kind_of_mem_extensions h]
      rfl
    · cases h
  · rw [kind_of_mem_calls h]
    rfl

theorem layer_of_mem_checkDependencies {constraint : Constraint}
    (h : id ∈ checkDependencies objects constraint) : id.kind.layer = 0 := by
  rw [checkDependencies] at h
  split at h
  · rw [kind_of_mem_calls h]
    rfl
  · cases h

/-- **References lead to a lower layer**, those of functions aside. -/
theorem layer_lt_of_mem_references {object : SchemaObject}
    (hfunction : ∀ f, object = .function f → f.dependsOn = [])
    (h : id ∈ references objects object) : id.kind.layer < object.kind.layer := by
  cases object with
  | extension => cases h
  | enum => cases h
  | function f =>
    rw [references, hfunction f rfl] at h
    cases h
  | table t =>
    have hlayer : id.kind.layer = 0 := by
      rw [references, List.mem_append, List.mem_flatMap, List.mem_flatMap] at h
      rcases h with ⟨_, -, h⟩ | ⟨_, -, h⟩
      · exact layer_of_mem_columnDependencies h
      · exact layer_of_mem_checkDependencies h
    rw [hlayer]
    exact Nat.zero_lt_one
  | constraint value =>
    simp only [references, List.mem_cons, List.mem_map] at h
    rcases h with rfl | ⟨_, -, rfl⟩
    · exact Nat.one_lt_two
    · exact Nat.one_lt_two
  | index index =>
    simp only [references, List.mem_cons, List.mem_append, List.mem_flatMap] at h
    rcases h with rfl | ⟨_, -, h⟩ | h
    · exact Nat.one_lt_two
    · rw [kind_of_mem_calls h]
      exact Nat.two_pos
    · split at h
      · cases h
      · rw [kind_of_mem_extensions h]
        exact Nat.two_pos
  | trigger trigger =>
    simp only [references, List.mem_cons, List.not_mem_nil, or_false] at h
    rcases h with rfl | rfl
    · exact Nat.one_lt_two
    · exact Nat.two_pos

end Registration

/-! ## Layered graphs -/

namespace SchemaGraph

variable {graph : SchemaGraph}

/-- Every dependency leads to a lower layer. -/
def Layered (graph : SchemaGraph) : Prop :=
  ∀ a b, b ∈ graph.dependencies a → b.kind.layer < a.kind.layer

/-- **A layered graph has no cycle.** -/
theorem acyclic_of_layered (h : graph.Layered) : graph.Acyclic :=
  Order.Topological.not_transGen_self (fun id => id.kind.layer) h

/-- What a table uses uses nothing itself. -/
theorem dependencies_eq_nil_of_layered (h : graph.Layered) {a b : ObjectId}
    (ha : a.kind = .table) (hb : b ∈ graph.dependencies a) : graph.dependencies b = [] := by
  have hbottom : b.kind.layer < 1 := by
    have hlt := h a b hb
    rwa [ha] at hlt
  refine List.eq_nil_iff_forall_not_mem.2 fun c hc => ?_
  have hlt := h b c hc
  omega

theorem layered_withoutIgnored (h : graph.Layered) (options : DiffOptions) :
    (graph.withoutIgnored options).Layered :=
  fun a b hdep => h a b (mem_dependencies_withoutIgnored_iff.1 hdep).1

/-- A registered graph whose functions name no dependencies is layered. -/
theorem layered_of_register {sources : List SchemaObject} (hregister : register sources = .ok graph)
    (hfunctions : ∀ f, .function f ∈ graph.objects → f.dependsOn = []) : graph.Layered := by
  intro a b hdep
  obtain ⟨hsettled, hgraph⟩ := Registration.settled_of_register hregister
  rw [hgraph, Registration.mem_dependencies_graphOf_iff hsettled.ascending] at hdep
  obtain ⟨object, hobject, rfl, href⟩ := hdep
  rw [SchemaObject.kind_id]
  refine Registration.layer_lt_of_mem_references (fun f hf => hfunctions f ?_) href
  exact hf ▸ hobject

end SchemaGraph

/-- **The graph of a catalog is layered.** -/
theorem Catalog.Snapshot.layered_of_graph {snapshot : Catalog.Snapshot} {graph : SchemaGraph}
    (h : snapshot.graph = .ok graph) : graph.Layered := by
  obtain ⟨sources, hregister⟩ := register_of_graph h
  exact SchemaGraph.layered_of_register hregister fun f hf => (reported_of_graph h _ hf).1

end SchemaPlan
