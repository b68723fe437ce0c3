import SchemaPlan.Change.Options
import SchemaPlan.Proofs.Order.Sorted

/-!
# Looking up objects of a graph

* `get?_eq_some_iff`, `contains_iff`, `mem_dependencies_iff`: look-ups in words of the nodes.
* `objects_retain`, `mem_dependencies_retain_iff`: what a retained part of a graph holds.
* `withoutIgnored` keeps exactly the objects that are no ignored extensions.
-/

set_option autoImplicit false

namespace SchemaPlan

/-- Whether an identity is the one of an ignored extension. -/
def DiffOptions.ignoresId (options : DiffOptions) (id : ObjectId) : Bool :=
  id.kind == .extension && options.ignoredExtensions.contains id.name

theorem DiffOptions.ignores_eq (options : DiffOptions) (object : SchemaObject) :
    options.ignores object = options.ignoresId object.id := by
  cases object <;> rfl

theorem DiffOptions.not_ignoresId_of_kind {options : DiffOptions} {id : ObjectId}
    (h : id.kind ≠ .extension) : options.ignoresId id = false := by
  rw [ignoresId, beq_eq_false_iff_ne.2 h]
  rfl

namespace SchemaGraph

variable {graph : SchemaGraph} {id other : ObjectId} {object : SchemaObject}

theorem ascending_objects (graph : SchemaGraph) :
    Order.Ascending SchemaObject.id graph.objects := by
  rw [Order.Ascending, objects, List.pairwise_map]
  exact graph.ascending

theorem map_id_objects (graph : SchemaGraph) : graph.objects.map SchemaObject.id = graph.ids := by
  simp only [objects, ids, List.map_map]
  rfl

theorem nodup_ids (graph : SchemaGraph) : graph.ids.Nodup :=
  graph.ascending.nodup_keys

theorem node?_eq_some_iff {node : GraphNode} :
    graph.node? id = some node ↔ node ∈ graph.nodes ∧ node.id = id := by
  refine ⟨fun h => ⟨List.mem_of_find?_eq_some h, by simpa using List.find?_some h⟩, ?_⟩
  rintro ⟨hmem, rfl⟩
  cases h : graph.node? node.id with
  | none =>
    have hno := List.find?_eq_none.1 h node hmem
    simp at hno
  | some found =>
    have hid : found.id = node.id := by simpa using List.find?_some h
    rw [graph.ascending.eq_of_key_eq (List.mem_of_find?_eq_some h) hmem hid]

theorem get?_eq_some_iff :
    graph.get? id = some object ↔ object ∈ graph.objects ∧ object.id = id := by
  simp only [get?, Option.map_eq_some_iff, node?_eq_some_iff, objects, List.mem_map]
  constructor
  · rintro ⟨node, ⟨hmem, hid⟩, rfl⟩
    exact ⟨⟨node, hmem, rfl⟩, hid⟩
  · rintro ⟨⟨node, hmem, rfl⟩, hid⟩
    exact ⟨node, ⟨hmem, hid⟩, rfl⟩

theorem get?_of_mem (h : object ∈ graph.objects) : graph.get? object.id = some object :=
  get?_eq_some_iff.2 ⟨h, rfl⟩

theorem exists_table_of_get? (h : graph.get? id = some object) (hkind : id.kind = .table) :
    ∃ t, object = .table t := by
  rw [← (get?_eq_some_iff.1 h).2] at hkind
  cases object with
  | table t => exact ⟨t, rfl⟩
  | _ => cases hkind

theorem exists_index_of_get? (h : graph.get? id = some object) (hkind : id.kind = .index) :
    ∃ i, object = .index i := by
  rw [← (get?_eq_some_iff.1 h).2] at hkind
  cases object with
  | index i => exact ⟨i, rfl⟩
  | _ => cases hkind

theorem contains_iff : graph.contains id = true ↔ id ∈ graph.ids := by
  rw [contains, Option.isSome_iff_exists, ids, List.mem_map]
  simp only [node?_eq_some_iff]

theorem contains_iff_exists_get? :
    graph.contains id = true ↔ ∃ object, graph.get? id = some object := by
  rw [contains, get?, ← Option.isSome_iff_exists, Option.isSome_map]

theorem contains_eq_false_iff : graph.contains id = false ↔ graph.get? id = none := by
  rw [contains, get?, Option.isSome_eq_false_iff, Option.isNone_iff_eq_none, Option.map_eq_none_iff]

theorem mem_ids_iff_exists_get? : id ∈ graph.ids ↔ ∃ object, graph.get? id = some object := by
  rw [← contains_iff, contains_iff_exists_get?]

theorem get?_eq_none_iff : graph.get? id = none ↔ id ∉ graph.ids := by
  rw [← contains_eq_false_iff, Bool.eq_false_iff, ne_eq, contains_iff]

/-- The objects with an identity: the one that is looked up. -/
theorem filter_objects (graph : SchemaGraph) (id : ObjectId) :
    graph.objects.filter (fun object => object.id == id) = (graph.get? id).toList := by
  have hnodup : (graph.objects.filter fun object => object.id == id).Nodup :=
    graph.ascending_objects.nodup.filter _
  cases h : graph.get? id with
  | none =>
    refine List.filter_eq_nil_iff.2 fun object hmem hid => ?_
    rw [get?_eq_some_iff.2 ⟨hmem, by simpa using hid⟩] at h
    cases h
  | some object =>
    refine List.perm_singleton.1 ((List.perm_ext_iff_of_nodup hnodup (List.nodup_singleton _)).2
      fun x => ?_)
    rw [List.mem_filter, beq_iff_eq, ← get?_eq_some_iff, h, List.mem_singleton, Option.some.injEq,
      eq_comm]

theorem mem_dependencies_iff : other ∈ graph.dependencies id ↔
    ∃ node ∈ graph.nodes, node.id = id ∧ other ∈ node.dependsOn := by
  rw [dependencies]
  cases h : graph.node? id with
  | none =>
    simp only [Option.map_none, Option.getD_none, List.not_mem_nil, false_iff]
    rintro ⟨node, hmem, hid, -⟩
    rw [node?_eq_some_iff.2 ⟨hmem, hid⟩] at h
    cases h
  | some node =>
    obtain ⟨hmem, hid⟩ := node?_eq_some_iff.1 h
    simp only [Option.map_some, Option.getD_some]
    refine ⟨fun ho => ⟨node, hmem, hid, ho⟩, ?_⟩
    rintro ⟨node', hmem', hid', ho⟩
    rwa [graph.ascending.eq_of_key_eq hmem hmem' (hid.trans hid'.symm)]

/-! ## Retained parts -/

theorem nodes_ofNodes {nodes : List GraphNode} (h : Order.Ascending GraphNode.id nodes) :
    (ofNodes nodes).nodes = nodes :=
  Order.ofList_eq_self h

/-- A graph is known by its nodes. -/
theorem eq_of_nodes_eq {a b : SchemaGraph} (h : a.nodes = b.nodes) : a = b := by
  cases a
  cases b
  simpa using h

theorem nodes_retain (graph : SchemaGraph) (keep : SchemaObject → Bool) :
    (graph.retain keep).nodes =
      (graph.nodes.filter fun node => keep node.object).map fun node =>
        { node with
          dependsOn := node.dependsOn.filter fun id =>
            ((graph.nodes.filter fun node => keep node.object).map GraphNode.id).contains id } := by
  rw [retain]
  refine nodes_ofNodes ?_
  rw [Order.Ascending, List.pairwise_map]
  exact graph.ascending.filter _

theorem objects_retain (graph : SchemaGraph) (keep : SchemaObject → Bool) :
    (graph.retain keep).objects = graph.objects.filter keep := by
  simp only [objects, nodes_retain, List.map_map, List.filter_map]
  rfl

theorem get?_retain (graph : SchemaGraph) (keep : SchemaObject → Bool) (id : ObjectId) :
    (graph.retain keep).get? id = (graph.get? id).filter keep := by
  refine Option.ext fun object => ?_
  rw [get?_eq_some_iff, objects_retain, List.mem_filter, Option.filter_eq_some_iff,
    get?_eq_some_iff]
  tauto

theorem mem_dependencies_retain_iff {keep : SchemaObject → Bool} :
    other ∈ (graph.retain keep).dependencies id ↔
      other ∈ graph.dependencies id ∧ id ∈ (graph.retain keep).ids ∧
        other ∈ (graph.retain keep).ids := by
  have hids : (graph.retain keep).ids =
      (graph.nodes.filter fun node => keep node.object).map GraphNode.id := by
    simp only [ids, nodes_retain, List.map_map]
    rfl
  rw [mem_dependencies_iff, mem_dependencies_iff, nodes_retain, hids]
  simp only [List.mem_map, List.mem_filter]
  constructor
  · rintro ⟨-, ⟨node, ⟨hmem, hkeep⟩, rfl⟩, hid, ho⟩
    simp only [List.mem_filter, List.contains_iff_mem, List.mem_map] at ho
    exact ⟨⟨node, hmem, hid, ho.1⟩, ⟨node, ⟨hmem, hkeep⟩, hid⟩, ho.2⟩
  · rintro ⟨⟨node, hmem, hid, ho⟩, ⟨node', ⟨hmem', hkeep'⟩, hid'⟩, hother⟩
    obtain rfl := graph.ascending.eq_of_key_eq hmem hmem' (hid.trans hid'.symm)
    refine ⟨_, ⟨node, ⟨hmem, hkeep'⟩, rfl⟩, hid, ?_⟩
    simp only [List.mem_filter, List.contains_iff_mem, List.mem_map]
    exact ⟨ho, hother⟩

/-! ## Ignored extensions -/

variable {options : DiffOptions}

theorem get?_withoutIgnored_eq_some_iff :
    (graph.withoutIgnored options).get? id = some object ↔
      graph.get? id = some object ∧ options.ignores object = false := by
  rw [withoutIgnored, get?_retain, Option.filter_eq_some_iff, Bool.not_eq_true']

theorem mem_dependencies_withoutIgnored_iff :
    other ∈ (graph.withoutIgnored options).dependencies id ↔
      other ∈ graph.dependencies id ∧ id ∈ (graph.withoutIgnored options).ids ∧
        other ∈ (graph.withoutIgnored options).ids :=
  mem_dependencies_retain_iff

theorem get?_withoutIgnored (graph : SchemaGraph) (options : DiffOptions) (id : ObjectId) :
    (graph.withoutIgnored options).get? id =
      if options.ignoresId id = true then none else graph.get? id := by
  refine Option.ext fun object => ?_
  rw [get?_withoutIgnored_eq_some_iff, DiffOptions.ignores_eq]
  split
  · rename_i hignored
    simp only [reduceCtorEq, iff_false, not_and, Bool.not_eq_false]
    intro hobject
    rw [(get?_eq_some_iff.1 hobject).2]
    exact hignored
  · rename_i hkept
    refine and_iff_left_of_imp fun hobject => ?_
    rw [(get?_eq_some_iff.1 hobject).2]
    exact Bool.eq_false_iff.2 hkept

theorem mem_ids_withoutIgnored_iff : id ∈ (graph.withoutIgnored options).ids ↔
    id ∈ graph.ids ∧ options.ignoresId id = false := by
  rw [mem_ids_iff_exists_get?, mem_ids_iff_exists_get?, get?_withoutIgnored]
  cases options.ignoresId id <;> simp

theorem mem_ids_of_mem_dependencies (h : other ∈ graph.dependencies id) : id ∈ graph.ids := by
  obtain ⟨node, hnode, rfl, -⟩ := mem_dependencies_iff.1 h
  exact List.mem_map_of_mem hnode

theorem withoutIgnored_empty (options : DiffOptions) :
    SchemaGraph.empty.withoutIgnored options = .empty :=
  rfl

end SchemaGraph

end SchemaPlan
