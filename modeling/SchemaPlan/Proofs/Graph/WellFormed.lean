import Mathlib.Algebra.Ring.Nat
import SchemaPlan.Proofs.Graph.References

/-!
# Well-formed schemas

Registration splits tables, names what has no name, resolves types and checks references, one
after the other.  A schema that went through all of this can be relied on.

* `Registers` says on what: identities, references, names, types, and that nothing is lost.
* `registers_of_register`: every list of objects that is registered at all is registered this way.
-/

set_option autoImplicit false

namespace SchemaPlan

/-! ## Types behind arrays -/

namespace DataType

/-- The type of what an array holds in the end, through any number of arrays. -/
def innermost : DataType → DataType
  | array element => element.innermost
  | type => type

theorem enumName?_eq_some_iff {type : DataType} {name : String} :
    type.enumName? = some name ↔ type.innermost = .enum name := by
  induction type with
  | array element ih => exact ih
  | enum other => simp only [enumName?, innermost, Option.some.injEq, enum.injEq]
  | _ => simp only [enumName?, innermost, reduceCtorEq]

/-- No type that resolving leaves alone ends in a custom type with the name of an enum. -/
theorem isEnum_eq_false_of_resolved {isEnum : String → Bool} {type : DataType} {name : String}
    (h : type.resolveEnums isEnum = type) (hname : type.innermost = .custom name) :
    isEnum name = false := by
  induction type with
  | array element ih => exact ih (array.inj h) hname
  | custom other =>
    obtain rfl := custom.inj hname
    by_contra hne
    rw [resolveEnums, if_pos (Bool.of_not_eq_false hne)] at h
    cases h
  | _ => cases hname

end DataType

/-! ## Parts and names -/

theorem Constraint.name_withName_ne_empty (constraint : Constraint) (table : String) :
    (constraint.withName table).name ≠ "" := by
  rw [withName]
  split
  · exact computedName_ne_empty _ _
  · assumption

namespace SchemaObject

/-- How many foreign keys, indexes and triggers stand inside an object. -/
def nestedCount : SchemaObject → Nat
  | table t =>
    (t.constraints.filter fun c => c.kind.isForeignKey).length + t.indexes.length +
      t.triggers.length
  | _ => 0

theorem length_parts (object : SchemaObject) : object.parts.length = 1 + object.nestedCount := by
  cases object with
  | table t =>
    simp only [parts, nestedCount, Table.foreignKeys, Table.ownIndexes, Table.ownTriggers,
      List.length_cons, List.length_append, List.length_map]
    omega
  | _ => rfl

theorem length_flatMap_parts (objects : List SchemaObject) :
    (objects.flatMap parts).length = objects.length + (objects.map nestedCount).sum := by
  induction objects with
  | nil => rfl
  | cons object rest ih =>
    rw [List.flatMap_cons, List.length_append, length_parts, ih, List.length_cons, List.map_cons,
      List.sum_cons]
    omega

end SchemaObject

/-! ## Registered schemas -/

/-- There is a table with a name, and the listed names are columns of it. -/
def SchemaGraph.HasColumns (graph : SchemaGraph) (table : String) (columns : List String) : Prop :=
  ∃ t, graph.table? table = some t ∧ ∀ name ∈ columns, ∃ column ∈ t.columns, column.name = name

namespace Registration

/-- **What can be relied on in a graph that was registered from given objects.** -/
structure Registers (sources : List SchemaObject) (graph : SchemaGraph) : Prop where
  /-- Every node is found under the identity of its object, and no other node is. -/
  keys : ∀ id node, graph.node? id = some node ↔ node ∈ graph.nodes ∧ node.object.id = id
  dependencies : ∀ node ∈ graph.nodes, ∀ id ∈ node.dependsOn, graph.contains id = true
  tables : ∀ t, .table t ∈ graph.objects →
    (∀ c ∈ t.constraints, c.kind.isForeignKey = false) ∧ t.indexes = [] ∧ t.triggers = []
  size : graph.size = sources.length + (sources.map SchemaObject.nestedCount).sum
  inlineConstraints : ∀ t, .table t ∈ graph.objects → ∀ c ∈ t.constraints,
    c.name ≠ "" ∧ graph.HasColumns t.name c.kind.columns
  constraints : ∀ value, .constraint value ∈ graph.objects →
    value.constraint.name ≠ "" ∧ graph.HasColumns value.table value.constraint.kind.columns ∧
      ∀ key, value.constraint.kind = .foreignKey key →
        graph.HasColumns key.referencesTable key.referencesColumns
  indexes : ∀ index, .index index ∈ graph.objects →
    index.name ≠ "" ∧ graph.HasColumns index.table index.columns
  triggers : ∀ trigger, .trigger trigger ∈ graph.objects →
    (∃ t, graph.table? trigger.table = some t) ∧ ∃ f, graph.function? trigger.function = some f
  enumTypes : ∀ t, .table t ∈ graph.objects → ∀ column ∈ t.columns, ∀ name,
    column.type.innermost = .enum name → ∃ type, graph.enum? name = some type
  customTypes : ∀ t, .table t ∈ graph.objects → ∀ column ∈ t.columns, ∀ name,
    column.type.innermost = .custom name → graph.enum? name = none
  columns : ∀ t, .table t ∈ graph.objects → (t.columns.map Column.name).Nodup
  labels : ∀ type, .enum type ∈ graph.objects → type.labels.Nodup

variable {sources : List SchemaObject} {graph : SchemaGraph}

theorem table?_of_mem {t : Table} (h : .table t ∈ graph.objects) :
    graph.table? t.name = some t := by
  have hget : graph.get? (.table t.name) = some (.table t) := SchemaGraph.get?_of_mem h
  rw [SchemaGraph.table?, hget]

theorem hasColumns_iff {table : String} {columns : List String} :
    HasColumns graph.objects table columns ↔ graph.HasColumns table columns := by
  have hcolumn : ∀ {t : Table} {name : String}, (t.column? name).isSome = true ↔
      ∃ column ∈ t.columns, column.name = name := by
    intro t name
    rw [Table.column?_isSome_iff, List.mem_map]
  simp only [HasColumns, SchemaGraph.HasColumns, hcolumn]
  constructor
  · rintro ⟨t, hmem, rfl, hcolumns⟩
    exact ⟨t, table?_of_mem hmem, hcolumns⟩
  · rintro ⟨t, ht, hcolumns⟩
    rw [SchemaGraph.table?] at ht
    split at ht
    · rename_i hget
      cases ht
      obtain ⟨hmem, hid⟩ := SchemaGraph.get?_eq_some_iff.1 hget
      exact ⟨t, hmem, congrArg ObjectId.name hid, hcolumns⟩
    · cases ht

theorem exists_function_of_known {name : String} (h : Known graph.objects ⟨.function, name⟩) :
    ∃ f, graph.function? name = some f := by
  obtain ⟨object, hobject, hid⟩ := h
  have hget : graph.get? ⟨.function, name⟩ = some object :=
    SchemaGraph.get?_eq_some_iff.2 ⟨hobject, hid⟩
  cases object with
  | function f => exact ⟨f, by rw [SchemaGraph.function?, hget]⟩
  | _ => cases congrArg ObjectId.kind hid

theorem exists_enum_of_known {name : String} (h : Known graph.objects ⟨.enum, name⟩) :
    ∃ type, graph.enum? name = some type := by
  obtain ⟨object, hobject, hid⟩ := h
  have hget : graph.get? ⟨.enum, name⟩ = some object :=
    SchemaGraph.get?_eq_some_iff.2 ⟨hobject, hid⟩
  cases object with
  | enum type => exact ⟨type, by rw [SchemaGraph.enum?, hget]⟩
  | _ => cases congrArg ObjectId.kind hid

theorem enum?_eq_none_of_not_mem {name : String} (h : name ∉ namesOf graph.objects .enum) :
    graph.enum? name = none := by
  rw [SchemaGraph.enum?]
  split
  · rename_i type hget
    obtain ⟨hmem, hid⟩ := SchemaGraph.get?_eq_some_iff.1 hget
    exact absurd (mem_namesOf_iff.2 ⟨_, hmem, rfl, congrArg ObjectId.name hid⟩) h
  · rfl

/-- Nothing is lost: all parts of all sources are objects of the graph. -/
theorem size_of_register (h : register sources = .ok graph) :
    graph.size = sources.length + (sources.map SchemaObject.nestedCount).sum := by
  obtain ⟨collected, hcollect, -, rfl⟩ := register_eq_ok_iff.1 h
  obtain ⟨hnodup, rfl⟩ := collect_nil_eq_ok_iff.1 hcollect
  have hresolved := ascending_resolveEnums (Order.ascending_ofList SchemaObject.id
    ((sources.flatMap SchemaObject.parts).map SchemaObject.withName))
  rw [SchemaGraph.size, nodes_graphOf hresolved, List.length_map, resolveEnums, List.length_map,
    (Order.ofList_perm hnodup).length_eq, List.length_map, SchemaObject.length_flatMap_parts]

/-- **Whatever is registered is well formed.** -/
theorem registers_of_register (h : register sources = .ok graph) : Registers sources graph := by
  obtain ⟨hsettled, -⟩ := settled_of_register h
  have hsound : ∀ {object}, object ∈ graph.objects → Sound graph.objects object :=
    fun hobject => hsettled.sound hobject
  exact {
    keys := fun _ _ => SchemaGraph.node?_eq_some_iff
    dependencies := fun node hnode id hid => SchemaGraph.contains_iff.2
      (closed_of_register h (SchemaGraph.mem_dependencies_iff.2 ⟨node, hnode, rfl, hid⟩))
    tables := fun t ht => SchemaObject.table_parts_iff.1 (hsettled.parts _ ht)
    size := size_of_register h
    inlineConstraints := fun t ht c hc => by
      refine ⟨?_, hasColumns_iff.1 ⟨t, ht, rfl, (hsound ht).2.2 c hc⟩⟩
      rw [← (hsettled.table ht).1 c hc]
      exact Constraint.name_withName_ne_empty c t.name
    constraints := fun value hvalue => by
      obtain ⟨hcolumns, hkey⟩ := hsound hvalue
      refine ⟨?_, hasColumns_iff.1 hcolumns, fun key hkind => hasColumns_iff.1 (hkey key ?_)⟩
      · have hname := SchemaObject.constraint.inj (hsettled.withName _ hvalue)
        rw [← congrArg (fun v => v.constraint.name) hname]
        exact Constraint.name_withName_ne_empty _ _
      · rw [Constraint.foreignKey?, hkind]
    indexes := fun index hindex => by
      refine ⟨fun hempty => ?_, hasColumns_iff.1 (hsound hindex)⟩
      have hname := hsettled.withName _ hindex
      rw [SchemaObject.withName, if_pos hempty] at hname
      have hcomputed := congrArg Index.name (SchemaObject.index.inj hname)
      exact Naming.tagged_ne_empty (by decide) _ _ (hcomputed.trans hempty)
    triggers := fun trigger htrigger => by
      obtain ⟨htable, hfunction⟩ := hsound htrigger
      obtain ⟨t, ht, -⟩ := hasColumns_iff.1 htable
      exact ⟨⟨t, ht⟩, exists_function_of_known hfunction⟩
    enumTypes := fun t ht column hcolumn name hname => exists_enum_of_known
      ((hsound ht).2.1 column hcolumn name (DataType.enumName?_eq_some_iff.2 hname))
    customTypes := fun t ht column hcolumn name hname => by
      refine enum?_eq_none_of_not_mem fun hmem => ?_
      have hresolved := (hsettled.table ht).2 column hcolumn
      have hnot := DataType.isEnum_eq_false_of_resolved hresolved hname
      rw [List.contains_iff_mem.2 hmem] at hnot
      cases hnot
    columns := fun t ht => (hsound ht).1
    labels := fun type htype => hsound htype }

/-- Albums with their owners.  The keys and the index have no names, the index names no table, and
the type of the last column is that of an enum behind two arrays. -/
def albumObjects : List SchemaObject := [
  .table {
    name := "album"
    columns := [{ name := "id", type := .uuid }, { name := "owner", type := .uuid },
      { name := "moods", type := .array (.array (.custom "mood")) }]
    constraints := [{ kind := .primaryKey ["id"] },
      { kind := .foreignKey
          { columns := ["owner"], referencesTable := "user", referencesColumns := ["id"] } }]
    indexes := [{ columns := ["owner"] }]
    triggers := [{ name := "stamp", function := "touch", events := [.update] }] },
  .table { name := "user", columns := [{ name := "id", type := .uuid }] },
  .enum { name := "mood", labels := ["sad", "calm"] },
  .function { name := "touch", returns := "trigger", body := "BEGIN RETURN NEW; END" }]

/-- Four objects are given and seven registered. -/
theorem registers_of_register_albums : ∃ graph, register albumObjects = .ok graph ∧
    graph.size = 7 ∧ Registers albumObjects graph := by
  have hsize : (register albumObjects).toOption.map SchemaGraph.size = some 7 := by
    decide +kernel
  obtain ⟨graph, hgraph, hsize⟩ := Option.map_eq_some_iff.1 hsize
  rw [Outcome.toOption_eq_some_iff] at hgraph
  exact ⟨graph, hgraph, hsize, registers_of_register hgraph⟩

end Registration

end SchemaPlan
