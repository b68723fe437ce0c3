import SchemaPlan.Catalog.Assembly
import SchemaPlan.Proofs.Graph.Registration

/-!
# What a catalog can report

A catalog says less than a declaration.

* `Reported` says what: functions name no dependencies, and an index has columns or an expression.
* `reported_of_graph`: all objects of the graph of a catalog are of this form.
-/

set_option autoImplicit false

namespace SchemaPlan.Catalog

/-- An index has columns or an expression, not both. -/
def HasOneKeyList (index : Index) : Prop :=
  index.expression = none ∨ index.columns = []

/-- An object as a catalog reports it. -/
def Reported : SchemaObject → Prop
  | .function function => function.dependsOn = []
  | .index index => HasOneKeyList index
  | .table table => ∀ index ∈ table.indexes, HasOneKeyList index
  | _ => True

/-! ## Rows -/

theorem read_cases (keys : String) :
    (IndexKeys.read keys).2 = none ∨ (IndexKeys.read keys).1 = [] := by
  rw [IndexKeys.read]
  split
  · exact .inr rfl
  · split
    · exact .inl rfl
    · exact .inr rfl

theorem hasOneKeyList_of_row (row : IndexRow) : HasOneKeyList row.index := by
  rw [HasOneKeyList, IndexRow.index]
  simp only
  split
  · exact read_cases _
  · exact .inr rfl

theorem dependsOn_of_row {row : FunctionRow} {function : Function}
    (h : row.function = .ok function) : function.dependsOn = [] := by
  rw [FunctionRow.function] at h
  split at h
  · cases h
  · split at h
    · cases h
    · cases h
      rfl

/-! ## Tables -/

/-- All tables are as a catalog reports them. -/
def TablesReported (tables : List Table) : Prop :=
  ∀ t ∈ tables, Reported (.table t)

theorem tablesReported_of_attach {tables changed : List Table} {kind name table : String}
    {change : Table → Table} (h : attach tables kind name table change = .ok changed)
    (htables : TablesReported tables)
    (hchange : ∀ t, Reported (.table t) → Reported (.table (change t))) :
    TablesReported changed := by
  rw [attach] at h
  split at h
  · cases h
    intro t ht
    obtain ⟨old, hold, rfl⟩ := List.mem_map.1 ht
    split
    · exact hchange old (htables old hold)
    · exact htables old hold
  · cases h

namespace Snapshot

variable {snapshot : Snapshot} {graph : SchemaGraph}

/-- A part that is read between two looks at its table, as columns and constraints are, leaves
the indexes as they are. -/
theorem tablesReported_of_part {α : Type} {tables changed : List Table}
    {kind name table : String} {part : Except CatalogFault α} {append : α → Table → Table}
    (h : (do
      let _ ← attach tables kind name table id
      let value ← part
      attach tables kind name table (append value)) = .ok changed)
    (htables : TablesReported tables)
    (hindexes : ∀ value t, (append value t).indexes = t.indexes) : TablesReported changed := by
  obtain ⟨_, -, h⟩ := Outcome.bind_eq_ok_iff.1 h
  obtain ⟨value, -, h⟩ := Outcome.bind_eq_ok_iff.1 h
  refine tablesReported_of_attach h htables fun t ht index hindex => ht index ?_
  rwa [hindexes] at hindex

theorem tablesReported_of_attachIndex {tables changed : List Table} {row : IndexRow}
    (htables : TablesReported tables) (h : attachIndex tables row = .ok changed) :
    TablesReported changed := by
  refine tablesReported_of_attach h htables fun t ht index hindex => ?_
  rcases List.mem_append.1 hindex with hindex | hindex
  · exact ht index hindex
  · rw [List.mem_singleton.1 hindex]
    exact hasOneKeyList_of_row row

theorem tablesReported_of_attachTrigger {tables changed : List Table} {row : TriggerRow}
    (htables : TablesReported tables) (h : attachTrigger tables row = .ok changed) :
    TablesReported changed :=
  tablesReported_of_attach h htables fun _ ht => ht

theorem tablesReported_of_assembledTables {tables : List Table}
    (h : snapshot.assembledTables = .ok tables) : TablesReported tables := by
  obtain ⟨first, hcolumns, h⟩ := Outcome.bind_eq_ok_iff.1 h
  obtain ⟨second, hconstraints, h⟩ := Outcome.bind_eq_ok_iff.1 h
  obtain ⟨third, hindexes, htriggers⟩ := Outcome.bind_eq_ok_iff.1 h
  have hbare : TablesReported snapshot.bareTables := by
    intro t ht index hindex
    obtain ⟨row, -, rfl⟩ := List.mem_map.1 (Order.mem_of_mem_ofList ht)
    cases hindex
  have hfirst := Outcome.foldlM_invariant (f := attachColumn)
    (fun _ _ _ ht hrow => tablesReported_of_part hrow ht fun _ _ => rfl) _ hcolumns hbare
  have hsecond := Outcome.foldlM_invariant (f := attachConstraint)
    (fun _ _ _ ht hrow => tablesReported_of_part hrow ht fun _ _ => rfl) _ hconstraints hfirst
  have hthird := Outcome.foldlM_invariant
    (fun _ _ _ => tablesReported_of_attachIndex) _ hindexes hsecond
  exact Outcome.foldlM_invariant (fun _ _ _ => tablesReported_of_attachTrigger) _ htriggers hthird

/-! ## Objects -/

/-- The sources of a catalog graph are reported, and none of them is a constraint. -/
theorem reported_of_objects {objects : List SchemaObject} (h : snapshot.objects = .ok objects) :
    ∀ object ∈ objects, Reported object ∧ object.StandsAlone := by
  obtain ⟨tables, htables, h⟩ := Outcome.bind_eq_ok_iff.1 h
  obtain ⟨functions, hfunctions, h⟩ := Outcome.bind_eq_ok_iff.1 h
  cases h
  intro object hobject
  simp only [List.mem_append, List.mem_map] at hobject
  rcases hobject with ((⟨_, -, rfl⟩ | ⟨_, -, rfl⟩) | ⟨function, hfunction, rfl⟩) |
    ⟨table, htable, rfl⟩
  · exact ⟨trivial, trivial⟩
  · exact ⟨trivial, trivial⟩
  · obtain ⟨row, -, hrow⟩ := Outcome.exists_of_mem_mapM hfunctions hfunction
    exact ⟨dependsOn_of_row hrow, trivial⟩
  · exact ⟨tablesReported_of_assembledTables htables table htable, trivial⟩

theorem reported_of_mem_parts {object part : SchemaObject} (h : Reported object)
    (hpart : part ∈ object.parts) : Reported part := by
  cases object with
  | table t =>
    simp only [SchemaObject.parts, List.mem_cons, List.mem_append, List.mem_map] at hpart
    rcases hpart with rfl | (⟨_, _, rfl⟩ | ⟨index, hindex, rfl⟩) | ⟨_, _, rfl⟩
    · exact fun index hindex => absurd hindex List.not_mem_nil
    · exact trivial
    · obtain ⟨own, hown, rfl⟩ := List.mem_map.1 hindex
      have howned := h own hown
      split
      · exact howned
      · exact howned
    · exact trivial
  | _ =>
    rw [List.mem_singleton.1 hpart]
    exact h

theorem reported_withName {object : SchemaObject} (h : Reported object) :
    Reported object.withName := by
  cases object with
  | index i =>
    rw [SchemaObject.withName]
    split
    · exact h
    · exact h
  | _ => exact h

theorem reported_resolveEnums {object : SchemaObject} (isEnum : String → Bool)
    (h : Reported object) : Reported (object.resolveEnums isEnum) := by
  cases object <;> exact h

/-- **What a catalog can report.** -/
theorem reported_of_graph (h : snapshot.graph = .ok graph) : ∀ object ∈ graph.objects,
    Reported object ∧ object.StandsAlone := by
  obtain ⟨objects, hobjects, h⟩ := Outcome.bind_eq_ok_iff.1 h
  have hsources := reported_of_objects (Outcome.mapError_eq_ok_iff.1 hobjects)
  have hregister := Outcome.mapError_eq_ok_iff.1 h
  intro object hobject
  refine ⟨?_, Registration.standsAlone_of_register hregister
    (fun source hsource => (hsources source hsource).2) hobject⟩
  obtain ⟨source, hsource, part, hpart, heq⟩ := Registration.exists_source hregister hobject
  rw [heq]
  exact reported_resolveEnums _
    (reported_withName (reported_of_mem_parts (hsources source hsource).1 hpart))

theorem register_of_graph (h : snapshot.graph = .ok graph) :
    ∃ sources, register sources = .ok graph := by
  obtain ⟨objects, -, h⟩ := Outcome.bind_eq_ok_iff.1 h
  exact ⟨objects, Outcome.mapError_eq_ok_iff.1 h⟩

end Snapshot

end SchemaPlan.Catalog
