import SchemaPlan.Proofs.Catalog.Layering

/-!
# From graphs back to declarations

`SchemaGraph.toDeclaration` puts the foreign keys, indexes and triggers of a graph back to their
tables, and registration takes them out again.

* `parts_toDeclaration_perm`: the parts of the declaration are the objects of the graph.
* `register_toDeclaration`: the declaration of a graph is registered as that graph, when the graph
  comes from a declaration or from a catalog.
-/

set_option autoImplicit false

namespace SchemaPlan

namespace Registration

variable {objects : List SchemaObject}

/-- The objects of a kind that belong to a table. -/
def attached (objects : List SchemaObject) (kind : ObjectKind) (table : String) :
    List SchemaObject :=
  (ofKind objects kind).filter fun object => object.owningTable? == some table

/-- The tables. -/
def tablesOf (objects : List SchemaObject) : List Table :=
  objects.filterMap fun
    | .table t => some t
    | _ => none

theorem mem_tablesOf_iff {t : Table} : t ∈ tablesOf objects ↔ .table t ∈ objects := by
  rw [tablesOf, List.mem_filterMap]
  constructor
  · rintro ⟨object, hobject, h⟩
    cases object with
    | table _ =>
      cases h
      exact hobject
    | _ => cases h
  · exact fun h => ⟨_, h, rfl⟩

/-- Objects that are picked one by one and put back are those that pass a test. -/
theorem map_filterMap_eq_filter {β : Type} {pick : SchemaObject → Option β}
    {wrap : β → SchemaObject} {test : SchemaObject → Bool}
    (h : ∀ object, (pick object).map wrap = if test object then some object else none) :
    (objects.filterMap pick).map wrap = objects.filter test := by
  rw [List.map_filterMap, ← List.filterMap_eq_filter]
  exact List.filterMap_congr fun object _ => by
    rw [h object, Option.guard]

theorem map_tablesOf : (tablesOf objects).map SchemaObject.table = ofKind objects .table :=
  map_filterMap_eq_filter fun object => by cases object <;> rfl

theorem nodup_tableNames (h : (objects.map SchemaObject.id).Nodup) :
    ((tablesOf objects).map Table.name).Nodup := by
  have hids : ((ofKind objects .table).map SchemaObject.id).Nodup :=
    h.sublist (List.filter_sublist.map _)
  rw [← map_tablesOf, List.map_map] at hids
  have hnames : SchemaObject.id ∘ SchemaObject.table = ObjectId.table ∘ Table.name := rfl
  rw [hnames, ← List.map_map] at hids
  exact hids.of_map

/-- What belongs to the tables, table by table, are all objects of a kind that needs a table. -/
theorem attached_perm (h : (objects.map SchemaObject.id).Nodup) {kind : ObjectKind}
    (howner : ∀ object ∈ objects, object.kind = kind →
      ∃ t : Table, .table t ∈ objects ∧ object.owningTable? = some t.name) :
    ((tablesOf objects).flatMap fun t => attached objects kind t.name).Perm
      (ofKind objects kind) := by
  have howners : (((tablesOf objects).map Table.name).map some).Nodup :=
    (nodup_tableNames h).map fun _ _ => Option.some.inj
  have howned : ∀ object ∈ ofKind objects kind,
      object.owningTable? ∈ ((tablesOf objects).map Table.name).map some := by
    intro object hobject
    obtain ⟨hmem, hkind⟩ := List.mem_filter.1 hobject
    obtain ⟨t, ht, hname⟩ := howner object hmem (beq_iff_eq.1 hkind)
    rw [hname]
    exact List.mem_map_of_mem (List.mem_map_of_mem (mem_tablesOf_iff.2 ht))
  have hgroups := Order.groups_perm SchemaObject.owningTable? howners howned
  rw [List.flatMap_map, List.flatMap_map] at hgroups
  exact hgroups

/-! ## Tables with what belongs to them -/

theorem map_constraintsOf (table : String) :
    ((constraintsOf objects table).map fun c => SchemaObject.constraint ⟨table, c⟩) =
      attached objects .constraint table := by
  rw [attached, ofKind, List.filter_filter]
  refine map_filterMap_eq_filter fun object => ?_
  cases object with
  | constraint value =>
    simp only [SchemaObject.kind, SchemaObject.owningTable?, beq_self_eq_true, Bool.and_true,
      beq_iff_eq, Option.some.injEq]
    split
    · rename_i howner
      rw [← howner]
      rfl
    · rfl
  | _ => simp [SchemaObject.kind]

theorem map_indexesOf (table : String) :
    (indexesOf objects table).map SchemaObject.index = attached objects .index table := by
  rw [attached, ofKind, List.filter_filter]
  exact map_filterMap_eq_filter fun object => by
    cases object <;> simp [SchemaObject.kind, SchemaObject.owningTable?, apply_ite]

theorem map_triggersOf (table : String) :
    (triggersOf objects table).map SchemaObject.trigger = attached objects .trigger table := by
  rw [attached, ofKind, List.filter_filter]
  exact map_filterMap_eq_filter fun object => by
    cases object <;> simp [SchemaObject.kind, SchemaObject.owningTable?, apply_ite]

theorem isForeignKey_of_mem_constraintsOf (halone : ∀ object ∈ objects, object.StandsAlone)
    {table : String} {constraint : Constraint} (h : constraint ∈ constraintsOf objects table) :
    constraint.kind.isForeignKey = true := by
  have hmem := List.mem_map_of_mem (f := fun c => SchemaObject.constraint ⟨table, c⟩) h
  rw [map_constraintsOf] at hmem
  exact halone _ (List.mem_of_mem_filter (List.mem_of_mem_filter hmem))

theorem table_of_mem_indexesOf {table : String} {index : Index}
    (h : index ∈ indexesOf objects table) : index.table = table := by
  have hmem := List.mem_map_of_mem (f := SchemaObject.index) h
  rw [map_indexesOf] at hmem
  simpa [SchemaObject.owningTable?] using (List.mem_filter.1 hmem).2

theorem table_of_mem_triggersOf {table : String} {trigger : Trigger}
    (h : trigger ∈ triggersOf objects table) : trigger.table = table := by
  have hmem := List.mem_map_of_mem (f := SchemaObject.trigger) h
  rw [map_triggersOf] at hmem
  simpa [SchemaObject.owningTable?] using (List.mem_filter.1 hmem).2

/-- A table that was split comes apart into itself and what was put back to it. -/
theorem parts_reattached (halone : ∀ object ∈ objects, object.StandsAlone) {t : Table}
    (ht : (SchemaObject.table t).parts = [.table t]) :
    (SchemaObject.table (t.reattached objects)).parts =
      .table t :: (attached objects .constraint t.name ++ attached objects .index t.name ++
        attached objects .trigger t.name) := by
  obtain ⟨hinline, hindexes, htriggers⟩ := SchemaObject.table_parts_iff.1 ht
  have hforeign : ∀ c ∈ constraintsOf objects t.name, c.kind.isForeignKey = true :=
    fun _ hc => isForeignKey_of_mem_constraintsOf halone hc
  have hbare : (t.reattached objects).bare = t := by
    rw [Table.bare, Table.reattached, List.filter_append,
      List.filter_eq_self.2 fun c hc => by simp [hinline c hc],
      List.filter_eq_nil_iff.2 fun c hc => by simp [hforeign c hc], List.append_nil, ← hindexes,
      ← htriggers]
  have hkeys : (t.reattached objects).foreignKeys =
      (constraintsOf objects t.name).map fun c => ⟨t.name, c⟩ := by
    rw [Table.foreignKeys, Table.reattached, List.filter_append,
      List.filter_eq_nil_iff.2 fun c hc => by simp [hinline c hc], List.nil_append,
      List.filter_eq_self.2 hforeign]
  have hown : (t.reattached objects).ownIndexes = indexesOf objects t.name := by
    rw [Table.ownIndexes, Table.reattached, hindexes, List.nil_append]
    refine (List.map_congr_left fun index hindex => ?_).trans (List.map_id' _)
    rw [← table_of_mem_indexesOf hindex]
    exact ite_self _
  have hruns : (t.reattached objects).ownTriggers = triggersOf objects t.name := by
    rw [Table.ownTriggers, Table.reattached, htriggers, List.nil_append]
    refine (List.map_congr_left fun trigger htrigger => ?_).trans (List.map_id' _)
    rw [← table_of_mem_triggersOf htrigger]
    exact ite_self _
  rw [SchemaObject.parts, hbare, hkeys, hown, hruns, ← map_constraintsOf, ← map_indexesOf,
    ← map_triggersOf, List.map_map]
  rfl

/-- The sources of the declaration of a graph: the objects that need no table, and the tables. -/
theorem objects_toDeclaration (graph : SchemaGraph) (name : String) :
    (graph.toDeclaration name).objects =
      ofKind graph.objects .extension ++ ofKind graph.objects .enum ++
        ofKind graph.objects .function ++
          (tablesOf graph.objects).map fun t => .table (t.reattached graph.objects) := by
  rw [Declaration.objects, SchemaGraph.toDeclaration]
  congr 1
  · congr 1
    · congr 1
      · exact map_filterMap_eq_filter fun object => by cases object <;> rfl
      · exact map_filterMap_eq_filter fun object => by cases object <;> rfl
    · exact map_filterMap_eq_filter fun object => by cases object <;> rfl
  · rw [tablesOf, List.map_filterMap, List.map_filterMap]
    exact List.filterMap_congr fun object _ => by cases object <;> rfl

/-- What belongs to a table belongs to one that exists. -/
theorem Settled.exists_owner (h : Settled objects) {object : SchemaObject}
    (hobject : object ∈ objects) (hkind : object.kind.layer = 2) :
    ∃ t : Table, .table t ∈ objects ∧ object.owningTable? = some t.name := by
  have hsound := h.sound hobject
  cases object with
  | constraint value =>
    obtain ⟨t, ht, hname, -⟩ := hsound.1
    exact ⟨t, ht, congrArg some hname.symm⟩
  | index index =>
    obtain ⟨t, ht, hname, -⟩ := hsound
    exact ⟨t, ht, congrArg some hname.symm⟩
  | trigger trigger =>
    obtain ⟨t, ht, hname, -⟩ := hsound.1
    exact ⟨t, ht, congrArg some hname.symm⟩
  | _ => cases hkind

/-- **The parts of the declaration of a graph are the objects of the graph.** -/
theorem parts_toDeclaration_perm {graph : SchemaGraph} (h : Settled graph.objects)
    (halone : ∀ object ∈ graph.objects, object.StandsAlone) (name : String) :
    ((graph.toDeclaration name).objects.flatMap SchemaObject.parts).Perm graph.objects := by
  have hnodup := h.ascending.nodup_keys
  have hkept : ∀ kind, (ofKind graph.objects kind).flatMap SchemaObject.parts =
      ofKind graph.objects kind :=
    fun kind => SchemaObject.flatMap_parts fun object hobject =>
      h.parts object (List.mem_of_mem_filter hobject)
  have hattached : ∀ kind : ObjectKind, kind.layer = 2 →
      ((tablesOf graph.objects).flatMap fun t => attached graph.objects kind t.name).Perm
        (ofKind graph.objects kind) :=
    fun kind hkind => attached_perm hnodup fun object hobject hobjectKind =>
      h.exists_owner hobject (hobjectKind ▸ hkind)
  have hobjects : (graph.toDeclaration name).objects =
      ofKind graph.objects .extension ++ ofKind graph.objects .enum ++
        ofKind graph.objects .function ++
          (tablesOf graph.objects).map fun t => .table (t.reattached graph.objects) :=
    objects_toDeclaration graph name
  have htables : ((tablesOf graph.objects).flatMap fun t =>
      (SchemaObject.table (t.reattached graph.objects)).parts).Perm
        (ofKind graph.objects .table ++ (ofKind graph.objects .constraint ++
          ofKind graph.objects .index ++ ofKind graph.objects .trigger)) := by
    have hsplit : ∀ t ∈ tablesOf graph.objects,
        (SchemaObject.table (t.reattached graph.objects)).parts =
          [SchemaObject.table t] ++ (attached graph.objects .constraint t.name ++
            attached graph.objects .index t.name ++ attached graph.objects .trigger t.name) :=
      fun t ht => parts_reattached halone (h.parts _ (mem_tablesOf_iff.1 ht))
    rw [List.flatMap_congr hsplit]
    refine (List.flatMap_append_perm _ _ _).symm.trans ?_
    rw [← List.map_eq_flatMap, map_tablesOf]
    refine List.Perm.append_left _ ?_
    refine (List.flatMap_append_perm _ _ _).symm.trans (List.Perm.append ?_ (hattached _ rfl))
    refine (List.flatMap_append_perm _ _ _).symm.trans ?_
    exact (hattached _ rfl).append (hattached _ rfl)
  rw [hobjects]
  simp only [List.flatMap_append, hkept, List.flatMap_map]
  refine (htables.append_left _).trans (List.Perm.of_eq ?_)
  simpa [ObjectKind.all] using flatMap_ofKind SchemaObject.kind_id graph.ascending_objects

/-- **The declaration of a graph is registered as that graph**, under any name, when the graph
comes from a declaration or from a catalog. -/
theorem register_toDeclaration {graph : SchemaGraph}
    (h : (∃ declaration : Declaration, declaration.register = .ok graph) ∨
      ∃ snapshot : Catalog.Snapshot, snapshot.graph = .ok graph) (name : String) :
    (graph.toDeclaration name).register = .ok graph := by
  have hsource : (∃ sources, register sources = .ok graph) ∧
      ∀ object ∈ graph.objects, object.StandsAlone := by
    rcases h with ⟨declaration, h⟩ | ⟨snapshot, h⟩
    · exact ⟨⟨_, h⟩, fun object => standsAlone_of_register h declaration.standsAlone_objects⟩
    · exact ⟨Catalog.Snapshot.register_of_graph h, fun object hobject =>
        (Catalog.Snapshot.reported_of_graph h object hobject).2⟩
  obtain ⟨⟨sources, hregister⟩, halone⟩ := hsource
  obtain ⟨hsettled, -⟩ := settled_of_register hregister
  have hobjects : register graph.objects = .ok graph :=
    register_objects hregister (List.Perm.refl _)
  refine register_eq_ok_of_parts_perm ?_ hobjects
  rw [SchemaObject.flatMap_parts hsettled.parts]
  exact (parts_toDeclaration_perm hsettled halone name).symm

/-- Songs and what they are covers of: a table that references itself, an index without a name
and a trigger. -/
def songDeclaration : Declaration where
  name := "music"
  enums := [⟨"mood", ["sad", "calm"]⟩]
  functions := [{ name := "touch", returns := "trigger", body := "BEGIN RETURN NEW; END" }]
  tables := [
    { name := "song"
      columns := [{ name := "id", type := .uuid }, { name := "cover_of", type := .uuid },
        { name := "mood", type := .custom "mood" }]
      constraints := [
        { kind := .foreignKey
            { columns := ["cover_of"], referencesTable := "song", referencesColumns := ["id"] } },
        { kind := .primaryKey ["id"] }]
      indexes := [{ columns := ["mood"] }]
      triggers := [{ name := "stamp", function := "touch", events := [.update] }] }]

theorem register_toDeclaration_songs : ∃ graph, songDeclaration.register = .ok graph ∧
    graph.size = 6 ∧ (graph.toDeclaration "copy").register = .ok graph := by
  have hsize : songDeclaration.register.toOption.map SchemaGraph.size = some 6 := by
    decide +kernel
  obtain ⟨graph, hgraph, hsize⟩ := Option.map_eq_some_iff.1 hsize
  rw [Outcome.toOption_eq_some_iff] at hgraph
  exact ⟨graph, hgraph, hsize, register_toDeclaration (.inl ⟨_, hgraph⟩) "copy"⟩

end Registration

end SchemaPlan
