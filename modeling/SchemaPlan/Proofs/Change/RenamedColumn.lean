import SchemaPlan.Proofs.Change.ColumnChange
import SchemaPlan.Proofs.Change.Renaming
import SchemaPlan.Proofs.Graph.NamedParts

/-!
# Schemas with another name for a column

Registration looks up every column that is listed, so a rename that forgets one place leaves
something that is no schema.

* `mem_columns_of_mem_columnsListed`: whatever is listed as a column of a table is one, so a name
  that is free in the table is free everywhere.
* `references_afterColumn`: a rename of a column changes no dependency.
* `renameColumn_follows`: a rename can always be undone, and it leaves a schema with the same
  identities and dependencies exactly when no key outside the table lists the column.
* `outside_key_not_followed`: a unique key outside its table keeps the old name.
-/

set_option autoImplicit false

namespace SchemaPlan.Change

/-! ## Registration -/

open Registration

variable {objects : List SchemaObject} {object : SchemaObject} {t : Table} {table old new : String}

theorem parts_afterColumn (h : object.parts = [object]) :
    (afterColumn table old new object).parts = [afterColumn table old new object] := by
  cases object with
  | table u =>
    rw [SchemaObject.table_parts_iff] at h
    simp only [afterColumn]
    split
    · refine SchemaObject.table_parts_iff.2 ⟨List.forall_mem_map.2 fun c hc => ?_, h.2⟩
      rw [← h.1 c hc]
      cases c.kind <;> rfl
    · exact SchemaObject.table_parts_iff.2 h
  | constraint c => simp only [afterColumn]; split <;> rfl
  | index i => simp only [afterColumn]; split <;> rfl
  | _ => rfl

/-- Constraints and indexes keep their names. -/
theorem withName_afterColumn (h : object.withName = object) :
    (afterColumn table old new object).withName = afterColumn table old new object := by
  have hnames : (afterColumn table old new object).named.map SchemaObject.writtenName =
      object.named.map SchemaObject.writtenName := by
    cases object with
    | table u =>
      simp only [afterColumn]
      split
      · simp only [SchemaObject.named, List.map_map]
        rfl
      · rfl
    | constraint c => simp only [afterColumn]; split <;> rfl
    | index i => simp only [afterColumn]; split <;> rfl
    | _ => rfl
  rw [SchemaObject.withName_eq_self_iff] at h ⊢
  rw [← List.forall_mem_map (P := fun name => name ≠ ""), hnames, List.forall_mem_map]
  exact h

/-- Types that are resolved stay so under another name of their column. -/
theorem resolveEnums_rename {isEnum : String → Bool} {columns : List Column}
    (h : ∀ column ∈ columns, column.type.resolveEnums isEnum = column.type) :
    (Table.updateFirst old (fun column => { column with name := new }) columns).map
        (fun column => { column with type := column.type.resolveEnums isEnum }) =
      Table.updateFirst old (fun column => { column with name := new }) columns := by
  refine (List.map_congr_left fun column hcolumn => ?_).trans (List.map_id' _)
  have hmem := List.mem_map_of_mem (f := Column.type) hcolumn
  rw [map_updateFirst_name fun _ => rfl] at hmem
  obtain ⟨original, horiginal, htype⟩ := List.mem_map.1 hmem
  rw [← htype, h original horiginal, htype]

/-- The types of columns stay resolved. -/
theorem resolveEnums_afterColumn (h : Settled objects) :
    Registration.resolveEnums (objects.map (afterColumn table old new)) =
      objects.map (afterColumn table old new) := by
  rw [Registration.resolveEnums, namesOf_map (id_afterColumn table old new), List.map_map]
  refine List.map_congr_left fun object hobject => ?_
  rw [Function.comp_apply]
  cases object with
  | table u =>
    simp only [afterColumn]
    split
    · simp only [SchemaObject.resolveEnums]
      rw [resolveEnums_rename (h.table hobject).2]
    · exact h.resolveEnums _ hobject
  | constraint c => simp only [afterColumn]; split <;> rfl
  | index i => simp only [afterColumn]; split <;> rfl
  | _ => rfl

/-- There is one table with a name. -/
theorem eq_of_table_mem (h : Settled objects) (ht : .table t ∈ objects) {u : Table}
    (hu : .table u ∈ objects) (hname : u.name = t.name) : u = t :=
  SchemaObject.table.inj (h.ascending.eq_of_key_eq hu ht (congrArg ObjectId.table hname))

/-- **Whatever is listed as a column of a table is one.** -/
theorem mem_columns_of_mem_columnsListed (h : Settled objects) (ht : .table t ∈ objects)
    (hobject : object ∈ objects) {name : String} (hname : name ∈ object.columnsListed t.name) :
    name ∈ t.columns.map Column.name := by
  have hcolumns : ∀ {columns}, HasColumns objects t.name columns → name ∈ columns →
      name ∈ t.columns.map Column.name := by
    rintro columns ⟨u, hu, hsame, hall⟩ hmem
    rw [← eq_of_table_mem h ht hu hsame]
    exact Table.column?_isSome_iff.1 (hall name hmem)
  have hsound := h.sound hobject
  cases object with
  | table u =>
    rw [SchemaObject.columnsListed] at hname
    split at hname
    · rename_i hsame
      obtain ⟨c, hc, hmem⟩ := List.mem_flatMap.1 hname
      rw [← eq_of_table_mem h ht hobject hsame]
      exact Table.column?_isSome_iff.1 (hsound.2.2 c hc name hmem)
    · cases hname
  | constraint c =>
    rcases List.mem_append.1 hname with hown | hreferenced
    · split at hown
      · rename_i hsame
        exact hcolumns (hsame ▸ hsound.1) hown
      · cases hown
    · obtain ⟨key, hkey, hmem⟩ := List.mem_flatMap.1 hreferenced
      split at hmem
      · rename_i hsame
        exact hcolumns (hsame ▸ hsound.2 key (Option.mem_toList.1 hkey)) hmem
      · cases hmem
  | index i =>
    rw [SchemaObject.columnsListed] at hname
    split at hname
    · rename_i hsame
      exact hcolumns (hsame ▸ hsound) hname
    · cases hname
  | _ => cases hname

/-- What becomes of a table. -/
theorem exists_table_afterColumn (table old new : String) {u : Table}
    (hnodup : (u.columns.map Column.name).Nodup) :
    ∃ u', afterColumn table old new (.table u) = .table u' ∧ u'.name = u.name ∧
      u'.columns.map Column.name = if u.name = table then
        (u.columns.map Column.name).map (replaceName old new) else u.columns.map Column.name := by
  simp only [afterColumn]
  split
  · exact ⟨_, rfl, rfl, map_name_rename old new hnodup⟩
  · exact ⟨u, rfl, rfl, rfl⟩

/-- **Columns that were there are there under their new names.** -/
theorem HasColumns.afterColumn (h : Settled objects) (table old new : String) {other : String}
    {names : List String} (hcolumns : HasColumns objects other names) :
    HasColumns (objects.map (afterColumn table old new)) other
      (if other = table then names.map (replaceName old new) else names) := by
  obtain ⟨u, hu, rfl, hall⟩ := hcolumns
  obtain ⟨u', heq, hname, hnames⟩ :=
    exists_table_afterColumn table old new (h.sound hu).1
  refine ⟨u', List.mem_map.2 ⟨_, hu, heq⟩, hname, fun name hmem => ?_⟩
  rw [Table.column?_isSome_iff, hnames]
  split at hmem
  · rename_i hsame
    obtain ⟨original, horiginal, rfl⟩ := List.mem_map.1 hmem
    rw [if_pos hsame]
    exact List.mem_map_of_mem (Table.column?_isSome_iff.1 (hall original horiginal))
  · rename_i hsame
    rw [if_neg hsame]
    exact Table.column?_isSome_iff.1 (hall name hmem)

/-- The columns of the renamed table stay distinct, and its own constraints find theirs. -/
theorem sound_table_afterColumn (h : Settled objects) (ht : .table t ∈ objects)
    (hnew : new ∉ t.columns.map Column.name) {u : Table} (hu : .table u ∈ objects) :
    Sound (objects.map (afterColumn t.name old new)) (afterColumn t.name old new (.table u)) := by
  have hknown : ∀ {id}, Known objects id → Known (objects.map (afterColumn t.name old new)) id :=
    (known_map_iff (id_afterColumn t.name old new)).2
  obtain ⟨hnodup, henums, hcolumns⟩ := h.sound hu
  simp only [afterColumn]
  split
  · rename_i hsame
    obtain rfl := eq_of_table_mem h ht hu hsame
    have hnames := map_name_rename old new hnodup
    refine ⟨?_, fun column hcolumn name hname => ?_,
      List.forall_mem_map.2 fun c hc name hmem => ?_⟩
    · rw [hnames]
      refine hnodup.map_on fun x hx y hy heq => ?_
      have hback := congrArg (replaceName new old) heq
      rwa [replaceName_back fun hfree : x = new => hnew (hfree ▸ hx),
        replaceName_back fun hfree : y = new => hnew (hfree ▸ hy)] at hback
    · have hmem : column.type ∈ List.map Column.type
          (Table.updateFirst old (fun column => { column with name := new }) u.columns) :=
        List.mem_map_of_mem hcolumn
      rw [map_updateFirst_name fun _ => rfl] at hmem
      obtain ⟨original, horiginal, htype⟩ := List.mem_map.1 hmem
      exact hknown (henums original horiginal name (htype ▸ hname))
    · rw [columns_kindAfterColumn] at hmem
      obtain ⟨original, horiginal, rfl⟩ := List.mem_map.1 hmem
      rw [Table.column?_isSome_iff, hnames]
      exact List.mem_map_of_mem (Table.column?_isSome_iff.1 (hcolumns c hc original horiginal))
  · exact ⟨hnodup, fun column hcolumn name hname => hknown (henums column hcolumn name hname),
      hcolumns⟩

/-- Its columns are found again, unless the constraint is a key that still lists the old name. -/
theorem sound_constraint_afterColumn (h : Settled objects) {c : TableConstraint}
    (hc : .constraint c ∈ objects)
    (houtside : ¬ (SchemaObject.constraint c).IsOutsideKey table old) :
    Sound (objects.map (afterColumn table old new))
      (afterColumn table old new (.constraint c)) := by
  obtain ⟨hcolumns, hkeys⟩ := h.sound hc
  have hown := HasColumns.afterColumn h table old new hcolumns
  cases hkind : c.constraint.kind with
  | foreignKey key =>
    rw [hkind] at hown
    simp only [afterColumn, hkind]
    refine ⟨hown, fun changed hchanged => ?_⟩
    cases hchanged
    exact HasColumns.afterColumn h table old new
      (hkeys key (by rw [Constraint.foreignKey?, hkind]))
  | _ =>
    have hlisted : c.table = table → old ∉ c.constraint.kind.columns :=
      fun htable hmem => houtside ⟨by rw [hkind]; rfl, htable, hmem⟩
    simp only [afterColumn, hkind]
    refine ⟨?_, fun key hkey => by rw [Constraint.foreignKey?, hkind] at hkey; cases hkey⟩
    split at hown
    · rename_i htable
      rwa [map_replaceName_of_not_mem (hlisted htable)] at hown
    · exact hown

/-- Every reference is found again, unless a key outside the table still lists the old name. -/
theorem sound_afterColumn (h : Settled objects) (ht : .table t ∈ objects)
    (hnew : new ∉ t.columns.map Column.name) (hobject : object ∈ objects)
    (houtside : ¬ object.IsOutsideKey t.name old) :
    Sound (objects.map (afterColumn t.name old new)) (afterColumn t.name old new object) := by
  have hknown : ∀ {id}, Known objects id → Known (objects.map (afterColumn t.name old new)) id :=
    (known_map_iff (id_afterColumn t.name old new)).2
  have hsound := h.sound hobject
  cases object with
  | table u => exact sound_table_afterColumn h ht hnew hobject
  | constraint c => exact sound_constraint_afterColumn h hobject houtside
  | index i =>
    have hcolumns := HasColumns.afterColumn h t.name old new hsound
    simp only [afterColumn]
    split
    · rename_i hsame
      rwa [if_pos hsame] at hcolumns
    · rename_i hsame
      rwa [if_neg hsame] at hcolumns
  | trigger r =>
    refine ⟨?_, hknown hsound.2⟩
    have htable := HasColumns.afterColumn h t.name old new hsound.1
    rwa [List.map_nil, ite_self] at htable
  | function f => exact fun id hid => hknown (hsound id hid)
  | _ => exact hsound

/-- A key outside the table that lists the old name has lost it. -/
theorem not_sound_of_isOutsideKey (h : Settled objects) (hne : new ≠ old)
    (houtside : object.IsOutsideKey t.name old) :
    ¬ Sound (objects.map (afterColumn t.name old new)) (afterColumn t.name old new object) := by
  intro hsound
  cases object with
  | constraint c =>
    obtain ⟨hkey, htable, hmem⟩ := houtside
    rw [afterColumn_of_foreignKey?_eq_none (Constraint.foreignKey?_eq_none hkey)] at hsound
    obtain ⟨⟨u', hu', hname, hall⟩, -⟩ := hsound
    obtain ⟨original, horiginal, heq⟩ := List.mem_map.1 hu'
    cases original with
    | table u =>
      obtain ⟨u'', heq', hname', hnames⟩ :=
        exists_table_afterColumn t.name old new (h.sound horiginal).1
      obtain rfl := SchemaObject.table.inj (heq'.symm.trans heq)
      rw [if_pos (hname'.symm.trans (hname.trans htable))] at hnames
      have hlisted := Table.column?_isSome_iff.1 (hall old hmem)
      rw [hnames] at hlisted
      exact not_mem_map_replaceName hne _ hlisted
    | _ =>
      have hkind := congrArg SchemaObject.kind heq
      rw [kind_afterColumn] at hkind
      cases hkind
  | _ => exact houtside

/-- **A rename of a column changes no dependency.** -/
theorem references_afterColumn (object : SchemaObject) :
    references (objects.map (afterColumn table old new)) (afterColumn table old new object) =
      references objects object := by
  have hcalls : calls (objects.map (afterColumn table old new)) = calls objects := by
    funext expression
    rw [calls, calls, namesOf_map (id_afterColumn table old new)]
  have hextensions := extensions_map (id_afterColumn table old new) objects
  have hcolumn : columnDependencies (objects.map (afterColumn table old new)) =
      columnDependencies objects := by
    funext column
    rw [columnDependencies, columnDependencies, hcalls, hextensions]
  have hcheck : checkDependencies (objects.map (afterColumn table old new)) =
      checkDependencies objects := by
    funext constraint
    simp only [checkDependencies, hcalls]
  cases object with
  | table u =>
    simp only [afterColumn]
    split
    · have hconstraints : ∀ c : Constraint,
          checkDependencies objects { c with kind := kindAfterColumn old new c.kind } =
            checkDependencies objects c := by
        rintro ⟨name, kind⟩
        cases kind <;> rfl
      simp only [references, hcolumn, hcheck, List.flatMap_map, hconstraints]
      simp only [List.flatMap_def]
      rw [map_updateFirst_name fun _ => rfl]
    · simp only [references, hcolumn, hcheck]
  | constraint c =>
    cases hkind : c.constraint.kind with
    | foreignKey key => simp only [afterColumn, hkind, references, Constraint.foreignKey?,
        keyAfterColumn, Option.toList_some, List.map_cons, List.map_nil]
    | _ => simp only [afterColumn, hkind, references]
  | index i =>
    simp only [afterColumn]
    split <;> simp only [references, hcalls, hextensions]
  | _ => rfl

/-! ## Renaming a column of a registered schema -/

/-- **What a column rename leaves.**  Identities and dependencies stay, the new name stands wherever
the old one stood, and columns of other tables are listed as before. -/
structure FollowsColumn (before after : SchemaGraph) (table old new : String) : Prop where
  ids : after.ids = before.ids
  dependencies : ∀ id, after.dependencies id = before.dependencies id
  listed : after.objects.map (SchemaObject.columnsListed table) =
    before.objects.map fun object => (object.columnsListed table).map (replaceName old new)
  others : ∀ other ≠ table, after.objects.map (SchemaObject.columnsListed other) =
    before.objects.map (SchemaObject.columnsListed other)
  gone : ∀ object ∈ after.objects, old ∉ object.columnsListed table

theorem ascending_afterColumn (h : Settled objects) (table old new : String) :
    Order.Ascending SchemaObject.id (objects.map (afterColumn table old new)) := by
  rw [Order.Ascending, List.pairwise_map]
  simp only [id_afterColumn]
  exact h.ascending

/-- When the renamed objects are registered, and as what. -/
theorem register_afterColumn_iff (h : Settled objects) (ht : .table t ∈ objects) (hne : new ≠ old)
    (hnew : new ∉ t.columns.map Column.name) {result : SchemaGraph} :
    register (objects.map (afterColumn t.name old new)) = .ok result ↔
      (∀ object ∈ objects, ¬ object.IsOutsideKey t.name old) ∧
        result = graphOf (objects.map (afterColumn t.name old new)) := by
  rw [register_eq_ok_iff_of_whole (ascending_afterColumn h t.name old new)
    (List.forall_mem_map.2 fun object hobject => parts_afterColumn (h.parts object hobject))
    (List.forall_mem_map.2 fun object hobject => withName_afterColumn (h.withName object hobject))
    (resolveEnums_afterColumn h), List.forall_mem_map]
  refine and_congr_left fun _ => forall₂_congr fun object hobject => ⟨fun hsound houtside => ?_, ?_⟩
  · exact not_sound_of_isOutsideKey h hne houtside hsound
  · exact sound_afterColumn h ht hnew hobject

theorem followsColumn (h : Settled objects) (hne : new ≠ old)
    (houtside : ∀ object ∈ objects, ¬ object.IsOutsideKey table old) :
    FollowsColumn (graphOf objects) (graphOf (objects.map (afterColumn table old new)))
      table old new := by
  have hasc := ascending_afterColumn h table old new
  have hlisted : ∀ object ∈ objects, (afterColumn table old new object).columnsListed table =
      (object.columnsListed table).map (replaceName old new) :=
    fun object hobject => columnsListed_afterColumn (houtside object hobject)
  refine ⟨?_, fun id => ?_, ?_, fun other hother => ?_, ?_⟩
  · rw [← SchemaGraph.map_id_objects, ← SchemaGraph.map_id_objects, objects_graphOf hasc,
      objects_graphOf h.ascending, List.map_map]
    simp only [Function.comp_def, id_afterColumn]
  · have hdependencies : ∀ object,
        Registration.dependencies (objects.map (afterColumn table old new))
          (afterColumn table old new object) = Registration.dependencies objects object := by
      intro object
      rw [Registration.dependencies, Registration.dependencies, references_afterColumn]
    simp only [SchemaGraph.dependencies, SchemaGraph.node?, nodes_graphOf hasc,
      nodes_graphOf h.ascending, List.map_map, List.find?_map, Option.map_map, Function.comp_def,
      GraphNode.id, id_afterColumn, hdependencies]
  · rw [objects_graphOf hasc, objects_graphOf h.ascending, List.map_map]
    exact List.map_congr_left hlisted
  · rw [objects_graphOf hasc, objects_graphOf h.ascending, List.map_map]
    exact List.map_congr_left fun object _ => columnsListed_afterColumn_of_ne hother
  · rw [objects_graphOf hasc, List.forall_mem_map]
    intro object hobject
    rw [hlisted object hobject]
    exact not_mem_map_replaceName hne _

/-- A rename of a column of a registered schema succeeds. -/
theorem renameColumn_eq_ok (h : Settled objects) (ht : .table t ∈ objects)
    (hold : old ∈ t.columns.map Column.name) (hnew : new ∉ t.columns.map Column.name) :
    renameColumn objects t.name old new = .ok (objects.map (afterColumn t.name old new)) := by
  have hfound : findTable? objects t.name = some t :=
    (table?_eq_some_iff h.ascending.nodup_keys).2 ⟨ht, rfl⟩
  refine renameColumn_eq_ok_iff.2 ⟨t, hfound, ?_, fun hnone => ?_, rfl⟩
  · rwa [← Table.column?_isSome_iff, Option.not_isSome_iff_eq_none] at hnew
  · rw [← Table.column?_isSome_iff, hnone] at hold
    cases hold

/-- It can be undone, whether or not what it leaves is a schema. -/
theorem renameColumn_back (h : Settled objects) (ht : .table t ∈ objects)
    (hold : old ∈ t.columns.map Column.name) (hnew : new ∉ t.columns.map Column.name) :
    renameColumn (objects.map (afterColumn t.name old new)) t.name new old = .ok objects := by
  have hne : new ≠ old := fun heq => hnew (heq ▸ hold)
  obtain ⟨u, hu, hname, hnames⟩ := exists_table_afterColumn t.name old new (h.sound ht).1
  rw [if_pos rfl] at hnames
  have hfound : findTable? (objects.map (afterColumn t.name old new)) t.name = some u := by
    refine (table?_eq_some_iff (ascending_afterColumn h t.name old new).nodup_keys).2 ⟨?_, hname⟩
    exact hu ▸ List.mem_map_of_mem ht
  refine renameColumn_eq_ok_iff.2 ⟨u, hfound, ?_, fun hnone => ?_, ?_⟩
  · rw [← Option.not_isSome_iff_eq_none, Table.column?_isSome_iff, hnames]
    exact not_mem_map_replaceName hne _
  · have hmem : new ∈ u.columns.map Column.name := by
      rw [hnames]
      exact List.mem_map.2 ⟨old, hold, if_pos rfl⟩
    rw [← Table.column?_isSome_iff, hnone] at hmem
    cases hmem
  · rw [List.map_map]
    refine ((List.map_congr_left fun object hobject => ?_).trans (List.map_id' objects)).symm
    refine afterColumn_back (fun hmem => hnew ?_) ?_
    · exact mem_columns_of_mem_columnsListed h ht hobject hmem
    · rintro other rfl hsame
      rwa [eq_of_table_mem h ht hobject hsame]

/-- What stands in the way is a key outside the table, and it names the lost column. -/
theorem exists_outsideKey_of_register_eq_error (h : Settled objects) (ht : .table t ∈ objects)
    (hnew : new ∉ t.columns.map Column.name) {e : SchemaError}
    (herror : register (objects.map (afterColumn t.name old new)) = .error e) :
    ∃ object ∈ objects, object.IsOutsideKey t.name old ∧
      e = .dangling object.id (.column t.name old) := by
  have hasc := ascending_afterColumn h t.name old new
  obtain ⟨renamed, hrenamed, hunsound, hcheck⟩ := exists_of_register_eq_error_of_whole hasc
    (List.forall_mem_map.2 fun object hobject => parts_afterColumn (h.parts object hobject))
    (List.forall_mem_map.2 fun object hobject => withName_afterColumn (h.withName object hobject))
    (resolveEnums_afterColumn h) herror
  obtain ⟨object, hobject, rfl⟩ := List.mem_map.1 hrenamed
  have houtside : object.IsOutsideKey t.name old := by
    by_contra hno
    exact hunsound (sound_afterColumn h ht hnew hobject hno)
  refine ⟨object, hobject, houtside, ?_⟩
  cases object with
  | constraint c =>
    obtain ⟨hkey, htable, -⟩ := houtside
    have hnone := Constraint.foreignKey?_eq_none hkey
    obtain ⟨u, hu, hname, hnames⟩ := exists_table_afterColumn t.name old new (h.sound ht).1
    rw [if_pos rfl] at hnames
    have hfound : table? (objects.map (afterColumn t.name old new)) c.table = some u :=
      (table?_eq_some_iff hasc.nodup_keys).2
        ⟨hu ▸ List.mem_map_of_mem ht, hname.trans htable.symm⟩
    rw [afterColumn_of_foreignKey?_eq_none hnone, check, requireTable, hfound, hnone] at hcheck
    rcases Outcome.bind_eq_error_iff.1 hcheck with hnothing | ⟨found, hok, hrest⟩
    · cases hnothing
    cases hok
    rcases Outcome.bind_eq_error_iff.1 hrest with hcolumns | ⟨-, -, hpure⟩
    · obtain ⟨name, hmem, hmissing, rfl⟩ := exists_of_requireColumns_eq_error hcolumns
      rw [hnames] at hmissing
      have hcolumn : name ∈ t.columns.map Column.name := by
        refine mem_columns_of_mem_columnsListed h ht hobject (List.mem_append_left _ ?_)
        rwa [if_pos htable]
      have hold : name = old := by
        by_contra hne
        exact hmissing (List.mem_map.2 ⟨name, hcolumn, if_neg hne⟩)
      rw [hold, hname]
    · cases hpure
  | _ => exact houtside.elim

/-- **A rename of a column is followed wherever the column is listed, and can be undone.**  The
renamed schema is registered exactly when no key outside the table that is no foreign key lists the
column; if one does, it is refused with the name that was lost. -/
theorem renameColumn_follows {sources : List SchemaObject} {graph : SchemaGraph}
    (h : register sources = .ok graph) (ht : .table t ∈ graph.objects)
    (hold : old ∈ t.columns.map Column.name) (hnew : new ∉ t.columns.map Column.name) :
    ∃ renamed, renameColumn graph.objects t.name old new = .ok renamed ∧
      renameColumn renamed t.name new old = .ok graph.objects ∧
      ((∃ result, register renamed = .ok result) ↔
        ∀ object ∈ graph.objects, ¬ object.IsOutsideKey t.name old) ∧
      (∀ result, register renamed = .ok result → FollowsColumn graph result t.name old new) ∧
      ∀ e, register renamed = .error e → ∃ object ∈ graph.objects,
        object.IsOutsideKey t.name old ∧ e = .dangling object.id (.column t.name old) := by
  obtain ⟨hsettled, hgraph⟩ := settled_of_register h
  have hne : new ≠ old := fun heq => hnew (heq ▸ hold)
  refine ⟨_, renameColumn_eq_ok hsettled ht hold hnew, renameColumn_back hsettled ht hold hnew, ?_,
    fun result hresult => ?_, fun e => exists_outsideKey_of_register_eq_error hsettled ht hnew⟩
  · simp only [register_afterColumn_iff hsettled ht hne hnew, exists_and_left, exists_eq, and_true]
  · obtain ⟨houtside, rfl⟩ := (register_afterColumn_iff hsettled ht hne hnew).1 hresult
    have hfollows := followsColumn hsettled hne houtside
    rwa [← hgraph] at hfollows

/-- Employees with their badges.  The number of an employee is listed in the primary key, on both
sides of foreign keys and in an index. -/
def employeeObjects : List SchemaObject := [
  .table { name := "badge", columns := [{ name := "owner", type := .integer }] },
  .table {
    name := "employee"
    columns := [{ name := "id", type := .integer }, { name := "boss", type := .integer }]
    constraints := [{ name := "employee_key", kind := .primaryKey ["id"] }] },
  .constraint ⟨"badge", ⟨"badge_owner", .foreignKey
    { columns := ["owner"], referencesTable := "employee", referencesColumns := ["id"] }⟩⟩,
  .constraint ⟨"employee", ⟨"employee_boss", .foreignKey
    { columns := ["boss", "id"]
      referencesTable := "employee"
      referencesColumns := ["id", "boss"] }⟩⟩,
  .index { name := "employee_line", table := "employee", columns := ["boss", "id"] }]

/-- The number of an employee can be renamed. -/
theorem renameColumn_follows_employee : ∃ graph renamed result,
    register employeeObjects = .ok graph ∧
    renameColumn graph.objects "employee" "id" "number" = .ok renamed ∧
    renameColumn renamed "employee" "number" "id" = .ok graph.objects ∧
    register renamed = .ok result ∧ FollowsColumn graph result "employee" "id" "number" := by
  have hok :
      (register employeeObjects).toOption.map SchemaGraph.objects = some employeeObjects := by
    decide +kernel
  obtain ⟨graph, hgraph, hobjects⟩ := Option.map_eq_some_iff.1 hok
  rw [Outcome.toOption_eq_some_iff] at hgraph
  let employee : Table := {
    name := "employee"
    columns := [{ name := "id", type := .integer }, { name := "boss", type := .integer }]
    constraints := [{ name := "employee_key", kind := .primaryKey ["id"] }] }
  have hmem : .table employee ∈ graph.objects := by
    rw [hobjects]
    decide
  have hinside : ∀ object ∈ graph.objects, ¬ object.IsOutsideKey "employee" "id" := by
    rw [hobjects]
    simp [employeeObjects, SchemaObject.IsOutsideKey, ConstraintKind.isForeignKey]
  obtain ⟨renamed, hrenamed, hback, hregisters, hfollows, -⟩ :=
    renameColumn_follows hgraph hmem (by decide : "id" ∈ employee.columns.map Column.name)
      (by decide : "number" ∉ employee.columns.map Column.name)
  obtain ⟨result, hresult⟩ := hregisters.2 hinside
  exact ⟨graph, renamed, result, hgraph, hrenamed, hback, hresult, hfollows result hresult⟩

/-- A table, and a unique key of it that stands outside. -/
def outsideKeyObjects : List SchemaObject := [
  .table { name := "song", columns := [{ name := "title", type := .text }] },
  .constraint ⟨"song", ⟨"song_key", .unique ["title"]⟩⟩]

/-- **A unique key outside its table does not follow the rename of a column**, so what the rename
leaves can not be registered. -/
theorem outside_key_not_followed : ∃ graph renamed,
    register outsideKeyObjects = .ok graph ∧
    renameColumn graph.objects "song" "title" "name" = .ok renamed ∧
    register renamed = .error
      (.dangling (.within .constraint "song" "song_key") (.column "song" "title")) := by
  let table : SchemaObject :=
    .table { name := "song", columns := [{ name := "title", type := .text }] }
  let key : SchemaObject := .constraint ⟨"song", ⟨"song_key", .unique ["title"]⟩⟩
  let graph : SchemaGraph := .ofNodes [⟨table, []⟩, ⟨key, [.table "song"]⟩]
  let renamed : List SchemaObject :=
    [.table { name := "song", columns := [{ name := "name", type := .text }] }, key]
  exact ⟨graph, renamed, by decide +kernel, by decide +kernel, by decide +kernel⟩

end SchemaPlan.Change
