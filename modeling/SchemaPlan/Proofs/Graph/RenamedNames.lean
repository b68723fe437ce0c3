import SchemaPlan.Proofs.Graph.NamedParts
import SchemaPlan.Proofs.Graph.RenamedTable

/-!
# Computed names after the rename of a table

The computed name of a constraint or index depends on the names of tables, so another name for a
table changes some of them.

* `Renamable` says when a table of a declaration can get another name without two constraints or
  indexes getting the same.
* `Renamable.nameAfter_inj`, `Renamable.nameAfter_ne`: names that were different stay so, and no
  name from before comes back for something else.
* `Renamable.exists_register`: the renamed declaration is registered.
-/

set_option autoImplicit false

namespace SchemaPlan

open Change (replaceName)

/-! ## Names that can be told apart -/

theorem Declaration.named_renameTable {old new : String} (hnew : new ≠ "")
    (declaration : Declaration) :
    (declaration.renameTable old new).named =
      declaration.named.map (SchemaObject.renameTable old new) := by
  simp only [named, renameTable, List.flatMap_map, List.map_flatMap]
  refine List.flatMap_congr fun t _ => ?_
  rw [Table.named, SchemaObject.ownIndexes_renameTable hnew, Table.named, List.map_append,
    List.map_map]
  simp only [Table.renameTable, List.map_map]
  rfl

/-- **A table of a declaration that can get another name.** -/
structure Declaration.Renamable (declaration : Declaration) (old new : String) : Prop where
  functions : ∀ f ∈ declaration.functions, f.dependsOn = []
  plain : ∀ t ∈ declaration.tables, '.' ∉ t.name.toList
  /-- Within a table no two constraints are registered with one name. -/
  distinct : ∀ t ∈ declaration.tables,
    (t.constraints.map fun c => (c.withName t.name).name).Nodup
  source : old ∈ declaration.tables.map Table.name
  fresh : new ∉ declaration.tables.map Table.name
  plainTarget : '.' ∉ new.toList
  /-- No hint has an empty name, and an index without the name of a table is on the table it stands
  in. -/
  target_ne_empty : new ≠ ""
  /-- No name that is written down is one that is computed, before or after the rename. -/
  written : ∀ x ∈ declaration.named, x.writtenName ≠ "" →
    ∀ y ∈ declaration.named ++ (declaration.renameTable old new).named,
      x.writtenName ≠ y.computedName
  /-- The digests in computed names do not collide, before or after the rename. -/
  computed : ∀ x ∈ declaration.named ++ (declaration.renameTable old new).named,
    ∀ y ∈ declaration.named ++ (declaration.renameTable old new).named,
      x.writtenName = "" → y.writtenName = "" → x.computedName = y.computedName → x = y

/-- The name that a constraint or index is registered with after the rename of a table. -/
def SchemaObject.nameAfter (old new : String) (object : SchemaObject) : String :=
  (object.renameTable old new).givenName

/-- Whether a constraint or index has a name that is computed from the name of a table. -/
def SchemaObject.isNamedAfter (table : String) (object : SchemaObject) : Bool :=
  object.writtenName == "" && object.tableNames.contains table

/-- The constraints and indexes with names that are computed from the name of a table. -/
def Declaration.namedAfter (declaration : Declaration) (table : String) : List SchemaObject :=
  declaration.named.filter (SchemaObject.isNamedAfter table)

namespace SchemaObject

variable {object x : SchemaObject} {old new : String}

theorem writtenName_renameTable (old new : String) (object : SchemaObject) :
    (object.renameTable old new).writtenName = object.writtenName := by
  cases object <;> rfl

theorem IsNamed.renameTable (hnew : '.' ∉ new.toList)
    (h : x.IsNamed) : (x.renameTable old new).IsNamed := by
  cases h with
  | constraint c hc => exact .constraint _ (not_mem_replaceName hnew hc)
  | index i => exact .index _

/-- The constraints and index in a part name no other tables than it does. -/
theorem tableNames_subset_of_mem_named (hparts : object.parts = [object]) (hx : x ∈ object.named) :
    x.tableNames ⊆ object.tableNames := by
  cases object with
  | table t =>
    obtain ⟨c, hc, rfl⟩ := List.mem_map.1 hx
    have hinline := (table_parts_iff.1 hparts).1 c hc
    simp only [tableNames, Constraint.foreignKey?_eq_none hinline]
    exact fun _ hname => hname
  | constraint c =>
    rw [List.mem_singleton.1 hx]
    exact List.Subset.refl _
  | index i =>
    rw [List.mem_singleton.1 hx]
    exact List.Subset.refl _
  | _ => cases hx

/-- A constraint that stands in a table of its own says no more about tables. -/
theorem renameTable_inline {t : Table} (hparts : (table t).parts = [table t]) {c : Constraint}
    (hc : c ∈ t.constraints) (old new : String) :
    (constraint ⟨t.name, c⟩).renameTable old new = constraint ⟨replaceName old new t.name, c⟩ := by
  rw [renameTable, renameTable_of_not_foreignKey ((table_parts_iff.1 hparts).1 c hc)]

/-- Another name for a table can be written before or after the names of constraints are. -/
theorem renameTable_mapNames {name : SchemaObject → String} (other : SchemaObject → String)
    (hparts : object.parts = [object])
    (h : ∀ x ∈ object.named, other (x.renameTable old new) = name x) :
    (object.mapNames name).renameTable old new = (object.renameTable old new).mapNames other := by
  cases object with
  | table t =>
    have hsame : ∀ c ∈ t.constraints,
        ({ c with name := name (constraint ⟨t.name, c⟩) } : Constraint) =
          { c with name := other (constraint ⟨replaceName old new t.name, c⟩) } := fun c hc => by
      rw [← h _ (List.mem_map_of_mem hc), renameTable_inline hparts hc]
    rw [mapNames, List.map_congr_left hsame]
    rfl
  | constraint c =>
    have hsame := h _ (List.mem_singleton_self _)
    rw [mapNames, ← hsame]
    rfl
  | index i =>
    have hsame := h _ (List.mem_singleton_self _)
    rw [mapNames, ← hsame]
    rfl
  | _ => rfl

theorem named_renameTable_of_parts (hparts : object.parts = [object]) (old new : String) :
    (object.renameTable old new).named = object.named.map (renameTable old new) := by
  cases object with
  | table t =>
    simp only [renameTable, named, List.map_map]
    exact List.map_congr_left fun c hc => (renameTable_inline hparts hc old new).symm
  | _ => rfl

/-- **After the table has got its old name back**, a part of the renamed declaration differs from
the one before the rename by the names of its constraints and index. -/
theorem renameTable_back_withName (hparts : object.parts = [object]) (h : new ∉ object.tableNames) :
    ((object.renameTable old new).withName).renameTable new old =
      object.mapNames (nameAfter old new) := by
  rw [withName_eq_mapNames, renameTable_mapNames (nameAfter old new)
    (parts_renameTable_of_parts hparts old new), renameTable_back h]
  intro x hx
  rw [named_renameTable_of_parts hparts] at hx
  obtain ⟨y, hy, rfl⟩ := List.mem_map.1 hx
  rw [renameTable_back fun hmem => h (tableNames_subset_of_mem_named hparts hy hmem), nameAfter]

/-- Identities that are the same after the rename of a table were the same before. -/
theorem idNamed_eq_of_renameTable {p q : SchemaObject} {common : String} (hnew : '.' ∉ new.toList)
    (hp : ∀ table ∈ p.tableNames, table ≠ new ∧ '.' ∉ table.toList)
    (hq : ∀ table ∈ q.tableNames, table ≠ new ∧ '.' ∉ table.toList)
    (h : (p.renameTable old new).idNamed common = (q.renameTable old new).idNamed common) :
    p.idNamed common = q.idNamed common := by
  have hback : ∀ {t t'}, t ∈ p.tableNames → t' ∈ q.tableNames →
      replaceName old new t = replaceName old new t' → t = t' := fun ht ht' heq => by
    have hsame := congrArg (replaceName new old) heq
    rwa [replaceName_back (hp _ ht).1, replaceName_back (hq _ ht').1] at hsame
  have hscope : ∀ {kind : ObjectKind} {t t' name name'}, kind.isTableScoped = true →
      t ∈ p.tableNames → t' ∈ q.tableNames →
      ObjectId.within kind (replaceName old new t) name =
        .within kind (replaceName old new t') name' →
      ObjectId.within kind t name = .within kind t' name' := fun hkind ht ht' heq => by
    obtain ⟨htable, rfl⟩ := ObjectId.within_inj hkind (not_mem_replaceName hnew (hp _ ht).2)
      (not_mem_replaceName hnew (hq _ ht').2) heq
    rw [hback ht ht' htable]
  cases p with
  | table t =>
    cases q with
    | table t' =>
      exact congrArg ObjectId.table (hback (List.mem_singleton_self _) (List.mem_singleton_self _)
        (congrArg ObjectId.name h))
    | _ => cases congrArg ObjectId.kind h
  | constraint c =>
    cases q with
    | constraint c' => exact hscope rfl List.mem_cons_self List.mem_cons_self h
    | _ => cases congrArg ObjectId.kind h
  | trigger r =>
    cases q with
    | trigger r' => exact hscope rfl (List.mem_singleton_self _) (List.mem_singleton_self _) h
    | _ => cases congrArg ObjectId.kind h
  | _ =>
    cases q with
    | table _ => cases congrArg ObjectId.kind h
    | constraint _ => cases congrArg ObjectId.kind h
    | trigger _ => cases congrArg ObjectId.kind h
    | _ => exact h

end SchemaObject

namespace Declaration

open Registration (resolvedParts namedParts)

variable {declaration : Declaration} {graph : SchemaGraph} {old new : String}
  {part x y : SchemaObject}

theorem exists_part_of_mem_named (hx : x ∈ declaration.named) :
    ∃ part ∈ resolvedParts declaration.objects, x ∈ part.named :=
  List.mem_flatMap.1 ((Registration.flatMap_named_resolvedParts declaration).mem_iff.2 hx)

theorem mem_named_of_mem_part (hpart : part ∈ resolvedParts declaration.objects)
    (hx : x ∈ part.named) : x ∈ declaration.named :=
  (Registration.flatMap_named_resolvedParts declaration).mem_iff.1
    (List.mem_flatMap.2 ⟨part, hpart, hx⟩)

theorem Renamable.ne (h : declaration.Renamable old new) : new ≠ old := by
  rintro rfl
  exact h.fresh h.source

/-- The tables that a part of a declaration names. -/
theorem Renamable.tables_of_mem_parts (h : declaration.Renamable old new)
    (hregister : declaration.register = .ok graph)
    (hpart : part ∈ resolvedParts declaration.objects) :
    ∀ table ∈ part.tableNames, table ≠ new ∧ '.' ∉ table.toList := by
  intro table htable
  have hmem := Registration.mem_tables_of_mem_tableNames hregister h.functions hpart htable
  refine ⟨fun heq => h.fresh (heq ▸ hmem), ?_⟩
  obtain ⟨t, ht, rfl⟩ := List.mem_map.1 hmem
  exact h.plain t ht

theorem Renamable.tables_of_mem_named (h : declaration.Renamable old new)
    (hregister : declaration.register = .ok graph) (hx : x ∈ declaration.named) :
    ∀ table ∈ x.tableNames, table ≠ new ∧ '.' ∉ table.toList := by
  obtain ⟨part, hpart, hx⟩ := exists_part_of_mem_named hx
  have hparts := (Registration.parts_of_mem_resolvedParts hpart).1
  exact fun table htable => h.tables_of_mem_parts hregister hpart table
    (SchemaObject.tableNames_subset_of_mem_named hparts hx htable)

theorem Renamable.isNamed (h : declaration.Renamable old new) (hx : x ∈ declaration.named) :
    x.IsNamed := by
  obtain ⟨t, ht, hx⟩ := List.mem_flatMap.1 hx
  rcases List.mem_append.1 hx with hx | hx
  · obtain ⟨c, -, rfl⟩ := List.mem_map.1 hx
    exact .constraint _ (h.plain t ht)
  · obtain ⟨i, -, rfl⟩ := List.mem_map.1 hx
    exact .index i

theorem Renamable.mem_after (h : declaration.Renamable old new) (hx : x ∈ declaration.named) :
    x.renameTable old new ∈ declaration.named ++ (declaration.renameTable old new).named := by
  rw [declaration.named_renameTable h.target_ne_empty]
  exact List.mem_append_right _ (List.mem_map_of_mem hx)

/-- A name that is out of date is another one than the name before the rename. -/
theorem Renamable.computedName_ne (h : declaration.Renamable old new) (hx : x ∈ declaration.named)
    (hwritten : x.writtenName = "") (hold : old ∈ x.tableNames) :
    (x.renameTable old new).computedName ≠ x.computedName := by
  intro heq
  refine SchemaObject.renameTable_ne h.ne hold
    (h.computed _ (h.mem_after hx) _ (List.mem_append_left _ hx) ?_ hwritten heq)
  rw [SchemaObject.writtenName_renameTable, hwritten]

/-- **No name from before the rename comes back** for something else. -/
theorem Renamable.nameAfter_ne (h : declaration.Renamable old new) (hx : x ∈ declaration.named)
    (hwritten : x.writtenName = "") (hold : old ∈ x.tableNames) (hy : y ∈ declaration.named) :
    y.nameAfter old new ≠ x.computedName := by
  rw [SchemaObject.nameAfter, SchemaObject.givenName, SchemaObject.writtenName_renameTable]
  split
  · rename_i hy_written
    intro heq
    have hsame : y.renameTable old new = x := by
      refine h.computed _ (h.mem_after hy) _ (List.mem_append_left _ hx) ?_ hwritten heq
      rw [SchemaObject.writtenName_renameTable, hy_written]
    refine SchemaObject.renameTable_ne h.ne hold ?_
    rw [← hsame, SchemaObject.renameTable_idem]
  · rename_i hy_written
    exact h.written y hy hy_written x (List.mem_append_left _ hx)

/-- **Names that were different stay different.** -/
theorem Renamable.nameAfter_inj (h : declaration.Renamable old new)
    (hregister : declaration.register = .ok graph) (hx : x ∈ declaration.named)
    (hy : y ∈ declaration.named) (heq : x.nameAfter old new = y.nameAfter old new) :
    x.givenName = y.givenName := by
  have hwritten : ∀ {z : SchemaObject}, (z.renameTable old new).writtenName = z.writtenName :=
    SchemaObject.writtenName_renameTable old new _
  simp only [SchemaObject.nameAfter, SchemaObject.givenName, hwritten] at heq
  by_cases hxw : x.writtenName = ""
  · by_cases hyw : y.writtenName = ""
    · rw [if_pos hxw, if_pos hyw] at heq
      have hsame := h.computed _ (h.mem_after hx) _ (h.mem_after hy) (hwritten.trans hxw)
        (hwritten.trans hyw) heq
      have hback := congrArg (SchemaObject.renameTable new old) hsame
      have hfresh : ∀ {z : SchemaObject}, z ∈ declaration.named → new ∉ z.tableNames :=
        fun hz hmem => (h.tables_of_mem_named hregister hz _ hmem).1 rfl
      rw [SchemaObject.renameTable_back (hfresh hx), SchemaObject.renameTable_back (hfresh hy)]
        at hback
      rw [hback]
    · rw [if_pos hxw, if_neg hyw] at heq
      exact absurd heq.symm (h.written y hy hyw _ (h.mem_after hx))
  · by_cases hyw : y.writtenName = ""
    · rw [if_neg hxw, if_pos hyw] at heq
      exact absurd heq (h.written x hx hxw _ (h.mem_after hy))
    · rw [if_neg hxw, if_neg hyw] at heq
      rw [SchemaObject.givenName, SchemaObject.givenName, if_neg hxw, if_neg hyw, heq]

/-! ## Registered names -/

/-- Among some of the parts of all tables no two have one identity. -/
theorem nodup_id_of_parts (hregister : declaration.register = .ok graph)
    (pick : Table → List SchemaObject)
    (hpick : ∀ t, (pick t).Sublist (SchemaObject.table t).parts) :
    ((declaration.tables.flatMap pick).map fun part => part.withName.id).Nodup := by
  have hnodup := (Registration.register_eq_ok_iff_sound.1 hregister).1
  rw [Registration.namedParts_eq, Registration.map_id_resolveEnums, List.map_map] at hnodup
  refine hnodup.sublist (List.Sublist.map _ ?_)
  have htables : (declaration.tables.flatMap fun t => (SchemaObject.table t).parts).Sublist
      (declaration.objects.flatMap SchemaObject.parts) := by
    rw [objects, List.flatMap_append, List.flatMap_map]
    exact List.sublist_append_right _ _
  refine List.Sublist.trans ?_ htables
  generalize declaration.tables = tables
  induction tables with
  | nil => exact List.Sublist.refl _
  | cons t rest ih => exact (hpick t).append ih

theorem nodup_tableNames (hregister : declaration.register = .ok graph) :
    (declaration.tables.map Table.name).Nodup := by
  have hnodup := nodup_id_of_parts hregister (fun t => [.table t.bare])
    fun t => List.Sublist.cons_cons _ (List.nil_sublist _)
  rw [← List.map_eq_flatMap, List.map_map] at hnodup
  refine List.Nodup.of_map ObjectId.table ?_
  rw [List.map_map]
  exact hnodup

/-- The identities of the constraints of all tables are different. -/
theorem Renamable.nodup_constraints (h : declaration.Renamable old new)
    (hregister : declaration.register = .ok graph) :
    ((declaration.tables.flatMap fun t =>
      t.constraints.map fun c => SchemaObject.constraint ⟨t.name, c⟩).map
        fun x => x.idNamed x.givenName).Nodup := by
  rw [List.map_flatMap, List.nodup_flatMap]
  have hkey : ∀ t : Table, (t.constraints.map fun c => SchemaObject.constraint ⟨t.name, c⟩).map
      (fun x => x.idNamed x.givenName) = (t.constraints.map fun c => (c.withName t.name).name).map
        (ObjectId.within .constraint t.name) := by
    intro t
    rw [List.map_map, List.map_map]
    simp only [SchemaObject.withName_constraint]
    rfl
  constructor
  · intro t ht
    rw [hkey]
    exact (h.distinct t ht).map fun _ _ heq =>
      (ObjectId.within_inj rfl (h.plain t ht) (h.plain t ht) heq).2
  · have hnames := nodup_tableNames hregister
    rw [List.Nodup, List.pairwise_map] at hnames
    refine hnames.imp_of_mem fun {t t'} ht ht' hne id hid hid' => ?_
    beta_reduce at hid hid'
    rw [hkey] at hid hid'
    obtain ⟨_, -, rfl⟩ := List.mem_map.1 hid
    obtain ⟨_, -, heq⟩ := List.mem_map.1 hid'
    refine hne ?_
    exact (ObjectId.within_inj rfl (h.plain t' ht') (h.plain t ht) heq).1.symm

/-- The identities of the constraints and indexes of a declaration are different. -/
theorem Renamable.nodup_idNamed (h : declaration.Renamable old new)
    (hregister : declaration.register = .ok graph) :
    (declaration.named.map fun x => x.idNamed x.givenName).Nodup := by
  have hindexes := nodup_id_of_parts hregister (fun t => t.ownIndexes.map .index)
    fun t => (((List.sublist_append_right _ _).trans (List.sublist_append_left _ _)).trans
      (List.sublist_cons_self _ _))
  simp only [SchemaObject.withName_eq_mapNames, SchemaObject.id_mapNames] at hindexes
  have hsplit := (List.flatMap_append_perm declaration.tables
    (fun t => t.constraints.map fun c => SchemaObject.constraint ⟨t.name, c⟩)
    (fun t => t.ownIndexes.map SchemaObject.index)).map fun x => x.idNamed x.givenName
  refine hsplit.nodup_iff.1 ?_
  rw [List.map_append]
  refine (h.nodup_constraints hregister).append hindexes fun id hid hid' => ?_
  obtain ⟨x, hx, rfl⟩ := List.mem_map.1 hid
  obtain ⟨y, hy, heq⟩ := List.mem_map.1 hid'
  obtain ⟨_, -, hx⟩ := List.mem_flatMap.1 hx
  obtain ⟨_, -, hy⟩ := List.mem_flatMap.1 hy
  obtain ⟨c, -, rfl⟩ := List.mem_map.1 hx
  obtain ⟨i, -, rfl⟩ := List.mem_map.1 hy
  cases congrArg ObjectId.kind heq

/-- The identities that constraints and indexes have once the table has got its old name back, and
before their names have. -/
theorem Renamable.nodup_idNamed_nameAfter (h : declaration.Renamable old new)
    (hregister : declaration.register = .ok graph) :
    (declaration.named.map fun x => x.idNamed (x.nameAfter old new)).Nodup := by
  have hnodup := h.nodup_idNamed hregister
  refine List.Nodup.map_on (fun x hx y hy heq => ?_) (List.Nodup.of_map _ hnodup)
  obtain ⟨hname, hcommon⟩ := (h.isNamed hx).eq_of_idNamed_eq (h.isNamed hy) heq
  refine List.inj_on_of_nodup_map hnodup hx hy ?_
  rw [h.nameAfter_inj hregister hx hy hname]
  exact hcommon _

/-- Parts that are registered with one identity after the rename had one before. -/
theorem Renamable.idNamed_eq (h : declaration.Renamable old new)
    (hregister : declaration.register = .ok graph) {p q : SchemaObject}
    (hp : p ∈ resolvedParts declaration.objects) (hq : q ∈ resolvedParts declaration.objects)
    (heq : (p.renameTable old new).idNamed (p.nameAfter old new) =
      (q.renameTable old new).idNamed (q.nameAfter old new)) :
    p.idNamed p.givenName = q.idNamed q.givenName := by
  have hback : ∀ {common}, (p.renameTable old new).idNamed common =
      (q.renameTable old new).idNamed common → p.idNamed common = q.idNamed common :=
    SchemaObject.idNamed_eq_of_renameTable h.plainTarget (h.tables_of_mem_parts hregister hp)
      (h.tables_of_mem_parts hregister hq)
  have hkind : p.kind = q.kind := by
    have hkinds := congrArg ObjectId.kind heq
    rwa [SchemaObject.kind_idNamed, SchemaObject.kind_idNamed, SchemaObject.kind_renameTable,
      SchemaObject.kind_renameTable] at hkinds
  cases hp_named : p.kind.hasComputedName with
  | true =>
    have hpn := mem_named_of_mem_part hp (SchemaObject.mem_named_self hp_named)
    have hqn := mem_named_of_mem_part hq (SchemaObject.mem_named_self (hkind ▸ hp_named))
    obtain ⟨hname, hcommon⟩ := ((h.isNamed hpn).renameTable h.plainTarget).eq_of_idNamed_eq
      ((h.isNamed hqn).renameTable h.plainTarget) heq
    rw [h.nameAfter_inj hregister hpn hqn hname]
    exact hback (hcommon _)
  | false =>
    have hq_named : q.kind.hasComputedName = false := hkind ▸ hp_named
    have hq_renamed : (q.renameTable old new).kind.hasComputedName = false := by
      rwa [SchemaObject.kind_renameTable]
    have hp_renamed : (p.renameTable old new).kind.hasComputedName = false := by
      rwa [SchemaObject.kind_renameTable]
    rw [SchemaObject.idNamed_eq_idNamed hq_named q.givenName p.givenName]
    refine hback ?_
    rw [SchemaObject.idNamed_eq_idNamed hp_renamed p.givenName (p.nameAfter old new), heq]
    exact SchemaObject.idNamed_eq_idNamed hq_renamed _ _

/-- The functions of the declared graph name no dependencies either. -/
theorem Renamable.functions_of_register (h : declaration.Renamable old new)
    (hregister : declaration.register = .ok graph) :
    ∀ f, .function f ∈ graph.objects → f.dependsOn = [] := by
  intro f hf
  have hsource := Registration.function_mem_namedParts_iff.1
    ((Registration.objects_perm_namedParts hregister).mem_iff.1 hf)
  exact h.functions f (by simpa [Declaration.objects] using hsource)

/-- **The declaration with the other name is registered.** -/
theorem Renamable.exists_register (h : declaration.Renamable old new)
    (hregister : declaration.register = .ok graph) :
    ∃ renamed, (declaration.renameTable old new).register = .ok renamed := by
  refine Registration.exists_register_renameTable hregister h.functions h.target_ne_empty ?_
  have hnodup := (Registration.register_eq_ok_iff_sound.1 hregister).1
  rw [namedParts, List.map_map] at hnodup
  rw [namedParts, Registration.resolvedParts_renameTable h.target_ne_empty, List.map_map,
    List.map_map]
  refine List.Nodup.map_on (fun p hp q hq heq => List.inj_on_of_nodup_map hnodup hp hq ?_)
    (List.Nodup.of_map _ hnodup)
  simp only [Function.comp, SchemaObject.withName_eq_mapNames, SchemaObject.id_mapNames] at heq ⊢
  exact h.idNamed_eq hregister hp hq heq

end Declaration

end SchemaPlan
