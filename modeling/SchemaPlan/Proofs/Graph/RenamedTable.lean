import SchemaPlan.Change.Renaming
import SchemaPlan.Proofs.Catalog.Layering
import SchemaPlan.Proofs.Graph.Substitution

/-!
# Declarations with another name for a table

`Declaration.renameTable` writes a new name wherever a declaration names a table: at the table, in
foreign keys, and in the indexes and triggers that say which table they belong to.

* `flatMap_parts_renameTable`: renaming a declaration is renaming its parts.
* `renameTable_back`: a name that was not in use can be renamed back.
* `exists_register_renameTable`: the renamed declaration is registered when no two of its parts
  have one identity.
-/

set_option autoImplicit false

namespace SchemaPlan

open Change (replaceName)

/-! ## Names of tables -/

theorem replaceName_replaceName (old new name : String) :
    replaceName old new (replaceName old new name) = replaceName old new name := by
  simp only [replaceName]
  split_ifs <;> simp_all

theorem replaceName_back {old new name : String} (h : name ≠ new) :
    replaceName new old (replaceName old new name) = name := by
  simp only [replaceName]
  split_ifs <;> simp_all

theorem replaceName_ne_empty {old new name : String} (hnew : new ≠ "") (hname : name ≠ "") :
    replaceName old new name ≠ "" := by
  rw [replaceName]
  split_ifs <;> assumption

theorem not_mem_replaceName {c : Char} {old new name : String} (hnew : c ∉ new.toList)
    (hname : c ∉ name.toList) : c ∉ (replaceName old new name).toList := by
  rw [replaceName]
  split_ifs <;> assumption

/-- The demand of a constraint with another name for a table. -/
def ConstraintKind.renameTable (old new : String) : ConstraintKind → ConstraintKind
  | foreignKey key =>
    foreignKey { key with referencesTable := replaceName old new key.referencesTable }
  | kind => kind

/-- A table with another name for a table.  An index or trigger that names no table belongs to the
table it stands in. -/
def Table.renameTable (old new : String) (t : Table) : Table :=
  { t with
    name := replaceName old new t.name
    constraints := t.constraints.map fun c => { c with kind := c.kind.renameTable old new }
    indexes := t.indexes.map fun i =>
      { i with table := if i.table = "" then "" else replaceName old new i.table }
    triggers := t.triggers.map fun r =>
      { r with table := if r.table = "" then "" else replaceName old new r.table } }

/-- A declaration with another name for a table, everywhere. -/
def Declaration.renameTable (declaration : Declaration) (old new : String) : Declaration :=
  { declaration with tables := declaration.tables.map (Table.renameTable old new) }

/-! ## Parts -/

namespace SchemaObject

/-- A part of a schema with another name for a table. -/
def renameTable (old new : String) : SchemaObject → SchemaObject
  | table t => table { t with name := replaceName old new t.name }
  | constraint c =>
    constraint ⟨replaceName old new c.table,
      { c.constraint with kind := c.constraint.kind.renameTable old new }⟩
  | index i => index { i with table := replaceName old new i.table }
  | trigger r => trigger { r with table := replaceName old new r.table }
  | object => object

/-- Renaming an object of a graph renames a table like this. -/
theorem afterRename_table (old new : String) (object : SchemaObject) :
    Change.afterRename (.table old) (.table new) old new object = object.renameTable old new := by
  cases object with
  | table t =>
    by_cases h : t.name = old
    · simp [Change.afterRename, Change.afterTable, renameTable, replaceName, id, ObjectId.table, h]
    · simp [Change.afterRename, Change.afterTable, renameTable, replaceName, id, ObjectId.table, h]
  | constraint c =>
    obtain ⟨table, name, kind⟩ := c
    cases kind <;> rfl
  | _ => rfl

theorem renameTable_eq_rename (old new : String) (object : SchemaObject) :
    object.renameTable old new = object.rename { table := replaceName old new } := by
  cases object with
  | function f =>
    have hlisted : (f.dependsOn.map fun id => id) = f.dependsOn := List.map_id' _
    simp only [renameTable, rename, hlisted]
  | table t => simp only [renameTable, rename, Column.map_retyped_id, List.map_id']
  | constraint c =>
    obtain ⟨table, name, kind⟩ := c
    cases kind <;> rfl
  | _ => rfl

theorem kind_renameTable (old new : String) (object : SchemaObject) :
    (object.renameTable old new).kind = object.kind := by
  cases object <;> rfl

theorem isForeignKey_renameTable (old new : String) (kind : ConstraintKind) :
    (kind.renameTable old new).isForeignKey = kind.isForeignKey := by
  cases kind <;> rfl

theorem renameTable_of_not_foreignKey {old new : String} {kind : ConstraintKind}
    (h : kind.isForeignKey = false) : kind.renameTable old new = kind := by
  cases kind with
  | foreignKey key => cases h
  | _ => rfl

theorem bare_renameTable (old new : String) (t : Table) :
    table (t.renameTable old new).bare = (table t.bare).renameTable old new := by
  have hinline : ((t.constraints.map fun c => { c with kind := c.kind.renameTable old new }).filter
      fun c => !c.kind.isForeignKey) = t.constraints.filter fun c => !c.kind.isForeignKey := by
    simp only [List.filter_map, Function.comp_def, isForeignKey_renameTable]
    refine (List.map_congr_left fun c hc => ?_).trans (List.map_id' _)
    have hkind := (List.mem_filter.1 hc).2
    rw [renameTable_of_not_foreignKey (by simpa using hkind)]
  simp only [Table.bare, Table.renameTable, renameTable, hinline]

theorem foreignKeys_renameTable (old new : String) (t : Table) :
    (t.renameTable old new).foreignKeys.map constraint =
      (t.foreignKeys.map constraint).map (renameTable old new) := by
  simp only [Table.foreignKeys, Table.renameTable, List.filter_map, List.map_map,
    Function.comp_def, isForeignKey_renameTable, renameTable]

theorem ownIndexes_renameTable {old new : String} (hnew : new ≠ "") (t : Table) :
    (t.renameTable old new).ownIndexes.map index =
      (t.ownIndexes.map index).map (renameTable old new) := by
  simp only [Table.ownIndexes, Table.renameTable, List.map_map]
  refine List.map_congr_left fun i _ => ?_
  by_cases h : i.table = ""
  · simp [h, renameTable]
  · simp [h, renameTable, replaceName_ne_empty hnew h]

theorem ownTriggers_renameTable {old new : String} (hnew : new ≠ "") (t : Table) :
    (t.renameTable old new).ownTriggers.map trigger =
      (t.ownTriggers.map trigger).map (renameTable old new) := by
  simp only [Table.ownTriggers, Table.renameTable, List.map_map]
  refine List.map_congr_left fun r _ => ?_
  by_cases h : r.table = ""
  · simp [h, renameTable]
  · simp [h, renameTable, replaceName_ne_empty hnew h]

/-- **Renaming a table in an object is renaming it in the parts.** -/
theorem parts_renameTable {old new : String} (hnew : new ≠ "") (t : Table) :
    (table (t.renameTable old new)).parts = (table t).parts.map (renameTable old new) := by
  rw [parts, parts, bare_renameTable, foreignKeys_renameTable, ownIndexes_renameTable hnew,
    ownTriggers_renameTable hnew, List.map_cons, List.map_append, List.map_append]

theorem parts_renameTable_of_parts {object : SchemaObject} (hparts : object.parts = [object])
    (old new : String) :
    (object.renameTable old new).parts = [object.renameTable old new] := by
  cases object with
  | table t =>
    have hbare := table_parts_iff.1 hparts
    exact table_parts_iff.2 hbare
  | _ => rfl

end SchemaObject

/-! ## Back and forth -/

namespace SchemaObject

variable {old new : String} {object : SchemaObject}

/-- The tables that an object names. -/
def tableNames : SchemaObject → List String
  | table t => [t.name]
  | constraint c => c.table :: (c.constraint.foreignKey?.toList.map ForeignKey.referencesTable)
  | index i => [i.table]
  | trigger r => [r.table]
  | _ => []

theorem tableNames_renameTable (old new : String) (object : SchemaObject) :
    (object.renameTable old new).tableNames = object.tableNames.map (replaceName old new) := by
  cases object with
  | constraint c =>
    simp only [renameTable, tableNames, Constraint.foreignKey?]
    cases c.constraint.kind <;> rfl
  | _ => rfl

/-- What names a table changes when that gets another name. -/
theorem renameTable_ne (hne : new ≠ old) (h : old ∈ object.tableNames) :
    object.renameTable old new ≠ object := by
  intro heq
  rw [← heq, tableNames_renameTable] at h
  obtain ⟨name, -, hname⟩ := List.mem_map.1 h
  rw [replaceName] at hname
  split at hname
  · exact hne hname
  · exact absurd hname ‹_›

/-- What does not name a table stays when that gets another name. -/
theorem renameTable_of_not_mem (h : old ∉ object.tableNames) :
    object.renameTable old new = object := by
  have hsame : ∀ {name}, name ∈ object.tableNames → replaceName old new name = name :=
    fun {name} hname => if_neg fun heq : name = old => h (heq ▸ hname)
  cases object with
  | table t => rw [renameTable, hsame (List.mem_singleton_self _)]
  | constraint c =>
    have hkind : c.constraint.kind.renameTable old new = c.constraint.kind := by
      cases hkey : c.constraint.kind with
      | foreignKey key =>
        have hname : key.referencesTable ∈ (constraint c).tableNames := by
          simp [tableNames, Constraint.foreignKey?, hkey]
        rw [ConstraintKind.renameTable, hsame hname]
      | _ => rfl
    rw [renameTable, hsame List.mem_cons_self, hkind]
  | index i => rw [renameTable, hsame (List.mem_singleton_self _)]
  | trigger r => rw [renameTable, hsame (List.mem_singleton_self _)]
  | _ => rfl

theorem renameTable_idem (old new : String) (object : SchemaObject) :
    (object.renameTable old new).renameTable old new = object.renameTable old new := by
  cases object with
  | constraint c =>
    have hkind : ∀ kind : ConstraintKind,
        (kind.renameTable old new).renameTable old new = kind.renameTable old new := fun kind => by
      cases kind <;> simp only [ConstraintKind.renameTable, replaceName_replaceName]
    simp only [renameTable, replaceName_replaceName, hkind]
  | _ => simp only [renameTable, replaceName_replaceName]

/-- **A name that was not in use can be renamed back.** -/
theorem renameTable_back (h : new ∉ object.tableNames) :
    (object.renameTable old new).renameTable new old = object := by
  have hback : ∀ {name}, name ∈ object.tableNames →
      replaceName new old (replaceName old new name) = name := fun hname =>
    replaceName_back fun heq => h (heq ▸ hname)
  cases object with
  | table t => simp only [renameTable, hback (List.mem_singleton_self _)]
  | constraint c =>
    have hkind : (c.constraint.kind.renameTable old new).renameTable new old =
        c.constraint.kind := by
      cases hkey : c.constraint.kind with
      | foreignKey key =>
        have hname : key.referencesTable ∈ (constraint c).tableNames := by
          simp [tableNames, Constraint.foreignKey?, hkey]
        simp only [ConstraintKind.renameTable, hback hname]
      | _ => rfl
    simp only [renameTable, hback List.mem_cons_self, hkind]
  | index i => simp only [renameTable, hback (List.mem_singleton_self _)]
  | trigger r => simp only [renameTable, hback (List.mem_singleton_self _)]
  | _ => rfl

end SchemaObject

/-- The parts of a renamed declaration are the renamed parts. -/
theorem Declaration.flatMap_parts_renameTable {old new : String} (hnew : new ≠ "")
    (declaration : Declaration) :
    (declaration.renameTable old new).objects.flatMap SchemaObject.parts =
      (declaration.objects.flatMap SchemaObject.parts).map (SchemaObject.renameTable old new) := by
  simp only [objects, renameTable, List.flatMap_append, List.map_append, List.flatMap_map,
    List.map_flatMap, List.map_map]
  congr 1
  exact List.flatMap_congr fun t _ => SchemaObject.parts_renameTable hnew t

/-! ## Registration -/

namespace Registration

variable {objects : List SchemaObject} {old new : String}

theorem namesOf_map_renameTable (objects : List SchemaObject) :
    namesOf (objects.map (SchemaObject.renameTable old new)) .enum = namesOf objects .enum := by
  simp only [namesOf, List.filter_map, List.map_map, Function.comp_def,
    SchemaObject.kind_renameTable]
  refine List.map_congr_left fun object hobject => ?_
  have henum := beq_iff_eq.1 (List.mem_filter.1 hobject).2
  cases object <;> first | rfl | cases henum

/-- The parts of a renamed declaration, before they are named, are the renamed parts. -/
theorem resolvedParts_renameTable (hnew : new ≠ "") (declaration : Declaration) :
    resolvedParts (declaration.renameTable old new).objects =
      (resolvedParts declaration.objects).map (SchemaObject.renameTable old new) := by
  rw [resolvedParts, declaration.flatMap_parts_renameTable hnew, resolvedParts, resolveEnums,
    resolveEnums, namesOf_map_renameTable, List.map_map, List.map_map]
  exact List.map_congr_left fun object _ => by cases object <;> rfl

/-- **Renaming a table keeps all references.** -/
theorem Sound.renameTable {object : SchemaObject}
    (hfunction : ∀ f, object = .function f → f.dependsOn = []) (h : Sound objects object) :
    Sound (objects.map (SchemaObject.renameTable old new)) (object.renameTable old new) := by
  have hsame := funext (SchemaObject.renameTable_eq_rename old new)
  rw [hsame]
  refine h.rename fun f hf id hid => ?_
  rw [hfunction f hf] at hid
  cases hid

theorem hasColumns_map_withName_iff {table : String} {columns : List String} :
    HasColumns (objects.map SchemaObject.withName) table columns ↔
      HasColumns objects table columns :=
  hasColumns_map_iff SchemaObject.kind_withName fun _ => ⟨_, rfl, rfl, rfl⟩

theorem known_map_withName_iff {id : ObjectId} (hkind : id.kind.layer = 0) :
    Known (objects.map SchemaObject.withName) id ↔ Known objects id := by
  have hid : ∀ object : SchemaObject, object.kind.layer = 0 → object.withName.id = object.id :=
    fun object hlayer => object.id_withName (fun h => by rw [h] at hlayer; cases hlayer)
      (fun h => by rw [h] at hlayer; cases hlayer)
  constructor
  · rintro ⟨named, hnamed, rfl⟩
    obtain ⟨object, hobject, rfl⟩ := List.mem_map.1 hnamed
    rw [SchemaObject.kind_id, SchemaObject.kind_withName] at hkind
    exact ⟨object, hobject, (hid object hkind).symm⟩
  · rintro ⟨object, hobject, rfl⟩
    rw [SchemaObject.kind_id] at hkind
    exact ⟨_, List.mem_map_of_mem hobject, hid object hkind⟩

/-- References are not by the names of constraints and indexes. -/
theorem sound_map_withName_iff {object : SchemaObject}
    (hfunction : ∀ f, object = .function f → f.dependsOn = []) :
    Sound (objects.map SchemaObject.withName) object.withName ↔ Sound objects object := by
  cases object with
  | function f => simp [SchemaObject.withName, Sound, hfunction f rfl]
  | table t =>
    simp only [SchemaObject.withName, Sound, List.forall_mem_map, Constraint.withName_kind]
    refine and_congr_right fun _ => and_congr_left fun _ => ?_
    exact forall₄_congr fun column _ name _ => known_map_withName_iff rfl
  | constraint value =>
    simp only [SchemaObject.withName, Sound, Constraint.foreignKey?, Constraint.withName_kind,
      hasColumns_map_withName_iff]
  | index index =>
    rw [SchemaObject.withName]
    split <;> exact hasColumns_map_withName_iff
  | trigger trigger =>
    simp only [SchemaObject.withName, Sound, hasColumns_map_withName_iff]
    exact and_congr_right fun _ => known_map_withName_iff rfl
  | _ => exact Iff.rfl

theorem mem_functions_of_mem_resolvedParts {declaration : Declaration} {f : Function}
    (h : .function f ∈ resolvedParts declaration.objects) : f ∈ declaration.functions := by
  have hsource := function_mem_resolvedParts_iff.1 h
  simpa [Declaration.objects] using hsource

theorem HasColumns.mem_tables {declaration : Declaration} {table : String} {columns : List String}
    (h : HasColumns (resolvedParts declaration.objects) table columns) :
    table ∈ declaration.tables.map Table.name := by
  obtain ⟨t, ht, rfl, -⟩ := h
  obtain ⟨part, hpart, heq⟩ := List.mem_map.1 ht
  obtain ⟨source, hsource, hpart⟩ := List.mem_flatMap.1 hpart
  cases part with
  | table bare =>
    cases heq
    cases source with
    | table whole =>
      have hbare : bare = whole.bare := by simpa [SchemaObject.parts] using hpart
      have hwhole : whole ∈ declaration.tables := by simpa [Declaration.objects] using hsource
      exact List.mem_map.2 ⟨whole, hwhole, by rw [hbare]; rfl⟩
    | _ => cases List.mem_singleton.1 hpart
  | _ => cases heq

/-- The parts of a registered declaration are sound before they are named. -/
theorem sound_of_mem_resolvedParts {declaration : Declaration} {graph : SchemaGraph}
    (h : declaration.register = .ok graph)
    (hfunctions : ∀ f ∈ declaration.functions, f.dependsOn = []) {part : SchemaObject}
    (hpart : part ∈ resolvedParts declaration.objects) :
    Sound (resolvedParts declaration.objects) part := by
  obtain ⟨-, hsound, -⟩ := register_eq_ok_iff_sound.1 h
  refine (sound_map_withName_iff fun f hf => ?_).1
    (hsound _ (List.mem_map_of_mem (f := SchemaObject.withName) hpart))
  exact hfunctions f (mem_functions_of_mem_resolvedParts (hf ▸ hpart))

/-- **Every table that a part of a registered declaration names is one of its tables.** -/
theorem mem_tables_of_mem_tableNames {declaration : Declaration} {graph : SchemaGraph}
    (h : declaration.register = .ok graph)
    (hfunctions : ∀ f ∈ declaration.functions, f.dependsOn = []) {part : SchemaObject}
    (hpart : part ∈ resolvedParts declaration.objects) {name : String}
    (hname : name ∈ part.tableNames) : name ∈ declaration.tables.map Table.name := by
  have hsound := sound_of_mem_resolvedParts h hfunctions hpart
  cases part with
  | table t =>
    obtain rfl := List.mem_singleton.1 hname
    exact HasColumns.mem_tables ⟨t, hpart, rfl, fun _ hmem => absurd hmem List.not_mem_nil⟩
  | constraint value =>
    rcases List.mem_cons.1 hname with rfl | hname
    · exact hsound.1.mem_tables
    · obtain ⟨key, hkey, rfl⟩ := List.mem_map.1 hname
      exact (hsound.2 key (Option.mem_toList.1 hkey)).mem_tables
  | index i =>
    obtain rfl := List.mem_singleton.1 hname
    exact HasColumns.mem_tables hsound
  | trigger r =>
    obtain rfl := List.mem_singleton.1 hname
    exact hsound.1.mem_tables
  | _ => cases hname

/-- **A declaration with another name for a table is registered** when no two of its parts have one
identity. -/
theorem exists_register_renameTable {declaration : Declaration} {graph : SchemaGraph}
    (h : declaration.register = .ok graph)
    (hfunctions : ∀ f ∈ declaration.functions, f.dependsOn = []) (hnew : new ≠ "")
    (hnodup : ((namedParts (declaration.renameTable old new).objects).map SchemaObject.id).Nodup) :
    ∃ renamed, (declaration.renameTable old new).register = .ok renamed := by
  refine ⟨_, register_eq_ok_iff_sound.2 ⟨hnodup, fun object hobject => ?_, rfl⟩⟩
  rw [namedParts, resolvedParts_renameTable hnew] at hobject ⊢
  obtain ⟨changed, hchanged, rfl⟩ := List.mem_map.1 hobject
  obtain ⟨part, hpart, rfl⟩ := List.mem_map.1 hchanged
  have hindependent : ∀ f, part = .function f → f.dependsOn = [] := fun f hf =>
    hfunctions f (mem_functions_of_mem_resolvedParts (hf ▸ hpart))
  have hindependent' : ∀ f, part.renameTable old new = .function f → f.dependsOn = [] := by
    intro f hf
    cases part with
    | function g =>
      cases hf
      exact hindependent _ rfl
    | _ => cases hf
  exact (sound_map_withName_iff hindependent').2
    (Sound.renameTable hindependent (sound_of_mem_resolvedParts h hfunctions hpart))

end Registration

end SchemaPlan
