import SchemaPlan.Proofs.Graph.References

/-!
# New names throughout a schema

A `Renaming` gives new names kind by kind, and `SchemaObject.rename` writes them wherever an object
names another or itself.  Expressions are left as they are written.

* `Sound.rename`: references that lead to an object lead to the renamed object.
* `Sound.resolved`: resolving types keeps all references.
* `register_rename_iff`: renamed objects of a registered schema are registered exactly when no two
  of them have one identity and what their functions list is there.
-/

set_option autoImplicit false

namespace SchemaPlan

/-! ## Renamings -/

/-- New names, kind by kind.  Constraints and triggers have names inside a table.  `listed` is what
becomes of the identities that functions list. -/
structure Renaming where
  enum : String → String := fun name => name
  function : String → String := fun name => name
  table : String → String := fun name => name
  constraint : String → String → String := fun _ name => name
  index : String → String := fun name => name
  trigger : String → String → String := fun _ name => name
  listed : ObjectId → ObjectId := fun id => id

namespace DataType

/-- A type with another name for the enum in it, through arrays. -/
def mapEnum (f : String → String) : DataType → DataType
  | enum name => enum (f name)
  | array element => array (element.mapEnum f)
  | type => type

theorem mapEnum_id (type : DataType) : (type.mapEnum fun name => name) = type := by
  induction type with
  | array element ih => rw [mapEnum, ih]
  | _ => rfl

theorem enumName?_mapEnum (f : String → String) (type : DataType) :
    (type.mapEnum f).enumName? = type.enumName?.map f := by
  induction type with
  | array element ih => exact ih
  | _ => rfl

/-- Resolving keeps the enum that a type names, and finds none but those that are there. -/
theorem enumName?_resolveEnums {isEnum : String → Bool} {type : DataType} {name : String} :
    (type.resolveEnums isEnum).enumName? = some name ↔
      type.enumName? = some name ∨ type.customName? = some name ∧ isEnum name = true := by
  induction type with
  | array element ih => exact ih
  | custom other =>
    simp only [resolveEnums, enumName?, customName?, reduceCtorEq, false_or, Option.some.injEq]
    split
    · simp only [enumName?, Option.some.injEq]
      exact ⟨fun heq => ⟨heq, heq ▸ ‹_›⟩, And.left⟩
    · simp only [enumName?, reduceCtorEq, false_iff, not_and]
      rintro rfl
      assumption
  | _ => simp [resolveEnums, enumName?, customName?]

end DataType

/-- Columns with other types keep their names. -/
theorem Column.map_name_retyped (f : DataType → DataType) (columns : List Column) :
    (columns.map fun column => { column with type := f column.type }).map Column.name =
      columns.map Column.name := by
  rw [List.map_map]
  rfl

theorem Column.map_retyped_id (columns : List Column) :
    (columns.map fun column => { column with type := column.type.mapEnum fun name => name }) =
      columns :=
  (List.map_congr_left fun column _ => by rw [DataType.mapEnum_id]).trans (List.map_id' columns)

/-- The demand of a constraint with another name for the table that it refers to. -/
def ConstraintKind.mapTable (f : String → String) : ConstraintKind → ConstraintKind
  | foreignKey key => foreignKey { key with referencesTable := f key.referencesTable }
  | kind => kind

theorem ConstraintKind.mapTable_id (kind : ConstraintKind) :
    (kind.mapTable fun name => name) = kind := by
  cases kind <;> rfl

/-- An object with new names, for itself and for what it refers to. -/
def SchemaObject.rename (σ : Renaming) : SchemaObject → SchemaObject
  | extension e => extension e
  | enum e => enum { e with name := σ.enum e.name }
  | function f =>
    function { f with name := σ.function f.name, dependsOn := f.dependsOn.map σ.listed }
  | table t =>
    table { t with
      name := σ.table t.name
      columns := t.columns.map fun column => { column with type := column.type.mapEnum σ.enum }
      constraints := t.constraints.map fun c => { c with name := σ.constraint t.name c.name } }
  | constraint c =>
    constraint ⟨σ.table c.table,
      ⟨σ.constraint c.table c.constraint.name, c.constraint.kind.mapTable σ.table⟩⟩
  | index i => index { i with name := σ.index i.name, table := σ.table i.table }
  | trigger r =>
    trigger { r with
      name := σ.trigger r.table r.name
      table := σ.table r.table
      function := σ.function r.function }

namespace SchemaObject

variable {σ : Renaming}

/-- An object that is not split stays so. -/
theorem parts_rename {object : SchemaObject} (h : object.parts = [object]) :
    (object.rename σ).parts = [object.rename σ] := by
  cases object with
  | table t =>
    obtain ⟨hkeys, hindexes, htriggers⟩ := table_parts_iff.1 h
    exact table_parts_iff.2 ⟨List.forall_mem_map.2 hkeys, hindexes, htriggers⟩
  | _ => rfl

end SchemaObject

/-! ## References -/

namespace Registration

variable {objects : List SchemaObject} {σ : Renaming} {object : SchemaObject}

theorem known_iff_mem {id : ObjectId} :
    Known objects id ↔ id ∈ objects.map SchemaObject.id :=
  List.mem_map.symm

/-- A table with columns of the same names has the same columns by name. -/
theorem column?_isSome_congr {t t' : Table}
    (hnames : t'.columns.map Column.name = t.columns.map Column.name) {name : String}
    (h : (t.column? name).isSome = true) : (t'.column? name).isSome = true := by
  rw [Table.column?_isSome_iff] at h ⊢
  rwa [hnames]

/-- Columns are there after a change of objects that keeps the names of columns. -/
theorem HasColumns.map {f : SchemaObject → SchemaObject} {table table' : String}
    {columns : List String} (h : HasColumns objects table columns)
    (hf : ∀ t : Table, t.name = table → ∃ t', f (.table t) = .table t' ∧ t'.name = table' ∧
      t'.columns.map Column.name = t.columns.map Column.name) :
    HasColumns (objects.map f) table' columns := by
  obtain ⟨t, ht, hname, hcolumns⟩ := h
  obtain ⟨t', heq, hname', hnames⟩ := hf t hname
  exact ⟨t', List.mem_map.2 ⟨_, ht, heq⟩, hname', fun name hmem =>
    column?_isSome_congr hnames (hcolumns name hmem)⟩

/-- Columns are there exactly as before a change of objects that keeps kinds, the names of tables and
those of their columns. -/
theorem hasColumns_map_iff {f : SchemaObject → SchemaObject}
    (hkind : ∀ object, (f object).kind = object.kind)
    (hf : ∀ t : Table, ∃ t', f (.table t) = .table t' ∧ t'.name = t.name ∧
      t'.columns.map Column.name = t.columns.map Column.name) {table : String}
    {columns : List String} :
    HasColumns (objects.map f) table columns ↔ HasColumns objects table columns := by
  constructor
  · rintro ⟨t, ht, rfl, hcolumns⟩
    obtain ⟨object, hobject, heq⟩ := List.mem_map.1 ht
    have hsame := hkind object
    rw [heq] at hsame
    cases object with
    | table source =>
      obtain ⟨t', heq', hname, hnames⟩ := hf source
      obtain rfl := SchemaObject.table.inj (heq'.symm.trans heq)
      exact ⟨source, hobject, hname.symm, fun name hmem =>
        column?_isSome_congr hnames.symm (hcolumns name hmem)⟩
    | _ => cases hsame
  · refine fun h => h.map fun t hname => ?_
    obtain ⟨t', heq, hname', hnames⟩ := hf t
    exact ⟨t', heq, hname'.trans hname, hnames⟩

theorem known_map_iff {f : SchemaObject → SchemaObject} (hid : ∀ object, (f object).id = object.id)
    {id : ObjectId} : Known (objects.map f) id ↔ Known objects id := by
  rw [known_iff_mem, known_iff_mem, List.map_map]
  simp only [Function.comp_def, hid]

theorem HasColumns.rename {table : String} {columns : List String}
    (h : HasColumns objects table columns) :
    HasColumns (objects.map (SchemaObject.rename σ)) (σ.table table) columns :=
  h.map fun _ hname => ⟨_, rfl, congrArg σ.table hname, Column.map_name_retyped _ _⟩

/-- **References that lead to an object lead to the renamed object.**  What functions list are no
names, so the renamed lists have to be looked at by themselves. -/
theorem Sound.rename (h : Sound objects object)
    (hlisted : ∀ f, object = .function f → ∀ id ∈ f.dependsOn,
      Known (objects.map (SchemaObject.rename σ)) (σ.listed id)) :
    Sound (objects.map (SchemaObject.rename σ)) (object.rename σ) := by
  have hknown : ∀ {kind : ObjectKind} {name name' : String}, Known objects ⟨kind, name⟩ →
      (∀ other : SchemaObject, other.id = ⟨kind, name⟩ → (other.rename σ).id = ⟨kind, name'⟩) →
      Known (objects.map (SchemaObject.rename σ)) ⟨kind, name'⟩ := by
    rintro kind name name' ⟨other, hother, hid⟩ hrenamed
    exact ⟨_, List.mem_map_of_mem hother, hrenamed other hid⟩
  have henum : ∀ {name}, Known objects ⟨.enum, name⟩ →
      Known (objects.map (SchemaObject.rename σ)) ⟨.enum, σ.enum name⟩ := by
    intro name hname
    refine hknown hname fun other hid => ?_
    cases other with
    | enum e =>
      cases hid
      rfl
    | _ => cases congrArg ObjectId.kind hid
  have hfunction : ∀ {name}, Known objects ⟨.function, name⟩ →
      Known (objects.map (SchemaObject.rename σ)) ⟨.function, σ.function name⟩ := by
    intro name hname
    refine hknown hname fun other hid => ?_
    cases other with
    | function f =>
      cases hid
      rfl
    | _ => cases congrArg ObjectId.kind hid
  cases object with
  | extension e => exact h
  | enum e => exact h
  | function f => exact List.forall_mem_map.2 (hlisted f rfl)
  | table t =>
    obtain ⟨hnodup, henums, hcolumns⟩ := h
    refine ⟨by rwa [Column.map_name_retyped], ?_, ?_⟩
    · refine List.forall_mem_map.2 fun column hcolumn name hname => ?_
      rw [DataType.enumName?_mapEnum] at hname
      obtain ⟨old, hold, rfl⟩ := Option.map_eq_some_iff.1 hname
      exact henum (henums column hcolumn old hold)
    · exact List.forall_mem_map.2 fun c hc name hname =>
        column?_isSome_congr (Column.map_name_retyped _ _) (hcolumns c hc name hname)
  | constraint c =>
    have hsame : (c.constraint.kind.mapTable σ.table).columns = c.constraint.kind.columns := by
      cases c.constraint.kind <;> rfl
    refine ⟨?_, fun key hkey => ?_⟩
    · rw [hsame]
      exact h.1.rename
    · cases hkind : c.constraint.kind with
      | foreignKey original =>
        rw [Constraint.foreignKey?, hkind] at hkey
        cases hkey
        exact (h.2 original (by rw [Constraint.foreignKey?, hkind])).rename
      | _ =>
        rw [Constraint.foreignKey?, hkind] at hkey
        cases hkey
  | index i => exact HasColumns.rename h
  | trigger r => exact ⟨HasColumns.rename h.1, hfunction h.2⟩

theorem HasColumns.resolved {table : String} {columns : List String}
    (h : HasColumns objects table columns) : HasColumns (resolveEnums objects) table columns :=
  h.map fun _ hname => ⟨_, rfl, hname, Column.map_name_retyped _ _⟩

/-- **Resolving types keeps all references**: the enums that are found are there. -/
theorem Sound.resolved (h : Sound objects object) :
    Sound (resolveEnums objects) (object.resolveEnums (namesOf objects .enum).contains) := by
  have hknown : ∀ {id}, Known objects id → Known (resolveEnums objects) id := by
    intro id hid
    rwa [known_iff_mem, map_id_resolveEnums, ← known_iff_mem]
  cases object with
  | extension e => exact h
  | enum e => exact h
  | function f => exact fun id hid => hknown (h id hid)
  | table t =>
    obtain ⟨hnodup, henums, hcolumns⟩ := h
    refine ⟨by rwa [Column.map_name_retyped], ?_, fun c hc name hname =>
      column?_isSome_congr (Column.map_name_retyped _ _) (hcolumns c hc name hname)⟩
    refine List.forall_mem_map.2 fun column hcolumn name hname => ?_
    rcases DataType.enumName?_resolveEnums.1 hname with hname | ⟨-, hisEnum⟩
    · exact hknown (henums column hcolumn name hname)
    · obtain ⟨other, hother, hkind, rfl⟩ := mem_namesOf_iff.1 (List.contains_iff_mem.1 hisEnum)
      refine hknown ⟨other, hother, ?_⟩
      rw [← hkind, ← other.kind_id]
  | constraint c => exact ⟨h.1.resolved, fun key hkey => (h.2 key hkey).resolved⟩
  | index i => exact HasColumns.resolved h
  | trigger r => exact ⟨h.1.resolved, hknown h.2⟩

/-! ## Registration -/

/-- Renamed objects are not split and have their names. -/
theorem namedParts_rename (h : Settled objects)
    (hnames : ∀ object ∈ objects, (object.rename σ).withName = object.rename σ) :
    namedParts (objects.map (SchemaObject.rename σ)) =
      resolveEnums (objects.map (SchemaObject.rename σ)) :=
  namedParts_of_whole
    (List.forall_mem_map.2 fun object hobject => SchemaObject.parts_rename (h.parts object hobject))
    (List.forall_mem_map.2 hnames)

/-- **Renamed objects are registered exactly when their identities are different and what their
functions list is there.** -/
theorem register_rename_iff (h : Settled objects)
    (hnames : ∀ object ∈ objects, (object.rename σ).withName = object.rename σ) :
    (∃ result, register (objects.map (SchemaObject.rename σ)) = .ok result) ↔
      (objects.map fun object => (object.rename σ).id).Nodup ∧
        ∀ f, .function f ∈ objects → ∀ id ∈ f.dependsOn,
          σ.listed id ∈ objects.map fun object => (object.rename σ).id := by
  have hparts := namedParts_rename h hnames
  have hids : (namedParts (objects.map (SchemaObject.rename σ))).map SchemaObject.id =
      objects.map fun object => (object.rename σ).id := by
    rw [hparts, map_id_resolveEnums, List.map_map]
    rfl
  simp only [register_eq_ok_iff_sound, exists_and_left, exists_eq, and_true, hids]
  refine and_congr_right fun _ => ⟨fun hsound f hf id hid => ?_, fun hlisted => ?_⟩
  · have hmem : (SchemaObject.function f).rename σ ∈
        namedParts (objects.map (SchemaObject.rename σ)) := by
      rw [hparts]
      exact List.mem_map.2 ⟨_, List.mem_map_of_mem hf, rfl⟩
    rw [← hids, ← known_iff_mem]
    exact hsound _ hmem _ (List.mem_map_of_mem hid)
  · rw [hparts]
    refine List.forall_mem_map.2 (List.forall_mem_map.2 fun object hobject => ?_)
    refine ((h.sound hobject).rename fun f hf id hid => ?_).resolved
    rw [known_iff_mem, List.map_map]
    exact hlisted f (hf ▸ hobject) id hid

end Registration

end SchemaPlan
