import SchemaPlan.Proofs.Graph.RenamedTable

/-!
# What a column rename replaces

A column is listed in the constraints of its table, in foreign keys on either side, and in indexes.
A rename replaces its name in all of these, with one exception: keys that stand outside their table
without being foreign keys are left as they are.

* `columnsListed_afterColumn`: what an object lists is replaced.
* `columnsListed_afterColumn_of_ne`: what it lists of other tables is not.
* `afterColumn_back`: a name that was free can be renamed back.
-/

set_option autoImplicit false

namespace SchemaPlan

/-! ## Columns that are listed -/

/-- The columns of a table that an object lists, outside of expressions. -/
def SchemaObject.columnsListed (table : String) : SchemaObject → List String
  | .table t => if t.name = table then t.constraints.flatMap fun c => c.kind.columns else []
  | .constraint c =>
    (if c.table = table then c.constraint.kind.columns else []) ++
      c.constraint.foreignKey?.toList.flatMap fun key =>
        if key.referencesTable = table then key.referencesColumns else []
  | .index i => if i.table = table then i.columns else []
  | _ => []

/-- A key that stands outside its table, is no foreign key, and lists a column. -/
def SchemaObject.IsOutsideKey (table column : String) : SchemaObject → Prop
  | .constraint c =>
    c.constraint.kind.isForeignKey = false ∧ c.table = table ∧ column ∈ c.constraint.kind.columns
  | _ => False

namespace Change

variable {old new : String}

theorem map_replaceName_back {names : List String} (h : new ∉ names) :
    (names.map (replaceName old new)).map (replaceName new old) = names := by
  rw [List.map_map]
  refine (List.map_congr_left fun name hname => ?_).trans (List.map_id' names)
  exact replaceName_back fun heq => h (heq ▸ hname)

theorem map_replaceName_of_not_mem {names : List String} (h : old ∉ names) :
    names.map (replaceName old new) = names := by
  refine (List.map_congr_left fun name hname => ?_).trans (List.map_id' names)
  exact if_neg fun heq : name = old => h (heq ▸ hname)

theorem not_mem_map_replaceName (hne : new ≠ old) (names : List String) :
    old ∉ names.map (replaceName old new) := by
  intro hmem
  obtain ⟨name, -, heq⟩ := List.mem_map.1 hmem
  rw [replaceName] at heq
  split at heq
  · exact hne heq
  · rename_i hname
    exact hname heq

/-! ## Columns of the table -/

/-- What does not depend on the name of a column stays the same. -/
theorem map_updateFirst_name {β : Type} {g : Column → β}
    (hg : ∀ column : Column, g { column with name := new } = g column) (columns : List Column) :
    (Table.updateFirst old (fun column => { column with name := new }) columns).map g =
      columns.map g := by
  induction columns with
  | nil => rfl
  | cons column rest ih =>
    rw [Table.updateFirst]
    split
    · rw [List.map_cons, List.map_cons, hg]
    · rw [List.map_cons, List.map_cons, ih]

/-- The name itself is replaced. -/
theorem map_name_rename (old new : String) {columns : List Column}
    (h : (columns.map Column.name).Nodup) :
    (Table.updateFirst old (fun column => { column with name := new }) columns).map Column.name =
      (columns.map Column.name).map (replaceName old new) := by
  induction columns with
  | nil => rfl
  | cons column rest ih =>
    rw [List.map_cons, List.nodup_cons] at h
    rw [Table.updateFirst, List.map_cons, List.map_cons, replaceName]
    split
    · rename_i hname
      rw [List.map_cons, map_replaceName_of_not_mem (hname ▸ h.1)]
    · rw [List.map_cons, ih h.2]

theorem updateFirst_back {columns : List Column} (h : new ∉ columns.map Column.name) :
    Table.updateFirst new (fun column => { column with name := old })
      (Table.updateFirst old (fun column => { column with name := new }) columns) = columns := by
  induction columns with
  | nil => rfl
  | cons column rest ih =>
    rw [List.map_cons, List.mem_cons, not_or] at h
    rw [Table.updateFirst]
    split
    · rename_i hname
      rw [Table.updateFirst, if_pos rfl, ← hname]
    · rw [Table.updateFirst, if_neg (Ne.symm h.1), ih h.2]

/-! ## Objects -/

theorem columns_kindAfterColumn (kind : ConstraintKind) :
    (kindAfterColumn old new kind).columns = kind.columns.map (replaceName old new) := by
  cases kind <;> rfl

theorem kindAfterColumn_back {kind : ConstraintKind} (h : new ∉ kind.columns) :
    kindAfterColumn new old (kindAfterColumn old new kind) = kind := by
  cases kind with
  | primaryKey columns => exact congrArg ConstraintKind.primaryKey (map_replaceName_back h)
  | unique columns => exact congrArg ConstraintKind.unique (map_replaceName_back h)
  | foreignKey key =>
    have hcolumns :
        (key.columns.map (replaceName old new)).map (replaceName new old) = key.columns :=
      map_replaceName_back h
    rw [kindAfterColumn, kindAfterColumn, hcolumns]
  | check expression => rfl

variable {table : String} {object : SchemaObject}

theorem id_afterColumn (table old new : String) (object : SchemaObject) :
    (afterColumn table old new object).id = object.id := by
  cases object with
  | table t => simp only [afterColumn]; split <;> rfl
  | constraint c => simp only [afterColumn]; split <;> rfl
  | index i => simp only [afterColumn]; split <;> rfl
  | _ => rfl

theorem kind_afterColumn (table old new : String) (object : SchemaObject) :
    (afterColumn table old new object).kind = object.kind := by
  rw [← SchemaObject.kind_id, id_afterColumn, SchemaObject.kind_id]

/-- What stands outside its table and is no foreign key is left as it is. -/
theorem afterColumn_of_foreignKey?_eq_none {c : TableConstraint}
    (h : c.constraint.foreignKey? = none) :
    afterColumn table old new (.constraint c) = .constraint c := by
  cases hkind : c.constraint.kind with
  | foreignKey key =>
    rw [Constraint.foreignKey?, hkind] at h
    cases h
  | _ => simp only [afterColumn, hkind]

/-- **What an object lists is replaced.** -/
theorem columnsListed_afterColumn (h : ¬ object.IsOutsideKey table old) :
    (afterColumn table old new object).columnsListed table =
      (object.columnsListed table).map (replaceName old new) := by
  cases object with
  | table t =>
    simp only [afterColumn]
    split
    · rename_i hname
      simp only [SchemaObject.columnsListed, if_pos hname, List.flatMap_map, List.map_flatMap,
        columns_kindAfterColumn]
    · rename_i hname
      simp only [SchemaObject.columnsListed, if_neg hname, List.map_nil]
  | constraint c =>
    cases hkind : c.constraint.kind with
    | foreignKey key =>
      simp only [afterColumn, hkind, SchemaObject.columnsListed, Constraint.foreignKey?,
        ConstraintKind.columns, keyAfterColumn, Option.toList_some, List.flatMap_cons,
        List.flatMap_nil, List.append_nil, List.map_append]
      split_ifs <;> rfl
    | _ =>
      have hlisted : c.table = table → old ∉ c.constraint.kind.columns :=
        fun htable hmem => h ⟨by rw [hkind]; rfl, htable, hmem⟩
      simp only [afterColumn, hkind, SchemaObject.columnsListed, Constraint.foreignKey?,
        Option.toList_none, List.flatMap_nil, List.append_nil]
      split
      · rename_i htable
        rw [map_replaceName_of_not_mem (hkind ▸ hlisted htable)]
      · rfl
  | index i =>
    simp only [afterColumn]
    split
    · rename_i hname
      simp only [SchemaObject.columnsListed, if_pos hname]
    · rename_i hname
      simp only [SchemaObject.columnsListed, if_neg hname, List.map_nil]
  | _ => rfl

/-- Columns of other tables are not renamed. -/
theorem columnsListed_afterColumn_of_ne {other : String} (h : other ≠ table) :
    (afterColumn table old new object).columnsListed other = object.columnsListed other := by
  cases object with
  | table t =>
    simp only [afterColumn]
    split
    · rename_i hname
      simp only [SchemaObject.columnsListed, hname, if_neg (Ne.symm h)]
    · rfl
  | constraint c =>
    cases hkind : c.constraint.kind with
    | foreignKey key =>
      simp only [afterColumn, hkind, SchemaObject.columnsListed, Constraint.foreignKey?,
        ConstraintKind.columns, keyAfterColumn, Option.toList_some, List.flatMap_cons,
        List.flatMap_nil, List.append_nil]
      congr 1
      · split_ifs with hother htable <;> first | rfl | exact absurd (hother.symm.trans htable) h
      · split_ifs with hother htable <;> first | rfl | exact absurd (hother.symm.trans htable) h
    | _ => simp only [afterColumn, hkind]
  | index i =>
    simp only [afterColumn]
    split
    · rename_i hname
      simp only [SchemaObject.columnsListed, hname, if_neg (Ne.symm h)]
    · rfl
  | _ => rfl

/-- **A name that was free can be renamed back.** -/
theorem afterColumn_back (hlisted : new ∉ object.columnsListed table)
    (hcolumns : ∀ t, object = .table t → t.name = table → new ∉ t.columns.map Column.name) :
    afterColumn table new old (afterColumn table old new object) = object := by
  cases object with
  | table t =>
    by_cases hname : t.name = table
    · rw [SchemaObject.columnsListed, if_pos hname] at hlisted
      have hkinds : ∀ c ∈ t.constraints,
          { c with kind := kindAfterColumn new old (kindAfterColumn old new c.kind) } = c := by
        intro c hc
        rw [kindAfterColumn_back fun hmem => hlisted (List.mem_flatMap_of_mem hc hmem)]
      simp only [afterColumn, if_pos hname, List.map_map, Function.comp_def,
        updateFirst_back (hcolumns t rfl hname)]
      rw [List.map_congr_left hkinds, List.map_id']
    · simp only [afterColumn, if_neg hname]
  | constraint c =>
    obtain ⟨owner, name, kind⟩ := c
    cases kind with
    | foreignKey key =>
      rw [SchemaObject.columnsListed, List.mem_append, not_or] at hlisted
      obtain ⟨hown, hreferenced⟩ := hlisted
      simp only [Constraint.foreignKey?, Option.toList_some, List.flatMap_cons, List.flatMap_nil,
        List.append_nil, ConstraintKind.columns] at hown hreferenced
      have hkey : keyAfterColumn owner table new old (keyAfterColumn owner table old new key) =
          key := by
        simp only [keyAfterColumn]
        split_ifs at hown hreferenced ⊢ <;>
          simp only [map_replaceName_back hown, map_replaceName_back hreferenced]
      simp only [afterColumn, hkey]
    | _ => rfl
  | index i =>
    by_cases hname : i.table = table
    · rw [SchemaObject.columnsListed, if_pos hname] at hlisted
      simp only [afterColumn, if_pos hname, map_replaceName_back hlisted]
    · simp only [afterColumn, if_neg hname]
  | _ => rfl

end Change

end SchemaPlan
