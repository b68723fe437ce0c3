import SchemaPlan.Catalog.Assembly
import SchemaPlan.Proofs.Order.Sorted
import SchemaPlan.Proofs.Outcome

/-!
# What is attached to a table

Rows are attached one after the other, each to the table that it names.  In the end every table has
what the rows with its name say, in their order.

* `Attachment`: how one kind of rows is attached; `Attachment.foldlM_eq_ok_iff`: what a run over the
  rows does.
* `columnAttachment`, `constraintAttachment`, `indexAttachment`, `triggerAttachment`: the four kinds.
* `Snapshot.assembledTables_eq_ok_iff`: the tables are assembled iff all rows fit, and then every
  table is filled with its rows.
-/

set_option autoImplicit false

namespace SchemaPlan.Catalog

variable {ρ β : Type} {tables changed : List Table} {kind name table : String}

/-! ## One row -/

theorem attach_eq_ok_iff {change : Table → Table} :
    attach tables kind name table change = .ok changed ↔
      table ∈ tables.map Table.name ∧
        changed = tables.map fun t => if t.name = table then change t else t := by
  have hany : (tables.any fun t => t.name == table) = true ↔ table ∈ tables.map Table.name := by
    simp only [List.any_eq_true, beq_iff_eq, List.mem_map]
  rw [attach]
  split
  · rename_i h
    rw [Except.ok.injEq, eq_comm, and_iff_right (hany.1 h)]
  · rename_i h
    exact iff_of_false (fun heq => nomatch heq) fun hmem => h (hany.2 hmem.1)

/-- A row is read after its table has been found. -/
theorem attach_read_eq_ok_iff {read : Except CatalogFault β} {change : β → Table → Table} :
    (do
      let _ ← attach tables kind name table id
      let value ← read
      attach tables kind name table (change value)) = .ok changed ↔
      table ∈ tables.map Table.name ∧ ∃ value, read.toOption = some value ∧
        changed = tables.map fun t => if t.name = table then change value t else t := by
  simp only [Outcome.bind_eq_ok_iff, attach_eq_ok_iff, Outcome.toOption_eq_some_iff]
  constructor
  · rintro ⟨_, ⟨hmem, -⟩, value, hread, -, hchanged⟩
    exact ⟨hmem, value, hread, hchanged⟩
  · rintro ⟨hmem, value, hread, hchanged⟩
    exact ⟨_, ⟨hmem, rfl⟩, value, hread, hmem, hchanged⟩

/-! ## All rows of a kind -/

/-- How the rows of a kind are attached to the tables that they name. -/
structure Attachment (ρ β : Type) where
  table : ρ → String
  read? : ρ → Option β
  add : Table → List β → Table
  step : List Table → ρ → Except CatalogFault (List Table)
  add_nil : ∀ t, add t [] = t
  add_add : ∀ t xs ys, add (add t xs) ys = add t (xs ++ ys)
  name_add : ∀ t xs, (add t xs).name = t.name
  step_eq_ok_iff : ∀ {tables : List Table} {row : ρ} {changed : List Table},
    step tables row = .ok changed ↔
      table row ∈ tables.map Table.name ∧ ∃ value, read? row = some value ∧
        changed = tables.map fun t => if t.name = table row then add t [value] else t

namespace Attachment

variable (a : Attachment ρ β)

/-- What rows say about a table. -/
def contents (rows : List ρ) (name : String) : List β :=
  (rows.filter fun row => a.table row == name).filterMap a.read?

/-- Every table with what rows say about it. -/
def attachAll (rows : List ρ) (tables : List Table) : List Table :=
  tables.map fun t => a.add t (a.contents rows t.name)

/-- A row names a table that there is, and can be read. -/
def Fits (names : List String) (row : ρ) : Prop :=
  a.table row ∈ names ∧ (a.read? row).isSome = true

/-- A table when a row has been attached. -/
def placed (row : ρ) (value : β) (t : Table) : Table :=
  if t.name = a.table row then a.add t [value] else t

variable {a}

theorem name_placed (row : ρ) (value : β) (t : Table) : (a.placed row value t).name = t.name := by
  rw [placed]
  split
  · exact a.name_add t [value]
  · rfl

theorem map_name_placed (row : ρ) (value : β) (tables : List Table) :
    (tables.map (a.placed row value)).map Table.name = tables.map Table.name := by
  rw [List.map_map]
  exact List.map_congr_left fun t _ => name_placed row value t

/-- What is attached first stands first. -/
theorem add_placed {row : ρ} {value : β} (h : a.read? row = some value) (rows : List ρ)
    (t : Table) :
    a.add (a.placed row value t) (a.contents rows (a.placed row value t).name) =
      a.add t (a.contents (row :: rows) t.name) := by
  rw [name_placed, placed, contents, contents]
  by_cases hname : t.name = a.table row
  · rw [if_pos hname, a.add_add, List.filter_cons, if_pos (beq_iff_eq.2 hname.symm),
      List.filterMap_cons_some h]
    rfl
  · rw [if_neg hname, List.filter_cons, if_neg fun heq => hname (beq_iff_eq.1 heq).symm]

theorem attachAll_cons {row : ρ} {value : β} (h : a.read? row = some value) (rows : List ρ)
    (tables : List Table) :
    a.attachAll (row :: rows) tables = a.attachAll rows (tables.map (a.placed row value)) := by
  rw [attachAll, attachAll, List.map_map]
  exact List.map_congr_left fun t _ => (add_placed h rows t).symm

/-- **A run over the rows of a kind**: it succeeds iff every row fits, and then every table has what
the rows say about it. -/
theorem foldlM_eq_ok_iff {rows : List ρ} : ∀ {tables : List Table},
    rows.foldlM a.step tables = .ok changed ↔
      (∀ row ∈ rows, a.Fits (tables.map Table.name) row) ∧
        changed = a.attachAll rows tables := by
  induction rows with
  | nil =>
    intro tables
    have hsame : a.attachAll [] tables = tables :=
      (List.map_congr_left fun t _ => a.add_nil t).trans (List.map_id' tables)
    rw [hsame, List.foldlM_nil]
    simp [pure, Except.pure, eq_comm]
  | cons row rows ih =>
    intro tables
    rw [List.foldlM_cons, Outcome.bind_eq_ok_iff, List.forall_mem_cons]
    constructor
    · rintro ⟨next, hstep, hrun⟩
      obtain ⟨hmem, value, hread, hnext⟩ := a.step_eq_ok_iff.1 hstep
      have hplaced : next = tables.map (a.placed row value) := hnext
      rw [hplaced, ih, map_name_placed, ← attachAll_cons hread] at hrun
      exact ⟨⟨⟨hmem, Option.isSome_of_eq_some hread⟩, hrun.1⟩, hrun.2⟩
    · rintro ⟨⟨⟨hmem, hsome⟩, hfits⟩, hchanged⟩
      obtain ⟨value, hread⟩ := Option.isSome_iff_exists.1 hsome
      refine ⟨tables.map (a.placed row value), a.step_eq_ok_iff.2 ⟨hmem, value, hread, rfl⟩, ?_⟩
      rw [ih, map_name_placed, ← attachAll_cons hread]
      exact ⟨hfits, hchanged⟩

theorem map_name_attachAll (rows : List ρ) (tables : List Table) :
    (a.attachAll rows tables).map Table.name = tables.map Table.name := by
  rw [attachAll, List.map_map]
  exact List.map_congr_left fun t _ => a.name_add t _

theorem contents_perm {rows rows' : List ρ} (h : rows.Perm rows') (name : String) :
    (a.contents rows name).Perm (a.contents rows' name) :=
  (h.filter _).filterMap _

end Attachment

/-! ## The four kinds of rows -/

/-- Columns are appended to their tables. -/
def columnAttachment : Attachment ColumnRow Column where
  table := ColumnRow.table
  read? row := row.column.toOption
  add t columns := { t with columns := t.columns ++ columns }
  step := Snapshot.attachColumn
  add_nil t := by rw [List.append_nil]
  add_add t xs ys := by rw [List.append_assoc]
  name_add _ _ := rfl
  step_eq_ok_iff := attach_read_eq_ok_iff

/-- Constraints are appended to their tables. -/
def constraintAttachment : Attachment ConstraintRow Constraint where
  table := ConstraintRow.table
  read? row := row.constraint.toOption
  add t constraints := { t with constraints := t.constraints ++ constraints }
  step := Snapshot.attachConstraint
  add_nil t := by rw [List.append_nil]
  add_add t xs ys := by rw [List.append_assoc]
  name_add _ _ := rfl
  step_eq_ok_iff := attach_read_eq_ok_iff

/-- Indexes are appended to their tables. -/
def indexAttachment : Attachment IndexRow Index where
  table := IndexRow.table
  read? row := some row.index
  add t indexes := { t with indexes := t.indexes ++ indexes }
  step := Snapshot.attachIndex
  add_nil t := by rw [List.append_nil]
  add_add t xs ys := by rw [List.append_assoc]
  name_add _ _ := rfl
  step_eq_ok_iff := by simp [Snapshot.attachIndex, attach_eq_ok_iff]

/-- Triggers are appended to their tables. -/
def triggerAttachment : Attachment TriggerRow Trigger where
  table := TriggerRow.table
  read? row := some row.trigger
  add t triggers := { t with triggers := t.triggers ++ triggers }
  step := Snapshot.attachTrigger
  add_nil t := by rw [List.append_nil]
  add_add t xs ys := by rw [List.append_assoc]
  name_add _ _ := rfl
  step_eq_ok_iff := by simp [Snapshot.attachTrigger, attach_eq_ok_iff]

/-! ## Assembled tables -/

namespace Snapshot

/-- A table with what the rows say about it. -/
def fill (snapshot : Snapshot) (t : Table) : Table :=
  { t with
    columns := t.columns ++ columnAttachment.contents snapshot.sortedColumns t.name
    constraints := t.constraints ++ constraintAttachment.contents snapshot.constraints t.name
    indexes := t.indexes ++ indexAttachment.contents snapshot.indexes t.name
    triggers := t.triggers ++ triggerAttachment.contents snapshot.triggers t.name }

/-- All rows that belong to tables fit. -/
structure RowsFit (snapshot : Snapshot) : Prop where
  columns : ∀ row ∈ snapshot.columns,
    columnAttachment.Fits (snapshot.bareTables.map Table.name) row
  constraints : ∀ row ∈ snapshot.constraints,
    constraintAttachment.Fits (snapshot.bareTables.map Table.name) row
  indexes : ∀ row ∈ snapshot.indexes,
    indexAttachment.Fits (snapshot.bareTables.map Table.name) row
  triggers : ∀ row ∈ snapshot.triggers,
    triggerAttachment.Fits (snapshot.bareTables.map Table.name) row

/-- The four kinds of rows one after the other. -/
theorem attachAll_eq_map_fill (snapshot : Snapshot) :
    triggerAttachment.attachAll snapshot.triggers (indexAttachment.attachAll snapshot.indexes
      (constraintAttachment.attachAll snapshot.constraints
        (columnAttachment.attachAll snapshot.sortedColumns snapshot.bareTables))) =
      snapshot.bareTables.map snapshot.fill := by
  simp only [Attachment.attachAll, List.map_map]
  rfl

/-- **Tables are assembled iff all rows fit**, and then every table is filled with its rows. -/
theorem assembledTables_eq_ok_iff {snapshot : Snapshot} {tables : List Table} :
    snapshot.assembledTables = .ok tables ↔
      snapshot.RowsFit ∧ tables = snapshot.bareTables.map snapshot.fill := by
  have hsorted : (∀ row ∈ snapshot.sortedColumns,
      columnAttachment.Fits (snapshot.bareTables.map Table.name) row) ↔
        ∀ row ∈ snapshot.columns,
          columnAttachment.Fits (snapshot.bareTables.map Table.name) row :=
    forall_congr' fun row => by rw [sortedColumns, List.mem_mergeSort]
  constructor
  · intro h
    obtain ⟨first, hfirst, h⟩ := Outcome.bind_eq_ok_iff.1 h
    obtain ⟨second, hsecond, h⟩ := Outcome.bind_eq_ok_iff.1 h
    obtain ⟨third, hthird, hlast⟩ := Outcome.bind_eq_ok_iff.1 h
    obtain ⟨hcolumns, rfl⟩ := columnAttachment.foldlM_eq_ok_iff.1 hfirst
    obtain ⟨hconstraints, rfl⟩ := constraintAttachment.foldlM_eq_ok_iff.1 hsecond
    obtain ⟨hindexes, rfl⟩ := indexAttachment.foldlM_eq_ok_iff.1 hthird
    obtain ⟨htriggers, rfl⟩ := triggerAttachment.foldlM_eq_ok_iff.1 hlast
    simp only [Attachment.map_name_attachAll] at hconstraints hindexes htriggers
    exact ⟨⟨hsorted.1 hcolumns, hconstraints, hindexes, htriggers⟩, attachAll_eq_map_fill snapshot⟩
  · rintro ⟨hfit, rfl⟩
    rw [← attachAll_eq_map_fill]
    refine Outcome.bind_eq_ok_iff.2
      ⟨_, columnAttachment.foldlM_eq_ok_iff.2 ⟨hsorted.2 hfit.columns, rfl⟩, ?_⟩
    refine Outcome.bind_eq_ok_iff.2 ⟨_, constraintAttachment.foldlM_eq_ok_iff.2 ⟨?_, rfl⟩, ?_⟩
    · simpa only [Attachment.map_name_attachAll] using hfit.constraints
    refine Outcome.bind_eq_ok_iff.2 ⟨_, indexAttachment.foldlM_eq_ok_iff.2 ⟨?_, rfl⟩, ?_⟩
    · simpa only [Attachment.map_name_attachAll] using hfit.indexes
    refine triggerAttachment.foldlM_eq_ok_iff.2 ⟨?_, rfl⟩
    simpa only [Attachment.map_name_attachAll] using hfit.triggers

end Snapshot

end SchemaPlan.Catalog
