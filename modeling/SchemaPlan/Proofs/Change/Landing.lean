import SchemaPlan.Proofs.Change.Realization

/-!
# Altering a table in place

A live table to which the changes of its comparison are made, one after the other, in a list of
objects that holds it, becomes the declared table up to the order of its columns and constraints.

* `map_name_of_alterTables?`: changes that take nothing away keep the columns in their order, and
  new ones stand behind them.
* `foldlM_alter_table`: changing a table in a list of objects changes no other object.
* `alter_lands`: the altered table has what is declared, and nothing is left to change in it.
-/

set_option autoImplicit false

namespace SchemaPlan.Change

/-! ## The order of columns -/

/-- The column that a change adds. -/
def addedColumn? : AlterChange → Option Column
  | .addColumn column => some column
  | _ => none

theorem map_name_of_alterTable? {table changed : Table} {change : AlterChange}
    (hremoves : change.removes = false) (h : alterTable? table change = some changed) :
    changed.columns.map Column.name =
      table.columns.map Column.name ++ (addedColumn? change).toList.map Column.name := by
  have hupdate : ∀ {name : String} {f : Column → Column},
      table.updateColumn? name f = some changed → (∀ column, (f column).name = column.name) →
        changed.columns.map Column.name = table.columns.map Column.name := by
    intro name f hupdate hf
    rw [Table.updateColumn?] at hupdate
    split at hupdate
    · cases hupdate
    · cases hupdate
      exact map_name_updateFirst hf table.columns
  cases change with
  | dropColumn | dropConstraint => cases hremoves
  | alterColumnType | setNullable | setDefault | setColumnComment =>
    rw [hupdate h fun _ => rfl]
    exact (List.append_nil _).symm
  | addColumn column =>
    cases h
    exact List.map_append
  | addConstraint | setComment =>
    cases h
    exact (List.append_nil _).symm
  | renameColumn | addEnumLabel | replaceFunction => cases h

/-- **Changes that take nothing away keep the columns in their order**, and new ones stand behind
them. -/
theorem map_name_of_alterTables? {changes : List AlterChange} {table changed : Table}
    (hremoves : ∀ change ∈ changes, change.removes = false)
    (h : alterTables? changes table = some changed) :
    changed.columns.map Column.name =
      table.columns.map Column.name ++ (changes.filterMap addedColumn?).map Column.name := by
  induction changes generalizing table with
  | nil =>
    cases h
    exact (List.append_nil _).symm
  | cons change changes ih =>
    obtain ⟨hfirst, hrest⟩ := List.forall_mem_cons.1 hremoves
    rw [alterTables?_cons] at h
    obtain ⟨next, hnext, h⟩ := Option.bind_eq_some_iff.1 h
    rw [ih hrest h, map_name_of_alterTable? hfirst hnext, List.append_assoc, ← List.map_append,
      List.filterMap_cons]
    cases addedColumn? change <;> rfl

/-- A declared column is added when the live table does not have it. -/
theorem filterMap_addedColumn?_of_compareColumn {options : DiffOptions} {live : Table}
    {column : Column} {changes : List AlterChange}
    (h : compareColumn options live column = .ok changes) :
    changes.filterMap addedColumn? =
      if (live.column? column.name).isNone then [column] else [] := by
  rw [compareColumn] at h
  split at h
  · rename_i hnone
    cases h
    rw [hnone]
    rfl
  · rename_i existing hexisting
    obtain ⟨types, htypes, h⟩ := Outcome.bind_eq_ok_iff.1 h
    cases h
    have hsome : (live.column? column.name).isNone = false := by
      rw [hexisting]
      rfl
    rw [compareTypes_eq htypes, hsome, if_neg Bool.false_ne_true]
    simp only [List.filterMap_append]
    split_ifs <;> rfl

/-- The added columns are those that only the declared table has, in their order. -/
theorem filterMap_addedColumn? {options : DiffOptions} {declared live : Table}
    {changes : TableChanges} (h : compareTables options declared live = .ok changes) :
    changes.additions.filterMap addedColumn? = columnsNotIn declared live := by
  obtain ⟨columns, hcolumns, h⟩ := Outcome.bind_eq_ok_iff.1 h
  cases h
  have hconstraints : ((constraintsNotIn declared live).map AlterChange.addConstraint).filterMap
      addedColumn? = [] := by
    rw [List.filterMap_map]
    exact List.filterMap_eq_nil_iff.2 fun _ _ => rfl
  have hcomment : (if declared.comment = live.comment then []
      else [AlterChange.setComment declared.comment]).filterMap addedColumn? = [] := by
    split_ifs <;> rfl
  rw [List.filterMap_append, List.filterMap_append, hconstraints, hcomment, List.append_nil,
    List.append_nil, columnsNotIn]
  have hall := Outcome.mapM_eq_ok_iff.1 hcolumns
  clear h hcolumns hconstraints hcomment
  generalize declared.columns = sources at hall ⊢
  induction hall with
  | nil => rfl
  | cons hhead _ ih =>
    rw [List.flatten_cons, List.filterMap_append, filterMap_addedColumn?_of_compareColumn hhead, ih,
      List.filter_cons]
    split <;> rfl

/-- The removals keep the columns that are still declared, in their order. -/
theorem map_name_of_removals {options : DiffOptions} {declared live between : Table}
    {changes : TableChanges} (hlive : (live.columns.map Column.name).Nodup)
    (h : compareTables options declared live = .ok changes)
    (hremovals : alterTables? changes.removals live = some between) :
    between.columns.map Column.name =
      (live.columns.filter fun column => (declared.column? column.name).isSome).map
        Column.name := by
  obtain ⟨columns, -, h⟩ := Outcome.bind_eq_ok_iff.1 h
  cases h
  have hdropped : ((columnsNotIn live declared).map Column.name).Nodup :=
    (List.filter_sublist.map Column.name).nodup hlive
  rw [alterTables?_append, alterTables?_dropConstraints, Option.bind_some] at hremovals
  obtain rfl := Option.some.inj (hremovals.symm.trans
    (alterTables?_dropColumns hdropped hlive fun column hcolumn =>
      List.mem_map_of_mem (mem_columnsNotIn_iff.1 hcolumn).1))
  refine congrArg (List.map Column.name) (List.filter_congr fun column hcolumn => ?_)
  rw [Bool.eq_iff_iff, Bool.not_eq_true', List.any_eq_false]
  constructor
  · intro hkept
    rw [← Bool.not_eq_false]
    exact fun hgone =>
      hkept column (mem_columnsNotIn_iff.2 ⟨hcolumn, hgone⟩) (beq_self_eq_true _)
  · intro hdeclared dropped hmem heq
    have hgone := (mem_columnsNotIn_iff.1 hmem).2
    rw [beq_iff_eq.1 heq, hdeclared] at hgone
    cases hgone

/-! ## A table among other objects -/

theorem updateObject_middle {front back : List SchemaObject} {object : SchemaObject}
    (hfirst : ∀ other ∈ front, other.id ≠ object.id)
    (change : SchemaObject → Option SchemaObject) :
    updateObject (front ++ object :: back) object.id change =
      (change object).map fun changed => front ++ changed :: back := by
  induction front with
  | nil => exact if_pos rfl
  | cons other front ih =>
    obtain ⟨hother, hrest⟩ := List.forall_mem_cons.1 hfirst
    rw [List.cons_append, updateObject, if_neg hother, ih hrest, Option.map_map]
    rfl

/-- **Changing a table in a list of objects changes no other object.** -/
theorem foldlM_alter_table {front back : List SchemaObject} {changes : List AlterChange}
    {table changed : Table} (hfirst : ∀ other ∈ front, other.id ≠ .table table.name)
    (hplace : ∀ change ∈ changes, change.InPlace (.table table.name))
    (h : alterTables? changes table = some changed) :
    changes.foldlM (fun objects change => alter objects (.table table.name) change)
        (front ++ .table table :: back) = .ok (front ++ .table changed :: back) := by
  induction changes generalizing table with
  | nil =>
    cases h
    rfl
  | cons change changes ih =>
    rw [alterTables?_cons] at h
    obtain ⟨next, hnext, h⟩ := Option.bind_eq_some_iff.1 h
    obtain ⟨hhead, hrest⟩ := List.forall_mem_cons.1 hplace
    have hname := name_of_alterTable? hnext
    have hupdate : updateObject (front ++ .table table :: back) (.table table.name)
        (alterObject? change) = some (front ++ .table next :: back) := by
      rw [← SchemaObject.id, updateObject_middle hfirst, alterObject?, hnext]
      rfl
    have hrename : ∀ source target, change ≠ .renameColumn source target := by
      rintro source target rfl
      cases hnext
    rw [← hname] at hfirst hrest
    rw [List.foldlM_cons]
    refine Outcome.bind_eq_ok_iff.2 ⟨_, alter_of_updateObject hhead hrename hupdate, ?_⟩
    rw [← hname]
    exact ih hfirst hrest h

/-! ## Arrival -/

/-- A live table that has become a declared one: it has the live columns that are still declared, in
their order, and behind them the new ones, and it differs from the declared table in nothing that
would have to be changed. -/
structure Lands (declared live result : Table) : Prop where
  name : result.name = live.name
  columns : result.columns.map Column.name =
    (live.columns.filter fun column => (declared.column? column.name).isSome).map Column.name ++
      (declared.columns.filter fun column => (live.column? column.name).isNone).map Column.name
  agrees : ∀ column ∈ result.columns, ∃ d ∈ declared.columns, d.name = column.name ∧
    column.type = d.type ∧ column.nullable = d.nullable ∧ column.comment = d.comment ∧
    DefaultValue.canonicalSql? column.default = DefaultValue.canonicalSql? d.default
  constraints : ∀ name kind,
    (name, kind) ∈ result.constraints.map (fun c => (c.name, c.kind.canonical)) ↔
      (name, kind) ∈ declared.constraints.map fun c => (c.name, c.kind.canonical)
  comment : result.comment = declared.comment
  settled : ∀ options, compareTables options declared result = .ok ⟨[], [], false, []⟩

theorem constraint_canonical_eq_iff {a b : Constraint} :
    a.canonical = b.canonical ↔ (a.name, a.kind.canonical) = (b.name, b.kind.canonical) := by
  rw [Constraint.canonical, Constraint.canonical, Constraint.mk.injEq, Prod.mk.injEq]

/-- A table that may stay for a declared one and has its columns in the right order has arrived. -/
theorem lands_of_reaches {declared live result : Table} (h : Reaches declared live result)
    (hcolumns : result.columns.map Column.name =
      (live.columns.filter fun column => (declared.column? column.name).isSome).map Column.name ++
        (columnsNotIn declared live).map Column.name) : Lands declared live result where
  name := h.name
  columns := hcolumns
  agrees column hcolumn := by
    obtain ⟨d, hd⟩ := Option.isSome_iff_exists.1 (h.agrees.noOthers column hcolumn)
    have hmem := List.mem_of_find?_eq_some hd
    have hname : d.name = column.name := by simpa using List.find?_some hd
    obtain ⟨existing, hexisting, hagrees⟩ := h.agrees.columns d hmem
    have hfound := (Table.column?_eq_some_iff h.nodup).2 ⟨hcolumn, hname.symm⟩
    obtain rfl : column = existing := Option.some.inj (hfound.symm.trans hexisting)
    exact ⟨d, hmem, hname, hagrees.type.symm, hagrees.nullable.symm, hagrees.comment.symm,
      hagrees.default.symm⟩
  constraints name kind := by
    rw [List.mem_map, List.mem_map]
    constructor
    · rintro ⟨existing, hexisting, heq⟩
      obtain ⟨c, hc, hcanonical⟩ := h.agrees.noOtherConstraints existing hexisting
      exact ⟨c, hc, (constraint_canonical_eq_iff.1 hcanonical).trans heq⟩
    · rintro ⟨c, hc, heq⟩
      obtain ⟨existing, hexisting, hcanonical⟩ := h.agrees.constraints c hc
      exact ⟨existing, hexisting, (constraint_canonical_eq_iff.1 hcanonical).trans heq⟩
  comment := h.agrees.comment.symm
  settled _ := compareTables_of_agrees h.agrees

/-- **Altering a table in place lands on the declared table.**  The changes of a comparison, made
one after the other in a list of objects that holds the live table, never fail; they turn it into
the declared one up to the order of its columns and constraints, and nothing is left to change. -/
theorem alter_lands {options : DiffOptions} {declared live : Table} {changes : TableChanges}
    {front back : List SchemaObject}
    (hdeclared : (declared.columns.map Column.name).Nodup)
    (hlive : (live.columns.map Column.name).Nodup)
    (hnames : (live.constraints.map Constraint.name).Nodup)
    (hdeclaredInline : ∀ c ∈ declared.constraints, c.kind.isForeignKey = false)
    (hliveInline : ∀ c ∈ live.constraints, c.kind.isForeignKey = false)
    (hfirst : ∀ other ∈ front, other.id ≠ .table live.name)
    (h : compareTables options declared live = .ok changes) :
    ∃ result, (changes.removals ++ changes.additions).foldlM
        (fun objects change => alter objects (.table live.name) change)
        (front ++ .table live :: back) = .ok (front ++ .table result :: back) ∧
      Lands declared live result := by
  obtain ⟨between, result, hremovals, hadditions, hreaches⟩ :=
    alterTables_of_compareTables hdeclared hlive hnames h
  have hplace := inPlace_of_compareTables h hdeclaredInline hliveInline (.table live.name)
  have hrun : alterTables? (changes.removals ++ changes.additions) live = some result := by
    rw [alterTables?_append, hremovals]
    exact hadditions
  refine ⟨result, foldlM_alter_table hfirst hplace hrun, lands_of_reaches hreaches ?_⟩
  have hadds := fun change hc => removes_of_brings ((parts_of_compareTables h).2 change hc)
  rw [map_name_of_alterTables? hadds hadditions,
    map_name_of_removals hlive h hremovals, filterMap_addedColumn? h]

/-- Tracks as they are stored. -/
def liveTrack : Table where
  name := "track"
  columns := [
    { name := "id", type := .integer, nullable := false },
    { name := "title", type := .varchar (some 40), default := some (.string "untitled") },
    { name := "notes", type := .text }]
  constraints := [⟨"track_title", .unique ["title"]⟩, ⟨"track_id", .check "id > 0"⟩]

/-- Tracks as they are declared: a constraint has the name of another one. -/
def declaredTrack : Table where
  name := "track"
  columns := [
    { name := "artist", type := .text, comment := some "Who plays" },
    { name := "title", type := .text, nullable := false, default := some .null },
    { name := "id", type := .bigInt, nullable := false }]
  constraints := [⟨"track_id", .check "(ID > 0)"⟩, ⟨"track_title", .check "title <> ''"⟩]
  comment := some "Tracks"

theorem alter_lands_track : ∃ changes result,
    compareTables {} declaredTrack liveTrack = .ok changes ∧
      changes.removals = [.dropConstraint ⟨"track_title", .unique ["title"]⟩,
        .dropColumn { name := "notes", type := .text }] ∧
      (changes.removals ++ changes.additions).foldlM
          (fun objects change => alter objects (.table "track") change)
          [.extension ⟨"citext"⟩, .table liveTrack,
            .index { name := "track_notes", table := "track" }] =
        .ok [.extension ⟨"citext"⟩, .table result,
          .index { name := "track_notes", table := "track" }] ∧
      Lands declaredTrack liveTrack result := by
  have hremovals : (compareTables {} declaredTrack liveTrack).toOption.map TableChanges.removals =
      some [.dropConstraint ⟨"track_title", .unique ["title"]⟩,
        .dropColumn { name := "notes", type := .text }] := by decide +kernel
  obtain ⟨changes, hchanges, hremovals⟩ := Option.map_eq_some_iff.1 hremovals
  have hcompare := Outcome.toOption_eq_some_iff.1 hchanges
  obtain ⟨result, hrun, hlands⟩ := @alter_lands {} declaredTrack liveTrack changes
    [.extension ⟨"citext"⟩] [.index { name := "track_notes", table := "track" }]
    (by decide) (by decide) (by decide) (by decide) (by decide) (by decide) hcompare
  exact ⟨changes, result, hcompare, hremovals, hrun, hlands⟩

end SchemaPlan.Change
