import SchemaPlan.Proofs.Change.Alteration

/-!
# What a table gives up

The changes of a table take away what its live definition has in another form than the declared
one: columns, their types and defaults, and constraints.

* `Sheds` says which changes these are.
* `sheds_of_compareTables`: a table is altered where it differs, and nowhere else.
-/

set_option autoImplicit false

namespace SchemaPlan.Change

/-- The changes that happen rid a live table of exactly those columns, column types, defaults and
constraints that are not declared in the same form. -/
structure Sheds (declared live : Table) (happens : AlterChange → Prop) : Prop where
  columns : ∀ column, happens (.dropColumn column) ↔
    column ∈ live.columns ∧ declared.column? column.name = none
  types : ∀ name source target, happens (.alterColumnType name source target) ↔
    ∃ column ∈ declared.columns, ∃ existing, live.column? column.name = some existing ∧
      column.type ≠ existing.type ∧ column.name = name ∧ existing.type = source ∧
      column.type = target
  defaults : ∀ name default, happens (.setDefault name default) ↔
    ∃ column ∈ declared.columns, ∃ existing, live.column? column.name = some existing ∧
      DefaultValue.canonicalSql? column.default ≠ DefaultValue.canonicalSql? existing.default ∧
      column.name = name ∧ settableDefault column.default = default
  constraints : ∀ constraint, happens (.dropConstraint constraint) ↔
    constraint ∈ live.constraints ∧
      ∀ c ∈ declared.constraints, c.canonical ≠ constraint.canonical

variable {options : DiffOptions} {declared live : Table}

/-- The types and defaults that the changes of a column set. -/
theorem mem_compareColumn_iff {column : Column} {changes : List AlterChange}
    (h : compareColumn options live column = .ok changes) :
    (∀ name source target, .alterColumnType name source target ∈ changes ↔
      ∃ existing, live.column? column.name = some existing ∧ column.type ≠ existing.type ∧
        column.name = name ∧ existing.type = source ∧ column.type = target) ∧
    ∀ name default, .setDefault name default ∈ changes ↔
      ∃ existing, live.column? column.name = some existing ∧
        DefaultValue.canonicalSql? column.default ≠ DefaultValue.canonicalSql? existing.default ∧
        column.name = name ∧ settableDefault column.default = default := by
  rw [compareColumn] at h
  split at h
  · rename_i hnone
    cases h
    simp [hnone]
  · rename_i existing hexisting
    obtain ⟨types, htypes, h⟩ := Outcome.bind_eq_ok_iff.1 h
    cases h
    rw [compareTypes_eq htypes]
    constructor
    · intro name source target
      simp only [List.mem_append, List.mem_ite_nil_left, List.mem_singleton, hexisting,
        Option.some.injEq, exists_eq_left', AlterChange.alterColumnType.injEq, reduceCtorEq,
        and_false, or_false]
      simp only [eq_comm]
    · intro name default
      simp only [List.mem_append, List.mem_ite_nil_left, List.mem_singleton, hexisting,
        Option.some.injEq, exists_eq_left', AlterChange.setDefault.injEq, reduceCtorEq,
        and_false, or_false, false_or]
      simp only [eq_comm]

/-- **A table is altered where it differs from the declared one, and nowhere else.** -/
theorem sheds_of_compareTables {changes : TableChanges}
    (h : compareTables options declared live = .ok changes) :
    Sheds declared live (· ∈ changes.removals ++ changes.additions) := by
  obtain ⟨columns, hcolumns, h⟩ := Outcome.bind_eq_ok_iff.1 h
  cases h
  have hflatten : ∀ change : AlterChange, change ∈ columns.flatten ↔
      ∃ column ∈ declared.columns, ∃ parts, compareColumn options live column = .ok parts ∧
        change ∈ parts := by
    intro change
    rw [List.mem_flatten]
    constructor
    · rintro ⟨parts, hparts, hchange⟩
      obtain ⟨column, hcolumn, heq⟩ := Outcome.exists_of_mem_mapM hcolumns hparts
      exact ⟨column, hcolumn, parts, heq, hchange⟩
    · rintro ⟨column, hcolumn, parts, heq, hchange⟩
      obtain ⟨parts', hparts, heq'⟩ := Outcome.exists_mem_of_mapM hcolumns hcolumn
      rw [heq, Except.ok.injEq] at heq'
      exact ⟨parts', hparts, heq' ▸ hchange⟩
  have hsets : ∀ change ∈ columns.flatten, change.setsColumn = true := by
    intro change hchange
    obtain ⟨column, -, parts, hparts, hchange⟩ := (hflatten change).1 hchange
    exact setsColumn_of_compareColumn hparts hchange
  -- Each of the four kinds of changes can stand in one part of the lists only.
  constructor
  case columns =>
    intro column
    have hno : AlterChange.dropColumn column ∉ columns.flatten := fun hmem => by
      cases hsets _ hmem
    simp only [List.mem_append, List.mem_map, hno, List.mem_ite_nil_left, List.mem_singleton,
      AlterChange.dropColumn.injEq, reduceCtorEq, and_false, exists_false, false_or, or_false,
      exists_eq_right, mem_columnsNotIn_iff, Option.isSome_eq_false_iff,
      Option.isNone_iff_eq_none]
  case constraints =>
    intro constraint
    have hno : AlterChange.dropConstraint constraint ∉ columns.flatten := fun hmem => by
      cases hsets _ hmem
    simp only [List.mem_append, List.mem_map, hno, List.mem_ite_nil_left, List.mem_singleton,
      AlterChange.dropConstraint.injEq, reduceCtorEq, and_false, exists_false, or_false,
      exists_eq_right, mem_constraintsNotIn_iff, not_exists, not_and, ne_eq]
  case types =>
    intro name source target
    simp only [List.mem_append, List.mem_map, List.mem_ite_nil_left, List.mem_singleton,
      reduceCtorEq, and_false, exists_false, false_or, or_false, hflatten]
    refine exists_congr fun column => and_congr_right fun hcolumn => ?_
    obtain ⟨parts, -, hparts⟩ := Outcome.exists_mem_of_mapM hcolumns hcolumn
    rw [hparts, ← (mem_compareColumn_iff hparts).1 name source target]
    simp only [Except.ok.injEq, exists_eq_left']
  case defaults =>
    intro name default
    simp only [List.mem_append, List.mem_map, List.mem_ite_nil_left, List.mem_singleton,
      reduceCtorEq, and_false, exists_false, false_or, or_false, hflatten]
    refine exists_congr fun column => and_congr_right fun hcolumn => ?_
    obtain ⟨parts, -, hparts⟩ := Outcome.exists_mem_of_mapM hcolumns hcolumn
    rw [hparts, ← (mem_compareColumn_iff hparts).2 name default]
    simp only [Except.ok.injEq, exists_eq_left']

/-- A comparison renames no column. -/
theorem renameColumn_not_mem {changes : TableChanges}
    (h : compareTables options declared live = .ok changes) {source target : String} :
    .renameColumn source target ∉ changes.removals ++ changes.additions := by
  obtain ⟨hremovals, hadditions⟩ := parts_of_compareTables h
  intro hmem
  rcases List.mem_append.1 hmem with hmem | hmem
  · cases hremovals _ hmem
  · cases hadditions _ hmem

end SchemaPlan.Change
