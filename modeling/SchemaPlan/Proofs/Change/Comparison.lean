import Mathlib.Data.List.Nodup
import SchemaPlan.Change.Comparison
import SchemaPlan.Proofs.Outcome

/-!
# What a comparison finds

* `parts_of_alter`: an alteration first takes parts away and then brings or changes parts.
* `SchemaObject.Agrees` says when a live definition may stay.  `compareObjects_of_agrees` shows
  that nothing is changed then, and `agrees_of_canonical_eq` that equivalent definitions agree.
-/

set_option autoImplicit false

namespace SchemaPlan

/-- Whether a change takes a part of an object away. -/
def AlterChange.removes : AlterChange → Bool
  | .dropColumn _ | .dropConstraint _ => true
  | _ => false

/-- Whether a change brings a part of an object or changes one under its name. -/
def AlterChange.brings : AlterChange → Bool
  | .dropColumn _ | .dropConstraint _ | .renameColumn _ _ => false
  | _ => true

/-- Whether a change adds a column or changes one. -/
def AlterChange.setsColumn : AlterChange → Bool
  | .addColumn _ | .alterColumnType _ _ _ | .setNullable _ _ | .setDefault _ _
  | .setColumnComment _ _ => true
  | _ => false

namespace Change

/-! ## Removing and adding changes -/

theorem mem_newLabels {live labels : List String} {previous : Option String}
    {change : AlterChange} (h : change ∈ newLabels live previous labels) :
    ∃ label place, change = .addEnumLabel label place := by
  induction labels generalizing previous with
  | nil => cases h
  | cons label rest ih =>
    rw [newLabels.eq_def] at h
    simp only at h
    split at h
    · exact ih h
    · rcases List.mem_cons.1 h with rfl | h
      · exact ⟨_, _, rfl⟩
      · exact ih h

theorem setsColumn_of_compareColumn {options : DiffOptions} {live : Table} {column : Column}
    {changes : List AlterChange} (h : compareColumn options live column = .ok changes)
    {change : AlterChange} (hchange : change ∈ changes) : change.setsColumn = true := by
  rw [compareColumn] at h
  split at h
  · cases h
    rw [List.mem_singleton.1 hchange]
    rfl
  · obtain ⟨types, htypes, h⟩ := Outcome.bind_eq_ok_iff.1 h
    cases h
    simp only [List.mem_append] at hchange
    rcases hchange with ((hchange | hchange) | hchange) | hchange
    · rw [compareTypes] at htypes
      split at htypes
      · cases htypes
        cases hchange
      · split at htypes
        · cases htypes
          rw [List.mem_singleton.1 hchange]
          rfl
        · cases htypes
    all_goals
      split at hchange
      · cases hchange
      · rw [List.mem_singleton.1 hchange]
        rfl

/-- The changes of a table: live constraints and columns go, columns are set and declared
constraints and the comment come. -/
theorem mem_of_compareTables {options : DiffOptions} {declared live : Table}
    {changes : TableChanges} (h : compareTables options declared live = .ok changes) :
    (∀ change ∈ changes.removals, (∃ c ∈ live.constraints, change = .dropConstraint c) ∨
      ∃ column, change = .dropColumn column) ∧
    ∀ change ∈ changes.additions, change.setsColumn = true ∨
      (∃ c ∈ declared.constraints, change = .addConstraint c) ∨
      change = .setComment declared.comment := by
  obtain ⟨columns, hcolumns, h⟩ := Outcome.bind_eq_ok_iff.1 h
  cases h
  refine ⟨fun change hchange => ?_, fun change hchange => ?_⟩
  · rcases List.mem_append.1 hchange with hchange | hchange
    · obtain ⟨c, hc, rfl⟩ := List.mem_map.1 hchange
      exact .inl ⟨c, (List.mem_filter.1 hc).1, rfl⟩
    · obtain ⟨column, -, rfl⟩ := List.mem_map.1 hchange
      exact .inr ⟨column, rfl⟩
  · simp only [List.mem_append, List.mem_flatten] at hchange
    rcases hchange with (⟨changes, hchanges, hchange⟩ | hchange) | hchange
    · obtain ⟨column, -, hcolumn⟩ := Outcome.exists_of_mem_mapM hcolumns hchanges
      exact .inl (setsColumn_of_compareColumn hcolumn hchange)
    · obtain ⟨c, hc, rfl⟩ := List.mem_map.1 hchange
      exact .inr (.inl ⟨c, (List.mem_filter.1 hc).1, rfl⟩)
    · split at hchange
      · cases hchange
      · exact .inr (.inr (List.mem_singleton.1 hchange))

theorem brings_of_setsColumn {change : AlterChange} (h : change.setsColumn = true) :
    change.brings = true := by
  cases change <;> first | rfl | cases h

theorem removes_of_brings {change : AlterChange} (h : change.brings = true) :
    change.removes = false := by
  cases change <;> first | rfl | cases h

/-- The changes of a table first take parts away and then bring or change parts. -/
theorem parts_of_compareTables {options : DiffOptions} {declared live : Table}
    {changes : TableChanges} (h : compareTables options declared live = .ok changes) :
    (∀ change ∈ changes.removals, change.removes = true) ∧
      ∀ change ∈ changes.additions, change.brings = true := by
  obtain ⟨hremovals, hadditions⟩ := mem_of_compareTables h
  refine ⟨fun change hchange => ?_, fun change hchange => ?_⟩
  · rcases hremovals change hchange with ⟨c, -, rfl⟩ | ⟨column, rfl⟩
    · rfl
    · rfl
  · rcases hadditions change hchange with hsets | ⟨c, -, rfl⟩ | rfl
    · exact brings_of_setsColumn hsets
    · rfl
    · rfl

theorem ofChanges_eq_alter {removals additions removals' additions' : List AlterChange}
    (h : Update.ofChanges removals additions = some (.alter removals' additions')) :
    removals' = removals ∧ additions' = additions := by
  rw [Update.ofChanges] at h
  split at h
  · cases h
  · cases h
    exact ⟨rfl, rfl⟩

/-- What a comparison alters in place; two empty lists when it finds nothing. -/
def Verdict.Alters (verdict : Verdict) (removals additions : List AlterChange) : Prop :=
  verdict.change = some (.alter removals additions) ∨
    verdict.change = none ∧ removals = [] ∧ additions = []

theorem changes_of_alters {verdict : Verdict}
    {removals additions removals' additions' : List AlterChange}
    (hchange : verdict.change = Update.ofChanges removals additions)
    (h : verdict.Alters removals' additions') : removals' = removals ∧ additions' = additions := by
  rw [Verdict.Alters, hchange] at h
  rcases h with h | ⟨h, rfl, rfl⟩
  · exact ofChanges_eq_alter h
  · rw [Update.ofChanges] at h
    split at h
    · rename_i hempty
      rw [Bool.and_eq_true, List.isEmpty_iff, List.isEmpty_iff] at hempty
      exact ⟨hempty.1.symm, hempty.2.symm⟩
    · cases h

/-- What the comparison of two definitions can find, kind by kind. -/
theorem compareObjects_cases {options : DiffOptions} {declared live : SchemaObject}
    {verdict : Verdict} (h : compareObjects options declared live = .ok verdict) :
    (∃ e, declared = .extension e ∧ verdict = ⟨none, false, []⟩) ∨
    (∃ d l change, declared = .enum d ∧ live = .enum l ∧ compareEnums d l = .ok change ∧
      verdict = ⟨change, false, []⟩) ∨
    (∃ d l, declared = .function d ∧ live = .function l ∧
      verdict = ⟨compareFunctions d l, false, []⟩) ∨
    (∃ d l changes, declared = .table d ∧ live = .table l ∧
      compareTables options d l = .ok changes ∧
      verdict = ⟨Update.ofChanges changes.removals changes.additions, changes.dropsKey,
        changes.candidates⟩) ∨
    verdict = ⟨if declared.equivalent live then none else some .recreate, false, []⟩ := by
  have houtcome := Outcome.mapError_eq_ok_iff.1 h
  clear h
  split at houtcome
  · cases houtcome
    exact .inl ⟨_, rfl, rfl⟩
  · obtain ⟨change, hcompare, rfl⟩ := Outcome.map_eq_ok_iff.1 houtcome
    exact .inr (.inl ⟨_, _, change, rfl, rfl, hcompare, rfl⟩)
  · cases houtcome
    exact .inr (.inr (.inl ⟨_, _, rfl, rfl, rfl⟩))
  · obtain ⟨changes, hcompare, rfl⟩ := Outcome.map_eq_ok_iff.1 houtcome
    exact .inr (.inr (.inr (.inl ⟨_, _, changes, rfl, rfl, hcompare, rfl⟩)))
  · cases houtcome
    exact .inr (.inr (.inr (.inr rfl)))

/-- **An alteration first takes parts away and then brings or changes parts.** -/
theorem parts_of_alter {options : DiffOptions} {declared live : SchemaObject} {verdict : Verdict}
    (h : compareObjects options declared live = .ok verdict)
    {removals additions : List AlterChange}
    (hchange : verdict.change = some (.alter removals additions)) :
    (∀ change ∈ removals, change.removes = true) ∧
      ∀ change ∈ additions, change.brings = true := by
  have hnil : ∀ change : AlterChange, change ∈ [] → change.removes = true :=
    fun _ hc => absurd hc List.not_mem_nil
  rcases compareObjects_cases h with ⟨e, -, rfl⟩ | ⟨d, l, change, -, -, hcompare, rfl⟩ |
    ⟨d, l, -, -, rfl⟩ | ⟨d, l, changes, -, -, hcompare, rfl⟩ | rfl
  · cases hchange
  · rw [compareEnums] at hcompare
    split at hcompare
    · cases hcompare
    · cases hcompare
      obtain ⟨rfl, rfl⟩ := ofChanges_eq_alter hchange
      refine ⟨hnil, fun change hc => ?_⟩
      obtain ⟨label, place, rfl⟩ := mem_newLabels hc
      rfl
  · simp only [compareFunctions] at hchange
    split at hchange
    · cases hchange
    · split at hchange
      · cases hchange
      · cases hchange
        refine ⟨hnil, fun change hc => ?_⟩
        rw [List.mem_singleton.1 hc]
        rfl
  · obtain ⟨rfl, rfl⟩ := ofChanges_eq_alter hchange
    exact parts_of_compareTables hcompare
  · simp only at hchange
    split at hchange <;> cases hchange

theorem removes_of_alter {options : DiffOptions} {declared live : SchemaObject} {verdict : Verdict}
    (h : compareObjects options declared live = .ok verdict)
    {removals additions : List AlterChange}
    (hchange : verdict.change = some (.alter removals additions)) :
    (∀ change ∈ removals, change.removes = true) ∧
      ∀ change ∈ additions, change.removes = false := by
  obtain ⟨hremovals, hadditions⟩ := parts_of_alter h hchange
  exact ⟨hremovals, fun change hc => removes_of_brings (hadditions change hc)⟩

theorem removes_of_alters {options : DiffOptions} {declared live : SchemaObject}
    {verdict : Verdict} (h : compareObjects options declared live = .ok verdict)
    {removals additions : List AlterChange} (halters : verdict.Alters removals additions) :
    (∀ change ∈ removals, change.removes = true) ∧
      ∀ change ∈ additions, change.removes = false := by
  rcases halters with hchange | ⟨-, rfl, rfl⟩
  · exact removes_of_alter h hchange
  · exact ⟨fun _ hc => absurd hc List.not_mem_nil, fun _ hc => absurd hc List.not_mem_nil⟩

end Change

/-! ## Agreement -/

theorem Table.column?_eq_some_iff {t : Table} (h : (t.columns.map Column.name).Nodup)
    {name : String} {column : Column} :
    t.column? name = some column ↔ column ∈ t.columns ∧ column.name = name := by
  refine ⟨fun hfind => ⟨List.mem_of_find?_eq_some hfind, by simpa using List.find?_some hfind⟩, ?_⟩
  rintro ⟨hmem, rfl⟩
  cases hfind : t.column? column.name with
  | none =>
    have hno := List.find?_eq_none.1 hfind column hmem
    simp at hno
  | some found =>
    have hname : found.name = column.name := by simpa using List.find?_some hfind
    rw [List.inj_on_of_nodup_map h (List.mem_of_find?_eq_some hfind) hmem hname]

/-- A live column that may stay for a declared one of its name. -/
structure Column.Agrees (declared live : Column) : Prop where
  type : declared.type = live.type
  nullable : declared.nullable = live.nullable
  default : DefaultValue.canonicalSql? declared.default = DefaultValue.canonicalSql? live.default
  comment : declared.comment = live.comment

/-- A live table that may stay: it has the declared columns, in any order, and constraints of the
declared canonical forms. -/
structure Table.Agrees (declared live : Table) : Prop where
  comment : declared.comment = live.comment
  columns : ∀ column ∈ declared.columns, ∃ existing : Column,
    live.column? column.name = some existing ∧ column.Agrees existing
  noOthers : ∀ column ∈ live.columns, (declared.column? column.name).isSome = true
  constraints : ∀ c ∈ declared.constraints, ∃ existing ∈ live.constraints,
    existing.canonical = c.canonical
  noOtherConstraints : ∀ existing ∈ live.constraints, ∃ c ∈ declared.constraints,
    c.canonical = existing.canonical

/-- A live definition that may stay for a declared one. -/
def SchemaObject.Agrees : SchemaObject → SchemaObject → Prop
  | .enum declared, .enum live => declared = live
  | .table declared, .table live => declared.Agrees live
  | declared, live => declared.canonical = live.canonical

theorem Column.agrees_of_canonical_eq {declared live : Column}
    (h : declared.canonical = live.canonical) :
    declared.name = live.name ∧ declared.Agrees live := by
  obtain ⟨hname, htype, hnullable, hdefault, hcomment⟩ := Column.mk.inj h
  refine ⟨hname, htype, hnullable, ?_, hcomment⟩
  exact Option.map_injective (fun a b hab => by cases hab; rfl) hdefault

theorem Table.agrees_of_canonical_eq {declared live : Table}
    (hcolumns : (declared.columns.map Column.name).Nodup)
    (h : declared.canonical = live.canonical) : declared.Agrees live := by
  obtain ⟨-, hcanonical, hconstraints, -, -, hcomment⟩ := Table.mk.inj h
  have hnames : live.columns.map Column.name = declared.columns.map Column.name := by
    have hmap := congrArg (List.map Column.name) hcanonical
    simp only [List.map_map] at hmap
    exact hmap.symm
  have hlive : (live.columns.map Column.name).Nodup := by rwa [hnames]
  refine ⟨hcomment, fun column hcolumn => ?_, fun column hcolumn => ?_, fun c hc => ?_,
    fun c hc => ?_⟩
  · have hmem : column.canonical ∈ live.columns.map Column.canonical := by
      rw [← hcanonical]
      exact List.mem_map_of_mem hcolumn
    obtain ⟨existing, hexisting, heq⟩ := List.mem_map.1 hmem
    obtain ⟨hname, hagrees⟩ := Column.agrees_of_canonical_eq heq.symm
    exact ⟨existing, (Table.column?_eq_some_iff hlive).2 ⟨hexisting, hname.symm⟩, hagrees⟩
  · rw [Table.column?_isSome_iff, ← hnames]
    exact List.mem_map_of_mem hcolumn
  · have hmem : c.canonical ∈ live.constraints.map Constraint.canonical := by
      rw [← hconstraints]
      exact List.mem_map_of_mem hc
    exact List.mem_map.1 hmem
  · have hmem : c.canonical ∈ declared.constraints.map Constraint.canonical := by
      rw [hconstraints]
      exact List.mem_map_of_mem hc
    exact List.mem_map.1 hmem

/-- **Equivalent definitions agree** when no declared column repeats. -/
theorem SchemaObject.agrees_of_canonical_eq {declared live : SchemaObject}
    (hcolumns : ∀ t, declared = .table t → (t.columns.map Column.name).Nodup)
    (h : declared.canonical = live.canonical) : declared.Agrees live := by
  cases declared with
  | enum d =>
    cases live with
    | enum l =>
      exact SchemaObject.enum.inj h
    | _ => exact h
  | table d =>
    cases live with
    | table l =>
      exact Table.agrees_of_canonical_eq (hcolumns d rfl) (SchemaObject.table.inj h)
    | _ => exact h
  | _ => exact h

namespace Change

theorem unmatchedLabels_self (labels : List String) : unmatchedLabels labels labels = [] := by
  induction labels with
  | nil => rfl
  | cons label rest ih => rw [unmatchedLabels, if_pos rfl, ih]

theorem newLabels_of_subset {live labels : List String} (h : labels ⊆ live)
    (previous : Option String) : newLabels live previous labels = [] := by
  induction labels generalizing previous with
  | nil => rw [newLabels]
  | cons label rest ih =>
    obtain ⟨hlabel, hrest⟩ := List.cons_subset.1 h
    rw [newLabels.eq_def]
    simp only [List.contains_iff_mem.2 hlabel, if_true]
    exact ih hrest _

theorem compareColumns_of_agrees {options : DiffOptions} {declared live : Column}
    (h : declared.Agrees live) : compareColumns options declared live = .ok [] := by
  rw [compareColumns, compareTypes, if_pos h.type, if_pos h.nullable, if_pos h.default,
    if_pos h.comment]
  rfl

theorem constraintsNotIn_eq_nil {table other : Table}
    (h : ∀ c ∈ table.constraints, ∃ c' ∈ other.constraints, c'.canonical = c.canonical) :
    constraintsNotIn table other = [] := by
  refine List.filter_eq_nil_iff.2 fun c hc => ?_
  obtain ⟨c', hc', heq⟩ := h c hc
  rw [Bool.not_eq_true, Bool.not_eq_false', List.any_eq_true]
  exact ⟨c', hc', beq_iff_eq.2 heq⟩

theorem columnsNotIn_eq_nil {table other : Table}
    (h : ∀ column ∈ table.columns, (other.column? column.name).isSome = true) :
    columnsNotIn table other = [] := by
  refine List.filter_eq_nil_iff.2 fun column hcolumn => ?_
  rw [Option.isNone_iff_eq_none, ← Option.not_isSome_iff_eq_none, not_not]
  exact h column hcolumn

/-- A table that may stay is not changed. -/
theorem compareTables_of_agrees {options : DiffOptions} {declared live : Table}
    (h : declared.Agrees live) : compareTables options declared live = .ok ⟨[], [], false, []⟩ := by
  have hcolumns : declared.columns.mapM (compareColumn options live) =
      .ok (declared.columns.map fun _ => []) := by
    refine Outcome.mapM_eq_ok_map fun column hcolumn => ?_
    obtain ⟨existing, hexisting, hagrees⟩ := h.columns column hcolumn
    rw [compareColumn, hexisting]
    exact compareColumns_of_agrees hagrees
  have hdeclared : ∀ column ∈ declared.columns, (live.column? column.name).isSome = true := by
    intro column hcolumn
    obtain ⟨existing, hexisting, -⟩ := h.columns column hcolumn
    rw [hexisting]
    rfl
  rw [compareTables, hcolumns, constraintsNotIn_eq_nil h.noOtherConstraints,
    constraintsNotIn_eq_nil h.constraints, columnsNotIn_eq_nil h.noOthers,
    columnsNotIn_eq_nil hdeclared, if_pos h.comment]
  simp [bind, Except.bind, pure, Except.pure, columnCandidates, matchColumns, columnPairs,
    choosePairs]

/-- **What may stay is not changed.** -/
theorem compareObjects_of_agrees {options : DiffOptions} {declared live : SchemaObject}
    (h : declared.Agrees live) : compareObjects options declared live = .ok ⟨none, false, []⟩ := by
  refine Outcome.mapError_eq_ok_iff.2 ?_
  split
  · rfl
  · rename_i d l
    obtain rfl : d = l := h
    rw [compareEnums, unmatchedLabels_self, newLabels_of_subset (List.Subset.refl _)]
    rfl
  · rename_i d l
    have hcanonical : d.canonical = l.canonical := by
      simpa [SchemaObject.Agrees, SchemaObject.canonical] using h
    have hsignature : d.signature = l.signature :=
      Prod.ext (congrArg Function.arguments hcanonical) (congrArg Function.returns hcanonical)
    rw [compareFunctions, if_neg (not_not.2 hsignature), if_pos hcanonical]
  · rw [compareTables_of_agrees h]
    rfl
  · rename_i hextension henum hfunction htable
    have hequivalent : declared.equivalent live = true := by
      refine beq_iff_eq.2 ?_
      cases declared <;> cases live <;>
        first | exact h | exact (henum _ _ rfl rfl).elim | exact (htable _ _ rfl rfl).elim
    rw [hequivalent]
    rfl

end Change

end SchemaPlan
