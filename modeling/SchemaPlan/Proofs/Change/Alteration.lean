import SchemaPlan.Proofs.Change.Comparison
import SchemaPlan.Proofs.Change.Simulation

/-!
# Altering an object in place

Making the changes that a comparison finds leads to a definition that may stay.

* `alterAll?_newLabels`: inserting the new labels gives the declared labels in their order.
* `alterTables_of_compareTables`: a table gets the declared columns, constraints and comment.
-/

set_option autoImplicit false

namespace SchemaPlan.Change

/-! ## Enum types -/

/-- Live labels that can be taken from the declared ones in order are some of them. -/
theorem sublist_of_unmatchedLabels {declared live : List String}
    (h : unmatchedLabels declared live = []) : live.Sublist declared := by
  fun_induction unmatchedLabels declared live with
  | case1 => exact List.nil_sublist _
  | case2 => rw [h]
  | case3 declared label live ih => exact (ih h).cons_cons label
  | case4 label declared first live _ ih => exact (ih h).cons label

/-- Where a new label goes. -/
def labelPlace (live : List String) (previous : Option String) : LabelPosition :=
  match previous, live with
  | some other, _ => .after other
  | none, first :: _ => .before first
  | none, [] => .last

theorem newLabels_of_mem {live rest : List String} {label : String} (h : label ∈ live)
    (previous : Option String) :
    newLabels live previous (label :: rest) = newLabels live (some label) rest := by
  rw [newLabels.eq_def]
  exact if_pos (List.contains_iff_mem.2 h)

theorem newLabels_of_not_mem {live rest : List String} {label : String} (h : label ∉ live)
    (previous : Option String) :
    newLabels live previous (label :: rest) =
      .addEnumLabel label (labelPlace live previous) :: newLabels live (some label) rest := by
  rw [newLabels.eq_def]
  refine (if_neg fun hmem => h (List.contains_iff_mem.1 hmem)).trans ?_
  cases previous <;> cases live <;> rfl

theorem idxOf?_middle {label : String} {front back : List String} (h : label ∉ front) :
    (front ++ label :: back).idxOf? label = some front.length := by
  refine List.idxOf?_eq_some_iff.2 ⟨by simp, by simp, fun j hj heq => h ?_⟩
  rw [List.getElem_append_left hj] at heq
  rw [← heq]
  exact List.getElem_mem hj

theorem insertIdx_append_length (label : String) (front back : List String) :
    (front ++ back).insertIdx front.length label = front ++ label :: back := by
  induction front with
  | nil => rfl
  | cons first rest ih =>
    rw [List.cons_append, List.length_cons, List.insertIdx_succ_cons, ih]
    rfl

/-- A new label goes behind those that are already in place. -/
theorem insertLabel?_labelPlace {label : String} {live front back : List String}
    (hnodup : front.Nodup) (hfirst : front = [] → back = live) :
    insertLabel? label (labelPlace live front.getLast?) (front ++ back) =
      some (front ++ label :: back) := by
  rcases List.eq_nil_or_concat front with rfl | ⟨placed, last, rfl⟩
  · rw [hfirst rfl]
    cases live with
    | nil => rfl
    | cons first rest => simp [insertLabel?, labelPlace, List.idxOf?_cons]
  · rw [List.concat_eq_append] at hnodup ⊢
    have hlast : last ∉ placed := fun hmem =>
      (List.nodup_append.1 hnodup).2.2 last hmem last List.mem_cons_self rfl
    have hplace : (placed ++ [last] ++ back).idxOf? last = some placed.length := by
      rw [List.append_assoc]
      exact idxOf?_middle hlast
    have hinsert := insertIdx_append_length label (placed ++ [last]) back
    rw [List.length_append, List.length_singleton] at hinsert
    rw [List.getLast?_concat]
    simp only [insertLabel?, labelPlace, hplace, Option.map_some, hinsert]

/-- **Inserting the new labels gives the declared ones.**  `front` holds the declared labels that
are in place already, `rest` those that follow, and `back` the live ones among these. -/
theorem alterAll?_newLabels {name : String} {live : List String} (rest : List String) :
    ∀ {front back : List String}, (front ++ rest).Nodup → back.Sublist rest →
      (∀ label ∈ rest, label ∈ live ↔ label ∈ back) → (front = [] → back = live) →
      alterAll? (newLabels live front.getLast? rest) (.enum ⟨name, front ++ back⟩) =
        some (.enum ⟨name, front ++ rest⟩) := by
  induction rest with
  | nil =>
    intro front back _ hback _ _
    rw [List.sublist_nil.1 hback, newLabels]
    rfl
  | cons label rest ih =>
    intro front back hnodup hback hlive hfirst
    have hfresh : label ∉ rest := (List.nodup_cons.1 (List.nodup_append.1 hnodup).2.1).1
    have hnext : ((front ++ [label]) ++ rest).Nodup := by
      rw [List.append_assoc]
      exact hnodup
    have hne : front ++ [label] = [] → ∀ xs : List String, xs = live := fun h => by simp at h
    have hgoal : front ++ label :: rest = (front ++ [label]) ++ rest := List.append_cons ..
    by_cases hmem : label ∈ live
    · -- A live label is the next one of those that are left.
      obtain ⟨others, rfl, hothers⟩ : ∃ others, back = label :: others ∧ others.Sublist rest := by
        rcases List.sublist_cons_iff.1 hback with hsub | hsub
        · exact absurd (hsub.subset ((hlive label List.mem_cons_self).1 hmem)) hfresh
        · exact hsub
      have hstep := ih hnext hothers (fun other hother => by
        have hne : other ≠ label := fun heq => hfresh (heq ▸ hother)
        rw [hlive other (List.mem_cons_of_mem _ hother), List.mem_cons, or_iff_right hne])
        (fun h => hne h others)
      rw [newLabels_of_mem hmem, hgoal, List.append_cons, ← hstep, List.getLast?_concat]
    · have hback : back.Sublist rest := by
        rcases List.sublist_cons_iff.1 hback with hsub | ⟨others, rfl, -⟩
        · exact hsub
        · exact absurd ((hlive label List.mem_cons_self).2 List.mem_cons_self) hmem
      have hstep := ih hnext hback
        (fun other hother => hlive other (List.mem_cons_of_mem _ hother)) (fun h => hne h back)
      rw [List.getLast?_concat, ← hgoal] at hstep
      rw [newLabels_of_not_mem hmem, alterAll?, List.foldlM_cons, alterObject?,
        insertLabel?_labelPlace (List.nodup_append.1 hnodup).1 hfirst, ← hstep, List.append_assoc]
      rfl

/-- **A changed enum type is the declared one.** -/
theorem alterAll?_of_compareEnums {declared live : EnumType} {change : Option Update}
    (hname : live.name = declared.name) (hnodup : declared.labels.Nodup)
    (h : compareEnums declared live = .ok change) :
    change = Update.ofChanges [] (newLabels live.labels none declared.labels) ∧
      alterAll? (newLabels live.labels none declared.labels) (.enum live) =
        some (.enum declared) := by
  rw [compareEnums] at h
  split at h
  · cases h
  · rename_i hmatched
    cases h
    rw [Bool.not_eq_true, Bool.not_eq_false', List.isEmpty_iff] at hmatched
    have hsub := sublist_of_unmatchedLabels hmatched
    refine ⟨rfl, ?_⟩
    cases live with
    | mk name labels =>
      cases hname
      have hall : alterAll? (newLabels labels ([] : List String).getLast? declared.labels)
          (.enum ⟨declared.name, [] ++ labels⟩) =
            some (.enum ⟨declared.name, [] ++ declared.labels⟩) :=
        alterAll?_newLabels declared.labels hnodup hsub (fun _ _ => Iff.rfl) (fun _ => rfl)
      exact hall

/-! ## Columns -/

/-- A table after a list of changes; none when one of them does not fit. -/
def alterTables? (changes : List AlterChange) (table : Table) : Option Table :=
  changes.foldlM alterTable? table

theorem alterAll?_table (changes : List AlterChange) (table : Table) :
    alterAll? changes (.table table) = (alterTables? changes table).map .table := by
  induction changes generalizing table with
  | nil => rfl
  | cons change changes ih =>
    rw [alterAll?, alterTables?, List.foldlM_cons, List.foldlM_cons]
    simp only [alterObject?]
    cases alterTable? table change with
    | none => rfl
    | some next => exact ih next

theorem alterTables?_append (first second : List AlterChange) (table : Table) :
    alterTables? (first ++ second) table = (alterTables? first table).bind (alterTables? second) :=
  List.foldlM_append

theorem alterTables?_cons (change : AlterChange) (changes : List AlterChange) (table : Table) :
    alterTables? (change :: changes) table =
      (alterTable? table change).bind (alterTables? changes) :=
  List.foldlM_cons

/-- A table that differs from another one only in that a column of a name is a given one. -/
structure Sets (table changed : Table) (column : Column) : Prop where
  others : changed = { table with columns := changed.columns }
  found : changed.column? column.name = some column
  kept : ∀ name, name ≠ column.name → changed.column? name = table.column? name
  nodup : (table.columns.map Column.name).Nodup → (changed.columns.map Column.name).Nodup

theorem sets_self {table : Table} {column : Column}
    (h : table.column? column.name = some column) : Sets table table column :=
  ⟨rfl, h, fun _ _ => rfl, fun hnodup => hnodup⟩

theorem Sets.trans {first second third : Table} {column column' : Column}
    (h : Sets first second column) (h' : Sets second third column')
    (hname : column'.name = column.name) : Sets first third column' where
  others := by
    rw [h'.others, h.others]
  found := h'.found
  kept name hne := by rw [h'.kept name hne, h.kept name (hname ▸ hne)]
  nodup hnodup := h'.nodup (h.nodup hnodup)

theorem map_name_updateFirst {name : String} {f : Column → Column}
    (hf : ∀ column, (f column).name = column.name) (columns : List Column) :
    (Table.updateFirst name f columns).map Column.name = columns.map Column.name := by
  induction columns with
  | nil => rfl
  | cons column rest ih =>
    rw [Table.updateFirst]
    split
    · rw [List.map_cons, List.map_cons, hf]
    · rw [List.map_cons, List.map_cons, ih]

theorem find?_updateFirst {name : String} {f : Column → Column}
    (hf : ∀ column, (f column).name = column.name) (columns : List Column) (other : String) :
    (Table.updateFirst name f columns).find? (fun column => column.name == other) =
      if other = name then (columns.find? fun column => column.name == name).map f
      else columns.find? fun column => column.name == other := by
  induction columns with
  | nil => simp [Table.updateFirst]
  | cons column rest ih =>
    rw [Table.updateFirst]
    by_cases hname : column.name = name
    · rw [if_pos hname]
      by_cases hother : other = name
      · rw [if_pos hother, List.find?_cons_of_pos (by rw [hf, hname, hother, beq_iff_eq]),
          List.find?_cons_of_pos (by rw [hname, beq_iff_eq])]
        rfl
      · have hne : (column.name == other) = false := by
          rw [beq_eq_false_iff_ne, hname]
          exact Ne.symm hother
        simp only [if_neg hother, List.find?_cons, hf, hne]
    · rw [if_neg hname, List.find?_cons, ih]
      by_cases hother : other = name
      · have hne : (column.name == name) = false := beq_eq_false_iff_ne.2 hname
        rw [hother, if_pos rfl, List.find?_cons, hne]
        simp only [if_true]
      · rw [if_neg hother, if_neg hother, List.find?_cons]

/-- Changing a column in place sets it. -/
theorem sets_updateColumn? {table : Table} {name : String} {existing : Column}
    {f : Column → Column} (hf : ∀ column, (f column).name = column.name)
    (h : table.column? name = some existing) :
    ∃ changed, table.updateColumn? name f = some changed ∧ Sets table changed (f existing) := by
  have hname : existing.name = name := by simpa using List.find?_some h
  refine ⟨{ table with columns := Table.updateFirst name f table.columns }, ?_, rfl, ?_, ?_, ?_⟩
  · rw [Table.updateColumn?, h]
    rfl
  · rw [hf, hname, Table.column?, find?_updateFirst hf, if_pos rfl]
    exact congrArg (Option.map f) h
  · intro other hother
    rw [hf, hname] at hother
    rw [Table.column?, find?_updateFirst hf, if_neg hother]
    rfl
  · intro hnodup
    rw [map_name_updateFirst hf]
    exact hnodup

/-- A change that may be left out sets a column. -/
theorem sets_optional (p : Prop) [Decidable p] (change : AlterChange) (f : Column → Column)
    {table : Table} {existing : Column} (hf : ∀ column, (f column).name = column.name)
    (hchange : ∀ table : Table, alterTable? table change = table.updateColumn? existing.name f)
    (h : table.column? existing.name = some existing) :
    ∃ changed column, alterTables? (if p then [] else [change]) table = some changed ∧
      Sets table changed column ∧ column = if p then existing else f existing := by
  split
  · exact ⟨table, existing, rfl, sets_self h, rfl⟩
  · obtain ⟨changed, hchanged, hsets⟩ := sets_updateColumn? hf h
    refine ⟨changed, f existing, ?_, hsets, rfl⟩
    rw [alterTables?_cons, hchange, hchanged]
    rfl

theorem compareTypes_eq {options : DiffOptions} {declared live : Column}
    {changes : List AlterChange} (h : compareTypes options declared live = .ok changes) :
    changes = if declared.type = live.type then []
      else [.alterColumnType declared.name live.type declared.type] := by
  rw [compareTypes] at h
  split at h
  · rename_i heq
    cases h
    rw [if_pos heq]
  · rename_i hne
    split at h
    · cases h
      rw [if_neg hne]
    · cases h

/-- Null is the same as no default. -/
theorem canonicalSql?_settableDefault (default : Option DefaultValue) :
    DefaultValue.canonicalSql? (settableDefault default) = DefaultValue.canonicalSql? default := by
  have hcanonical : Expression.canonical "NULL" = "null" := by decide +kernel
  have hnull : DefaultValue.canonicalSql? (some .null) = none := by
    rw [DefaultValue.canonicalSql?, Option.map_some, DefaultValue.sql, hcanonical]
    rfl
  cases default with
  | none => rfl
  | some value =>
    by_cases hvalue : value = .null
    · rw [hvalue, hnull]
      rfl
    · rw [settableDefault, Option.filter_some, if_pos (bne_iff_ne.2 hvalue)]

/-- The changes of a column make it agree. -/
theorem sets_of_compareColumns {options : DiffOptions} {table : Table} {declared live : Column}
    {changes : List AlterChange} (h : compareColumns options declared live = .ok changes)
    (hname : live.name = declared.name) (hfound : table.column? live.name = some live) :
    ∃ changed column, alterTables? changes table = some changed ∧ Sets table changed column ∧
      column.name = declared.name ∧ declared.Agrees column := by
  obtain ⟨types, htypes, h⟩ := Outcome.bind_eq_ok_iff.1 h
  cases h
  rw [compareTypes_eq htypes]
  obtain ⟨t₁, c₁, hrun₁, hsets₁, hc₁⟩ := sets_optional (declared.type = live.type)
    (.alterColumnType declared.name live.type declared.type)
    (fun column => { column with type := declared.type }) (fun _ => rfl)
    (fun _ => by rw [hname]; rfl) hfound
  have hname₁ : c₁.name = declared.name := by
    rw [hc₁]
    split <;> exact hname
  obtain ⟨t₂, c₂, hrun₂, hsets₂, hc₂⟩ := sets_optional (declared.nullable = live.nullable)
    (.setNullable declared.name declared.nullable)
    (fun column => { column with nullable := declared.nullable }) (fun _ => rfl)
    (fun _ => by rw [hname₁]; rfl) hsets₁.found
  have hname₂ : c₂.name = declared.name := by
    rw [hc₂]
    split <;> exact hname₁
  obtain ⟨t₃, c₃, hrun₃, hsets₃, hc₃⟩ := sets_optional
    (DefaultValue.canonicalSql? declared.default = DefaultValue.canonicalSql? live.default)
    (.setDefault declared.name (settableDefault declared.default))
    (fun column => { column with default := settableDefault declared.default }) (fun _ => rfl)
    (fun _ => by rw [hname₂]; rfl) hsets₂.found
  have hname₃ : c₃.name = declared.name := by
    rw [hc₃]
    split <;> exact hname₂
  obtain ⟨t₄, c₄, hrun₄, hsets₄, hc₄⟩ := sets_optional (declared.comment = live.comment)
    (.setColumnComment declared.name declared.comment)
    (fun column => { column with comment := declared.comment }) (fun _ => rfl)
    (fun _ => by rw [hname₃]; rfl) hsets₃.found
  have hname₄ : c₄.name = declared.name := by
    rw [hc₄]
    split <;> exact hname₃
  refine ⟨t₄, c₄, ?_, ?_, hname₄, ?_⟩
  · rw [alterTables?_append, alterTables?_append, alterTables?_append, hrun₁, Option.bind_some,
      hrun₂, Option.bind_some, hrun₃, Option.bind_some, hrun₄]
  · have hsets₁₂ := hsets₁.trans hsets₂ (hname₂.trans hname₁.symm)
    have hsets₁₃ := hsets₁₂.trans hsets₃ (hname₃.trans hname₂.symm)
    exact hsets₁₃.trans hsets₄ (hname₄.trans hname₃.symm)
  · subst hc₄ hc₃ hc₂ hc₁
    constructor
    case type => split_ifs <;> first | rfl | assumption
    case nullable => split_ifs <;> first | rfl | assumption
    case default =>
      split_ifs <;> first | assumption | exact (canonicalSql?_settableDefault _).symm
    case comment => split_ifs <;> first | rfl | assumption

theorem sets_addColumn {table : Table} {column : Column} (h : table.column? column.name = none) :
    Sets table { table with columns := table.columns ++ [column] } column where
  others := rfl
  found := by
    rw [Table.column?, List.find?_append]
    change (table.column? column.name).or _ = _
    rw [h]
    simp
  kept name hname := by
    have hne : (column.name == name) = false := beq_eq_false_iff_ne.2 (Ne.symm hname)
    rw [Table.column?, List.find?_append, List.find?_singleton, hne]
    exact Option.or_none
  nodup hnodup := by
    have hfresh : column.name ∉ table.columns.map Column.name := by
      rw [← Table.column?_isSome_iff, h]
      exact Bool.false_ne_true
    rw [List.map_append, List.map_singleton, List.nodup_append]
    refine ⟨hnodup, List.nodup_singleton _, fun a ha b hb heq => ?_⟩
    rw [List.mem_singleton.1 hb] at heq
    exact hfresh (heq ▸ ha)

/-- A declared column comes, or the live one is made to agree. -/
theorem sets_of_compareColumn {options : DiffOptions} {table live : Table} {column : Column}
    {changes : List AlterChange} (h : compareColumn options live column = .ok changes)
    (hsame : table.column? column.name = live.column? column.name) :
    ∃ changed existing, alterTables? changes table = some changed ∧ Sets table changed existing ∧
      existing.name = column.name ∧ column.Agrees existing := by
  rw [compareColumn] at h
  split at h
  · rename_i hnone
    cases h
    rw [hnone] at hsame
    exact ⟨_, column, rfl, sets_addColumn hsame, rfl, rfl, rfl, rfl, rfl⟩
  · rename_i existing hexisting
    have hname : existing.name = column.name := by simpa using List.find?_some hexisting
    refine sets_of_compareColumns h hname ?_
    rw [hname, hsame, hexisting]

/-- **The changes of all declared columns make them agree** and leave other columns alone. -/
theorem alterTables?_columns {options : DiffOptions} {live : Table} {columns : List Column}
    {changes : List (List AlterChange)}
    (h : List.Forall₂ (fun column cs => compareColumn options live column = .ok cs) columns changes)
    (hnodup : (columns.map Column.name).Nodup) :
    ∀ {table : Table}, (table.columns.map Column.name).Nodup →
      (∀ column ∈ columns, table.column? column.name = live.column? column.name) →
      ∃ changed, alterTables? changes.flatten table = some changed ∧
        changed = { table with columns := changed.columns } ∧
        (changed.columns.map Column.name).Nodup ∧
        (∀ column ∈ columns, ∃ existing : Column,
          changed.column? column.name = some existing ∧ column.Agrees existing) ∧
        ∀ name, name ∉ columns.map Column.name → changed.column? name = table.column? name := by
  induction h with
  | nil =>
    intro table htable _
    exact ⟨table, rfl, rfl, htable, fun _ hc => absurd hc List.not_mem_nil, fun _ _ => rfl⟩
  | @cons column cs columns changes hcompare _ ih =>
    intro table htable hsame
    rw [List.map_cons, List.nodup_cons] at hnodup
    obtain ⟨hfresh, hrest⟩ := hnodup
    obtain ⟨next, existing, hrun, hsets, hname, hagrees⟩ :=
      sets_of_compareColumn hcompare (hsame column List.mem_cons_self)
    obtain ⟨changed, hruns, hothers, hchanged, hcolumns, hkept⟩ :=
      ih hrest (hsets.nodup htable) fun other hother => by
        have hne : other.name ≠ existing.name := by
          rw [hname]
          exact fun heq => hfresh (heq ▸ List.mem_map_of_mem hother)
        rw [hsets.kept other.name hne]
        exact hsame other (List.mem_cons_of_mem _ hother)
    refine ⟨changed, ?_, ?_, hchanged, fun other hother => ?_, fun name hmem => ?_⟩
    · rw [List.flatten_cons, alterTables?_append, hrun]
      exact hruns
    · rw [hothers, hsets.others]
    · rcases List.mem_cons.1 hother with rfl | hother
      · refine ⟨existing, ?_, hagrees⟩
        rw [hkept other.name hfresh, ← hname]
        exact hsets.found
      · exact hcolumns other hother
    · rw [List.map_cons, List.mem_cons, not_or] at hmem
      rw [hkept name hmem.2, hsets.kept name (hname ▸ hmem.1)]

/-! ## Tables -/

theorem alterTables?_dropConstraints (gone : List Constraint) (table : Table) :
    alterTables? (gone.map .dropConstraint) table =
      some { table with
        constraints := table.constraints.filter fun c => !gone.any fun g => g.name == c.name } := by
  induction gone generalizing table with
  | nil =>
    have hall : table.constraints.filter (fun c => !([] : List Constraint).any fun g =>
        g.name == c.name) = table.constraints := List.filter_eq_self.2 fun _ _ => rfl
    rw [hall]
    rfl
  | cons first rest ih =>
    rw [List.map_cons, alterTables?_cons, alterTable?, Option.bind_some, ih, List.filter_filter]
    congr 3
    funext c
    rw [List.any_cons, Bool.not_or, Bool.and_comm, BEq.comm]
    rfl

theorem alterTables?_addConstraints (constraints : List Constraint) (table : Table) :
    alterTables? (constraints.map .addConstraint) table =
      some { table with constraints := table.constraints ++ constraints } := by
  induction constraints generalizing table with
  | nil =>
    rw [List.append_nil]
    rfl
  | cons first rest ih =>
    rw [List.map_cons, alterTables?_cons, alterTable?, Option.bind_some, ih, Table.addConstraint,
      List.append_assoc]
    rfl

theorem eraseP_eq_filter {name : String} {columns : List Column}
    (h : (columns.map Column.name).Nodup) :
    columns.eraseP (fun c => c.name == name) = columns.filter fun c => c.name != name := by
  induction columns with
  | nil => rfl
  | cons column rest ih =>
    rw [List.map_cons, List.nodup_cons] at h
    rw [List.eraseP_cons, List.filter_cons, bne]
    by_cases hname : column.name = name
    · rw [beq_iff_eq.2 hname]
      refine (List.filter_eq_self.2 fun c hc => bne_iff_ne.2 fun heq => h.1 ?_).symm
      rw [hname, ← heq]
      exact List.mem_map_of_mem hc
    · rw [beq_eq_false_iff_ne.2 hname, ih h.2]
      rfl

theorem alterTables?_dropColumns {dropped : List Column}
    (hdropped : (dropped.map Column.name).Nodup) :
    ∀ {table : Table}, (table.columns.map Column.name).Nodup →
      (∀ column ∈ dropped, column.name ∈ table.columns.map Column.name) →
      alterTables? (dropped.map .dropColumn) table =
        some { table with
          columns := table.columns.filter fun c => !dropped.any fun d => d.name == c.name } := by
  induction dropped with
  | nil =>
    intro table _ _
    have hall : table.columns.filter (fun c => !([] : List Column).any fun d =>
        d.name == c.name) = table.columns := List.filter_eq_self.2 fun _ _ => rfl
    rw [hall]
    rfl
  | cons first rest ih =>
    intro table htable hmem
    rw [List.map_cons, List.nodup_cons] at hdropped
    have hfound : (table.column? first.name).isNone = false := by
      rw [Option.isNone_eq_false_iff, Table.column?_isSome_iff]
      exact hmem first List.mem_cons_self
    have hsub : ((table.columns.filter fun c => c.name != first.name).map Column.name).Nodup :=
      (List.filter_sublist.map Column.name).nodup htable
    rw [List.map_cons, alterTables?_cons, alterTable?, hfound, eraseP_eq_filter htable]
    simp only [Bool.false_eq_true, if_false, Option.bind_some]
    rw [ih hdropped.2 hsub fun column hcolumn => ?_, List.filter_filter]
    · congr 3
      funext c
      rw [List.any_cons, Bool.not_or, Bool.and_comm, BEq.comm]
      rfl
    · obtain ⟨found, hfound, hname⟩ :=
        List.mem_map.1 (hmem column (List.mem_cons_of_mem _ hcolumn))
      refine List.mem_map.2 ⟨found, List.mem_filter.2 ⟨hfound, bne_iff_ne.2 fun heq => ?_⟩, hname⟩
      refine hdropped.1 ?_
      rw [← heq, hname]
      exact List.mem_map_of_mem hcolumn

theorem mem_constraintsNotIn_iff {table other : Table} {c : Constraint} :
    c ∈ constraintsNotIn table other ↔
      c ∈ table.constraints ∧ ¬∃ c' ∈ other.constraints, c'.canonical = c.canonical := by
  rw [constraintsNotIn, List.mem_filter, Bool.not_eq_true', ← Bool.not_eq_true, List.any_eq_true]
  simp only [beq_iff_eq]

theorem mem_columnsNotIn_iff {table other : Table} {column : Column} :
    column ∈ columnsNotIn table other ↔
      column ∈ table.columns ∧ (other.column? column.name).isSome = false := by
  rw [columnsNotIn, List.mem_filter, Option.isSome_eq_false_iff]

/-- What a live table becomes on its way to a declared one. -/
structure Reaches (declared live result : Table) : Prop where
  agrees : declared.Agrees result
  name : result.name = live.name
  nodup : (result.columns.map Column.name).Nodup
  constraints : ∀ c ∈ result.constraints, c ∈ live.constraints ∨ c ∈ declared.constraints
  indexes : result.indexes = live.indexes
  triggers : result.triggers = live.triggers

/-- The table after the removals: its declared columns and the constraints with declared forms. -/
theorem alterTables?_removals (declared : Table) {live : Table}
    (hlive : (live.columns.map Column.name).Nodup)
    (hnames : (live.constraints.map Constraint.name).Nodup) :
    ∃ between, alterTables? ((constraintsNotIn live declared).map .dropConstraint ++
        (columnsNotIn live declared).map .dropColumn) live = some between ∧
      between = { live with columns := between.columns, constraints := between.constraints } ∧
      (∀ column, column ∈ between.columns ↔
        column ∈ live.columns ∧ (declared.column? column.name).isSome = true) ∧
      (between.columns.map Column.name).Nodup ∧
      ∀ c, c ∈ between.constraints ↔
        c ∈ live.constraints ∧ ∃ c' ∈ declared.constraints, c'.canonical = c.canonical := by
  have hdropped : ((columnsNotIn live declared).map Column.name).Nodup :=
    (List.filter_sublist.map Column.name).nodup hlive
  have hmem : ∀ column ∈ columnsNotIn live declared, column.name ∈ live.columns.map Column.name :=
    fun column hcolumn => List.mem_map_of_mem (mem_columnsNotIn_iff.1 hcolumn).1
  refine ⟨{
    live with
    columns := live.columns.filter fun c =>
      !(columnsNotIn live declared).any fun d => d.name == c.name
    constraints := live.constraints.filter fun c =>
      !(constraintsNotIn live declared).any fun g => g.name == c.name },
    ?_, rfl, fun column => ?_, ?_, fun c => ?_⟩
  · rw [alterTables?_append, alterTables?_dropConstraints, Option.bind_some]
    exact alterTables?_dropColumns hdropped hlive hmem
  · simp only [List.mem_filter, Bool.not_eq_true', List.any_eq_false, beq_iff_eq]
    refine and_congr_right fun hcolumn => ?_
    constructor
    · intro hkept
      rw [← Bool.not_eq_false]
      intro hgone
      exact hkept column (mem_columnsNotIn_iff.2 ⟨hcolumn, hgone⟩) rfl
    · intro hdeclared dropped hdropped heq
      have hgone := (mem_columnsNotIn_iff.1 hdropped).2
      rw [heq, hdeclared] at hgone
      cases hgone
  · exact (List.filter_sublist.map Column.name).nodup hlive
  · simp only [List.mem_filter, Bool.not_eq_true', List.any_eq_false, beq_iff_eq]
    refine and_congr_right fun hc => ?_
    constructor
    · intro hkept
      refine Classical.byContradiction fun hno => ?_
      exact hkept c (mem_constraintsNotIn_iff.2 ⟨hc, hno⟩) rfl
    · intro hdeclared gone hgone heq
      obtain ⟨hgone, hno⟩ := mem_constraintsNotIn_iff.1 hgone
      rw [List.inj_on_of_nodup_map hnames hgone hc heq] at hno
      exact hno hdeclared

/-- The removals leave the declared columns as they are. -/
theorem column?_eq_of_kept {declared live between : Table}
    (hlive : (live.columns.map Column.name).Nodup)
    (hnodup : (between.columns.map Column.name).Nodup)
    (hkept : ∀ column, column ∈ between.columns ↔
      column ∈ live.columns ∧ (declared.column? column.name).isSome = true)
    {column : Column} (hcolumn : column ∈ declared.columns) :
    between.column? column.name = live.column? column.name := by
  refine Option.ext fun existing => ?_
  rw [Table.column?_eq_some_iff hnodup, Table.column?_eq_some_iff hlive, hkept, and_assoc]
  refine and_congr_right fun _ => and_iff_right_of_imp fun hname => ?_
  rw [hname, Table.column?_isSome_iff]
  exact List.mem_map_of_mem hcolumn

theorem alterTables?_setComment {table : Table} {live : Option String} (declared : Option String)
    (h : table.comment = live) :
    alterTables? (if declared = live then [] else [.setComment declared]) table =
      some { table with comment := declared } := by
  split
  · rename_i heq
    rw [heq, ← h]
    rfl
  · rfl

/-- **Altering a live table as its comparison says makes it agree with the declared one.** -/
theorem alterTables_of_compareTables {options : DiffOptions} {declared live : Table}
    {changes : TableChanges} (hdeclared : (declared.columns.map Column.name).Nodup)
    (hlive : (live.columns.map Column.name).Nodup)
    (hnames : (live.constraints.map Constraint.name).Nodup)
    (h : compareTables options declared live = .ok changes) :
    ∃ between result, alterTables? changes.removals live = some between ∧
      alterTables? changes.additions between = some result ∧ Reaches declared live result := by
  obtain ⟨columns, hcolumns, h⟩ := Outcome.bind_eq_ok_iff.1 h
  cases h
  obtain ⟨between, hremovals, hothers, hkept, hnodup, hconstraints⟩ :=
    alterTables?_removals declared hlive hnames
  obtain ⟨changed, hrun, hchanged, hcolumnsNodup, hagrees, hrest⟩ :=
    alterTables?_columns (Outcome.mapM_eq_ok_iff.1 hcolumns) hdeclared hnodup
      fun column hcolumn => column?_eq_of_kept hlive hnodup hkept hcolumn
  have hchangedConstraints : changed.constraints = between.constraints := by
    rw [hchanged]
  refine ⟨between, {
    changed with
    constraints := changed.constraints ++ constraintsNotIn declared live
    comment := declared.comment }, hremovals, ?_, ?_⟩
  · rw [alterTables?_append, alterTables?_append, hrun, Option.bind_some,
      alterTables?_addConstraints, Option.bind_some]
    refine alterTables?_setComment declared.comment ?_
    rw [hchanged, hothers]
  constructor
  case agrees =>
    refine ⟨rfl, hagrees, fun column hcolumn => ?_, fun c hc => ?_, fun c hc => ?_⟩
    · -- A column that is not declared would be one that the removals left.
      rw [← Bool.not_eq_false]
      intro hnone
      have hfresh : column.name ∉ declared.columns.map Column.name := by
        rw [← Table.column?_isSome_iff, hnone]
        exact Bool.false_ne_true
      have hfound := (Table.column?_eq_some_iff hcolumnsNodup).2 ⟨hcolumn, rfl⟩
      rw [hrest column.name hfresh, Table.column?_eq_some_iff hnodup, hkept, hnone] at hfound
      cases hfound.1.2
    · by_cases hlive : ∃ c' ∈ live.constraints, c'.canonical = c.canonical
      · obtain ⟨existing, hexisting, heq⟩ := hlive
        refine ⟨existing, List.mem_append_left _ ?_, heq⟩
        rw [hchangedConstraints]
        exact (hconstraints existing).2 ⟨hexisting, c, hc, heq.symm⟩
      · exact ⟨c, List.mem_append_right _ (mem_constraintsNotIn_iff.2 ⟨hc, hlive⟩), rfl⟩
    · rcases List.mem_append.1 hc with hc | hc
      · rw [hchangedConstraints] at hc
        exact ((hconstraints c).1 hc).2
      · exact ⟨c, (mem_constraintsNotIn_iff.1 hc).1, rfl⟩
  case name =>
    rw [hchanged, hothers]
  case nodup => exact hcolumnsNodup
  case constraints =>
    intro c hc
    rcases List.mem_append.1 hc with hc | hc
    · rw [hchangedConstraints] at hc
      exact .inl ((hconstraints c).1 hc).1
    · exact .inr (mem_constraintsNotIn_iff.1 hc).1
  case indexes =>
    rw [hchanged, hothers]
  case triggers =>
    rw [hchanged, hothers]

end SchemaPlan.Change
