import SchemaPlan.Proofs.Change.Renaming
import SchemaPlan.Proofs.Change.RenamesFirst
import SchemaPlan.Change.Apply

/-!
# Confirmed renames replay

The comparison works on a copy of the live schema that has been renamed and has no ignored
extensions.  The operations that rename lead from the live schema itself to that copy.

* `IsRename` says which operations these are, and `Replays` that they lead to the renamed objects,
* `foldlM_run_of_kept`: renames run on the whole schema as they run without ignored extensions,
* `diff_replays`: the renames stand first in a change set, in the order of the hints, and running
  them leads to the schema that the rest was planned for.
-/

set_option autoImplicit false

namespace SchemaPlan

/-- The operation of a hint for an object. -/
def RenameHint.operation (hint : RenameHint) : Operation :=
  .rename hint.sourceId hint.targetId

/-- The operation of a hint for a column. -/
def ColumnRenameHint.operation (hint : ColumnRenameHint) : Operation :=
  .alter (.table hint.table) [.renameColumn hint.source hint.target]

/-- The operations of all hints: of those for objects, then of those for columns. -/
def DiffOptions.hintOperations (options : DiffOptions) : List Operation :=
  options.renames.map RenameHint.operation ++ options.columnRenames.map ColumnRenameHint.operation

namespace Change

open Registration (kept)

/-! ## Operations that rename -/

/-- An operation that carries out a confirmed rename. -/
inductive IsRename : Operation → Prop
  | object {source target : ObjectId} (hkind : target.kind = source.kind) :
      IsRename (.rename source target)
  | column (table source target : String) :
      IsRename (.alter (.table table) [.renameColumn source target])

theorem IsRename.renames {operation : Operation} (h : IsRename operation) :
    operation.renames = true := by
  cases h <;> rfl

theorem isRename_hint (hint : RenameHint) : IsRename hint.operation :=
  .object rfl

theorem isRename_columnHint (hint : ColumnRenameHint) : IsRename hint.operation :=
  .column _ _ _

theorem run_renameColumn (objects : List SchemaObject) (table source target : String) :
    run objects (.alter (.table table) [.renameColumn source target]) =
      renameColumn objects table source target := by
  rw [run, List.foldlM_cons]
  exact bind_pure _

section Kept

variable {options : DiffOptions} {objects renamed : List SchemaObject}

/-- A rename runs on the whole schema as it runs without ignored extensions. -/
theorem run_of_kept {operation : Operation} (hop : IsRename operation)
    (h : run (kept options objects) operation = .ok renamed) :
    ∃ all, run objects operation = .ok all ∧ kept options all = renamed ∧
      all.filter options.ignores = objects.filter options.ignores := by
  cases hop with
  | object hkind => exact renameObject_of_kept hkind h
  | column table source target =>
    rw [run_renameColumn] at h ⊢
    exact renameColumn_of_kept h

/-- **Renames run on the whole schema as they run without ignored extensions.** -/
theorem foldlM_run_of_kept {operations : List Operation}
    (hops : ∀ operation ∈ operations, IsRename operation)
    (h : operations.foldlM run (kept options objects) = .ok renamed) :
    ∃ all, operations.foldlM run objects = .ok all ∧ kept options all = renamed ∧
      all.filter options.ignores = objects.filter options.ignores := by
  induction operations generalizing objects with
  | nil =>
    cases h
    exact ⟨objects, rfl, rfl, rfl⟩
  | cons operation operations ih =>
    obtain ⟨hop, hops⟩ := List.forall_mem_cons.1 hops
    rw [List.foldlM_cons] at h
    obtain ⟨first, hfirst, h⟩ := Outcome.bind_eq_ok_iff.1 h
    obtain ⟨middle, hmiddle, rfl, hsame⟩ := run_of_kept hop hfirst
    obtain ⟨all, hall, hkept, hignored⟩ := ih hops h
    refine ⟨all, ?_, hkept, hignored.trans hsame⟩
    rw [List.foldlM_cons]
    exact Outcome.bind_eq_ok_iff.2 ⟨middle, hmiddle, hall⟩

end Kept

/-! ## Hints -/

/-- Renamed objects are what their operations lead to. -/
structure Replays (start : List SchemaObject) (renamed : Renamed) : Prop where
  run : renamed.operations.foldlM run start = .ok renamed.objects
  renames : ∀ operation ∈ renamed.operations, IsRename operation

section Hints

variable {declared : SchemaGraph} {start : List SchemaObject} {renamed renamed' : Renamed}

theorem Replays.append (h : Replays start renamed) {operation : Operation}
    {objects : List SchemaObject} (hop : IsRename operation)
    (hrun : Change.run renamed.objects operation = .ok objects) :
    Replays start ⟨objects, renamed.operations ++ [operation]⟩ where
  run := by
    rw [List.foldlM_append, h.run]
    change List.foldlM Change.run renamed.objects [operation] = _
    rw [List.foldlM_cons, hrun]
    rfl
  renames := by
    intro other hother
    rcases List.mem_append.1 hother with hother | hother
    · exact h.renames other hother
    · exact List.mem_singleton.1 hother ▸ hop

theorem applyHint_eq_ok {hint : RenameHint} (h : applyHint declared renamed hint = .ok renamed') :
    ∃ objects, run renamed.objects (hint.operation) = .ok objects ∧
      renamed' = ⟨objects, renamed.operations ++ [hint.operation]⟩ := by
  rw [applyHint] at h
  split at h
  · cases h
  · obtain ⟨objects, hobjects, h⟩ := Outcome.bind_eq_ok_iff.1 h
    cases h
    exact ⟨objects, hobjects, rfl⟩

theorem applyColumnHint_eq_ok {hint : ColumnRenameHint}
    (h : applyColumnHint declared renamed hint = .ok renamed') :
    ∃ objects, run renamed.objects hint.operation = .ok objects ∧
      renamed' = ⟨objects, renamed.operations ++ [hint.operation]⟩ := by
  rw [applyColumnHint] at h
  split at h
  · cases h
  · obtain ⟨objects, hobjects, h⟩ := Outcome.bind_eq_ok_iff.1 h
    cases h
    refine ⟨objects, ?_, rfl⟩
    rw [ColumnRenameHint.operation, run_renameColumn]
    exact hobjects

/-- Hints replay, and each of them is an operation. -/
theorem foldlM_hints {α : Type} {apply : Renamed → α → Except SchemaError Renamed}
    {operation : α → Operation} (hop : ∀ hint, IsRename (operation hint))
    (happly : ∀ renamed hint renamed', apply renamed hint = .ok renamed' →
      ∃ objects, run renamed.objects (operation hint) = .ok objects ∧
        renamed' = ⟨objects, renamed.operations ++ [operation hint]⟩)
    {hints : List α} (h : Replays start renamed)
    (hfold : hints.foldlM apply renamed = .ok renamed') :
    Replays start renamed' ∧ renamed'.operations = renamed.operations ++ hints.map operation := by
  induction hints generalizing renamed with
  | nil =>
    cases hfold
    exact ⟨h, (List.append_nil _).symm⟩
  | cons hint hints ih =>
    rw [List.foldlM_cons] at hfold
    obtain ⟨middle, hmiddle, hfold⟩ := Outcome.bind_eq_ok_iff.1 hfold
    obtain ⟨objects, hrun, rfl⟩ := happly _ _ _ hmiddle
    obtain ⟨hreplays, hoperations⟩ := ih (h.append (hop hint) hrun) hfold
    exact ⟨hreplays, by rw [hoperations, List.append_assoc]; rfl⟩

/-- An operation that gives a constraint or index its computed name, which is declared. -/
def Refreshes (declared : SchemaGraph) (operation : Operation) : Prop :=
  ∃ object slot names, namesAt object slot = some names ∧ names.current ≠ names.computed ∧
    declares declared names.computed = true ∧ operation = .rename names.current names.computed

theorem kind_namesAt {object : SchemaObject} {slot : Option Nat} {names : NamePair}
    (h : namesAt object slot = some names) : names.computed.kind = names.current.kind := by
  unfold namesAt at h
  split at h
  · obtain ⟨constraint, -, rfl⟩ := Option.map_eq_some_iff.1 h
    rfl
  · cases h
    rfl
  · cases h
    rfl
  · cases h

theorem Refreshes.isRename {operation : Operation} (h : Refreshes declared operation) :
    IsRename operation := by
  obtain ⟨object, slot, names, hnames, -, -, rfl⟩ := h
  exact .object (kind_namesAt hnames)

theorem refresh_eq_ok {place : NamePlace} (h : refresh declared renamed place = .ok renamed') :
    renamed' = renamed ∨ ∃ operation objects, Refreshes declared operation ∧
      run renamed.objects operation = .ok objects ∧
      renamed' = ⟨objects, renamed.operations ++ [operation]⟩ := by
  rw [refresh] at h
  split at h
  · cases h
    exact .inl rfl
  · rename_i names hnames
    split at h
    · cases h
      exact .inl rfl
    · rename_i houtdated
      obtain ⟨objects, hobjects, h⟩ := Outcome.bind_eq_ok_iff.1 h
      cases h
      obtain ⟨object, -, hnames⟩ := Option.bind_eq_some_iff.1 hnames
      simp only [Bool.or_eq_true, decide_eq_true_eq, Bool.not_eq_true', not_or,
        Bool.not_eq_false] at houtdated
      exact .inr ⟨_, objects, ⟨object, place.constraint, names, hnames, houtdated.1, houtdated.2,
        rfl⟩, hobjects, rfl⟩

/-- Refreshed names replay. -/
theorem foldlM_refresh_replays {places : List NamePlace} (h : Replays start renamed)
    (hfold : places.foldlM (refresh declared) renamed = .ok renamed') :
    Replays start renamed' ∧ ∃ refreshed, renamed'.operations = renamed.operations ++ refreshed ∧
      ∀ operation ∈ refreshed, Refreshes declared operation := by
  refine Outcome.foldlM_invariant (P := fun r => Replays start r ∧ ∃ refreshed,
    r.operations = renamed.operations ++ refreshed ∧
      ∀ operation ∈ refreshed, Refreshes declared operation) ?_ places hfold
    ⟨h, [], (List.append_nil _).symm, List.forall_mem_nil _⟩
  rintro middle place last ⟨hreplays, refreshed, hoperations, hall⟩ hstep
  rcases refresh_eq_ok hstep with rfl | ⟨operation, objects, hrefreshes, hrun, rfl⟩
  · exact ⟨hreplays, refreshed, hoperations, hall⟩
  · refine ⟨hreplays.append hrefreshes.isRename hrun, refreshed ++ [operation], ?_, ?_⟩
    · rw [hoperations, List.append_assoc]
    · exact List.forall_mem_append.2 ⟨hall, List.forall_mem_singleton.2 hrefreshes⟩

/-- The hints, then the refreshed names, replay. -/
theorem applyHints_replays {live : SchemaGraph} {options : DiffOptions} {renamed : SchemaGraph}
    {renames : List Operation} (h : applyHints live declared options = .ok (renamed, renames)) :
    ∃ refreshed, renames = options.hintOperations ++ refreshed ∧
      (∀ operation ∈ refreshed, Refreshes declared operation) ∧
      (∀ operation ∈ renames, IsRename operation) ∧
      ((renames = [] ∧ renamed = live) ∨ ∃ objects, renames.foldlM run live.objects = .ok objects ∧
        register objects = .ok renamed) := by
  rw [applyHints] at h
  split at h
  · rename_i hnone
    rw [Bool.and_eq_true, List.isEmpty_iff, List.isEmpty_iff] at hnone
    cases h
    refine ⟨[], ?_, List.forall_mem_nil _, List.forall_mem_nil _, .inl ⟨rfl, rfl⟩⟩
    rw [DiffOptions.hintOperations, hnone.1, hnone.2]
    rfl
  · obtain ⟨first, hfirst, h⟩ := Outcome.bind_eq_ok_iff.1 h
    obtain ⟨second, hsecond, h⟩ := Outcome.bind_eq_ok_iff.1 h
    obtain ⟨third, hthird, h⟩ := Outcome.bind_eq_ok_iff.1 h
    obtain ⟨graph, hgraph, h⟩ := Outcome.bind_eq_ok_iff.1 h
    cases h
    have hstart : Replays live.objects ⟨live.objects, []⟩ := ⟨rfl, List.forall_mem_nil _⟩
    obtain ⟨hreplays, hobjects⟩ := foldlM_hints isRename_hint
      (fun _ _ _ => applyHint_eq_ok) hstart hfirst
    obtain ⟨hreplays, hcolumns⟩ := foldlM_hints isRename_columnHint
      (fun _ _ _ => applyColumnHint_eq_ok) hreplays hsecond
    obtain ⟨hreplays, refreshed, hrefreshed, hall⟩ := foldlM_refresh_replays hreplays hthird
    refine ⟨refreshed, ?_, hall, hreplays.renames, .inr ⟨_, hreplays.run, hgraph⟩⟩
    rw [hrefreshed, hcolumns, hobjects]
    rfl

end Hints

/-! ## Change sets -/

/-- What the renames of a change set are, and what they lead to. -/
structure RenamesReplay (options : DiffOptions) (declared live : SchemaGraph) (changes : ChangeSet)
    (renames rest : List Operation) : Prop where
  /-- Renames stand first. -/
  operations : changes.operations = renames ++ rest
  renamesFirst : ∀ operation ∈ renames, operation.renames = true
  othersLast : ∀ operation ∈ rest, operation.renames = false
  /-- They are those of the hints, in order, and then names that are computed again. -/
  hints : ∃ refreshed, renames = options.hintOperations ++ refreshed ∧
    ∀ operation ∈ refreshed, Refreshes (declared.withoutIgnored options) operation
  /-- They lead from the live schema to one that is, but for ignored extensions, the renamed
  schema for which the rest was planned. -/
  replays : ∃ renamed graph,
    applyHints (live.withoutIgnored options) (declared.withoutIgnored options) options =
      .ok (renamed, renames) ∧
    plan options (declared.withoutIgnored options) renamed [] = .ok ⟨rest, changes.candidates⟩ ∧
    applyTo renames live = .ok graph ∧ graph.withoutIgnored options = renamed

section Changes

variable {options : DiffOptions} {declared live : SchemaGraph} {changes : ChangeSet}

/-- **Confirmed renames replay.**  They stand first in a change set, in the order of the hints, and
running them on the live schema leads to the schema that the rest was planned for. -/
theorem diff_replays {sources : List SchemaObject} (hlive : register sources = .ok live)
    (h : diff options declared live = .ok changes) :
    ∃ renames rest, RenamesReplay options declared live changes renames rest := by
  obtain ⟨⟨renamed, renames⟩, happly, hplan⟩ := Outcome.bind_eq_ok_iff.1 h
  obtain ⟨rest, hoperations, hrest⟩ := exists_plan_of_renames hplan
  obtain ⟨refreshed, hhints, hrefreshed, hrenames, hlead⟩ := applyHints_replays happly
  refine ⟨renames, rest, hoperations, fun operation hmem => (hrenames operation hmem).renames,
    not_renames_of_plan hrest, ⟨refreshed, hhints, hrefreshed⟩, ?_⟩
  suffices hreplay : ∃ graph, applyTo renames live = .ok graph ∧
      graph.withoutIgnored options = renamed by
    obtain ⟨graph, happlied, hgraph⟩ := hreplay
    exact ⟨renamed, graph, happly, hrest, happlied, hgraph⟩
  rcases hlead with ⟨rfl, rfl⟩ | ⟨objects, hrun, hregister⟩
  · exact ⟨live, Registration.register_objects hlive (.refl _), rfl⟩
  · have hobjects : (live.withoutIgnored options).objects = kept options live.objects :=
      SchemaGraph.objects_retain _ _
    rw [hobjects] at hrun
    obtain ⟨all, hall, rfl, hignored⟩ := foldlM_run_of_kept hrenames hrun
    have hids : ((all.filter options.ignores).map SchemaObject.id).Nodup := by
      rw [hignored]
      exact Order.Ascending.nodup_keys (live.ascending_objects.filter _)
    obtain ⟨graph, hgraph, hkept⟩ := Registration.register_of_kept hids hregister
    exact ⟨graph, Outcome.bind_eq_ok_iff.2 ⟨all, hall, hgraph⟩, hkept⟩

end Changes

/-- A table and its column are renamed, next to an extension that is ignored and one that goes. -/
theorem diff_replays_albums : ∃ declared live changes,
    register [.table { name := "album", columns := [{ name := "name", type := .text }] }] =
      .ok declared ∧
    register [.extension ⟨"plpgsql"⟩, .extension ⟨"citext"⟩,
      .table { name := "albums", columns := [{ name := "title", type := .text }] }] = .ok live ∧
    diff { renames := [⟨.table, "albums", "album"⟩]
           columnRenames := [⟨"album", "title", "name"⟩] } declared live = .ok changes ∧
    changes.operations = [.rename (.table "albums") (.table "album"),
      .alter (.table "album") [.renameColumn "title" "name"], .drop (.extension ⟨"citext"⟩)] ∧
    ∃ renames rest, RenamesReplay
      { renames := [⟨.table, "albums", "album"⟩], columnRenames := [⟨"album", "title", "name"⟩] }
      declared live changes renames rest := by
  have hrun : (do
      let declared ←
        register [.table { name := "album", columns := [{ name := "name", type := .text }] }]
      let live ← register [.extension ⟨"plpgsql"⟩, .extension ⟨"citext"⟩,
        .table { name := "albums", columns := [{ name := "title", type := .text }] }]
      let changes ← diff { renames := [⟨.table, "albums", "album"⟩]
                           columnRenames := [⟨"album", "title", "name"⟩] } declared live
      pure changes.operations) = .ok [.rename (.table "albums") (.table "album"),
        .alter (.table "album") [.renameColumn "title" "name"], .drop (.extension ⟨"citext"⟩)] := by
    simp only [diff, plan, orderSteps, Step.mergeSort_before]
    decide +kernel
  obtain ⟨declared, hdeclared, hrun⟩ := Outcome.bind_eq_ok_iff.1 hrun
  obtain ⟨live, hlive, hrun⟩ := Outcome.bind_eq_ok_iff.1 hrun
  obtain ⟨changes, hdiff, hoperations⟩ := Outcome.bind_eq_ok_iff.1 hrun
  exact ⟨declared, live, changes, hdeclared, hlive, hdiff, Except.ok.inj hoperations,
    diff_replays hlive hdiff⟩

end Change

end SchemaPlan
