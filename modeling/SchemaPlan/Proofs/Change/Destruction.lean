import SchemaPlan.Command.Generate
import SchemaPlan.Proofs.Change.Coverage
import SchemaPlan.Proofs.Change.FreshBuild
import SchemaPlan.Proofs.Change.Recreation
import SchemaPlan.Proofs.Change.Shedding

/-!
# What a change set destroys

A change set is marked as destructive operation by operation.  What the mark promises is about the
two schemas: nothing that holds data or is known by name goes.

* `Table.KeepsData`, `KeepsData`: what stays, in words of the two schemas.
* `destructive_of_hints`: a confirmed rename is destructive.
* `diff_destructive_exact`: a change set is not destructive exactly when all of this stays, and
  only such a change set passes without leave.
-/

set_option autoImplicit false

namespace SchemaPlan

/-- A live table keeps its data: its columns are still declared, and their types change at most
into types that hold all their values. -/
structure Table.KeepsData (declared live : Table) : Prop where
  columns : ∀ column ∈ live.columns, (declared.column? column.name).isSome = true
  types : ∀ column ∈ declared.columns, ∀ existing ∈ live.columns, existing.name = column.name →
    column.type ≠ existing.type → existing.type.convertsLosslesslyTo column.type = true

namespace Change

/-! ## Alterations -/

section Alterations

variable {options : DiffOptions} {declared live : Table}

/-- **The changes of a table are not destructive exactly when it keeps its data.** -/
theorem isDestructive_of_compareTables (hlive : (live.columns.map Column.name).Nodup)
    {changes : TableChanges} (h : compareTables options declared live = .ok changes) :
    (∀ change ∈ changes.removals ++ changes.additions, change.isDestructive = false) ↔
      declared.KeepsData live := by
  have hsheds := sheds_of_compareTables h
  constructor
  · intro hnone
    refine ⟨fun column hcolumn => ?_, fun column hcolumn existing hexisting hname hne => ?_⟩
    · cases hgone : declared.column? column.name with
      | some _ => rfl
      | none => cases hnone _ ((hsheds.columns column).2 ⟨hcolumn, hgone⟩)
    · have hchange := (hsheds.types _ _ _).2 ⟨column, hcolumn, existing,
        (Table.column?_eq_some_iff hlive).2 ⟨hexisting, hname⟩, hne, rfl, rfl, rfl⟩
      have hlossless := hnone _ hchange
      rw [AlterChange.isDestructive, Bool.not_eq_false'] at hlossless
      exact hlossless
  · intro hkeeps change hchange
    cases change with
    | dropColumn column =>
      obtain ⟨hcolumn, hgone⟩ := (hsheds.columns column).1 hchange
      have hkept := hkeeps.columns column hcolumn
      rw [hgone] at hkept
      cases hkept
    | alterColumnType name source target =>
      obtain ⟨column, hcolumn, existing, hexisting, hne, -, rfl, rfl⟩ :=
        (hsheds.types _ _ _).1 hchange
      obtain ⟨hmem, hname⟩ := (Table.column?_eq_some_iff hlive).1 hexisting
      rw [AlterChange.isDestructive, Bool.not_eq_false']
      exact hkeeps.types column hcolumn existing hmem hname hne
    | renameColumn source target => exact absurd hchange (renameColumn_not_mem h)
    | _ => rfl

end Alterations

/-! ## Objects -/

section Objects

variable {options : DiffOptions} {object existing : SchemaObject} {verdict : Verdict}
  {removals additions : List AlterChange}

/-- What is altered is not destroyed, unless it is a table that does not keep its data. -/
theorem isDestructive_of_alters (hlive : ∀ l : Table, existing = .table l →
      (l.columns.map Column.name).Nodup)
    (h : compareObjects options object existing = .ok verdict)
    (halters : verdict.Alters removals additions) :
    (∀ change ∈ removals ++ additions, change.isDestructive = false) ↔
      ∀ d l : Table, object = .table d → existing = .table l → d.KeepsData l := by
  by_cases htables : ∃ d l : Table, object = .table d ∧ existing = .table l
  · obtain ⟨d, l, rfl, rfl⟩ := htables
    obtain ⟨changes, hchanges, rfl⟩ := compareObjects_table h
    obtain ⟨rfl, rfl⟩ := changes_of_alters rfl halters
    rw [isDestructive_of_compareTables (hlive l rfl) hchanges]
    simp
  · refine iff_of_true ?_ fun d l hd hl => absurd ⟨d, l, hd, hl⟩ htables
    rcases compareObjects_cases h with ⟨_, -, rfl⟩ | ⟨d, l, change, -, -, hcompare, rfl⟩ |
      ⟨d, l, -, -, rfl⟩ | ⟨d, l, _, hd, hl, -⟩ | rfl
    · rcases halters with halters | ⟨-, rfl, rfl⟩
      · cases halters
      · simp
    · rw [compareEnums] at hcompare
      split at hcompare
      · cases hcompare
      · cases hcompare
        obtain ⟨rfl, rfl⟩ := changes_of_alters rfl halters
        intro change hchange
        obtain ⟨label, place, rfl⟩ := mem_newLabels hchange
        rfl
    · rcases halters with halters | ⟨-, rfl, rfl⟩
      · simp only [compareFunctions] at halters
        split at halters
        · cases halters
        · split at halters
          · cases halters
          · cases halters
            simp [AlterChange.isDestructive]
      · simp
    · exact absurd ⟨d, l, hd, hl⟩ htables
    · rcases halters with halters | ⟨-, rfl, rfl⟩
      · simp only at halters
        split at halters <;> cases halters
      · simp

theorem isDestructive_alterations (id : ObjectId) (removals additions : List AlterChange) :
    (∀ deed ∈ alterations id removals additions, deed.2.isDestructive = false) ↔
      ∀ change ∈ removals ++ additions, change.isDestructive = false := by
  have hpart : ∀ (phase : Phase) (parts : List AlterChange),
      (∀ deed ∈ (if parts.isEmpty then [] else [(phase, Operation.alter id parts)]),
        deed.2.isDestructive = false) ↔ ∀ change ∈ parts, change.isDestructive = false := by
    intro phase parts
    cases parts with
    | nil => simp
    | cons part rest => simp [Operation.isDestructive]
  rw [alterations, List.forall_mem_append, List.forall_mem_append, hpart, hpart]

/-- Dropping a constraint of its own destroys nothing, dropping anything else does. -/
theorem isDestructive_dropOperation (object : SchemaObject) :
    (dropOperation object).isDestructive = false ↔ object.kind = .constraint := by
  cases object <;> simp [dropOperation, Operation.isDestructive, AlterChange.isDestructive,
    SchemaObject.kind]

end Objects

/-! ## Change sets -/

/-- **What stays**: no rename is confirmed, every live object other than a constraint of its own
or an ignored extension is still declared and is not created again, and every live table keeps its
data. -/
structure KeepsData (options : DiffOptions) (declared live : SchemaGraph) : Prop where
  noHints : options.WithoutHints
  objects : ∀ object ∈ live.objects, object.kind ≠ .constraint → options.ignores object = false →
    object.id ∈ declared.ids ∧
      ¬ CreatedAgain (declared.withoutIgnored options) (live.withoutIgnored options) object.id
  tables : ∀ l : Table, .table l ∈ live.objects → ∃ d : Table, .table d ∈ declared.objects ∧
    d.name = l.name ∧ d.KeepsData l

section ChangeSets

variable {options : DiffOptions} {declared live : SchemaGraph} {changes : ChangeSet}
  {orders : Orders} {recreated : List ObjectId} {schedule : List Step}

/-- What is done to a live object is not destructive when it stays. -/
theorem isDestructive_deeds {sources : List SchemaObject} (hlive : register sources = .ok live)
    (hrecreated : recreatedSet options (declared.withoutIgnored options)
      (live.withoutIgnored options) = .ok recreated)
    (h : Accounts options declared live recreated schedule) {id : ObjectId}
    (hkept : options.ignoresId id = false) :
    (∀ deed ∈ deeds schedule id, deed.2.isDestructive = false) ↔
      ∀ existing, live.get? id = some existing →
        (existing.kind ≠ .constraint → id ∈ declared.ids ∧
          ¬ CreatedAgain (declared.withoutIgnored options) (live.withoutIgnored options) id) ∧
        ∀ d l : Table, declared.get? id = some (.table d) → existing = .table l →
          d.KeepsData l := by
  cases hexisting : live.get? id with
  | none =>
    refine iff_of_true (fun deed hdeed => ?_) nofun
    cases hobject : declared.get? id with
    | none =>
      obtain ⟨step, hstep, rfl, -⟩ := mem_deeds_iff.1 hdeed
      rw [SchemaGraph.get?_eq_none_iff] at hexisting hobject
      rcases (h.nothingElse step hstep).2 with hmem | hmem
      · exact absurd hmem hobject
      · exact absurd hmem hexisting
    | some object =>
      rw [h.created id object hobject (SchemaGraph.get?_eq_none_iff.1 hexisting) hkept,
        List.mem_singleton] at hdeed
      rw [hdeed]
      exact isDestructive_createOperation object
  | some existing =>
    simp only [Option.some.injEq, forall_eq']
    -- What goes, for good or to come again, is destroyed unless it is a constraint.
    have hgoes : ¬ (id ∈ declared.ids ∧ ¬ CreatedAgain (declared.withoutIgnored options)
          (live.withoutIgnored options) id) →
        (existing.kind = .constraint ↔
          (existing.kind ≠ .constraint → id ∈ declared.ids ∧
            ¬ CreatedAgain (declared.withoutIgnored options) (live.withoutIgnored options) id) ∧
          ∀ d l : Table, declared.get? id = some (.table d) → existing = .table l →
            d.KeepsData l) := by
      intro hgoes
      constructor
      · intro hkind
        refine ⟨fun hne => absurd hkind hne, fun d l _ hl => ?_⟩
        rw [hl] at hkind
        cases hkind
      · rintro ⟨hstays, -⟩
        by_contra hne
        exact hgoes (hstays hne)
    by_cases hid : id ∈ declared.ids
    · by_cases hrecreatedId : id ∈ recreated
      · have hagain := (mem_recreatedSet_iff hrecreated).1 hrecreatedId
        obtain ⟨object, existing', -, hexisting', -, hdeeds⟩ := h.replaced id hrecreatedId
        rw [hexisting, Option.some.injEq] at hexisting'
        rw [hdeeds, ← hexisting', ← hgoes fun hstays => hstays.2 hagain]
        simp [isDestructive_dropOperation, isDestructive_createOperation]
      · have hnot : ¬ CreatedAgain (declared.withoutIgnored options)
            (live.withoutIgnored options) id :=
          fun hagain => hrecreatedId ((mem_recreatedSet_iff hrecreated).2 hagain)
        obtain ⟨object, hobject⟩ := SchemaGraph.mem_ids_iff_exists_get?.1 hid
        obtain ⟨verdict, removals, additions, hverdict, halters, hdeeds, -⟩ :=
          h.altered id object existing hobject hexisting hkept hrecreatedId
        have hcolumns : ∀ l : Table, existing = .table l →
            (l.columns.map Column.name).Nodup := by
          rintro l rfl
          have hmem := (SchemaGraph.get?_eq_some_iff.1 hexisting).1
          exact ((Registration.settled_of_register hlive).1.sound hmem).1
        rw [hdeeds, isDestructive_alterations,
          isDestructive_of_alters hcolumns hverdict halters, hobject]
        simp only [Option.some.injEq]
        exact ⟨fun hkeeps => ⟨fun _ => ⟨hid, hnot⟩, hkeeps⟩, fun hstays => hstays.2⟩
    · rw [h.dropped id existing hexisting hid hkept, ← hgoes fun hstays => hid hstays.1]
      simp [isDestructive_dropOperation]

/-- **A change set without renames is not destructive exactly when everything stays.** -/
theorem isDestructive_eq_false_iff {liveSources : List SchemaObject}
    (hlive : register liveSources = .ok live)
    (hhints : options.WithoutHints)
    (hrecreated : recreatedSet options (declared.withoutIgnored options)
      (live.withoutIgnored options) = .ok recreated)
    (hoperations : changes.operations = schedule.map Step.operation)
    (h : Accounts options declared live recreated schedule) :
    changes.isDestructive = false ↔ KeepsData options declared live := by
  have hsteps : changes.isDestructive = false ↔ ∀ id, options.ignoresId id = false →
      ∀ deed ∈ deeds schedule id, deed.2.isDestructive = false := by
    rw [ChangeSet.isDestructive, hoperations, List.any_map, List.any_eq_false]
    simp only [Function.comp, Bool.not_eq_true]
    constructor
    · intro hnone id _ deed hdeed
      obtain ⟨step, hstep, -, -, hoperation⟩ := mem_deeds_iff.1 hdeed
      rw [← hoperation]
      exact hnone step hstep
    · intro hnone step hstep
      exact hnone step.subject (h.nothingElse step hstep).1 (step.phase, step.operation)
        (mem_deeds_iff.2 ⟨step, hstep, rfl, rfl, rfl⟩)
  rw [hsteps]
  constructor
  · intro hnone
    have hstays : ∀ object ∈ live.objects, options.ignores object = false →
        (object.kind ≠ .constraint → object.id ∈ declared.ids ∧
          ¬ CreatedAgain (declared.withoutIgnored options) (live.withoutIgnored options)
            object.id) ∧
        ∀ d l : Table, declared.get? object.id = some (.table d) → object = .table l →
          d.KeepsData l := by
      intro object hobject hkept
      rw [DiffOptions.ignores_eq] at hkept
      exact (isDestructive_deeds hlive hrecreated h hkept).1 (hnone _ hkept) object
        (SchemaGraph.get?_of_mem hobject)
    refine ⟨hhints, fun object hobject hkind hkept => (hstays object hobject hkept).1 hkind,
      fun l hl => ?_⟩
    obtain ⟨hdeclared, hkeeps⟩ := hstays _ hl rfl
    obtain ⟨hid, -⟩ := hdeclared fun hkind => by cases hkind
    obtain ⟨object, hobject⟩ := SchemaGraph.mem_ids_iff_exists_get?.1 hid
    obtain ⟨hmem, hobjectId⟩ := SchemaGraph.get?_eq_some_iff.1 hobject
    cases object with
    | table d => exact ⟨d, hmem, congrArg ObjectId.name hobjectId, hkeeps d l hobject rfl⟩
    | _ => cases congrArg ObjectId.kind hobjectId
  · intro hkeeps id hkept
    refine (isDestructive_deeds hlive hrecreated h hkept).2 fun existing hexisting => ?_
    obtain ⟨hmem, rfl⟩ := SchemaGraph.get?_eq_some_iff.1 hexisting
    refine ⟨fun hkind => hkeeps.objects existing hmem hkind ?_, fun d l hd hl => ?_⟩
    · rw [DiffOptions.ignores_eq]
      exact hkept
    · subst hl
      obtain ⟨d', hd', hname, hkeepsTable⟩ := hkeeps.tables l hmem
      have hsame : declared.get? (SchemaObject.table l).id = some (.table d') := by
        have hget := SchemaGraph.get?_of_mem hd'
        rwa [SchemaObject.id, hname] at hget
      rw [hsame] at hd
      cases hd
      exact hkeepsTable

/-! ## Renames -/

/-- An operation that destroys something is among the operations of a rename. -/
def Renamed.Destroys (renamed : Renamed) : Prop :=
  ∃ operation ∈ renamed.operations, operation.isDestructive = true

theorem destroys_of_applyHint {hint : RenameHint} {renamed renamed' : Renamed}
    (h : applyHint declared renamed hint = .ok renamed') : renamed'.Destroys := by
  rw [applyHint] at h
  split at h
  · cases h
  · obtain ⟨objects, -, h⟩ := Outcome.bind_eq_ok_iff.1 h
    cases h
    exact ⟨_, List.mem_append_right _ (List.mem_singleton_self _), rfl⟩

theorem destroys_of_applyColumnHint {hint : ColumnRenameHint} {renamed renamed' : Renamed}
    (h : applyColumnHint declared renamed hint = .ok renamed') : renamed'.Destroys := by
  rw [applyColumnHint] at h
  split at h
  · cases h
  · obtain ⟨objects, -, h⟩ := Outcome.bind_eq_ok_iff.1 h
    cases h
    exact ⟨_, List.mem_append_right _ (List.mem_singleton_self _), rfl⟩

theorem destroys_of_refresh {place : NamePlace} {renamed renamed' : Renamed}
    (hdestroys : renamed.Destroys) (h : refresh declared renamed place = .ok renamed') :
    renamed'.Destroys := by
  rw [refresh] at h
  split at h
  · cases h
    exact hdestroys
  · split at h
    · cases h
      exact hdestroys
    · obtain ⟨objects, -, h⟩ := Outcome.bind_eq_ok_iff.1 h
      cases h
      obtain ⟨operation, hoperation, hdestructive⟩ := hdestroys
      exact ⟨operation, List.mem_append_left _ hoperation, hdestructive⟩

/-- Applying hints gives an operation that destroys something. -/
theorem exists_destructive_of_applyHints (hhints : ¬ options.WithoutHints)
    {result : SchemaGraph × List Operation}
    (h : applyHints live declared options = .ok result) :
    ∃ operation ∈ result.2, operation.isDestructive = true := by
  rw [applyHints] at h
  split at h
  · rename_i hnone
    rw [Bool.and_eq_true, List.isEmpty_iff, List.isEmpty_iff] at hnone
    exact absurd hnone hhints
  · obtain ⟨first, hfirst, h⟩ := Outcome.bind_eq_ok_iff.1 h
    obtain ⟨second, hsecond, h⟩ := Outcome.bind_eq_ok_iff.1 h
    obtain ⟨third, hthird, h⟩ := Outcome.bind_eq_ok_iff.1 h
    obtain ⟨graph, -, h⟩ := Outcome.bind_eq_ok_iff.1 h
    cases h
    have hdestroys : second.Destroys := by
      by_cases hcolumns : options.columnRenames = []
      · have hrenames : options.renames ≠ [] := fun hnil => hhints ⟨hnil, hcolumns⟩
        rw [hcolumns] at hsecond
        cases hsecond
        exact Outcome.foldlM_establishes (fun _ _ _ => destroys_of_applyHint) hrenames hfirst
      · exact Outcome.foldlM_establishes (fun _ _ _ => destroys_of_applyColumnHint) hcolumns
          hsecond
    exact Outcome.foldlM_invariant (fun _ _ _ => destroys_of_refresh) _ hthird hdestroys

/-- **A confirmed rename is destructive.** -/
theorem destructive_of_hints (hhints : ¬ options.WithoutHints)
    (h : diff options declared live = .ok changes) : changes.isDestructive = true := by
  obtain ⟨⟨live', renames⟩, happly, h⟩ := Outcome.bind_eq_ok_iff.1 h
  obtain ⟨operation, hoperation, hdestructive⟩ := exists_destructive_of_applyHints hhints happly
  obtain ⟨creation, -, h⟩ := Outcome.bind_eq_ok_iff.1 h
  obtain ⟨deletion, -, h⟩ := Outcome.bind_eq_ok_iff.1 h
  obtain ⟨decided, -, h⟩ := Outcome.bind_eq_ok_iff.1 h
  obtain ⟨recreated, -, h⟩ := Outcome.bind_eq_ok_iff.1 h
  obtain ⟨operations, hoperations, h⟩ := Outcome.bind_eq_ok_iff.1 h
  cases h
  obtain ⟨schedule, rfl, hperm, -⟩ := orderSteps_spec hoperations
  refine List.any_eq_true.2 ⟨operation, ?_, hdestructive⟩
  refine List.mem_map.2 ⟨⟨.rename, 0, operation.target, operation⟩, hperm.mem_iff.2 ?_, rfl⟩
  simp only [List.mem_append]
  exact .inl (.inl (.inl (List.mem_map.2 ⟨operation, hoperation, rfl⟩)))

/-! ## The gate -/

/-- Operations that drop and rename no object and no column, and narrow no column type. -/
structure Harmless (operations : List Operation) : Prop where
  drops : ∀ object, .drop object ∉ operations
  renames : ∀ source target, .rename source target ∉ operations
  columns : ∀ target parts, .alter target parts ∈ operations →
    (∀ column, .dropColumn column ∉ parts) ∧ ∀ source target, .renameColumn source target ∉ parts
  types : ∀ target parts, .alter target parts ∈ operations →
    ∀ column source target, .alterColumnType column source target ∈ parts →
      source.convertsLosslesslyTo target = true

theorem harmless_of_not_destructive (h : changes.isDestructive = false) :
    Harmless changes.operations := by
  have hall : ∀ operation ∈ changes.operations, operation.isDestructive = false := by
    intro operation hoperation
    exact Bool.eq_false_iff.2 (List.any_eq_false.1 h operation hoperation)
  have hparts : ∀ target parts, .alter target parts ∈ changes.operations →
      ∀ part ∈ parts, part.isDestructive = false := by
    intro target parts hmem part hpart
    exact Bool.eq_false_iff.2 (List.any_eq_false.1 (hall _ hmem) part hpart)
  constructor
  case drops =>
    intro object hmem
    cases hall _ hmem
  case renames =>
    intro source target hmem
    cases hall _ hmem
  case columns =>
    intro target parts hmem
    refine ⟨fun column hpart => ?_, fun source target hpart => ?_⟩
    · cases hparts _ _ hmem _ hpart
    · cases hparts _ _ hmem _ hpart
  case types =>
    intro target parts hmem column source target' hpart
    have hlossless := hparts _ _ hmem _ hpart
    rw [AlterChange.isDestructive, Bool.not_eq_false'] at hlossless
    exact hlossless

/-- **A change set is not destructive exactly when everything stays**, and one that passes without
leave drops and renames nothing and narrows no column type. -/
theorem diff_destructive_exact {declaredSources liveSources : List SchemaObject}
    (hdeclared : register declaredSources = .ok declared)
    (hlive : register liveSources = .ok live) (h : diff options declared live = .ok changes) :
    (changes.isDestructive = false ↔ KeepsData options declared live) ∧
      (Command.refuseDestructive false changes = .ok () → Harmless changes.operations) := by
  constructor
  · by_cases hhints : options.WithoutHints
    · rw [diff_eq_plan hhints] at h
      obtain ⟨orders, recreated, schedule, hschedule⟩ := exists_schedule h
      exact isDestructive_eq_false_iff hlive hhints hschedule.recreation hschedule.operations
        (hschedule.accounts hdeclared)
    · rw [destructive_of_hints hhints h]
      exact iff_of_false nofun fun hkeeps => hhints hkeeps.noHints
  · intro hpasses
    refine harmless_of_not_destructive ?_
    by_contra hdestructive
    have hmark : changes.isDestructive = true := by simpa using hdestructive
    rw [Command.refuseDestructive, hmark] at hpasses
    cases hpasses

end ChangeSets

/-- Types that get wider, a new label and a foreign key that goes destroy nothing; a column that
goes does. -/
theorem diff_destructive_exact_wider_columns : ∃ live wider narrower widened narrowed,
    register [.enum { name := "mood", labels := ["sad"] },
      .table { name := "user", columns := [{ name := "id", type := .integer }] },
      .table {
        name := "entry"
        columns := [{ name := "owner", type := .integer }, { name := "note", type := .text }]
        constraints := [⟨"entry_owner", .foreignKey
          { columns := ["owner"], referencesTable := "user", referencesColumns := ["id"] }⟩] }] =
      .ok live ∧
    register [.enum { name := "mood", labels := ["sad", "calm"] },
      .table { name := "user", columns := [{ name := "id", type := .bigInt }] },
      .table {
        name := "entry"
        columns := [{ name := "owner", type := .bigInt }, { name := "note", type := .text }] }] =
      .ok wider ∧
    register [.enum { name := "mood", labels := ["sad"] },
      .table { name := "user", columns := [{ name := "id", type := .integer }] },
      .table { name := "entry", columns := [{ name := "owner", type := .integer }] }] =
      .ok narrower ∧
    diff {} wider live = .ok widened ∧ Command.refuseDestructive false widened = .ok () ∧
    KeepsData {} wider live ∧ Harmless widened.operations ∧
    diff {} narrower live = .ok narrowed ∧ narrowed.isDestructive = true ∧
    ¬ KeepsData {} narrower live := by
  have hrun : (do
      let live ← register [.enum { name := "mood", labels := ["sad"] },
        .table { name := "user", columns := [{ name := "id", type := .integer }] },
        .table {
          name := "entry"
          columns := [{ name := "owner", type := .integer }, { name := "note", type := .text }]
          constraints := [⟨"entry_owner", .foreignKey
            { columns := ["owner"], referencesTable := "user", referencesColumns := ["id"] }⟩] }]
      let wider ← register [.enum { name := "mood", labels := ["sad", "calm"] },
        .table { name := "user", columns := [{ name := "id", type := .bigInt }] },
        .table {
          name := "entry"
          columns := [{ name := "owner", type := .bigInt }, { name := "note", type := .text }] }]
      let narrower ← register [.enum { name := "mood", labels := ["sad"] },
        .table { name := "user", columns := [{ name := "id", type := .integer }] },
        .table { name := "entry", columns := [{ name := "owner", type := .integer }] }]
      let widened ← diff {} wider live
      let narrowed ← diff {} narrower live
      pure (widened.isDestructive, narrowed.isDestructive)) = .ok (false, true) := by
    simp only [diff, plan, orderSteps, Step.mergeSort_before]
    decide +kernel
  obtain ⟨live, hlive, hrun⟩ := Outcome.bind_eq_ok_iff.1 hrun
  obtain ⟨wider, hwider, hrun⟩ := Outcome.bind_eq_ok_iff.1 hrun
  obtain ⟨narrower, hnarrower, hrun⟩ := Outcome.bind_eq_ok_iff.1 hrun
  obtain ⟨widened, hwidened, hrun⟩ := Outcome.bind_eq_ok_iff.1 hrun
  obtain ⟨narrowed, hnarrowed, hrun⟩ := Outcome.bind_eq_ok_iff.1 hrun
  obtain ⟨hkept, hlost⟩ := Prod.mk.inj (Except.ok.inj hrun)
  obtain ⟨hwiderIff, hpasses⟩ := diff_destructive_exact hwider hlive hwidened
  obtain ⟨hnarrowerIff, -⟩ := diff_destructive_exact hnarrower hlive hnarrowed
  have hgate : Command.refuseDestructive false widened = .ok () := by
    rw [Command.refuseDestructive, hkept]
    rfl
  refine ⟨live, wider, narrower, widened, narrowed, hlive, hwider, hnarrower, hwidened, hgate,
    hwiderIff.1 hkept, hpasses hgate, hnarrowed, hlost, fun hkeeps => ?_⟩
  rw [hnarrowerIff.2 hkeeps] at hlost
  cases hlost

/-- **A key that is an object of its own is dropped without a mark**, like a foreign key. -/
theorem not_destructive_of_dropped_key : ∃ declared live changes,
    register [.table { name := "t", columns := [{ name := "c", type := .text }] }] =
      .ok declared ∧
    register [.table { name := "t", columns := [{ name := "c", type := .text }] },
      .constraint ⟨"t", ⟨"key", .unique ["c"]⟩⟩] = .ok live ∧
    diff {} declared live = .ok changes ∧ changes.isDestructive = false ∧
    ¬ ∀ object ∈ live.objects,
      (∀ c, object = .constraint c → c.constraint.kind.isForeignKey = false) →
        DiffOptions.ignores {} object = false → object.id ∈ declared.ids := by
  have hrun : (do
      let declared ← register [.table { name := "t", columns := [{ name := "c", type := .text }] }]
      let live ← register [.table { name := "t", columns := [{ name := "c", type := .text }] },
        .constraint ⟨"t", ⟨"key", .unique ["c"]⟩⟩]
      let changes ← diff {} declared live
      pure (changes.isDestructive, declared.ids, live.objects)) =
        .ok (false, [.table "t"],
          [.table { name := "t", columns := [{ name := "c", type := .text }] },
            .constraint ⟨"t", ⟨"key", .unique ["c"]⟩⟩]) := by
    simp only [diff, plan, orderSteps, Step.mergeSort_before]
    decide +kernel
  obtain ⟨declared, hdeclared, hrun⟩ := Outcome.bind_eq_ok_iff.1 hrun
  obtain ⟨live, hlive, hrun⟩ := Outcome.bind_eq_ok_iff.1 hrun
  obtain ⟨changes, hdiff, hrun⟩ := Outcome.bind_eq_ok_iff.1 hrun
  obtain ⟨hkept, hrun⟩ := Prod.mk.inj (Except.ok.inj hrun)
  obtain ⟨hids, hobjects⟩ := Prod.mk.inj hrun
  refine ⟨declared, live, changes, hdeclared, hlive, hdiff, hkept, fun hall => ?_⟩
  have hmem : SchemaObject.constraint ⟨"t", ⟨"key", .unique ["c"]⟩⟩ ∈ live.objects := by
    rw [hobjects]
    exact List.mem_cons_of_mem _ (List.mem_singleton_self _)
  have hid := hall _ hmem (by rintro c ⟨⟩; rfl) rfl
  rw [hids] at hid
  simp [SchemaObject.id, ObjectId.within, ObjectId.table] at hid

end Change

end SchemaPlan
