import SchemaPlan.Proofs.Change.Deeds
import SchemaPlan.Proofs.Change.Replay

/-!
# Ignored extensions and the comparison

Tables with custom types and indexes with other methods depend on every extension there is, so an
ignored one leaves traces all over a graph.  They are gone before anything is compared: a change
set is made of two graphs without ignored extensions, and these do not depend on which ignored
extensions were registered.

* `extension_mem_dependencies`: what depends on every extension,
* `target_kept_of_diff`: no operation is about an ignored extension,
* `ignored_extensions_invisible`: lists of objects that differ in ignored extensions only are
  compared alike.
-/

set_option autoImplicit false

namespace SchemaPlan

open Registration (kept NeedsNoIgnored)

/-- Whether an object may need any extension: it has a column of a custom type, or is an index with
a method that may come from one. -/
def SchemaObject.usesExtensions : SchemaObject → Bool
  | .table t => t.columns.any fun column => column.type.customName?.isSome
  | .index i => !i.method.isBuiltinOrdered
  | _ => false

namespace Registration

theorem mem_extensions_iff {objects : List SchemaObject} {id : ObjectId} :
    id ∈ extensions objects ↔ id ∈ objects.map SchemaObject.id ∧ id.kind = .extension := by
  simp only [extensions, List.mem_map, List.mem_filter, beq_iff_eq, ← SchemaObject.kind_id]
  constructor
  · rintro ⟨object, ⟨hobject, hkind⟩, rfl⟩
    exact ⟨⟨object, hobject, rfl⟩, hkind⟩
  · rintro ⟨⟨object, hobject, rfl⟩, hkind⟩
    exact ⟨object, ⟨hobject, hkind⟩, rfl⟩

theorem extensions_subset_references {objects : List SchemaObject} {object : SchemaObject}
    (huses : object.usesExtensions = true) : extensions objects ⊆ references objects object := by
  intro id hid
  cases object with
  | table t =>
    obtain ⟨column, hcolumn, hcustom⟩ := List.any_eq_true.1 huses
    refine List.mem_append_left _ (List.mem_flatMap.2 ⟨column, hcolumn, ?_⟩)
    rw [columnDependencies, if_pos hcustom]
    exact List.mem_append_left _ (List.mem_append_right _ hid)
  | index i =>
    have hmethod : ¬i.method.isBuiltinOrdered = true := by
      simpa [SchemaObject.usesExtensions] using huses
    rw [references, if_neg hmethod]
    exact List.mem_cons_of_mem _ (List.mem_append_right _ hid)
  | _ => cases huses

/-- **What may need any extension depends on every registered one.** -/
theorem extension_mem_dependencies {xs : List SchemaObject} {graph : SchemaGraph}
    (h : register xs = .ok graph) {object : SchemaObject} (hobject : object ∈ graph.objects)
    (huses : object.usesExtensions = true) {id : ObjectId} (hid : id ∈ graph.ids)
    (hkind : id.kind = .extension) : id ∈ graph.dependencies object.id := by
  obtain ⟨hsettled, hgraph⟩ := settled_of_register h
  rw [hgraph, mem_dependencies_graphOf_iff hsettled.ascending]
  refine ⟨object, hobject, rfl, extensions_subset_references huses ?_⟩
  rw [mem_extensions_iff, graph.map_id_objects]
  exact ⟨hid, hkind⟩

end Registration

namespace Change

variable {options : DiffOptions} {declared live : SchemaGraph} {changes : ChangeSet}

/-! ## What operations are about -/

theorem target_kept_of_isRename {objects renamed : List SchemaObject} {operation : Operation}
    (hop : IsRename operation) (h : run objects operation = .ok renamed) :
    options.ignoresId operation.target = false := by
  cases hop with
  | object hkind => exact DiffOptions.not_ignoresId_of_kind (renameObject_eq_ok_iff.1 h).2.2.1
  | column table source target => exact DiffOptions.not_ignoresId_of_kind nofun

/-- Extensions are not renamed. -/
theorem target_kept_of_renames {objects renamed : List SchemaObject} {operations : List Operation}
    (hops : ∀ operation ∈ operations, IsRename operation)
    (h : operations.foldlM run objects = .ok renamed) :
    ∀ operation ∈ operations, options.ignoresId operation.target = false := by
  induction operations generalizing objects with
  | nil => exact List.forall_mem_nil _
  | cons operation operations ih =>
    obtain ⟨hop, hops⟩ := List.forall_mem_cons.1 hops
    rw [List.foldlM_cons] at h
    obtain ⟨middle, hmiddle, hrest⟩ := Outcome.bind_eq_ok_iff.1 h
    exact List.forall_mem_cons.2 ⟨target_kept_of_isRename hop hmiddle, ih hops hrest⟩

/-- The steps of a schedule are about something else, and so are their operations. -/
theorem IsSchedule.target_kept {orders : Orders} {recreated : List ObjectId}
    {schedule : List Step}
    (h : IsSchedule options (declared.withoutIgnored options) (live.withoutIgnored options)
      changes orders recreated schedule) {step : Step} (hstep : step ∈ schedule) :
    options.ignoresId step.operation.target = false := by
  rcases (h.fits hstep).target with htarget | hkind
  · rw [htarget]
    rcases h.subject_mem hstep with hmem | hmem
    all_goals exact (SchemaGraph.mem_ids_withoutIgnored_iff.1 hmem).2
  · refine DiffOptions.not_ignoresId_of_kind ?_
    rw [hkind]
    nofun

/-- **No operation is about an ignored extension.** -/
theorem target_kept_of_diff {sources : List SchemaObject} (hlive : register sources = .ok live)
    (h : diff options declared live = .ok changes) :
    ∀ operation ∈ changes.operations, options.ignoresId operation.target = false := by
  obtain ⟨renames, rest, hreplays⟩ := diff_replays hlive h
  obtain ⟨renamed, graph, happly, hplan, -, rfl⟩ := hreplays.replays
  rw [hreplays.operations, List.forall_mem_append]
  constructor
  · obtain ⟨-, -, -, hrenames, ⟨rfl, -⟩ | ⟨objects, hrun, -⟩⟩ := applyHints_replays happly
    · exact List.forall_mem_nil _
    · exact target_kept_of_renames hrenames hrun
  · obtain ⟨orders, recreated, schedule, hschedule⟩ := exists_schedule hplan
    have hrest : rest = schedule.map Step.operation := hschedule.operations
    rw [hrest, List.forall_mem_map]
    exact fun step hstep => hschedule.target_kept hstep

/-! ## Two comparisons -/

/-- Two lists of objects differ in nothing but ignored extensions, wherever these stand. -/
def SameButIgnored (options : DiffOptions) (xs ys : List SchemaObject) : Prop :=
  kept options xs = kept options ys

/-- Ignored extensions can be added and removed anywhere. -/
theorem SameButIgnored.insert {name : String} (h : name ∈ options.ignoredExtensions)
    (xs ys : List SchemaObject) :
    SameButIgnored options (xs ++ ys) (xs ++ .extension ⟨name⟩ :: ys) := by
  have hignores : options.ignores (.extension ⟨name⟩) = true := List.contains_iff_mem.2 h
  rw [SameButIgnored, kept, kept, List.filter_append, List.filter_append, ← kept, ← kept,
    ← kept, Registration.kept_cons_of_ignores hignores]

/-- A list names no ignored extension twice. -/
def ListsOnce (options : DiffOptions) (objects : List SchemaObject) : Prop :=
  ((objects.filter options.ignores).map SchemaObject.id).Nodup

instance (options : DiffOptions) (objects : List SchemaObject) :
    Decidable (ListsOnce options objects) :=
  inferInstanceAs (Decidable (List.Nodup _))

/-- The change set for two lists of objects; the first error when they can not be registered. -/
def diffSources (options : DiffOptions) (declared live : List SchemaObject) :
    Except SchemaError ChangeSet := do
  let declared ← register declared
  let live ← register live
  diff options declared live

/-- **What ignored extensions are to a comparison**: lists of objects without some of them, or with
more, lead to the same. -/
structure Overlooks (options : DiffOptions) (declared live declared' live' : List SchemaObject) :
    Prop where
  /-- Once registered, they have the same operations in the same order and the same rename
  candidates, or the same error. -/
  sameResult : ∀ {d l d' l' : SchemaGraph}, register declared = .ok d → register live = .ok l →
    register declared' = .ok d' → register live' = .ok l' → diff options d' l' = diff options d l
  /-- They are registered alike, or fail alike, unless an ignored extension is listed twice. -/
  sameOutcome : ListsOnce options declared → ListsOnce options live → ListsOnce options declared' →
    ListsOnce options live' →
    diffSources options declared' live' = diffSources options declared live
  /-- No operation targets an ignored extension. -/
  untouched : ∀ {d l : SchemaGraph} {changes : ChangeSet}, register declared = .ok d →
    register live = .ok l → diff options d l = .ok changes →
    ∀ operation ∈ changes.operations, options.ignoresId operation.target = false
  /-- All the same, a table with a custom type and an index with another method depend on every
  extension that is registered with them, the ignored ones included. -/
  dependents : ∀ {graph : SchemaGraph},
    register declared' = .ok graph ∨ register live' = .ok graph →
    ∀ object ∈ graph.objects, object.usesExtensions = true →
    ∀ id ∈ graph.ids, id.kind = .extension → id ∈ graph.dependencies object.id

section Sources

variable {xs ys : List SchemaObject} {graph graph' : SchemaGraph}

theorem SameButIgnored.needsNoIgnored (h : SameButIgnored options xs ys)
    (hneeds : NeedsNoIgnored options xs) : NeedsNoIgnored options ys := by
  intro f hf
  have hkept : .function f ∈ kept options xs := by
    rw [h]
    exact List.mem_filter.2 ⟨hf, rfl⟩
  exact hneeds f (List.mem_filter.1 hkept).1

/-- The graphs of such lists differ in ignored extensions and the traces of these only. -/
theorem SameButIgnored.withoutIgnored_eq (h : SameButIgnored options xs ys)
    (hneeds : NeedsNoIgnored options xs) (hx : register xs = .ok graph)
    (hy : register ys = .ok graph') :
    graph'.withoutIgnored options = graph.withoutIgnored options := by
  have hkept := Registration.register_kept_of_register hneeds hx
  rw [h, Registration.register_kept_of_register (h.needsNoIgnored hneeds) hy] at hkept
  exact Except.ok.inj hkept

/-- A comparison sees of its sources what is kept. -/
theorem diffSources_eq (hxs : NeedsNoIgnored options xs) (hys : NeedsNoIgnored options ys)
    (honce : ListsOnce options xs) (honce' : ListsOnce options ys) :
    diffSources options xs ys = (do
      let declared ← register (kept options xs)
      let live ← register (kept options ys)
      let (live, renames) ← applyHints live declared options
      plan options declared live renames) := by
  rw [← Registration.register_kept hxs honce, ← Registration.register_kept hys honce', diffSources]
  cases register xs with
  | error e => rfl
  | ok declared =>
    cases register ys with
    | error e => rfl
    | ok live => rfl

end Sources

/-- **Ignored extensions are invisible to a comparison.** -/
theorem ignored_extensions_invisible {declared live declared' live' : List SchemaObject}
    (hdeclared : SameButIgnored options declared declared')
    (hlive : SameButIgnored options live live')
    (hneedsDeclared : NeedsNoIgnored options declared) (hneedsLive : NeedsNoIgnored options live) :
    Overlooks options declared live declared' live' where
  sameResult := by
    intro d l d' l' hd hl hd' hl'
    rw [diff, diff, hdeclared.withoutIgnored_eq hneedsDeclared hd hd',
      hlive.withoutIgnored_eq hneedsLive hl hl']
  sameOutcome := by
    intro honce honceLive honce' honceLive'
    rw [diffSources_eq hneedsDeclared hneedsLive honce honceLive,
      diffSources_eq (hdeclared.needsNoIgnored hneedsDeclared) (hlive.needsNoIgnored hneedsLive)
        honce' honceLive', hdeclared, hlive]
  untouched := fun _ hl h => target_kept_of_diff hl h
  dependents := by
    rintro graph (h | h) object hobject huses id hid hkind
    · exact Registration.extension_mem_dependencies h hobject huses hid hkind
    · exact Registration.extension_mem_dependencies h hobject huses hid hkind

/-- A table with a column of a custom type and an index on it with another method. -/
def titledSongs : SchemaObject :=
  .table
    { name := "songs"
      columns := [{ name := "title", type := .custom "citext" }]
      indexes := [{ name := "songs_by_title", columns := ["title"], method := .gin }] }

/-- Both depend on an ignored extension when it is registered, and the change set is the same. -/
theorem ignored_extensions_invisible_songs : ∃ declared live changes,
    register [.extension ⟨"plpgsql"⟩, .extension ⟨"citext"⟩, titledSongs] = .ok declared ∧
    register [.extension ⟨"plpgsql"⟩] = .ok live ∧
    declared.dependencies (.table "songs") = [⟨.extension, "citext"⟩, ⟨.extension, "plpgsql"⟩] ∧
    declared.dependencies ⟨.index, "songs_by_title"⟩ =
      [⟨.extension, "citext"⟩, ⟨.extension, "plpgsql"⟩, .table "songs"] ∧
    diff {} declared live = .ok changes ∧
    changes.operations.map Operation.target =
      [⟨.extension, "citext"⟩, .table "songs", ⟨.index, "songs_by_title"⟩] ∧
    diffSources {} [.extension ⟨"citext"⟩, titledSongs] [] = .ok changes ∧
    Overlooks {} [.extension ⟨"citext"⟩, titledSongs] []
      [.extension ⟨"plpgsql"⟩, .extension ⟨"citext"⟩, titledSongs] [.extension ⟨"plpgsql"⟩] := by
  have hrun : (do
      let declared ← register [.extension ⟨"plpgsql"⟩, .extension ⟨"citext"⟩, titledSongs]
      let live ← register [.extension ⟨"plpgsql"⟩]
      let changes ← diff {} declared live
      pure (declared.dependencies (.table "songs"),
        declared.dependencies ⟨.index, "songs_by_title"⟩,
        changes.operations.map Operation.target)) =
      .ok ([⟨.extension, "citext"⟩, ⟨.extension, "plpgsql"⟩],
        [⟨.extension, "citext"⟩, ⟨.extension, "plpgsql"⟩, .table "songs"],
        [⟨.extension, "citext"⟩, .table "songs", ⟨.index, "songs_by_title"⟩]) := by
    simp only [diff, plan, orderSteps, Step.mergeSort_before]
    decide +kernel
  obtain ⟨declared, hdeclared, hrun⟩ := Outcome.bind_eq_ok_iff.1 hrun
  obtain ⟨live, hlive, hrun⟩ := Outcome.bind_eq_ok_iff.1 hrun
  obtain ⟨changes, hdiff, hrun⟩ := Outcome.bind_eq_ok_iff.1 hrun
  have hresults := Except.ok.inj hrun
  simp only [Prod.mk.injEq] at hresults
  have hfunctions : NeedsNoIgnored {} [.extension ⟨"citext"⟩, titledSongs] := by
    intro f hf
    simp [titledSongs] at hf
  have hignored : "plpgsql" ∈ DiffOptions.ignoredExtensions {} := List.mem_singleton_self _
  have hoverlooks : Overlooks {} [.extension ⟨"citext"⟩, titledSongs] []
      [.extension ⟨"plpgsql"⟩, .extension ⟨"citext"⟩, titledSongs] [.extension ⟨"plpgsql"⟩] :=
    ignored_extensions_invisible (.insert hignored [] _) (.insert hignored [] []) hfunctions
      fun _ hf => absurd hf List.not_mem_nil
  refine ⟨declared, live, changes, hdeclared, hlive, hresults.1, hresults.2.1, hdiff,
    hresults.2.2, ?_, hoverlooks⟩
  have hsame := hoverlooks.sameOutcome (by decide) (by decide) (by decide) (by decide)
  rw [← hsame, diffSources, hdeclared, hlive]
  exact hdiff

end Change

end SchemaPlan
