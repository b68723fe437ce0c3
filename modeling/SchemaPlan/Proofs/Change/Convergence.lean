import SchemaPlan.Proofs.Change.Realization

/-!
# Convergence

Running a change set leaves nothing to change.

* `Remains` says what a change set leaves of an object, `exists_remains` that its schedule does.
* `diff_converges`: what is left is a schema, and comparing it again finds nothing to do.
-/

set_option autoImplicit false

namespace SchemaPlan.Change

variable {options : DiffOptions} {declared live graph : SchemaGraph} {changes : ChangeSet}
  {orders : Orders} {recreated : List ObjectId} {schedule : List Step} {id : ObjectId}

/-! ## What is left of an object -/

/-- What a change set leaves of an object: ignored extensions stay as they are, declared objects
are there, and all others are gone. -/
inductive Remains (options : DiffOptions) (declared live : SchemaGraph) (id : ObjectId) :
    Option SchemaObject → Prop
  | ignored (hignored : options.ignoresId id = true) :
    Remains options declared live id (live.get? id)
  | realized {object result : SchemaObject} (hkept : options.ignoresId id = false)
    (hobject : declared.get? id = some object) (hresult : result.Realizes object) :
    Remains options declared live id (some result)
  | gone (hkept : options.ignoresId id = false) (hnone : declared.get? id = none) :
    Remains options declared live id none

/-- An object that is declared and live is brought to its declared definition. -/
theorem exists_result_of_shared {object existing : SchemaObject}
    (h : IsSchedule options declared live changes orders recreated schedule)
    (hobject : declared.get? id = some object) (hexisting : live.get? id = some existing)
    (hdeclared : object.WellDeclared ∧ object.StandsAlone)
    (hlive : existing.WellReported ∧ existing.StandsAlone) :
    ∃ result, Leads ((deeds schedule id).map Prod.snd) id (some existing) (some result) ∧
      result.Realizes object := by
  have hid := (SchemaGraph.get?_eq_some_iff.1 hobject).2
  have hid' := (SchemaGraph.get?_eq_some_iff.1 hexisting).2
  by_cases hrecreated : id ∈ recreated
  · obtain ⟨_, _, hobject', hexisting', hdeeds⟩ := deeds_of_recreated h hrecreated
    obtain rfl := Option.some.inj (hobject.symm.trans hobject')
    obtain rfl := Option.some.inj (hexisting.symm.trans hexisting')
    have hdrop : Acts (dropOperation existing) id (some existing) none :=
      hid' ▸ acts_drop hlive.2
    have hcreate : Acts (createOperation object) id none (some object) :=
      hid ▸ acts_create hdeclared.2
    rw [hdeeds]
    exact ⟨object, ⟨none, hdrop, leads_singleton hcreate⟩, hdeclared.1.realizes_self⟩
  · obtain ⟨verdict, removals, additions, hverdict, halters, hdeeds⟩ :=
      deeds_of_altered h hobject hexisting hrecreated
    obtain ⟨result, halteration⟩ :=
      exists_alteration hdeclared.1 hlive.1 (hid'.trans hid.symm) hverdict halters
    obtain ⟨between, hremovals, hadditions⟩ := halteration.runs
    rw [hdeeds]
    exact ⟨result, leads_alterations hid' (hid ▸ halteration.inPlace) hremovals hadditions,
      halteration.realizes⟩

/-- **What a schedule leaves of an object.** -/
theorem exists_remains
    (h : IsSchedule options (declared.withoutIgnored options) (live.withoutIgnored options)
      changes orders recreated schedule)
    (hdeclared : ∀ object ∈ declared.objects, object.WellDeclared ∧ object.StandsAlone)
    (hlive : ∀ object ∈ live.objects, object.WellReported ∧ object.StandsAlone)
    (id : ObjectId) : ∃ final, Leads ((deeds schedule id).map Prod.snd) id (live.get? id) final ∧
      Remains options declared live id final := by
  have hgetDeclared := SchemaGraph.get?_withoutIgnored declared options id
  have hgetLive := SchemaGraph.get?_withoutIgnored live options id
  cases hkept : options.ignoresId id with
  | true =>
    rw [hkept] at hgetDeclared hgetLive
    refine ⟨live.get? id, ?_, .ignored hkept⟩
    rw [deeds_of_neither h hgetDeclared hgetLive]
    rfl
  | false =>
    rw [hkept] at hgetDeclared hgetLive
    cases hobject : declared.get? id with
    | none =>
      refine ⟨none, ?_, .gone hkept hobject⟩
      cases hexisting : live.get? id with
      | none =>
        rw [deeds_of_neither h (hgetDeclared.trans hobject) (hgetLive.trans hexisting)]
        rfl
      | some existing =>
        rw [deeds_of_live_only h (hgetLive.trans hexisting) (hgetDeclared.trans hobject)]
        obtain ⟨hmem, rfl⟩ := SchemaGraph.get?_eq_some_iff.1 hexisting
        exact leads_singleton (acts_drop (hlive existing hmem).2)
    | some object =>
      have hmem := (SchemaGraph.get?_eq_some_iff.1 hobject).1
      cases hexisting : live.get? id with
      | none =>
        refine ⟨some object, ?_, .realized hkept hobject (hdeclared object hmem).1.realizes_self⟩
        rw [deeds_of_declared_only h (hgetDeclared.trans hobject) (hgetLive.trans hexisting)]
        obtain rfl := (SchemaGraph.get?_eq_some_iff.1 hobject).2
        exact leads_singleton (acts_create (hdeclared object hmem).2)
      | some existing =>
        have hmem' := (SchemaGraph.get?_eq_some_iff.1 hexisting).1
        obtain ⟨result, hleads, hresult⟩ := exists_result_of_shared h
          (hgetDeclared.trans hobject) (hgetLive.trans hexisting) (hdeclared object hmem)
          (hlive existing hmem')
        exact ⟨some result, hleads, .realized hkept hobject hresult⟩

/-! ## What is left of a schema -/

/-- What is left stands for all declared objects. -/
theorem realized_of_remains {objects : List SchemaObject}
    {final : ObjectId → Option SchemaObject} (hobjects : Represents objects final)
    (hremains : ∀ id, Remains options declared live id (final id)) :
    Registration.Realized options declared.objects objects where
  each object hobject := by
    have hfinal := (hobjects.mem_iff object.id object).2 ⟨hobject, rfl⟩
    generalize hleft : final object.id = left at hfinal
    have h := hremains object.id
    rw [hleft] at h
    cases h with
    | ignored hignored =>
      have hkind : object.id.kind = .extension := by
        rw [DiffOptions.ignoresId, Bool.and_eq_true, beq_iff_eq] at hignored
        exact hignored.1
      cases object with
      | extension e => exact .inl ⟨e, rfl⟩
      | _ => cases hkind
    | realized hkept hdeclared hresult =>
      obtain rfl := Option.some.inj hfinal
      obtain ⟨hmem, hid⟩ := SchemaGraph.get?_eq_some_iff.1 hdeclared
      exact .inr ⟨_, hmem, hid ▸ hkept, hresult⟩
    | gone => cases hfinal
  all object hobject hkept := by
    have h := hremains object.id
    generalize hleft : final object.id = left at h
    cases h with
    | ignored hignored =>
      rw [hkept] at hignored
      cases hignored
    | realized _ hdeclared hresult =>
      rw [SchemaGraph.get?_of_mem hobject] at hdeclared
      obtain rfl := Option.some.inj hdeclared
      exact ⟨_, hobjects.mem hleft, hresult⟩
    | gone _ hnone =>
      rw [SchemaGraph.get?_of_mem hobject] at hnone
      cases hnone

/-- **A change set runs through and leaves a schema.** -/
theorem exists_graph
    (hplan : plan options (declared.withoutIgnored options) (live.withoutIgnored options) [] =
      .ok changes)
    (hsettled : Registration.Settled declared.objects)
    (hdepends : ∀ f, .function f ∈ declared.objects → ∀ id ∈ f.dependsOn,
      options.ignoresId id = false)
    (hdeclared : ∀ object ∈ declared.objects, object.WellDeclared ∧ object.StandsAlone)
    (hlive : ∀ object ∈ live.objects, object.WellReported ∧ object.StandsAlone) :
    ∃ graph, applyTo changes.operations live = .ok graph ∧
      ∀ id, Remains options declared live id (graph.get? id) := by
  obtain ⟨orders, recreated, schedule, hschedule⟩ := exists_schedule hplan
  choose final hleads hremains using exists_remains hschedule hdeclared hlive
  obtain ⟨objects, hrun, hobjects⟩ := hschedule.exists_run live final hleads
  have hperm := (Order.ofList_perm hobjects.nodup).symm
  have hascending := Order.ascending_ofList SchemaObject.id objects
  have hsorted : Represents (Order.ofList SchemaObject.id objects) final :=
    ⟨(hperm.map SchemaObject.id).nodup_iff.1 hobjects.nodup, fun id object => by
      rw [hobjects.mem_iff, hperm.mem_iff]⟩
  have hregister := Registration.register_of_perm (Registration.settled_of_realized
    (realized_of_remains hsorted hremains) hsettled hdepends hascending) hperm
  refine ⟨_, Outcome.bind_eq_ok_iff.2 ⟨objects, hrun, hregister⟩, fun id => ?_⟩
  rw [hobjects.get?_eq (by rw [Registration.objects_graphOf hascending]; exact hperm)]
  exact hremains id

/-- The objects that a declaration registers are well declared. -/
theorem wellDeclared_of_register {declaration : Declaration}
    (h : declaration.register = .ok declared)
    (hkeys : ∀ i, .index i ∈ declared.objects → ∀ e, i.expression = some e →
      (IndexKeys.read (Expression.canonical e)).2 ≠ none)
    {object : SchemaObject} (hobject : object ∈ declared.objects) :
    object.WellDeclared ∧ object.StandsAlone := by
  obtain ⟨hsettled, -⟩ := Registration.settled_of_register h
  have hsound := hsettled.sound hobject
  refine ⟨⟨hsettled.parts object hobject, hsettled.withName object hobject, ?_, ?_, ?_⟩,
    Registration.standsAlone_of_register h declaration.standsAlone_objects hobject⟩
  · rintro e rfl
    exact hsound
  · rintro t rfl
    exact hsound.1
  · rintro i rfl
    exact hkeys i hobject

/-- The objects that a catalog registers are well reported. -/
theorem wellReported_of_graph {snapshot : Catalog.Snapshot} (h : snapshot.graph = .ok live)
    (hnames : ∀ t, .table t ∈ live.objects → (t.constraints.map Constraint.name).Nodup)
    {object : SchemaObject} (hobject : object ∈ live.objects) :
    object.WellReported ∧ object.StandsAlone := by
  obtain ⟨sources, hregister⟩ := Catalog.Snapshot.register_of_graph h
  obtain ⟨hsettled, -⟩ := Registration.settled_of_register hregister
  have hsound := hsettled.sound hobject
  obtain ⟨hreported, halone⟩ := Catalog.Snapshot.reported_of_graph h object hobject
  refine ⟨⟨hsettled.parts object hobject, hsettled.withName object hobject, ?_, ?_, hreported⟩,
    halone⟩
  · rintro t rfl
    exact hsound.1
  · rintro t rfl
    exact hnames t hobject

/-! ## Comparing again -/

/-- The two graphs have the same objects, and no comparison finds a change. -/
structure Unchanged (options : DiffOptions) (declared live : SchemaGraph) : Prop where
  ids : ∀ id, id ∈ declared.ids ↔ id ∈ live.ids
  verdicts : ∀ id object existing, declared.get? id = some object →
    live.get? id = some existing → compareObjects options object existing = .ok ⟨none, false, []⟩

theorem Unchanged.decision (h : Unchanged options declared live) {decided : List Decision}
    (hdecided : decisions options declared live = .ok decided) {decision : Decision}
    (hdecision : decision ∈ decided) : decision.verdict = ⟨none, false, []⟩ := by
  obtain ⟨hobject, hexisting, hverdict⟩ := decision_spec hdecided hdecision
  rw [h.verdicts _ _ _ hobject hexisting, Except.ok.injEq] at hverdict
  exact hverdict.symm

/-- Nothing is created again when nothing changes. -/
theorem Unchanged.recreatedSet_eq (h : Unchanged options declared live)
    (hrecreated : recreatedSet options declared live = .ok recreated) : recreated = [] := by
  obtain ⟨decided, hdecided, hrecreated⟩ := Outcome.bind_eq_ok_iff.1 hrecreated
  obtain ⟨hrecreate, hkeyless⟩ :=
    filter_eq_nil_of_unchanged fun d hd => h.decision hdecided hd
  rw [hrecreate, hkeyless, List.map_nil, List.map_nil, recreatedObjects_nil] at hrecreated
  exact (Except.ok.inj hrecreated).symm

/-- **There is nothing to do when nothing changes.** -/
theorem Unchanged.operations_eq_nil (h : Unchanged options declared live)
    (hplan : plan options declared live [] = .ok changes) : changes.operations = [] := by
  obtain ⟨orders, recreated, schedule, hschedule⟩ := exists_schedule hplan
  have hnone := h.recreatedSet_eq hschedule.recreation
  have hdeeds : ∀ id, deeds schedule id = [] := by
    intro id
    cases hobject : declared.get? id with
    | none =>
      refine deeds_of_neither hschedule hobject (SchemaGraph.get?_eq_none_iff.2 fun hmem => ?_)
      exact SchemaGraph.get?_eq_none_iff.1 hobject ((h.ids id).2 hmem)
    | some object =>
      obtain ⟨existing, hexisting⟩ := SchemaGraph.mem_ids_iff_exists_get?.1
        ((h.ids id).1 (SchemaGraph.mem_ids_iff_exists_get?.2 ⟨object, hobject⟩))
      have hverdict := h.verdicts id object existing hobject hexisting
      have hid := (SchemaGraph.get?_eq_some_iff.1 hobject).2
      rw [deeds_of_shared hschedule hobject hexisting hverdict,
        change?_of_not_mem (hnone ▸ List.not_mem_nil)]
  have hschedule_nil : schedule = [] := by
    refine List.eq_nil_iff_forall_not_mem.2 fun step hstep => ?_
    have hmem : (step.phase, step.operation) ∈ deeds schedule step.subject :=
      mem_deeds_iff.2 ⟨step, hstep, rfl, rfl, rfl⟩
    rw [hdeeds] at hmem
    cases hmem
  rw [hschedule.operations, hschedule_nil]
  rfl

/-- **A graph in which the changes have arrived**: it has the declared objects, and a comparison
with them finds nothing to do.  Ignored extensions are the live ones. -/
structure Converged (options : DiffOptions) (declared live graph : SchemaGraph) : Prop where
  ids : ∀ id, id ∈ graph.ids ↔ (id ∈ declared.ids ∧ options.ignoresId id = false) ∨
    (id ∈ live.ids ∧ options.ignoresId id = true)
  unchanged : ∀ object ∈ declared.objects, options.ignoresId object.id = false →
    ∃ existing, graph.get? object.id = some existing ∧
      compareObjects options object existing = .ok ⟨none, false, []⟩
  nothingToDo : ∀ again, diff options declared graph = .ok again → again.operations = []

theorem Remains.isSome_iff {final : Option SchemaObject}
    (h : Remains options declared live id final) : final.isSome = true ↔
      (id ∈ declared.ids ∧ options.ignoresId id = false) ∨
        (id ∈ live.ids ∧ options.ignoresId id = true) := by
  cases h with
  | ignored hignored =>
    rw [Option.isSome_iff_exists, ← SchemaGraph.mem_ids_iff_exists_get?]
    simp [hignored]
  | realized hkept hobject =>
    simp [hkept, SchemaGraph.mem_ids_iff_exists_get?, hobject]
  | gone hkept hnone =>
    simp [hkept, SchemaGraph.mem_ids_iff_exists_get?, hnone]

/-- The comparison of what is left finds no change. -/
theorem Remains.unchanged {object : SchemaObject} {final : Option SchemaObject}
    (h : Remains options declared live id final) (hobject : declared.get? id = some object)
    (hkept : options.ignoresId id = false) : ∃ existing, final = some existing ∧
      compareObjects options object existing = .ok ⟨none, false, []⟩ := by
  cases h with
  | ignored hignored =>
    rw [hkept] at hignored
    cases hignored
  | realized _ hobject' hresult =>
    obtain rfl := Option.some.inj (hobject.symm.trans hobject')
    exact ⟨_, rfl, compareObjects_of_agrees hresult.agrees⟩
  | gone _ hnone =>
    rw [hobject] at hnone
    cases hnone

/-- What is left has converged. -/
theorem converged_of_remains (hhints : options.WithoutHints)
    (h : ∀ id, Remains options declared live id (graph.get? id)) :
    Converged options declared live graph where
  ids id := by
    rw [SchemaGraph.mem_ids_iff_exists_get?, ← Option.isSome_iff_exists]
    exact (h id).isSome_iff
  unchanged object hobject hkept := (h object.id).unchanged (SchemaGraph.get?_of_mem hobject) hkept
  nothingToDo again hagain := by
    rw [diff_eq_plan hhints] at hagain
    refine Unchanged.operations_eq_nil
      ⟨fun id => ?_, fun id object existing hobject hexisting => ?_⟩ hagain
    · rw [SchemaGraph.mem_ids_withoutIgnored_iff, SchemaGraph.mem_ids_withoutIgnored_iff,
        @SchemaGraph.mem_ids_iff_exists_get? graph, ← Option.isSome_iff_exists,
        (h id).isSome_iff]
      cases options.ignoresId id <;> simp
    · obtain ⟨hobject, hkept⟩ := SchemaGraph.get?_withoutIgnored_eq_some_iff.1 hobject
      obtain ⟨hexisting, -⟩ := SchemaGraph.get?_withoutIgnored_eq_some_iff.1 hexisting
      rw [DiffOptions.ignores_eq, (SchemaGraph.get?_eq_some_iff.1 hobject).2] at hkept
      obtain ⟨other, hother, hverdict⟩ := (h id).unchanged hobject hkept
      obtain rfl := Option.some.inj (hexisting.symm.trans hother)
      exact hverdict

/-- **Every change set converges**: it runs through on the live graph and leaves a graph in which
there is nothing to do. -/
theorem diff_converges {declaration : Declaration} {snapshot : Catalog.Snapshot}
    (hdeclared : declaration.register = .ok declared) (hlive : snapshot.graph = .ok live)
    (hnames : ∀ t, .table t ∈ live.objects → (t.constraints.map Constraint.name).Nodup)
    (hdepends : ∀ f, .function f ∈ declared.objects → ∀ id ∈ f.dependsOn,
      options.ignoresId id = false)
    (hkeys : ∀ i, .index i ∈ declared.objects → ∀ e, i.expression = some e →
      (IndexKeys.read (Expression.canonical e)).2 ≠ none)
    (hhints : options.WithoutHints) (h : diff options declared live = .ok changes) :
    ∃ graph, applyTo changes.operations live = .ok graph ∧
      Converged options declared live graph := by
  rw [diff_eq_plan hhints] at h
  obtain ⟨graph, hgraph, hremains⟩ := exists_graph h
    (Registration.settled_of_register hdeclared).1 hdepends
    (fun _ => wellDeclared_of_register hdeclared hkeys)
    (fun _ => wellReported_of_graph hlive hnames)
  exact ⟨graph, hgraph, converged_of_remains hhints hremains⟩

/-- A type with two labels and a table with a column of it. -/
def moodDeclaration : Declaration where
  name := "app"
  enums := [{ name := "mood", labels := ["sad", "calm"] }]
  tables := [{
    name := "user"
    columns := [{ name := "id", type := .uuid }, { name := "mood", type := .custom "mood" }] }]

/-- The type with one label and the table with a key, before there were moods. -/
def moodSnapshot : Catalog.Snapshot where
  extensions := [⟨"plpgsql"⟩]
  enums := [⟨"mood", ["sad"]⟩]
  tables := [⟨"user", none⟩]
  columns := [⟨"user", "id", 1, "uuid", false, none, none⟩]
  constraints := [
    ⟨"user", "user_key", "u", ["id"], "UNIQUE (id)", none, [], "", "", false, false⟩]

/-- A type gets a label, and a table loses a key and gets a column. -/
theorem diff_converges_altered_table : ∃ declared live changes,
    moodDeclaration.register = .ok declared ∧ moodSnapshot.graph = .ok live ∧
    (∀ t, .table t ∈ live.objects → (t.constraints.map Constraint.name).Nodup) ∧
    (∀ f, .function f ∈ declared.objects → ∀ id ∈ f.dependsOn,
      DiffOptions.ignoresId {} id = false) ∧
    (∀ i, .index i ∈ declared.objects → ∀ e, i.expression = some e →
      (IndexKeys.read (Expression.canonical e)).2 ≠ none) ∧
    diff {} declared live = .ok changes ∧
    changes.operations = [
      .alter (.table "user") [.dropConstraint ⟨"user_key", .unique ["id"]⟩],
      .alter ⟨.enum, "mood"⟩ [.addEnumLabel "calm" (.after "sad")],
      .alter (.table "user")
        [.setNullable "id" true, .addColumn { name := "mood", type := .enum "mood" }]] ∧
    ∃ graph, applyTo changes.operations live = .ok graph ∧ Converged {} declared live graph := by
  have hrun : (do
      let declared ← moodDeclaration.register.toOption
      let live ← moodSnapshot.graph.toOption
      let changes ← (diff {} declared live).toOption
      pure (declared.objects, live.objects, changes.operations)) = some
        ([.enum { name := "mood", labels := ["sad", "calm"] },
          .table {
            name := "user"
            columns := [{ name := "id", type := .uuid },
              { name := "mood", type := .enum "mood" }] }],
        [.extension ⟨"plpgsql"⟩, .enum { name := "mood", labels := ["sad"] },
          .table {
            name := "user"
            columns := [{ name := "id", type := .uuid, nullable := false }]
            constraints := [⟨"user_key", .unique ["id"]⟩] }],
        [.alter (.table "user") [.dropConstraint ⟨"user_key", .unique ["id"]⟩],
          .alter ⟨.enum, "mood"⟩ [.addEnumLabel "calm" (.after "sad")],
          .alter (.table "user")
            [.setNullable "id" true, .addColumn { name := "mood", type := .enum "mood" }]]) := by
    simp only [diff, plan, orderSteps, Step.mergeSort_before]
    decide +kernel
  obtain ⟨declared, hdeclared, hrun⟩ := Option.bind_eq_some_iff.1 hrun
  obtain ⟨live, hlive, hrun⟩ := Option.bind_eq_some_iff.1 hrun
  obtain ⟨changes, hdiff, hrun⟩ := Option.bind_eq_some_iff.1 hrun
  rw [Outcome.toOption_eq_some_iff] at hdeclared hlive hdiff
  obtain ⟨hdeclaredObjects, hrun⟩ := Prod.mk.inj (Option.some.inj hrun)
  obtain ⟨hliveObjects, hoperations⟩ := Prod.mk.inj hrun
  have hnames : ∀ t, .table t ∈ live.objects → (t.constraints.map Constraint.name).Nodup := by
    intro t ht
    rw [hliveObjects] at ht
    simp only [List.mem_cons, SchemaObject.table.injEq, reduceCtorEq, List.not_mem_nil,
      false_or, or_false] at ht
    subst ht
    exact List.nodup_singleton _
  have hdepends : ∀ f, .function f ∈ declared.objects → ∀ id ∈ f.dependsOn,
      DiffOptions.ignoresId {} id = false := by
    intro f hf
    rw [hdeclaredObjects] at hf
    simp at hf
  have hkeys : ∀ i, .index i ∈ declared.objects → ∀ e, i.expression = some e →
      (IndexKeys.read (Expression.canonical e)).2 ≠ none := by
    intro i hi
    rw [hdeclaredObjects] at hi
    simp at hi
  exact ⟨declared, live, changes, hdeclared, hlive, hnames, hdepends, hkeys, hdiff, hoperations,
    diff_converges hdeclared hlive hnames hdepends hkeys ⟨rfl, rfl⟩ hdiff⟩

end SchemaPlan.Change
