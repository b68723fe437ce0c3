import SchemaPlan.Proofs.Catalog.Layering
import SchemaPlan.Proofs.Change.Propagation
import SchemaPlan.Proofs.Change.Schedule

/-!
# The graph of the operations

The steps of a comparison wait for each other for four reasons: additions follow the declared
graph, removals the live one, an object goes before it comes again, and a table comes before
something that it has let go of is dropped for good.  The last is the only one that puts an
addition before a removal.  It closes no cycle because what a table of a catalog uses uses
nothing itself: the removal it leads to is waited for by no other step.

* `Planning.place_lt`: every step has a place behind the steps that it needs (`Step.place`).
* `Planning.acyclic`: no step needs itself, directly or through others.
* `diff_cyclic_iff`: a comparison with a catalog meets a cycle exactly when the declared schema
  has one.
-/

set_option autoImplicit false

namespace SchemaPlan.Change

/-! ## Plans -/

/-- What a comparison settles before it puts its steps in order. -/
structure Planning (options : DiffOptions) (declared live : SchemaGraph) (orders : Orders)
    (decided : List Decision) (recreated : List ObjectId) : Prop where
  creation : declared.creationOrder = .ok orders.creation
  deletion : live.deletionOrder = .ok orders.deletion
  decisions : decisions options declared live = .ok decided
  recreation : recreatedSet options declared live = .ok recreated

/-- The place of a step: removals in the order of deletion, then additions in the order of
creation, and behind them the removals of what is dropped for good and uses nothing. -/
def Step.place (declared live : SchemaGraph) (orders : Orders) (step : Step) : Nat :=
  match step.phase with
  | .rename => 0
  | .removal =>
    if declared.contains step.subject || !(live.dependencies step.subject).isEmpty then
      orders.deletion.idxOf step.subject
    else orders.deletion.length + orders.creation.length
  | .addition => orders.deletion.length + orders.creation.idxOf step.subject

section Planning

variable {options : DiffOptions} {declared live : SchemaGraph} {orders : Orders}
  {decided : List Decision} {recreated : List ObjectId}

/-- All planned steps fit their subjects. -/
theorem Planning.fits (h : Planning options declared live orders decided recreated) {step : Step}
    (hstep : step ∈ plannedSteps orders recreated declared live decided) :
    step.Fits declared live := by
  have hmem : step ∈ (plannedSteps orders recreated declared live decided).filter
      fun other => other.subject == step.subject :=
    List.mem_filter.2 ⟨hstep, beq_self_eq_true _⟩
  rw [filter_plannedSteps h.decisions] at hmem
  exact (fits_of_mem_subjectSteps hmem).2

theorem Planning.idxOf_creation_lt (h : Planning options declared live orders decided recreated)
    {id : ObjectId} (hid : id ∈ declared.ids) :
    orders.creation.idxOf id < orders.creation.length :=
  List.idxOf_lt_length_iff.2 ((SchemaGraph.creationOrder_spec h.creation).1.mem_iff.2 hid)

theorem Planning.idxOf_deletion_lt (h : Planning options declared live orders decided recreated)
    {id : ObjectId} (hid : id ∈ live.ids) :
    orders.deletion.idxOf id < orders.deletion.length := by
  have hperm := (SchemaGraph.creationOrder_spec
    (SchemaGraph.deletionOrder_eq_ok_iff.1 h.deletion)).1
  exact List.idxOf_lt_length_iff.2 (List.mem_reverse.1 (hperm.mem_iff.2 hid))

/-! ## Places -/

theorem place_addition {step : Step} (hphase : step.phase = .addition) :
    step.place declared live orders =
      orders.deletion.length + orders.creation.idxOf step.subject := by
  rw [Step.place, hphase]

/-- A removal that other steps wait for has its place in the order of deletion. -/
theorem place_removal {step : Step} (hphase : step.phase = .removal)
    (h : step.subject ∈ declared.ids ∨ live.dependencies step.subject ≠ []) :
    step.place declared live orders = orders.deletion.idxOf step.subject := by
  have hbusy : (declared.contains step.subject ||
      !(live.dependencies step.subject).isEmpty) = true := by
    rw [Bool.or_eq_true, SchemaGraph.contains_iff, Bool.not_eq_true', List.isEmpty_eq_false_iff]
    exact h
  rw [Step.place, hphase]
  exact if_pos hbusy

/-- A removal for good of what uses nothing has the last place. -/
theorem place_last {step : Step} (hphase : step.phase = .removal)
    (hdeclared : step.subject ∉ declared.ids) (hlive : live.dependencies step.subject = []) :
    step.place declared live orders = orders.deletion.length + orders.creation.length := by
  have hidle : ¬ (declared.contains step.subject ||
      !(live.dependencies step.subject).isEmpty) = true := by
    rw [Bool.or_eq_true, SchemaGraph.contains_iff, hlive]
    simpa using hdeclared
  rw [Step.place, hphase]
  exact if_neg hidle

/-- A removal has its place in the order of deletion or the last one. -/
theorem place_removal_cases (declared live : SchemaGraph) (orders : Orders) {step : Step}
    (hphase : step.phase = .removal) :
    step.place declared live orders = orders.deletion.idxOf step.subject ∨
      step.place declared live orders = orders.deletion.length + orders.creation.length := by
  by_cases hdeclared : step.subject ∈ declared.ids
  · exact .inl (place_removal hphase (.inl hdeclared))
  · by_cases hlive : live.dependencies step.subject = []
    · exact .inr (place_last hphase hdeclared hlive)
    · exact .inl (place_removal hphase (.inr hlive))

/-! ## Steps that wait for each other -/

/-- The four reasons why a step waits for another. -/
theorem mustPrecede_cases {a b : Step} (h : a.mustPrecede declared live b = true) :
    (a.phase = .addition ∧ b.phase = .addition ∧
      a.subject ∈ declared.dependencies b.subject) ∨
    (a.phase = .removal ∧ b.phase = .addition ∧ a.subject = b.subject) ∨
    (a.phase = .removal ∧ b.phase = .removal ∧ b.subject ∈ live.dependencies a.subject) ∨
    (a.phase = .addition ∧ b.phase = .removal ∧ a.subject.kind = .table ∧
      b.subject ∈ live.dependencies a.subject ∧ b.subject ∉ declared.ids) := by
  rw [Step.mustPrecede] at h
  cases ha : a.phase <;> cases hb : b.phase <;> rw [ha, hb] at h
  case addition.addition =>
    exact .inl ⟨rfl, rfl, List.contains_iff_mem.1 h⟩
  case removal.addition =>
    exact .inr (.inl ⟨rfl, rfl, beq_iff_eq.1 h⟩)
  case removal.removal =>
    exact .inr (.inr (.inl ⟨rfl, rfl, List.contains_iff_mem.1 h⟩))
  case addition.removal =>
    simp only [Bool.and_eq_true, beq_iff_eq, List.contains_iff_mem, Bool.not_eq_true',
      SchemaGraph.contains_eq_false_iff, SchemaGraph.get?_eq_none_iff] at h
    exact .inr (.inr (.inr ⟨rfl, rfl, h.1.1.1, h.1.1.2, h.2⟩))
  all_goals cases h

/-- **Every step has a place behind the steps that it needs** when what a live table uses uses
nothing itself. -/
theorem Planning.place_lt (h : Planning options declared live orders decided recreated)
    (hlayered : live.Layered) {a b : Step} (ha : a.Fits declared live) (hb : b.Fits declared live)
    (hab : a.mustPrecede declared live b = true) :
    a.place declared live orders < b.place declared live orders := by
  rcases mustPrecede_cases hab with ⟨hpa, hpb, hdep⟩ | ⟨hpa, hpb, hsame⟩ | ⟨hpa, hpb, hdep⟩ |
    ⟨hpa, hpb, htable, hdep, hgone⟩
  · have hlt := SchemaGraph.idxOf_lt_of_mem_dependencies h.creation hdep (ha.mem_declared hpa)
    rw [place_addition hpa, place_addition hpb]
    omega
  · have hlt := h.idxOf_deletion_lt (ha.mem_live hpa)
    have hdeclared : a.subject ∈ declared.ids := hsame ▸ hb.mem_declared hpb
    rw [place_removal hpa (.inl hdeclared), place_addition hpb]
    omega
  · have hlt := SchemaGraph.idxOf_lt_of_deletionOrder h.deletion hdep (hb.mem_live hpb)
    have hltA := h.idxOf_deletion_lt (ha.mem_live hpa)
    rw [place_removal hpa (.inr (List.ne_nil_of_mem hdep))]
    rcases place_removal_cases declared live orders hpb with hplace | hplace
    · omega
    · omega
  · have hlt := h.idxOf_creation_lt (ha.mem_declared hpa)
    have hbottom := SchemaGraph.dependencies_eq_nil_of_layered hlayered htable hdep
    rw [place_addition hpa, place_last hpb hgone hbottom]
    omega

/-- **No step needs itself, directly or through others.** -/
theorem Planning.acyclic (h : Planning options declared live orders decided recreated)
    (hlayered : live.Layered) : Order.Topological.Acyclic (entriesOf declared live
      ((plannedSteps orders recreated declared live decided).mergeSort Step.before)) := by
  let sorted := (plannedSteps orders recreated declared live decided).mergeSort Step.before
  have hfits : ∀ {i : Nat} {step : Step}, sorted[i]? = some step → step.Fits declared live := by
    intro i step hstep
    exact h.fits (List.mem_mergeSort.1 (List.mem_of_getElem? hstep))
  let placeAt (i : Nat) : Nat := ((sorted[i]?).map (Step.place declared live orders)).getD 0
  have hplaceAt : ∀ {i : Nat} {step : Step}, sorted[i]? = some step →
      placeAt i = step.place declared live orders := by
    intro i step hstep
    simp only [placeAt, hstep, Option.map_some, Option.getD_some]
  refine Order.Topological.not_transGen_self placeAt fun i j hneeds => ?_
  obtain ⟨entry, hentry, rfl, hbefore, -⟩ := hneeds
  obtain ⟨b, hb, hplaces⟩ := mem_entriesOf_iff.1 hentry
  rw [hplaces, mem_prerequisitePlaces_iff] at hbefore
  obtain ⟨a, ha, hab⟩ := hbefore
  rw [hplaceAt ha, hplaceAt hb]
  exact h.place_lt hlayered (hfits ha) (hfits hb) hab

end Planning

/-! ## Outcomes -/

section Outcomes

variable {options : DiffOptions} {declared live : SchemaGraph}

/-- Steps can be put in order when none of them needs itself. -/
theorem exists_orderSteps {steps : List Step} (h : Order.Topological.Acyclic
      (entriesOf declared live (steps.mergeSort Step.before))) :
    ∃ operations, orderSteps declared live steps = .ok operations := by
  obtain ⟨order, hsort⟩ := (Order.Topological.exists_sort_iff (ascending_entriesOf _ _ _)).2 h
  rw [entriesOf] at hsort
  simp only [orderSteps, hsort]
  exact ⟨_, rfl⟩

theorem error_of_decisions {e : SchemaError} (h : decisions options declared live = .error e) :
    ∃ id obstacle, e = .unsupportedChange id obstacle := by
  obtain ⟨⟨object, existing⟩, -, hcompare⟩ := Outcome.exists_of_mapM_eq_error h
  obtain ⟨obstacle, -, rfl⟩ :=
    Outcome.mapError_eq_error_iff.1 (Outcome.map_eq_error_iff.1 hcompare)
  exact ⟨_, _, rfl⟩

/-- A plan for a layered live schema fails where one of the graphs has no order, or at a change
that is not supported. -/
theorem error_of_plan (hlayered : live.Layered) {e : SchemaError}
    (h : plan options declared live [] = .error e) :
    declared.creationOrder = .error e ∨ live.deletionOrder = .error e ∨
      ∃ id obstacle, e = .unsupportedChange id obstacle := by
  rcases Outcome.bind_eq_error_iff.1 h with h | ⟨creation, hcreation, h⟩
  · exact .inl h
  rcases Outcome.bind_eq_error_iff.1 h with h | ⟨deletion, hdeletion, h⟩
  · exact .inr (.inl h)
  rcases Outcome.bind_eq_error_iff.1 h with h | ⟨decided, hdecided, h⟩
  · exact .inr (.inr (error_of_decisions h))
  rcases Outcome.bind_eq_error_iff.1 h with h | ⟨recreated, hrecreated, h⟩
  · obtain ⟨table, cause, -, -, -, -, rfl⟩ := error_of_recreatedObjects h
    exact .inr (.inr ⟨_, _, rfl⟩)
  have hplanning : Planning options declared live ⟨creation, deletion⟩ decided recreated :=
    ⟨hcreation, hdeletion, hdecided, Outcome.bind_eq_ok_iff.2 ⟨decided, hdecided, hrecreated⟩⟩
  obtain ⟨operations, hoperations⟩ := exists_orderSteps (hplanning.acyclic hlayered)
  rcases Outcome.bind_eq_error_iff.1 h with h | ⟨_, -, h⟩
  · rw [List.map_nil, List.nil_append, ← plannedSteps, hoperations] at h
    cases h
  · cases h

/-- **A comparison with a catalog meets a cycle exactly when the declared schema has one**, and
its steps never wait for each other in a ring. -/
theorem diff_cyclic_iff {snapshot : Catalog.Snapshot} (hlive : snapshot.graph = .ok live)
    (hhints : options.WithoutHints) (declared : SchemaGraph) :
    ((∃ cycle, diff options declared live = .error (.cyclicDependency cycle)) ↔
        ¬ (declared.withoutIgnored options).Acyclic) ∧
      ∀ orders decided recreated,
        Planning options (declared.withoutIgnored options) (live.withoutIgnored options) orders
          decided recreated →
        Order.Topological.Acyclic (entriesOf (declared.withoutIgnored options)
          (live.withoutIgnored options)
          ((plannedSteps orders recreated (declared.withoutIgnored options)
            (live.withoutIgnored options) decided).mergeSort Step.before)) := by
  have hlayered : (live.withoutIgnored options).Layered :=
    SchemaGraph.layered_withoutIgnored (Catalog.Snapshot.layered_of_graph hlive) options
  refine ⟨?_, fun _ _ _ hplanning => hplanning.acyclic hlayered⟩
  rw [diff_eq_plan hhints]
  constructor
  · rintro ⟨cycle, h⟩ hacyclic
    obtain ⟨creation, hcreation⟩ :=
      (SchemaGraph.exists_creationOrder_withoutIgnored_iff declared options).2 hacyclic
    obtain ⟨order, horder⟩ :=
      (SchemaGraph.exists_creationOrder_withoutIgnored_iff live options).2
        (SchemaGraph.acyclic_of_layered hlayered)
    have hdeletion : (live.withoutIgnored options).deletionOrder = .ok order.reverse := by
      rw [SchemaGraph.deletionOrder_eq_ok_iff, List.reverse_reverse]
      exact horder
    rcases error_of_plan hlayered h with h | h | ⟨_, _, h⟩
    · rw [hcreation] at h
      cases h
    · rw [hdeletion] at h
      cases h
    · cases h
  · intro hcyclic
    have hnone : ¬ ∃ order, (declared.withoutIgnored options).creationOrder = .ok order :=
      fun horder => hcyclic
        ((SchemaGraph.exists_creationOrder_withoutIgnored_iff declared options).1 horder)
    obtain ⟨cycle, hcycle⟩ := SchemaGraph.creationOrder_eq_error hnone
    refine ⟨cycle, ?_⟩
    rw [plan, hcycle]
    rfl

end Outcomes

/-! ## A table that refers to itself -/

/-- A reference from a table to itself. -/
def selfReference : Constraint :=
  ⟨"like", .foreignKey
    { columns := ["mood"], referencesTable := "entry", referencesColumns := ["mood"] }⟩

/-- A table whose key it refers to itself, with a column of an enum type. -/
def entrySnapshot : Catalog.Snapshot where
  enums := [⟨"mood", ["sad"]⟩]
  tables := [⟨"entry", none⟩]
  columns := [⟨"entry", "mood", 1, "mood", true, none, none⟩]
  constraints := [
    ⟨"entry", "key", "u", ["mood"], "UNIQUE (mood)", none, [], "", "", false, false⟩,
    ⟨"entry", "like", "f", ["mood"], "", some "entry", ["mood"], "a", "a", false, false⟩]

/-- The key goes and takes the reference along, which comes again, and the column lets go of its
type, which is dropped for good.  Two functions that name each other can not be created. -/
theorem diff_cyclic_iff_self_reference : ∃ live declared ring : SchemaGraph,
    entrySnapshot.graph = .ok live ∧ DiffOptions.WithoutHints {} ∧
    register [.table {
      name := "entry"
      columns := [{ name := "mood", type := .text }]
      constraints := [selfReference] }] = .ok declared ∧
    register [.function { name := "one", dependsOn := [⟨.function, "two"⟩] },
      .function { name := "two", dependsOn := [⟨.function, "one"⟩] }] = .ok ring ∧
    (diff {} declared live).map ChangeSet.operations = .ok [
      .alter (.table "entry") [.dropConstraint selfReference],
      .alter (.table "entry") [.dropConstraint ⟨"key", .unique ["mood"]⟩],
      .alter (.table "entry") [.alterColumnType "mood" (.enum "mood") .text],
      .drop (.enum { name := "mood", labels := ["sad"] }),
      .alter (.table "entry") [.addConstraint selfReference]] ∧
    (declared.withoutIgnored {}).Acyclic ∧
    diff {} ring live =
      .error (.cyclicDependency ["function one", "function two", "function one"]) ∧
    ¬ (ring.withoutIgnored {}).Acyclic := by
  let live : SchemaGraph := .ofNodes [
    ⟨.enum { name := "mood", labels := ["sad"] }, []⟩,
    ⟨.table {
        name := "entry"
        columns := [{ name := "mood", type := .enum "mood" }]
        constraints := [⟨"key", .unique ["mood"]⟩] }, [⟨.enum, "mood"⟩]⟩,
    ⟨.constraint ⟨"entry", selfReference⟩, [.table "entry"]⟩]
  let declared : SchemaGraph := .ofNodes [
    ⟨.table { name := "entry", columns := [{ name := "mood", type := .text }] }, []⟩,
    ⟨.constraint ⟨"entry", selfReference⟩, [.table "entry"]⟩]
  let ring : SchemaGraph := .ofNodes [
    ⟨.function { name := "one", dependsOn := [⟨.function, "two"⟩] }, [⟨.function, "two"⟩]⟩,
    ⟨.function { name := "two", dependsOn := [⟨.function, "one"⟩] }, [⟨.function, "one"⟩]⟩]
  have hlive : entrySnapshot.graph = .ok live := by decide +kernel
  have hmixture : (diff {} declared live).map ChangeSet.operations = .ok [
      .alter (.table "entry") [.dropConstraint selfReference],
      .alter (.table "entry") [.dropConstraint ⟨"key", .unique ["mood"]⟩],
      .alter (.table "entry") [.alterColumnType "mood" (.enum "mood") .text],
      .drop (.enum { name := "mood", labels := ["sad"] }),
      .alter (.table "entry") [.addConstraint selfReference]] := by
    simp only [diff, plan, orderSteps, Step.mergeSort_before]
    decide +kernel
  have hring : diff {} ring live =
      .error (.cyclicDependency ["function one", "function two", "function one"]) := by
    simp only [diff, plan, orderSteps, Step.mergeSort_before]
    decide +kernel
  have hhints : DiffOptions.WithoutHints {} := ⟨rfl, rfl⟩
  obtain ⟨hiff, -⟩ := diff_cyclic_iff hlive hhints declared
  obtain ⟨hiffRing, -⟩ := diff_cyclic_iff hlive hhints ring
  refine ⟨live, declared, ring, hlive, hhints, by decide +kernel, by decide +kernel, hmixture, ?_,
    hring, hiffRing.1 ⟨_, hring⟩⟩
  by_contra hcyclic
  obtain ⟨cycle, hcycle⟩ := hiff.2 hcyclic
  rw [hcycle] at hmixture
  cases hmixture

end SchemaPlan.Change
