import SchemaPlan.Proofs.Change.Propagation
import SchemaPlan.Proofs.Change.Schedule

/-!
# What a schedule does to an object

The deeds for an object are what the steps with this subject do, in their order.  They depend on
the two definitions of the object and on whether it is created again.

* `deeds_of_live_only`, `deeds_of_declared_only`: an object on one side is dropped or created.
* `deeds_of_recreated`, `deeds_of_altered`: one on both sides is replaced or altered.
-/

set_option autoImplicit false

namespace SchemaPlan.Change

/-- What the steps of a schedule do to an object, in their order. -/
def deeds (schedule : List Step) (id : ObjectId) : List (Phase × Operation) :=
  (schedule.filter fun step => step.subject == id).map fun step => (step.phase, step.operation)

/-- An alteration in two parts, either of which may be missing. -/
def alterations (id : ObjectId) (removals additions : List AlterChange) :
    List (Phase × Operation) :=
  (if removals.isEmpty then [] else [(.removal, .alter id removals)]) ++
    (if additions.isEmpty then [] else [(.addition, .alter id additions)])

theorem mem_deeds_iff {schedule : List Step} {id : ObjectId} {phase : Phase}
    {operation : Operation} : (phase, operation) ∈ deeds schedule id ↔
      ∃ step ∈ schedule, step.subject = id ∧ step.phase = phase ∧ step.operation = operation := by
  simp only [deeds, List.mem_map, List.mem_filter, beq_iff_eq, Prod.mk.injEq, and_assoc]

theorem mem_alterations_iff {id : ObjectId} {removals additions : List AlterChange}
    {phase : Phase} {operation : Operation} :
    (phase, operation) ∈ alterations id removals additions ↔
      (phase = .removal ∧ removals ≠ [] ∧ operation = .alter id removals) ∨
        (phase = .addition ∧ additions ≠ [] ∧ operation = .alter id additions) := by
  rw [alterations]
  cases removals <;> cases additions <;> simp

section Deeds

variable {options : DiffOptions} {declared live : SchemaGraph} {changes : ChangeSet}
  {orders : Orders} {recreated : List ObjectId} {schedule : List Step} {id : ObjectId}

theorem IsSchedule.deeds_eq
    (h : IsSchedule options declared live changes orders recreated schedule) (id : ObjectId) :
    deeds schedule id = (subjectSteps options orders recreated declared live id).map
      fun step => (step.phase, step.operation) := by
  rw [deeds, h.steps]

/-- A schedule is about objects that are declared or live. -/
theorem IsSchedule.subject_mem
    (h : IsSchedule options declared live changes orders recreated schedule) {step : Step}
    (hstep : step ∈ schedule) : step.subject ∈ declared.ids ∨ step.subject ∈ live.ids := by
  have hfits := h.fits hstep
  cases hphase : step.phase with
  | rename =>
    rw [Step.Fits, hphase] at hfits
    exact hfits.elim
  | removal => exact .inr (hfits.mem_live hphase)
  | addition => exact .inl (hfits.mem_declared hphase)

/-- What decisions mark is declared and live. -/
theorem shared_of_decided {decided : List Decision}
    (h : decisions options declared live = .ok decided) (p : Decision → Bool) :
    ∀ id ∈ (decided.filter p).map fun d => d.declared.id, id ∈ declared.ids ∧ id ∈ live.ids := by
  intro id hid
  obtain ⟨decision, hdecision, rfl⟩ := List.mem_map.1 hid
  obtain ⟨hobject, hexisting, -⟩ := decision_spec h (List.mem_filter.1 hdecision).1
  exact ⟨SchemaGraph.mem_ids_iff_exists_get?.2 ⟨_, hobject⟩,
    SchemaGraph.mem_ids_iff_exists_get?.2 ⟨_, hexisting⟩⟩

/-- What is created again is declared and live. -/
theorem shared_of_recreatedSet (h : recreatedSet options declared live = .ok recreated) :
    ∀ id ∈ recreated, id ∈ declared.ids ∧ id ∈ live.ids := by
  obtain ⟨decided, hdecided, h⟩ := Outcome.bind_eq_ok_iff.1 h
  exact (shared_of_recreatedObjects (shared_of_decided hdecided _) h).2

/-- What can not be altered is created again. -/
theorem recreate_mem_recreatedSet (h : recreatedSet options declared live = .ok recreated)
    {object existing : SchemaObject} {verdict : Verdict} (hobject : declared.get? id = some object)
    (hexisting : live.get? id = some existing)
    (hverdict : compareObjects options object existing = .ok verdict)
    (hchange : verdict.change = some .recreate) : id ∈ recreated := by
  obtain ⟨decided, hdecided, h⟩ := Outcome.bind_eq_ok_iff.1 h
  obtain ⟨verdict', hverdict', hmem⟩ := exists_mem_decided hdecided hobject hexisting
  rw [hverdict, Except.ok.injEq] at hverdict'
  subst hverdict'
  obtain ⟨-, rfl⟩ := SchemaGraph.get?_eq_some_iff.1 hobject
  refine (shared_of_recreatedObjects (shared_of_decided hdecided _) h).1 ?_
  refine List.mem_map.2 ⟨_, List.mem_filter.2 ⟨hmem, ?_⟩, rfl⟩
  simp only [hchange, beq_self_eq_true]

theorem deeds_of_neither
    (h : IsSchedule options declared live changes orders recreated schedule)
    (hdeclared : declared.get? id = none) (hlive : live.get? id = none) :
    deeds schedule id = [] := by
  rw [h.deeds_eq, subjectSteps, hdeclared, hlive]
  rfl

theorem deeds_of_live_only
    (h : IsSchedule options declared live changes orders recreated schedule)
    {existing : SchemaObject} (hexisting : live.get? id = some existing)
    (hnone : declared.get? id = none) :
    deeds schedule id = [(.removal, dropOperation existing)] := by
  rw [h.deeds_eq, subjectSteps, hnone, hexisting, List.map_singleton, removal_operation]
  rfl

theorem deeds_of_declared_only
    (h : IsSchedule options declared live changes orders recreated schedule)
    {object : SchemaObject} (hobject : declared.get? id = some object)
    (hnone : live.get? id = none) :
    deeds schedule id = [(.addition, createOperation object)] := by
  rw [h.deeds_eq, subjectSteps, hnone, hobject, List.map_singleton, addition_operation]
  rfl

/-- The deeds for an object that is declared and live, by the change that is chosen for it. -/
theorem deeds_of_shared
    (h : IsSchedule options declared live changes orders recreated schedule)
    {object existing : SchemaObject} {verdict : Verdict}
    (hobject : declared.get? id = some object) (hexisting : live.get? id = some existing)
    (hverdict : compareObjects options object existing = .ok verdict) :
    deeds schedule id =
      match (Decision.mk object existing verdict).change? recreated with
      | none => []
      | some .recreate =>
        [(.removal, dropOperation existing), (.addition, createOperation object)]
      | some (.alter removals additions) => alterations id removals additions := by
  have hid := (SchemaGraph.get?_eq_some_iff.1 hobject).2
  rw [h.deeds_eq, subjectSteps, hobject, hexisting]
  simp only [hverdict]
  cases (Decision.mk object existing verdict).change? recreated with
  | none => rfl
  | some update =>
    rw [Option.toList_some, List.flatMap_singleton]
    cases update with
    | recreate =>
      rw [changeSteps, List.map_cons, List.map_singleton, removal_operation, addition_operation]
      rfl
    | alter removals additions =>
      simp only [changeSteps, alterations, hid]
      cases removals.isEmpty <;> cases additions.isEmpty <;> rfl

/-- An object that is declared and live has been compared. -/
theorem exists_verdict (h : recreatedSet options declared live = .ok recreated)
    {object existing : SchemaObject} (hobject : declared.get? id = some object)
    (hexisting : live.get? id = some existing) :
    ∃ verdict, compareObjects options object existing = .ok verdict := by
  obtain ⟨decided, hdecided, -⟩ := Outcome.bind_eq_ok_iff.1 h
  obtain ⟨verdict, hverdict, -⟩ := exists_mem_decided hdecided hobject hexisting
  exact ⟨verdict, hverdict⟩

theorem change?_of_mem {object existing : SchemaObject} {verdict : Verdict}
    (h : object.id ∈ recreated) :
    (Decision.mk object existing verdict).change? recreated = some .recreate :=
  if_pos (List.contains_iff_mem.2 h)

theorem change?_of_not_mem {object existing : SchemaObject} {verdict : Verdict}
    (h : object.id ∉ recreated) :
    (Decision.mk object existing verdict).change? recreated = verdict.change :=
  if_neg fun hmem => h (List.contains_iff_mem.1 hmem)

/-- What is created again is dropped as it is live and created as it is declared. -/
theorem deeds_of_recreated
    (h : IsSchedule options declared live changes orders recreated schedule)
    (hid : id ∈ recreated) : ∃ object existing, declared.get? id = some object ∧
      live.get? id = some existing ∧ deeds schedule id =
        [(.removal, dropOperation existing), (.addition, createOperation object)] := by
  obtain ⟨hmem, hmem'⟩ := shared_of_recreatedSet h.recreation id hid
  obtain ⟨object, hobject⟩ := SchemaGraph.mem_ids_iff_exists_get?.1 hmem
  obtain ⟨existing, hexisting⟩ := SchemaGraph.mem_ids_iff_exists_get?.1 hmem'
  obtain ⟨verdict, hverdict⟩ := exists_verdict h.recreation hobject hexisting
  have hobjectId := (SchemaGraph.get?_eq_some_iff.1 hobject).2
  refine ⟨object, existing, hobject, hexisting, ?_⟩
  rw [deeds_of_shared h hobject hexisting hverdict, change?_of_mem (hobjectId ▸ hid)]

/-- What is not created again is altered as its comparison says. -/
theorem deeds_of_altered
    (h : IsSchedule options declared live changes orders recreated schedule)
    {object existing : SchemaObject} (hobject : declared.get? id = some object)
    (hexisting : live.get? id = some existing) (hid : id ∉ recreated) :
    ∃ verdict removals additions, compareObjects options object existing = .ok verdict ∧
      verdict.Alters removals additions ∧
      deeds schedule id = alterations id removals additions := by
  have hobjectId := (SchemaGraph.get?_eq_some_iff.1 hobject).2
  obtain ⟨verdict, hverdict⟩ := exists_verdict h.recreation hobject hexisting
  rw [deeds_of_shared h hobject hexisting hverdict, change?_of_not_mem (hobjectId ▸ hid)]
  cases hchange : verdict.change with
  | none => exact ⟨verdict, [], [], hverdict, .inr ⟨hchange, rfl, rfl⟩, rfl⟩
  | some update =>
    cases update with
    | recreate =>
      exact absurd (recreate_mem_recreatedSet h.recreation hobject hexisting hverdict hchange) hid
    | alter removals additions =>
      exact ⟨verdict, removals, additions, hverdict, .inl hchange, rfl⟩

end Deeds

end SchemaPlan.Change
