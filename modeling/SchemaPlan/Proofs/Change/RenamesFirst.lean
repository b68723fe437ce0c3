import SchemaPlan.Proofs.Change.Schedule
import SchemaPlan.Proofs.Change.Shedding

/-!
# Renames come first

A plan runs its renames before anything else, in their order, and plans the rest as if there were
none.

* `orderSteps_renames_append`: steps are ordered alike with and without renames before them,
* `exists_plan_of_renames`: a plan with renames is these renames and the plan without them,
* `not_renames_of_plan`: a plan without renames renames nothing.
-/

set_option autoImplicit false

namespace SchemaPlan

/-- Whether an operation renames an object or a column. -/
def Operation.renames : Operation → Bool
  | .rename _ _ => true
  | .alter _ changes => changes.any fun
    | .renameColumn _ _ => true
    | _ => false
  | .create _ | .drop _ => false

namespace Change

/-! ## The order of steps -/

section Order

variable {declared live : SchemaGraph} {renames operations : List Operation} {steps : List Step}

/-- Renames are sorted to the front and stay in their order. -/
theorem mergeSort_renames_append (renames : List Operation) (steps : List Step) :
    (renames.map renameStep ++ steps).mergeSort Step.before =
      renames.map renameStep ++ steps.mergeSort Step.before := by
  induction renames with
  | nil => rfl
  | cons operation renames ih =>
    obtain ⟨front, back, hsorted, hrest, hfront⟩ := List.mergeSort_cons Step.before_trans
      Step.before_total (renameStep operation) (renames.map renameStep ++ steps)
    have hnil : front = [] := by
      refine List.eq_nil_iff_forall_not_mem.2 fun step hstep => ?_
      have hbefore : (renameStep operation).before step = true := by
        rw [Step.before_iff]
        rcases Nat.eq_zero_or_pos step.phase.rank with hzero | hpos
        · exact .inr ⟨hzero.symm, Nat.zero_le _⟩
        · exact .inl hpos
      have hnot := hfront step hstep
      rw [hbefore] at hnot
      cases hnot
    rw [hnil, List.nil_append] at hsorted hrest
    rw [List.map_cons, List.cons_append, hsorted, ← hrest, ih]
    rfl

/-- A step needs the steps behind the renames, whose places are moved by them. -/
theorem prerequisitePlaces_renames_append (step : Step) :
    prerequisitePlaces declared live (renames.map renameStep ++ steps) step =
      (prerequisitePlaces declared live steps step).map (renames.length + ·) := by
  have hnone : ((renames.map renameStep).zipIdx.filter fun entry =>
      entry.1.mustPrecede declared live step) = [] := by
    refine List.filter_eq_nil_iff.2 fun entry hentry => ?_
    obtain ⟨operation, -, hoperation⟩ := List.mem_map.1 (List.fst_mem_of_mem_zipIdx hentry)
    rw [← hoperation]
    exact Bool.false_ne_true
  rw [prerequisitePlaces, List.zipIdx_append, List.filter_append, hnone, List.nil_append,
    List.zipIdx_eq_map_add, List.filter_map, List.map_map, prerequisitePlaces, List.map_map]
  simp only [List.length_map, Nat.zero_add]
  rfl

theorem prerequisitePlaces_rename (operation : Operation) :
    prerequisitePlaces declared live steps (renameStep operation) = [] := by
  refine List.eq_nil_iff_forall_not_mem.2 fun place hplace => ?_
  obtain ⟨other, -, hprecede⟩ := mem_prerequisitePlaces_iff.1 hplace
  cases hphase : other.phase <;> simp [Step.mustPrecede, renameStep, hphase] at hprecede

theorem entriesOf_renames_append :
    entriesOf declared live (renames.map renameStep ++ steps) =
      ((List.range renames.length).map fun place => ⟨place, []⟩) ++
        (entriesOf declared live steps).map (.map (renames.length + ·)) := by
  have hrenames : (renames.map renameStep).zipIdx.map (fun entry =>
      (⟨entry.2, prerequisitePlaces declared live (renames.map renameStep ++ steps) entry.1⟩ :
        Order.Prerequisites Nat)) =
      (List.range renames.length).map fun place => ⟨place, []⟩ := by
    have hplaces : (renames.map renameStep).zipIdx.map Prod.snd = List.range renames.length := by
      rw [List.zipIdx_map_snd, List.length_map, List.range_eq_range']
    rw [← hplaces, List.map_map]
    refine List.map_congr_left fun entry hentry => ?_
    obtain ⟨operation, -, hoperation⟩ := List.mem_map.1 (List.fst_mem_of_mem_zipIdx hentry)
    simp only [Function.comp, ← hoperation, prerequisitePlaces_rename]
  rw [entriesOf, List.zipIdx_append, List.map_append, hrenames, List.zipIdx_eq_map_add, entriesOf,
    List.map_map, List.map_map]
  congr 1
  refine List.map_congr_left fun entry _ => ?_
  simp only [Function.comp, prerequisitePlaces_renames_append, Order.Prerequisites.map,
    List.length_map, Nat.zero_add]

/-- The operations of an order of steps. -/
theorem orderSteps_eq_ok_iff :
    orderSteps declared live steps = .ok operations ↔ ∃ order,
      Order.Topological.sort (entriesOf declared live (steps.mergeSort Step.before)) = .ok order ∧
      operations = order.filterMap fun place =>
        ((steps.mergeSort Step.before)[place]?).map Step.operation := by
  simp only [orderSteps]
  rw [← entriesOf]
  cases Order.Topological.sort (entriesOf declared live (steps.mergeSort Step.before)) with
  | ok order => simp [eq_comm]
  | error cycle => simp

/-- The operations at the places of the renames, and at moved places. -/
theorem operations_renames_append (order : List Nat) :
    ((List.range renames.length ++ order.map (renames.length + ·)).filterMap fun place =>
        ((renames.map renameStep ++ steps)[place]?).map Step.operation) =
      renames ++ order.filterMap fun place => (steps[place]?).map Step.operation := by
  have hrenames : (List.range renames.length).filterMap (fun place =>
      ((renames.map renameStep ++ steps)[place]?).map Step.operation) = renames := by
    refine Eq.trans (List.filterMap_congr fun place hplace => ?_) (filterMap_range_getElem? renames)
    have hlt : place < (renames.map renameStep).length := by
      rw [List.length_map]
      exact List.mem_range.1 hplace
    rw [List.getElem?_append_left hlt, List.getElem?_map, Option.map_map]
    exact Option.map_id'
  rw [List.filterMap_append, hrenames, List.filterMap_map]
  congr 1
  refine List.filterMap_congr fun place _ => ?_
  have hskip : (renames.map renameStep ++ steps)[renames.length + place]? = steps[place]? := by
    rw [List.getElem?_append_right (by simp), List.length_map, Nat.add_sub_cancel_left]
  exact congrArg (Option.map Step.operation) hskip

/-- **Steps are ordered alike with and without renames before them.** -/
theorem orderSteps_renames_append :
    orderSteps declared live (renames.map renameStep ++ steps) = .ok operations ↔
      ∃ rest, orderSteps declared live steps = .ok rest ∧ operations = renames ++ rest := by
  have hfree : ∀ entry ∈ (List.range renames.length).map (fun place =>
      (⟨place, []⟩ : Order.Prerequisites Nat)), entry.before = [] :=
    List.forall_mem_map.2 fun _ _ => rfl
  have hinj : Function.Injective (renames.length + ·) := fun _ _ => Nat.add_left_cancel
  have hrest := ascending_entriesOf declared live (steps.mergeSort Step.before)
  have hall := ascending_entriesOf declared live
    (renames.map renameStep ++ steps.mergeSort Step.before)
  rw [entriesOf_renames_append] at hall
  simp only [orderSteps_eq_ok_iff, mergeSort_renames_append, entriesOf_renames_append,
    Order.Topological.sort_append_of_free hinj hrest hall hfree]
  have hkeys : ((List.range renames.length).map fun place =>
      (⟨place, []⟩ : Order.Prerequisites Nat)).map Order.Prerequisites.key =
        List.range renames.length := by
    rw [List.map_map]
    exact List.map_id' _
  rw [hkeys]
  constructor
  · rintro ⟨_, ⟨order, hsort, rfl⟩, rfl⟩
    exact ⟨_, ⟨order, hsort, rfl⟩, operations_renames_append order⟩
  · rintro ⟨_, ⟨order, hsort, rfl⟩, rfl⟩
    exact ⟨_, ⟨order, hsort, rfl⟩, (operations_renames_append order).symm⟩

end Order

/-! ## Plans -/

section Plans

variable {options : DiffOptions} {declared live : SchemaGraph} {renames : List Operation}
  {changes : ChangeSet}

/-- **A plan with renames is these renames and the plan without them.** -/
theorem exists_plan_of_renames (h : plan options declared live renames = .ok changes) :
    ∃ rest, changes.operations = renames ++ rest ∧
      plan options declared live [] = .ok ⟨rest, changes.candidates⟩ := by
  obtain ⟨creation, hcreation, h⟩ := Outcome.bind_eq_ok_iff.1 h
  obtain ⟨deletion, hdeletion, h⟩ := Outcome.bind_eq_ok_iff.1 h
  obtain ⟨decided, hdecided, h⟩ := Outcome.bind_eq_ok_iff.1 h
  obtain ⟨recreated, hrecreated, h⟩ := Outcome.bind_eq_ok_iff.1 h
  obtain ⟨operations, hoperations, h⟩ := Outcome.bind_eq_ok_iff.1 h
  cases h
  simp only [List.append_assoc] at hoperations
  obtain ⟨rest, hrest, rfl⟩ := orderSteps_renames_append.1 hoperations
  refine ⟨rest, rfl, ?_⟩
  refine Outcome.bind_eq_ok_iff.2 ⟨creation, hcreation, ?_⟩
  refine Outcome.bind_eq_ok_iff.2 ⟨deletion, hdeletion, ?_⟩
  refine Outcome.bind_eq_ok_iff.2 ⟨decided, hdecided, ?_⟩
  refine Outcome.bind_eq_ok_iff.2 ⟨recreated, hrecreated, ?_⟩
  refine Outcome.bind_eq_ok_iff.2 ⟨rest, ?_, rfl⟩
  rwa [List.map_nil, List.nil_append, List.append_assoc]

theorem not_renames_removal (orders : Orders) (object : SchemaObject) :
    (removal orders object).operation.renames = false := by
  cases object <;> rfl

theorem not_renames_addition (orders : Orders) (object : SchemaObject) :
    (addition orders object).operation.renames = false := by
  cases object <;> rfl

theorem not_renames_alter {id : ObjectId} {parts : List AlterChange}
    (h : ∀ part ∈ parts, part.removes = true ∨ part.brings = true) :
    (Operation.alter id parts).renames = false := by
  refine List.any_eq_false.2 fun part hpart => ?_
  cases part with
  | renameColumn source target => exact (h _ hpart).elim nofun nofun
  | _ => exact Bool.false_ne_true

/-- The steps of a decision rename nothing. -/
theorem not_renames_changeSteps {orders : Orders} {recreated : List ObjectId} {decision : Decision}
    (h : compareObjects options decision.declared decision.live = .ok decision.verdict)
    {update : Update} (hupdate : decision.change? recreated = some update) {step : Step}
    (hstep : step ∈ changeSteps orders decision.declared decision.live update) :
    step.operation.renames = false := by
  cases update with
  | recreate =>
    simp only [changeSteps, List.mem_cons, List.not_mem_nil, or_false] at hstep
    rcases hstep with rfl | rfl
    · exact not_renames_removal orders decision.live
    · exact not_renames_addition orders decision.declared
  | alter removals additions =>
    obtain ⟨hremovals, hadditions⟩ := parts_of_alter h (change?_eq_alter hupdate)
    simp only [changeSteps, List.mem_append] at hstep
    rcases hstep with hstep | hstep
    · split at hstep
      · cases hstep
      · rw [List.mem_singleton.1 hstep]
        exact not_renames_alter fun part hpart => .inl (hremovals part hpart)
    · split at hstep
      · cases hstep
      · rw [List.mem_singleton.1 hstep]
        exact not_renames_alter fun part hpart => .inr (hadditions part hpart)

/-- **A plan without renames renames nothing.** -/
theorem not_renames_of_plan (h : plan options declared live [] = .ok changes) :
    ∀ operation ∈ changes.operations, operation.renames = false := by
  obtain ⟨orders, decided, recreated, -, -, hdecided, -, horder⟩ := plan_eq_ok h
  obtain ⟨schedule, hoperations, hperm, -, -⟩ := orderSteps_spec horder
  rw [hoperations]
  refine List.forall_mem_map.2 fun step hstep => ?_
  have hplanned := hperm.mem_iff.1 hstep
  simp only [plannedSteps, List.mem_append, List.mem_map] at hplanned
  rcases hplanned with (⟨object, -, rfl⟩ | ⟨object, -, rfl⟩) | hdecision
  · exact not_renames_removal orders object
  · exact not_renames_addition orders object
  · obtain ⟨decision, hdecision, hstep⟩ := List.mem_flatMap.1 hdecision
    obtain ⟨update, hupdate, hstep⟩ := List.mem_flatMap.1 hstep
    exact not_renames_changeSteps ((decisions_spec hdecided).2 decision hdecision)
      (Option.mem_toList.1 hupdate) hstep

end Plans

end Change

end SchemaPlan
