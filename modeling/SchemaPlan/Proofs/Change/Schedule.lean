import Mathlib.Data.List.Permutation
import SchemaPlan.Change.Plan
import SchemaPlan.Proofs.Change.Comparison
import SchemaPlan.Proofs.Graph.CreationOrder

/-!
# Schedules

The operations of a change set are those of planned steps, put into an order.  Every object has
the steps that its own decision asks for (`subjectSteps`), whatever happens to other objects.

* `orderSteps_spec`: ordering steps keeps each of them, and none stands before one that it needs.
* `orderSteps_of_ordered`: steps that are in order already stay in it.
* `exists_schedule`: every change set has a schedule (`IsSchedule`), object by object.
-/

set_option autoImplicit false

namespace SchemaPlan

/-- No rename is confirmed. -/
def DiffOptions.WithoutHints (options : DiffOptions) : Prop :=
  options.renames = [] ∧ options.columnRenames = []

namespace Change

/-! ## Operations on whole objects -/

/-- The operation that drops an object; a foreign key is dropped from its table. -/
def dropOperation : SchemaObject → Operation
  | .constraint c => .alter (.table c.table) [.dropConstraint c.constraint]
  | object => .drop object

/-- The operation that creates an object; a foreign key is added to its table. -/
def createOperation : SchemaObject → Operation
  | .constraint c => .alter (.table c.table) [.addConstraint c.constraint]
  | object => .create object

theorem removal_operation (orders : Orders) (object : SchemaObject) :
    (removal orders object).operation = dropOperation object := by
  cases object <;> rfl

theorem addition_operation (orders : Orders) (object : SchemaObject) :
    (addition orders object).operation = createOperation object := by
  cases object <;> rfl

/-! ## Ordering steps -/

section OrderSteps

variable {declared live : SchemaGraph} {steps : List Step}

theorem mem_prerequisitePlaces_iff {step : Step} {place : Nat} :
    place ∈ prerequisitePlaces declared live steps step ↔
      ∃ other, steps[place]? = some other ∧ other.mustPrecede declared live step = true := by
  rw [prerequisitePlaces]
  simp only [List.mem_map, List.mem_filter, Prod.exists, List.mem_zipIdx_iff_getElem?]
  constructor
  · rintro ⟨other, _, ⟨hother, hprecede⟩, rfl⟩
    exact ⟨other, hother, hprecede⟩
  · rintro ⟨other, hother, hprecede⟩
    exact ⟨other, place, ⟨hother, hprecede⟩, rfl⟩

/-- The places of steps with the places of the steps that they need. -/
def entriesOf (declared live : SchemaGraph) (steps : List Step) :
    List (Order.Prerequisites Nat) :=
  steps.zipIdx.map fun (step, place) => ⟨place, prerequisitePlaces declared live steps step⟩

theorem keys_entriesOf (declared live : SchemaGraph) (steps : List Step) :
    (entriesOf declared live steps).map Order.Prerequisites.key = List.range steps.length := by
  rw [entriesOf, List.map_map, List.range_eq_range', ← List.zipIdx_map_snd 0 steps]
  rfl

theorem ascending_entriesOf (declared live : SchemaGraph) (steps : List Step) :
    Order.Ascending Order.Prerequisites.key (entriesOf declared live steps) := by
  have hrange : (List.range steps.length).Pairwise fun a b => compare a b = .lt :=
    List.pairwise_lt_range.imp Nat.compare_eq_lt.2
  rw [← keys_entriesOf declared live steps] at hrange
  exact List.pairwise_map.1 hrange

theorem mem_entriesOf_iff {entry : Order.Prerequisites Nat} :
    entry ∈ entriesOf declared live steps ↔ ∃ step, steps[entry.key]? = some step ∧
      entry.before = prerequisitePlaces declared live steps step := by
  rw [entriesOf]
  simp only [List.mem_map, Prod.exists, List.mem_zipIdx_iff_getElem?]
  constructor
  · rintro ⟨step, place, hstep, rfl⟩
    exact ⟨step, hstep, rfl⟩
  · rintro ⟨step, hstep, hbefore⟩
    exact ⟨step, entry.key, hstep, by rw [← hbefore]⟩

/-- The operations at the listed places. -/
theorem operations_at (steps : List Step) (places : List Nat) :
    (places.filterMap fun place => (steps[place]?).map Step.operation) =
      (places.filterMap fun place => steps[place]?).map Step.operation := by
  rw [List.map_filterMap]

theorem filterMap_range_getElem? {α : Type} (xs : List α) :
    (List.range xs.length).filterMap (fun place => xs[place]?) = xs := by
  refine List.ext_getElem? fun i => ?_
  have hall : (List.range xs.length).filterMap (fun place => xs[place]?) =
      (List.finRange xs.length).map fun i => xs[i] := by
    rw [← List.map_coe_finRange_eq_range, List.filterMap_map]
    rw [← List.filterMap_eq_map]
    refine List.filterMap_congr fun i _ => ?_
    simp
  rw [hall]
  simp

/-- **Ordering steps keeps each of them, and none stands before one that it needs.** -/
theorem orderSteps_spec {operations : List Operation}
    (h : orderSteps declared live steps = .ok operations) :
    ∃ schedule : List Step, operations = schedule.map Step.operation ∧ schedule.Perm steps ∧
      (∀ step ∈ schedule, step.mustPrecede declared live step = false) ∧
      schedule.Pairwise fun a b => b.mustPrecede declared live a = false := by
  let sorted := steps.mergeSort Step.before
  have hkeys := keys_entriesOf declared live sorted
  obtain ⟨order, hsort, hoperations⟩ : ∃ order,
      Order.Topological.sort (entriesOf declared live sorted) = .ok order ∧
        operations = (order.filterMap fun place => sorted[place]?).map Step.operation := by
    simp only [orderSteps] at h
    split at h
    · rename_i order hsort
      cases h
      exact ⟨order, hsort, operations_at sorted order⟩
    · cases h
  obtain ⟨hperm, hself, hpairs⟩ :=
    Order.Topological.sort_spec (ascending_entriesOf declared live sorted) hsort
  rw [hkeys] at hperm
  refine ⟨_, hoperations, ?_, fun step hstep => ?_, ?_⟩
  · have hplaces := hperm.filterMap fun place => sorted[place]?
    rw [filterMap_range_getElem?] at hplaces
    exact hplaces.trans (List.mergeSort_perm steps Step.before)
  · obtain ⟨place, -, hplace⟩ := List.mem_filterMap.1 hstep
    have hnot := hself ⟨place, prerequisitePlaces declared live sorted step⟩
      (mem_entriesOf_iff.2 ⟨step, hplace, rfl⟩)
    rw [mem_prerequisitePlaces_iff] at hnot
    exact Bool.eq_false_iff.2 fun hprecede => hnot ⟨step, hplace, hprecede⟩
  · refine List.pairwise_filterMap.2 (hpairs.imp fun {a b} hab x hx y hy => ?_)
    have hnot := hab ⟨a, prerequisitePlaces declared live sorted x⟩
      (mem_entriesOf_iff.2 ⟨x, hx, rfl⟩) rfl
    rw [mem_prerequisitePlaces_iff] at hnot
    exact Bool.eq_false_iff.2 fun hprecede => hnot ⟨y, hy, hprecede⟩

theorem Step.before_iff {a b : Step} : a.before b = true ↔
    a.phase.rank < b.phase.rank ∨ a.phase.rank = b.phase.rank ∧ a.position ≤ b.position := by
  rw [Step.before, Ordering.isLE_then_iff_or, Nat.isLE_compare, Nat.compare_eq_lt,
    Nat.compare_eq_eq]

theorem Step.before_trans (a b c : Step) (hab : a.before b = true) (hbc : b.before c = true) :
    a.before c = true := by
  rw [Step.before_iff] at hab hbc ⊢
  omega

theorem Step.before_total (a b : Step) : (a.before b || b.before a) = true := by
  simp only [Bool.or_eq_true, Step.before_iff]
  omega

/-- Sorting by inserting gives the same order, and can be run. -/
theorem Step.mergeSort_before (steps : List Step) :
    steps.mergeSort Step.before = steps.insertionSort fun a b => a.before b = true :=
  Order.mergeSort_eq_insertionSort Step.before_trans Step.before_total steps

/-- Steps none of which goes before an earlier one are sorted into this order. -/
theorem mergeSort_of_places {steps sorted : List Step} (hperm : steps.Perm sorted)
    (hplaces : sorted.Pairwise fun a b => b.before a = false) :
    steps.mergeSort Step.before = sorted := by
  have hbefore : sorted.Pairwise fun a b => a.before b = true := by
    refine hplaces.imp fun {a b} hba => ?_
    have hab := Step.before_total a b
    rw [hba, Bool.or_false] at hab
    exact hab
  have hsorted := (List.mergeSort_perm steps Step.before).trans hperm
  refine List.Perm.eq_of_pairwise (fun a b ha hb hab hba => ?_)
    (List.pairwise_mergeSort Step.before_trans Step.before_total steps) hbefore hsorted
  obtain ⟨i, hi, rfl⟩ := List.getElem_of_mem (hsorted.mem_iff.1 ha)
  obtain ⟨j, hj, rfl⟩ := List.getElem_of_mem hb
  rcases Nat.lt_trichotomy i j with hlt | rfl | hgt
  · rw [List.pairwise_iff_getElem.1 hplaces i j hi hj hlt] at hba
    cases hba
  · rfl
  · rw [List.pairwise_iff_getElem.1 hplaces j i hj hi hgt] at hab
    cases hab

/-- Steps are run as they are sorted when this respects what they need. -/
theorem orderSteps_of_sorted {steps sorted : List Step}
    (hsorted : steps.mergeSort Step.before = sorted)
    (hself : ∀ step ∈ sorted, step.mustPrecede declared live step = false)
    (hpairs : sorted.Pairwise fun a b => b.mustPrecede declared live a = false) :
    orderSteps declared live steps = .ok (sorted.map Step.operation) := by
  have hsort : Order.Topological.sort (entriesOf declared live sorted) =
      .ok ((entriesOf declared live sorted).map Order.Prerequisites.key) := by
    refine Order.Topological.sort_of_ordered (ascending_entriesOf declared live sorted)
      (fun entry hentry hbefore => ?_) ?_
    · obtain ⟨step, hstep, hplaces⟩ := mem_entriesOf_iff.1 hentry
      rw [hplaces, mem_prerequisitePlaces_iff, hstep] at hbefore
      obtain ⟨other, heq, hprecede⟩ := hbefore
      cases heq
      rw [hself step (List.mem_of_getElem? hstep)] at hprecede
      cases hprecede
    · refine List.pairwise_iff_getElem.2 fun i j hi hj hij hbefore => ?_
      simp only [entriesOf, List.length_map, List.length_zipIdx] at hi hj
      simp only [entriesOf, List.getElem_map, List.getElem_zipIdx, Nat.zero_add,
        mem_prerequisitePlaces_iff, List.getElem?_eq_getElem hj, Option.some.injEq,
        exists_eq_left'] at hbefore
      rw [List.pairwise_iff_getElem.1 hpairs i j hi hj hij] at hbefore
      cases hbefore
  rw [keys_entriesOf] at hsort
  simp only [orderSteps, hsorted]
  rw [← entriesOf, hsort]
  simp only [operations_at, filterMap_range_getElem?]

/-- Steps in an order that respects their places and what they need are run in this order. -/
theorem orderSteps_of_ordered {steps sorted : List Step} (hperm : steps.Perm sorted)
    (hplaces : sorted.Pairwise fun a b => b.before a = false)
    (hself : ∀ step ∈ sorted, step.mustPrecede declared live step = false)
    (hpairs : sorted.Pairwise fun a b => b.mustPrecede declared live a = false) :
    orderSteps declared live steps = .ok (sorted.map Step.operation) :=
  orderSteps_of_sorted (mergeSort_of_places hperm hplaces) hself hpairs

/-- The step of a rename. -/
def renameStep (operation : Operation) : Step :=
  ⟨.rename, 0, operation.target, operation⟩

/-- Renames are run in their order. -/
theorem orderSteps_renames (renames : List Operation) :
    orderSteps declared live (renames.map renameStep) = .ok renames := by
  have hsorted : (renames.map renameStep).mergeSort Step.before = renames.map renameStep := by
    refine List.mergeSort_of_pairwise (List.pairwise_map.2 ?_)
    exact List.pairwise_of_forall fun _ _ => rfl
  have hself : ∀ step ∈ renames.map renameStep, step.mustPrecede declared live step = false := by
    intro step hstep
    obtain ⟨_, -, rfl⟩ := List.mem_map.1 hstep
    rfl
  rw [orderSteps_of_sorted hsorted hself, List.map_map]
  · exact congrArg Except.ok (List.map_id' renames)
  · exact List.pairwise_map.2 (List.pairwise_of_forall fun _ _ => rfl)

end OrderSteps

/-! ## Decisions -/

section Decisions

variable {options : DiffOptions} {declared live : SchemaGraph} {decided : List Decision}

/-- The objects that are declared and live, with both definitions. -/
def sharedPairs (declared live : SchemaGraph) : List (SchemaObject × SchemaObject) :=
  declared.objects.filterMap fun object =>
    (live.get? object.id).map fun existing => (object, existing)

theorem decisions_spec (h : decisions options declared live = .ok decided) :
    (decided.map fun decision => (decision.declared, decision.live)) =
        sharedPairs declared live ∧
      ∀ decision ∈ decided,
        compareObjects options decision.declared decision.live = .ok decision.verdict := by
  have hall := Outcome.mapM_eq_ok_iff.1 h
  rw [← sharedPairs] at hall
  clear h
  generalize sharedPairs declared live = pairs at hall
  induction hall with
  | nil => exact ⟨rfl, fun _ hd => absurd hd List.not_mem_nil⟩
  | cons hhead _ ih =>
    obtain ⟨verdict, hverdict, rfl⟩ := Outcome.map_eq_ok_iff.1 hhead
    refine ⟨by rw [List.map_cons, ih.1], fun decision hdecision => ?_⟩
    rcases List.mem_cons.1 hdecision with rfl | hdecision
    · exact hverdict
    · exact ih.2 decision hdecision

/-- The objects with an identity that are declared and live: at most one. -/
theorem filter_sharedPairs (declared live : SchemaGraph) (id : ObjectId) :
    (sharedPairs declared live).filter (fun pair => pair.1.id == id) =
      match declared.get? id, live.get? id with
      | some object, some existing => [(object, existing)]
      | _, _ => [] := by
  have hfilter : (sharedPairs declared live).filter (fun pair => pair.1.id == id) =
      (declared.objects.filter fun object => object.id == id).filterMap fun object =>
        (live.get? object.id).map fun existing => (object, existing) := by
    rw [sharedPairs, List.filter_filterMap, List.filterMap_filter]
    refine List.filterMap_congr fun object _ => ?_
    cases live.get? object.id with
    | none => simp
    | some existing => simp [Option.filter]
  rw [hfilter, SchemaGraph.filter_objects]
  cases hd : declared.get? id with
  | none => rfl
  | some object =>
    rw [Option.toList_some, List.filterMap_cons, (SchemaGraph.get?_eq_some_iff.1 hd).2]
    cases live.get? id <;> rfl

/-- The identities of the objects that are dropped and created again. -/
def recreatedSet (options : DiffOptions) (declared live : SchemaGraph) :
    Except SchemaError (List ObjectId) := do
  let decided ← decisions options declared live
  let recreate := (decided.filter fun d => d.verdict.change == some .recreate).map fun d =>
    d.declared.id
  let keyless := (decided.filter fun d => d.verdict.dropsKey).map fun d => d.declared.id.name
  recreatedObjects declared live recreate keyless

/-- The steps of an object: one for an object on one side, those of its decision for one on
both. -/
def subjectSteps (options : DiffOptions) (orders : Orders) (recreated : List ObjectId)
    (declared live : SchemaGraph) (id : ObjectId) : List Step :=
  match declared.get? id, live.get? id with
  | some object, some existing =>
    match compareObjects options object existing with
    | .ok verdict =>
      ((Decision.mk object existing verdict).change? recreated).toList.flatMap
        (changeSteps orders object existing)
    | .error _ => []
  | some object, none => [addition orders object]
  | none, some existing => [removal orders existing]
  | none, none => []

/-- All steps, before they are put in order. -/
def plannedSteps (orders : Orders) (recreated : List ObjectId) (declared live : SchemaGraph)
    (decided : List Decision) : List Step :=
  (objectsNotIn live declared).map (removal orders) ++
    (objectsNotIn declared live).map (addition orders) ++ decisionSteps orders recreated decided

theorem filter_objectsNotIn (graph other : SchemaGraph) (id : ObjectId) :
    (objectsNotIn graph other).filter (fun object => object.id == id) =
      if other.contains id then [] else (graph.get? id).toList := by
  rw [objectsNotIn, List.filter_comm, SchemaGraph.filter_objects]
  cases h : graph.get? id with
  | none => simp
  | some object =>
    have hid := (SchemaGraph.get?_eq_some_iff.1 h).2
    cases hc : other.contains id <;> simp [hid, hc]

theorem filter_map_subject {f : SchemaObject → Step} (hf : ∀ object, (f object).subject = object.id)
    (objects : List SchemaObject) (id : ObjectId) :
    (objects.map f).filter (fun step => step.subject == id) =
      (objects.filter fun object => object.id == id).map f := by
  rw [List.filter_map]
  congr 2
  funext object
  simp only [Function.comp, hf]

theorem subject_of_mem_changeSteps {orders : Orders} {object existing : SchemaObject}
    {update : Update} (hid : existing.id = object.id) {step : Step}
    (h : step ∈ changeSteps orders object existing update) : step.subject = object.id := by
  cases update with
  | recreate =>
    simp only [changeSteps, List.mem_cons, List.not_mem_nil, or_false] at h
    rcases h with rfl | rfl
    · exact hid
    · rfl
  | alter removals additions =>
    simp only [changeSteps, List.mem_append] at h
    rcases h with h | h
    · split at h
      · cases h
      · rw [List.mem_singleton.1 h]
    · split at h
      · cases h
      · rw [List.mem_singleton.1 h]

/-- Of steps grouped by their subject those of one subject. -/
theorem filter_flatMap_subject {α : Type} {xs : List α} {f : α → List Step}
    {subject : α → ObjectId} (hf : ∀ x ∈ xs, ∀ step ∈ f x, step.subject = subject x)
    (id : ObjectId) :
    (xs.flatMap f).filter (fun step => step.subject == id) =
      (xs.filter fun x => subject x == id).flatMap f := by
  induction xs with
  | nil => rfl
  | cons x xs ih =>
    have hx := hf x List.mem_cons_self
    rw [List.flatMap_cons, List.filter_append,
      ih fun y hy => hf y (List.mem_cons_of_mem _ hy), List.filter_cons]
    split
    · rename_i hid
      rw [List.flatMap_cons]
      congr 1
      exact List.filter_eq_self.2 fun step hstep => by rw [hx step hstep, hid]
    · rename_i hid
      rw [List.filter_eq_nil_iff.2 fun step hstep => by rw [hx step hstep]; exact hid,
        List.nil_append]

/-- A decision compares the two definitions of an object. -/
theorem decision_spec (h : decisions options declared live = .ok decided)
    {decision : Decision} (hd : decision ∈ decided) :
    declared.get? decision.declared.id = some decision.declared ∧
      live.get? decision.declared.id = some decision.live ∧
      compareObjects options decision.declared decision.live = .ok decision.verdict := by
  obtain ⟨hpairs, hverdicts⟩ := decisions_spec h
  have hpair : (decision.declared, decision.live) ∈ sharedPairs declared live := by
    rw [← hpairs]
    exact List.mem_map_of_mem hd
  obtain ⟨object, hobject, heq⟩ := List.mem_filterMap.1 hpair
  obtain ⟨existing, hexisting, heq⟩ := Option.map_eq_some_iff.1 heq
  cases heq
  exact ⟨SchemaGraph.get?_of_mem hobject, hexisting, hverdicts decision hd⟩

/-- Every object that is declared and live is compared. -/
theorem exists_decision (h : decisions options declared live = .ok decided) {id : ObjectId}
    {object existing : SchemaObject} (hobject : declared.get? id = some object)
    (hexisting : live.get? id = some existing) :
    ∃ verdict, compareObjects options object existing = .ok verdict ∧
      decided.filter (fun decision => decision.declared.id == id) =
        [⟨object, existing, verdict⟩] := by
  obtain ⟨hpairs, hverdicts⟩ := decisions_spec h
  have hmap : (decided.filter fun decision => decision.declared.id == id).map
      (fun decision => (decision.declared, decision.live)) = [(object, existing)] := by
    have hfilter := filter_sharedPairs declared live id
    rw [← hpairs, List.filter_map, hobject, hexisting] at hfilter
    exact hfilter
  obtain ⟨decision, hdecision, heq⟩ := List.map_eq_singleton_iff.1 hmap
  cases heq
  have hmem : decision ∈ decided := by
    refine (List.mem_filter (p := fun d => d.declared.id == id)).1 ?_ |>.1
    rw [hdecision]
    exact List.mem_singleton_self decision
  exact ⟨decision.verdict, hverdicts decision hmem, hdecision⟩

theorem exists_mem_decided (h : decisions options declared live = .ok decided) {id : ObjectId}
    {object existing : SchemaObject} (hobject : declared.get? id = some object)
    (hexisting : live.get? id = some existing) :
    ∃ verdict, compareObjects options object existing = .ok verdict ∧
      ⟨object, existing, verdict⟩ ∈ decided := by
  obtain ⟨verdict, hverdict, hfilter⟩ := exists_decision h hobject hexisting
  have hmem : (⟨object, existing, verdict⟩ : Decision) ∈
      decided.filter fun decision => decision.declared.id == id := by
    rw [hfilter]
    exact List.mem_singleton_self _
  exact ⟨verdict, hverdict, (List.mem_filter.1 hmem).1⟩

/-- Decisions that change nothing mark nothing. -/
theorem filter_eq_nil_of_unchanged
    (h : ∀ decision ∈ decided, decision.verdict = ⟨none, false, []⟩) :
    decided.filter (fun d => d.verdict.change == some .recreate) = [] ∧
      decided.filter (fun d => d.verdict.dropsKey) = [] := by
  constructor
  all_goals
    refine List.filter_eq_nil_iff.2 fun d hd => ?_
    rw [h d hd]
    exact Bool.false_ne_true

/-- The planned steps of an object. -/
theorem filter_plannedSteps (h : decisions options declared live = .ok decided)
    (orders : Orders) (recreated : List ObjectId) (id : ObjectId) :
    (plannedSteps orders recreated declared live decided).filter
        (fun step => step.subject == id) =
      subjectSteps options orders recreated declared live id := by
  have hdecided : (decisionSteps orders recreated decided).filter
      (fun step => step.subject == id) =
      (decided.filter fun decision => decision.declared.id == id).flatMap fun decision =>
        ((decision.change? recreated).toList).flatMap
          (changeSteps orders decision.declared decision.live) := by
    refine filter_flatMap_subject (fun decision hd step hstep => ?_) id
    obtain ⟨update, -, hstep⟩ := List.mem_flatMap.1 hstep
    refine subject_of_mem_changeSteps ?_ hstep
    exact (SchemaGraph.get?_eq_some_iff.1 (decision_spec h hd).2.1).2
  rw [plannedSteps, List.filter_append, List.filter_append, filter_map_subject fun _ => rfl,
    filter_map_subject fun _ => rfl, filter_objectsNotIn, filter_objectsNotIn, hdecided,
    subjectSteps]
  have hnone : declared.get? id = none ∨ live.get? id = none →
      decided.filter (fun decision => decision.declared.id == id) = [] := by
    intro hmissing
    refine List.filter_eq_nil_iff.2 fun decision hd hid => ?_
    obtain ⟨hdeclared, hlive, -⟩ := decision_spec h hd
    rw [beq_iff_eq.1 hid] at hdeclared hlive
    rcases hmissing with hmissing | hmissing
    · rw [hmissing] at hdeclared
      cases hdeclared
    · rw [hmissing] at hlive
      cases hlive
  cases hobject : declared.get? id with
  | none =>
    rw [SchemaGraph.contains_eq_false_iff.2 hobject, hnone (.inl hobject)]
    cases hexisting : live.get? id with
    | none => simp
    | some existing => simp [SchemaGraph.contains_iff_exists_get?.2 ⟨existing, hexisting⟩]
  | some object =>
    rw [SchemaGraph.contains_iff_exists_get?.2 ⟨object, hobject⟩]
    cases hexisting : live.get? id with
    | none =>
      rw [SchemaGraph.contains_eq_false_iff.2 hexisting, hnone (.inr hexisting)]
      simp
    | some existing =>
      rw [SchemaGraph.contains_iff_exists_get?.2 ⟨existing, hexisting⟩]
      obtain ⟨verdict, hverdict, hfilter⟩ := exists_decision h hobject hexisting
      simp [hverdict, hfilter]

end Decisions

/-! ## Plans -/

section Plans

variable {options : DiffOptions} {declared live : SchemaGraph} {changes : ChangeSet}

theorem plan_eq_ok (h : plan options declared live [] = .ok changes) :
    ∃ orders decided recreated, declared.creationOrder = .ok orders.creation ∧
      live.deletionOrder = .ok orders.deletion ∧
      decisions options declared live = .ok decided ∧
      recreatedSet options declared live = .ok recreated ∧
      orderSteps declared live (plannedSteps orders recreated declared live decided) =
        .ok changes.operations := by
  obtain ⟨creation, hcreation, h⟩ := Outcome.bind_eq_ok_iff.1 h
  obtain ⟨deletion, hdeletion, h⟩ := Outcome.bind_eq_ok_iff.1 h
  obtain ⟨decided, hdecided, h⟩ := Outcome.bind_eq_ok_iff.1 h
  obtain ⟨recreated, hrecreated, h⟩ := Outcome.bind_eq_ok_iff.1 h
  obtain ⟨operations, hoperations, h⟩ := Outcome.bind_eq_ok_iff.1 h
  cases h
  refine ⟨⟨creation, deletion⟩, decided, recreated, hcreation, hdeletion, hdecided, ?_, ?_⟩
  · exact Outcome.bind_eq_ok_iff.2 ⟨decided, hdecided, hrecreated⟩
  · rw [List.map_nil, List.nil_append] at hoperations
    exact hoperations

/-- An object has no steps, one, or a removal and an addition. -/
theorem subjectSteps_shape (options : DiffOptions) (orders : Orders) (recreated : List ObjectId)
    (declared live : SchemaGraph) (id : ObjectId) :
    subjectSteps options orders recreated declared live id = [] ∨
      (∃ a, subjectSteps options orders recreated declared live id = [a]) ∨
      ∃ a b, subjectSteps options orders recreated declared live id = [a, b] ∧
        a.phase = .removal ∧ b.phase = .addition ∧ a.subject = b.subject := by
  rw [subjectSteps]
  split
  · rename_i object existing hobject hexisting
    have hid : existing.id = object.id := by
      rw [(SchemaGraph.get?_eq_some_iff.1 hobject).2, (SchemaGraph.get?_eq_some_iff.1 hexisting).2]
    split
    · rename_i verdict _
      cases (Decision.mk object existing verdict).change? recreated with
      | none => exact .inl rfl
      | some update =>
        rw [Option.toList_some, List.flatMap_singleton]
        cases update with
        | recreate => exact .inr (.inr ⟨_, _, rfl, rfl, rfl, hid⟩)
        | alter removals additions =>
          rw [changeSteps]
          cases removals.isEmpty <;> cases additions.isEmpty
          · exact .inr (.inr ⟨_, _, rfl, rfl, rfl, rfl⟩)
          · exact .inr (.inl ⟨_, rfl⟩)
          · exact .inr (.inl ⟨_, rfl⟩)
          · exact .inl rfl
    · exact .inl rfl
  · exact .inr (.inl ⟨_, rfl⟩)
  · exact .inr (.inl ⟨_, rfl⟩)
  · exact .inl rfl

/-- The steps behind a change set: each object has its own steps in their order, and no step
stands before one that it needs. -/
structure IsSchedule (options : DiffOptions) (declared live : SchemaGraph) (changes : ChangeSet)
    (orders : Orders) (recreated : List ObjectId) (schedule : List Step) : Prop where
  creation : declared.creationOrder = .ok orders.creation
  deletion : live.deletionOrder = .ok orders.deletion
  recreation : recreatedSet options declared live = .ok recreated
  operations : changes.operations = schedule.map Step.operation
  steps : ∀ id, schedule.filter (fun step => step.subject == id) =
    subjectSteps options orders recreated declared live id
  irreflexive : ∀ step ∈ schedule, step.mustPrecede declared live step = false
  ordered : schedule.Pairwise fun a b => b.mustPrecede declared live a = false

/-- **Every change set has a schedule.** -/
theorem exists_schedule (h : plan options declared live [] = .ok changes) :
    ∃ orders recreated schedule,
      IsSchedule options declared live changes orders recreated schedule := by
  obtain ⟨orders, decided, recreated, hcreation, hdeletion, hdecided, hrecreated, horder⟩ :=
    plan_eq_ok h
  obtain ⟨schedule, hoperations, hperm, hself, hpairs⟩ := orderSteps_spec horder
  refine ⟨orders, recreated, schedule, hcreation, hdeletion, hrecreated, hoperations,
    fun id => ?_, hself, hpairs⟩
  have hfilter := hperm.filter fun step => step.subject == id
  rw [filter_plannedSteps hdecided] at hfilter
  rcases subjectSteps_shape options orders recreated declared live id with
    hnil | ⟨a, ha⟩ | ⟨a, b, hab, hremoval, haddition, hsubject⟩
  · rw [hnil] at hfilter ⊢
    exact hfilter.eq_nil
  · rw [ha] at hfilter ⊢
    exact List.perm_singleton.1 hfilter
  · rw [hab] at hfilter ⊢
    rcases List.perm_pair.1 hfilter with heq | heq
    · exact heq
    · have hsub := hpairs.filter fun step => step.subject == id
      rw [heq, List.pairwise_pair] at hsub
      rw [Step.mustPrecede, hremoval, haddition, beq_eq_false_iff_ne] at hsub
      exact absurd hsubject hsub

end Plans

/-! ## What a step does -/

/-- What a step does to its subject: a removal drops it, with its live definition, or takes parts
of it away; an addition creates it, with its declared definition, or adds and changes parts. -/
def Step.Fits (declared live : SchemaGraph) (step : Step) : Prop :=
  match step.phase with
  | .rename => False
  | .removal =>
    (∃ object, live.get? step.subject = some object ∧ step.operation = dropOperation object) ∨
      ∃ changes, changes ≠ [] ∧ (∀ change ∈ changes, change.removes = true) ∧
        step.operation = .alter step.subject changes ∧ step.subject ∈ live.ids ∧
        step.subject ∈ declared.ids
  | .addition =>
    (∃ object, declared.get? step.subject = some object ∧
        step.operation = createOperation object) ∨
      ∃ changes, changes ≠ [] ∧ (∀ change ∈ changes, change.removes = false) ∧
        step.operation = .alter step.subject changes ∧ step.subject ∈ live.ids ∧
        step.subject ∈ declared.ids

section Fits

variable {options : DiffOptions} {declared live : SchemaGraph} {changes : ChangeSet}
  {orders : Orders} {recreated : List ObjectId} {schedule : List Step}

theorem fits_removal {object : SchemaObject} (h : live.get? object.id = some object) :
    (removal orders object).Fits declared live :=
  .inl ⟨object, h, removal_operation orders object⟩

theorem fits_addition {object : SchemaObject} (h : declared.get? object.id = some object) :
    (addition orders object).Fits declared live :=
  .inl ⟨object, h, addition_operation orders object⟩

theorem change?_eq_alter {object existing : SchemaObject} {verdict : Verdict}
    {removals additions : List AlterChange}
    (h : (Decision.mk object existing verdict).change? recreated =
      some (.alter removals additions)) :
    verdict.change = some (.alter removals additions) := by
  rw [Decision.change?] at h
  split at h
  · cases h
  · exact h

theorem fits_of_mem_subjectSteps {id : ObjectId} {step : Step}
    (h : step ∈ subjectSteps options orders recreated declared live id) :
    step.subject = id ∧ step.Fits declared live := by
  rw [subjectSteps] at h
  split at h
  · rename_i object existing hobject hexisting
    obtain ⟨-, rfl⟩ := SchemaGraph.get?_eq_some_iff.1 hobject
    have hid := (SchemaGraph.get?_eq_some_iff.1 hexisting).2
    have hlive := SchemaGraph.mem_ids_iff_exists_get?.2 ⟨existing, hexisting⟩
    have hdeclared := SchemaGraph.mem_ids_iff_exists_get?.2 ⟨object, hobject⟩
    split at h
    · rename_i verdict hverdict
      obtain ⟨update, hupdate, h⟩ := List.mem_flatMap.1 h
      rw [Option.mem_toList] at hupdate
      refine ⟨subject_of_mem_changeSteps hid h, ?_⟩
      cases update with
      | recreate =>
        simp only [changeSteps, List.mem_cons, List.not_mem_nil, or_false] at h
        rcases h with rfl | rfl
        · exact fits_removal (by rw [hid]; exact hexisting)
        · exact fits_addition hobject
      | alter removals additions =>
        obtain ⟨hremovals, hadditions⟩ := removes_of_alter hverdict (change?_eq_alter hupdate)
        simp only [changeSteps, List.mem_append] at h
        rcases h with h | h
        · split at h
          · cases h
          · rename_i hne
            rw [List.mem_singleton.1 h]
            exact .inr ⟨removals, by simpa using hne, hremovals, rfl, hlive, hdeclared⟩
        · split at h
          · cases h
          · rename_i hne
            rw [List.mem_singleton.1 h]
            exact .inr ⟨additions, by simpa using hne, hadditions, rfl, hlive, hdeclared⟩
    · cases h
  · rename_i object hobject _
    obtain ⟨-, rfl⟩ := SchemaGraph.get?_eq_some_iff.1 hobject
    rw [List.mem_singleton.1 h]
    exact ⟨rfl, fits_addition hobject⟩
  · rename_i existing _ hexisting
    obtain ⟨-, rfl⟩ := SchemaGraph.get?_eq_some_iff.1 hexisting
    rw [List.mem_singleton.1 h]
    exact ⟨rfl, fits_removal hexisting⟩
  · cases h

theorem IsSchedule.mem_subjectSteps
    (h : IsSchedule options declared live changes orders recreated schedule) {step : Step}
    (hstep : step ∈ schedule) :
    step ∈ subjectSteps options orders recreated declared live step.subject := by
  rw [← h.steps]
  exact List.mem_filter.2 ⟨hstep, beq_self_eq_true _⟩

/-- **Every step of a schedule fits its subject.** -/
theorem IsSchedule.fits
    (h : IsSchedule options declared live changes orders recreated schedule) {step : Step}
    (hstep : step ∈ schedule) : step.Fits declared live :=
  (fits_of_mem_subjectSteps (h.mem_subjectSteps hstep)).2

theorem Step.Fits.mem_live {step : Step} (h : step.Fits declared live)
    (hphase : step.phase = .removal) : step.subject ∈ live.ids := by
  rw [Step.Fits, hphase] at h
  rcases h with ⟨object, hobject, -⟩ | ⟨_, _, _, _, hlive, _⟩
  · exact SchemaGraph.mem_ids_iff_exists_get?.2 ⟨object, hobject⟩
  · exact hlive

theorem Step.Fits.mem_declared {step : Step} (h : step.Fits declared live)
    (hphase : step.phase = .addition) : step.subject ∈ declared.ids := by
  rw [Step.Fits, hphase] at h
  rcases h with ⟨object, hobject, -⟩ | ⟨_, _, _, _, _, hdeclared⟩
  · exact SchemaGraph.mem_ids_iff_exists_get?.2 ⟨object, hobject⟩
  · exact hdeclared

/-- What fits the graphs without ignored extensions fits the graphs. -/
theorem Step.Fits.of_withoutIgnored {step : Step}
    (h : step.Fits (declared.withoutIgnored options) (live.withoutIgnored options)) :
    step.Fits declared live := by
  have hids : ∀ {graph : SchemaGraph} {id : ObjectId},
      id ∈ (graph.withoutIgnored options).ids → id ∈ graph.ids := by
    intro graph id hid
    obtain ⟨object, hobject⟩ := SchemaGraph.mem_ids_iff_exists_get?.1 hid
    exact SchemaGraph.mem_ids_iff_exists_get?.2
      ⟨object, (SchemaGraph.get?_withoutIgnored_eq_some_iff.1 hobject).1⟩
  rw [Step.Fits] at h ⊢
  cases hphase : step.phase with
  | rename =>
    rw [hphase] at h
    exact h
  | removal =>
    rw [hphase] at h
    rcases h with ⟨object, hobject, hop⟩ | ⟨parts, hne, hall, hop, hlive, hdeclared⟩
    · exact .inl ⟨object, (SchemaGraph.get?_withoutIgnored_eq_some_iff.1 hobject).1, hop⟩
    · exact .inr ⟨parts, hne, hall, hop, hids hlive, hids hdeclared⟩
  | addition =>
    rw [hphase] at h
    rcases h with ⟨object, hobject, hop⟩ | ⟨parts, hne, hall, hop, hlive, hdeclared⟩
    · exact .inl ⟨object, (SchemaGraph.get?_withoutIgnored_eq_some_iff.1 hobject).1, hop⟩
    · exact .inr ⟨parts, hne, hall, hop, hids hlive, hids hdeclared⟩

theorem target_dropOperation (object : SchemaObject) :
    (dropOperation object).target = object.id ∨ (dropOperation object).target.kind = .table := by
  cases object with
  | constraint c => exact .inr rfl
  | _ => exact .inl rfl

theorem target_createOperation (object : SchemaObject) :
    (createOperation object).target = object.id ∨
      (createOperation object).target.kind = .table := by
  cases object with
  | constraint c => exact .inr rfl
  | _ => exact .inl rfl

/-- An operation is done to the subject of its step, or to a table. -/
theorem Step.Fits.target {step : Step} (h : step.Fits declared live) :
    step.operation.target = step.subject ∨ step.operation.target.kind = .table := by
  rw [Step.Fits] at h
  cases hphase : step.phase with
  | rename =>
    rw [hphase] at h
    exact h.elim
  | removal =>
    rw [hphase] at h
    rcases h with ⟨object, hobject, hop⟩ | ⟨_, _, _, hop, _, _⟩
    · rw [hop, ← (SchemaGraph.get?_eq_some_iff.1 hobject).2]
      exact target_dropOperation object
    · rw [hop]
      exact .inl rfl
  | addition =>
    rw [hphase] at h
    rcases h with ⟨object, hobject, hop⟩ | ⟨_, _, _, hop, _, _⟩
    · rw [hop, ← (SchemaGraph.get?_eq_some_iff.1 hobject).2]
      exact target_createOperation object
    · rw [hop]
      exact .inl rfl

/-- A step that creates an object is the addition of that object. -/
theorem Step.Fits.of_create {step : Step} (h : step.Fits declared live) {object : SchemaObject}
    (hoperation : step.operation = .create object) :
    step.phase = .addition ∧ step.subject = object.id := by
  rw [Step.Fits] at h
  cases hphase : step.phase with
  | rename =>
    rw [hphase] at h
    exact h.elim
  | removal =>
    rw [hphase, hoperation] at h
    rcases h with ⟨other, -, hop⟩ | ⟨_, _, _, hop, _, _⟩
    · cases other <;> cases hop
    · cases hop
  | addition =>
    rw [hphase, hoperation] at h
    rcases h with ⟨other, hother, hop⟩ | ⟨_, _, _, hop, _, _⟩
    · refine ⟨rfl, ?_⟩
      rw [← (SchemaGraph.get?_eq_some_iff.1 hother).2]
      cases other <;> cases hop <;> rfl
    · cases hop

end Fits

/-! ## Comparisons without hints -/

theorem diff_eq_plan {options : DiffOptions} (hhints : options.WithoutHints)
    (declared live : SchemaGraph) : diff options declared live =
      plan options (declared.withoutIgnored options) (live.withoutIgnored options) [] := by
  rw [diff, applyHints, hhints.1, hhints.2]
  rfl

end Change

end SchemaPlan
