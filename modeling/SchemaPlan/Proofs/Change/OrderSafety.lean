import SchemaPlan.Proofs.Change.Coverage

/-!
# Order safety

A change set can run from its first operation to its last: nothing is dropped while something
still uses it, and nothing is created before what it uses.  The rules are about steps, that is
about operations with their subjects, and which steps there are is what `Accounts` fixes: an
operation on a table that drops a foreign key is the removal of that key and not of the table.

* `OrderSafe` states the four rules of the order and what they lead to.
* `diff_order_safe`: every change set that `diff` finds is order safe.
* `ignored_extension_missing`: an extension that is ignored may be missing all the time.
-/

set_option autoImplicit false

namespace SchemaPlan

namespace Change

/-! ## Presence -/

/-- Whether a step drops or creates its subject, and does not alter it in place. -/
def Step.isWhole (step : Step) : Bool :=
  match step.operation with
  | .alter target _ => target != step.subject
  | _ => true

/-- The identities that exist after a step. -/
def Step.affect (existing : List ObjectId) (step : Step) : List ObjectId :=
  if step.isWhole then
    match step.phase with
    | .removal => existing.filter fun id => id != step.subject
    | .addition => step.subject :: existing
    | .rename => existing
  else existing

/-- The identities that exist after a list of steps. -/
def existingAfter (existing : List ObjectId) (steps : List Step) : List ObjectId :=
  steps.foldl Step.affect existing

/-! ## Rules -/

/-- One step stands before another in a schedule. -/
def Precedes (schedule : List Step) (a b : Step) : Prop :=
  ∀ i j : Nat, schedule[i]? = some a → schedule[j]? = some b → i < j

/-- When an object comes, those of its dependencies that count exist, and from then on they are
neither created nor dropped and only lose parts. -/
def DependenciesPresent (counts : ObjectId → Bool) (declared live : SchemaGraph)
    (schedule : List Step) : Prop :=
  ∀ before step after, schedule = before ++ step :: after → step.phase = .addition →
    ∀ id ∈ declared.dependencies step.subject, counts id = true →
      id ∈ existingAfter live.ids before ∧
        ∀ later ∈ after, later.subject = id → later.phase = .removal ∧ later.isWhole = false

/-- **The rules of the order.**  `declared` and `live` are the two sides of the comparison. -/
structure OrderSafe (options : DiffOptions) (declared live : SchemaGraph)
    (schedule : List Step) : Prop where
  /-- What depends on an object goes before it. -/
  removals : ∀ a ∈ schedule, ∀ b ∈ schedule, a.phase = .removal → b.phase = .removal →
    b.subject ∈ live.dependencies a.subject → Precedes schedule a b
  /-- What an object depends on comes before it. -/
  additions : ∀ a ∈ schedule, ∀ b ∈ schedule, a.phase = .addition → b.phase = .addition →
    a.subject ∈ declared.dependencies b.subject → Precedes schedule a b
  /-- An object goes before it comes again. -/
  recreation : ∀ a ∈ schedule, ∀ b ∈ schedule, a.phase = .removal → b.phase = .addition →
    a.subject = b.subject → Precedes schedule a b
  /-- A table lets go of an object before that is dropped for good. -/
  release : ∀ a ∈ schedule, ∀ b ∈ schedule, a.phase = .addition → b.phase = .removal →
    a.subject.kind = .table → b.subject ∈ live.dependencies a.subject →
    b.subject ∉ declared.dependencies a.subject → b.subject ∉ declared.ids →
    Precedes schedule a b
  /-- What an object depends on exists when it comes, ignored extensions aside. -/
  present : DependenciesPresent (fun id => !options.ignoresId id) declared live schedule

section Presence

variable {options : DiffOptions} {declared live : SchemaGraph} {changes : ChangeSet}
  {orders : Orders} {recreated : List ObjectId} {schedule : List Step}

/-- Only whole steps of an object itself bring or take it. -/
theorem mem_affect_iff {existing : List ObjectId} {step : Step} {id : ObjectId}
    (h : step.subject ≠ id ∨ step.isWhole = false) :
    id ∈ step.affect existing ↔ id ∈ existing := by
  rw [Step.affect]
  split
  · rename_i hwhole
    have hid : step.subject ≠ id := by
      rcases h with h | h
      · exact h
      · rw [h] at hwhole
        cases hwhole
    split
    · simp [Ne.symm hid]
    · simp [Ne.symm hid]
    · rfl
  · rfl

theorem mem_existingAfter_iff {id : ObjectId} (steps : List Step) :
    ∀ {xs ys : List ObjectId}, (id ∈ xs ↔ id ∈ ys) →
      (id ∈ existingAfter xs steps ↔
        id ∈ existingAfter ys (steps.filter fun step => step.subject == id)) := by
  induction steps with
  | nil => exact fun h => h
  | cons step steps ih =>
    intro xs ys h
    rw [existingAfter, List.foldl_cons]
    by_cases hid : step.subject = id
    · rw [List.filter_cons, if_pos (beq_iff_eq.2 hid), existingAfter, List.foldl_cons]
      refine ih ?_
      rw [Step.affect, Step.affect]
      split
      · split
        · simp [hid]
        · simp [hid]
        · exact h
      · exact h
    · rw [List.filter_cons, if_neg (by simpa using hid)]
      exact ih ((mem_affect_iff (.inl hid)).trans h)

theorem existingAfter_of_altered {steps : List Step} (h : ∀ step ∈ steps, step.isWhole = false)
    (existing : List ObjectId) : existingAfter existing steps = existing := by
  induction steps with
  | nil => rfl
  | cons step steps ih =>
    have hstep : step.affect existing = existing := by
      rw [Step.affect, h step List.mem_cons_self]
      rfl
    rw [existingAfter, List.foldl_cons, hstep]
    exact ih fun other hother => h other (List.mem_cons_of_mem _ hother)

theorem isWhole_addition (orders : Orders) (object : SchemaObject) :
    (addition orders object).isWhole = true := by
  cases object <;> rfl

/-- The steps of a declared object end with its addition, or they only alter it in place. -/
theorem subjectSteps_of_declared (options : DiffOptions) (live : SchemaGraph) (orders : Orders)
    (recreated : List ObjectId) {id : ObjectId} {object : SchemaObject}
    (h : declared.get? id = some object) :
    (∃ steps, subjectSteps options orders recreated declared live id =
      steps ++ [addition orders object]) ∨
    id ∈ live.ids ∧
      ∀ step ∈ subjectSteps options orders recreated declared live id, step.isWhole = false := by
  rw [subjectSteps, h]
  cases hexisting : live.get? id with
  | none => exact .inl ⟨[], rfl⟩
  | some existing =>
    have hlive : id ∈ live.ids := SchemaGraph.mem_ids_iff_exists_get?.2 ⟨existing, hexisting⟩
    simp only
    split
    · rename_i verdict _
      cases (Decision.mk object existing verdict).change? recreated with
      | none => exact .inr ⟨hlive, fun _ hstep => absurd hstep List.not_mem_nil⟩
      | some update =>
        rw [Option.toList_some, List.flatMap_singleton]
        cases update with
        | recreate => exact .inl ⟨[removal orders existing], rfl⟩
        | alter removals additions =>
          refine .inr ⟨hlive, fun step hstep => ?_⟩
          rw [changeSteps, List.mem_append] at hstep
          rcases hstep with hstep | hstep
          all_goals
            split at hstep
            · cases hstep
            · rw [List.mem_singleton.1 hstep, Step.isWhole]
              exact bne_self_eq_false _
    · exact .inr ⟨hlive, fun _ hstep => absurd hstep List.not_mem_nil⟩

/-- No removals stand behind an addition that comes last. -/
theorem eq_nil_of_last_addition {first rest steps : List Step} {last : Step}
    (hsplit : first ++ rest = steps ++ [last]) (hlast : last.phase = .addition)
    (hrest : ∀ step ∈ rest, step.phase = .removal) : rest = [] := by
  rcases List.eq_nil_or_concat rest with rfl | ⟨front, step, rfl⟩
  · rfl
  · rw [List.concat_eq_append] at hrest hsplit
    rw [← List.append_assoc] at hsplit
    obtain rfl := List.singleton_inj.1 (List.append_inj_right' hsplit rfl)
    have hremoval := hrest step (List.mem_append_right _ (List.mem_singleton_self step))
    rw [hlast] at hremoval
    cases hremoval

/-- What the first steps of a declared object leave, when no addition comes after them. -/
theorem present_of_steps {id : ObjectId} {object : SchemaObject}
    (h : declared.get? id = some object) {first rest : List Step}
    (hsplit : first ++ rest = subjectSteps options orders recreated declared live id)
    (hrest : ∀ step ∈ rest, step.phase = .removal) :
    id ∈ existingAfter live.ids first ∧ ∀ step ∈ rest, step.isWhole = false := by
  have hid := (SchemaGraph.get?_eq_some_iff.1 h).2
  rcases subjectSteps_of_declared options live orders recreated h with ⟨steps, heq⟩ | ⟨hlive, hall⟩
  · rw [heq] at hsplit
    obtain rfl := eq_nil_of_last_addition hsplit rfl hrest
    rw [List.append_nil] at hsplit
    refine ⟨?_, fun _ hstep => absurd hstep List.not_mem_nil⟩
    rw [hsplit, existingAfter, List.foldl_append, List.foldl_cons, List.foldl_nil, Step.affect,
      isWhole_addition, ← hid]
    exact List.mem_cons_self
  · rw [← hsplit] at hall
    rw [existingAfter_of_altered fun step hstep => hall step (List.mem_append_left _ hstep)]
    exact ⟨hlive, fun step hstep => hall step (List.mem_append_right _ hstep)⟩

end Presence

/-! ## Safety -/

section Safety

variable {options : DiffOptions} {declared live : SchemaGraph} {changes : ChangeSet}
  {orders : Orders} {recreated : List ObjectId} {schedule : List Step}

theorem IsSchedule.precedes
    (h : IsSchedule options declared live changes orders recreated schedule) {a b : Step}
    (hab : a.mustPrecede declared live b = true) : Precedes schedule a b := by
  intro i j ha hb
  obtain ⟨hi, rfl⟩ := List.getElem?_eq_some_iff.1 ha
  obtain ⟨hj, rfl⟩ := List.getElem?_eq_some_iff.1 hb
  rcases Nat.lt_trichotomy i j with hlt | rfl | hgt
  · exact hlt
  · rw [h.irreflexive _ (List.getElem_mem hi)] at hab
    cases hab
  · rw [List.pairwise_iff_getElem.1 h.ordered j i hj hi hgt] at hab
    cases hab

/-- What a table lets go of is dropped for good behind its addition. -/
theorem IsSchedule.release
    (h : IsSchedule options (declared.withoutIgnored options) (live.withoutIgnored options)
      changes orders recreated schedule) {a b : Step} (hb : b ∈ schedule)
    (hpa : a.phase = .addition) (hpb : b.phase = .removal) (hkind : a.subject.kind = .table)
    (hlive : b.subject ∈ live.dependencies a.subject)
    (hdeclared : b.subject ∉ declared.dependencies a.subject)
    (hdropped : b.subject ∉ declared.ids) : Precedes schedule a b := by
  have htable : a.subject ∈ (live.withoutIgnored options).ids := by
    refine SchemaGraph.mem_ids_withoutIgnored_iff.2
      ⟨SchemaGraph.mem_ids_of_mem_dependencies hlive, DiffOptions.not_ignoresId_of_kind ?_⟩
    rw [hkind]
    nofun
  have hused : b.subject ∈ (live.withoutIgnored options).dependencies a.subject :=
    SchemaGraph.mem_dependencies_withoutIgnored_iff.2 ⟨hlive, htable, (h.fits hb).mem_live hpb⟩
  have hreleased : b.subject ∉ (declared.withoutIgnored options).dependencies a.subject :=
    fun hmem => hdeclared (SchemaGraph.mem_dependencies_withoutIgnored_iff.1 hmem).1
  have hgone : (declared.withoutIgnored options).contains b.subject = false := by
    rw [SchemaGraph.contains_eq_false_iff, SchemaGraph.get?_eq_none_iff]
    exact fun hmem => hdropped (SchemaGraph.mem_ids_withoutIgnored_iff.1 hmem).1
  refine h.precedes ?_
  rw [Step.mustPrecede, hpa, hpb]
  simp only [hkind, hused, hreleased, hgone, beq_self_eq_true, Bool.and_true,
    Bool.true_and, Bool.not_false, Bool.not_eq_true', decide_eq_false_iff_not,
    List.contains_eq_mem, decide_true, not_false_eq_true]

/-- Behind an addition only the removal of a dependency can stand, not its addition. -/
theorem IsSchedule.removal_of_later
    (h : IsSchedule options declared live changes orders recreated schedule)
    {before after : List Step} {step later : Step} (hsplit : schedule = before ++ step :: after)
    (hphase : step.phase = .addition) (hlater : later ∈ step :: after)
    (hdep : later.subject ∈ declared.dependencies step.subject) : later.phase = .removal := by
  have hin : later ∈ schedule := by
    rw [hsplit]
    exact List.mem_append_right _ hlater
  cases hpl : later.phase with
  | rename =>
    have hfits := h.fits hin
    rw [Step.Fits, hpl] at hfits
    exact hfits.elim
  | removal => rfl
  | addition =>
    have hprecede : later.mustPrecede declared live step = true := by
      rw [Step.mustPrecede, hpl, hphase, List.contains_iff_mem]
      exact hdep
    rcases List.mem_cons.1 hlater with rfl | hlater
    · rw [h.irreflexive later hin] at hprecede
      cases hprecede
    · have hpairs := h.ordered
      rw [hsplit] at hpairs
      have hno := (List.pairwise_cons.1 (List.pairwise_append.1 hpairs).2.1).1 later hlater
      rw [hno] at hprecede
      cases hprecede

/-- What an object depends on exists when it comes. -/
theorem IsSchedule.present {sources : List SchemaObject}
    (hdeclared : register sources = .ok declared)
    (h : IsSchedule options (declared.withoutIgnored options) (live.withoutIgnored options)
      changes orders recreated schedule) :
    DependenciesPresent (fun id => !options.ignoresId id) declared live schedule := by
  intro before step after hsplit hphase id hid hcounts
  have hkept : options.ignoresId id = false := by simpa using hcounts
  have hstep : step ∈ schedule := by
    rw [hsplit]
    exact List.mem_append_right _ List.mem_cons_self
  have hmem : id ∈ (declared.withoutIgnored options).ids :=
    SchemaGraph.mem_ids_withoutIgnored_iff.2
      ⟨Registration.closed_of_register hdeclared hid, hkept⟩
  have hdep : id ∈ (declared.withoutIgnored options).dependencies step.subject :=
    SchemaGraph.mem_dependencies_withoutIgnored_iff.2
      ⟨hid, (h.fits hstep).mem_declared hphase, hmem⟩
  obtain ⟨object, hobject⟩ := SchemaGraph.mem_ids_iff_exists_get?.1 hmem
  have hlater : ∀ later ∈ step :: after, later.subject = id → later.phase = .removal :=
    fun later hlater hsubject => h.removal_of_later hsplit hphase hlater (hsubject ▸ hdep)
  have hsteps := h.steps id
  rw [hsplit, List.filter_append] at hsteps
  obtain ⟨hpresent, hparts⟩ := present_of_steps hobject hsteps fun later hlater' => by
    obtain ⟨hlater', hsubject⟩ := List.mem_filter.1 hlater'
    exact hlater later hlater' (beq_iff_eq.1 hsubject)
  refine ⟨(mem_existingAfter_iff before ?_).2 hpresent, fun later hlater' hsubject => ?_⟩
  · rw [SchemaGraph.mem_ids_withoutIgnored_iff, hkept]
    simp
  · have hbehind : later ∈ step :: after := List.mem_cons_of_mem _ hlater'
    exact ⟨hlater later hbehind hsubject,
      hparts later (List.mem_filter.2 ⟨hbehind, beq_iff_eq.2 hsubject⟩)⟩

/-- **A schedule is order safe** for the graphs from which ignored extensions were taken away. -/
theorem IsSchedule.orderSafe {sources : List SchemaObject}
    (hdeclared : register sources = .ok declared)
    (h : IsSchedule options (declared.withoutIgnored options) (live.withoutIgnored options)
      changes orders recreated schedule) : OrderSafe options declared live schedule := by
  constructor
  case removals =>
    intro a ha b hb hpa hpb hdep
    refine h.precedes ?_
    rw [Step.mustPrecede, hpa, hpb, List.contains_iff_mem]
    exact SchemaGraph.mem_dependencies_withoutIgnored_iff.2
      ⟨hdep, (h.fits ha).mem_live hpa, (h.fits hb).mem_live hpb⟩
  case additions =>
    intro a ha b hb hpa hpb hdep
    refine h.precedes ?_
    rw [Step.mustPrecede, hpa, hpb, List.contains_iff_mem]
    exact SchemaGraph.mem_dependencies_withoutIgnored_iff.2
      ⟨hdep, (h.fits hb).mem_declared hpb, (h.fits ha).mem_declared hpa⟩
  case recreation =>
    intro a _ b _ hpa hpb hsubject
    refine h.precedes ?_
    rw [Step.mustPrecede, hpa, hpb, beq_iff_eq]
    exact hsubject
  case release =>
    intro a _ b hb hpa hpb hkind hlive hreleased hdropped
    exact h.release hb hpa hpb hkind hlive hreleased hdropped
  case present => exact h.present hdeclared

/-- **Every change set is order safe**: its operations are those of a schedule that accounts for
each object and keeps the rules of the order. -/
theorem diff_order_safe {sources : List SchemaObject} (hdeclared : register sources = .ok declared)
    (hhints : options.WithoutHints) (h : diff options declared live = .ok changes) :
    ∃ recreated schedule,
      recreatedSet options (declared.withoutIgnored options) (live.withoutIgnored options) =
        .ok recreated ∧
      changes.operations = schedule.map Step.operation ∧
      Accounts options declared live recreated schedule ∧
      OrderSafe options declared live schedule := by
  rw [diff_eq_plan hhints] at h
  obtain ⟨orders, recreated, schedule, hschedule⟩ := exists_schedule h
  exact ⟨recreated, schedule, hschedule.recreation, hschedule.operations,
    hschedule.accounts hdeclared, hschedule.orderSafe hdeclared⟩

/-- A table that references another one. -/
def referringTable : Table where
  name := "a"
  columns := [{ name := "b", type := .integer }]
  constraints := [{
    name := "a_b"
    kind := .foreignKey { columns := ["b"], referencesTable := "b", referencesColumns := ["id"] } }]

/-- The table that is referenced. -/
def referencedTable : Table where
  name := "b"
  columns := [{ name := "id", type := .integer }]
  constraints := [{ name := "b_key", kind := .unique ["id"] }]

/-- A table that stays loses its foreign key before the table goes that the key references. -/
theorem diff_order_safe_dropped_reference : ∃ declared live changes,
    register [.table { referringTable with constraints := [] }] = .ok declared ∧
    register [.table referringTable, .table referencedTable] = .ok live ∧
    diff {} declared live = .ok changes ∧
    changes.operations =
      [.alter (.table "a") (referringTable.constraints.map .dropConstraint),
        .drop (.table referencedTable)] ∧
    ∃ recreated schedule,
      recreatedSet {} (declared.withoutIgnored {}) (live.withoutIgnored {}) = .ok recreated ∧
      changes.operations = schedule.map Step.operation ∧
      Accounts {} declared live recreated schedule ∧ OrderSafe {} declared live schedule := by
  have hrun : (do
      let declared ← register [.table { referringTable with constraints := [] }]
      let live ← register [.table referringTable, .table referencedTable]
      let changes ← diff {} declared live
      pure changes.operations) = .ok
        [.alter (.table "a") (referringTable.constraints.map .dropConstraint),
          .drop (.table referencedTable)] := by
    simp only [diff, plan, orderSteps, Step.mergeSort_before]
    decide +kernel
  obtain ⟨declared, hdeclared, hrun⟩ := Outcome.bind_eq_ok_iff.1 hrun
  obtain ⟨live, hlive, hrun⟩ := Outcome.bind_eq_ok_iff.1 hrun
  obtain ⟨changes, hdiff, hrun⟩ := Outcome.bind_eq_ok_iff.1 hrun
  exact ⟨declared, live, changes, hdeclared, hlive, hdiff, Except.ok.inj hrun,
    diff_order_safe hdeclared ⟨rfl, rfl⟩ hdiff⟩

/-- **An ignored extension may be missing all the time**, also while a table is created whose
columns may have types of it. -/
theorem ignored_extension_missing : ∃ declared changes,
    register [.extension ⟨"plpgsql"⟩,
      .table { name := "t", columns := [{ name := "c", type := .custom "box" }] }] =
        .ok declared ∧
      diff {} declared .empty = .ok changes ∧
      ¬ ∃ schedule : List Step, changes.operations = schedule.map Step.operation ∧
        (∀ step ∈ schedule, step.Fits declared .empty) ∧
        DependenciesPresent (fun _ => true) declared .empty schedule := by
  have hrun : (do
      let declared ← register [.extension ⟨"plpgsql"⟩,
        .table { name := "t", columns := [{ name := "c", type := .custom "box" }] }]
      let changes ← diff {} declared .empty
      pure (changes.operations, declared.dependencies (.table "t"))) =
        .ok (
          [.create (.table { name := "t", columns := [{ name := "c", type := .custom "box" }] })],
          [⟨.extension, "plpgsql"⟩]) := by
    simp only [diff, plan, orderSteps, Step.mergeSort_before]
    decide +kernel
  obtain ⟨declared, hdeclared, hrun⟩ := Outcome.bind_eq_ok_iff.1 hrun
  obtain ⟨changes, hdiff, hrun⟩ := Outcome.bind_eq_ok_iff.1 hrun
  obtain ⟨hoperations, hdependencies⟩ := Prod.mk.inj (Except.ok.inj hrun)
  refine ⟨declared, changes, hdeclared, hdiff, ?_⟩
  rintro ⟨schedule, hschedule, hfits, hpresent⟩
  rw [hoperations] at hschedule
  obtain ⟨step, hsteps, hstep⟩ := List.map_eq_singleton_iff.1 hschedule.symm
  have hfit := hfits step (by rw [hsteps]; exact List.mem_singleton_self step)
  obtain ⟨hphase, hsubject⟩ := hfit.of_create hstep
  have hmem : (⟨.extension, "plpgsql"⟩ : ObjectId) ∈ declared.dependencies step.subject := by
    rw [hsubject]
    simp [SchemaObject.id, hdependencies]
  have hnone := (hpresent [] step [] hsteps hphase _ hmem rfl).1
  cases hnone

end Safety

end Change

end SchemaPlan
