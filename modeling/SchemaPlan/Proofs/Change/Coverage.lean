import SchemaPlan.Proofs.Change.Deeds
import SchemaPlan.Proofs.Graph.References

/-!
# Coverage

A change set does to every object what its two definitions ask for, once, and nothing else.

* `Accounts` says object by object which operations there are.
* `diff_accounts`: the operations of every change set are accounted for.
-/

set_option autoImplicit false

namespace SchemaPlan.Change

/-- **What a schedule does to each object**, ignored extensions aside. -/
structure Accounts (options : DiffOptions) (declared live : SchemaGraph)
    (recreated : List ObjectId) (schedule : List Step) : Prop where
  /-- An object that is live only is dropped. -/
  dropped : ∀ id existing, live.get? id = some existing → id ∉ declared.ids →
    options.ignoresId id = false → deeds schedule id = [(.removal, dropOperation existing)]
  /-- An object that is declared only is created. -/
  created : ∀ id object, declared.get? id = some object → id ∉ live.ids →
    options.ignoresId id = false → deeds schedule id = [(.addition, createOperation object)]
  /-- An object that is created again is dropped as it is live and created as it is declared. -/
  replaced : ∀ id ∈ recreated, ∃ object existing, declared.get? id = some object ∧
    live.get? id = some existing ∧ options.ignoresId id = false ∧
    deeds schedule id = [(.removal, dropOperation existing), (.addition, createOperation object)]
  /-- Any other object that is declared and live is altered as its comparison says, or left alone
  when its definitions are equivalent. -/
  altered : ∀ id object existing, declared.get? id = some object →
    live.get? id = some existing → options.ignoresId id = false → id ∉ recreated →
    ∃ verdict removals additions, compareObjects options object existing = .ok verdict ∧
      verdict.Alters removals additions ∧
      deeds schedule id = alterations id removals additions ∧
      (∀ change ∈ removals, change.removes = true) ∧
      (∀ change ∈ additions, change.removes = false) ∧
      (object.equivalent existing = true → removals = [] ∧ additions = [])
  /-- Nothing is done to anything else. -/
  nothingElse : ∀ step ∈ schedule, options.ignoresId step.subject = false ∧
    (step.subject ∈ declared.ids ∨ step.subject ∈ live.ids)

section Coverage

variable {options : DiffOptions} {declared live : SchemaGraph} {changes : ChangeSet}
  {orders : Orders} {recreated : List ObjectId} {schedule : List Step}

/-- **A schedule accounts for each object** of graphs without ignored extensions. -/
theorem IsSchedule.accounts {sources : List SchemaObject}
    (hdeclared : register sources = .ok declared)
    (h : IsSchedule options (declared.withoutIgnored options) (live.withoutIgnored options)
      changes orders recreated schedule) : Accounts options declared live recreated schedule := by
  have hget : ∀ (graph : SchemaGraph) {id : ObjectId}, options.ignoresId id = false →
      (graph.withoutIgnored options).get? id = graph.get? id := by
    intro graph id hkept
    rw [SchemaGraph.get?_withoutIgnored, hkept]
    rfl
  constructor
  case dropped =>
    intro id existing hexisting hid hkept
    exact deeds_of_live_only h ((hget live hkept).trans hexisting)
      ((hget declared hkept).trans (SchemaGraph.get?_eq_none_iff.2 hid))
  case created =>
    intro id object hobject hid hkept
    exact deeds_of_declared_only h ((hget declared hkept).trans hobject)
      ((hget live hkept).trans (SchemaGraph.get?_eq_none_iff.2 hid))
  case replaced =>
    intro id hid
    obtain ⟨hmem, -⟩ := shared_of_recreatedSet h.recreation id hid
    have hkept := (SchemaGraph.mem_ids_withoutIgnored_iff.1 hmem).2
    obtain ⟨object, existing, hobject, hexisting, hdeeds⟩ := deeds_of_recreated h hid
    rw [hget _ hkept] at hobject hexisting
    exact ⟨object, existing, hobject, hexisting, hkept, hdeeds⟩
  case altered =>
    intro id object existing hobject hexisting hkept hid
    obtain ⟨verdict, removals, additions, hverdict, halters, hdeeds⟩ :=
      deeds_of_altered h ((hget declared hkept).trans hobject)
        ((hget live hkept).trans hexisting) hid
    obtain ⟨hremovals, hadditions⟩ := removes_of_alters hverdict halters
    refine ⟨verdict, removals, additions, hverdict, halters, hdeeds, hremovals, hadditions,
      fun hequivalent => ?_⟩
    have hagrees : object.Agrees existing := by
      refine SchemaObject.agrees_of_canonical_eq (fun t ht => ?_) (beq_iff_eq.1 hequivalent)
      subst ht
      have hmem := (SchemaGraph.get?_eq_some_iff.1 hobject).1
      exact ((Registration.settled_of_register hdeclared).1.sound hmem).1
    rw [compareObjects_of_agrees hagrees] at hverdict
    cases hverdict
    rcases halters with halters | ⟨-, hnil⟩
    · cases halters
    · exact hnil
  case nothingElse =>
    intro step hstep
    rcases h.subject_mem hstep with hmem | hmem
    · obtain ⟨hmem, hkept⟩ := SchemaGraph.mem_ids_withoutIgnored_iff.1 hmem
      exact ⟨hkept, .inl hmem⟩
    · obtain ⟨hmem, hkept⟩ := SchemaGraph.mem_ids_withoutIgnored_iff.1 hmem
      exact ⟨hkept, .inr hmem⟩

/-- **Nothing is lost, doubled or superfluous**: the operations of a change set are those of a
schedule that accounts for each object. -/
theorem diff_accounts {sources : List SchemaObject} (hdeclared : register sources = .ok declared)
    (hhints : options.WithoutHints) (h : diff options declared live = .ok changes) :
    ∃ recreated schedule,
      recreatedSet options (declared.withoutIgnored options) (live.withoutIgnored options) =
        .ok recreated ∧
      changes.operations = schedule.map Step.operation ∧
      Accounts options declared live recreated schedule := by
  rw [diff_eq_plan hhints] at h
  obtain ⟨orders, recreated, schedule, hschedule⟩ := exists_schedule h
  exact ⟨recreated, schedule, hschedule.recreation, hschedule.operations,
    hschedule.accounts hdeclared⟩

/-- An extension that is declared and live stays, a type goes and a table comes. -/
theorem diff_accounts_kept_extension : ∃ declared live changes,
    register [.extension ⟨"citext"⟩,
      .table { name := "t", columns := [{ name := "c", type := .custom "citext" }] }] =
        .ok declared ∧
      register [.extension ⟨"citext"⟩, .enum { name := "mood", labels := ["calm"] }] = .ok live ∧
      diff {} declared live = .ok changes ∧
      changes.operations.map Operation.text = ["Drop enum mood", "Create table t"] ∧
      ∃ recreated schedule,
        recreatedSet {} (declared.withoutIgnored {}) (live.withoutIgnored {}) = .ok recreated ∧
        changes.operations = schedule.map Step.operation ∧
        Accounts {} declared live recreated schedule := by
  have hrun : (do
      let declared ← register [.extension ⟨"citext"⟩,
        .table { name := "t", columns := [{ name := "c", type := .custom "citext" }] }]
      let live ← register [.extension ⟨"citext"⟩, .enum { name := "mood", labels := ["calm"] }]
      let changes ← diff {} declared live
      pure (changes.operations.map Operation.text)) =
        .ok ["Drop enum mood", "Create table t"] := by
    simp only [diff, plan, orderSteps, Step.mergeSort_before]
    decide +kernel
  obtain ⟨declared, hdeclared, hrun⟩ := Outcome.bind_eq_ok_iff.1 hrun
  obtain ⟨live, hlive, hrun⟩ := Outcome.bind_eq_ok_iff.1 hrun
  obtain ⟨changes, hdiff, hrun⟩ := Outcome.bind_eq_ok_iff.1 hrun
  exact ⟨declared, live, changes, hdeclared, hlive, hdiff, Except.ok.inj hrun,
    diff_accounts hdeclared ⟨rfl, rfl⟩ hdiff⟩

end Coverage

end SchemaPlan.Change
