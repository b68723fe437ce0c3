import SchemaPlan.Change.Propagation
import SchemaPlan.Proofs.Graph.Basic

/-!
# What is created again

* `mem_of_spread`: spreading keeps the marked objects and adds candidates only.
* `error_of_spread`, `kind_of_spread`: it fails at a table, so it adds none.
* `shared_of_recreatedObjects`: only objects that are declared and live are created again.
* `mem_recreatedObjects_iff`: these are the marked objects and what they take along, and no others.
-/

set_option autoImplicit false

namespace SchemaPlan.Change

variable {declared live : SchemaGraph} {id : ObjectId}

theorem mem_of_spread {candidates stack recreated result : List ObjectId}
    (h : spread live candidates stack recreated = .ok result) :
    recreated ⊆ result ∧ ∀ id ∈ result, id ∈ recreated ∨ id ∈ candidates := by
  fun_induction spread live candidates stack recreated with
  | case1 candidates recreated =>
    cases h
    exact ⟨List.Subset.refl _, fun _ hid => .inl hid⟩
  | case2 => cases h
  | case3 candidates recreated cause stack _ ih =>
    obtain ⟨hkept, hadded⟩ := ih h
    refine ⟨fun x hx => hkept (List.mem_append_left _ hx), fun x hx => ?_⟩
    rcases hadded x hx with hx | hx
    · rcases List.mem_append.1 hx with hx | hx
      · exact .inl hx
      · exact .inr (List.mem_filter.1 hx).1
    · exact .inr (List.mem_filter.1 hx).1

/-- No table is taken along. -/
theorem kind_of_spread {candidates stack recreated result : List ObjectId}
    (h : spread live candidates stack recreated = .ok result) :
    ∀ id ∈ result, id ∈ recreated ∨ id.kind ≠ .table := by
  fun_induction spread live candidates stack recreated with
  | case1 candidates recreated =>
    cases h
    exact fun _ hid => .inl hid
  | case2 => cases h
  | case3 candidates recreated cause stack hnone ih =>
    intro id hid
    rcases ih h id hid with hid | hid
    · rcases List.mem_append.1 hid with hid | hid
      · exact .inl hid
      · have hkind := List.find?_eq_none.1 hnone id hid
        exact .inr fun htable => hkind (beq_iff_eq.2 htable)
    · exact .inr hid

/-- Nothing spreads from nothing. -/
theorem spread_nil (candidates : List ObjectId) : spread live candidates [] [] = .ok [] := by
  rw [spread]

theorem recreatedObjects_nil : recreatedObjects declared live [] [] = .ok [] :=
  spread_nil _

/-- **Only objects that are declared and live are created again**, and those whose definition
demands it are. -/
theorem shared_of_recreatedObjects {recreate : List ObjectId} {keyless : List String}
    {recreated : List ObjectId} (hrecreate : ∀ id ∈ recreate, id ∈ declared.ids ∧ id ∈ live.ids)
    (h : recreatedObjects declared live recreate keyless = .ok recreated) :
    recreate ⊆ recreated ∧ ∀ id ∈ recreated, id ∈ declared.ids ∧ id ∈ live.ids := by
  obtain ⟨hkept, hadded⟩ := mem_of_spread h
  refine ⟨fun x hx => hkept (List.mem_append_left _ hx), fun x hx => ?_⟩
  rcases hadded x hx with hx | hx
  · rcases List.mem_append.1 hx with hx | hx
    · exact hrecreate x hx
    · obtain ⟨table, -, hx⟩ := List.mem_flatMap.1 hx
      obtain ⟨hx, hcontains⟩ := List.mem_filter.1 hx
      obtain ⟨object, hobject, rfl⟩ := List.mem_map.1 hx
      rw [Bool.and_eq_true, SchemaGraph.contains_iff] at hcontains
      refine ⟨hcontains.1, ?_⟩
      rw [← live.map_id_objects]
      exact List.mem_map_of_mem (List.mem_filter.1 hobject).1
  · obtain ⟨hx, -⟩ := List.mem_filter.1 hx
    obtain ⟨hx, hcontains⟩ := List.mem_filter.1 hx
    exact ⟨SchemaGraph.contains_iff.1 hcontains, hx⟩

/-! ## What is taken along -/

/-- The marked objects, and the declared ones that depend on such an object in the live graph,
directly or through others. -/
inductive TakenAlong (declared live : SchemaGraph) (marked : ObjectId → Prop) : ObjectId → Prop
  | marked {id : ObjectId} (h : marked id) : TakenAlong declared live marked id
  | dependent {cause id : ObjectId} (h : TakenAlong declared live marked cause)
      (hdep : cause ∈ live.dependencies id) (hid : id ∈ declared.ids) :
      TakenAlong declared live marked id

theorem dependsOn_iff {cause : ObjectId} :
    dependsOn live cause id = true ↔ cause ∈ live.dependencies id :=
  List.contains_iff_mem

/-- What holds of the marked objects and goes over to dependents holds of all that is reached. -/
theorem forall_of_spread {P : ObjectId → Prop}
    {candidates stack recreated result : List ObjectId}
    (h : spread live candidates stack recreated = .ok result)
    (hstack : ∀ id ∈ stack, P id) (hrecreated : ∀ id ∈ recreated, P id)
    (hstep : ∀ cause id, P cause → id ∈ candidates → cause ∈ live.dependencies id → P id) :
    ∀ id ∈ result, P id := by
  fun_induction spread live candidates stack recreated with
  | case1 candidates recreated =>
    cases h
    exact hrecreated
  | case2 => cases h
  | case3 candidates recreated cause stack _ ih =>
    obtain ⟨hcause, hrest⟩ := List.forall_mem_cons.1 hstack
    have hhits : ∀ id ∈ hits live candidates cause, P id := by
      intro id hid
      obtain ⟨hmem, hdep⟩ := List.mem_filter.1 hid
      exact hstep cause id hcause hmem (dependsOn_iff.1 hdep)
    refine ih h (fun id hid => ?_) (fun id hid => ?_) fun other id hother hid hdep =>
      hstep other id hother (List.mem_filter.1 hid).1 hdep
    · rcases List.mem_append.1 hid with hid | hid
      · exact hhits id (List.mem_reverse.1 hid)
      · exact hrest id hid
    · rcases List.mem_append.1 hid with hid | hid
      · exact hrecreated id hid
      · exact hhits id hid

/-- Spreading fails at a table that depends on an object that is reached. -/
theorem error_of_spread {P : ObjectId → Prop} {candidates stack recreated : List ObjectId}
    {e : SchemaError} (h : spread live candidates stack recreated = .error e)
    (hstack : ∀ id ∈ stack, P id)
    (hstep : ∀ cause id, P cause → id ∈ candidates → cause ∈ live.dependencies id → P id) :
    ∃ table cause, table.kind = .table ∧ P table ∧ P cause ∧
      cause ∈ live.dependencies table ∧
      e = .unsupportedChange table (.recreatedDependency cause) := by
  fun_induction spread live candidates stack recreated with
  | case1 => cases h
  | case2 candidates recreated cause stack table hfound =>
    cases h
    have hcause := hstack cause List.mem_cons_self
    obtain ⟨hmem, hdep⟩ := List.mem_filter.1 (List.mem_of_find?_eq_some hfound)
    have hdep := dependsOn_iff.1 hdep
    have hkind := List.find?_some hfound
    exact ⟨table, cause, beq_iff_eq.1 hkind, hstep cause table hcause hmem hdep, hcause, hdep, rfl⟩
  | case3 candidates recreated cause stack _ ih =>
    refine ih h (fun id hid => ?_) fun other id hother hid hdep =>
      hstep other id hother (List.mem_filter.1 hid).1 hdep
    rcases List.mem_append.1 hid with hid | hid
    · obtain ⟨hmem, hdep⟩ := List.mem_filter.1 (List.mem_reverse.1 hid)
      exact hstep cause id (hstack cause List.mem_cons_self) hmem (dependsOn_iff.1 hdep)
    · exact hstack id (List.mem_cons_of_mem _ hid)

/-- Spreading ends when every candidate that depends on a reached object is reached.  On the way,
the reached objects that are no longer on the stack have no dependents among the candidates. -/
theorem closed_of_spread {candidates stack recreated result : List ObjectId}
    (h : spread live candidates stack recreated = .ok result)
    (hdone : ∀ cause ∈ recreated, cause ∉ stack → ∀ id ∈ candidates,
      cause ∉ live.dependencies id) :
    ∀ cause ∈ result, ∀ id ∈ candidates, cause ∈ live.dependencies id → id ∈ result := by
  fun_induction spread live candidates stack recreated with
  | case1 candidates recreated =>
    cases h
    intro cause hcause id hid hdep
    exact absurd hdep (hdone cause hcause List.not_mem_nil id hid)
  | case2 => cases h
  | case3 candidates recreated cause stack _ ih =>
    have hnext : ∀ other ∈ recreated ++ hits live candidates cause,
        other ∉ (hits live candidates cause).reverse ++ stack →
          ∀ id ∈ misses live candidates cause, other ∉ live.dependencies id := by
      intro other hother hstack id hid
      obtain ⟨hcandidate, hmiss⟩ := List.mem_filter.1 hid
      simp only [List.mem_append, List.mem_reverse, not_or] at hother hstack
      by_cases heq : other = cause
      · rw [heq, ← dependsOn_iff]
        simpa using hmiss
      · refine hdone other (hother.resolve_right hstack.1) ?_ id hcandidate
        rw [List.mem_cons, not_or]
        exact ⟨heq, hstack.2⟩
    intro other hother id hid hdep
    by_cases hhit : dependsOn live cause id = true
    · refine (mem_of_spread h).1 (List.mem_append_right _ ?_)
      exact List.mem_filter.2 ⟨hid, hhit⟩
    · refine ih h hnext other hother id (List.mem_filter.2 ⟨hid, ?_⟩) hdep
      simpa using hhit

/-- The objects that are marked at first. -/
def Marked (declared live : SchemaGraph) (recreate : List ObjectId) (keyless : List String)
    (id : ObjectId) : Prop :=
  id ∈ recreate ∨ id ∈ declared.ids ∧ ∃ object ∈ live.objects, object.id = id ∧
    ∃ table ∈ keyless, refersToAny [table] object = true

/-- What is created again spreads from the marked objects. -/
theorem recreatedObjects_eq_spread (declared live : SchemaGraph) (recreate : List ObjectId)
    (keyless : List String) :
    ∃ marked : List ObjectId, (∀ id, id ∈ marked ↔ Marked declared live recreate keyless id) ∧
      recreatedObjects declared live recreate keyless =
        spread live ((live.ids.filter declared.contains).filter fun id => !marked.contains id)
          marked.reverse marked := by
  refine ⟨_, fun id => ?_, rfl⟩
  rw [Marked, List.mem_append]
  simp only [List.mem_flatMap, List.mem_filter, List.mem_map, Bool.and_eq_true,
    SchemaGraph.contains_iff, Bool.not_eq_true', List.contains_eq_mem, decide_eq_false_iff_not]
  constructor
  · rintro (hid | ⟨table, htable, ⟨object, ⟨hobject, hrefers⟩, hid⟩, hdeclared, -⟩)
    · exact .inl hid
    · exact .inr ⟨hdeclared, object, hobject, hid, table, htable, hrefers⟩
  · rintro (hid | ⟨hdeclared, object, hobject, hid, table, htable, hrefers⟩)
    · exact .inl hid
    · by_cases hrecreate : id ∈ recreate
      · exact .inl hrecreate
      · exact .inr ⟨table, htable, ⟨object, ⟨hobject, hrefers⟩, hid⟩, hdeclared, hrecreate⟩

/-- **The objects that are created again are the marked ones and what they take along.** -/
theorem mem_recreatedObjects_iff {recreate : List ObjectId} {keyless : List String}
    {recreated : List ObjectId}
    (h : recreatedObjects declared live recreate keyless = .ok recreated) :
    id ∈ recreated ↔ TakenAlong declared live (Marked declared live recreate keyless) id := by
  obtain ⟨marked, hmarked, hspread⟩ := recreatedObjects_eq_spread declared live recreate keyless
  rw [hspread] at h
  constructor
  · intro hid
    refine forall_of_spread h (fun id hid => ?_) (fun id hid => ?_)
      (fun cause id hcause hid hdep => ?_) id hid
    · exact .marked ((hmarked id).1 (List.mem_reverse.1 hid))
    · exact .marked ((hmarked id).1 hid)
    · have hshared := List.mem_filter.1 (List.mem_filter.1 hid).1
      exact .dependent hcause hdep (SchemaGraph.contains_iff.1 hshared.2)
  · have hkept := (mem_of_spread h).1
    have hclosed := closed_of_spread h fun cause hcause hstack =>
      absurd (List.mem_reverse.2 hcause) hstack
    intro htaken
    induction htaken with
    | marked hid => exact hkept ((hmarked _).2 hid)
    | @dependent cause id _ hdep hdeclared ih =>
      by_cases hid : id ∈ marked
      · exact hkept hid
      · refine hclosed cause ih id (List.mem_filter.2 ⟨List.mem_filter.2 ⟨?_, ?_⟩, ?_⟩) hdep
        · exact SchemaGraph.mem_ids_of_mem_dependencies hdep
        · exact SchemaGraph.contains_iff.2 hdeclared
        · simpa using hid

/-- Creating again fails at a table that would be taken along. -/
theorem error_of_recreatedObjects {recreate : List ObjectId} {keyless : List String}
    {e : SchemaError} (h : recreatedObjects declared live recreate keyless = .error e) :
    ∃ table cause, table.kind = .table ∧
      TakenAlong declared live (Marked declared live recreate keyless) table ∧
      TakenAlong declared live (Marked declared live recreate keyless) cause ∧
      cause ∈ live.dependencies table ∧
      e = .unsupportedChange table (.recreatedDependency cause) := by
  obtain ⟨marked, hmarked, hspread⟩ := recreatedObjects_eq_spread declared live recreate keyless
  rw [hspread] at h
  refine error_of_spread h (fun id hid => ?_) fun cause id hcause hid hdep => ?_
  · exact .marked ((hmarked id).1 (List.mem_reverse.1 hid))
  · have hshared := List.mem_filter.1 (List.mem_filter.1 hid).1
    exact .dependent hcause hdep (SchemaGraph.contains_iff.1 hshared.2)

end SchemaPlan.Change
