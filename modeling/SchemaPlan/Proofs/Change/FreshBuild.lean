import Mathlib.Data.List.Perm.Basic
import SchemaPlan.Proofs.Change.OrderSafety
import SchemaPlan.Proofs.Change.Propagation
import SchemaPlan.Proofs.Change.Simulation

/-!
# Building and tearing down a whole schema

From nothing a declared schema is built in its order of creation, and down to nothing it is torn
down in its order of deletion.

* `plan_build` and `plan_teardown`: the operations are those orders, object by object.
* `diff_empty_exact`: running them gives the declared graph and the empty one.
-/

set_option autoImplicit false

namespace SchemaPlan

namespace SchemaGraph

/-- A registered graph without ignored extensions stays as it is when they are left out. -/
theorem withoutIgnored_eq_self {sources : List SchemaObject} {graph : SchemaGraph}
    {options : DiffOptions} (h : register sources = .ok graph)
    (hkept : ∀ id ∈ graph.ids, options.ignoresId id = false) :
    graph.withoutIgnored options = graph := by
  have hall : ∀ node ∈ graph.nodes, (!options.ignores node.object) = true := by
    intro node hnode
    rw [DiffOptions.ignores_eq, Bool.not_eq_true']
    exact hkept node.id (List.mem_map_of_mem hnode)
  refine eq_of_nodes_eq ?_
  rw [withoutIgnored, nodes_retain, List.filter_eq_self.2 hall]
  refine (List.map_congr_left fun node hnode => ?_).trans (List.map_id' graph.nodes)
  have hdeps : node.dependsOn.filter (graph.nodes.map GraphNode.id).contains = node.dependsOn := by
    refine List.filter_eq_self.2 fun id hid => List.contains_iff_mem.2 ?_
    exact Registration.closed_of_register h (mem_dependencies_iff.2 ⟨node, hnode, rfl, hid⟩)
  exact congrArg (GraphNode.mk node.object) hdeps

/-- The objects of a graph can be listed along any order of their identities. -/
theorem exists_objects_along {graph : SchemaGraph} {order : List ObjectId}
    (h : order.Perm graph.ids) :
    ∃ objects, graph.objects.Perm objects ∧ objects.map SchemaObject.id = order := by
  rw [← graph.map_id_objects] at h
  obtain ⟨objects, heq, hperm⟩ := (congrFun₂ (List.eq_map_comp_perm SchemaObject.id) _ _).mpr h
  exact ⟨objects, hperm.symm, heq.symm⟩

end SchemaGraph

namespace Change

variable {declared live graph : SchemaGraph} {options : DiffOptions} {order : List ObjectId}

theorem placeIn_getElem (h : order.Nodup) {i : Nat} (hi : i < order.length) :
    placeIn order order[i] = i := by
  have hplace : order.idxOf? order[i] = some i := by
    refine List.idxOf?_eq_some_iff.2 ⟨hi, rfl, fun j hj heq => ?_⟩
    have hij := (List.Nodup.getElem_inj_iff h).1 heq
    omega
  rw [placeIn, hplace]
  rfl

/-- Steps of one phase that are placed along an order run in it when it respects what they need. -/
theorem orderSteps_along (step : SchemaObject → Step) {phase : Phase}
    (hphase : ∀ object, (step object).phase = phase)
    (hposition : ∀ object, (step object).position = placeIn order object.id)
    {xs objects : List SchemaObject} (hperm : xs.Perm objects)
    (hids : objects.map SchemaObject.id = order) (hnodup : order.Nodup)
    (hself : ∀ object ∈ objects, (step object).mustPrecede declared live (step object) = false)
    (hpairs : objects.Pairwise fun a b => (step b).mustPrecede declared live (step a) = false) :
    orderSteps declared live (xs.map step) =
      .ok (objects.map fun object => (step object).operation) := by
  have hplaces : objects.Pairwise fun a b => (step b).before (step a) = false := by
    refine List.pairwise_iff_getElem.2 fun i j hi hj hij => ?_
    have hplace : ∀ {k : Nat} (hk : k < objects.length), placeIn order objects[k].id = k := by
      intro k hk
      have hk' : k < order.length := by rwa [← hids, List.length_map]
      have hget : order[k] = objects[k].id := by
        simp only [← hids, List.getElem_map]
      rw [← hget, placeIn_getElem hnodup hk']
    rw [Bool.eq_false_iff, ne_eq, Step.before_iff, hphase, hphase, hposition, hposition,
      hplace hi, hplace hj]
    omega
  rw [orderSteps_of_ordered (hperm.map step) (List.pairwise_map.2 hplaces)
    (fun s hs => ?_) (List.pairwise_map.2 hpairs), List.map_map]
  · rfl
  · obtain ⟨object, hobject, rfl⟩ := List.mem_map.1 hs
    exact hself object hobject

/-! ## Plans from and to nothing -/

/-- A plan between graphs whose shared objects may stay: it renames, and drops and creates the
others. -/
theorem plan_renames_of_agrees (options : DiffOptions) (orders : Orders)
    (renames : List Operation) {operations : List Operation}
    (hcreation : declared.creationOrder = .ok orders.creation)
    (hdeletion : live.deletionOrder = .ok orders.deletion)
    (hagrees : ∀ object ∈ declared.objects, ∀ existing, live.get? object.id = some existing →
      object.Agrees existing)
    (horder : orderSteps declared live (renames.map renameStep ++
      (objectsNotIn live declared).map (removal orders) ++
      (objectsNotIn declared live).map (addition orders)) = .ok operations) :
    ∃ candidates, plan options declared live renames = .ok ⟨operations, candidates⟩ := by
  let decided := (sharedPairs declared live).map fun pair =>
    (⟨pair.1, pair.2, none, false, []⟩ : Decision)
  have hdecided : decisions options declared live = .ok decided := by
    refine Outcome.mapM_eq_ok_map fun pair hpair => ?_
    obtain ⟨object, hobject, hpair⟩ := List.mem_filterMap.1 hpair
    obtain ⟨existing, hexisting, rfl⟩ := Option.map_eq_some_iff.1 hpair
    exact Outcome.map_eq_ok_iff.2
      ⟨_, compareObjects_of_agrees (hagrees object hobject existing hexisting), rfl⟩
  have hverdict : ∀ decision ∈ decided, decision.verdict = ⟨none, false, []⟩ := by
    intro decision hdecision
    obtain ⟨pair, -, rfl⟩ := List.mem_map.1 hdecision
    rfl
  obtain ⟨hrecreate, hkeyless⟩ := filter_eq_nil_of_unchanged hverdict
  have hrecreated : recreatedObjects declared live
      ((decided.filter fun d => d.verdict.change == some .recreate).map fun d => d.declared.id)
      ((decided.filter fun d => d.verdict.dropsKey).map fun d => d.declared.id.name) = .ok [] := by
    rw [hrecreate, hkeyless]
    exact recreatedObjects_nil
  have hsteps : decisionSteps orders [] decided = [] := by
    refine List.flatMap_eq_nil_iff.2 fun d hd => ?_
    rw [change?_of_not_mem List.not_mem_nil, hverdict d hd]
    rfl
  refine ⟨_, Outcome.bind_eq_ok_iff.2 ⟨_, hcreation, Outcome.bind_eq_ok_iff.2 ⟨_, hdeletion,
    Outcome.bind_eq_ok_iff.2 ⟨decided, hdecided, Outcome.bind_eq_ok_iff.2
      ⟨[], hrecreated, Outcome.bind_eq_ok_iff.2 ⟨operations, ?_, rfl⟩⟩⟩⟩⟩⟩
  rw [hsteps, List.append_nil]
  exact horder

/-- A plan between graphs whose shared objects may stay: it drops and creates the others. -/
theorem plan_of_agrees (options : DiffOptions) (orders : Orders) {operations : List Operation}
    (hcreation : declared.creationOrder = .ok orders.creation)
    (hdeletion : live.deletionOrder = .ok orders.deletion)
    (hagrees : ∀ object ∈ declared.objects, ∀ existing, live.get? object.id = some existing →
      object.Agrees existing)
    (horder : orderSteps declared live ((objectsNotIn live declared).map (removal orders) ++
      (objectsNotIn declared live).map (addition orders)) = .ok operations) :
    ∃ candidates, plan options declared live [] = .ok ⟨operations, candidates⟩ :=
  plan_renames_of_agrees options orders [] hcreation hdeletion hagrees horder

theorem objectsNotIn_empty (graph : SchemaGraph) : objectsNotIn graph .empty = graph.objects :=
  List.filter_eq_self.2 fun _ _ => rfl

/-- **From nothing the objects are created in their order of creation.** -/
theorem plan_build (h : graph.creationOrder = .ok order) : ∃ objects candidates,
    objects.map SchemaObject.id = order ∧ graph.objects.Perm objects ∧
      plan options graph .empty [] = .ok ⟨objects.map createOperation, candidates⟩ := by
  obtain ⟨hids, hself, hpairs⟩ := SchemaGraph.creationOrder_spec h
  obtain ⟨objects, hobjects, hmap⟩ := SchemaGraph.exists_objects_along hids
  let orders : Orders := ⟨order, []⟩
  have horder : orderSteps graph .empty (graph.objects.map (addition orders)) =
      .ok (objects.map fun object => (addition orders object).operation) := by
    refine orderSteps_along (addition orders) (fun _ => rfl) (fun _ => rfl) hobjects hmap
      (hids.nodup_iff.2 graph.nodup_ids) (fun object _ => ?_) ?_
    · exact Bool.eq_false_iff.2 fun hmem => hself object.id (List.contains_iff_mem.1 hmem)
    · rw [← hmap, List.pairwise_map] at hpairs
      exact hpairs.imp fun hab => Bool.eq_false_iff.2 fun hmem => hab (List.contains_iff_mem.1 hmem)
  rw [← objectsNotIn_empty graph] at horder
  obtain ⟨candidates, hplan⟩ := plan_of_agrees options orders h
    SchemaGraph.deletionOrder_empty (fun _ _ _ hexisting => nomatch hexisting) horder
  simp only [addition_operation] at hplan
  exact ⟨objects, candidates, hmap, hobjects, hplan⟩

/-- **Down to nothing the objects are dropped in their order of deletion.** -/
theorem plan_teardown (h : graph.deletionOrder = .ok order) : ∃ objects candidates,
    objects.map SchemaObject.id = order ∧ graph.objects.Perm objects ∧
      plan options .empty graph [] = .ok ⟨objects.map dropOperation, candidates⟩ := by
  obtain ⟨hids, hself, hpairs⟩ :=
    SchemaGraph.creationOrder_spec (SchemaGraph.deletionOrder_eq_ok_iff.1 h)
  have hids := (List.reverse_perm order).symm.trans hids
  rw [List.pairwise_reverse] at hpairs
  obtain ⟨objects, hobjects, hmap⟩ := SchemaGraph.exists_objects_along hids
  let orders : Orders := ⟨[], order⟩
  have horder : orderSteps .empty graph (graph.objects.map (removal orders)) =
      .ok (objects.map fun object => (removal orders object).operation) := by
    refine orderSteps_along (removal orders) (fun _ => rfl) (fun _ => rfl) hobjects hmap
      (hids.nodup_iff.2 graph.nodup_ids) (fun object _ => ?_) ?_
    · exact Bool.eq_false_iff.2 fun hmem => hself object.id (List.contains_iff_mem.1 hmem)
    · rw [← hmap, List.pairwise_map] at hpairs
      exact hpairs.imp fun hab => Bool.eq_false_iff.2 fun hmem => hab (List.contains_iff_mem.1 hmem)
  have hsteps : (objectsNotIn graph .empty).map (removal orders) ++
      (objectsNotIn .empty graph).map (addition orders) = graph.objects.map (removal orders) := by
    rw [objectsNotIn_empty]
    exact List.append_nil _
  rw [← hsteps] at horder
  obtain ⟨candidates, hplan⟩ := plan_of_agrees options orders
    SchemaGraph.creationOrder_empty h (fun _ hobject => absurd hobject List.not_mem_nil) horder
  simp only [removal_operation] at hplan
  exact ⟨objects, candidates, hmap, hobjects, hplan⟩

/-! ## Running the plans -/

/-- A change set builds a graph from nothing, one object of an order after the other. -/
structure Builds (graph : SchemaGraph) (order : List ObjectId) (changes : ChangeSet) : Prop where
  operations : List.Forall₂ (fun id operation => ∃ object, graph.get? id = some object ∧
    operation = createOperation object) order changes.operations
  notDestructive : changes.isDestructive = false
  applyTo_empty : applyTo changes.operations .empty = .ok graph

/-- A change set tears a graph down to nothing, one object of an order after the other. -/
structure TearsDown (graph : SchemaGraph) (order : List ObjectId) (changes : ChangeSet) :
    Prop where
  operations : List.Forall₂ (fun id operation => ∃ object, graph.get? id = some object ∧
    operation = dropOperation object) order changes.operations
  applyTo_graph : applyTo changes.operations graph = .ok .empty

theorem isDestructive_createOperation (object : SchemaObject) :
    (createOperation object).isDestructive = false := by
  cases object <;> rfl

/-- The operations on the objects of a graph, along their identities. -/
theorem forall₂_operations {objects : List SchemaObject} (f : SchemaObject → Operation)
    (hperm : graph.objects.Perm objects) :
    List.Forall₂ (fun id operation => ∃ object, graph.get? id = some object ∧
      operation = f object) (objects.map SchemaObject.id) (objects.map f) := by
  rw [List.forall₂_map_left_iff, List.forall₂_map_right_iff, List.forall₂_same]
  intro object hobject
  exact ⟨object, SchemaGraph.get?_of_mem (hperm.mem_iff.2 hobject), rfl⟩

theorem applyTo_build {sources : List SchemaObject} {changes : ChangeSet}
    (h : register sources = .ok graph)
    (halone : ∀ object ∈ graph.objects, object.StandsAlone)
    (hplan : plan options graph .empty [] = .ok changes) :
    applyTo changes.operations .empty = .ok graph := by
  obtain ⟨orders, recreated, schedule, hschedule⟩ := exists_schedule hplan
  obtain ⟨objects, hrun, hobjects⟩ := hschedule.exists_run .empty graph.get? fun id => by
    cases hobject : graph.get? id with
    | none =>
      rw [deeds_of_neither hschedule hobject rfl]
      rfl
    | some object =>
      rw [deeds_of_declared_only hschedule hobject rfl]
      obtain ⟨hmem, rfl⟩ := SchemaGraph.get?_eq_some_iff.1 hobject
      exact leads_singleton (acts_create (halone object hmem))
  refine Outcome.bind_eq_ok_iff.2 ⟨objects, hrun, ?_⟩
  exact Registration.register_objects h (hobjects.perm (represents_graph graph))

theorem applyTo_teardown {changes : ChangeSet}
    (halone : ∀ object ∈ graph.objects, object.StandsAlone)
    (hplan : plan options .empty graph [] = .ok changes) :
    applyTo changes.operations graph = .ok .empty := by
  obtain ⟨orders, recreated, schedule, hschedule⟩ := exists_schedule hplan
  obtain ⟨objects, hrun, hobjects⟩ := hschedule.exists_run graph SchemaGraph.empty.get? fun id => by
    cases hobject : graph.get? id with
    | none =>
      rw [deeds_of_neither hschedule rfl hobject]
      rfl
    | some object =>
      rw [deeds_of_live_only hschedule hobject rfl]
      obtain ⟨hmem, rfl⟩ := SchemaGraph.get?_eq_some_iff.1 hobject
      exact leads_singleton (acts_drop (halone object hmem))
  have hnil : objects = [] := (hobjects.perm (represents_graph .empty)).eq_nil
  refine Outcome.bind_eq_ok_iff.2 ⟨objects, hrun, ?_⟩
  rw [hnil]
  rfl

/-- **A fresh build and a full teardown are exact**: without cycles they follow the orders of
creation and deletion and lead to the graph and to nothing, and with one they are refused. -/
theorem diff_empty_exact {declaration : Declaration} (h : declaration.register = .ok graph)
    (hhints : options.WithoutHints) (hkept : ∀ id ∈ graph.ids, options.ignoresId id = false) :
    (graph.Acyclic →
      (∃ order changes, graph.creationOrder = .ok order ∧
        diff options graph .empty = .ok changes ∧ Builds graph order changes) ∧
      ∃ order changes, graph.deletionOrder = .ok order ∧
        diff options .empty graph = .ok changes ∧ TearsDown graph order changes) ∧
    (¬graph.Acyclic →
      (∃ cycle, diff options graph .empty = .error (.cyclicDependency cycle)) ∧
      ∃ cycle, diff options .empty graph = .error (.cyclicDependency cycle)) := by
  have halone : ∀ object ∈ graph.objects, object.StandsAlone := fun _ hobject =>
    Registration.standsAlone_of_register h declaration.standsAlone_objects hobject
  rw [diff_eq_plan hhints, diff_eq_plan hhints, SchemaGraph.withoutIgnored_empty,
    SchemaGraph.withoutIgnored_eq_self h hkept, ← SchemaGraph.exists_creationOrder_iff h]
  constructor
  · rintro ⟨order, horder⟩
    constructor
    · obtain ⟨objects, candidates, hids, hperm, hplan⟩ := plan_build horder
      refine ⟨order, _, horder, hplan, ?_, ?_, applyTo_build h halone hplan⟩
      · rw [← hids]
        exact forall₂_operations createOperation hperm
      · rw [ChangeSet.isDestructive, List.any_map, List.any_eq_false]
        intro object _
        rw [Function.comp, isDestructive_createOperation]
        exact Bool.false_ne_true
    · have hdeletion : graph.deletionOrder = .ok order.reverse := by
        rw [SchemaGraph.deletionOrder_eq_ok_iff, List.reverse_reverse]
        exact horder
      obtain ⟨objects, candidates, hids, hperm, hplan⟩ := plan_teardown hdeletion
      refine ⟨order.reverse, _, hdeletion, hplan, ?_, applyTo_teardown halone hplan⟩
      rw [← hids]
      exact forall₂_operations dropOperation hperm
  · intro hcyclic
    obtain ⟨cycle, hcycle⟩ := SchemaGraph.creationOrder_eq_error hcyclic
    constructor
    · refine ⟨cycle, ?_⟩
      rw [plan, hcycle]
      rfl
    · refine ⟨cycle, ?_⟩
      rw [plan, SchemaGraph.creationOrder_empty, SchemaGraph.deletionOrder, hcycle]
      rfl

/-- A table with a foreign key to another one is built and torn down. -/
theorem diff_empty_exact_foreign_key : ∃ graph : SchemaGraph,
    Declaration.register {
      name := "app"
      tables := [{
        name := "asset", columns := [{ name := "owner", type := .uuid }]
        constraints := [{
          name := "asset_owner"
          kind := .foreignKey {
            columns := ["owner"], referencesTable := "user", referencesColumns := ["id"] } }] },
        { name := "user", columns := [{ name := "id", type := .uuid }] }] } = .ok graph ∧
    (∀ id ∈ graph.ids, DiffOptions.ignoresId {} id = false) ∧
    graph.creationOrder =
      .ok [.table "asset", .table "user", .within .constraint "asset" "asset_owner"] ∧
    (graph.Acyclic →
      (∃ order changes, graph.creationOrder = .ok order ∧
        diff {} graph .empty = .ok changes ∧ Builds graph order changes) ∧
      ∃ order changes, graph.deletionOrder = .ok order ∧
        diff {} .empty graph = .ok changes ∧ TearsDown graph order changes) ∧
    (¬graph.Acyclic →
      (∃ cycle, diff {} graph .empty = .error (.cyclicDependency cycle)) ∧
      ∃ cycle, diff {} .empty graph = .error (.cyclicDependency cycle)) := by
  have hrun : (do
      let graph ← Declaration.register {
        name := "app"
        tables := [{
          name := "asset", columns := [{ name := "owner", type := .uuid }]
          constraints := [{
            name := "asset_owner"
            kind := .foreignKey {
              columns := ["owner"], referencesTable := "user", referencesColumns := ["id"] } }] },
          { name := "user", columns := [{ name := "id", type := .uuid }] }] }
      let order ← graph.creationOrder
      pure (graph.ids.map (DiffOptions.ignoresId {}), order)) =
        .ok ([false, false, false],
          [.table "asset", .table "user", .within .constraint "asset" "asset_owner"]) := by
    decide +kernel
  obtain ⟨graph, hgraph, hrun⟩ := Outcome.bind_eq_ok_iff.1 hrun
  obtain ⟨order, horder, hrun⟩ := Outcome.bind_eq_ok_iff.1 hrun
  obtain ⟨hignored, rfl⟩ := Prod.mk.inj (Except.ok.inj hrun)
  have hkept : ∀ id ∈ graph.ids, DiffOptions.ignoresId {} id = false := by
    intro id hid
    have hmem := List.mem_map_of_mem (f := DiffOptions.ignoresId {}) hid
    rw [hignored] at hmem
    simpa using hmem
  exact ⟨graph, hgraph, hkept, horder, diff_empty_exact hgraph ⟨rfl, rfl⟩ hkept⟩

end Change

end SchemaPlan
