import SchemaPlan.Proofs.Change.Recreation

/-!
# The extent of recreation

Recreation spreads over a work list, from what must go to what depends on it.  Neither the order
of the work list nor cycles among the dependencies show in the outcome.

* `isLeast_createdAgain`: the least set that has what must go and is closed under dependents.
* `recreatedSet_least`: the outcome is this set, or a refusal when a table is in it.
* `recreates_standalone_key`: a key that is an object of its own is recreated like a foreign key.
-/

set_option autoImplicit false

namespace SchemaPlan.Change

variable {options : DiffOptions} {declared live : SchemaGraph}

/-- A set of identities that recreation can stop at: it has what must go by itself, and with an
object the declared ones that depend on it in the live schema. -/
structure IsRecreationClosed (declared live : SchemaGraph) (ids : Set ObjectId) : Prop where
  mustGo : ∀ id, MustGo declared live id → id ∈ ids
  dependents : ∀ cause ∈ ids, ∀ id ∈ declared.ids, cause ∈ live.dependencies id → id ∈ ids

/-- What is created again is the least set that recreation can stop at. -/
theorem isLeast_createdAgain (declared live : SchemaGraph) :
    IsLeast {ids | IsRecreationClosed declared live ids} {id | CreatedAgain declared live id} := by
  constructor
  · exact ⟨fun id hid => .marked hid, fun cause hcause id hid hdep => .dependent hcause hdep hid⟩
  · intro ids hclosed id hid
    induction hid with
    | marked h => exact hclosed.mustGo _ h
    | dependent _ hdep hid ih => exact hclosed.dependents _ ih _ hid hdep

/-- A refusal names a table that would be created again, and the object it depends on. -/
theorem error_of_recreatedSet {decided : List Decision}
    (hdecided : decisions options declared live = .ok decided) {e : SchemaError}
    (h : recreatedSet options declared live = .error e) :
    ∃ table cause, table.kind = .table ∧ CreatedAgain declared live table ∧
      CreatedAgain declared live cause ∧ cause ∈ live.dependencies table ∧
      e = .unsupportedChange table (.recreatedDependency cause) := by
  rw [recreatedSet, hdecided] at h
  have hmarked : Marked declared live _ _ = MustGo declared live :=
    funext fun _ => propext (marked_iff_mustGo hdecided)
  have herror := error_of_recreatedObjects h
  rw [hmarked] at herror
  exact herror

/-- **Recreation reaches exactly the least closure**, and is refused exactly when a table is in
it; the refusal names such a table and what it depends on. -/
theorem recreatedSet_least {decided : List Decision}
    (h : decisions options declared live = .ok decided) :
    ∃ closure : Set ObjectId,
      IsLeast {ids | IsRecreationClosed declared live ids} closure ∧
      ((∀ id ∈ closure, id.kind ≠ .table) → ∃ recreated,
        recreatedSet options declared live = .ok recreated ∧
        ∀ id, id ∈ recreated ↔ id ∈ closure) ∧
      ((∃ id ∈ closure, id.kind = .table) → ∃ table ∈ closure, ∃ cause ∈ closure,
        table.kind = .table ∧ cause ∈ live.dependencies table ∧
        recreatedSet options declared live =
          .error (.unsupportedChange table (.recreatedDependency cause))) := by
  refine ⟨_, isLeast_createdAgain declared live, fun hnone => ?_, fun ⟨id, hid, hkind⟩ => ?_⟩
  · cases hset : recreatedSet options declared live with
    | ok recreated => exact ⟨recreated, rfl, fun id => mem_recreatedSet_iff hset⟩
    | error e =>
      obtain ⟨table, cause, hkind, htable, -⟩ := error_of_recreatedSet h hset
      exact absurd hkind (hnone table htable)
  · cases hset : recreatedSet options declared live with
    | ok recreated =>
      exact absurd hkind (kind_of_mem_recreatedSet hset ((mem_recreatedSet_iff hset).2 hid))
    | error e =>
      obtain ⟨table, cause, hkind, htable, hcause, hdep, rfl⟩ := error_of_recreatedSet h hset
      exact ⟨table, htable, cause, hcause, hkind, hdep, rfl⟩

/-- A function with a result type. -/
def stampFunction (returns : String) : Function where
  name := "stamp"
  returns := returns

/-- A trigger that runs it. -/
def stampTrigger : Trigger where
  name := "touch"
  table := "note"
  function := "stamp"
  events := [.insert]

/-- A table with a default that calls it. -/
def stampedTable : Table where
  name := "note"
  columns := [{ name := "at", type := .text, default := some (.expression "stamp()") }]

/-- A function whose result type changes takes its trigger along.  A table that calls it can not be
taken along. -/
theorem recreatedSet_least_stamp :
    (∃ live declared decided recreated,
      register [.function (stampFunction "void"), .table { name := "note" },
        .trigger stampTrigger] = .ok live ∧
      register [.function (stampFunction "trigger"), .table { name := "note" },
        .trigger stampTrigger] = .ok declared ∧
      decisions {} declared live = .ok decided ∧ recreatedSet {} declared live = .ok recreated ∧
      ⟨.function, "stamp"⟩ ∈ recreated ∧ .within .trigger "note" "touch" ∈ recreated) ∧
    ∃ live declared decided table cause,
      register [.function (stampFunction "text"), .table stampedTable] = .ok live ∧
      register [.function (stampFunction "name"), .table stampedTable] = .ok declared ∧
      decisions {} declared live = .ok decided ∧
      recreatedSet {} declared live =
        .error (.unsupportedChange table (.recreatedDependency cause)) := by
  let stamp : ObjectId := ⟨.function, "stamp"⟩
  constructor
  · let nodes (returns : String) : List GraphNode := [⟨.function (stampFunction returns), []⟩,
      ⟨.table { name := "note" }, []⟩, ⟨.trigger stampTrigger, [stamp, .table "note"]⟩]
    let live : SchemaGraph := .ofNodes (nodes "void")
    let declared : SchemaGraph := .ofNodes (nodes "trigger")
    have hdecides : (decisions {} declared live).toOption.isSome = true := by decide +kernel
    obtain ⟨decided, hdecided⟩ := Option.isSome_iff_exists.1 hdecides
    have hdecided := Outcome.toOption_eq_some_iff.1 hdecided
    obtain ⟨closure, hclosure, hreached, -⟩ := recreatedSet_least hdecided
    have hclash : (stampFunction "trigger").signature ≠ (stampFunction "void").signature := by
      decide +kernel
    have hstamp : stamp ∈ closure := hclosure.1.mustGo _ (.clash
      (by decide +kernel : declared.get? stamp = some (.function (stampFunction "trigger")))
      (by decide +kernel : live.get? stamp = some (.function (stampFunction "void"))) hclash)
    have htrigger : .within .trigger "note" "touch" ∈ closure :=
      hclosure.1.dependents _ hstamp _ (by decide +kernel) (by decide +kernel)
    -- The table depends on nothing, so leaving it out leaves the set closed.
    have hfree : ∀ node ∈ live.nodes, node.id.kind = .table → node.dependsOn = [] := by
      decide +kernel
    have hnoTable : ∀ id ∈ closure, id.kind ≠ .table := by
      refine @hclosure.2 {id | id.kind ≠ .table} ⟨fun id hid => hid.kind_ne_table, ?_⟩
      intro cause _ id _ hdep hkind
      obtain ⟨node, hnode, rfl, hcause⟩ := SchemaGraph.mem_dependencies_iff.1 hdep
      rw [hfree node hnode hkind] at hcause
      exact List.not_mem_nil hcause
    obtain ⟨recreated, hset, hmem⟩ := hreached hnoTable
    exact ⟨live, declared, decided, recreated, by decide +kernel, by decide +kernel, hdecided, hset,
      (hmem _).2 hstamp, (hmem _).2 htrigger⟩
  · let nodes (returns : String) : List GraphNode :=
      [⟨.function (stampFunction returns), []⟩, ⟨.table stampedTable, [stamp]⟩]
    let live : SchemaGraph := .ofNodes (nodes "text")
    let declared : SchemaGraph := .ofNodes (nodes "name")
    have hdecides : (decisions {} declared live).toOption.isSome = true := by decide +kernel
    obtain ⟨decided, hdecided⟩ := Option.isSome_iff_exists.1 hdecides
    have hdecided := Outcome.toOption_eq_some_iff.1 hdecided
    obtain ⟨closure, hclosure, -, hrefused⟩ := recreatedSet_least hdecided
    have hclash : (stampFunction "name").signature ≠ (stampFunction "text").signature := by
      decide +kernel
    have hstamp : stamp ∈ closure := hclosure.1.mustGo _ (.clash
      (by decide +kernel : declared.get? stamp = some (.function (stampFunction "name")))
      (by decide +kernel : live.get? stamp = some (.function (stampFunction "text"))) hclash)
    have htable : .table "note" ∈ closure :=
      hclosure.1.dependents _ hstamp _ (by decide +kernel) (by decide +kernel)
    obtain ⟨table, -, cause, -, -, -, hset⟩ := hrefused ⟨_, htable, rfl⟩
    exact ⟨live, declared, decided, table, cause, by decide +kernel, by decide +kernel, hdecided,
      hset⟩

/-- A table and a unique constraint of it that is an object of its own. -/
def keyObjects (column : String) : List SchemaObject :=
  [.table {
    name := "t"
    columns := [{ name := "a", type := .text }, { name := "b", type := .text }] },
    .constraint ⟨"t", ⟨"key", .unique [column]⟩⟩]

/-- **A key that is an object of its own is created again**, like a foreign key, though nothing
that asks for it is a function, an index, a trigger or a foreign key. -/
theorem recreates_standalone_key : ∃ declared live recreated,
    register (keyObjects "b") = .ok declared ∧ register (keyObjects "a") = .ok live ∧
    recreatedSet {} declared live = .ok recreated ∧
    ¬ IsLeast {ids : Set ObjectId |
        (∀ id, MustGo declared live id →
          (∀ value, live.get? id = some (.constraint value) →
            value.constraint.kind.isForeignKey = true) → id ∈ ids) ∧
        ∀ cause ∈ ids, ∀ id ∈ declared.ids, cause ∈ live.dependencies id → id ∈ ids}
      {id | id ∈ recreated} := by
  have hrun : (do
      let declared ← register (keyObjects "b")
      let live ← register (keyObjects "a")
      let recreated ← recreatedSet {} declared live
      pure (recreated, live.objects)) = .ok ([.within .constraint "t" "key"], keyObjects "a") := by
    decide +kernel
  obtain ⟨declared, hdeclared, hrun⟩ := Outcome.bind_eq_ok_iff.1 hrun
  obtain ⟨live, hlive, hrun⟩ := Outcome.bind_eq_ok_iff.1 hrun
  obtain ⟨recreated, hset, hrun⟩ := Outcome.bind_eq_ok_iff.1 hrun
  obtain ⟨rfl, hobjects⟩ := Prod.mk.inj (Except.ok.inj hrun)
  refine ⟨declared, live, _, hdeclared, hlive, hset, fun hleast => ?_⟩
  -- Nothing at all is closed: the table does not change, and the constraint is no foreign key.
  refine @hleast.2 ∅ ⟨fun id hid hforeign => ?_, fun cause hcause => hcause.elim⟩
    (.within .constraint "t" "key") (List.mem_singleton_self _)
  obtain ⟨existing, hexisting⟩ : ∃ existing, live.get? id = some existing := by
    cases hid with
    | clash _ hexisting _ => exact ⟨_, hexisting⟩
    | keyless hexisting => exact ⟨_, hexisting⟩
  have hmem := (SchemaGraph.get?_eq_some_iff.1 hexisting).1
  rw [hobjects, keyObjects, List.mem_pair] at hmem
  rcases hmem with rfl | rfl
  · have hkind := congrArg ObjectId.kind (SchemaGraph.get?_eq_some_iff.1 hexisting).2
    exact hid.kind_ne_table hkind.symm
  · cases hforeign _ hexisting

end SchemaPlan.Change
