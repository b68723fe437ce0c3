import SchemaPlan.Change.ConfirmedRename
import SchemaPlan.Change.Propagation
import SchemaPlan.Graph.CreationOrder

/-!
# Planning the operations

Every decision becomes a step: a rename, a removal or an addition.  `Step.mustPrecede` says which
step needs another to run first, and a topological sort orders them.  Where it leaves a choice,
renames go first, then removals in the order of deletion, then additions in the order of
creation.

* `diff` compares a declared schema with a live one.
-/

set_option autoImplicit false

namespace SchemaPlan

namespace Change

/-! ## Steps -/

/-- What a step does to its subject. -/
inductive Phase where
  | rename
  | removal
  | addition
deriving DecidableEq, Repr

/-- The place of a phase among all. -/
def Phase.rank : Phase → Nat
  | rename => 0
  | removal => 1
  | addition => 2

/-- A planned operation: what it does to which object, and the place of that object in the order
of deletion or creation. -/
structure Step where
  phase : Phase
  position : Nat
  subject : ObjectId
  operation : Operation
deriving DecidableEq, Repr

/-- Whether a step goes before another unless it has to wait. -/
def Step.before (a b : Step) : Bool :=
  ((compare a.phase.rank b.phase.rank).then (compare a.position b.position)).isLE

/-- Whether a step needs another to run first.

* An addition needs the additions of its declared dependencies and the removal of its subject.
* A removal needs the removals of its live dependents, and the additions of the tables that stop
  using its subject when that is dropped for good. -/
def Step.mustPrecede (declared live : SchemaGraph) (a b : Step) : Bool :=
  match a.phase, b.phase with
  | .addition, .addition => (declared.dependencies b.subject).contains a.subject
  | .removal, .addition => a.subject == b.subject
  | .removal, .removal => (live.dependencies a.subject).contains b.subject
  | .addition, .removal =>
    a.subject.kind == .table && (live.dependencies a.subject).contains b.subject &&
      !(declared.dependencies a.subject).contains b.subject && !declared.contains b.subject
  | .rename, _ | _, .rename => false

/-! ## Decisions -/

/-- The place of an object in an order. -/
def placeIn (order : List ObjectId) (id : ObjectId) : Nat :=
  (order.idxOf? id).getD 0

/-- The orders by which steps are placed. -/
structure Orders where
  creation : List ObjectId
  deletion : List ObjectId

/-- The removal of an object; foreign keys are dropped from their table. -/
def removal (orders : Orders) (object : SchemaObject) : Step :=
  { phase := .removal
    position := placeIn orders.deletion object.id
    subject := object.id
    operation :=
      match object with
      | .constraint c => .alter (.table c.table) [.dropConstraint c.constraint]
      | object => .drop object }

/-- The addition of an object; foreign keys are added to their table. -/
def addition (orders : Orders) (object : SchemaObject) : Step :=
  { phase := .addition
    position := placeIn orders.creation object.id
    subject := object.id
    operation :=
      match object with
      | .constraint c => .alter (.table c.table) [.addConstraint c.constraint]
      | object => .create object }

/-- The steps of an object that is declared and live. -/
def changeSteps (orders : Orders) (declared live : SchemaObject) : Update → List Step
  | .recreate => [removal orders live, addition orders declared]
  | .alter removals additions =>
    let id := declared.id
    (if removals.isEmpty then []
      else [⟨.removal, placeIn orders.deletion id, id, .alter id removals⟩]) ++
      (if additions.isEmpty then []
        else [⟨.addition, placeIn orders.creation id, id, .alter id additions⟩])

/-- A declared object with its live definition and the outcome of their comparison. -/
structure Decision where
  declared : SchemaObject
  live : SchemaObject
  verdict : Verdict

/-- Compares all objects that are declared and live. -/
def decisions (options : DiffOptions) (declared live : SchemaGraph) :
    Except SchemaError (List Decision) :=
  (declared.objects.filterMap fun object =>
      (live.get? object.id).map fun existing => (object, existing)).mapM
    fun (object, existing) =>
      (compareObjects options object existing).map fun verdict => ⟨object, existing, verdict⟩

/-- The change of an object; one that has to be created again is not altered. -/
def Decision.change? (recreated : List ObjectId) (decision : Decision) : Option Update :=
  if recreated.contains decision.declared.id then some .recreate else decision.verdict.change

/-- The steps of all decisions. -/
def decisionSteps (orders : Orders) (recreated : List ObjectId) (decisions : List Decision) :
    List Step :=
  decisions.flatMap fun decision =>
    ((decision.change? recreated).toList).flatMap (changeSteps orders decision.declared decision.live)

/-- The objects of one graph that another does not have. -/
def objectsNotIn (graph other : SchemaGraph) : List SchemaObject :=
  graph.objects.filter fun object => !other.contains object.id

/-! ## Order -/

/-- The places of the steps that must run before a step. -/
def prerequisitePlaces (declared live : SchemaGraph) (steps : List Step) (step : Step) : List Nat :=
  ((steps.zipIdx.filter fun entry => entry.1.mustPrecede declared live step)).map Prod.snd

/-- The operations of steps in an order in which every step runs behind those it needs. -/
def orderSteps (declared live : SchemaGraph) (steps : List Step) :
    Except SchemaError (List Operation) :=
  let sorted := steps.mergeSort Step.before
  let entries : List (Order.Prerequisites Nat) :=
    sorted.zipIdx.map fun (step, place) => ⟨place, prerequisitePlaces declared live sorted step⟩
  let operationsAt (places : List Nat) : List Operation :=
    places.filterMap fun place => (sorted[place]?).map Step.operation
  match Order.Topological.sort entries with
  | .ok order => .ok (operationsAt order)
  | .error cycle => .error (.cyclicDependency ((operationsAt cycle).map Operation.text))

/-- The operations from a live schema, after its renames, to a declared one. -/
def plan (options : DiffOptions) (declared live : SchemaGraph) (renames : List Operation) :
    Except SchemaError ChangeSet := do
  let creation ← declared.creationOrder
  let deletion ← live.deletionOrder
  let orders : Orders := ⟨creation, deletion⟩
  let decided ← decisions options declared live
  let recreate := (decided.filter fun d => d.verdict.change == some .recreate).map fun d =>
    d.declared.id
  let keyless := (decided.filter fun d => d.verdict.dropsKey).map fun d => d.declared.id.name
  let recreated ← recreatedObjects declared live recreate keyless
  let gone := objectsNotIn live declared
  let come := objectsNotIn declared live
  let steps :=
    renames.map (fun operation => ⟨.rename, 0, operation.target, operation⟩) ++
      gone.map (removal orders) ++ come.map (addition orders) ++
      decisionSteps orders recreated decided
  let operations ← orderSteps declared live steps
  pure
    { operations := operations
      candidates := decided.flatMap (·.verdict.candidates) ++ objectCandidates gone come }

end Change

open Change in
/-- The operations that move a live schema to a declared one, and the renames that may hide behind
them. -/
def diff (options : DiffOptions) (declared live : SchemaGraph) : Except SchemaError ChangeSet := do
  let declared := declared.withoutIgnored options
  let (live, renames) ← applyHints (live.withoutIgnored options) declared options
  plan options declared live renames

end SchemaPlan
