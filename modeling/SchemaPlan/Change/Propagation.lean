import SchemaPlan.Change.Comparison
import SchemaPlan.Graph.Basic

/-!
# Recreation and what it takes along

An object that is dropped and created again takes its dependents with it, and a key that goes
takes the foreign keys that may rely on it.  A table is never dropped for that: such a change is
refused.

`spread` works on a stack of recreated objects.  The candidates are the objects that are
declared, live and not yet recreated; every step takes from the stack and moves the dependents
among the candidates onto it.
-/

set_option autoImplicit false

namespace SchemaPlan.Change

/-- Whether an object is a foreign key to one of the listed tables. -/
def refersToAny (tables : List String) : SchemaObject → Bool
  | .constraint value =>
    value.constraint.foreignKey?.any fun key => tables.contains key.referencesTable
  | _ => false

/-- Whether an object depends on another in a graph. -/
def dependsOn (live : SchemaGraph) (cause id : ObjectId) : Bool :=
  (live.dependencies id).contains cause

/-- The candidates that depend on an object. -/
def hits (live : SchemaGraph) (candidates : List ObjectId) (cause : ObjectId) : List ObjectId :=
  candidates.filter (dependsOn live cause)

/-- The candidates that do not depend on an object. -/
def misses (live : SchemaGraph) (candidates : List ObjectId) (cause : ObjectId) : List ObjectId :=
  candidates.filter fun id => !dependsOn live cause id

theorem length_misses_add_hits (live : SchemaGraph) (candidates : List ObjectId)
    (cause : ObjectId) :
    (misses live candidates cause).length + (hits live candidates cause).length =
      candidates.length := by
  induction candidates with
  | nil => rfl
  | cons id candidates ih =>
    simp only [misses, hits, List.filter_cons, List.length_cons] at ih ⊢
    cases dependsOn live cause id with
    | true => exact congrArg Nat.succ ih
    | false => exact (Nat.succ_add _ _).trans (congrArg Nat.succ ih)

/-- Adds to the recreated objects all that depend on those on the stack, directly or not. -/
def spread (live : SchemaGraph) (candidates stack recreated : List ObjectId) :
    Except SchemaError (List ObjectId) :=
  match stack with
  | [] => .ok recreated
  | cause :: stack =>
    match (hits live candidates cause).find? fun id => id.kind == .table with
    | some table => .error (.unsupportedChange table (.recreatedDependency cause))
    | none =>
      spread live (misses live candidates cause) ((hits live candidates cause).reverse ++ stack)
        (recreated ++ hits live candidates cause)
termination_by 2 * candidates.length + stack.length
decreasing_by
  have hsplit := length_misses_add_hits live candidates cause
  simp only [List.length_append, List.length_reverse, List.length_cons]
  omega

/-- All objects that have to be created again: those whose definition demands it, the foreign
keys to tables that lose a key, and what depends on them. -/
def recreatedObjects (declared live : SchemaGraph) (recreate : List ObjectId)
    (keyless : List String) : Except SchemaError (List ObjectId) :=
  let shared := live.ids.filter declared.contains
  let references := keyless.flatMap fun table =>
    ((live.objects.filter (refersToAny [table])).map SchemaObject.id).filter fun id =>
      declared.contains id && !recreate.contains id
  let marked := recreate ++ references
  spread live (shared.filter fun id => !marked.contains id) marked.reverse marked

end SchemaPlan.Change
