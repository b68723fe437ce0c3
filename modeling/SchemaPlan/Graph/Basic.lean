import SchemaPlan.Order.Sorted
import SchemaPlan.Schema.Object

/-!
# Schema graphs

A schema graph holds the objects of a schema, each with the identities of the objects that must
exist before it.  The nodes ascend by identity, so there is one graph for every set of nodes.
-/

set_option autoImplicit false

namespace SchemaPlan

/-- An object with its dependencies, which ascend. -/
structure GraphNode where
  object : SchemaObject
  dependsOn : List ObjectId
deriving DecidableEq, Repr

/-- The identity of the object. -/
def GraphNode.id (node : GraphNode) : ObjectId :=
  node.object.id

/-- The objects of a schema with their dependencies. -/
structure SchemaGraph where
  nodes : List GraphNode
  ascending : Order.Ascending GraphNode.id nodes
deriving DecidableEq

namespace SchemaGraph

/-- The graph of the listed nodes; of nodes with one identity the last stays. -/
def ofNodes (nodes : List GraphNode) : SchemaGraph :=
  ⟨Order.ofList GraphNode.id nodes, Order.ascending_ofList GraphNode.id nodes⟩

/-- The graph without objects. -/
def empty : SchemaGraph :=
  ⟨[], List.Pairwise.nil⟩

/-- The count of objects. -/
def size (graph : SchemaGraph) : Nat :=
  graph.nodes.length

/-- Whether there is no object. -/
def isEmpty (graph : SchemaGraph) : Bool :=
  graph.nodes.isEmpty

/-- The objects in the order of their identities. -/
def objects (graph : SchemaGraph) : List SchemaObject :=
  graph.nodes.map GraphNode.object

/-- The identities in order. -/
def ids (graph : SchemaGraph) : List ObjectId :=
  graph.nodes.map GraphNode.id

/-- The node of an object. -/
def node? (graph : SchemaGraph) (id : ObjectId) : Option GraphNode :=
  graph.nodes.find? fun node => node.id == id

/-- Whether there is an object with an identity. -/
def contains (graph : SchemaGraph) (id : ObjectId) : Bool :=
  (graph.node? id).isSome

/-- The object with an identity. -/
def get? (graph : SchemaGraph) (id : ObjectId) : Option SchemaObject :=
  (graph.node? id).map GraphNode.object

/-- The dependencies of an object; none when it is missing. -/
def dependencies (graph : SchemaGraph) (id : ObjectId) : List ObjectId :=
  ((graph.node? id).map GraphNode.dependsOn).getD []

/-- The objects that depend on an object. -/
def dependents (graph : SchemaGraph) (id : ObjectId) : List ObjectId :=
  (graph.nodes.filter fun node => node.dependsOn.contains id).map GraphNode.id

/-- The table with a name. -/
def table? (graph : SchemaGraph) (name : String) : Option Table :=
  match graph.get? (.table name) with
  | some (.table table) => some table
  | _ => none

/-- The enum type with a name. -/
def enum? (graph : SchemaGraph) (name : String) : Option EnumType :=
  match graph.get? ⟨.enum, name⟩ with
  | some (.enum type) => some type
  | _ => none

/-- The function with a name. -/
def function? (graph : SchemaGraph) (name : String) : Option Function :=
  match graph.get? ⟨.function, name⟩ with
  | some (.function function) => some function
  | _ => none

/-- The foreign keys, indexes and triggers that belong to a table. -/
def boundTo (graph : SchemaGraph) (table : String) : List SchemaObject :=
  graph.objects.filter fun object => object.owningTable? == some table

/-- Keeps the objects that pass a test, and of their dependencies those that are kept. -/
def retain (graph : SchemaGraph) (keep : SchemaObject → Bool) : SchemaGraph :=
  let kept := graph.nodes.filter fun node => keep node.object
  let ids := kept.map GraphNode.id
  ofNodes (kept.map fun node => { node with dependsOn := node.dependsOn.filter ids.contains })

end SchemaGraph

end SchemaPlan
