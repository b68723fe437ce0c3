import SchemaPlan.Schema.Function
import SchemaPlan.Schema.ObjectId
import SchemaPlan.Schema.Table

/-!
# Schema objects

The objects of a schema under one type, with their identities and the tables they belong to.
-/

set_option autoImplicit false

namespace SchemaPlan

/-- An extension of the database. -/
structure Extension where
  name : String
deriving DecidableEq, Repr

/-- A type with a fixed list of values. -/
structure EnumType where
  name : String
  labels : List String
deriving DecidableEq, Repr

/-- An object of a schema. -/
inductive SchemaObject where
  | extension (value : Extension)
  | enum (value : EnumType)
  | function (value : Function)
  | table (value : Table)
  | constraint (value : TableConstraint)
  | index (value : Index)
  | trigger (value : Trigger)
deriving DecidableEq, Repr

namespace SchemaObject

/-- The kind of an object. -/
def kind : SchemaObject → ObjectKind
  | extension _ => .extension
  | enum _ => .enum
  | function _ => .function
  | table _ => .table
  | constraint _ => .constraint
  | index _ => .index
  | trigger _ => .trigger

/-- The identity of an object. -/
def id : SchemaObject → ObjectId
  | extension value => ⟨.extension, value.name⟩
  | enum value => ⟨.enum, value.name⟩
  | function value => ⟨.function, value.name⟩
  | table value => .table value.name
  | constraint value => .within .constraint value.table value.constraint.name
  | index value => ⟨.index, value.name⟩
  | trigger value => .within .trigger value.table value.name

/-- The table that an object belongs to. -/
def owningTable? : SchemaObject → Option String
  | constraint value => some value.table
  | index value => some value.table
  | trigger value => some value.table
  | _ => none

theorem kind_id (object : SchemaObject) : object.id.kind = object.kind := by
  cases object <;> rfl

end SchemaObject

end SchemaPlan
