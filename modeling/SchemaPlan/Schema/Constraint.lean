/-!
# Constraints

A table has primary keys, unique keys, checks and foreign keys.  A constraint without a name gets
one that is computed from its definition.
-/

set_option autoImplicit false

namespace SchemaPlan

/-- What happens to a row when the row that it references changes. -/
inductive ForeignKeyAction where
  | noAction
  | restrict
  | cascade
  | setNull
  | setDefault
deriving DecidableEq, Repr

namespace ForeignKeyAction

/-- The action as SQL. -/
def sql : ForeignKeyAction → String
  | noAction => "NO ACTION"
  | restrict => "RESTRICT"
  | cascade => "CASCADE"
  | setNull => "SET NULL"
  | setDefault => "SET DEFAULT"

/-- The action that a catalog stores under a letter. -/
def ofCatalogCode? (code : Char) : Option ForeignKeyAction :=
  match code with
  | 'a' => some noAction
  | 'r' => some restrict
  | 'c' => some cascade
  | 'n' => some setNull
  | 'd' => some setDefault
  | _ => none

end ForeignKeyAction

/-- A reference from columns of a table to columns of another. -/
structure ForeignKey where
  columns : List String
  referencesTable : String
  referencesColumns : List String
  onDelete : ForeignKeyAction := .noAction
  onUpdate : ForeignKeyAction := .noAction
  deferrable : Bool := false
  initiallyDeferred : Bool := false
deriving DecidableEq, Repr

/-- What a constraint demands. -/
inductive ConstraintKind where
  | primaryKey (columns : List String)
  | unique (columns : List String)
  | check (expression : String)
  | foreignKey (key : ForeignKey)
deriving DecidableEq, Repr

namespace ConstraintKind

/-- The kind of demand in words. -/
def label : ConstraintKind → String
  | primaryKey _ => "primary key"
  | unique _ => "unique"
  | check _ => "check"
  | foreignKey _ => "foreign key"

/-- The columns of the owning table that are listed. -/
def columns : ConstraintKind → List String
  | primaryKey columns | unique columns => columns
  | foreignKey key => key.columns
  | check _ => []

/-- Whether the demand is a foreign key. -/
def isForeignKey : ConstraintKind → Bool
  | foreignKey _ => true
  | _ => false

/-- Whether a foreign key can rely on the demand. -/
def isKey : ConstraintKind → Bool
  | primaryKey _ | unique _ => true
  | _ => false

end ConstraintKind

/-- A constraint; the empty name stands for a computed one. -/
structure Constraint where
  name : String := ""
  kind : ConstraintKind
deriving DecidableEq, Repr

/-- The reference of a foreign key. -/
def Constraint.foreignKey? (constraint : Constraint) : Option ForeignKey :=
  match constraint.kind with
  | .foreignKey key => some key
  | _ => none

theorem Constraint.foreignKey?_eq_none {c : Constraint} (h : c.kind.isForeignKey = false) :
    c.foreignKey? = none := by
  rw [foreignKey?]
  cases hkind : c.kind with
  | foreignKey key =>
    rw [hkind] at h
    cases h
  | _ => rfl

/-- A constraint that stands outside its table. -/
structure TableConstraint where
  table : String
  constraint : Constraint
deriving DecidableEq, Repr

end SchemaPlan
