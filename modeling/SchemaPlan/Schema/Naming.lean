import SchemaPlan.Digest.Sha256
import SchemaPlan.Expression.Canonical
import SchemaPlan.Schema.Constraint
import SchemaPlan.Schema.Index

/-!
# Computed names

A constraint or index without a name gets one that depends on its table and definition alone: a
tag for its kind and the first 30 hexadecimal digits of a digest.  Expressions enter the digest
in their canonical form, so what an author wrote and what a database reports get one name.

* `preimage` is the text that is digested: the table and the parts of the definition, separated
  by NUL characters.
-/

set_option autoImplicit false

namespace SchemaPlan

namespace Naming

/-- The count of digits of the digest in a name. -/
def digestLength : Nat := 30

/-- The character between the parts. -/
def separator : Char := Char.ofNat 0

/-- The text that is digested. -/
def preimage (table : String) (parts : List String) : String :=
  Text.join (String.singleton separator) (table :: parts)

/-- A tag and the digits of a digest. -/
def tagged (tag table : String) (parts : List String) : String :=
  tag ++ String.ofList
    ((Digest.Sha256.textDigest (preimage table parts)).toList.take digestLength)

end Naming

namespace ConstraintKind

/-- The tag of names of constraints of this kind. -/
def tag : ConstraintKind → String
  | primaryKey _ => "PK_"
  | unique _ => "UQ_"
  | check _ => "CHK_"
  | foreignKey _ => "FK_"

/-- The parts of the definition that a name depends on. -/
def nameParts : ConstraintKind → List String
  | primaryKey columns | unique columns => columns
  | check expression => [Expression.canonical expression]
  | foreignKey key => key.columns ++ key.referencesTable :: key.referencesColumns

/-- The computed name of a constraint of a table. -/
def computedName (kind : ConstraintKind) (table : String) : String :=
  Naming.tagged kind.tag table kind.nameParts

end ConstraintKind

namespace Index

/-- The parts of the definition that a name depends on. -/
def nameParts (index : Index) : List String :=
  index.columns ++
    (index.expression.toList.map Expression.canonical) ++
    (index.predicate.toList.flatMap fun predicate => ["where", Expression.canonical predicate])

/-- The computed name of an index. -/
def computedName (index : Index) : String :=
  Naming.tagged "IDX_" index.table index.nameParts

end Index

end SchemaPlan
