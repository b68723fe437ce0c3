import SchemaPlan.Dialect.Statement
import SchemaPlan.Digest.Sha256

/-!
# Scripts

A script is a list of statements.  Its text ends every statement with a semicolon and puts a
blank line between two; its checksum is the digest of that text.
-/

set_option autoImplicit false

namespace SchemaPlan

/-- Statements without their semicolons. -/
structure Script where
  statements : List String
deriving DecidableEq, Repr

namespace Script

/-- The text of a script. -/
def sql (script : Script) : String :=
  let text := Text.join "\n\n" (script.statements.map fun statement => statement ++ ";")
  if script.statements.isEmpty then "" else text ++ "\n"

/-- The checksum of a script. -/
def checksum (script : Script) : String :=
  Digest.Sha256.textDigest script.sql

end Script

/-- The script of operations in a dialect. -/
def Dialect.script (dialect : Dialect) (operations : List Operation) : Except SchemaError Script :=
  (operations.mapM dialect.statements).map fun statements => ⟨statements.flatten⟩

end SchemaPlan
