/-!
# Indexes

An index is over columns or over an expression, in which case the text holds all its keys.
-/

set_option autoImplicit false

namespace SchemaPlan

/-- How an index stores its keys. -/
inductive IndexMethod where
  | btree
  | hash
  | gist
  | gin
  | brin
  | spgist
  | custom (name : String)
deriving DecidableEq, Repr

namespace IndexMethod

/-- The method with this name in any case of ASCII letters. -/
def parse (name : String) : IndexMethod :=
  match String.ofList (name.toList.map Char.toLower) with
  | "btree" => btree
  | "hash" => hash
  | "gist" => gist
  | "gin" => gin
  | "brin" => brin
  | "spgist" => spgist
  | other => custom other

/-- The method as SQL. -/
def sql : IndexMethod → String
  | btree => "btree"
  | hash => "hash"
  | gist => "gist"
  | gin => "gin"
  | brin => "brin"
  | spgist => "spgist"
  | custom name => name

/-- Whether columns of any type have an operator class for the method without an extension. -/
def isBuiltinOrdered : IndexMethod → Bool
  | btree | hash => true
  | _ => false

end IndexMethod

/-- An index; the empty name stands for a computed one. -/
structure Index where
  name : String := ""
  table : String := ""
  columns : List String := []
  expression : Option String := none
  method : IndexMethod := .btree
  unique : Bool := false
  predicate : Option String := none
deriving DecidableEq, Repr

end SchemaPlan
