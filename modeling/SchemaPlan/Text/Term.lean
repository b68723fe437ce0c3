import SchemaPlan.Text.Escaped

/-!
# Values as terms

A value in the notation of a program, on one line.  A name, a number or a truth value is a word, a
text stands between quotes, and the parts of a value stand between brackets behind the name of what
they make.

* `Term.text` is the text of a term.
-/

set_option autoImplicit false

namespace SchemaPlan.Text

/-- What stands around parts. -/
inductive Bracket where
  | round
  | curly
  | square
deriving DecidableEq, Repr

namespace Bracket

/-- What stands before the parts. -/
def opening : Bracket → String
  | round => "("
  | curly => " \x7b "
  | square => "["

/-- What stands behind the parts. -/
def closing : Bracket → String
  | round => ")"
  | curly => " \x7d"
  | square => "]"

end Bracket

/-- A value in the notation of a program. -/
inductive Term where
  | word (name : String)
  | quoted (value : String)
  | labelled (label : String) (value : Term)
  | group (name : String) (bracket : Bracket) (parts : List Term)

namespace Term

mutual

/-- The text of a term. -/
def text : Term → String
  | word name => name
  | quoted value => escaped value
  | labelled label value => label ++ ": " ++ text value
  | group name bracket parts => name ++ bracket.opening ++ partsText parts ++ bracket.closing

/-- The texts of parts, with commas between them. -/
def partsText : List Term → String
  | [] => ""
  | part :: rest => text part ++ (if rest.isEmpty then "" else ", ") ++ partsText rest

end

/-- A truth value. -/
def bool (value : Bool) : Term :=
  word (if value then "true" else "false")

/-- A number. -/
def nat (value : Nat) : Term :=
  word (toString value)

/-- A constructor with parts. -/
def call (name : String) (parts : List Term) : Term :=
  group name .round parts

/-- A structure with fields. -/
def record (name : String) (fields : List (String × Term)) : Term :=
  group name .curly (fields.map fun field => labelled field.1 field.2)

/-- Several values. -/
def list {α : Type} (term : α → Term) (values : List α) : Term :=
  group "" .square (values.map term)

/-- A value that may be missing. -/
def option {α : Type} (term : α → Term) : Option α → Term
  | none => word "None"
  | some value => call "Some" [term value]

end Term

end SchemaPlan.Text
