import SchemaPlan.Text.Blank
import SchemaPlan.Text.Split

/-!
# Clauses in catalog definitions

A catalog reports checks and triggers as the statements that would create them.  `checked?` finds
the expression of a check and `condition?` the condition of a trigger.  Both may hold parentheses
of their own, so they end at the last parenthesis behind which the statement can go on.
-/

set_option autoImplicit false

namespace SchemaPlan.Catalog

/-- The rest behind blanks, at least one. -/
def afterBlanks? : List Char → Option (List Char)
  | [] => none
  | c :: r => if Text.isBlank c then some (Text.trimStart r) else none

/-- The longest start of a text that ends before a closing parenthesis whose rest passes a
test. -/
def longestInside (ends : List Char → Bool) : List Char → Option (List Char)
  | [] => none
  | c :: r =>
    match longestInside ends r with
    | some inside => some (c :: inside)
    | none => if c = ')' && ends r then some [] else none

/-- Whether a text may follow a check: blanks, maybe with `NOT VALID` between them. -/
def endsCheck (s : List Char) : Bool :=
  match Text.words s with
  | [] => true
  | [a, b] => a == "NOT".toList && b == "VALID".toList && (s.head?.any Text.isBlank)
  | _ => false

/-- The expression of a check. -/
def checked? (definition : List Char) : Option (List Char) := do
  let behind ← Text.after? "CHECK".toList definition
  let behind ← Text.after? ['('] (Text.trimStart behind)
  longestInside endsCheck behind

/-- Whether a text may follow the condition of a trigger: the function that it executes. -/
def endsCondition (s : List Char) : Bool :=
  let behind := do
    let behind ← afterBlanks? s
    let behind ← Text.after? "EXECUTE".toList behind
    let behind ← afterBlanks? behind
    let behind ← (Text.after? "FUNCTION".toList behind).or
      (Text.after? "PROCEDURE".toList behind)
    behind.head?
  behind.any Text.isBlank

/-- The rest behind the parenthesis that opens a condition. -/
def afterWhen? : List Char → Option (List Char)
  | [] => none
  | c :: r =>
    if Text.isBlank c then do
      let behind ← Text.after? "WHEN".toList r
      let behind ← afterBlanks? behind
      Text.after? ['('] behind
    else none

/-- The condition of a trigger, at the first place where one stands. -/
def condition? : List Char → Option (List Char)
  | [] => none
  | c :: r =>
    match (afterWhen? (c :: r)).bind (longestInside endsCondition) with
    | some condition => some condition
    | none => condition? r

end SchemaPlan.Catalog
