import SchemaPlan.Expression.Canonical

/-!
# Function calls in expressions

A call is a simple name in front of an opening parenthesis, outside quotes.  Names behind a
point, a quote or a digit are not calls of functions of the schema.
-/

set_option autoImplicit false

namespace SchemaPlan.Expression

/-- A character in front of a name that keeps it from being a call. -/
def blocksCall (c : Char) : Bool :=
  c == '.' || c == '"' || c.isDigit

/-- The names in front of opening parentheses, in order; `before` is the character in front of
the text. -/
def callsFrom (before : Option Char) : List Char → List (List Char)
  | [] => []
  | c :: r =>
    if isNameStart c then
      let name := c :: r.takeWhile isNameChar
      let rest := r.dropWhile isNameChar
      match _h : rest.dropWhile Text.isBlank with
      | '(' :: behind =>
        if before.any blocksCall then callsFrom (some '(') behind
        else name :: callsFrom (some '(') behind
      | _ => callsFrom name.getLast? rest
    else callsFrom (some c) r
termination_by s => s.length
decreasing_by
  · have h1 := Text.length_dropWhile_le isNameChar r
    have h2 := Text.length_dropWhile_le Text.isBlank (r.dropWhile isNameChar)
    rw [_h] at h2
    simp only [List.length_cons] at h2 ⊢
    omega
  · have h1 := Text.length_dropWhile_le isNameChar r
    have h2 := Text.length_dropWhile_le Text.isBlank (r.dropWhile isNameChar)
    rw [_h] at h2
    simp only [List.length_cons] at h2 ⊢
    omega
  · have h1 := Text.length_dropWhile_le isNameChar r
    simp only [List.length_cons]
    omega
  · simp

/-- The functions that an expression calls, in order. -/
def calledFunctions (expression : String) : List String :=
  let masked := mask (lexemes expression.toList)
  (callsFrom none (dropPublicQualifier (Text.lowercase masked))).map String.ofList

end SchemaPlan.Expression
