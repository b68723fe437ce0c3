import SchemaPlan.Text.Quoted

/-!
# Quoted tokens in SQL text

A literal in single quotes and an identifier in double quotes are tokens; inside them a quote is
written twice, and a token that is not closed runs to the end.  `lexemes` splits a text into
tokens and single characters, and `mask` replaces the tokens by numbered markers, so that
rewriting the text cannot reach into them.

* `spell_lexemes : spell (lexemes s) = s`.
-/

set_option autoImplicit false

namespace SchemaPlan.Expression

/-- A character outside quotes, or a quoted token with its quotes. -/
inductive Lexeme where
  | char (c : Char)
  | quoted (token : List Char)
deriving DecidableEq, Repr

/-- The rest of a token behind its opening quote, with the closing quote, and what follows. -/
def takeQuoted (q : Char) : List Char → List Char × List Char
  | [] => ([], [])
  | [c] => ([c], [])
  | c :: d :: r =>
    if c = q then
      if d = q then
        let (token, rest) := takeQuoted q r
        (c :: d :: token, rest)
      else ([c], d :: r)
    else
      let (token, rest) := takeQuoted q (d :: r)
      (c :: token, rest)

theorem takeQuoted_append (q : Char) (s : List Char) :
    (takeQuoted q s).1 ++ (takeQuoted q s).2 = s := by
  fun_induction takeQuoted q s <;> simp_all

theorem length_takeQuoted_le (q : Char) (s : List Char) :
    (takeQuoted q s).2.length ≤ s.length := by
  have h := congrArg List.length (takeQuoted_append q s)
  simp only [List.length_append] at h
  omega

/-- Whether a character opens a token. -/
def isQuote (c : Char) : Bool :=
  c == Text.singleQuote || c == Text.doubleQuote

/-- Splits a text into tokens and characters. -/
def lexemes : List Char → List Lexeme
  | [] => []
  | c :: r =>
    if isQuote c then .quoted (c :: (takeQuoted c r).1) :: lexemes (takeQuoted c r).2
    else .char c :: lexemes r
termination_by s => s.length
decreasing_by
  · have := length_takeQuoted_le c r
    simp only [List.length_cons]
    omega
  · simp

/-- The text of lexemes. -/
def spell : List Lexeme → List Char
  | [] => []
  | .char c :: r => c :: spell r
  | .quoted token :: r => token ++ spell r

/-- Splitting a text loses nothing. -/
theorem spell_lexemes (s : List Char) : spell (lexemes s) = s := by
  fun_induction lexemes s with
  | case1 => rfl
  | case2 c r hc ih => simp [spell, ih, takeQuoted_append]
  | case3 c r hc ih => simp [spell, ih]

/-- The tokens in order. -/
def tokens (lexemes : List Lexeme) : List (List Char) :=
  lexemes.filterMap fun
    | .char _ => none
    | .quoted token => some token

/-- The character around the number of a marker. -/
def mark : Char := Char.ofNat 1

/-- The marker of the token with a number. -/
def marker (n : Nat) : List Char :=
  mark :: ((toString n).toList ++ [mark])

/-- The text with markers in place of tokens, which are numbered from `n` on. -/
def maskFrom : Nat → List Lexeme → List Char
  | _, [] => []
  | n, .char c :: r => c :: maskFrom n r
  | n, .quoted _ :: r => marker n ++ maskFrom (n + 1) r

/-- The text with markers in place of tokens. -/
def mask (lexemes : List Lexeme) : List Char :=
  maskFrom 0 lexemes

end SchemaPlan.Expression
