import SchemaPlan.Text.Split

/-!
# Quoted text

SQL encloses identifiers in double quotes and literals in single quotes, and writes a quote
inside twice.  `undouble` reads the doubled quotes back:

* `undouble_double : undouble q (double q s) = s`.
-/

set_option autoImplicit false

namespace SchemaPlan.Text

/-- The quote around literals. -/
def singleQuote : Char := '\''

/-- The quote around identifiers. -/
def doubleQuote : Char := '"'

/-- Writes every `q` twice. -/
def double (q : Char) : List Char → List Char
  | [] => []
  | c :: r => if c = q then q :: q :: double q r else c :: double q r

/-- Replaces each pair of `q`, from left to right, by one. -/
def undouble (q : Char) : List Char → List Char
  | c :: d :: r => if c = q ∧ d = q then q :: undouble q r else c :: undouble q (d :: r)
  | s => s

/-- Encloses text in `q` and writes `q` inside twice. -/
def enclose (q : Char) (s : List Char) : List Char :=
  q :: (double q s ++ [q])

/-- A name as an SQL identifier. -/
def quoteIdentifier (name : String) : String :=
  String.ofList (enclose doubleQuote name.toList)

/-- A value as an SQL string literal. -/
def quoteLiteral (value : String) : String :=
  String.ofList (enclose singleQuote value.toList)

/-- Quoted identifiers separated by commas. -/
def quoteList (names : List String) : String :=
  join ", " (names.map quoteIdentifier)

theorem undouble_cons_of_ne {q c : Char} (h : c ≠ q) (s : List Char) :
    undouble q (c :: s) = c :: undouble q s := by
  cases s <;> simp [undouble, h]

/-- Text that ends in no quote is read up to its end. -/
theorem undouble_concat {q c : Char} (h : c ≠ q) (s : List Char) :
    undouble q (s ++ [c]) = undouble q s ++ [c] := by
  fun_induction undouble q s with
  | case1 d e r hquotes ih => simp [undouble, hquotes, ih]
  | case2 d e r hother ih =>
    simp only [List.cons_append] at ih ⊢
    rw [undouble, if_neg hother, ih]
  | case3 s hshort =>
    match s, hshort with
    | [], _ => rfl
    | [d], _ => simp [undouble, h]
    | d :: e :: r, hshort => exact absurd rfl (hshort d e r)

theorem double_append (q : Char) (a b : List Char) :
    double q (a ++ b) = double q a ++ double q b := by
  induction a with
  | nil => rfl
  | cons c r ih =>
    rw [List.cons_append, double, double, ih]
    split <;> rfl

/-- Doubling the quotes loses nothing. -/
theorem undouble_double (q : Char) (s : List Char) : undouble q (double q s) = s := by
  induction s with
  | nil => rfl
  | cons c r ih =>
    by_cases h : c = q
    · simp [double, undouble, h, ih]
    · simp [double, h, undouble_cons_of_ne h, ih]

/-- A quote is written twice and all else once. -/
theorem count_double (q x : Char) (s : List Char) :
    (double q s).count x = (if x = q then 2 else 1) * s.count x := by
  induction s with
  | nil => simp [double]
  | cons c r ih => by_cases h : c = q <;> by_cases hx : x = c <;> grind [double]

end SchemaPlan.Text
