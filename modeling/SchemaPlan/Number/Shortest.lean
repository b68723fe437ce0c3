import SchemaPlan.Number.Binary64

/-!
# Shortest decimal text

A number is written with the fewest digits that read back as the same number, and of those with
the digits nearest to it.  `shortest` finds the digits as an integer and a power of ten: for
1, 2, … 17 digits it tests the two neighbours of the number on that decimal grid, and the first
grid with a neighbour inside the interval of reals that round to the number wins.  When both
neighbours are equally near, the format of the text says which one is taken (`Tie`).

* `plainText` never uses an exponent, writes no point on whole numbers and takes the greater
  neighbour,
* `jsonText` always has a point or an exponent, an exponent with its sign from `10 ^ 16` on and below
  `10 ^ -5`, and takes the even neighbour.
-/

set_option autoImplicit false

namespace SchemaPlan.Number

/-- Where a number goes that lies halfway between two integers. -/
inductive Tie where
  | toEven
  | up
deriving DecidableEq, Repr

/-- The quotient rounded to the nearest integer. -/
def Tie.round : Tie → Nat → Nat → Nat
  | toEven, num, den => divRound num den
  | up, num, den => (2 * num + den) / (2 * den)

/-- A decimal number `digits · 10 ^ exponent`. -/
structure Decimal where
  digits : Nat
  exponent : Int
deriving DecidableEq, Repr

namespace Decimal

/-- The least `j` from `start` on, within `fuel` steps, with `den ≤ num · 10 ^ j`. -/
def leadingZeros (num den : Nat) : Nat → Nat → Nat
  | 0, j => j
  | fuel + 1, j => if den ≤ num * Nat.pow 10 j then j else leadingZeros num den fuel (j + 1)

/-- The `k` with `10 ^ (k - 1) ≤ num / den < 10 ^ k`. -/
def magnitude (num den : Nat) : Int :=
  if den ≤ num then ((toString (num / den)).length : Int)
  else 1 - (leadingZeros num den 400 1 : Int)

/-- The reals that round to a number, four times enlarged: lower end, number, upper end over
one denominator, and whether the ends belong to them. -/
structure Interval where
  lower : Nat
  value : Nat
  upper : Nat
  den : Nat
  closed : Bool

/-- The interval of the reals that round to a number. -/
def Interval.of (x : Binary64) : Interval :=
  let e := x.exponent - 2
  let below :=
    if x.significand = Nat.pow 2 52 ∧ Binary64.minExponent < x.exponent then 1 else 2
  let scale := Nat.pow 2 e.toNat
  { lower := (4 * x.significand - below) * scale
    value := 4 * x.significand * scale
    upper := (4 * x.significand + 2) * scale
    den := Nat.pow 2 (-e).toNat
    closed := x.significand % 2 == 0 }

/-- Whether `digits · 10 ^ exponent` lies in the interval. -/
def Interval.holds (i : Interval) (d : Decimal) : Bool :=
  let point := d.digits * Nat.pow 10 d.exponent.toNat * i.den
  let scale := Nat.pow 10 (-d.exponent).toNat
  if i.closed then i.lower * scale ≤ point && point ≤ i.upper * scale
  else i.lower * scale < point && point < i.upper * scale

/-- The neighbour of the number on a decimal grid that lies in the interval: the nearer one when both
do, and of two equally near ones the one that `tie` says. -/
def Interval.neighbour? (tie : Tie) (i : Interval) (exponent : Int) : Option Decimal :=
  let num := i.value * Nat.pow 10 (-exponent).toNat
  let den := i.den * Nat.pow 10 exponent.toNat
  let below : Decimal := ⟨num / den, exponent⟩
  let above : Decimal := ⟨num / den + 1, exponent⟩
  match i.holds below, i.holds above with
  | true, true => some ⟨tie.round num den, exponent⟩
  | true, false => some below
  | false, true => some above
  | false, false => none

/-- Drops the zeros at the end of the digits. -/
def trimZeros : Nat → Decimal → Decimal
  | 0, d => d
  | fuel + 1, d =>
    if d.digits ≠ 0 ∧ d.digits % 10 = 0 then trimZeros fuel ⟨d.digits / 10, d.exponent + 1⟩
    else d

/-- The shortest decimal that reads back as the number, which must not be zero. -/
def shortest (tie : Tie) (x : Binary64) : Decimal :=
  let i := Interval.of x
  let k := magnitude i.value i.den
  let found := (List.range 17).findSome? fun (n : Nat) => i.neighbour? tie (k - n - 1)
  trimZeros 20 (found.getD ⟨0, 0⟩)

/-- A text of `n` zeros. -/
def zeros (n : Nat) : String :=
  String.ofList (List.replicate n '0')

/-- The digits with a point before the last `places` of them. -/
def withPoint (digits : String) (places : Nat) : String :=
  let padded := zeros (places + 1 - digits.length) ++ digits
  let whole := padded.length - places
  String.ofList (padded.toList.take whole) ++ "." ++ String.ofList (padded.toList.drop whole)

/-- Positional text without an exponent. -/
def positional (d : Decimal) : String :=
  if 0 ≤ d.exponent then toString d.digits ++ zeros d.exponent.toNat
  else withPoint (toString d.digits) (-d.exponent).toNat

/-- An exponent with its sign. -/
def exponentText (exponent : Int) : String :=
  (if exponent < 0 then "e-" else "e+") ++ toString exponent.natAbs

/-- One digit, the others behind a point, and an exponent. -/
def scientific (d : Decimal) : String :=
  let digits := toString d.digits
  let exponent := exponentText ((digits.length : Int) + d.exponent - 1)
  match digits.toList with
  | first :: second :: rest =>
    String.ofList [first, '.'] ++ String.ofList (second :: rest) ++ exponent
  | _ => digits ++ exponent

end Decimal

namespace Binary64

/-- The sign of a number as text. -/
def sign (x : Binary64) : String :=
  if x.negative then "-" else ""

/-- The number in positional notation, without a point when it is whole. -/
def plainText (x : Binary64) : String :=
  x.sign ++ if x.isZero then "0" else (Decimal.shortest .up x).positional

/-- The number as JSON writes it. -/
def jsonText (x : Binary64) : String :=
  x.sign ++
    if x.isZero then "0.0"
    else
      let d := Decimal.shortest .toEven x
      let point := ((toString d.digits).length : Int) + d.exponent
      if point ≤ -5 || 16 < point then d.scientific
      else if 0 ≤ d.exponent then d.positional ++ ".0"
      else d.positional

/-- The number rounded to a fixed count of places, a tie to the even last digit. -/
def fixedText (places : Nat) (x : Binary64) : String :=
  x.sign ++ Decimal.positional ⟨divRound (x.num * Nat.pow 10 places) x.den, -(places : Int)⟩

end Binary64

end SchemaPlan.Number
