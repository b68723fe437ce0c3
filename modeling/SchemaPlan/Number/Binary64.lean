/-!
# Binary floating point numbers

A `Binary64` is a finite number of the 64-bit format, `± significand · 2 ^ exponent`.  Every
operation rounds its exact result to the nearest number of the format, a tie to the even
significand.

* `divRound` is that rounding on a quotient of natural numbers,
* `ofRatio?` rounds a ratio and fails when it is too large for the format,
* `ofDecimal?` reads a decimal significand and exponent: the significand is rounded first, then
  multiplied or divided by a rounded power of ten, so two roundings decide the last place.
-/

set_option autoImplicit false

namespace SchemaPlan.Number

/-- The quotient rounded to the nearest integer, a tie to the even one. -/
def divRound (num den : Nat) : Nat :=
  let quotient := num / den
  let twice := 2 * (num % den)
  if twice < den then quotient
  else if den < twice then quotient + 1
  else if quotient % 2 = 0 then quotient else quotient + 1

/-- A finite number of the 64-bit format. -/
structure Binary64 where
  negative : Bool
  significand : Nat
  exponent : Int
deriving DecidableEq, Repr

namespace Binary64

/-- The least exponent; a number with it may have any significand below `2 ^ 53`. -/
def minExponent : Int := -1074

/-- The greatest exponent. -/
def maxExponent : Int := 971

/-- The numerator of the magnitude. -/
def num (x : Binary64) : Nat :=
  x.significand * Nat.pow 2 x.exponent.toNat

/-- The denominator of the magnitude. -/
def den (x : Binary64) : Nat :=
  Nat.pow 2 (-x.exponent).toNat

/-- The greatest `k` with `2 ^ k ≤ num / den`. -/
def binaryExponent (num den : Nat) : Int :=
  let k : Int := (num.log2 : Int) - (den.log2 : Int)
  if den * Nat.pow 2 k.toNat ≤ num * Nat.pow 2 (-k).toNat then k else k - 1

/-- The number nearest to a ratio; `none` when it is too large. -/
def ofRatio? (negative : Bool) (num den : Nat) : Option Binary64 :=
  if num = 0 then some ⟨negative, 0, minExponent⟩
  else
    let e := max (binaryExponent num den - 52) minExponent
    let m := divRound (num * Nat.pow 2 (-e).toNat) (den * Nat.pow 2 e.toNat)
    let rounded : Binary64 :=
      if m = Nat.pow 2 53 then ⟨negative, Nat.pow 2 52, e + 1⟩ else ⟨negative, m, e⟩
    if maxExponent < rounded.exponent then none else some rounded

/-- Zero. -/
def zero : Binary64 := ⟨false, 0, minExponent⟩

/-- One. -/
def one : Binary64 := ⟨false, Nat.pow 2 52, -52⟩

/-- Whether the number is zero, of either sign. -/
def isZero (x : Binary64) : Bool :=
  x.significand == 0

/-- The nearest number to a natural number. -/
def ofNat? (negative : Bool) (n : Nat) : Option Binary64 :=
  ofRatio? negative n 1

/-- The rounded product. -/
def mul? (x y : Binary64) : Option Binary64 :=
  ofRatio? (x.negative != y.negative) (x.num * y.num) (x.den * y.den)

/-- The rounded quotient; the divisor must not be zero. -/
def div? (x y : Binary64) : Option Binary64 :=
  ofRatio? (x.negative != y.negative) (x.num * y.den) (x.den * y.num)

/-- One minus a number between zero and one, rounded. -/
def complement (x : Binary64) : Binary64 :=
  (ofRatio? false (x.den - x.num) x.den).getD zero

/-- Twice a sign and a magnitude as an integer over the product of both denominators. -/
def signed (negative : Bool) (magnitude : Nat) : Int :=
  if negative then -(magnitude : Int) else magnitude

/-- Whether `x ≤ y`. -/
def le (x y : Binary64) : Bool :=
  signed x.negative (x.num * y.den) ≤ signed y.negative (y.num * x.den)

/-- The power `10 ^ k`, rounded, for a `k` up to 308. -/
def powerOfTen (k : Nat) : Binary64 :=
  (ofNat? false (Nat.pow 10 k)).getD one

/-- The greatest exponent of a power of ten in the format. -/
def maxPower : Nat := 308

/-- Multiplies or divides by a power of ten that the format holds. -/
def scaleOnce (x : Binary64) (exponent : Int) : Option Binary64 :=
  if 0 ≤ exponent then x.mul? (powerOfTen exponent.natAbs)
  else x.div? (powerOfTen exponent.natAbs)

/-- Scales by a power of ten in at most `steps + 1` steps: a greater power overflows unless the
number is zero, and division by a greater power divides by the greatest one first. -/
def scaleSteps : Nat → Binary64 → Int → Option Binary64
  | 0, x, exponent => scaleOnce x exponent
  | steps + 1, x, exponent =>
    if exponent.natAbs ≤ maxPower then scaleOnce x exponent
    else if x.isZero then some x
    else if 0 ≤ exponent then none
    else
      match x.div? (powerOfTen maxPower) with
      | some y => scaleSteps steps y (exponent + maxPower)
      | none => none

/-- Scales by a power of ten. -/
def scale (x : Binary64) (exponent : Int) : Option Binary64 :=
  scaleSteps (exponent.natAbs / maxPower) x exponent

/-- The number `± significand · 10 ^ exponent`; the sign is put on at the end. -/
def ofDecimal? (negative : Bool) (significand : Nat) (exponent : Int) : Option Binary64 := do
  let whole ← ofNat? false significand
  let scaled ← scale whole exponent
  pure { scaled with negative := negative }

end Binary64

/-- The rounded quotient is within half a unit of the exact one. -/
theorem divRound_dist (num : Nat) {den : Nat} (h : 0 < den) :
    2 * (divRound num den * den) ≤ 2 * num + den ∧ 2 * num ≤ 2 * (divRound num den * den) + den := by
  have hdiv := Nat.div_add_mod num den
  have hlt := Nat.mod_lt num h
  have hmul : den * (num / den) = num / den * den := Nat.mul_comm _ _
  have hsucc : (num / den + 1) * den = num / den * den + den := Nat.succ_mul _ _
  unfold divRound
  dsimp only
  split
  · omega
  · split
    · omega
    · split <;> omega

end SchemaPlan.Number
