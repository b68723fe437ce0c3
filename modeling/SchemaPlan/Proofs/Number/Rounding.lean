import Mathlib.Algebra.Order.Field.Power
import Mathlib.Tactic.FieldSimp
import Mathlib.Tactic.Linarith
import Mathlib.Tactic.NormNum
import Mathlib.Tactic.Ring
import SchemaPlan.Proofs.Number.Binary64

/-!
# Rounding between zero and one

A ratio is rounded to a multiple of `2 ^ lastPlace`, the last place that a significand of 53 digits
leaves to it.

* `binaryExponent_spec`: the place of the first digit of a ratio.
* `value_of_ofRatio?`: the rounded ratio as a multiple of its last place; `abs_value_sub_le`: it is
  off by half of the last place at most.
* `exists_ofRatio?_of_le`: a ratio between zero and one is rounded to such a number, and by no more
  than `2 ^ -54`.
* `RoundsUnit.complement`: so is one minus such a number.
-/

set_option autoImplicit false

namespace SchemaPlan.Number

/-- Multiples of a number that are less than one and a half of it apart. -/
theorem le_of_twice_mul_le {a b den : Nat} (hden : 0 < den)
    (h : 2 * (a * den) ≤ 2 * (b * den) + den) : a ≤ b := by
  have hdouble : 2 * a * den ≤ (2 * b + 1) * den :=
    calc 2 * a * den = 2 * (a * den) := Nat.mul_assoc _ _ _
      _ ≤ 2 * (b * den) + den := h
      _ = (2 * b + 1) * den := by ring
  have := Nat.le_of_mul_le_mul_right hdouble hden
  omega

/-- A quotient of at most `bound` is rounded to at most `bound`. -/
theorem divRound_le {num den bound : Nat} (hden : 0 < den) (h : num ≤ bound * den) :
    divRound num den ≤ bound := by
  obtain ⟨hle, -⟩ := divRound_dist num hden
  exact le_of_twice_mul_le hden (by omega)

/-- An exact quotient is not changed. -/
theorem divRound_mul {den : Nat} (hden : 0 < den) (n : Nat) : divRound (n * den) den = n := by
  obtain ⟨-, hle⟩ := divRound_dist (n * den) hden
  exact Nat.le_antisymm (divRound_le hden (Nat.le_refl _)) (le_of_twice_mul_le hden hle)

/-- The rounded quotient is within one half of the exact one. -/
theorem abs_divRound_sub_le (num : Nat) {den : Nat} (hden : 0 < den) :
    |(divRound num den : ℚ) - num / den| ≤ 1 / 2 := by
  obtain ⟨hle, hge⟩ := divRound_dist num hden
  have hpos : (0 : ℚ) < den := Nat.cast_pos.2 hden
  have hle' : 2 * ((divRound num den : ℚ) * den) ≤ 2 * num + den := by exact_mod_cast hle
  have hge' : 2 * (num : ℚ) ≤ 2 * ((divRound num den : ℚ) * den) + den := by exact_mod_cast hge
  have hratio : (divRound num den : ℚ) - num / den = (divRound num den * den - num) / den := by
    rw [sub_div, mul_div_cancel_right₀ _ hpos.ne']
  rw [hratio, abs_div, abs_of_pos hpos, div_le_iff₀ hpos, abs_le]
  constructor
  · linarith
  · linarith

namespace Binary64

variable {x : Binary64} {num den : Nat}

/-! ## Powers of two -/

/-- A power of two as a ratio of natural numbers. -/
theorem two_zpow_eq (e : Int) :
    (2 : ℚ) ^ e = ((Nat.pow 2 e.toNat : Nat) : ℚ) / ((Nat.pow 2 (-e).toNat : Nat) : ℚ) := by
  obtain ⟨n, rfl | rfl⟩ := e.eq_nat_or_neg
  · simp
  · simp

theorem value_eq (h : x.negative = false) : x.value = x.significand * (2 : ℚ) ^ x.exponent := by
  rw [value, num, den, h, two_zpow_eq, ← mul_div_assoc]
  simp [signed]

theorem value_nonneg (h : x.negative = false) : 0 ≤ x.value := by
  rw [value_eq h]
  positivity

theorem value_one : one.value = 1 := by
  rw [value_eq rfl, one]
  norm_num

/-! ## The first digit of a ratio -/

theorem two_zpow_le_div_iff (hden : 0 < den) (e : Int) :
    den * Nat.pow 2 e.toNat ≤ num * Nat.pow 2 (-e).toNat ↔ (2 : ℚ) ^ e ≤ num / den := by
  have hpow : (0 : ℚ) < ((Nat.pow 2 (-e).toNat : Nat) : ℚ) :=
    Nat.cast_pos.2 (Nat.pow_pos (by decide))
  rw [two_zpow_eq, div_le_div_iff₀ hpow (Nat.cast_pos.2 hden), Nat.mul_comm den]
  exact_mod_cast Iff.rfl

/-- The logarithms of both parts tell the first digit but for one place. -/
theorem log2_sub_log2_spec (hnum : 0 < num) (hden : 0 < den) :
    (2 : ℚ) ^ ((num.log2 : Int) - den.log2 - 1) ≤ num / den ∧
      (num / den : ℚ) < 2 ^ ((num.log2 : Int) - den.log2 + 1) := by
  have hpos : (0 : ℚ) < den := Nat.cast_pos.2 hden
  have hnumLe : (2 : ℚ) ^ num.log2 ≤ num := by exact_mod_cast Nat.log2_self_le hnum.ne'
  have hnumLt : (num : ℚ) < 2 ^ (num.log2 + 1) := by exact_mod_cast Nat.lt_log2_self
  have hdenLe : (2 : ℚ) ^ den.log2 ≤ den := by exact_mod_cast Nat.log2_self_le hden.ne'
  have hdenLt : (den : ℚ) < 2 ^ (den.log2 + 1) := by exact_mod_cast Nat.lt_log2_self
  constructor
  · rw [le_div_iff₀ hpos]
    calc (2 : ℚ) ^ ((num.log2 : Int) - den.log2 - 1) * den
        ≤ 2 ^ ((num.log2 : Int) - den.log2 - 1) * 2 ^ (den.log2 + 1) :=
          mul_le_mul_of_nonneg_left hdenLt.le (by positivity)
      _ = 2 ^ num.log2 := by
          rw [← zpow_natCast, ← zpow_natCast, ← zpow_add₀ (by norm_num)]
          congr 1
          omega
      _ ≤ num := hnumLe
  · rw [div_lt_iff₀ hpos]
    calc (num : ℚ) < 2 ^ (num.log2 + 1) := hnumLt
      _ = 2 ^ ((num.log2 : Int) - den.log2 + 1) * 2 ^ den.log2 := by
          rw [← zpow_natCast, ← zpow_natCast, ← zpow_add₀ (by norm_num)]
          congr 1
          omega
      _ ≤ 2 ^ ((num.log2 : Int) - den.log2 + 1) * den :=
          mul_le_mul_of_nonneg_left hdenLe (by positivity)

/-- The first digit of a ratio stands at the place of its binary exponent. -/
theorem binaryExponent_spec (hnum : 0 < num) (hden : 0 < den) :
    (2 : ℚ) ^ binaryExponent num den ≤ num / den ∧
      (num / den : ℚ) < 2 ^ (binaryExponent num den + 1) := by
  obtain ⟨hlower, hupper⟩ := log2_sub_log2_spec hnum hden
  have hunfold : binaryExponent num den =
      if den * Nat.pow 2 ((num.log2 : Int) - den.log2).toNat ≤
          num * Nat.pow 2 (-((num.log2 : Int) - den.log2)).toNat
      then (num.log2 : Int) - den.log2 else (num.log2 : Int) - den.log2 - 1 := rfl
  rw [hunfold]
  split
  · rename_i hle
    exact ⟨(two_zpow_le_div_iff hden _).1 hle, hupper⟩
  · rename_i hlt
    rw [two_zpow_le_div_iff hden, not_le] at hlt
    refine ⟨hlower, ?_⟩
    rwa [sub_add_cancel]

/-! ## The last place -/

/-- The exponent of the last place to which a ratio is rounded. -/
def lastPlace (num den : Nat) : Int :=
  max (binaryExponent num den - 52) minExponent

/-- The rounded ratio as a number of last places. -/
def places (num den : Nat) : Nat :=
  divRound (num * Nat.pow 2 (-lastPlace num den).toNat) (den * Nat.pow 2 (lastPlace num den).toNat)

/-- The rounded ratio is a multiple of its last place. -/
theorem value_of_ofRatio? (hnum : 0 < num) (h : ofRatio? false num den = some x) :
    x.negative = false ∧ x.value = places num den * (2 : ℚ) ^ lastPlace num den := by
  rw [ofRatio?, if_neg hnum.ne', Option.ite_none_left_eq_some, Option.some.injEq] at h
  obtain ⟨-, hx⟩ := h
  by_cases hcarry : places num den = Nat.pow 2 53
  · have hx' : x = ⟨false, Nat.pow 2 52, lastPlace num den + 1⟩ := hx.symm.trans (if_pos hcarry)
    subst hx'
    refine ⟨rfl, ?_⟩
    rw [value_eq rfl, hcarry, zpow_add_one₀ (by norm_num)]
    push_cast
    ring
  · have hx' : x = ⟨false, places num den, lastPlace num den⟩ := hx.symm.trans (if_neg hcarry)
    subst hx'
    exact ⟨rfl, value_eq rfl⟩

/-- Rounding moves a ratio by half of its last place at most. -/
theorem abs_value_sub_le (hnum : 0 < num) (hden : 0 < den) (h : ofRatio? false num den = some x) :
    |x.value - num / den| ≤ 2 ^ lastPlace num den / 2 := by
  have hunit : (0 : ℚ) < 2 ^ lastPlace num den := by positivity
  have hscaled : 0 < den * Nat.pow 2 (lastPlace num den).toNat :=
    Nat.mul_pos hden (Nat.pow_pos (by decide))
  have hdist := abs_divRound_sub_le (num * Nat.pow 2 (-lastPlace num den).toNat) hscaled
  have hratio : ((num * Nat.pow 2 (-lastPlace num den).toNat : Nat) : ℚ) /
      (den * Nat.pow 2 (lastPlace num den).toNat : Nat) = num / den / 2 ^ lastPlace num den := by
    rw [two_zpow_eq, Nat.cast_mul, Nat.cast_mul]
    have hup : ((Nat.pow 2 (lastPlace num den).toNat : Nat) : ℚ) ≠ 0 :=
      Nat.cast_ne_zero.2 (Nat.pow_pos (by decide)).ne'
    have hdown : ((Nat.pow 2 (-lastPlace num den).toNat : Nat) : ℚ) ≠ 0 :=
      Nat.cast_ne_zero.2 (Nat.pow_pos (by decide)).ne'
    field_simp
  rw [hratio] at hdist
  have hvalue : x.value - num / den =
      ((places num den : ℚ) - num / den / 2 ^ lastPlace num den) * 2 ^ lastPlace num den := by
    rw [(value_of_ofRatio? hnum h).2, sub_mul, div_mul_cancel₀ _ hunit.ne']
  rw [hvalue, abs_mul, abs_of_pos hunit]
  calc |(places num den : ℚ) - num / den / 2 ^ lastPlace num den| * 2 ^ lastPlace num den
      ≤ 1 / 2 * 2 ^ lastPlace num den := mul_le_mul_of_nonneg_right hdist hunit.le
    _ = 2 ^ lastPlace num den / 2 := by ring

/-! ## Numbers between zero and one -/

/-- The last place of a ratio below a power of two. -/
theorem lastPlace_le (hnum : 0 < num) (hden : 0 < den) {e : Int} (hmin : minExponent ≤ e)
    (h : (num / den : ℚ) < 2 ^ (e + 53)) : lastPlace num den ≤ e := by
  have hpow := (binaryExponent_spec hnum hden).1.trans_lt h
  have hexponent := (zpow_lt_zpow_iff_right₀ (by norm_num : (1 : ℚ) < 2)).1 hpow
  rw [lastPlace]
  omega

theorem lastPlace_le_of_le (hnum : 0 < num) (hden : 0 < den) (hle : num ≤ den) :
    lastPlace num den ≤ -52 := by
  have hratio : (num / den : ℚ) ≤ 1 :=
    div_le_one_of_le₀ (Nat.cast_le.2 hle) (Nat.cast_nonneg den)
  exact lastPlace_le hnum hden (by decide) (hratio.trans_lt (by norm_num))

/-- What rounding does to a ratio between zero and one. -/
structure RoundsUnit (ratio : ℚ) (x : Binary64) : Prop where
  negative : x.negative = false
  le_one : x.value ≤ 1
  dist : |x.value - ratio| ≤ 1 / 2 ^ 54
  zero : ratio = 0 → x.value = 0
  one : ratio = 1 → x.value = 1

theorem roundsUnit_of_ofRatio? (hnum : 0 < num) (hden : 0 < den) (hle : num ≤ den)
    (h : ofRatio? false num den = some x) : RoundsUnit (num / den) x := by
  have hpos : (0 : ℚ) < den := Nat.cast_pos.2 hden
  have hplace := lastPlace_le_of_le hnum hden hle
  obtain ⟨hsign, hvalue⟩ := value_of_ofRatio? hnum h
  have hup : Nat.pow 2 (lastPlace num den).toNat = 1 := by
    rw [Int.toNat_of_nonpos (by omega)]
  have hunit : ((Nat.pow 2 (-lastPlace num den).toNat : Nat) : ℚ) * 2 ^ lastPlace num den = 1 := by
    rw [two_zpow_eq, hup, Nat.cast_one, mul_one_div_cancel]
    exact Nat.cast_ne_zero.2 (Nat.pow_pos (by decide)).ne'
  have hplaces : places num den ≤ Nat.pow 2 (-lastPlace num den).toNat := by
    rw [places, hup, Nat.mul_one]
    exact divRound_le hden ((Nat.mul_comm _ _).trans_le (Nat.mul_le_mul_left _ hle))
  have hone : num = den → x.value = 1 := by
    rintro rfl
    rw [hvalue, places, hup, Nat.mul_one, Nat.mul_comm, divRound_mul hnum, hunit]
  refine ⟨hsign, ?_, ?_, fun hzero => ?_, fun heq => hone ?_⟩
  · rw [hvalue, ← hunit]
    exact mul_le_mul_of_nonneg_right (Nat.cast_le.2 hplaces) (by positivity)
  · rcases hle.lt_or_eq with hlt | heq
    · have hlow : lastPlace num den ≤ -53 :=
        lastPlace_le hnum hden (by decide) ((div_lt_one hpos).2 (Nat.cast_lt.2 hlt))
      calc |x.value - num / den| ≤ 2 ^ lastPlace num den / 2 := abs_value_sub_le hnum hden h
        _ ≤ 2 ^ (-53 : Int) / 2 := by gcongr; norm_num
        _ = 1 / 2 ^ 54 := by norm_num
    · rw [hone heq, heq, div_self hpos.ne', sub_self, abs_zero]
      positivity
  · exact absurd hzero (div_pos (Nat.cast_pos.2 hnum) hpos).ne'
  · rw [div_eq_one_iff_eq hpos.ne'] at heq
    exact_mod_cast heq

/-- A ratio of at most one is not too large for the format. -/
theorem exists_ofRatio?_of_le (hden : 0 < den) (hle : num ≤ den) :
    ∃ x, ofRatio? false num den = some x ∧ RoundsUnit (num / den) x := by
  by_cases hzero : num = 0
  · have hvalue : value ⟨false, 0, minExponent⟩ = 0 := by
      rw [value_eq rfl, Nat.cast_zero, zero_mul]
    have hratio : (num / den : ℚ) = 0 := by rw [hzero, Nat.cast_zero, zero_div]
    refine ⟨⟨false, 0, minExponent⟩, if_pos hzero, rfl, ?_, ?_, fun _ => hvalue, fun hone => ?_⟩
    · rw [hvalue]
      exact zero_le_one
    · rw [hvalue, hratio, sub_zero, abs_zero]
      positivity
    · exact absurd (hratio.symm.trans hone) zero_ne_one
  · have hnum : 0 < num := Nat.pos_of_ne_zero hzero
    have hplace := lastPlace_le_of_le hnum hden hle
    have hsome : ∃ x, ofRatio? false num den = some x := by
      rw [ofRatio?, if_neg hzero]
      refine ⟨_, if_neg ?_⟩
      have hlt : lastPlace num den + 1 ≤ maxExponent := by
        rw [maxExponent]
        omega
      rw [not_lt]
      split
      · exact hlt
      · exact (Int.le_add_one (Int.le_refl _)).trans hlt
    obtain ⟨x, hx⟩ := hsome
    exact ⟨x, hx, roundsUnit_of_ofRatio? hnum hden hle hx⟩

/-- One minus a number between zero and one is rounded like every such ratio. -/
theorem RoundsUnit.complement {ratio : ℚ} (h : RoundsUnit ratio x) :
    RoundsUnit (1 - x.value) x.complement := by
  have hpos : (0 : ℚ) < x.den := Nat.cast_pos.2 x.den_pos
  have hvalue : x.value = x.num / x.den := by
    rw [value, h.negative]
    simp [signed]
  have hle : x.num ≤ x.den := by
    have hone := h.le_one
    rw [hvalue, div_le_one hpos] at hone
    exact_mod_cast hone
  obtain ⟨y, hy, hround⟩ := exists_ofRatio?_of_le x.den_pos (Nat.sub_le x.den x.num)
  rw [Nat.cast_sub hle, sub_div, div_self hpos.ne', ← hvalue] at hround
  rw [Binary64.complement, hy]
  exact hround

end Binary64

end SchemaPlan.Number
