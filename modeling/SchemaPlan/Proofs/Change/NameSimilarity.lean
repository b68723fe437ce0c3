import SchemaPlan.Proofs.Change.StableMatching
import SchemaPlan.Proofs.Number.Rounding
import SchemaPlan.Proofs.Text.EditDistance

/-!
# How similar two names are

Names are compared by the least number of edits between them.

* `IsEditDistance`: this number, and what follows from it for a distance of texts.
* `isScore_exactSimilarity`: one minus the distance over the greater length lies between zero and one,
  and only equal texts reach one.
* `abs_similarity_sub_le`: its rounding is off by no more than `2 ^ -53`.
* `isScore_similarity`: so different texts stay below one as long as the format holds their lengths
  exactly.  Only longer texts, which no memory holds, could be rounded to one.
* `editDistance_exact`: all of this together.
-/

set_option autoImplicit false

namespace SchemaPlan.Change

open Text (editDistance similarity Edits)
open Number (Binary64)
open Number.Binary64 (RoundsUnit)

/-- The least number of characters that have to be inserted, deleted or replaced. -/
structure IsEditDistance (distance : String → String → Nat) : Prop where
  least : ∀ a b, IsLeast {n | Edits n a.toList b.toList} (distance a b)
  symm : ∀ a b, distance a b = distance b a
  eq_zero_iff : ∀ a b, distance a b = 0 ↔ a = b
  triangle : ∀ a b c, distance a c ≤ distance a b + distance b c
  le_max : ∀ a b, distance a b ≤ max a.length b.length

/-- A score between zero and one.  Equal texts have the full score, and of the texts that are
shorter than `limit` only those. -/
structure IsScore (limit : WithTop Nat) (score : String → String → ℚ) : Prop where
  nonneg : ∀ a b, 0 ≤ score a b
  le_one : ∀ a b, score a b ≤ 1
  self : ∀ a, score a a = 1
  eq_of_eq_one : ∀ a b, (max a.length b.length : Nat) < limit → score a b = 1 → a = b

theorem isEditDistance_editDistance :
    IsEditDistance fun a b => editDistance a.toList b.toList where
  least a b := Text.editDistance_isLeast a.toList b.toList
  symm a b := Text.editDistance_comm a.toList b.toList
  eq_zero_iff a b := Text.editDistance_eq_zero_iff.trans String.toList_inj
  triangle a b c := Text.editDistance_triangle a.toList b.toList c.toList
  le_max a b := by
    rw [← String.length_toList, ← String.length_toList]
    exact Text.editDistance_le_max a.toList b.toList

/-! ## The exact ratio -/

/-- The distance over the greater length. -/
def distanceRatio (a b : String) : ℚ :=
  editDistance a.toList b.toList / (max a.length b.length : Nat)

theorem exactSimilarity_eq (a b : String) : exactSimilarity a b = 1 - distanceRatio a b :=
  rfl

theorem distanceRatio_nonneg (a b : String) : 0 ≤ distanceRatio a b :=
  div_nonneg (Nat.cast_nonneg _) (Nat.cast_nonneg _)

theorem distanceRatio_le_one (a b : String) : distanceRatio a b ≤ 1 :=
  div_le_one_of_le₀ (Nat.cast_le.2 (isEditDistance_editDistance.le_max a b)) (Nat.cast_nonneg _)

theorem distanceRatio_eq_zero_iff {a b : String} : distanceRatio a b = 0 ↔ a = b := by
  have hzero := isEditDistance_editDistance.eq_zero_iff a b
  have hmax := isEditDistance_editDistance.le_max a b
  rw [distanceRatio, div_eq_zero_iff, Nat.cast_eq_zero, Nat.cast_eq_zero, ← hzero]
  omega

theorem isScore_exactSimilarity : IsScore ⊤ exactSimilarity where
  nonneg a b := sub_nonneg.2 (distanceRatio_le_one a b)
  le_one a b := sub_le_self 1 (distanceRatio_nonneg a b)
  self a := by
    rw [exactSimilarity_eq, distanceRatio_eq_zero_iff.2 rfl, sub_zero]
  eq_of_eq_one a b _ h := by
    rw [exactSimilarity_eq, sub_eq_self] at h
    exact distanceRatio_eq_zero_iff.1 h

/-! ## The rounded ratio -/

/-- The ratio is rounded, and then what is left to one. -/
theorem similarity_cases (a b : String) :
    (a = b ∧ similarity a b = .one) ∨ ∃ ratio : Binary64,
      RoundsUnit (distanceRatio a b) ratio ∧ RoundsUnit (1 - ratio.value) (similarity a b) := by
  by_cases hlongest : max a.length b.length = 0
  · refine .inl ⟨?_, if_pos hlongest⟩
    have hdistance := isEditDistance_editDistance.le_max a b
    exact (isEditDistance_editDistance.eq_zero_iff a b).1 (by omega)
  · obtain ⟨ratio, hratio, hrounds⟩ := Number.Binary64.exists_ofRatio?_of_le
      (Nat.pos_of_ne_zero hlongest) (isEditDistance_editDistance.le_max a b)
    refine .inr ⟨ratio, hrounds, ?_⟩
    have hsimilarity : similarity a b = ratio.complement := by
      rw [similarity]
      simp only [if_neg hlongest, hratio]
    rw [hsimilarity]
    exact hrounds.complement

theorem similarity_self (a : String) : (similarity a a).value = 1 := by
  rcases similarity_cases a a with ⟨-, hone⟩ | ⟨ratio, hratio, hrounds⟩
  · rw [hone, Number.Binary64.value_one]
  · apply hrounds.one
    rw [hratio.zero (distanceRatio_eq_zero_iff.2 rfl), sub_zero]

/-- Two roundings move the score by `2 ^ -53` at most. -/
theorem abs_similarity_sub_le (a b : String) :
    |(similarity a b).value - exactSimilarity a b| ≤ 1 / 2 ^ 53 := by
  rcases similarity_cases a b with ⟨rfl, hone⟩ | ⟨ratio, hratio, hrounds⟩
  · rw [hone, Number.Binary64.value_one, isScore_exactSimilarity.self, sub_self, abs_zero]
    positivity
  · have hsplit : (similarity a b).value - exactSimilarity a b =
        ((similarity a b).value - (1 - ratio.value)) - (ratio.value - distanceRatio a b) := by
      rw [exactSimilarity_eq]
      ring
    rw [hsplit]
    calc |((similarity a b).value - (1 - ratio.value)) - (ratio.value - distanceRatio a b)|
        ≤ |(similarity a b).value - (1 - ratio.value)| + |ratio.value - distanceRatio a b| :=
          abs_sub _ _
      _ ≤ 1 / 2 ^ 54 + 1 / 2 ^ 54 := add_le_add hrounds.dist hratio.dist
      _ = 1 / 2 ^ 53 := by norm_num

/-- Different texts lose one part of their length at least. -/
theorem exactSimilarity_le {a b : String} (h : a ≠ b) :
    0 < max a.length b.length ∧ exactSimilarity a b ≤ 1 - 1 / (max a.length b.length : Nat) := by
  have hdistance : 1 ≤ editDistance a.toList b.toList :=
    Nat.one_le_iff_ne_zero.2 fun hzero =>
      h ((isEditDistance_editDistance.eq_zero_iff a b).1 hzero)
  refine ⟨hdistance.trans (isEditDistance_editDistance.le_max a b), ?_⟩
  rw [exactSimilarity_eq, distanceRatio]
  refine sub_le_sub_left (div_le_div_of_nonneg_right ?_ (Nat.cast_nonneg _)) 1
  exact_mod_cast hdistance

theorem eq_of_similarity_eq_one {a b : String} (hlength : max a.length b.length < 2 ^ 53)
    (h : (similarity a b).value = 1) : a = b := by
  by_contra hne
  obtain ⟨hpos, hexact⟩ := exactSimilarity_le hne
  have hdist := (abs_le.1 (abs_similarity_sub_le a b)).2
  rw [h] at hdist
  have hpart : (1 / 2 ^ 53 : ℚ) < 1 / (max a.length b.length : Nat) :=
    one_div_lt_one_div_of_lt (Nat.cast_pos.2 hpos) (by exact_mod_cast hlength)
  linarith

theorem isScore_similarity : IsScore (2 ^ 53 : Nat) fun a b => (similarity a b).value where
  nonneg a b := by
    rcases similarity_cases a b with ⟨-, hone⟩ | ⟨ratio, -, hrounds⟩
    · rw [hone, Number.Binary64.value_one]
      exact zero_le_one
    · exact Number.Binary64.value_nonneg hrounds.negative
  le_one a b := by
    rcases similarity_cases a b with ⟨-, hone⟩ | ⟨ratio, -, hrounds⟩
    · rw [hone, Number.Binary64.value_one]
    · exact hrounds.le_one
  self := similarity_self
  eq_of_eq_one a b hlength := eq_of_similarity_eq_one (WithTop.coe_lt_coe.1 hlength)

/-- **The distance of two texts is the least number of edits between them, and their similarity tells
equal texts from different ones**: as an exact ratio for all texts, and rounded for all whose lengths
the format of the result can hold. -/
theorem editDistance_exact :
    (IsEditDistance fun a b => editDistance a.toList b.toList) ∧
      IsScore ⊤ exactSimilarity ∧
      (∀ a b, |(similarity a b).value - exactSimilarity a b| ≤ 1 / 2 ^ 53) ∧
      IsScore (2 ^ 53 : Nat) fun a b => (similarity a b).value :=
  ⟨isEditDistance_editDistance, isScore_exactSimilarity, abs_similarity_sub_le,
    isScore_similarity⟩

example : editDistance "kitten".toList "sitting".toList = 3 := by decide

end SchemaPlan.Change
