import Mathlib.Data.String.Basic
import Mathlib.Order.Compare
import Mathlib.Tactic.Linarith
import SchemaPlan.Proofs.Text.Blank
import SchemaPlan.Text.Number

/-!
# Numbers of a fixed width

A number that is written with leading zeros is read back from its digits, and numbers of one width
are ordered as their texts are.  So a text of such numbers, one behind the other, is ordered by the
first of them that differs.

* `length_padNat` and `ofDigitChars_padNat` give the width and the value,
* `compare_append` compares texts part by part,
* `compare_padNat` compares numbers of one width.
-/

set_option autoImplicit false

namespace SchemaPlan.Text

/-! ## Width and value -/

theorem toList_padNat (w n : Nat) :
    (padNat w n).toList =
      List.replicate (w - (Nat.toDigits 10 n).length) '0' ++ Nat.toDigits 10 n := by
  rw [padNat, String.toList_append, String.toList_ofList, ← String.length_toList, toList_toString]

theorem isDigit_of_mem_padNat {w n : Nat} {c : Char} (h : c ∈ (padNat w n).toList) :
    c.isDigit = true := by
  rw [toList_padNat, List.mem_append] at h
  rcases h with h | h
  · rw [List.eq_of_mem_replicate h]
    rfl
  · exact Nat.isDigit_of_mem_toDigits (by omega) (by omega) h

theorem ofDigitChars_cons (c : Char) (s : List Char) :
    Nat.ofDigitChars 10 (c :: s) 0 = 10 ^ s.length * (c.toNat - 48) + Nat.ofDigitChars 10 s 0 := by
  rw [Nat.ofDigitChars_cons, Nat.ofDigitChars_eq_ofDigitChars_zero, Nat.mul_zero, Nat.zero_add]
  rfl

/-- A number that fits is written with exactly the given width. -/
theorem length_padNat {w n : Nat} (hw : 0 < w) (h : n < 10 ^ w) :
    (padNat w n).toList.length = w := by
  have hdigits : (Nat.toDigits 10 n).length ≤ w :=
    (Nat.length_toDigits_le_iff (by omega) hw).2 h
  rw [toList_padNat, List.length_append, List.length_replicate]
  omega

theorem ofDigitChars_padNat (w n : Nat) : Nat.ofDigitChars 10 (padNat w n).toList 0 = n := by
  rw [toList_padNat, Nat.ofDigitChars_append, Nat.ofDigitChars_replicate_zero, Nat.mul_zero,
    Nat.ofDigitChars_ten_toDigits]

/-! ## Order -/

section Order

variable {p q s t : List Char}

theorem append_lt_append_iff (h : p.length = q.length) :
    p ++ s < q ++ t ↔ p < q ∨ p = q ∧ s < t := by
  induction p generalizing q with
  | nil =>
    obtain rfl : q = [] := List.length_eq_zero_iff.1 h.symm
    simp
  | cons c p ih =>
    cases q with
    | nil => cases h
    | cons d q =>
      simp only [List.cons_append, List.cons_lt_cons_iff, ih (Nat.succ.inj h), List.cons.injEq]
      tauto

/-- The value of some digits is below the power of their number. -/
theorem ofDigitChars_lt (hs : ∀ c ∈ s, c.isDigit = true) :
    Nat.ofDigitChars 10 s 0 < 10 ^ s.length := by
  induction s with
  | nil => simp
  | cons c s ih =>
    obtain ⟨hc, hs⟩ := List.forall_mem_cons.1 hs
    have hdigit : c.toNat - 48 ≤ 9 := Nat.sub_le_sub_right (toNat_of_isDigit hc).2 48
    have hrest := ih hs
    rw [ofDigitChars_cons, List.length_cons, pow_succ]
    nlinarith [Nat.mul_le_mul_left (10 ^ s.length) hdigit]

/-- Of two numbers with as many digits, the text that comes first has the smaller value. -/
theorem ofDigitChars_lt_ofDigitChars (h : s.length = t.length) (hs : ∀ c ∈ s, c.isDigit = true)
    (ht : ∀ c ∈ t, c.isDigit = true) (hlt : s < t) :
    Nat.ofDigitChars 10 s 0 < Nat.ofDigitChars 10 t 0 := by
  induction s generalizing t with
  | nil =>
    obtain rfl : t = [] := List.length_eq_zero_iff.1 h.symm
    exact absurd hlt (List.lt_irrefl [])
  | cons c s ih =>
    cases t with
    | nil => cases h
    | cons d t =>
      have hlength : s.length = t.length := Nat.succ.inj h
      obtain ⟨hc, hsdigits⟩ := List.forall_mem_cons.1 hs
      obtain ⟨-, htdigits⟩ := List.forall_mem_cons.1 ht
      rw [ofDigitChars_cons, ofDigitChars_cons, hlength]
      rcases List.cons_lt_cons_iff.1 hlt with hcd | ⟨rfl, hrest⟩
      · -- what follows the first digit is too small to make up for it
        have hsmall := ofDigitChars_lt hsdigits
        have hcd : c.toNat < d.toNat := Char.lt_def.1 hcd
        have hdigit : c.toNat - 48 + 1 ≤ d.toNat - 48 := by
          have hclow := (toNat_of_isDigit hc).1
          omega
        have hstep := Nat.mul_le_mul_left (10 ^ t.length) hdigit
        rw [Nat.mul_succ] at hstep
        rw [hlength] at hsmall
        omega
      · exact Nat.add_lt_add_left (ih hlength hsdigits htdigits hrest) _

end Order

/-! ## Comparison -/

theorem append_lt_append_iff_of_length {a b : String} (h : a.toList.length = b.toList.length)
    (c d : String) : a ++ c < b ++ d ↔ a < b ∨ a = b ∧ c < d := by
  rw [String.lt_iff_toList_lt, String.toList_append, String.toList_append, append_lt_append_iff h,
    ← String.lt_iff_toList_lt, ← String.lt_iff_toList_lt, String.toList_inj]

/-- Texts whose first parts have one length are compared part by part. -/
theorem compare_append {a b : String} (h : a.toList.length = b.toList.length) (c d : String) :
    compare (a ++ c) (b ++ d) = (compare a b).then (compare c d) := by
  rcases lt_trichotomy a b with hlt | rfl | hgt
  · rw [compare_lt_iff_lt.2 hlt, Ordering.lt_then]
    exact compare_lt_iff_lt.2 ((append_lt_append_iff_of_length h c d).2 (.inl hlt))
  · have hmono : StrictMono fun c => a ++ c := fun c d hlt =>
      (append_lt_append_iff_of_length h c d).2 (.inr ⟨rfl, hlt⟩)
    have hcmp := hmono.cmp_map_eq c d
    rw [cmp_eq_compare, cmp_eq_compare] at hcmp
    rw [compare_eq_iff_eq.2 rfl, Ordering.eq_then, hcmp]
  · rw [compare_gt_iff_gt.2 hgt, Ordering.gt_then]
    exact compare_gt_iff_gt.2 ((append_lt_append_iff_of_length h.symm d c).2 (.inl hgt))

/-- Numbers of one width are ordered as their texts are. -/
theorem compare_padNat {w m n : Nat} (hw : 0 < w) (hm : m < 10 ^ w) (hn : n < 10 ^ w) :
    compare (padNat w m) (padNat w n) = compare m n := by
  have hvalue {k l : Nat} (hk : k < 10 ^ w) (hl : l < 10 ^ w) (h : padNat w k < padNat w l) :
      k < l := by
    have hlength : (padNat w k).toList.length = (padNat w l).toList.length := by
      rw [length_padNat hw hk, length_padNat hw hl]
    have hlt := ofDigitChars_lt_ofDigitChars hlength (fun _ => isDigit_of_mem_padNat)
      (fun _ => isDigit_of_mem_padNat) (String.lt_iff_toList_lt.1 h)
    rwa [ofDigitChars_padNat, ofDigitChars_padNat] at hlt
  rcases lt_trichotomy (padNat w m) (padNat w n) with hlt | heq | hgt
  · rw [compare_lt_iff_lt.2 hlt, compare_lt_iff_lt.2 (hvalue hm hn hlt)]
  · have hmn : m = n := by
      rw [← ofDigitChars_padNat w m, heq, ofDigitChars_padNat]
    rw [compare_eq_iff_eq.2 heq, compare_eq_iff_eq.2 hmn]
  · rw [compare_gt_iff_gt.2 hgt, compare_gt_iff_gt.2 (hvalue hn hm hgt)]

end SchemaPlan.Text
