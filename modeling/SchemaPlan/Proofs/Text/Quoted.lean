import SchemaPlan.Proofs.Text.Occurrence
import SchemaPlan.Text.Quoted

/-!
# What quoted text holds

* `mem_enclose`: quoting brings in the quote and no other character.
* `cutAt?_append_cons`: text is cut behind a character that the separator does not hold.
* `isInfix_of_isInfix_double`: doubling the quotes makes no text occur that holds none of them.
-/

set_option autoImplicit false

namespace SchemaPlan.Text

variable {part s x y : List Char} {q c : Char}

theorem mem_double : c ∈ double q s ↔ c ∈ s := by
  rw [← List.count_pos_iff, ← List.count_pos_iff, count_double]
  split <;> omega

theorem mem_enclose : c ∈ enclose q s ↔ c = q ∨ c ∈ s := by
  simp only [enclose, List.mem_cons, List.mem_append, mem_double, List.not_mem_nil, or_false]
  rw [or_comm (b := c = q), ← or_assoc, or_self]

/-! ## Occurrences -/

/-- A text without a character occurs on one side of it. -/
theorem isInfix_append_cons (hq : q ∉ part) :
    part <:+: x ++ q :: y ↔ part <:+: x ∨ part <:+: y := by
  constructor
  · rintro ⟨a, b, h⟩
    rcases occurrence_cases hq h.symm with ⟨r, rfl⟩ | ⟨r, -, rfl⟩
    · exact .inl ⟨a, r, rfl⟩
    · exact .inr ⟨r, b, rfl⟩
  · rintro (h | h)
    · exact h.trans (List.prefix_append x (q :: y)).isInfix
    · exact h.trans ((List.suffix_cons q y).trans (List.suffix_append x (q :: y))).isInfix

/-- A text is cut at its first occurrence, which lies behind a character that it does not hold. -/
theorem cutAt?_append_cons (hq : q ∉ part) (hx : ¬ part <:+: x) (y : List Char) :
    cutAt? part (x ++ [q] ++ part ++ y) = some (x ++ [q], y) := by
  apply cutAt?_of_first
  intro a b heq
  rw [List.append_assoc, List.append_assoc, List.singleton_append] at heq
  rcases occurrence_cases hq heq with ⟨r, rfl⟩ | ⟨r, rfl, -⟩
  · exact absurd ⟨a, r, rfl⟩ hx
  · simp

theorem isPrefix_of_isPrefix_double (hq : q ∉ part) (h : part <+: double q s) : part <+: s := by
  induction s generalizing part with
  | nil => exact h
  | cons c r ih =>
    cases part with
    | nil => exact List.nil_prefix
    | cons p part =>
      obtain ⟨hp, hpart⟩ := not_or.1 (mt List.mem_cons.2 hq)
      rw [double] at h
      split at h
      · exact absurd (List.cons_prefix_cons.1 h).1.symm hp
      · obtain ⟨rfl, hrest⟩ := List.cons_prefix_cons.1 h
        exact List.cons_prefix_cons.2 ⟨rfl, ih hpart hrest⟩

/-- Doubling a quote makes no text occur that does not hold it. -/
theorem isInfix_of_isInfix_double (hq : q ∉ part) (h : part <:+: double q s) : part <:+: s := by
  induction s with
  | nil => exact h
  | cons c r ih =>
    rw [double] at h
    split at h
    · have hrest : part <:+: double q r := by
        rcases (isInfix_append_cons (x := []) hq).1 h with hnil | h
        · exact hnil.trans List.nil_infix
        · rcases (isInfix_append_cons (x := []) hq).1 h with hnil | h
          · exact hnil.trans List.nil_infix
          · exact h
      exact (ih hrest).trans (List.suffix_cons c r).isInfix
    · rename_i hc
      rcases List.infix_cons_iff.1 h with hstart | hrest
      · have hdouble : double q (c :: r) = c :: double q r := if_neg hc
        exact (isPrefix_of_isPrefix_double hq (hdouble ▸ hstart)).isInfix
      · exact (ih hrest).trans (List.suffix_cons c r).isInfix

end SchemaPlan.Text
