import SchemaPlan.Text.Split

/-!
# Occurrences of a text in another

* `occursIn_iff`: a text occurs in another when the other can be written around it.
* `occurrence_cases`: an occurrence lies on one side of a character that it does not hold.
* `cutAt?_of_first`: cutting at a text finds its first occurrence.
* `replaceAll_append`, `replaceAll_cons`: an occurrence at the start is replaced, and what starts
  none is kept.
-/

set_option autoImplicit false

namespace SchemaPlan.Text

variable {part s x y : List Char} {c : Char}

theorem occursIn_iff : occursIn part s = true ↔ ∃ a b, s = a ++ part ++ b := by
  induction s with
  | nil =>
    unfold occursIn
    rw [List.isEmpty_iff]
    constructor
    · intro h
      exact ⟨[], [], by simp [h]⟩
    · rintro ⟨a, b, h⟩
      simp at h
      exact h.2.1
  | cons d r ih =>
    unfold occursIn
    rw [Bool.or_eq_true, ih, Option.isSome_iff_exists]
    constructor
    · rintro (⟨b, h⟩ | ⟨a, b, rfl⟩)
      · exact ⟨[], b, by simpa using after?_eq_some_iff.1 h⟩
      · exact ⟨d :: a, b, by simp⟩
    · rintro ⟨a, b, h⟩
      cases a with
      | nil => exact .inl ⟨b, after?_eq_some_iff.2 (by simpa using h)⟩
      | cons e a =>
        simp only [List.cons_append, List.cons.injEq] at h
        exact .inr ⟨a, b, by simpa using h.2⟩

/-- An occurrence lies on one side of a character that it does not hold. -/
theorem occurrence_cases {a b : List Char} (hc : c ∉ part) (h : x ++ c :: y = a ++ part ++ b) :
    (∃ r, x = a ++ part ++ r) ∨ ∃ r, a = x ++ c :: r ∧ y = r ++ part ++ b := by
  induction a generalizing x with
  | nil =>
    left
    rw [List.nil_append] at h
    rcases List.append_eq_append_iff.1 h with ⟨r, hpart, hrest⟩ | ⟨r, hx, -⟩
    · cases r with
      | nil => exact ⟨[], by simp [hpart]⟩
      | cons d r =>
        simp only [List.cons_append, List.cons.injEq] at hrest
        exact absurd (by simp [hpart, hrest.1]) hc
    · exact ⟨r, by simp [hx]⟩
  | cons d a ih =>
    cases x with
    | nil =>
      simp only [List.nil_append, List.cons_append, List.cons.injEq] at h
      exact .inr ⟨a, by simp [h.1], h.2⟩
    | cons e x =>
      simp only [List.cons_append, List.cons.injEq] at h
      obtain ⟨rfl, h⟩ := h
      rcases ih h with ⟨r, rfl⟩ | ⟨r, rfl, hy⟩
      · exact .inl ⟨r, by simp⟩
      · exact .inr ⟨r, by simp, hy⟩

/-- Cutting at a text finds its first occurrence. -/
theorem cutAt?_of_first {a b : List Char}
    (hfirst : ∀ a' b', a ++ part ++ b = a' ++ part ++ b' → a.length ≤ a'.length) :
    cutAt? part (a ++ part ++ b) = some (a, b) := by
  induction a with
  | nil =>
    rw [List.nil_append]
    have hafter : after? part (part ++ b) = some b := after?_eq_some_iff.2 rfl
    cases hs : part ++ b with
    | nil => simp [cutAt?, ← hs, hafter]
    | cons d r => simp [cutAt?, ← hs, hafter]
  | cons d a ih =>
    have hnot : after? part (d :: (a ++ part ++ b)) = none := by
      rw [after?_eq_none_iff]
      intro rest heq
      have hle := hfirst [] rest (by simpa using heq)
      simp at hle
    have hrest : cutAt? part (a ++ part ++ b) = some (a, b) := by
      apply ih
      intro a' b' heq
      have hle := hfirst (d :: a') b' (by simp [heq])
      simpa using hle
    rw [List.cons_append, List.cons_append, cutAt?, hnot, hrest]
    rfl

/-! ## Replacing -/

theorem replaceFrom_append {old new s r : List Char} :
    replaceFrom old new s.length (s ++ r) = replaceFrom old new 0 r := by
  induction s with
  | nil => rfl
  | cons c s ih => exact ih

theorem replaceAll_append {old : List Char} (hold : old ≠ []) (new r : List Char) :
    replaceAll old new (old ++ r) = new ++ replaceAll old new r := by
  obtain ⟨c, s, rfl⟩ := List.exists_cons_of_ne_nil hold
  have hafter : after? (c :: s) (c :: (s ++ r)) = some r := after?_eq_some_iff.2 rfl
  rw [replaceAll, List.cons_append, replaceFrom, hafter]
  show new ++ replaceFrom (c :: s) new s.length (s ++ r) = _
  rw [replaceFrom_append, replaceAll]

theorem replaceAll_cons {old r : List Char} (h : ∀ rest, c :: r ≠ old ++ rest) (new : List Char) :
    replaceAll old new (c :: r) = c :: replaceAll old new r := by
  rw [replaceAll, replaceFrom, after?_eq_none_iff.2 h, replaceAll]

end SchemaPlan.Text
