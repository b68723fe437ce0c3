import SchemaPlan.Proofs.Expression.Reduced

/-!
# The qualifier in front of a cast

Dropping the qualifier `public.` works on each side of a character that the qualifier does not hold.
So it can be said what the text was like that ends in two colons afterwards, which is where a cast
to a quoted type begins.

* `dropPublicFrom_append_cons`: what stands on one side of such a character is read on its own.
* `dropPublicFrom_eq_nil_iff`: only qualifiers are dropped as a whole.
* `ends_in_colons_iff`: two colons end the text when only qualifiers stood between and behind them.
-/

set_option autoImplicit false

namespace SchemaPlan.Expression

open Text (isWordChar)

variable {a b s : List Char} {c : Char}

/-! ## One character after the other -/

/-- A text occurs at the start of another or not, whatever stands behind a character that it does
not hold. -/
theorem isSome_after?_append_cons {part : List Char} (hc : c ∉ part) (a b : List Char) :
    (Text.after? part (a ++ c :: b)).isSome = (Text.after? part a).isSome := by
  induction part generalizing a with
  | nil => rfl
  | cons p part ih =>
    obtain ⟨hp, hpart⟩ := not_or.1 (mt List.mem_cons.2 hc)
    cases a with
    | nil => simp [Text.after?, Ne.symm hp]
    | cons d a =>
      rw [List.cons_append, Text.after?, Text.after?]
      split
      · exact ih hpart a
      · rfl

theorem dropPublicFrom_of_not_mem (inWord : Bool) (h : '.' ∉ s) :
    dropPublicFrom 0 inWord s = s := by
  apply dropPublicFrom_eq_self
  rintro a b rfl
  exact absurd (by simp) h

theorem dropPublicFrom_cons {inWord : Bool}
    (h : (Text.after? "public.".toList (c :: s)).isSome = false) :
    dropPublicFrom 0 inWord (c :: s) = c :: dropPublicFrom 0 (isWordChar c) s := by
  rw [dropPublicFrom, h, Bool.and_false]
  rfl

/-- A qualifier that starts a word is dropped. -/
theorem dropPublicFrom_public (s : List Char) :
    dropPublicFrom 0 false ("public.".toList ++ s) = dropPublicFrom 0 false s := by
  have hafter : (Text.after? "public.".toList ('p' :: ("ublic.".toList ++ s))).isSome = true := rfl
  have hstart : "public.".toList ++ s = 'p' :: ("ublic.".toList ++ s) := rfl
  have hpoint : isWordChar '.' = false := by decide
  rw [hstart, dropPublicFrom, hafter, ← hpoint]
  rfl

theorem length_of_public {r : List Char} (h : c :: s = "public.".toList ++ r) :
    r.length < s.length := by
  have hlength := congrArg List.length h
  have hpublic : "public.".toList.length = 7 := rfl
  rw [List.length_cons, List.length_append, hpublic] at hlength
  omega

theorem dropPublicFrom_sublist (inWord : Bool) (s : List Char) :
    (dropPublicFrom 0 inWord s).Sublist s :=
  sublist_of_isDrop (rewrites_dropPublicFrom (by simp))

/-- What stands on one side of a character that is in no qualifier is read on its own. -/
theorem dropPublicFrom_append_cons (hc : c ∉ "public.".toList) (inWord : Bool) (a b : List Char) :
    dropPublicFrom 0 inWord (a ++ c :: b) =
      dropPublicFrom 0 inWord a ++ c :: dropPublicFrom 0 (isWordChar c) b := by
  induction hn : a.length using Nat.strongRecOn generalizing a inWord with
  | ind n ih =>
    cases a with
    | nil =>
      apply dropPublicFrom_cons
      rw [← List.nil_append (c :: b), isSome_after?_append_cons hc]
      rfl
    | cons d a =>
      rw [List.length_cons] at hn
      cases hafter : Text.after? "public.".toList (d :: a) with
      | none =>
        have hnone : (Text.after? "public.".toList (d :: (a ++ c :: b))).isSome = false := by
          rw [← List.cons_append, isSome_after?_append_cons hc, hafter]
          rfl
        rw [List.cons_append, dropPublicFrom_cons hnone, dropPublicFrom_cons (by rw [hafter]; rfl),
          ih a.length (by omega) _ a rfl, List.cons_append]
      | some r =>
        have hpublic := Text.after?_eq_some_iff.1 hafter
        have hlength := length_of_public hpublic
        cases inWord with
        | false =>
          rw [hpublic, List.append_assoc, dropPublicFrom_public, dropPublicFrom_public,
            ih r.length (by omega) _ r rfl]
        | true =>
          have hkeep : ∀ s,
              dropPublicFrom 0 true (d :: s) = d :: dropPublicFrom 0 (isWordChar d) s := by
            intro s
            rw [dropPublicFrom]
            rfl
          rw [List.cons_append, hkeep, hkeep, ih a.length (by omega) _ a rfl, List.cons_append]

/-! ## Qualifiers in a row -/

/-- Qualifiers, one behind the other. -/
def qualifiers (n : Nat) : List Char :=
  (List.replicate n "public.".toList).flatten

theorem qualifiers_succ (n : Nat) : qualifiers (n + 1) = "public.".toList ++ qualifiers n := by
  rw [qualifiers, List.replicate_succ, List.flatten_cons, qualifiers]

/-- Only qualifiers are dropped as a whole. -/
theorem dropPublicFrom_eq_nil_iff : dropPublicFrom 0 false s = [] ↔ ∃ n, s = qualifiers n := by
  constructor
  · intro h
    induction hn : s.length using Nat.strongRecOn generalizing s with
    | ind n ih =>
      cases s with
      | nil => exact ⟨0, rfl⟩
      | cons c s =>
        cases hafter : Text.after? "public.".toList (c :: s) with
        | none =>
          rw [dropPublicFrom_cons (by rw [hafter]; rfl)] at h
          cases h
        | some r =>
          have hpublic := Text.after?_eq_some_iff.1 hafter
          have hlength := length_of_public hpublic
          rw [List.length_cons] at hn
          rw [hpublic, dropPublicFrom_public] at h
          obtain ⟨k, rfl⟩ := ih r.length (by omega) h rfl
          exact ⟨k + 1, by rw [hpublic, qualifiers_succ]⟩
  · rintro ⟨n, rfl⟩
    induction n with
    | zero => rfl
    | succ n ih => rw [qualifiers_succ, dropPublicFrom_public, ih]

/-! ## Colons at the end -/

theorem exists_last {c : Char} (h : c ∈ s) : ∃ a b, s = a ++ c :: b ∧ c ∉ b := by
  obtain ⟨b, a, heq, hb⟩ := List.eq_append_cons_of_mem (List.mem_reverse.2 h)
  refine ⟨a.reverse, b.reverse, ?_, by simpa using hb⟩
  rw [← List.reverse_reverse s, heq]
  simp

/-- A colon ends the text when only qualifiers stood behind it. -/
theorem ends_in_colon_iff {inWord : Bool} {t : List Char} :
    dropPublicFrom 0 inWord s = t ++ [':'] ↔
      ∃ a n, s = a ++ ':' :: qualifiers n ∧ dropPublicFrom 0 inWord a = t := by
  have hsplit : ∀ a b, dropPublicFrom 0 inWord (a ++ ':' :: b) =
      dropPublicFrom 0 inWord a ++ ':' :: dropPublicFrom 0 false b :=
    dropPublicFrom_append_cons (by decide) inWord
  constructor
  · intro h
    have hmem : ':' ∈ s := by
      apply (dropPublicFrom_sublist inWord s).subset
      rw [h]
      simp
    obtain ⟨a, b, rfl, hb⟩ := exists_last hmem
    rw [hsplit] at h
    rcases List.eq_nil_or_concat (dropPublicFrom 0 false b) with hnil | ⟨r, d, hlast⟩
    · obtain ⟨n, rfl⟩ := dropPublicFrom_eq_nil_iff.1 hnil
      rw [hnil] at h
      exact ⟨a, n, rfl, (List.append_inj' h rfl).1⟩
    · -- what is left behind the last colon would end in a colon
      exfalso
      apply hb
      apply (dropPublicFrom_sublist false b).subset
      rw [hlast, List.concat_eq_append] at h ⊢
      rw [← List.cons_append, ← List.append_assoc] at h
      obtain rfl := List.singleton_inj.1 (List.append_inj' h rfl).2
      simp
  · rintro ⟨a, n, rfl, rfl⟩
    rw [hsplit, dropPublicFrom_eq_nil_iff.2 ⟨n, rfl⟩]

/-- Two colons, maybe with qualifiers between and behind them. -/
def castSign (m n : Nat) : List Char :=
  ':' :: (qualifiers m ++ ':' :: qualifiers n)

theorem mem_castSign {m n : Nat} (h : c ∈ castSign m n) : c ∈ ":public.".toList := by
  have hqualifiers : ∀ n, c ∈ qualifiers n → c ∈ "public.".toList := by
    intro n h
    obtain ⟨part, hpart, hc⟩ := List.mem_flatten.1 h
    rwa [(List.mem_replicate.1 hpart).2] at hc
  rw [castSign, List.mem_cons, List.mem_append, List.mem_cons] at h
  rcases h with rfl | h | rfl | h
  · exact List.mem_cons_self
  · exact List.mem_cons_of_mem _ (hqualifiers m h)
  · exact List.mem_cons_self
  · exact List.mem_cons_of_mem _ (hqualifiers n h)

/-- Whether a text ends in the sign of a cast. -/
def EndsInCastSign (s : List Char) : Prop :=
  ∃ m n, castSign m n <:+ s

/-- Two colons end the text when only qualifiers stood between and behind them. -/
theorem ends_in_colons_iff : [':', ':'] <:+ dropPublicQualifier s ↔ EndsInCastSign s := by
  constructor
  · rintro ⟨t, ht⟩
    rw [List.append_cons] at ht
    obtain ⟨a, n, rfl, ha⟩ := ends_in_colon_iff.1 ht.symm
    obtain ⟨b, m, rfl, -⟩ := ends_in_colon_iff.1 ha
    exact ⟨m, n, b, by simp [castSign]⟩
  · rintro ⟨m, n, b, rfl⟩
    refine ⟨dropPublicFrom 0 false b, ?_⟩
    rw [List.append_cons, eq_comm]
    refine ends_in_colon_iff.2 ⟨b ++ ':' :: qualifiers m, n, by simp [castSign], ?_⟩
    exact ends_in_colon_iff.2 ⟨b, m, rfl, rfl⟩

instance (s : List Char) : Decidable (EndsInCastSign s) :=
  decidable_of_iff _ ends_in_colons_iff

end SchemaPlan.Expression
