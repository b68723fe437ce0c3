import Mathlib.Algebra.Order.Field.Rat
import Mathlib.Data.Prod.Lex
import Mathlib.Data.String.Basic
import SchemaPlan.Change.Candidate
import SchemaPlan.Proofs.Number.Binary64

/-!
# Renamed columns are a stable matching

Of all pairs of columns of one type whose names are similar enough the most similar is chosen, then
the most similar among those that share no column with it, and so on.  No two columns are left over
that could be paired and would both gain by it.  This holds for every measure whose values are ordered,
so for the exact ratio of distance and length and for its rounding alike.

* `choosePairs_sublist` and `pairwise_choosePairs`: pairs are chosen in order, and a column once.
* `exists_blocking`: what is not chosen shares a column with something chosen before it.
* `matchColumns_isStable`: the chosen pairs are a stable matching.
* `columnCandidates_stable`: for the exact measure, and for the candidates in rounded numbers.
-/

set_option autoImplicit false

namespace SchemaPlan.Change

variable {σ : Type} {measure : Measure σ} {dropped added : List Column} {threshold : σ}

/-- All values of a measure are comparable. -/
structure Measure.IsOrdered (measure : Measure σ) : Prop where
  total : ∀ x y, measure.le x y = true ∨ measure.le y x = true
  trans : ∀ x y z, measure.le x y = true → measure.le y z = true → measure.le x z = true

/-- One minus the distance over the greater length, as an exact ratio.  Two empty names are equal. -/
def exactSimilarity (source target : String) : ℚ :=
  1 - Text.editDistance source.toList target.toList / max source.length target.length

/-- The measure in exact ratios. -/
def Measure.exact : Measure ℚ :=
  ⟨exactSimilarity, fun x y => decide (x ≤ y)⟩

theorem Measure.isOrdered_exact : Measure.exact.IsOrdered where
  total x y := by
    simp only [Measure.exact, decide_eq_true_eq]
    exact le_total x y
  trans x y z hxy hyz := by
    simp only [Measure.exact, decide_eq_true_eq] at hxy hyz ⊢
    exact hxy.trans hyz

theorem Measure.isOrdered_rounded : Measure.rounded.IsOrdered where
  total := Number.Binary64.le_total
  trans _ _ _ := Number.Binary64.le_trans

/-! ## Pairs that could be chosen -/

/-- Two columns of one type with names that are similar enough. -/
structure IsEligible (measure : Measure σ) (dropped added : List Column) (threshold : σ)
    (pair : ColumnPair σ) : Prop where
  columns : ∃ old ∈ dropped, ∃ new ∈ added,
    old.name = pair.old ∧ new.name = pair.new ∧ old.type = new.type
  measured : pair.similarity = measure.similarity pair.old pair.new
  similar : measure.le threshold pair.similarity = true

theorem mem_columnPairs_iff {pair : ColumnPair σ} :
    pair ∈ columnPairs measure dropped added threshold ↔
      IsEligible measure dropped added threshold pair := by
  simp only [columnPairs, List.mem_flatMap, List.mem_filterMap, List.mem_filter, beq_iff_eq,
    Option.ite_none_right_eq_some, Option.some.injEq]
  constructor
  · rintro ⟨old, hold, new, ⟨hnew, htype⟩, hsimilar, rfl⟩
    exact ⟨⟨old, hold, new, hnew, rfl, rfl, htype⟩, rfl, hsimilar⟩
  · rintro ⟨⟨old, hold, new, hnew, holdname, hnewname, htype⟩, hmeasured, hsimilar⟩
    refine ⟨old, hold, new, ⟨hnew, htype⟩, ?_, ?_⟩
    · rwa [holdname, hnewname, ← hmeasured]
    · rw [holdname, hnewname, ← hmeasured]

/-! ## The order of pairs -/

/-- The names of a pair, for comparing pairs that are equally similar. -/
def ColumnPair.names (pair : ColumnPair σ) : String ×ₗ String :=
  toLex (pair.old, pair.new)

theorem names_le_iff {a b : ColumnPair σ} :
    a.names ≤ b.names ↔ a.old < b.old ∨ a.old = b.old ∧ a.new ≤ b.new :=
  Prod.Lex.toLex_le_toLex

theorem isLE_names {a b : ColumnPair σ} :
    ((compare a.old b.old).then (compare a.new b.new)).isLE = true ↔ a.names ≤ b.names := by
  rw [names_le_iff]
  rcases lt_trichotomy a.old b.old with hlt | heq | hgt
  · rw [compare_lt_iff_lt.2 hlt]
    exact iff_of_true rfl (.inl hlt)
  · rw [compare_eq_iff_eq.2 heq, Ordering.eq_then, Ordering.isLE_iff_ne_gt, ← Ne, compare_le_iff_le]
    exact ⟨fun hle => .inr ⟨heq, hle⟩, fun h => (h.resolve_left heq.not_lt).2⟩
  · rw [compare_gt_iff_gt.2 hgt, Ordering.gt_then]
    exact iff_of_false (by decide) fun h => h.elim hgt.not_gt fun heq => hgt.ne' heq.1

theorem before_iff {a b : ColumnPair σ} : ColumnPair.before measure a b = true ↔
    measure.le b.similarity a.similarity = true ∧
      (measure.le a.similarity b.similarity = true → a.names ≤ b.names) := by
  unfold ColumnPair.before
  split
  · rename_i htie
    obtain ⟨hab, hba⟩ := Bool.and_eq_true_iff.1 htie
    rw [isLE_names]
    exact ⟨fun h => ⟨hba, fun _ => h⟩, fun h => h.2 hab⟩
  · rename_i htie
    refine ⟨fun hba => ⟨hba, fun hab => ?_⟩, And.left⟩
    exact absurd (Bool.and_eq_true_iff.2 ⟨hab, hba⟩) htie

theorem before_total (h : measure.IsOrdered) (a b : ColumnPair σ) :
    (ColumnPair.before measure a b || ColumnPair.before measure b a) = true := by
  rw [Bool.or_eq_true, before_iff, before_iff]
  by_cases hab : measure.le a.similarity b.similarity = true
  · by_cases hba : measure.le b.similarity a.similarity = true
    · exact (le_total a.names b.names).imp (fun hle => ⟨hba, fun _ => hle⟩)
        fun hle => ⟨hab, fun _ => hle⟩
    · exact .inr ⟨hab, fun hle => absurd hle hba⟩
  · exact .inl ⟨(h.total _ _).resolve_right hab, fun hle => absurd hle hab⟩

theorem before_trans (h : measure.IsOrdered) (a b c : ColumnPair σ)
    (hab : ColumnPair.before measure a b = true) (hbc : ColumnPair.before measure b c = true) :
    ColumnPair.before measure a c = true := by
  rw [before_iff] at hab hbc ⊢
  refine ⟨h.trans _ _ _ hbc.1 hab.1, fun hac => ?_⟩
  -- when the ends are equally similar, so is what stands between them
  have hfirst := hab.2 (h.trans _ _ _ hac hbc.1)
  have hsecond := hbc.2 (h.trans _ _ _ hab.1 hac)
  exact hfirst.trans hsecond

/-! ## Choosing pairs -/

/-- Two pairs have a column in common. -/
def ColumnPair.Shares (a b : ColumnPair σ) : Prop :=
  a.old = b.old ∨ a.new = b.new

theorem any_shares_iff {chosen : List (ColumnPair σ)} {pair : ColumnPair σ} :
    (chosen.any fun other => other.old == pair.old || other.new == pair.new) = true ↔
      ∃ other ∈ chosen, other.Shares pair := by
  simp [ColumnPair.Shares]

theorem choosePairs_sublist (chosen rest : List (ColumnPair σ)) :
    (choosePairs chosen rest).Sublist rest := by
  fun_induction choosePairs chosen rest with
  | case1 => exact .slnil
  | case2 chosen pair rest _ ih => exact ih.cons pair
  | case3 chosen pair rest _ ih => exact ih.cons_cons pair

/-- No chosen pair shares a column with another. -/
theorem pairwise_choosePairs (chosen rest : List (ColumnPair σ)) :
    (choosePairs chosen rest).Pairwise (fun a b => ¬ a.Shares b) ∧
      ∀ a ∈ chosen, ∀ b ∈ choosePairs chosen rest, ¬ a.Shares b := by
  fun_induction choosePairs chosen rest with
  | case1 chosen => exact ⟨.nil, by simp⟩
  | case2 chosen pair rest _ ih => exact ih
  | case3 chosen pair rest hfree ih =>
    obtain ⟨hpairwise, hchosen⟩ := ih
    obtain ⟨hpair, hearlier⟩ := List.forall_mem_cons.1 hchosen
    rw [any_shares_iff] at hfree
    refine ⟨List.pairwise_cons.2 ⟨hpair, hpairwise⟩, fun a ha b hb => ?_⟩
    rcases List.mem_cons.1 hb with rfl | hb
    · exact fun hshares => hfree ⟨a, ha, hshares⟩
    · exact hearlier a ha b hb

/-- What is not chosen shares a column with something that was chosen before it. -/
theorem exists_blocking {chosen rest : List (ColumnPair σ)}
    {R : ColumnPair σ → ColumnPair σ → Prop} (hrefl : ∀ a, R a a)
    (hchosen : ∀ a ∈ chosen, ∀ b ∈ rest, R a b) (hrest : rest.Pairwise R) :
    ∀ pair ∈ rest, ∃ other ∈ chosen ++ choosePairs chosen rest, other.Shares pair ∧ R other pair := by
  fun_induction choosePairs chosen rest with
  | case1 => simp
  | case2 chosen pair rest hblocked ih =>
    obtain ⟨-, hrest⟩ := List.pairwise_cons.1 hrest
    refine List.forall_mem_cons.2 ⟨?_, ih (fun a ha b hb => ?_) hrest⟩
    · obtain ⟨other, hother, hshares⟩ := any_shares_iff.1 hblocked
      exact ⟨other, List.mem_append_left _ hother, hshares,
        hchosen other hother pair List.mem_cons_self⟩
    · exact hchosen a ha b (List.mem_cons_of_mem _ hb)
  | case3 chosen pair rest hfree ih =>
    obtain ⟨hpair, hrest⟩ := List.pairwise_cons.1 hrest
    have hnext : ∀ a ∈ pair :: chosen, ∀ b ∈ rest, R a b :=
      List.forall_mem_cons.2 ⟨hpair, fun a ha b hb => hchosen a ha b (List.mem_cons_of_mem _ hb)⟩
    refine List.forall_mem_cons.2 ⟨⟨pair, by simp, .inl rfl, hrefl pair⟩, fun later hlater => ?_⟩
    obtain ⟨other, hother, hblocks⟩ := ih hnext hrest later hlater
    refine ⟨other, ?_, hblocks⟩
    simpa [or_left_comm] using hother

/-! ## The matching -/

/-- Pairs that use every column at most once, in the order of similarity, such that no pair that
could be chosen is more similar than the pairs that its columns are in. -/
structure IsStableMatching (measure : Measure σ) (dropped added : List Column) (threshold : σ)
    (pairs : List (ColumnPair σ)) : Prop where
  eligible : ∀ pair ∈ pairs, IsEligible measure dropped added threshold pair
  old_once : (pairs.map ColumnPair.old).Nodup
  new_once : (pairs.map ColumnPair.new).Nodup
  descending : pairs.Pairwise fun a b => measure.le b.similarity a.similarity = true ∧
    (measure.le a.similarity b.similarity = true → a.old < b.old ∨ a.old = b.old ∧ a.new ≤ b.new)
  stable : ∀ pair, IsEligible measure dropped added threshold pair →
    ∃ other ∈ pairs, (other.old = pair.old ∨ other.new = pair.new) ∧
      measure.le pair.similarity other.similarity = true

/-- **The most similar pairs are a stable matching.** -/
theorem matchColumns_isStable (h : measure.IsOrdered) (dropped added : List Column)
    (threshold : σ) : IsStableMatching measure dropped added threshold
      (matchColumns measure dropped added threshold) := by
  have hsorted : ((columnPairs measure dropped added threshold).mergeSort
      (ColumnPair.before measure)).Pairwise fun a b => ColumnPair.before measure a b = true :=
    List.pairwise_mergeSort (before_trans h) (before_total h) _
  have hsublist := choosePairs_sublist []
    ((columnPairs measure dropped added threshold).mergeSort (ColumnPair.before measure))
  have honce : (matchColumns measure dropped added threshold).Pairwise fun a b => ¬ a.Shares b :=
    (pairwise_choosePairs [] _).1
  have hrefl (a : ColumnPair σ) : ColumnPair.before measure a a = true := by
    simpa using before_total h a a
  refine ⟨fun pair hpair => ?_, ?_, ?_, ?_, fun pair hpair => ?_⟩
  · exact mem_columnPairs_iff.1 (List.mem_mergeSort.1 (hsublist.subset hpair))
  · exact List.pairwise_map.2 (honce.imp fun hshares hold => hshares (.inl hold))
  · exact List.pairwise_map.2 (honce.imp fun hshares hnew => hshares (.inr hnew))
  · refine (hsorted.sublist hsublist).imp fun hbefore => ?_
    obtain ⟨hsimilar, htie⟩ := before_iff.1 hbefore
    exact ⟨hsimilar, fun hle => names_le_iff.1 (htie hle)⟩
  · obtain ⟨other, hother, hshares, hbefore⟩ :=
      exists_blocking hrefl (fun a ha => absurd ha List.not_mem_nil) hsorted pair
        (List.mem_mergeSort.2 (mem_columnPairs_iff.2 hpair))
    exact ⟨other, hother, hshares, (before_iff.1 hbefore).1⟩

theorem columnCandidates_stable (table : String) (dropped added : List Column) :
    (∀ threshold : ℚ, IsStableMatching .exact dropped added threshold
      (matchColumns .exact dropped added threshold)) ∧
    ∀ threshold : Number.Binary64, ∃ pairs,
      columnCandidates table dropped added threshold = pairs.map (columnCandidate table) ∧
        IsStableMatching .rounded dropped added threshold pairs :=
  ⟨fun threshold => matchColumns_isStable Measure.isOrdered_exact dropped added threshold,
    fun threshold => ⟨_, rfl,
      matchColumns_isStable Measure.isOrdered_rounded dropped added threshold⟩⟩

end SchemaPlan.Change
