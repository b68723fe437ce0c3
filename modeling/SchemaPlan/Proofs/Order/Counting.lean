import Mathlib.Data.List.Count
import SchemaPlan.Proofs.Order.Draining
import SchemaPlan.Proofs.Order.Sorted

/-!
# Counting unsorted prerequisites

A sort does not search for the next key.  It keeps a count for every key, of the prerequisites that
are still unsorted, and the set of the keys whose count is zero.  When a key is sorted, the counts of
its dependents fall, and those that fall to zero make keys ready.

* `IsTally`: what the pass over the entries counts.
* `Counts`: the invariant of the loop, the counts are the numbers of unsorted prerequisites.
* `Counts.exists_count`: no count is taken below zero.
* `Counts.unsorted_eq` and `Counts.mem_ready_iff`: what becomes of the counts and the ready keys when
  one key is sorted.
* `Counts.step`: sorting one key keeps the invariant.  `Counts.emit_eq`: so the loop takes the keys
  that `drain` takes.
* `sort_of_free` and `sort_eq_ok_iff`: a sort is the one without counts.
-/

set_option autoImplicit false

namespace SchemaPlan.Order.Topological

variable {κ : Type} [BEq κ] [LawfulBEq κ]

/-! ## Unsorted prerequisites -/

/-- How many prerequisites of an entry remain. -/
def unsorted (remaining : List (Prerequisites κ)) (entry : Prerequisites κ) : Nat :=
  entry.before.countP (isKey remaining)

omit [LawfulBEq κ] in
theorem isReady_iff_unsorted {remaining : List (Prerequisites κ)} {entry : Prerequisites κ} :
    isReady remaining entry = true ↔ unsorted remaining entry = 0 := by
  simp [isReady, unsorted, List.countP_eq_zero]

/-- Without one of the keys as many prerequisites remain as are not this key. -/
theorem unsorted_middle {front back : List (Prerequisites κ)} {entry : Prerequisites κ}
    (hfresh : entry.key ∉ (front ++ back).map Prerequisites.key) (other : Prerequisites κ) :
    unsorted (front ++ entry :: back) other =
      unsorted (front ++ back) other + other.before.count entry.key := by
  have hkey : ∀ k, isKey (front ++ entry :: back) k = (isKey (front ++ back) k || k == entry.key) := by
    intro k
    rw [Bool.eq_iff_iff, Bool.or_eq_true, isKey_iff, isKey_iff, beq_iff_eq]
    simp only [List.map_append, List.map_cons, List.mem_append, List.mem_cons]
    tauto
  rw [unsorted, unsorted]
  induction other.before with
  | nil => rfl
  | cons k ks ih =>
    rw [List.countP_cons, List.countP_cons, List.count_cons, ih, hkey]
    by_cases hk : k = entry.key
    · have hnot : isKey (front ++ back) k = false :=
        Bool.eq_false_iff.2 fun h => hfresh (hk ▸ isKey_iff.1 h)
      simp [hk ▸ hnot, hk]
      omega
    · simp [hk]
      omega

/-! ## Keys with numbers -/

section Numbers

variable {xs : List (Prerequisites κ)} {entry : Prerequisites κ}

/-- What a key stands with. -/
theorem lookup_map_of_mem {β : Type} (f : Prerequisites κ → β)
    (hkeys : (xs.map Prerequisites.key).Nodup) (h : entry ∈ xs) :
    (xs.map fun other => (other.key, f other)).lookup entry.key = some (f entry) := by
  induction xs with
  | nil => cases h
  | cons other xs ih =>
    obtain ⟨hfresh, hrest⟩ := List.nodup_cons.1 hkeys
    rw [List.map_cons, List.lookup_cons]
    rcases List.mem_cons.1 h with rfl | h
    · rw [beq_self_eq_true]
    · have hne : entry.key ≠ other.key := fun heq => hfresh (heq ▸ List.mem_map_of_mem h)
      rw [beq_eq_false_iff_ne.2 hne]
      exact ih hrest h

/-- Of keys that are repeated as often as a number says. -/
theorem count_flatMap_replicate (f : Prerequisites κ → Nat)
    (hkeys : (xs.map Prerequisites.key).Nodup) (h : entry ∈ xs) :
    (xs.flatMap fun other => List.replicate (f other) other.key).count entry.key = f entry := by
  induction xs with
  | nil => cases h
  | cons other xs ih =>
    obtain ⟨hfresh, hrest⟩ := List.nodup_cons.1 hkeys
    rw [List.flatMap_cons, List.count_append, List.count_replicate]
    rcases List.mem_cons.1 h with rfl | h
    · have hnone : entry.key ∉ xs.flatMap fun other => List.replicate (f other) other.key := by
        intro hmem
        obtain ⟨other, hother, hrepeated⟩ := List.mem_flatMap.1 hmem
        exact hfresh (List.eq_of_mem_replicate hrepeated ▸ List.mem_map_of_mem hother)
      simp [List.count_eq_zero.2 hnone]
    · have hne : other.key ≠ entry.key := fun heq => hfresh (heq ▸ List.mem_map_of_mem h)
      simp [ih hrest h, hne]

theorem lookup_countDown (k d : κ) (pending : List (κ × Nat)) :
    (countDown k pending).lookup d =
      (pending.lookup d).map fun count => count - if k == d then 1 else 0 := by
  induction pending with
  | nil => rfl
  | cons entry pending ih =>
    rw [countDown, List.map_cons, List.lookup_cons, List.lookup_cons, ← countDown, ih]
    by_cases hd : d = entry.1
    · subst hd
      simp only [beq_self_eq_true, Option.map_some]
      split <;> rfl
    · simp only [beq_eq_false_iff_ne.2 hd]

end Numbers

/-! ## Releasing -/

section Releasing

variable [Ord κ]

theorem lookup_release (progress : Progress κ) (k d : κ) :
    (progress.release k).pending.lookup d =
      (progress.pending.lookup d).map fun count => count - if k == d then 1 else 0 := by
  unfold Progress.release
  split
  · exact lookup_countDown k d _
  · rename_i hnone
    by_cases hk : k = d
    · subst hk
      cases hlookup : progress.pending.lookup k with
      | none => rfl
      | some count =>
        cases count with
        | zero => simp
        | succ count => exact absurd hlookup (hnone count)
    · simp [hk]

/-- Every release takes one from a count. -/
theorem lookup_foldl_release (ks : List κ) (progress : Progress κ) (d : κ) :
    (ks.foldl Progress.release progress).pending.lookup d =
      (progress.pending.lookup d).map fun count => count - ks.count d := by
  induction ks generalizing progress with
  | nil => simp
  | cons k ks ih =>
    rw [List.foldl_cons, ih, lookup_release, Option.map_map, List.count_cons]
    congr 1
    funext count
    simp only [Function.comp]
    omega

variable [Std.LawfulEqOrd κ]

omit [LawfulBEq κ] in
theorem mem_ready_release {progress : Progress κ} {k d : κ} :
    d ∈ (progress.release k).ready ↔
      d ∈ progress.ready ∨ k = d ∧ progress.pending.lookup d = some 1 := by
  unfold Progress.release
  split
  · rename_i count hcount
    by_cases hk : k = d
    · subst hk
      rw [hcount]
      split
      · rename_i hzero
        simp [mem_insertKey_iff, hzero]
      · rename_i hpos
        simp [hpos]
    · have hdk : d ≠ k := fun h => hk h.symm
      split <;> simp [mem_insertKey_iff, hk, hdk]
  · rename_i hnone
    refine ⟨.inl, fun h => h.resolve_right ?_⟩
    rintro ⟨rfl, hone⟩
    exact hnone 0 hone

/-- A key becomes ready when all that it counts are released. -/
theorem mem_ready_foldl_release {ks : List κ} {progress : Progress κ} {d : κ} :
    d ∈ (ks.foldl Progress.release progress).ready ↔
      d ∈ progress.ready ∨
        ∃ count, progress.pending.lookup d = some count ∧ 0 < count ∧ count ≤ ks.count d := by
  induction ks generalizing progress with
  | nil =>
    simp only [List.foldl_nil, List.count_nil]
    refine ⟨.inl, fun h => h.resolve_right ?_⟩
    rintro ⟨count, -, hpos, hle⟩
    omega
  | cons k ks ih =>
    rw [List.foldl_cons, ih, mem_ready_release, lookup_release, or_assoc, List.count_cons]
    refine or_congr_right ?_
    cases progress.pending.lookup d with
    | none => simp
    | some count =>
      by_cases hk : k = d
      · simp only [hk, beq_self_eq_true, if_true, Option.map_some, Option.some.injEq, true_and,
          exists_eq_left']
        omega
      · simp [hk]

omit [LawfulBEq κ] in
theorem ascending_foldl_release [Std.TransOrd κ] (ks : List κ) {progress : Progress κ}
    (h : Ascending id progress.ready) :
    Ascending id (ks.foldl Progress.release progress).ready := by
  induction ks generalizing progress with
  | nil => exact h
  | cons k ks ih =>
    refine ih ?_
    unfold Progress.release
    split
    · split
      · exact ascending_insertBy h k
      · exact h
    · exact h

end Releasing

/-! ## The tally -/

section Tallies

variable {entries : List (Prerequisites κ)}

/-- What the pass over the entries counts: the prerequisites of every key, and its dependents as
often as it is their prerequisite. -/
structure IsTally (entries : List (Prerequisites κ)) (tally : Tally κ) : Prop where
  pending : tally.pending = entries.map fun entry => (entry.key, unsorted entries entry)
  dependents : ∀ k, tally.dependentsOf k = entries.flatMap fun entry =>
    List.replicate ((entry.before.filter (isKey entries)).count k) entry.key

/-- Every key is listed by another as often as that is its prerequisite. -/
theorem IsTally.count_dependentsOf {tally : Tally κ} (h : IsTally entries tally)
    (hkeys : (entries.map Prerequisites.key).Nodup) {k : κ}
    (hk : k ∈ entries.map Prerequisites.key) {entry : Prerequisites κ} (hentry : entry ∈ entries) :
    (tally.dependentsOf k).count entry.key = entry.before.count k := by
  rw [h.dependents, count_flatMap_replicate _ hkeys hentry, List.count_filter (isKey_iff.2 hk)]

omit [LawfulBEq κ] in
theorem IsTally.exists_of_mem_dependentsOf {tally : Tally κ} (h : IsTally entries tally) {k d : κ}
    (hd : d ∈ tally.dependentsOf k) : ∃ entry ∈ entries, entry.key = d := by
  rw [h.dependents] at hd
  obtain ⟨entry, hentry, hrepeated⟩ := List.mem_flatMap.1 hd
  exact ⟨entry, hentry, (List.eq_of_mem_replicate hrepeated).symm⟩

/-- Other keys than its own do not make an entry wait for itself. -/
theorem filter_present {entry : Prerequisites κ} (h : entry.key ∉ entry.before) :
    (entry.before.filter fun k => !(k == entry.key) && isKey entries k) =
      entry.before.filter (isKey entries) := by
  refine List.filter_congr fun k hk => ?_
  have hne : k ≠ entry.key := fun heq => h (heq ▸ hk)
  simp [hne]

variable [Ord κ]

omit [LawfulBEq κ] in
theorem pending_foldl_addDependent (ks : List κ) (dependent : κ) (tally : Tally κ) :
    (ks.foldl (Tally.addDependent dependent) tally).pending = tally.pending := by
  induction ks generalizing tally with
  | nil => rfl
  | cons k ks ih => exact ih _

theorem pending_foldl_count {xs : List (Prerequisites κ)} (h : ∀ e ∈ xs, e.key ∉ e.before)
    (tally : Tally κ) :
    (xs.foldl (Tally.count entries) tally).pending =
      (xs.map fun entry => (entry.key, unsorted entries entry)).foldl
        (fun sorted pair => insertBy Prod.fst pair sorted) tally.pending := by
  induction xs generalizing tally with
  | nil => rfl
  | cons entry xs ih =>
    obtain ⟨hentry, hxs⟩ := List.forall_mem_cons.1 h
    rw [List.foldl_cons, ih hxs, List.map_cons, List.foldl_cons, Tally.count,
      pending_foldl_addDependent, filter_present hentry, ← List.countP_eq_length_filter]
    rfl

variable [Std.TransOrd κ] [Std.LawfulEqOrd κ]

theorem lookup_insertBy {β : Type} (k d : κ) (value : β) (xs : List (κ × β)) :
    (insertBy Prod.fst (k, value) xs).lookup d = if d == k then some value else xs.lookup d := by
  induction xs with
  | nil =>
    rw [insertBy, List.lookup_cons]
    split <;> simp_all
  | cons x xs ih =>
    rw [insertBy]
    split
    · rw [List.lookup_cons]
      split <;> simp_all
    · rename_i heq
      have hk : k = x.1 := Std.LawfulEqCmp.eq_of_compare heq
      rw [List.lookup_cons, List.lookup_cons, hk]
      split <;> simp_all
    · rename_i hgt
      have hk : k ≠ x.1 := by
        intro heq
        have hsame : compare k k = .eq := Std.ReflCmp.compare_self
        rw [← heq, hsame] at hgt
        cases hgt
      rw [List.lookup_cons, List.lookup_cons, ih]
      split
      · rename_i hd
        rw [if_neg]
        rw [beq_iff_eq.1 hd, beq_iff_eq]
        exact hk.symm
      · rfl

theorem dependentsOf_foldl_addDependent (ks : List κ) (dependent d : κ) (tally : Tally κ) :
    (ks.foldl (Tally.addDependent dependent) tally).dependentsOf d =
      tally.dependentsOf d ++ List.replicate (ks.count d) dependent := by
  induction ks generalizing tally with
  | nil => simp
  | cons k ks ih =>
    rw [List.foldl_cons, ih, Tally.dependentsOf, Tally.addDependent, lookup_insertBy,
      List.count_cons]
    by_cases hd : d = k
    · subst hd
      simp [List.replicate_succ]
    · have hk : k ≠ d := fun h => hd h.symm
      simp [hd, hk, Tally.dependentsOf]

theorem dependentsOf_foldl_count {xs : List (Prerequisites κ)} (h : ∀ e ∈ xs, e.key ∉ e.before)
    (tally : Tally κ) (d : κ) :
    (xs.foldl (Tally.count entries) tally).dependentsOf d =
      tally.dependentsOf d ++ xs.flatMap fun entry =>
        List.replicate ((entry.before.filter (isKey entries)).count d) entry.key := by
  induction xs generalizing tally with
  | nil => simp
  | cons entry xs ih =>
    obtain ⟨hentry, hxs⟩ := List.forall_mem_cons.1 h
    rw [List.foldl_cons, ih hxs, Tally.count, dependentsOf_foldl_addDependent,
      filter_present hentry, List.flatMap_cons, List.append_assoc]
    rfl

/-- **The pass over the entries counts them** when no key is its own prerequisite. -/
theorem isTally_foldl_count (hkeys : Ascending Prerequisites.key entries)
    (hself : ∀ e ∈ entries, e.key ∉ e.before) :
    IsTally entries (entries.foldl (Tally.count entries) {}) where
  pending := by
    rw [pending_foldl_count hself]
    exact ofList_eq_self (List.pairwise_map.2 hkeys)
  dependents k := dependentsOf_foldl_count hself {} k

end Tallies

/-! ## The loop -/

section Loop

variable {entries : List (Prerequisites κ)} {tally : Tally κ} {progress : Progress κ}

/-- **The invariant of the loop.**  Every count is the number of unsorted prerequisites, the keys
that are sorted have none, and the other keys that have none are the ready ones. -/
structure Counts (entries remaining : List (Prerequisites κ)) (progress : Progress κ) : Prop where
  remains : remaining ⊆ entries
  pending : ∀ e ∈ entries, progress.pending.lookup e.key = some (unsorted remaining e)
  sorted : ∀ e ∈ entries, e ∉ remaining → unsorted remaining e = 0
  ready : progress.ready = (remaining.filter (isReady remaining)).map Prerequisites.key

/-- No count is taken below zero: a dependent that is to be released still has a count. -/
theorem Counts.exists_count [Ord κ] {remaining : List (Prerequisites κ)} {k d : κ}
    (h : Counts entries remaining progress) (htally : IsTally entries tally)
    (hentries : (entries.map Prerequisites.key).Nodup)
    (hk : k ∈ remaining.map Prerequisites.key) {released waiting : List κ}
    (hsplit : tally.dependentsOf k = released ++ d :: waiting) :
    ∃ count, (released.foldl Progress.release progress).pending.lookup d = some (count + 1) := by
  have hd : d ∈ tally.dependentsOf k := by
    rw [hsplit]
    exact List.mem_append_right _ List.mem_cons_self
  obtain ⟨e, he, rfl⟩ := htally.exists_of_mem_dependentsOf hd
  have hcount := htally.count_dependentsOf hentries (List.map_subset _ h.remains hk) he
  have hle : e.before.count k ≤ unsorted remaining e := by
    rw [unsorted, List.count]
    exact List.countP_mono_left fun other _ heq => isKey_iff.2 (beq_iff_eq.1 heq ▸ hk)
  rw [hsplit, List.count_append, List.count_cons_self] at hcount
  refine ⟨unsorted remaining e - released.count e.key - 1, ?_⟩
  rw [lookup_foldl_release, h.pending e he, Option.map_some]
  congr 1
  omega

variable [Ord κ] [Std.TransOrd κ] [Std.LawfulEqOrd κ]

/-- Before the loop nothing is sorted. -/
theorem IsTally.counts (h : IsTally entries tally) (hkeys : Ascending Prerequisites.key entries) :
    Counts entries entries
      ⟨tally.pending, setOf ((tally.pending.filter fun entry => entry.2 = 0).map Prod.fst)⟩ where
  remains := List.Subset.refl _
  pending e he := by
    rw [h.pending]
    exact lookup_map_of_mem _ hkeys.nodup_keys he
  sorted e he hnot := absurd he hnot
  ready := by
    have hfree : (tally.pending.filter fun entry => entry.2 = 0).map Prod.fst =
        (entries.filter (isReady entries)).map Prerequisites.key := by
      rw [h.pending, List.filter_map, List.map_map]
      refine congrArg _ (List.filter_congr fun entry _ => ?_)
      rw [Bool.eq_iff_iff, isReady_iff_unsorted]
      exact decide_eq_true_iff
    have hascending : Ascending id ((entries.filter (isReady entries)).map Prerequisites.key) :=
      List.pairwise_map.2 (hkeys.filter _)
    rw [hfree]
    exact ofList_eq_self hascending

section Step

variable {front back : List (Prerequisites κ)} {entry : Prerequisites κ}

omit [Std.LawfulEqOrd κ] in
/-- A count falls as often as the key that is sorted lists its dependent. -/
theorem Counts.unsorted_eq (h : Counts entries (front ++ entry :: back) progress)
    (htally : IsTally entries tally) (hentries : (entries.map Prerequisites.key).Nodup)
    (hkeys : Ascending Prerequisites.key (front ++ entry :: back)) {e : Prerequisites κ}
    (he : e ∈ entries) :
    unsorted (front ++ entry :: back) e =
      unsorted (front ++ back) e + (tally.dependentsOf entry.key).count e.key := by
  have hfresh : entry.key ∉ (front ++ back).map Prerequisites.key := by
    have hmid : ((front ++ entry :: back).map Prerequisites.key).Perm
        (entry.key :: (front ++ back).map Prerequisites.key) := by
      simp
    exact (List.nodup_cons.1 (hmid.nodup_iff.1 hkeys.nodup_keys)).1
  have hentry : entry.key ∈ entries.map Prerequisites.key :=
    List.mem_map_of_mem (h.remains (List.mem_append_right _ List.mem_cons_self))
  rw [unsorted_middle hfresh, htally.count_dependentsOf hentries hentry he]

/-- When a key has been sorted, those are ready that have no more unsorted prerequisites. -/
theorem Counts.mem_ready_iff (h : Counts entries (front ++ entry :: back) progress)
    (htally : IsTally entries tally) (hentries : (entries.map Prerequisites.key).Nodup)
    (hkeys : Ascending Prerequisites.key (front ++ entry :: back))
    (hready : isReady (front ++ entry :: back) entry = true)
    (hfront : ∀ e ∈ front, isReady (front ++ entry :: back) e = false) {ready : List κ}
    (hrest : ready = (back.filter (isReady (front ++ entry :: back))).map Prerequisites.key)
    {d : κ} :
    d ∈ ((tally.dependentsOf entry.key).foldl Progress.release { progress with ready }).ready ↔
      ∃ e ∈ front ++ back, unsorted (front ++ back) e = 0 ∧ e.key = d := by
  have hfall {e : Prerequisites κ} (he : e ∈ entries) :=
    h.unsorted_eq htally hentries hkeys he
  have hsub : front ++ back ⊆ front ++ entry :: back :=
    ((List.sublist_cons_self entry back).append_left front).subset
  subst hrest
  simp only [mem_ready_foldl_release, List.mem_map, List.mem_filter, isReady_iff_unsorted]
  constructor
  · rintro (⟨e, ⟨he, hzero⟩, rfl⟩ | ⟨count, hlookup, hpos, hle⟩)
    · have hsum := hfall (h.remains (hsub (List.mem_append_right front he)))
      exact ⟨e, List.mem_append_right front he, by omega, rfl⟩
    · obtain ⟨e, he, rfl⟩ := htally.exists_of_mem_dependentsOf
        (List.count_pos_iff.1 (Nat.lt_of_lt_of_le hpos hle))
      rw [h.pending e he, Option.some.injEq] at hlookup
      have hsum := hfall he
      refine ⟨e, ?_, by omega, rfl⟩
      by_contra hnot
      have hne : e ≠ entry := by
        rintro rfl
        rw [isReady_iff_unsorted.1 hready] at hlookup
        omega
      have hzero := h.sorted e he fun hmem => hnot (by simpa [hne] using hmem)
      omega
  · rintro ⟨e, he, hzero, rfl⟩
    have hmem := h.remains (hsub he)
    have hsum := hfall hmem
    by_cases hbefore : unsorted (front ++ entry :: back) e = 0
    · refine .inl ⟨e, ⟨(List.mem_append.1 he).resolve_left fun hin => ?_, hbefore⟩, rfl⟩
      have hnot := hfront e hin
      rw [isReady_iff_unsorted.2 hbefore] at hnot
      cases hnot
    · exact .inr ⟨_, h.pending e hmem, Nat.pos_of_ne_zero hbefore, by omega⟩

/-- **Sorting a ready key keeps the invariant**: the counts of its dependents fall, and those that
fall to zero are the new ready keys. -/
theorem Counts.step (h : Counts entries (front ++ entry :: back) progress)
    (htally : IsTally entries tally) (hentries : (entries.map Prerequisites.key).Nodup)
    (hkeys : Ascending Prerequisites.key (front ++ entry :: back))
    (hready : isReady (front ++ entry :: back) entry = true)
    (hfront : ∀ e ∈ front, isReady (front ++ entry :: back) e = false) :
    ∃ ready, progress.ready = entry.key :: ready ∧
      Counts entries (front ++ back)
        ((tally.dependentsOf entry.key).foldl Progress.release { progress with ready }) := by
  have hsub : front ++ back ⊆ front ++ entry :: back :=
    ((List.sublist_cons_self entry back).append_left front).subset
  refine ⟨(back.filter (isReady (front ++ entry :: back))).map Prerequisites.key, ?_, ?_⟩
  · rw [h.ready, List.filter_append, List.filter_eq_nil_iff.2 fun e he => by simp [hfront e he],
      List.filter_cons_of_pos hready]
    rfl
  constructor
  case remains => exact fun _ hmem => h.remains (hsub hmem)
  case pending =>
    intro e he
    rw [lookup_foldl_release, h.pending e he, h.unsorted_eq htally hentries hkeys he,
      Option.map_some, Nat.add_sub_cancel]
  case sorted =>
    intro e he hnot
    have hzero : unsorted (front ++ entry :: back) e = 0 := by
      by_cases heq : e = entry
      · rw [heq]
        exact isReady_iff_unsorted.1 hready
      · refine h.sorted e he fun hmem => hnot ?_
        simpa [heq] using hmem
    have hfall := h.unsorted_eq htally hentries hkeys he
    omega
  case ready =>
    have hrest : Ascending Prerequisites.key (front ++ back) :=
      hkeys.sublist ((List.sublist_cons_self entry back).append_left front)
    have hstart : Ascending id
        ((back.filter (isReady (front ++ entry :: back))).map Prerequisites.key) :=
      List.pairwise_map.2 ((hrest.sublist (List.sublist_append_right front back)).filter _)
    have hfold : Ascending id ((tally.dependentsOf entry.key).foldl Progress.release
        { progress with
          ready := (back.filter (isReady (front ++ entry :: back))).map Prerequisites.key }).ready :=
      ascending_foldl_release _ hstart
    have hascending : Ascending id
        (((front ++ back).filter (isReady (front ++ back))).map Prerequisites.key) :=
      List.pairwise_map.2 (hrest.filter _)
    refine hfold.eq_of_perm hascending
      ((List.perm_ext_iff_of_nodup hfold.nodup hascending.nodup).2 fun d => ?_)
    rw [h.mem_ready_iff htally hentries hkeys hready hfront rfl]
    simp only [List.mem_map, List.mem_filter, isReady_iff_unsorted, and_assoc]

end Step

/-- **The loop takes the keys that are taken without counts.** -/
theorem Counts.emit_eq {remaining : List (Prerequisites κ)} (h : Counts entries remaining progress)
    (htally : IsTally entries tally) (hentries : (entries.map Prerequisites.key).Nodup)
    (hkeys : Ascending Prerequisites.key remaining) :
    progress.emit tally = (drain remaining).1 := by
  refine drain_induction (P := fun remaining result => ∀ progress : Progress κ,
    Ascending Prerequisites.key remaining → Counts entries remaining progress →
      progress.emit tally = result.1) ?_ ?_ remaining progress hkeys h
  · intro remaining hstuck progress _ h
    have hnone : progress.ready = [] := by
      rw [h.ready, List.filter_eq_nil_iff.2 fun e he => by simp [hstuck e he]]
      rfl
    rw [Progress.emit]
    split
    · rfl
    · rename_i hready
      rw [hnone] at hready
      cases hready
  · intro front entry back result hready hfront ih progress hkeys h
    obtain ⟨ready, hpop, hnext⟩ := h.step htally hentries hkeys hready hfront
    have hrest : Ascending Prerequisites.key (front ++ back) :=
      hkeys.sublist ((List.sublist_cons_self entry back).append_left front)
    rw [Progress.emit]
    split
    · rename_i hnone
      rw [hpop] at hnone
      cases hnone
    · rename_i k ready' hsome
      rw [hpop] at hsome
      cases hsome
      rw [ih _ hrest hnext]

end Loop

/-! ## Sorting -/

section Sorting

variable [Ord κ] {entries : List (Prerequisites κ)}

theorem foldlM_add_of_free {xs : List (Prerequisites κ)} (h : ∀ e ∈ xs, e.key ∉ e.before)
    (tally : Tally κ) :
    xs.foldlM (Tally.add entries) tally = .ok (xs.foldl (Tally.count entries) tally) := by
  induction xs generalizing tally with
  | nil => rfl
  | cons entry xs ih =>
    obtain ⟨hentry, hxs⟩ := List.forall_mem_cons.1 h
    have hadd : tally.add entries entry = .ok (tally.count entries entry) :=
      if_neg fun hself => hentry (List.contains_iff_mem.1 hself)
    rw [List.foldlM_cons, hadd]
    exact ih hxs _

omit [LawfulBEq κ] in
theorem foldlM_add_of_self {xs : List (Prerequisites κ)} {entry : Prerequisites κ}
    (h : (xs.find? fun e => e.before.contains e.key) = some entry) (tally : Tally κ) :
    xs.foldlM (Tally.add entries) tally = .error [entry.key, entry.key] := by
  induction xs generalizing tally with
  | nil => cases h
  | cons other xs ih =>
    rw [List.foldlM_cons, Tally.add]
    rw [List.find?_cons] at h
    split at h
    · rename_i hself
      cases h
      rw [if_pos hself]
      rfl
    · rename_i hfree
      rw [if_neg (Bool.not_eq_true _ ▸ hfree)]
      exact ih h _

omit [LawfulBEq κ] in
/-- A key that is its own prerequisite is a cycle of one. -/
theorem sort_of_self {entry : Prerequisites κ}
    (h : (entries.find? fun e => e.before.contains e.key) = some entry) :
    sort entries = .error [entry.key, entry.key] := by
  rw [sort, foldlM_add_of_self h]
  rfl

variable [Std.TransOrd κ] [Std.LawfulEqOrd κ]

/-- **A sort with counts is one without**, when no key is its own prerequisite. -/
theorem sort_of_free (hkeys : Ascending Prerequisites.key entries)
    (h : ∀ e ∈ entries, e.key ∉ e.before) :
    sort entries =
      match drain entries with
      | (order, []) => .ok order
      | (_, stuck) => .error (cycle stuck) := by
  have htally := isTally_foldl_count hkeys h
  have hemit := (htally.counts hkeys).emit_eq htally hkeys.nodup_keys hkeys
  have hstuck := drain_snd_eq hkeys.nodup_keys
  have hlength := (drain_perm entries).length_eq
  rw [sort, foldlM_add_of_free h]
  simp only [bind, Except.bind, hemit, ← hstuck]
  rw [List.length_append, List.length_map, List.length_map] at hlength
  cases hdrain : drain entries with
  | mk order stuck =>
    rw [hdrain] at hlength
    cases stuck with
    | nil => exact if_pos (by simpa using hlength)
    | cons entry stuck =>
      refine if_neg ?_
      rw [← hlength, List.length_cons]
      exact Nat.ne_of_lt (Nat.lt_add_of_pos_right (Nat.succ_pos _))

theorem sort_eq_ok_iff (hkeys : Ascending Prerequisites.key entries) {order : List κ} :
    sort entries = .ok order ↔
      (∀ e ∈ entries, e.key ∉ e.before) ∧ drain entries = (order, []) := by
  cases hfind : entries.find? fun e => e.before.contains e.key with
  | some entry =>
    have hself := List.find?_some hfind
    rw [sort_of_self hfind]
    simp only [reduceCtorEq, false_iff]
    rintro ⟨hfree, -⟩
    exact hfree entry (List.mem_of_find?_eq_some hfind) (List.contains_iff_mem.1 hself)
  | none =>
    have hfree : ∀ e ∈ entries, e.key ∉ e.before := by
      simpa [List.find?_eq_none] using hfind
    rw [sort_of_free hkeys hfree, and_iff_right hfree]
    split
    · rename_i hdrain
      simp [hdrain]
    · rename_i hne hdrain
      simp only [hdrain, reduceCtorEq, Prod.mk.injEq, false_iff, not_and]
      exact fun _ => hne

end Sorting

end SchemaPlan.Order.Topological
