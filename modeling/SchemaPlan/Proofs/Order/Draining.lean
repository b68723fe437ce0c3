import Mathlib.Data.List.Nodup
import SchemaPlan.Order.Topological

/-!
# Taking ready keys

What a topological sort does, without its counts: of the keys that are left it takes the first one
that none of them has to stand before, until there is none.

* `drain_induction`: what holds where no key is ready, and is kept by taking one, holds.
* `drain_perm`, `drain_pairwise`: every key is taken once or stuck, and none before a prerequisite.
* `drain_map`, `drain_append_of_free`: other keys, and keys in front that need nothing.
-/

set_option autoImplicit false

namespace SchemaPlan.Order

/-- An entry under other keys. -/
def Prerequisites.map {κ κ' : Type} (f : κ → κ') (entry : Prerequisites κ) : Prerequisites κ' :=
  ⟨f entry.key, entry.before.map f⟩

namespace Topological

variable {κ : Type}

section Draining

variable [BEq κ]

/-- Whether no prerequisite of an entry is among the remaining keys. -/
def isReady (remaining : List (Prerequisites κ)) (entry : Prerequisites κ) : Bool :=
  !entry.before.any (isKey remaining)

/-- Takes the first ready key again and again; gives the order in which keys were taken and the
entries from which none could be taken. -/
def drain (remaining : List (Prerequisites κ)) : List κ × List (Prerequisites κ) :=
  match _h : remaining.find? (isReady remaining) with
  | none => ([], remaining)
  | some entry =>
    let (order, stuck) := drain (remaining.eraseP (isReady remaining))
    (entry.key :: order, stuck)
termination_by remaining.length
decreasing_by
  have hmem := List.mem_of_find?_eq_some _h
  rw [List.length_eraseP_of_mem hmem (List.find?_some _h)]
  have := List.length_pos_of_mem hmem
  omega

theorem isKey_iff [LawfulBEq κ] {entries : List (Prerequisites κ)} {k : κ} :
    isKey entries k = true ↔ k ∈ entries.map Prerequisites.key := by
  simp only [isKey, List.any_eq_true, beq_iff_eq, List.mem_map]

theorem isReady_iff [LawfulBEq κ] {remaining : List (Prerequisites κ)} {entry : Prerequisites κ} :
    isReady remaining entry = true ↔
      ∀ k ∈ entry.before, k ∉ remaining.map Prerequisites.key := by
  simp only [isReady, Bool.not_eq_true', List.any_eq_false, isKey_iff]

/-! ## Draining -/

theorem drain_of_none {remaining : List (Prerequisites κ)}
    (h : remaining.find? (isReady remaining) = none) : drain remaining = ([], remaining) := by
  rw [drain]
  split
  · rfl
  · rename_i hsome
    rw [h] at hsome
    cases hsome

theorem drain_of_some {remaining : List (Prerequisites κ)} {entry : Prerequisites κ}
    (h : remaining.find? (isReady remaining) = some entry) :
    drain remaining =
      (entry.key :: (drain (remaining.eraseP (isReady remaining))).1,
        (drain (remaining.eraseP (isReady remaining))).2) := by
  rw [drain]
  split
  · rename_i hnone
    rw [h] at hnone
    cases hnone
  · rename_i hsome
    rw [h] at hsome
    cases hsome
    rfl

/-- Taking the first element that passes a test splits a list around it. -/
theorem exists_split_of_find? {α : Type} {p : α → Bool} {a : α} {xs : List α}
    (h : xs.find? p = some a) : ∃ front back, xs = front ++ a :: back ∧
      (∀ b ∈ front, p b = false) ∧ xs.eraseP p = front ++ back := by
  obtain ⟨hpa, front, back, rfl, hfront⟩ := List.find?_eq_some_iff_append.1 h
  have hnot : ∀ b ∈ front, p b = false := fun b hb => by simpa using hfront b hb
  refine ⟨front, back, rfl, hnot, ?_⟩
  rw [List.eraseP_append_right _ fun b hb hp => by simp [hnot b hb] at hp,
    List.eraseP_cons_of_pos hpa]

/-- What holds of an exhausted list of keys and of every step holds of the result. -/
theorem drain_induction {P : List (Prerequisites κ) → List κ × List (Prerequisites κ) → Prop}
    (stuck : ∀ remaining, (∀ e ∈ remaining, isReady remaining e = false) →
      P remaining ([], remaining))
    (step : ∀ front entry back result, isReady (front ++ entry :: back) entry = true →
      (∀ e ∈ front, isReady (front ++ entry :: back) e = false) →
      P (front ++ back) result → P (front ++ entry :: back) (entry.key :: result.1, result.2))
    (remaining : List (Prerequisites κ)) : P remaining (drain remaining) := by
  cases h : remaining.find? (isReady remaining) with
  | none =>
    rw [drain_of_none h]
    refine stuck remaining fun e he => ?_
    simpa using List.find?_eq_none.1 h e he
  | some entry =>
    have hready := List.find?_some h
    obtain ⟨front, back, hsplit, hfront, herase⟩ := exists_split_of_find? h
    have hlen : (remaining.eraseP (isReady remaining)).length < remaining.length := by
      rw [herase, hsplit]
      simp
    have ih := drain_induction stuck step (remaining.eraseP (isReady remaining))
    rw [drain_of_some h]
    rw [hsplit] at hready hfront
    rw [herase] at ih ⊢
    have hgoal := step front entry back _ hready hfront ih
    rwa [← hsplit] at hgoal
termination_by remaining.length

theorem drain_perm (remaining : List (Prerequisites κ)) :
    ((drain remaining).1 ++ (drain remaining).2.map Prerequisites.key).Perm
      (remaining.map Prerequisites.key) := by
  refine drain_induction (P := fun r result =>
    (result.1 ++ result.2.map Prerequisites.key).Perm (r.map Prerequisites.key)) ?_ ?_ remaining
  · intro r _
    exact List.Perm.refl _
  · intro front entry back result _ _ ih
    rw [List.map_append, List.map_cons]
    rw [List.map_append] at ih
    exact (ih.cons entry.key).trans List.perm_middle.symm

/-- What is left are the entries whose keys were not taken. -/
theorem drain_snd_eq [LawfulBEq κ] {remaining : List (Prerequisites κ)}
    (h : (remaining.map Prerequisites.key).Nodup) :
    (drain remaining).2 = remaining.filter fun e => !(drain remaining).1.contains e.key := by
  refine drain_induction (P := fun r result => (r.map Prerequisites.key).Nodup →
    result.2 = r.filter fun e => !result.1.contains e.key) ?_ ?_ remaining h
  · intro r _ _
    exact (List.filter_eq_self.2 fun _ _ => rfl).symm
  · intro front entry back result _ _ ih hnodup
    have hmid : ((front ++ entry :: back).map Prerequisites.key).Perm
        (entry.key :: (front ++ back).map Prerequisites.key) := by
      simp
    obtain ⟨hfresh, hrest⟩ := List.nodup_cons.1 (hmid.nodup_iff.1 hnodup)
    have hothers : ∀ e ∈ front ++ back,
        (!result.1.contains e.key) = !(entry.key :: result.1).contains e.key := by
      intro e he
      have hne : e.key ≠ entry.key := fun heq => hfresh (heq ▸ List.mem_map_of_mem he)
      rw [List.contains_cons, beq_eq_false_iff_ne.2 hne, Bool.false_or]
    have htaken : (entry :: back).filter (fun e => !(entry.key :: result.1).contains e.key) =
        back.filter fun e => !(entry.key :: result.1).contains e.key :=
      List.filter_cons_of_neg (by simp)
    change result.2 = (front ++ entry :: back).filter fun e => !(entry.key :: result.1).contains e.key
    rw [ih hrest, List.filter_congr hothers, List.filter_append, List.filter_append, htaken]

/-- Nothing is ready among what is left. -/
theorem not_ready_of_mem_stuck (remaining : List (Prerequisites κ)) :
    (drain remaining).2 ⊆ remaining ∧
      ∀ e ∈ (drain remaining).2, isReady (drain remaining).2 e = false := by
  refine drain_induction (P := fun r result =>
    result.2 ⊆ r ∧ ∀ e ∈ result.2, isReady result.2 e = false) ?_ ?_ remaining
  · intro r hr
    exact ⟨fun _ he => he, hr⟩
  · intro front entry back result _ _ ih
    refine ⟨fun e he => ?_, ih.2⟩
    have hmem := ih.1 he
    rw [List.mem_append] at hmem ⊢
    exact hmem.imp_right (List.mem_cons_of_mem entry)

/-- No key is taken before one of its prerequisites. -/
theorem drain_pairwise [LawfulBEq κ] {remaining : List (Prerequisites κ)}
    (h : (remaining.map Prerequisites.key).Nodup) :
    (drain remaining).1.Pairwise fun a b => ∀ e ∈ remaining, e.key = a → b ∉ e.before := by
  refine drain_induction (P := fun r result => (r.map Prerequisites.key).Nodup →
    (∀ k ∈ result.1, k ∈ r.map Prerequisites.key) ∧
      result.1.Pairwise fun a b => ∀ e ∈ r, e.key = a → b ∉ e.before) ?_ ?_ remaining h |>.2
  · intro r _ _
    exact ⟨fun k hk => absurd hk List.not_mem_nil, List.Pairwise.nil⟩
  · intro front entry back result hready _ ih hnodup
    have hmid : ((front ++ entry :: back).map Prerequisites.key).Perm
        (entry.key :: (front ++ back).map Prerequisites.key) := by
      simp
    obtain ⟨hfresh, hrest⟩ := List.nodup_cons.1 (hmid.nodup_iff.1 hnodup)
    obtain ⟨hkeys, hpairs⟩ := ih hrest
    refine ⟨fun k hk => ?_, List.pairwise_cons.2 ⟨fun b hb e he hkey => ?_, ?_⟩⟩
    · refine hmid.mem_iff.2 ?_
      rcases List.mem_cons.1 hk with rfl | hk
      · exact List.mem_cons_self
      · exact List.mem_cons_of_mem _ (hkeys k hk)
    · have heq : e = entry := List.inj_on_of_nodup_map hnodup he (by simp) hkey
      rw [heq]
      intro hbefore
      refine isReady_iff.1 hready b hbefore (hmid.mem_iff.2 ?_)
      exact List.mem_cons_of_mem _ (hkeys b hb)
    · refine hpairs.imp_of_mem fun {a b} ha _ hab e he hkey => ?_
      have hne : e ≠ entry := by
        rintro rfl
        exact hfresh (hkey ▸ hkeys a ha)
      refine hab e ?_ hkey
      rw [List.mem_append, List.mem_cons] at he
      rw [List.mem_append]
      rcases he with he | he | he
      · exact .inl he
      · exact absurd he hne
      · exact .inr he

/-- Keys that stand behind their prerequisites are taken one after the other. -/
theorem drain_of_ordered [LawfulBEq κ] {remaining : List (Prerequisites κ)}
    (hself : ∀ e ∈ remaining, e.key ∉ e.before)
    (h : remaining.Pairwise fun a b => b.key ∉ a.before) :
    drain remaining = (remaining.map Prerequisites.key, []) := by
  induction remaining with
  | nil => exact drain_of_none rfl
  | cons entry rest ih =>
    obtain ⟨hhead, htail⟩ := List.pairwise_cons.1 h
    have hready : isReady (entry :: rest) entry = true := by
      refine isReady_iff.2 fun k hk hmem => ?_
      rw [List.map_cons, List.mem_cons] at hmem
      rcases hmem with rfl | hmem
      · exact hself entry List.mem_cons_self hk
      · obtain ⟨e, he, rfl⟩ := List.mem_map.1 hmem
        exact hhead e he hk
    rw [drain_of_some (List.find?_cons_of_pos hready), List.eraseP_cons_of_pos hready,
      ih (fun e he => hself e (List.mem_cons_of_mem _ he)) htail]
    rfl

/-- A first key that needs nothing is taken first. -/
theorem drain_cons_of_free {entry : Prerequisites κ} {rest : List (Prerequisites κ)}
    (h : entry.before = []) :
    drain (entry :: rest) = (entry.key :: (drain rest).1, (drain rest).2) := by
  have hready : isReady (entry :: rest) entry = true := by
    rw [isReady, h]
    rfl
  rw [drain_of_some (List.find?_cons_of_pos hready), List.eraseP_cons_of_pos hready]

/-- Keys that need nothing are taken first when they stand first. -/
theorem drain_append_of_free {free rest : List (Prerequisites κ)}
    (h : ∀ entry ∈ free, entry.before = []) :
    drain (free ++ rest) = (free.map Prerequisites.key ++ (drain rest).1, (drain rest).2) := by
  induction free with
  | nil => rfl
  | cons entry free ih =>
    obtain ⟨hentry, hfree⟩ := List.forall_mem_cons.1 h
    rw [List.cons_append, drain_cons_of_free hentry, ih hfree]
    rfl

end Draining

/-! ## Other keys -/

section Relabelling

variable {κ' : Type} [BEq κ] [LawfulBEq κ] [BEq κ'] [LawfulBEq κ'] {f : κ → κ'}

theorem isReady_map (hf : Function.Injective f) (remaining : List (Prerequisites κ))
    (entry : Prerequisites κ) :
    isReady (remaining.map (.map f)) (entry.map f) = isReady remaining entry := by
  rw [Bool.eq_iff_iff, isReady_iff, isReady_iff]
  have hkeys : (remaining.map (Prerequisites.map f)).map Prerequisites.key =
      (remaining.map Prerequisites.key).map f := by
    rw [List.map_map, List.map_map]
    rfl
  simp only [hkeys, Prerequisites.map, List.forall_mem_map, List.mem_map_of_injective hf]

/-- Entries are drained alike under other keys. -/
theorem drain_map (hf : Function.Injective f) (remaining : List (Prerequisites κ)) :
    drain (remaining.map (.map f)) =
      ((drain remaining).1.map f, (drain remaining).2.map (.map f)) := by
  have hready : isReady (remaining.map (.map f)) ∘ Prerequisites.map f = isReady remaining :=
    funext fun entry => isReady_map hf remaining entry
  cases h : remaining.find? (isReady remaining) with
  | none =>
    rw [drain_of_none h, drain_of_none]
    · rfl
    · rw [List.find?_map, hready, h]
      rfl
  | some entry =>
    have hlen : (remaining.eraseP (isReady remaining)).length < remaining.length := by
      obtain ⟨front, back, hsplit, -, herase⟩ := exists_split_of_find? h
      rw [herase, hsplit]
      simp
    have hfind : (remaining.map (.map f)).find? (isReady (remaining.map (.map f))) =
        some (entry.map f) := by
      rw [List.find?_map, hready, h]
      rfl
    rw [drain_of_some h, drain_of_some hfind, List.eraseP_map, hready,
      drain_map hf (remaining.eraseP (isReady remaining))]
    rfl
termination_by remaining.length

end Relabelling

end Topological

end SchemaPlan.Order
