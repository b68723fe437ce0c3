import Mathlib.Data.List.Nodup
import Mathlib.Data.List.Sort
import SchemaPlan.Order.Sorted

/-!
# Sorted lists are determined by their elements

* `insertBy_perm`, `ofList_perm`: elements with different keys are all kept.
* `Ascending.eq_of_perm`: there is one ascending list of given elements.
* `mem_setOf_iff`: a set has the listed keys.
* `groups_perm`: groups by a key hold a list without loss or repetition.
* `mergeSort_eq_insertionSort`: elements of equal rank keep their order, however they are sorted.
-/

set_option autoImplicit false

namespace SchemaPlan.Order

variable {α κ : Type} [Ord κ]

theorem insertBy_perm [Std.LawfulEqOrd κ] {key : α → κ} {a : α} {xs : List α}
    (h : key a ∉ xs.map key) : (insertBy key a xs).Perm (a :: xs) := by
  induction xs with
  | nil => exact List.Perm.refl _
  | cons b bs ih =>
    rw [List.map_cons, List.mem_cons, not_or] at h
    rw [insertBy]
    split
    · exact List.Perm.refl _
    · rename_i heq
      exact absurd (Std.LawfulEqCmp.eq_of_compare heq) h.1
    · exact ((ih h.2).cons b).trans (List.Perm.swap a b bs)

theorem foldl_insertBy_perm [Std.LawfulEqOrd κ] {key : α → κ} (xs : List α) :
    ∀ acc : List α, ((acc ++ xs).map key).Nodup →
      (xs.foldl (fun sorted a => insertBy key a sorted) acc).Perm (acc ++ xs) := by
  induction xs with
  | nil => intro acc _; simp
  | cons x xs ih =>
    intro acc h
    have hmid : (acc ++ x :: xs).Perm (x :: acc ++ xs) := List.perm_middle
    have hnew : ((x :: acc ++ xs).map key).Nodup := (hmid.map key).nodup_iff.1 h
    have hx : key x ∉ acc.map key := by
      intro hmem
      rw [List.map_append, List.map_cons, List.cons_append, List.nodup_cons] at hnew
      exact hnew.1 (List.mem_append_left _ hmem)
    have hins := insertBy_perm hx
    have hstep := ih (insertBy key x acc) (((hins.append_right xs).map key).nodup_iff.2 hnew)
    exact hstep.trans ((hins.append_right xs).trans hmid.symm)

theorem mem_of_mem_ofList {key : α → κ} {x : α} {xs : List α} (h : x ∈ ofList key xs) :
    x ∈ xs := by
  have hfold : ∀ acc : List α, x ∈ xs.foldl (fun sorted a => insertBy key a sorted) acc →
      x ∈ acc ∨ x ∈ xs := by
    clear h
    induction xs with
    | nil => exact fun acc h => .inl h
    | cons y ys ih =>
      intro acc h
      rcases ih _ h with h | h
      · rcases mem_of_mem_insertBy h with rfl | h
        · exact .inr List.mem_cons_self
        · exact .inl h
      · exact .inr (List.mem_cons_of_mem y h)
  rcases hfold [] h with h | h
  · cases h
  · exact h

/-- **Elements with different keys are all kept.** -/
theorem ofList_perm [Std.LawfulEqOrd κ] {key : α → κ} {xs : List α} (h : (xs.map key).Nodup) :
    (ofList key xs).Perm xs :=
  foldl_insertBy_perm xs [] h

section Ascending

variable [Std.TransOrd κ]

theorem Ascending.nodup_keys {key : α → κ} {xs : List α} (h : Ascending key xs) :
    (xs.map key).Nodup := by
  rw [List.Nodup, List.pairwise_map]
  refine h.imp fun {a b} hlt heq => ?_
  have hself : compare (key b) (key b) = .eq := Std.ReflCmp.compare_self
  rw [heq, hself] at hlt
  cases hlt

theorem Ascending.nodup {key : α → κ} {xs : List α} (h : Ascending key xs) : xs.Nodup :=
  List.Nodup.of_map key h.nodup_keys

/-- **There is one ascending list of given elements.** -/
theorem Ascending.eq_of_perm {key : α → κ} {xs ys : List α} (hx : Ascending key xs)
    (hy : Ascending key ys) (h : xs.Perm ys) : xs = ys := by
  refine List.Perm.eq_of_pairwise (fun a b _ _ hab hba => ?_) hx hy h
  have hswap : compare (key a) (key b) = (compare (key b) (key a)).swap :=
    Std.OrientedCmp.eq_swap
  rw [hswap, hba] at hab
  cases hab

theorem ofList_eq_of_perm [Std.LawfulEqOrd κ] {key : α → κ} {xs ys : List α} (hy : Ascending key ys)
    (h : xs.Perm ys) : ofList key xs = ys := by
  have hnodup : (xs.map key).Nodup := (h.map key).nodup_iff.2 hy.nodup_keys
  exact (ascending_ofList key xs).eq_of_perm hy ((ofList_perm hnodup).trans h)

theorem ofList_eq_self [Std.LawfulEqOrd κ] {key : α → κ} {xs : List α} (h : Ascending key xs) :
    ofList key xs = xs :=
  ofList_eq_of_perm h (List.Perm.refl xs)

/-- Inserting an element that passes a test is inserting it among those that pass. -/
theorem filter_insertBy_of_pos [Std.LawfulEqOrd κ] {key : α → κ} {p : α → Bool} {a : α}
    {xs : List α} (h : Ascending key xs) (ha : key a ∉ xs.map key) (hp : p a = true) :
    (insertBy key a xs).filter p = insertBy key a (xs.filter p) := by
  have hfresh : key a ∉ (xs.filter p).map key := fun hmem =>
    ha (List.map_subset key List.filter_sublist.subset hmem)
  have hperm := (insertBy_perm ha).filter p
  rw [List.filter_cons_of_pos hp] at hperm
  exact Ascending.eq_of_perm ((ascending_insertBy h a).filter p) (ascending_insertBy (h.filter p) a)
    (hperm.trans (insertBy_perm hfresh).symm)

/-- Inserting an element that fails a test leaves those that pass. -/
theorem filter_insertBy_of_neg [Std.LawfulEqOrd κ] {key : α → κ} {p : α → Bool} {a : α}
    {xs : List α} (h : Ascending key xs) (ha : key a ∉ xs.map key) (hp : p a = false) :
    (insertBy key a xs).filter p = xs.filter p := by
  have hperm := (insertBy_perm ha).filter p
  rw [List.filter_cons_of_neg (Bool.eq_false_iff.1 hp)] at hperm
  exact Ascending.eq_of_perm ((ascending_insertBy h a).filter p) (h.filter p) hperm

/-- Distinct keys belong to distinct elements. -/
theorem Ascending.eq_of_key_eq {key : α → κ} {xs : List α} (h : Ascending key xs) {a b : α}
    (ha : a ∈ xs) (hb : b ∈ xs) (hab : key a = key b) : a = b :=
  List.inj_on_of_nodup_map h.nodup_keys ha hb hab

end Ascending

theorem mem_insertKey_iff [Std.LawfulEqOrd κ] {k x : κ} {ks : List κ} :
    x ∈ insertKey k ks ↔ x = k ∨ x ∈ ks := by
  refine ⟨mem_of_mem_insertBy, fun h => ?_⟩
  induction ks with
  | nil => simpa [insertKey, insertBy] using h
  | cons b bs ih =>
    rw [insertKey, insertBy]
    split
    · simpa using h
    · rename_i heq
      have hkb : k = b := Std.LawfulEqCmp.eq_of_compare heq
      simpa [hkb] using h
    · rw [List.mem_cons] at h ⊢
      rcases h with h | h | h
      · exact .inr (ih (.inl h))
      · exact .inl h
      · exact .inr (ih (.inr h))

theorem mem_foldl_insertKey_iff [Std.LawfulEqOrd κ] {x : κ} (ks acc : List κ) :
    x ∈ ks.foldl (fun sorted k => insertKey k sorted) acc ↔ x ∈ acc ∨ x ∈ ks := by
  induction ks generalizing acc with
  | nil => simp
  | cons k ks ih =>
    rw [List.foldl_cons, ih, mem_insertKey_iff, List.mem_cons]
    tauto

/-- **A set has the listed keys.** -/
theorem mem_setOf_iff [Std.LawfulEqOrd κ] {x : κ} {ks : List κ} : x ∈ setOf ks ↔ x ∈ ks :=
  (mem_foldl_insertKey_iff ks []).trans (by simp)

/-- The keys of a set that pass a test are the set of those keys. -/
theorem filter_setOf [Std.TransOrd κ] [Std.LawfulEqOrd κ] {p : κ → Bool} {ks ls : List κ}
    (h : ∀ k, k ∈ ks ∧ p k = true ↔ k ∈ ls) : (setOf ks).filter p = setOf ls := by
  have hks : Ascending id ((setOf ks).filter p) := (ascending_ofList id ks).filter p
  have hls : Ascending id (setOf ls) := ascending_ofList id ls
  refine hks.eq_of_perm hls ((List.perm_ext_iff_of_nodup hks.nodup hls.nodup).2 fun k => ?_)
  rw [List.mem_filter, mem_setOf_iff, mem_setOf_iff, h]

/-! ## Groups -/

/-- Groups by a key, one for each key that occurs, hold a list without loss or repetition. -/
theorem groups_perm {α κ : Type} [BEq κ] [LawfulBEq κ] (key : α → κ) {keys : List κ}
    (hkeys : keys.Nodup) : ∀ {xs : List α}, (∀ x ∈ xs, key x ∈ keys) →
      (keys.flatMap fun k => xs.filter fun x => key x == k).Perm xs := by
  induction keys with
  | nil =>
    intro xs h
    rw [List.eq_nil_iff_forall_not_mem.2 fun x hx => List.not_mem_nil (h x hx)]
    exact List.Perm.refl _
  | cons k keys ih =>
    intro xs h
    obtain ⟨hk, hrest⟩ := List.nodup_cons.1 hkeys
    have hothers : (keys.flatMap fun k' => xs.filter fun x => key x == k') =
        keys.flatMap fun k' => (xs.filter fun x => !(key x == k)).filter fun x => key x == k' := by
      refine List.flatMap_congr fun k' hk' => ?_
      rw [List.filter_filter]
      refine List.filter_congr fun x _ => ?_
      by_cases hx : key x = k'
      · have hne : key x ≠ k := fun heq => hk (heq ▸ hx ▸ hk')
        simp [hx, hx ▸ hne]
      · simp [hx]
    rw [List.flatMap_cons, hothers]
    refine ((ih hrest fun x hx => ?_).append_left _).trans (List.filter_append_perm _ xs)
    obtain ⟨hmem, hne⟩ := List.mem_filter.1 hx
    simp only [Bool.not_eq_true', beq_eq_false_iff_ne] at hne
    exact (List.mem_cons.1 (h x hmem)).resolve_left hne

/-! ## Equal ranks -/

theorem orderedInsert_append {r : α → α → Prop} [DecidableRel r] {a : α} {front back : List α}
    (hfront : ∀ b ∈ front, ¬r a b) (hback : ∀ b ∈ back, r a b) :
    (front ++ back).orderedInsert r a = front ++ a :: back := by
  induction front with
  | nil =>
    cases back with
    | nil => rfl
    | cons b back => exact List.orderedInsert_cons_of_le r back (hback b List.mem_cons_self)
  | cons b front ih =>
    obtain ⟨hb, hfront⟩ := List.forall_mem_cons.1 hfront
    rw [List.cons_append, List.orderedInsert_of_not_le r _ hb, ih hfront, List.cons_append]

/-- **Elements of equal rank keep their order**, whether a list is sorted by merging or by
inserting.  Two elements may have equal rank, so this does not follow from both being sorted. -/
theorem mergeSort_eq_insertionSort {le : α → α → Bool}
    (htrans : ∀ a b c, le a b = true → le b c = true → le a c = true)
    (htotal : ∀ a b, (le a b || le b a) = true) (xs : List α) :
    xs.mergeSort le = xs.insertionSort fun a b => le a b = true := by
  induction xs with
  | nil => exact List.mergeSort_nil
  | cons x xs ih =>
    obtain ⟨front, back, hsorted, hrest, hfront⟩ := List.mergeSort_cons htrans htotal x xs
    have hpairs := List.pairwise_mergeSort htrans htotal (x :: xs)
    rw [hsorted] at hpairs
    have hback : ∀ b ∈ back, le x b = true := fun b hb =>
      List.rel_of_pairwise_cons (List.pairwise_append.1 hpairs).2.1 hb
    have hnot : ∀ b ∈ front, ¬le x b = true := fun b hb =>
      Bool.eq_false_iff.1 (Bool.not_eq_true' _ ▸ hfront b hb)
    rw [List.insertionSort_cons, ← ih, hrest, hsorted, orderedInsert_append hnot hback]

end SchemaPlan.Order
