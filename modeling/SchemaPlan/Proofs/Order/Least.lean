import SchemaPlan.Proofs.Order.Cycle
import SchemaPlan.Proofs.Order.Sorted

/-!
# The least order

Keys mostly have many orders.  A sort gives the one that is lexicographically least, so its result
depends on the keys and their prerequisites and on nothing else.

* `IsOrder.exists_ready`: every order of the remaining keys begins with a ready key.
* `IsOrder.tail`: what follows it is an order of the keys without it.
* `drain_least`: taking the first ready key again and again stays below every order.
* `sort_least`: the order of a sort is an order, and no other order is below it.
-/

set_option autoImplicit false

namespace SchemaPlan.Order.Topological

variable {κ : Type} [BEq κ] [LawfulBEq κ]

/-! ## The first key of an order -/

section First

variable {remaining : List (Prerequisites κ)} {k : κ} {rest : List κ}

/-- An order begins with a ready key: a prerequisite that remains would have to stand before it. -/
theorem IsOrder.exists_ready (h : IsOrder remaining (k :: rest)) :
    ∃ entry ∈ remaining, entry.key = k ∧ isReady remaining entry = true := by
  obtain ⟨entry, hentry, hkey⟩ := List.mem_map.1 (h.perm.mem_iff.1 List.mem_cons_self)
  refine ⟨entry, hentry, hkey, isReady_iff.2 fun b hb hremains => ?_⟩
  have hbefore := h.behind k b ⟨entry, hentry, hkey, hb, hremains⟩
  simp at hbefore

/-- Where no key is ready there is no order but the one of no keys. -/
theorem IsOrder.eq_nil (hstuck : ∀ e ∈ remaining, isReady remaining e = false) {order : List κ}
    (h : IsOrder remaining order) : order = [] := by
  cases order with
  | nil => rfl
  | cons k rest =>
    obtain ⟨entry, hentry, -, hready⟩ := h.exists_ready
    simp [hstuck entry hentry] at hready

/-- What follows the first key is an order of the other keys. -/
theorem IsOrder.tail {front back : List (Prerequisites κ)} {entry : Prerequisites κ}
    (hkeys : ((front ++ entry :: back).map Prerequisites.key).Nodup)
    (h : IsOrder (front ++ entry :: back) (entry.key :: rest)) : IsOrder (front ++ back) rest := by
  have hmid : ((front ++ entry :: back).map Prerequisites.key).Perm
      (entry.key :: (front ++ back).map Prerequisites.key) := by
    simp
  have hfresh : entry.key ∉ (front ++ back).map Prerequisites.key :=
    (List.nodup_cons.1 (hmid.nodup_iff.1 hkeys)).1
  have hsub : front ++ back ⊆ front ++ entry :: back := by
    intro e he
    simp only [List.mem_append, List.mem_cons] at he ⊢
    tauto
  refine ⟨(h.perm.trans hmid).cons_inv, fun a b hab => ?_⟩
  -- Neither of the two keys is the first one, so both places move by one.
  have hbehind := h.behind a b (hab.mono hsub)
  obtain ⟨e, he, rfl, -, hb⟩ := hab
  have hne : ∀ {c}, c ∈ (front ++ back).map Prerequisites.key → entry.key ≠ c := by
    rintro c hc rfl
    exact hfresh hc
  rw [List.idxOf_cons_ne _ (hne hb), List.idxOf_cons_ne _ (hne (List.mem_map_of_mem he))] at hbehind
  omega

end First

/-! ## Draining -/

section Least

variable [Ord κ] [Std.TransOrd κ] [Std.LawfulEqOrd κ]

/-- **The first ready key is the least one**, so the keys are taken in an order that is not above
any other.  The induction is on the remaining keys: an order that begins with another ready key is
above, and one that begins with the same key is compared by what follows. -/
theorem drain_least {remaining : List (Prerequisites κ)}
    (h : Ascending Prerequisites.key remaining) :
    ∀ other, IsOrder remaining other → (compare (drain remaining).1 other).isLE = true := by
  refine drain_induction (P := fun remaining result => Ascending Prerequisites.key remaining →
    ∀ other, IsOrder remaining other → (compare result.1 other).isLE = true) ?_ ?_ remaining h
  · intro remaining hstuck _ other hother
    simp [hother.eq_nil hstuck]
  · intro front entry back result _ hfront ih hasc other hother
    have hrest : Ascending Prerequisites.key (front ++ back) :=
      hasc.sublist ((List.sublist_cons_self entry back).append_left front)
    cases other with
    | nil =>
      have hlength := hother.perm.length_eq
      simp at hlength
    | cons k rest =>
      obtain ⟨first, hfirst, rfl, hready⟩ := hother.exists_ready
      rw [List.compare_cons_cons]
      rcases List.mem_append.1 hfirst with hmem | hmem
      · simp [hfront first hmem] at hready
      rcases List.mem_cons.1 hmem with rfl | hmem
      · have hsame : compare first.key first.key = .eq := Std.ReflCmp.compare_self
        rw [hsame, Ordering.eq_then]
        exact ih hrest rest (hother.tail hasc.nodup_keys)
      · have habove : compare entry.key first.key = .lt :=
          (List.pairwise_cons.1 (List.pairwise_append.1 hasc).2.1).1 first hmem
        simp [habove]

/-- **A sort gives the least order**: where no key needs itself there is an order, and the one
that is found is not above any other. -/
theorem sort_least {entries : List (Prerequisites κ)}
    (hkeys : Ascending Prerequisites.key entries) (hacyclic : Acyclic entries) :
    ∃ order, sort entries = .ok order ∧ IsOrder entries order ∧
      ∀ other, IsOrder entries other → (compare order other).isLE = true := by
  obtain ⟨order, hsort⟩ := (exists_sort_iff hkeys).2 hacyclic
  have hdrain := ((sort_eq_ok_iff hkeys).1 hsort).2
  refine ⟨order, hsort, isOrder_of_sort hkeys hsort, fun other hother => ?_⟩
  have hleast := drain_least hkeys other hother
  rwa [hdrain] at hleast

end Least

/-- Two is taken before the keys that wait, and one as soon as three is there; the order of the
names in the list of prerequisites plays no part.  Nine is no key. -/
theorem sort_least_waiting :
    let entries : List (Prerequisites Nat) := [⟨1, [9, 3]⟩, ⟨2, []⟩, ⟨3, []⟩, ⟨4, [3, 2]⟩]
    Ascending Prerequisites.key entries ∧ Acyclic entries ∧
      ∃ order, sort entries = .ok order ∧ order = [2, 3, 1, 4] ∧ IsOrder entries order ∧
        ∀ other, IsOrder entries other → (compare order other).isLE = true := by
  intro entries
  have hkeys : Ascending Prerequisites.key entries := by
    simp [entries, Ascending, Nat.compare_eq_lt]
  have hsort : sort entries = .ok [2, 3, 1, 4] := by decide +kernel
  have hacyclic : Acyclic entries := acyclic_of_sort hkeys hsort
  obtain ⟨order, hfound, horder, hleast⟩ := sort_least hkeys hacyclic
  rw [hsort] at hfound
  cases hfound
  exact ⟨hkeys, hacyclic, _, hsort, rfl, horder, hleast⟩

end SchemaPlan.Order.Topological
