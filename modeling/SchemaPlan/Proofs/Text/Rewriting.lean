import Mathlib.Data.List.Basic

/-!
# Lists rewritten element by element

The passes that bring an expression into its canonical form replace every character by a few
characters, mostly by itself or by none.

* `Rewrites.append`, `Rewrites.of_append`: parts are rewritten on their own.
* `Rewrites.trans`: two passes are one pass when the replacements compose.
* `Rewrites.sublist`: a pass that only drops elements leaves a sublist.
-/

set_option autoImplicit false

namespace SchemaPlan.Text

/-- The second list is the first with a replacement that `R` allows in place of every element. -/
inductive Rewrites {α : Type} (R : α → List α → Prop) : List α → List α → Prop where
  | nil : Rewrites R [] []
  | cons {a : α} {as s t : List α} (ha : R a as) (h : Rewrites R s t) :
    Rewrites R (a :: s) (as ++ t)

namespace Rewrites

variable {α : Type} {R Q : α → List α → Prop} {a : α} {s t u v : List α}

theorem keep (ha : R a [a]) (h : Rewrites R s t) : Rewrites R (a :: s) (a :: t) :=
  .cons ha h

theorem drop (ha : R a []) (h : Rewrites R s t) : Rewrites R (a :: s) t :=
  .cons ha h

theorem refl (h : ∀ a ∈ s, R a [a]) : Rewrites R s s := by
  induction s with
  | nil => exact .nil
  | cons a s ih =>
    obtain ⟨ha, hs⟩ := List.forall_mem_cons.1 h
    exact .keep ha (ih hs)

theorem mono (hsub : ∀ a ∈ s, ∀ as, R a as → Q a as) (h : Rewrites R s t) : Rewrites Q s t := by
  induction h with
  | nil => exact .nil
  | cons ha h ih =>
    obtain ⟨hhead, hrest⟩ := List.forall_mem_cons.1 hsub
    exact .cons (hhead _ ha) (ih hrest)

theorem append (hs : Rewrites R s t) (hu : Rewrites R u v) : Rewrites R (s ++ u) (t ++ v) := by
  induction hs with
  | nil => exact hu
  | @cons a as s t ha h ih =>
    rw [List.cons_append, List.append_assoc]
    exact .cons ha ih

theorem of_append (h : Rewrites R (s ++ u) t) :
    ∃ x y, t = x ++ y ∧ Rewrites R s x ∧ Rewrites R u y := by
  induction s generalizing t with
  | nil => exact ⟨[], t, rfl, .nil, h⟩
  | cons a s ih =>
    rw [List.cons_append] at h
    cases h with
    | @cons _ as _ t ha h =>
      obtain ⟨x, y, rfl, hx, hy⟩ := ih h
      exact ⟨as ++ x, y, by rw [List.append_assoc], .cons ha hx, hy⟩

/-- Two passes are one when what replaces a replacement replaces the element. -/
theorem trans (hcomp : ∀ a as bs, R a as → Rewrites Q as bs → R a bs) (h : Rewrites R s t)
    (hnext : Rewrites Q t u) : Rewrites R s u := by
  induction h generalizing u with
  | nil =>
    cases hnext
    exact .nil
  | cons ha h ih =>
    obtain ⟨x, y, rfl, hx, hy⟩ := of_append hnext
    exact .cons (hcomp _ _ _ ha hx) (ih hy)

theorem exists_of_mem {b : α} (h : Rewrites R s t) (hb : b ∈ t) :
    ∃ a ∈ s, ∃ as, R a as ∧ b ∈ as := by
  induction h with
  | nil => cases hb
  | @cons a as s t ha h ih =>
    rcases List.mem_append.1 hb with hb | hb
    · exact ⟨a, List.mem_cons_self, as, ha, hb⟩
    · obtain ⟨c, hc, cs, hcs, hbc⟩ := ih hb
      exact ⟨c, List.mem_cons_of_mem a hc, cs, hcs, hbc⟩

/-- A pass that replaces elements by others from which as much is read off, keeps what is read off
the list. -/
theorem filterMap_eq {β : Type} {f : α → Option β}
    (hR : ∀ a ∈ s, ∀ as, R a as → as.filterMap f = [a].filterMap f) (h : Rewrites R s t) :
    t.filterMap f = s.filterMap f := by
  induction h with
  | nil => rfl
  | @cons a as s t ha _ ih =>
    obtain ⟨hhead, hrest⟩ := List.forall_mem_cons.1 hR
    rw [List.filterMap_append, hhead as ha, ih hrest, ← List.filterMap_append,
      List.singleton_append]

theorem filter_eq {p : α → Bool} (hR : ∀ a ∈ s, ∀ as, R a as → as.filter p = [a].filter p)
    (h : Rewrites R s t) : t.filter p = s.filter p := by
  simp only [← List.filterMap_eq_filter] at hR ⊢
  exact h.filterMap_eq hR

theorem sublist (hR : ∀ a as, R a as → as = [a] ∨ as = []) (h : Rewrites R s t) :
    t.Sublist s := by
  induction h with
  | nil => exact List.Sublist.refl []
  | cons ha h ih =>
    rcases hR _ _ ha with rfl | rfl
    · exact ih.cons_cons _
    · exact ih.cons _

end Rewrites

end SchemaPlan.Text
