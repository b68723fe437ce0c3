import Mathlib.Data.Set.Finite.List
import Mathlib.Logic.Relation
import Mathlib.Order.WellFounded
import SchemaPlan.Proofs.Order.Counting

/-!
# Topological orders

* `sort_spec`: the order holds every key once, and no key stands before one of its prerequisites.
* `exists_sort_iff`: there is an order exactly when no key needs itself, directly or through others.
* `sort_of_ordered`: keys that already stand behind their prerequisites stay where they are.
* `sort_append_of_free`: keys in front that need nothing and are not needed change no order.
-/

set_option autoImplicit false

namespace SchemaPlan.Order.Topological

variable {κ : Type}

/-- A key has another key among its prerequisites. -/
def Needs (entries : List (Prerequisites κ)) (a b : κ) : Prop :=
  ∃ entry ∈ entries, entry.key = a ∧ b ∈ entry.before ∧ b ∈ entries.map Prerequisites.key

/-- No key needs itself, directly or through others. -/
def Acyclic (entries : List (Prerequisites κ)) : Prop :=
  ∀ k, ¬ Relation.TransGen (Needs entries) k k

/-! ## Sorting -/

section Sorting

variable [BEq κ] [LawfulBEq κ] [Ord κ] [Std.TransOrd κ] [Std.LawfulEqOrd κ]

/-- **An order holds every key once, and no key stands before one of its prerequisites.** -/
theorem sort_spec {entries : List (Prerequisites κ)} {order : List κ}
    (hkeys : Ascending Prerequisites.key entries) (h : sort entries = .ok order) :
    order.Perm (entries.map Prerequisites.key) ∧ (∀ e ∈ entries, e.key ∉ e.before) ∧
      order.Pairwise fun a b => ∀ e ∈ entries, e.key = a → b ∉ e.before := by
  obtain ⟨hself, hdrain⟩ := (sort_eq_ok_iff hkeys).1 h
  have hperm := drain_perm entries
  have hpairs := drain_pairwise hkeys.nodup_keys
  rw [hdrain] at hperm hpairs
  exact ⟨by simpa using hperm, hself, hpairs⟩

/-- Keys that stand behind their prerequisites stay where they are. -/
theorem sort_of_ordered {entries : List (Prerequisites κ)}
    (hkeys : Ascending Prerequisites.key entries)
    (hself : ∀ e ∈ entries, e.key ∉ e.before)
    (h : entries.Pairwise fun a b => b.key ∉ a.before) :
    sort entries = .ok (entries.map Prerequisites.key) :=
  (sort_eq_ok_iff hkeys).2 ⟨hself, drain_of_ordered hself h⟩

/-- Keys that need nothing and that no other key needs can be left out where they stand first. -/
theorem sort_append_of_free {κ' : Type} [BEq κ'] [LawfulBEq κ'] [Ord κ'] [Std.TransOrd κ']
    [Std.LawfulEqOrd κ'] {f : κ → κ'} (hf : Function.Injective f)
    {free : List (Prerequisites κ')} {rest : List (Prerequisites κ)} {order : List κ'}
    (hrest : Ascending Prerequisites.key rest)
    (hall : Ascending Prerequisites.key (free ++ rest.map (.map f)))
    (h : ∀ entry ∈ free, entry.before = []) :
    sort (free ++ rest.map (.map f)) = .ok order ↔
      ∃ order', sort rest = .ok order' ∧ order = free.map Prerequisites.key ++ order'.map f := by
  simp only [sort_eq_ok_iff hrest, sort_eq_ok_iff hall, drain_append_of_free h, drain_map hf,
    Prod.mk.injEq, List.map_eq_nil_iff, List.forall_mem_append, List.forall_mem_map]
  have hself : (∀ e ∈ rest, (e.map f).key ∉ (e.map f).before) ↔ ∀ e ∈ rest, e.key ∉ e.before := by
    simp only [Prerequisites.map, List.mem_map_of_injective hf]
  rw [hself]
  constructor
  · rintro ⟨⟨-, hrest⟩, rfl, hstuck⟩
    exact ⟨_, ⟨hrest, Prod.ext rfl hstuck⟩, rfl⟩
  · rintro ⟨order', ⟨hrest, hdrain⟩, rfl⟩
    rw [hdrain]
    exact ⟨⟨fun e he => by simp [h e he], hrest⟩, rfl, rfl⟩

end Sorting

/-! ## Cycles -/

/-- A relation along which a rank falls has no cycle. -/
theorem not_transGen_self {α : Type} {R : α → α → Prop} (rank : α → Nat)
    (h : ∀ a b, R a b → rank b < rank a) (a : α) : ¬ Relation.TransGen R a a := by
  intro hcycle
  have hfall : ∀ {b}, Relation.TransGen R a b → rank b < rank a := by
    intro b hab
    induction hab with
    | single hab => exact h _ _ hab
    | tail _ hbc ih => exact (h _ _ hbc).trans ih
  exact Nat.lt_irrefl _ (hfall hcycle)

/-- Among finitely many keys each of which needs another of them one needs itself. -/
theorem exists_cycle {entries stuck : List (Prerequisites κ)} (hne : stuck ≠ [])
    (h : ∀ e ∈ stuck, ∃ f ∈ stuck, Needs entries e.key f.key) : ¬ Acyclic entries := by
  intro hacyclic
  let below (f e : {e // e ∈ stuck}) : Prop :=
    Relation.TransGen (Needs entries) e.1.key f.1.key
  have hfin : Finite {e // e ∈ stuck} := (List.finite_toSet stuck).to_subtype
  have htrans : IsTrans _ below := ⟨fun _ _ _ hab hbc => hbc.trans hab⟩
  have hirrefl : Std.Irrefl below := ⟨fun e he => hacyclic _ he⟩
  have hwf : WellFounded below := Finite.wellFounded_of_trans_of_irrefl below
  obtain ⟨e, he⟩ := List.exists_mem_of_ne_nil stuck hne
  obtain ⟨m, -, hmin⟩ := hwf.has_min Set.univ ⟨⟨e, he⟩, trivial⟩
  obtain ⟨f, hf, hneeds⟩ := h m.1 m.2
  exact hmin ⟨f, hf⟩ trivial (.single hneeds)

section Cycles

variable [BEq κ] [LawfulBEq κ]

theorem idxOf_lt_of_pairwise {R : κ → κ → Prop} {xs : List κ}
    (h : xs.Pairwise fun a b => ¬ R a b) {a b : κ} (ha : a ∈ xs) (hb : b ∈ xs) (hne : a ≠ b)
    (hab : R a b) : xs.idxOf b < xs.idxOf a := by
  have hla := List.idxOf_lt_length_iff.2 ha
  have hlb := List.idxOf_lt_length_iff.2 hb
  rcases Nat.lt_trichotomy (xs.idxOf b) (xs.idxOf a) with hlt | heq | hgt
  · exact hlt
  · exact absurd ((List.idxOf_inj hb).1 heq).symm hne
  · have hno := List.pairwise_iff_getElem.1 h _ _ hla hlb hgt
    rw [List.getElem_idxOf hla, List.getElem_idxOf hlb] at hno
    exact absurd hab hno

variable [Ord κ] [Std.TransOrd κ] [Std.LawfulEqOrd κ]

/-- In an order every key stands behind the keys that it needs. -/
theorem idxOf_lt_of_needs {entries : List (Prerequisites κ)} {order : List κ}
    (hkeys : Ascending Prerequisites.key entries) (h : sort entries = .ok order) {a b : κ}
    (hab : Needs entries a b) : order.idxOf b < order.idxOf a := by
  obtain ⟨hperm, hself, hpairs⟩ := sort_spec hkeys h
  obtain ⟨e, he, rfl, hbefore, hb⟩ := hab
  have hne : e.key ≠ b := by
    rintro rfl
    exact hself e he hbefore
  refine idxOf_lt_of_pairwise (R := fun a b => ∃ e ∈ entries, e.key = a ∧ b ∈ e.before)
    (hpairs.imp fun {a b} hab hR => ?_) (hperm.mem_iff.2 (List.mem_map_of_mem he))
    (hperm.mem_iff.2 hb) hne ⟨e, he, rfl, hbefore⟩
  obtain ⟨e, he, hkey, hbefore⟩ := hR
  exact hab e he hkey hbefore

theorem acyclic_of_sort {entries : List (Prerequisites κ)} {order : List κ}
    (hkeys : Ascending Prerequisites.key entries) (h : sort entries = .ok order) :
    Acyclic entries :=
  not_transGen_self order.idxOf fun _ _ => idxOf_lt_of_needs hkeys h

/-- **There is an order exactly when no key needs itself, directly or through others.** -/
theorem exists_sort_iff {entries : List (Prerequisites κ)}
    (hkeys : Ascending Prerequisites.key entries) :
    (∃ order, sort entries = .ok order) ↔ Acyclic entries := by
  refine ⟨fun ⟨_, h⟩ => acyclic_of_sort hkeys h, fun hacyclic => ?_⟩
  have hself : ∀ e ∈ entries, e.key ∉ e.before := fun e he hbefore =>
    hacyclic e.key (.single ⟨e, he, rfl, hbefore, List.mem_map_of_mem he⟩)
  obtain ⟨hsub, hstuck⟩ := not_ready_of_mem_stuck entries
  have hnil : (drain entries).2 = [] := by
    refine Classical.byContradiction fun hne => exists_cycle hne (fun e he => ?_) hacyclic
    have hnot := hstuck e he
    have hex : ¬ ∀ k ∈ e.before, k ∉ (drain entries).2.map Prerequisites.key := fun hall => by
      rw [isReady_iff.2 hall] at hnot
      cases hnot
    obtain ⟨k, hbefore, hk⟩ : ∃ k ∈ e.before, k ∈ (drain entries).2.map Prerequisites.key := by
      simpa using hex
    obtain ⟨f, hf, rfl⟩ := List.mem_map.1 hk
    exact ⟨f, hf, e, hsub he, rfl, hbefore, List.mem_map_of_mem (hsub hf)⟩
  exact ⟨(drain entries).1, (sort_eq_ok_iff hkeys).2 ⟨hself, Prod.ext rfl hnil⟩⟩

end Cycles

end SchemaPlan.Order.Topological
