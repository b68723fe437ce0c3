import Mathlib.Data.List.Chain
import SchemaPlan.Proofs.Order.Topological

/-!
# Orders and cycles

A sort ends with an order or with a cycle, and what it gives is one.

* `IsOrder` and `IsCycle` say what an order and a cycle are, without the sort.
* `isCycle_follow`: going from stuck key to stuck prerequisite closes a cycle before the fuel is
  used up.
* `sort_exact`: there is an order exactly when no key needs itself; otherwise there is a cycle.
-/

set_option autoImplicit false

namespace SchemaPlan.Order.Topological

variable {κ : Type}

/-- **An order**: every key once, and each behind all that it needs. -/
structure IsOrder [BEq κ] (entries : List (Prerequisites κ)) (order : List κ) : Prop where
  perm : order.Perm (entries.map Prerequisites.key)
  behind : ∀ a b, Needs entries a b → order.idxOf b < order.idxOf a

/-- **A cycle**: from key to needed key, the first one repeated at the end and no other twice. -/
structure IsCycle (entries : List (Prerequisites κ)) (cycle : List κ) : Prop where
  two_le_length : 2 ≤ cycle.length
  closed : cycle.head? = cycle.getLast?
  distinct : cycle.dropLast.Nodup
  keys : ∀ k ∈ cycle.dropLast, k ∈ entries.map Prerequisites.key
  steps : cycle.IsChain (Needs entries)

theorem Needs.mono {entries more : List (Prerequisites κ)} (hsub : entries ⊆ more) {a b : κ}
    (h : Needs entries a b) : Needs more a b := by
  obtain ⟨entry, hentry, hkey, hbefore, hb⟩ := h
  exact ⟨entry, hsub hentry, hkey, hbefore, List.map_subset _ hsub hb⟩

/-- A cycle among some entries is one among more of them. -/
theorem IsCycle.mono {entries more : List (Prerequisites κ)} (hsub : entries ⊆ more)
    {cycle : List κ} (h : IsCycle entries cycle) : IsCycle more cycle where
  two_le_length := h.two_le_length
  closed := h.closed
  distinct := h.distinct
  keys k hk := List.map_subset _ hsub (h.keys k hk)
  steps := h.steps.imp fun _ _ => Needs.mono hsub

/-- A key that needs itself is a cycle of one. -/
theorem isCycle_self {entries : List (Prerequisites κ)} {entry : Prerequisites κ}
    (hentry : entry ∈ entries) (hself : entry.key ∈ entry.before) :
    IsCycle entries [entry.key, entry.key] where
  two_le_length := Nat.le_refl 2
  closed := rfl
  distinct := List.nodup_singleton _
  keys k hk := by
    have hkey : k = entry.key := by simpa using hk
    rw [hkey]
    exact List.mem_map_of_mem hentry
  steps := by
    rw [List.isChain_pair]
    exact ⟨entry, hentry, rfl, hself, List.mem_map_of_mem hentry⟩

/-! ## Walks -/

/-- A walk from key to needed key that has not met a key twice; the last key stands first. -/
structure IsWalk (stuck : List (Prerequisites κ)) (path : List κ) : Prop where
  nodup : path.Nodup
  keys : path ⊆ stuck.map Prerequisites.key
  steps : path.IsChain fun later earlier => Needs stuck earlier later

section Walks

variable {stuck : List (Prerequisites κ)} {current next : κ} {rest : List κ}

theorem isWalk_singleton {entry : Prerequisites κ} (h : entry ∈ stuck) :
    IsWalk stuck [entry.key] where
  nodup := List.nodup_singleton _
  keys := by
    intro k hk
    rw [List.mem_singleton.1 hk]
    exact List.mem_map_of_mem h
  steps := .singleton _

/-- A walk is no longer than there are keys. -/
theorem IsWalk.length_le {path : List κ} (h : IsWalk stuck path) :
    path.length ≤ stuck.length := by
  have hle := (h.nodup.subperm h.keys).length_le
  rwa [List.length_map] at hle

/-- A walk goes on to a needed key that it has not met. -/
theorem IsWalk.cons (h : IsWalk stuck (current :: rest)) (hneeds : Needs stuck current next)
    (hfresh : next ∉ current :: rest) : IsWalk stuck (next :: current :: rest) where
  nodup := List.nodup_cons.2 ⟨hfresh, h.nodup⟩
  keys := by
    obtain ⟨_, -, -, -, hkey⟩ := hneeds
    exact List.cons_subset.2 ⟨hkey, h.keys⟩
  steps := .cons_cons hneeds h.steps

/-- A walk that comes back to one of its keys holds a cycle from there on. -/
theorem IsWalk.isCycle [BEq κ] [LawfulBEq κ] (h : IsWalk stuck (current :: rest))
    (hneeds : Needs stuck current next) (hmem : next ∈ current :: rest) :
    IsCycle stuck
      (((current :: rest).reverse.dropWhile fun k => !(k == next)) ++ [next]) := by
  obtain ⟨front, back, hsplit, hfront⟩ :=
    List.eq_append_cons_of_mem (List.mem_reverse.2 hmem)
  have hdrop : ((current :: rest).reverse.dropWhile fun k => !(k == next)) = next :: back := by
    have hne : ∀ k ∈ front, (!(k == next)) = true := by
      intro k hk
      have hkn : k ≠ next := fun heq => hfront (heq ▸ hk)
      simpa using hkn
    rw [hsplit, List.dropWhile_append_of_pos hne, List.dropWhile_cons_of_neg (by simp)]
  have hnodup : (front ++ next :: back).Nodup := hsplit ▸ List.nodup_reverse.2 h.nodup
  have hkeys : ∀ k ∈ front ++ next :: back, k ∈ stuck.map Prerequisites.key := by
    intro k hk
    rw [← hsplit, List.mem_reverse] at hk
    exact h.keys hk
  have hsteps : (front ++ (next :: back ++ [next])).IsChain (Needs stuck) := by
    have hclosed : (next :: current :: rest).IsChain fun later earlier =>
        Needs stuck earlier later := .cons_cons hneeds h.steps
    rw [← List.isChain_reverse, List.reverse_cons, hsplit, List.append_assoc] at hclosed
    exact hclosed
  rw [hdrop]
  constructor
  case two_le_length => simp
  case closed =>
    rw [List.getLast?_concat]
    rfl
  case distinct =>
    rw [List.dropLast_concat]
    exact (List.nodup_append.1 hnodup).2.1
  case keys =>
    rw [List.dropLast_concat]
    intro k hk
    exact hkeys k (List.mem_append_right front hk)
  case steps => exact hsteps.right_of_append

end Walks

/-! ## Following prerequisites -/

section Following

variable [BEq κ] [LawfulBEq κ] {stuck : List (Prerequisites κ)}

/-- Where nothing is ready every key leads to a key that it needs. -/
theorem exists_next (hstuck : ∀ e ∈ stuck, isReady stuck e = false) {current : κ}
    (hcurrent : current ∈ stuck.map Prerequisites.key) :
    ∃ next, Needs stuck current next ∧
      ((stuck.find? fun entry => entry.key == current).bind fun entry =>
        entry.before.find? (isKey stuck)) = some next := by
  obtain ⟨found, hfind⟩ : ∃ found, (stuck.find? fun e => e.key == current) = some found := by
    obtain ⟨entry, hentry, hkey⟩ := List.mem_map.1 hcurrent
    rw [← Option.isSome_iff_exists, List.find?_isSome]
    exact ⟨entry, hentry, beq_iff_eq.2 hkey⟩
  have hfound := List.mem_of_find?_eq_some hfind
  have hkey : found.key = current := by simpa using List.find?_some hfind
  obtain ⟨next, hnext⟩ : ∃ next, found.before.find? (isKey stuck) = some next := by
    have hnot := hstuck found hfound
    rw [isReady, Bool.not_eq_false', List.any_eq_true] at hnot
    rw [← Option.isSome_iff_exists, List.find?_isSome]
    exact hnot
  refine ⟨next, ⟨found, hfound, hkey, List.mem_of_find?_eq_some hnext, ?_⟩, ?_⟩
  · exact isKey_iff.1 (List.find?_some hnext)
  · rw [hfind, Option.bind_some, hnext]

/-- **Following stuck prerequisites closes a cycle.**  The walk can not use up its fuel: it would
be longer than there are keys. -/
theorem isCycle_follow (hstuck : ∀ e ∈ stuck, isReady stuck e = false) (fuel : Nat) :
    ∀ {current : κ} {rest : List κ}, IsWalk stuck (current :: rest) →
      stuck.length < (current :: rest).length + fuel →
      IsCycle stuck (follow stuck fuel (current :: rest) current) := by
  induction fuel with
  | zero =>
    intro current rest hwalk hfuel
    have hle := hwalk.length_le
    omega
  | succ fuel ih =>
    intro current rest hwalk hfuel
    obtain ⟨next, hneeds, hnext⟩ := exists_next hstuck (hwalk.keys List.mem_cons_self)
    rw [follow, hnext]
    simp only [List.contains_iff_mem]
    by_cases hmem : next ∈ current :: rest
    · rw [if_pos hmem]
      exact hwalk.isCycle hneeds hmem
    · rw [if_neg hmem]
      refine ih (hwalk.cons hneeds hmem) ?_
      simp only [List.length_cons] at hfuel ⊢
      omega

/-- Stuck entries hold a cycle. -/
theorem isCycle_cycle (hne : stuck ≠ []) (hstuck : ∀ e ∈ stuck, isReady stuck e = false) :
    IsCycle stuck (cycle stuck) := by
  cases stuck with
  | nil => exact absurd rfl hne
  | cons entry others =>
    rw [cycle]
    refine isCycle_follow hstuck _ (isWalk_singleton List.mem_cons_self) ?_
    simp only [List.length_singleton]
    omega

end Following

/-! ## Sorting -/

section Sorting

variable [BEq κ] [LawfulBEq κ] [Ord κ] [Std.TransOrd κ] [Std.LawfulEqOrd κ]
  {entries : List (Prerequisites κ)}

/-- The order of a sort is an order. -/
theorem isOrder_of_sort (hkeys : Ascending Prerequisites.key entries) {order : List κ}
    (h : sort entries = .ok order) : IsOrder entries order where
  perm := (sort_spec hkeys h).1
  behind _ _ hneeds := idxOf_lt_of_needs hkeys h hneeds

/-- The cycle of a sort is a cycle. -/
theorem isCycle_of_sort (hkeys : Ascending Prerequisites.key entries) {found : List κ}
    (h : sort entries = .error found) : IsCycle entries found := by
  cases hfind : entries.find? fun e => e.before.contains e.key with
  | some entry =>
    rw [sort_of_self hfind] at h
    cases h
    have hself := List.find?_some hfind
    exact isCycle_self (List.mem_of_find?_eq_some hfind) (List.contains_iff_mem.1 hself)
  | none =>
    have hfree : ∀ e ∈ entries, e.key ∉ e.before := by
      simpa [List.find?_eq_none] using hfind
    obtain ⟨hsub, hstuck⟩ := not_ready_of_mem_stuck entries
    rw [sort_of_free hkeys hfree] at h
    split at h
    · cases h
    · rename_i order stuck hne hdrain
      cases h
      rw [hdrain] at hsub hstuck
      have hcycle : IsCycle stuck (cycle stuck) := isCycle_cycle (fun hnil => hne hnil) hstuck
      exact hcycle.mono hsub

/-- **A sort is sound and complete**: it gives an order exactly when no key needs itself, directly
or through others, and it names a cycle otherwise. -/
theorem sort_exact (hkeys : Ascending Prerequisites.key entries) :
    ((∃ order, sort entries = .ok order) ↔ Acyclic entries) ∧
      (∀ order, sort entries = .ok order → IsOrder entries order) ∧
      ∀ found, sort entries = .error found → IsCycle entries found :=
  ⟨exists_sort_iff hkeys, fun _ => isOrder_of_sort hkeys, fun _ => isCycle_of_sort hkeys⟩

end Sorting

/-- Three of four keys need each other in a ring, and a line is left when one of them lets go.
Nine is no key, so it is never waited for. -/
theorem sort_exact_ring_and_line :
    let ring : List (Prerequisites Nat) := [⟨1, [9]⟩, ⟨2, [1, 3]⟩, ⟨3, [4, 9]⟩, ⟨4, [1, 2]⟩]
    let line : List (Prerequisites Nat) := [⟨1, [9]⟩, ⟨2, [1, 3]⟩, ⟨3, [4, 9]⟩, ⟨4, [1]⟩]
    (Ascending Prerequisites.key ring ∧ sort ring = .error [2, 3, 4, 2] ∧ ¬ Acyclic ring ∧
        IsCycle ring [2, 3, 4, 2]) ∧
      Ascending Prerequisites.key line ∧ sort line = .ok [1, 4, 3, 2] ∧ Acyclic line ∧
        IsOrder line [1, 4, 3, 2] := by
  intro ring line
  have hring : sort ring = .error [2, 3, 4, 2] := by decide +kernel
  have hline : sort line = .ok [1, 4, 3, 2] := by decide +kernel
  have hringKeys : Ascending Prerequisites.key ring := by
    simp [ring, Ascending, Nat.compare_eq_lt]
  have hlineKeys : Ascending Prerequisites.key line := by
    simp [line, Ascending, Nat.compare_eq_lt]
  obtain ⟨hringIff, -, hcycle⟩ := sort_exact hringKeys
  obtain ⟨hlineIff, horder, -⟩ := sort_exact hlineKeys
  refine ⟨⟨hringKeys, hring, fun hacyclic => ?_, hcycle _ hring⟩, hlineKeys, hline,
    hlineIff.1 ⟨_, hline⟩, horder _ hline⟩
  obtain ⟨order, hok⟩ := hringIff.2 hacyclic
  rw [hring] at hok
  cases hok

end SchemaPlan.Order.Topological
