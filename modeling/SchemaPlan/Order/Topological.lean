import SchemaPlan.Order.Sorted

/-!
# Topological order

Keys with their prerequisites are put into an order in which every key stands behind its
prerequisites.  Every key has a count of the prerequisites that are still unsorted, and is ready when
there are none.  Whenever several keys are ready the smallest goes first, so the order depends on
nothing but the keys.  Prerequisites that are no keys are ignored.

* `Tally.add` counts the prerequisites of a key, `Progress.release` takes one from the count,
* `Progress.emit` takes ready keys until there are none,
* `sort` gives the order, or a cycle: its first key is repeated at the end and every key is
  followed by one of its prerequisites.
-/

set_option autoImplicit false

namespace SchemaPlan.Order

/-- A key with the keys that must come before it. -/
structure Prerequisites (κ : Type) where
  key : κ
  before : List κ
deriving DecidableEq, Repr

namespace Topological

variable {κ : Type} [BEq κ]

/-- Whether a key is among the entries. -/
def isKey (entries : List (Prerequisites κ)) (k : κ) : Bool :=
  entries.any fun entry => entry.key == k

/-! ## Counts -/

/-- How many prerequisites every key has, and which keys have a key among theirs. -/
structure Tally (κ : Type) where
  pending : List (κ × Nat) := []
  dependents : List (κ × List κ) := []

/-- The keys that have a key among their prerequisites. -/
def Tally.dependentsOf (tally : Tally κ) (k : κ) : List κ :=
  (tally.dependents.lookup k).getD []

/-- How many prerequisites of each key are still unsorted, and which keys are ready. -/
structure Progress (κ : Type) where
  pending : List (κ × Nat)
  ready : List κ

/-- All counts together. -/
def totalCount (pending : List (κ × Nat)) : Nat :=
  pending.foldr (fun entry total => entry.2 + total) 0

/-- What is left to be counted down and to be sorted. -/
def Progress.weight (progress : Progress κ) : Nat :=
  totalCount progress.pending + progress.ready.length

/-- Takes one from the count of a key. -/
def countDown (k : κ) (pending : List (κ × Nat)) : List (κ × Nat) :=
  pending.map fun entry => (entry.1, if k == entry.1 then entry.2 - 1 else entry.2)

theorem totalCount_countDown_le (k : κ) (pending : List (κ × Nat)) :
    totalCount (countDown k pending) ≤ totalCount pending := by
  induction pending with
  | nil => exact Nat.le_refl _
  | cons entry pending ih =>
    simp only [totalCount, countDown, List.map_cons, List.foldr_cons] at ih ⊢
    split <;> omega

/-- A count that is not zero falls. -/
theorem totalCount_countDown_lt {k : κ} {count : Nat} {pending : List (κ × Nat)}
    (h : pending.lookup k = some (count + 1)) :
    totalCount (countDown k pending) < totalCount pending := by
  induction pending with
  | nil => cases h
  | cons entry pending ih =>
    have hle := totalCount_countDown_le k pending
    rw [List.lookup_cons] at h
    simp only [totalCount, countDown, List.map_cons, List.foldr_cons] at ih hle ⊢
    split at h
    · rename_i hk
      have hcount := Option.some.inj h
      rw [if_pos hk]
      omega
    · rename_i hk
      have hlt := ih h
      rw [if_neg (Bool.not_eq_true _ ▸ hk)]
      omega

/-! ## Counting -/

section Counting

variable [Ord κ]

/-- Lists a key among the dependents of another. -/
def Tally.addDependent (dependent : κ) (tally : Tally κ) (k : κ) : Tally κ :=
  { tally with
    dependents := insertBy Prod.fst (k, tally.dependentsOf k ++ [dependent]) tally.dependents }

/-- Counts the prerequisites of an entry that are other keys, and lists it among their dependents. -/
def Tally.count (entries : List (Prerequisites κ)) (tally : Tally κ) (entry : Prerequisites κ) :
    Tally κ :=
  let present := entry.before.filter fun k => !(k == entry.key) && isKey entries k
  let pending := insertBy Prod.fst (entry.key, present.length) tally.pending
  present.foldl (Tally.addDependent entry.key) { tally with pending }

/-- Counts the prerequisites of an entry.  A key that is its own prerequisite is a cycle of one. -/
def Tally.add (entries : List (Prerequisites κ)) (tally : Tally κ) (entry : Prerequisites κ) :
    Except (List κ) (Tally κ) :=
  if entry.before.contains entry.key then .error [entry.key, entry.key]
  else .ok (tally.count entries entry)

/-- One prerequisite of a key has been sorted; with the last one the key is ready. -/
def Progress.release (progress : Progress κ) (k : κ) : Progress κ :=
  match progress.pending.lookup k with
  | some (count + 1) =>
    { pending := countDown k progress.pending
      ready := if count = 0 then insertKey k progress.ready else progress.ready }
  | _ => progress

theorem Progress.weight_release_le (progress : Progress κ) (k : κ) :
    (progress.release k).weight ≤ progress.weight := by
  unfold release
  split
  · rename_i count hcount
    have hlt := totalCount_countDown_lt hcount
    have hready := length_insertBy_le id k progress.ready
    simp only [weight]
    split
    · simp only [insertKey]
      omega
    · omega
  · exact Nat.le_refl _

theorem Progress.weight_foldl_release_le (ks : List κ) (progress : Progress κ) :
    (ks.foldl release progress).weight ≤ progress.weight := by
  induction ks generalizing progress with
  | nil => exact Nat.le_refl _
  | cons k ks ih => exact Nat.le_trans (ih _) (progress.weight_release_le k)

/-- Takes the least ready key and releases those that depend on it, until no key is ready. -/
def Progress.emit (tally : Tally κ) (progress : Progress κ) : List κ :=
  match _h : progress.ready with
  | [] => []
  | k :: ready =>
    k :: emit tally ((tally.dependentsOf k).foldl release { progress with ready })
termination_by progress.weight
decreasing_by
  refine Nat.lt_of_le_of_lt (weight_foldl_release_le _ _) ?_
  simp only [weight, _h, List.length_cons]
  omega

end Counting

/-! ## Cycles -/

/-- Follows the first stuck prerequisite from key to key until one repeats, within `fuel` steps;
`path` lists the keys so far, the last one first. -/
def follow (stuck : List (Prerequisites κ)) : Nat → List κ → κ → List κ
  | 0, path, _ => path.reverse
  | fuel + 1, path, current =>
    match (stuck.find? fun entry => entry.key == current).bind fun entry =>
        entry.before.find? (isKey stuck) with
    | none => path.reverse
    | some next =>
      if path.contains next then path.reverse.dropWhile (fun k => !(k == next)) ++ [next]
      else follow stuck fuel (next :: path) next

/-- A cycle among entries none of which is ready. -/
def cycle (stuck : List (Prerequisites κ)) : List κ :=
  match stuck with
  | [] => []
  | entry :: _ => follow stuck (stuck.length + 1) [entry.key] entry.key

/-! ## Sorting -/

/-- The order of the keys of entries that ascend by key, or a cycle.  Keys with no prerequisites to
wait for are ready; when they are all sorted and some keys are not, these hold a cycle. -/
def sort [Ord κ] (entries : List (Prerequisites κ)) : Except (List κ) (List κ) := do
  let tally ← entries.foldlM (Tally.add entries) {}
  let free := (tally.pending.filter fun entry => entry.2 = 0).map Prod.fst
  let sorted := Progress.emit tally ⟨tally.pending, setOf free⟩
  if sorted.length = entries.length then pure sorted
  else throw (cycle (entries.filter fun entry => !sorted.contains entry.key))

end Topological

end SchemaPlan.Order
