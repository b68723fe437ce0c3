import Mathlib.Order.Bounds.Basic
import Mathlib.Order.MinMax
import SchemaPlan.Text.EditDistance

/-!
# The least number of edits

The table is filled with the costs of alignments: two texts are written one below the other, and a
column costs nothing when it holds one character twice.

* `Edit` and `Edits`: one character is inserted, deleted or replaced; chains of such edits.
* `Aligned`: alignments with their costs.  They can be put together (`Aligned.trans`), so an
  alignment is a chain of edits (`Aligned.edits`) and a chain is no shorter than some alignment
  (`Edits.exists_aligned`).
* `IsCost.cons_cons`: the entry of a cell from its three neighbours.
* `IsRow.nextRow`: a row of costs leads to the next; `IsRow.foldl`: so do all characters of a text.
* `editDistance_isLeast`: the result is the length of a shortest chain of edits.
-/

set_option autoImplicit false

namespace SchemaPlan.Text

variable {a b c : List Char} {m n k : Nat}

/-! ## Chains of edits -/

/-- One character is inserted, deleted or replaced. -/
inductive Edit : List Char → List Char → Prop where
  | insert (front back : List Char) (x : Char) : Edit (front ++ back) (front ++ x :: back)
  | delete (front back : List Char) (x : Char) : Edit (front ++ x :: back) (front ++ back)
  | replace (front back : List Char) (x y : Char) :
    Edit (front ++ x :: back) (front ++ y :: back)

/-- Edits one after the other, with their number. -/
inductive Edits : Nat → List Char → List Char → Prop where
  | refl (a : List Char) : Edits 0 a a
  | step {n : Nat} {a b c : List Char} : Edit a b → Edits n b c → Edits (n + 1) a c

theorem Edit.symm (h : Edit a b) : Edit b a := by
  cases h with
  | insert front back x => exact .delete front back x
  | delete front back x => exact .insert front back x
  | replace front back x y => exact .replace front back y x

theorem Edit.cons (x : Char) (h : Edit a b) : Edit (x :: a) (x :: b) := by
  cases h with
  | insert front back y => exact .insert (x :: front) back y
  | delete front back y => exact .delete (x :: front) back y
  | replace front back y z => exact .replace (x :: front) back y z

theorem Edit.reverse (h : Edit a b) : Edit a.reverse b.reverse := by
  cases h with
  | insert front back x => simpa using Edit.insert back.reverse front.reverse x
  | delete front back x => simpa using Edit.delete back.reverse front.reverse x
  | replace front back x y => simpa using Edit.replace back.reverse front.reverse x y

theorem Edits.trans (hab : Edits m a b) (hbc : Edits n b c) : Edits (m + n) a c := by
  induction hab with
  | refl => rwa [Nat.zero_add]
  | step hedit _ ih =>
    rw [Nat.add_right_comm]
    exact .step hedit (ih hbc)

theorem Edits.symm (h : Edits n a b) : Edits n b a := by
  induction h with
  | refl a => exact .refl a
  | step hedit _ ih => exact ih.trans (.step hedit.symm (.refl _))

theorem Edits.cons (x : Char) (h : Edits n a b) : Edits n (x :: a) (x :: b) := by
  induction h with
  | refl a => exact .refl (x :: a)
  | step hedit _ ih => exact .step (hedit.cons x) ih

theorem Edits.reverse (h : Edits n a b) : Edits n a.reverse b.reverse := by
  induction h with
  | refl a => exact .refl a.reverse
  | step hedit _ ih => exact .step hedit.reverse ih

theorem edits_zero_iff : Edits 0 a b ↔ a = b := by
  constructor
  · rintro ⟨⟩
    rfl
  · rintro rfl
    exact .refl a

/-! ## Alignments -/

/-- The cost of a column with two characters. -/
def mismatch (x y : Char) : Nat :=
  if x = y then 0 else 1

theorem mismatch_self (x : Char) : mismatch x x = 0 :=
  if_pos rfl

theorem mismatch_le_one (x y : Char) : mismatch x y ≤ 1 := by
  rw [mismatch]
  split <;> decide

theorem mismatch_comm (x y : Char) : mismatch x y = mismatch y x := by
  rw [mismatch, mismatch]
  simp only [eq_comm]

theorem mismatch_triangle (x y z : Char) : mismatch x z ≤ mismatch x y + mismatch y z := by
  by_cases hxy : x = y
  · rw [hxy]
    exact Nat.le_add_left _ _
  · have hone : mismatch x y = 1 := if_neg hxy
    have hle := mismatch_le_one x z
    omega

/-- Two texts written one below the other, with the number of columns that are not free.  A column
has a character of both texts or of one of them. -/
inductive Aligned : Nat → List Char → List Char → Prop where
  | nil : Aligned 0 [] []
  | pair {n : Nat} {a b : List Char} (x y : Char) :
    Aligned n a b → Aligned (n + mismatch x y) (x :: a) (y :: b)
  | insert {n : Nat} {a b : List Char} (y : Char) : Aligned n a b → Aligned (n + 1) a (y :: b)
  | delete {n : Nat} {a b : List Char} (x : Char) : Aligned n a b → Aligned (n + 1) (x :: a) b

namespace Aligned

theorem keep (x : Char) (h : Aligned n a b) : Aligned n (x :: a) (x :: b) := by
  have hpair := h.pair x x
  rwa [mismatch_self] at hpair

theorem keep_append (h : Aligned n a b) (front : List Char) :
    Aligned n (front ++ a) (front ++ b) := by
  induction front with
  | nil => exact h
  | cons x front ih => exact ih.keep x

theorem refl (a : List Char) : Aligned 0 a a := by
  have h := nil.keep_append a
  rwa [List.append_nil] at h

theorem symm (h : Aligned n a b) : Aligned n b a := by
  induction h with
  | nil => exact .nil
  | pair x y _ ih =>
    rw [mismatch_comm]
    exact ih.pair y x
  | insert y _ ih => exact ih.delete y
  | delete x _ ih => exact ih.insert x

/-- Every character too many costs a column. -/
theorem length_le (h : Aligned n a b) : b.length ≤ a.length + n := by
  induction h with
  | nil => exact Nat.le_refl 0
  | pair x y _ ih =>
    rw [List.length_cons, List.length_cons]
    omega
  | insert y _ ih =>
    rw [List.length_cons]
    omega
  | delete x _ ih =>
    rw [List.length_cons]
    omega

/-- Where the first character of the upper text stands: below others that are inserted, it has a column
of its own or none below it. -/
theorem cons_induction {y : Char} {P : Nat → List Char → Prop}
    (pair : ∀ n c z, Aligned n b c → P (n + mismatch y z) (z :: c))
    (insert : ∀ n c z, P n c → P (n + 1) (z :: c))
    (delete : ∀ n c, Aligned n b c → P (n + 1) c) (h : Aligned n (y :: b) c) : P n c := by
  generalize hsource : y :: b = source at h
  induction h with
  | nil => cases hsource
  | @pair n _ c _ z h =>
    cases hsource
    exact pair n c z h
  | @insert n _ c z _ ih => exact insert n c z (ih hsource)
  | @delete n _ c _ h =>
    cases hsource
    exact delete n c h

/-- Alignments with a text in the middle are put together.  The first one tells how the head of the
middle text came about, the second one what becomes of it. -/
theorem trans (hab : Aligned m a b) : ∀ {n : Nat} {c : List Char}, Aligned n b c →
    ∃ k ≤ m + n, Aligned k a c := by
  induction hab with
  | nil =>
    intro n c hbc
    exact ⟨n, by omega, hbc⟩
  | delete x _ ih =>
    intro n c hbc
    obtain ⟨k, hk, hac⟩ := ih hbc
    exact ⟨k + 1, by omega, hac.delete x⟩
  | @pair m a _ x y _ ih =>
    intro n c hbc
    refine cons_induction (P := fun n c => ∃ k ≤ m + mismatch x y + n, Aligned k (x :: a) c)
      (fun n c z hbc => ?_) (fun n c z hac => ?_) (fun n c hbc => ?_) hbc
    · obtain ⟨k, hk, hac⟩ := ih hbc
      have hcost := mismatch_triangle x y z
      exact ⟨k + mismatch x z, by omega, hac.pair x z⟩
    · obtain ⟨k, hk, hac⟩ := hac
      exact ⟨k + 1, by omega, hac.insert z⟩
    · obtain ⟨k, hk, hac⟩ := ih hbc
      exact ⟨k + 1, by omega, hac.delete x⟩
  | @insert m a _ y _ ih =>
    intro n c hbc
    refine cons_induction (P := fun n c => ∃ k ≤ m + 1 + n, Aligned k a c)
      (fun n c z hbc => ?_) (fun n c z hac => ?_) (fun n c hbc => ?_) hbc
    · obtain ⟨k, hk, hac⟩ := ih hbc
      exact ⟨k + 1, by omega, hac.insert z⟩
    · obtain ⟨k, hk, hac⟩ := hac
      exact ⟨k + 1, by omega, hac.insert z⟩
    · obtain ⟨k, hk, hac⟩ := ih hbc
      exact ⟨k, by omega, hac⟩

/-- An alignment is carried out column by column. -/
theorem edits (h : Aligned n a b) : Edits n a b := by
  induction h with
  | nil => exact .refl []
  | @pair n a b x y _ ih =>
    by_cases hxy : x = y
    · rw [hxy, mismatch_self]
      exact ih.cons y
    · have hone : mismatch x y = 1 := if_neg hxy
      rw [hone]
      exact .step (.replace [] a x y) (ih.cons y)
  | @insert n a b y _ ih => exact .step (.insert [] a y) (ih.cons y)
  | @delete n a b x _ ih => exact .step (.delete [] a x) ih

/-- Texts are aligned from the left, and what is left of the longer one is inserted or deleted. -/
theorem exists_le_max (a : List Char) : ∀ b : List Char,
    ∃ n ≤ max a.length b.length, Aligned n a b := by
  induction a with
  | nil =>
    intro b
    induction b with
    | nil => exact ⟨0, Nat.zero_le _, .nil⟩
    | cons y b ih =>
      obtain ⟨n, hn, h⟩ := ih
      refine ⟨n + 1, ?_, h.insert y⟩
      rw [List.length_nil, Nat.zero_max] at hn
      rw [List.length_cons]
      omega
  | cons x a ih =>
    intro b
    cases b with
    | nil =>
      obtain ⟨n, hn, h⟩ := ih []
      refine ⟨n + 1, ?_, h.delete x⟩
      rw [List.length_nil, Nat.max_zero] at hn
      rw [List.length_cons]
      omega
    | cons y b =>
      obtain ⟨n, hn, h⟩ := ih b
      have hcost := mismatch_le_one x y
      refine ⟨n + mismatch x y, ?_, h.pair x y⟩
      rw [List.length_cons, List.length_cons]
      omega

end Aligned

theorem Edit.exists_aligned (h : Edit a b) : ∃ n ≤ 1, Aligned n a b := by
  cases h with
  | insert front back x => exact ⟨1, Nat.le_refl 1, ((Aligned.refl back).insert x).keep_append front⟩
  | delete front back x => exact ⟨1, Nat.le_refl 1, ((Aligned.refl back).delete x).keep_append front⟩
  | replace front back x y =>
    refine ⟨0 + mismatch x y, ?_, ((Aligned.refl back).pair x y).keep_append front⟩
    rw [Nat.zero_add]
    exact mismatch_le_one x y

/-- A chain of edits is no shorter than some alignment. -/
theorem Edits.exists_aligned (h : Edits n a b) : ∃ k ≤ n, Aligned k a b := by
  induction h with
  | refl a => exact ⟨0, Nat.le_refl 0, .refl a⟩
  | step hedit _ ih =>
    obtain ⟨first, hfirst, hab⟩ := hedit.exists_aligned
    obtain ⟨rest, hrest, hbc⟩ := ih
    obtain ⟨k, hk, hac⟩ := hab.trans hbc
    exact ⟨k, by omega, hac⟩

/-! ## Rows of costs -/

/-- The cost of a cheapest alignment. -/
def IsCost (a b : List Char) (cost : Nat) : Prop :=
  IsLeast {n | Aligned n a b} cost

theorem isCost_nil_left (b : List Char) : IsCost [] b b.length := by
  constructor
  · induction b with
    | nil => exact .nil
    | cons y b ih => exact .insert y ih
  · intro n h
    have hlength := Aligned.length_le h
    rwa [List.length_nil, Nat.zero_add] at hlength

theorem IsCost.symm (h : IsCost a b k) : IsCost b a k :=
  ⟨h.1.symm, fun _ hn => h.2 hn.symm⟩

theorem isCost_nil_right (a : List Char) : IsCost a [] a.length :=
  (isCost_nil_left a).symm

/-- The entry of a cell from those above it, to its left and to its upper left. -/
theorem IsCost.cons_cons {x y : Char} {up left diagonal : Nat} (hup : IsCost a (y :: b) up)
    (hleft : IsCost (x :: a) b left) (hdiagonal : IsCost a b diagonal) :
    IsCost (x :: a) (y :: b) (min (min (up + 1) (left + 1)) (diagonal + mismatch x y)) := by
  constructor
  · rcases min_choice (min (up + 1) (left + 1)) (diagonal + mismatch x y) with h | h
    · rw [h]
      rcases min_choice (up + 1) (left + 1) with h | h
      · rw [h]
        exact hup.1.delete x
      · rw [h]
        exact hleft.1.insert y
    · rw [h]
      exact hdiagonal.1.pair x y
  · intro n h
    cases h with
    | pair _ _ h =>
      have := hdiagonal.2 h
      omega
    | insert _ h =>
      have := hleft.2 h
      omega
    | delete _ h =>
      have := hup.2 h
      omega

/-- The entries behind a place of a row: the costs of a text and of longer and longer parts of the
other one.  Both texts stand in reverse, as far as they have been read; the list holds what has
not been read. -/
inductive AreCosts (source : List Char) : List Char → List Char → List Nat → Prop where
  | nil (seen : List Char) : AreCosts source seen [] []
  | cons {seen rest : List Char} {y : Char} {entry : Nat} {entries : List Nat} :
    IsCost source (y :: seen) entry → AreCosts source (y :: seen) rest entries →
      AreCosts source seen (y :: rest) (entry :: entries)

theorem AreCosts.nextEntries {source seen rest : List Char} {entries : List Nat} (x : Char)
    (h : AreCosts source seen rest entries) : ∀ {diagonal left : Nat},
      IsCost source seen diagonal → IsCost (x :: source) seen left →
        AreCosts (x :: source) seen rest (nextEntries x diagonal left rest entries) := by
  induction h with
  | nil seen =>
    intro diagonal left _ _
    exact .nil seen
  | cons hentry _ ih =>
    intro diagonal left hdiagonal hleft
    have hnext := hentry.cons_cons hleft hdiagonal
    exact .cons hnext (ih hentry hnext)

/-- The row of costs of a text, which stands in reverse. -/
inductive IsRow (source target : List Char) : List Nat → Prop where
  | mk {first : Nat} {entries : List Nat} : IsCost source [] first →
    AreCosts source [] target entries → IsRow source target (first :: entries)

theorem areCosts_range (seen rest : List Char) :
    AreCosts [] seen rest (List.range' (seen.length + 1) rest.length) := by
  induction rest generalizing seen with
  | nil => exact .nil seen
  | cons y rest ih =>
    rw [List.length_cons, List.range'_succ]
    exact .cons (isCost_nil_left (y :: seen)) (ih (y :: seen))

theorem isRow_firstRow (target : List Char) : IsRow [] target (firstRow target) := by
  rw [firstRow, List.range_eq_range', List.range'_succ]
  exact .mk (isCost_nil_left []) (areCosts_range [] target)

/-- A row leads to the next. -/
theorem IsRow.nextRow {source target : List Char} {row : List Nat} (x : Char)
    (h : IsRow source target row) : IsRow (x :: source) target (nextRow x target row) := by
  cases h with
  | @mk first entries hfirst hentries =>
    have hsource : first = source.length := hfirst.unique (isCost_nil_right source)
    have hnext : IsCost (x :: source) [] (first + 1) := by
      rw [hsource]
      exact isCost_nil_right (x :: source)
    exact .mk hnext (hentries.nextEntries x hfirst hnext)

/-- Reading a text leads to its row. -/
theorem IsRow.foldl {target : List Char} (source : List Char) : ∀ {seen : List Char}
    {row : List Nat}, IsRow seen target row →
      IsRow (source.reverse ++ seen) target
        (source.foldl (fun row x => Text.nextRow x target row) row) := by
  induction source with
  | nil =>
    intro seen row h
    exact h
  | cons x source ih =>
    intro seen row h
    rw [List.reverse_cons, List.append_assoc]
    exact ih (h.nextRow x)

theorem AreCosts.exists_getLast? {source seen rest : List Char} {entries : List Nat}
    (h : AreCosts source seen rest entries) : ∀ {first : Nat}, IsCost source seen first →
      ∃ last, (first :: entries).getLast? = some last ∧
        IsCost source (rest.reverse ++ seen) last := by
  induction h with
  | nil seen =>
    intro first hfirst
    exact ⟨first, rfl, hfirst⟩
  | cons hentry _ ih =>
    intro first _
    obtain ⟨last, hlast, hcost⟩ := ih hentry
    refine ⟨last, ?_, ?_⟩
    · rwa [List.getLast?_cons_cons]
    · rwa [List.reverse_cons, List.append_assoc]

theorem IsRow.exists_getLast? {source target : List Char} {row : List Nat}
    (h : IsRow source target row) :
    ∃ last, row.getLast? = some last ∧ IsCost source target.reverse last := by
  cases h with
  | mk hfirst hentries =>
    obtain ⟨last, hlast, hcost⟩ := hentries.exists_getLast? hfirst
    rw [List.append_nil] at hcost
    exact ⟨last, hlast, hcost⟩

/-- The last entry of the last row is a cost. -/
theorem isCost_editDistance (source target : List Char) :
    IsCost source.reverse target.reverse (editDistance source target) := by
  have hrow := (isRow_firstRow target).foldl source
  rw [List.append_nil] at hrow
  obtain ⟨last, hlast, hcost⟩ := hrow.exists_getLast?
  rw [editDistance, hlast]
  exact hcost

/-! ## The distance -/

/-- The distance is the length of a shortest chain of edits. -/
theorem editDistance_isLeast (a b : List Char) :
    IsLeast {n | Edits n a b} (editDistance a b) := by
  have hcost := isCost_editDistance a b
  constructor
  · have hedits := hcost.1.edits.reverse
    rwa [List.reverse_reverse, List.reverse_reverse] at hedits
  · intro n h
    obtain ⟨k, hk, haligned⟩ := Edits.exists_aligned (Edits.reverse h)
    exact (hcost.2 haligned).trans hk

theorem editDistance_comm (a b : List Char) : editDistance a b = editDistance b a := by
  have hba := editDistance_isLeast b a
  exact (editDistance_isLeast a b).unique ⟨hba.1.symm, fun _ h => hba.2 (Edits.symm h)⟩

theorem editDistance_eq_zero_iff : editDistance a b = 0 ↔ a = b := by
  have hleast := editDistance_isLeast a b
  constructor
  · intro h
    rw [h] at hleast
    exact edits_zero_iff.1 hleast.1
  · intro h
    exact Nat.le_zero.1 (hleast.2 (edits_zero_iff.2 h))

theorem editDistance_triangle (a b c : List Char) :
    editDistance a c ≤ editDistance a b + editDistance b c :=
  (editDistance_isLeast a c).2
    ((editDistance_isLeast a b).1.trans (editDistance_isLeast b c).1)

theorem editDistance_le_max (a b : List Char) : editDistance a b ≤ max a.length b.length := by
  obtain ⟨n, hn, h⟩ := Aligned.exists_le_max a b
  exact ((editDistance_isLeast a b).2 h.edits).trans hn

end SchemaPlan.Text
