/-!
# Cutting and replacing text

Text is cut at a character, at the first occurrence of a character, or behind a given start.

* `pieces c s` lists what stands between the occurrences of `c`,
* `cut? c s` splits at the first `c`,
* `after? p s` is the rest of `s` behind `p`, when `s` starts with `p`,
* `replaceAll old new s` replaces the occurrences of `old` from left to right.
-/

set_option autoImplicit false

namespace SchemaPlan.Text

/-- What stands between the occurrences of `c`; one piece more than there are occurrences. -/
def pieces (c : Char) : List Char → List (List Char)
  | [] => [[]]
  | x :: r =>
    if x = c then [] :: pieces c r
    else match pieces c r with
      | p :: ps => (x :: p) :: ps
      | [] => [[x]]

/-- What stands before and behind the first `c`. -/
def cut? (c : Char) : List Char → Option (List Char × List Char)
  | [] => none
  | x :: r =>
    if x = c then some ([], r)
    else (cut? c r).map fun parts => (x :: parts.1, parts.2)

/-- The rest of the second text behind the first, when it starts with it. -/
def after? : List Char → List Char → Option (List Char)
  | [], s => some s
  | p :: ps, x :: s => if p = x then after? ps s else none
  | _ :: _, [] => none

/-- The part of the second text before the first, when it ends with it. -/
def before? (ending s : List Char) : Option (List Char) :=
  (after? ending.reverse s.reverse).map List.reverse

/-- Replaces `old` in the text behind the next `skip` characters, which are dropped. -/
def replaceFrom (old new : List Char) : Nat → List Char → List Char
  | _, [] => []
  | skip + 1, _ :: r => replaceFrom old new skip r
  | 0, x :: r =>
    match after? old (x :: r) with
    | some _ => new ++ replaceFrom old new (old.length - 1) r
    | none => x :: replaceFrom old new 0 r

/-- Replaces the occurrences of `old`, which must not be empty, from left to right; a replaced
occurrence is not read again. -/
def replaceAll (old new s : List Char) : List Char :=
  replaceFrom old new 0 s

/-- Whether `part` occurs in the text. -/
def occursIn (part : List Char) : List Char → Bool
  | [] => part.isEmpty
  | x :: r => (after? part (x :: r)).isSome || occursIn part r

/-- What stands before and behind the first occurrence of a text. -/
def cutAt? (sep : List Char) : List Char → Option (List Char × List Char)
  | [] => (after? sep []).map fun rest => ([], rest)
  | x :: r =>
    match after? sep (x :: r) with
    | some rest => some ([], rest)
    | none => (cutAt? sep r).map fun parts => (x :: parts.1, parts.2)

/-- Strings joined with a separator. -/
def join (sep : String) (parts : List String) : String :=
  sep.intercalate parts

theorem pieces_ne_nil (c : Char) (s : List Char) : pieces c s ≠ [] := by
  fun_induction pieces c s <;> simp

theorem pieces_of_not_mem {c : Char} {s : List Char} (h : c ∉ s) : pieces c s = [s] := by
  induction s with
  | nil => rfl
  | cons x r ih =>
    have hx : x ≠ c := fun heq => h (heq ▸ List.mem_cons_self)
    rw [pieces, if_neg hx, ih fun hr => h (List.mem_cons_of_mem x hr)]

/-- The first piece stands before the first occurrence. -/
theorem pieces_append {c : Char} {a : List Char} (h : c ∉ a) (b : List Char) :
    pieces c (a ++ c :: b) = a :: pieces c b := by
  induction a with
  | nil => rw [List.nil_append, pieces, if_pos rfl]
  | cons x r ih =>
    have hx : x ≠ c := fun heq => h (heq ▸ List.mem_cons_self)
    rw [List.cons_append, pieces, if_neg hx, ih fun hr => h (List.mem_cons_of_mem x hr)]

theorem after?_eq_some_iff {p s rest : List Char} : after? p s = some rest ↔ s = p ++ rest := by
  fun_induction after? p s with
  | case1 s => simp [eq_comm]
  | case2 p ps s ih => simpa using ih
  | case3 p ps x s hne => simp; intro h; exact absurd h.symm hne
  | case4 p ps => simp

theorem after?_eq_none_iff {p s : List Char} : after? p s = none ↔ ∀ rest, s ≠ p ++ rest := by
  simp only [Option.eq_none_iff_forall_ne_some, ne_eq, after?_eq_some_iff]

theorem before?_eq_some_iff {ending s rest : List Char} :
    before? ending s = some rest ↔ s = rest ++ ending := by
  simp only [before?, Option.map_eq_some_iff, after?_eq_some_iff]
  constructor
  · rintro ⟨a, ha, rfl⟩
    simpa using congrArg List.reverse ha
  · rintro rfl
    exact ⟨rest.reverse, by simp, by simp⟩

theorem before?_eq_none_iff {ending s : List Char} :
    before? ending s = none ↔ ∀ rest, s ≠ rest ++ ending := by
  simp only [Option.eq_none_iff_forall_ne_some, ne_eq, before?_eq_some_iff]

theorem cut?_append {c : Char} {a : List Char} (h : c ∉ a) (b : List Char) :
    cut? c (a ++ c :: b) = some (a, b) := by
  induction a with
  | nil => simp [cut?]
  | cons x a ih =>
    have hx : x ≠ c := fun heq => h (heq ▸ List.mem_cons_self)
    simp [cut?, hx, ih fun ha => h (List.mem_cons_of_mem x ha)]

theorem exists_cut? {c : Char} {s : List Char} (h : c ∈ s) : ∃ parts, cut? c s = some parts := by
  obtain ⟨a, b, rfl, hfirst⟩ := List.eq_append_cons_of_mem h
  exact ⟨(a, b), cut?_append hfirst b⟩

end SchemaPlan.Text
