import SchemaPlan.Proofs.Expression.Relexing
import SchemaPlan.Proofs.Expression.Spacing

/-!
# Outlines

The passes that space a text and drop the parentheses around it look at parentheses, commas and
spaces, and at nothing else.  Two texts with the same outline agree on these; between them stand
words that may differ.  A text and what is read again from it have the same outline, although their
markers are numbered differently.

* `Joins.sameOutline`: the masked text and the one of what is read again.
* `SameOutline.head?_iff`, `SameOutline.getLast?_iff`, `SameOutline.isChain`,
  `SameOutline.enclosed?_eq_none`: what carries over.
-/

set_option autoImplicit false

namespace SchemaPlan.Expression

/-- A character that spacing and the parentheses around a text depend on. -/
def isPunctuation (c : Char) : Bool :=
  c == '(' || c == ')' || c == ',' || c == ' '

/-- Texts with the same punctuation, and with a word in the one wherever there is one in the
other. -/
inductive SameOutline : List Char → List Char → Prop where
  | nil : SameOutline [] []
  | char (c : Char) {s t : List Char} (h : SameOutline s t) : SameOutline (c :: s) (c :: t)
  | word {u v s t : List Char} (hu : u ≠ []) (hv : v ≠ [])
    (hufree : ∀ c ∈ u, isPunctuation c = false) (hvfree : ∀ c ∈ v, isPunctuation c = false)
    (h : SameOutline s t) : SameOutline (u ++ s) (v ++ t)
  | longer {u s t : List Char} (hufree : ∀ c ∈ u, isPunctuation c = false) (ht : t ≠ [])
    (htfree : ∀ c ∈ t.head?, isPunctuation c = false) (h : SameOutline s t) :
    SameOutline (u ++ s) t

namespace SameOutline

variable {s t : List Char} {c : Char}

theorem eq_nil_iff (h : SameOutline s t) : s = [] ↔ t = [] := by
  induction h with
  | nil => exact Iff.rfl
  | char => simp
  | word hu hv => simp [hu, hv]
  | longer _ ht _ _ ih => simp [ht, mt ih.1 ht]

theorem head?_append_free {u : List Char} (hu : u ≠ [])
    (hufree : ∀ c ∈ u, isPunctuation c = false) (hc : isPunctuation c = true) (s : List Char) :
    (u ++ s).head? ≠ some c := by
  obtain ⟨d, u, rfl⟩ := List.exists_cons_of_ne_nil hu
  intro h
  obtain rfl := Option.some.inj h
  rw [hufree d List.mem_cons_self] at hc
  cases hc

/-- Both texts start with the same punctuation. -/
theorem head?_iff (h : SameOutline s t) (hc : isPunctuation c = true) :
    s.head? = some c ↔ t.head? = some c := by
  induction h with
  | nil => exact Iff.rfl
  | char d => exact Iff.rfl
  | word hu hv hufree hvfree =>
    exact iff_of_false (head?_append_free hu hufree hc _) (head?_append_free hv hvfree hc _)
  | @longer u s t hufree ht htfree _ ih =>
    cases u with
    | nil => exact ih
    | cons d u =>
      refine iff_of_false (head?_append_free (List.cons_ne_nil d u) hufree hc _) fun hhead => ?_
      rw [htfree c hhead] at hc
      cases hc

theorem getLast?_free {u : List Char} (hufree : ∀ c ∈ u, isPunctuation c = false)
    (hc : isPunctuation c = true) : u.getLast? ≠ some c := by
  intro h
  rw [hufree c (List.mem_of_getLast? h)] at hc
  cases hc

/-- Both texts end in the same punctuation. -/
theorem getLast?_iff (h : SameOutline s t) (hc : isPunctuation c = true) :
    s.getLast? = some c ↔ t.getLast? = some c := by
  induction h with
  | nil => exact Iff.rfl
  | @char d s t h ih =>
    by_cases hs : s = []
    · rw [hs, h.eq_nil_iff.1 hs]
    · have ht : t ≠ [] := mt h.eq_nil_iff.2 hs
      rw [← List.singleton_append, ← List.singleton_append (l := t),
        List.getLast?_append_of_ne_nil _ hs, List.getLast?_append_of_ne_nil _ ht]
      exact ih
  | @word u v s t hu hv hufree hvfree h ih =>
    by_cases hs : s = []
    · rw [hs, h.eq_nil_iff.1 hs, List.append_nil, List.append_nil]
      exact iff_of_false (getLast?_free hufree hc) (getLast?_free hvfree hc)
    · have ht : t ≠ [] := mt h.eq_nil_iff.2 hs
      rw [List.getLast?_append_of_ne_nil _ hs, List.getLast?_append_of_ne_nil _ ht]
      exact ih
  | @longer u s t hufree ht htfree h ih =>
    rw [List.getLast?_append_of_ne_nil _ (mt h.eq_nil_iff.1 ht)]
    exact ih

theorem isChain_append_free {u : List Char} (hufree : ∀ c ∈ u, isPunctuation c = false)
    (hs : s.IsChain Spaced) : (u ++ s).IsChain Spaced := by
  induction u with
  | nil => exact hs
  | cons d u ih =>
    obtain ⟨hd, hrest⟩ := List.forall_mem_cons.1 hufree
    refine List.isChain_cons.2 ⟨?_, ih hrest⟩
    rintro _ _ rfl
    cases hd

/-- Regular commas carry over. -/
theorem isChain (h : SameOutline s t) (hs : s.IsChain Spaced) : t.IsChain Spaced := by
  induction h with
  | nil => exact hs
  | @char d s t h ih =>
    obtain ⟨hd, hrest⟩ := List.isChain_cons.1 hs
    refine List.isChain_cons.2 ⟨?_, ih hrest⟩
    intro e he hcomma
    cases s with
    | nil =>
      rw [h.eq_nil_iff.1 rfl] at he
      cases he
    | cons x s =>
      have hx : x = ' ' := hd x rfl hcomma
      have hhead := (h.head?_iff (c := ' ') rfl).1 (by rw [hx]; rfl)
      rw [hhead] at he
      exact (Option.some.inj he).symm
  | word hu hv hufree hvfree h ih => exact isChain_append_free hvfree (ih hs.right_of_append)
  | longer hufree ht htfree h ih => exact ih hs.right_of_append

theorem enclosesFrom_append_free {u : List Char} (hufree : ∀ c ∈ u, isPunctuation c = false)
    (depth : Nat) (s : List Char) : enclosesFrom depth (u ++ s) = enclosesFrom depth s := by
  induction u with
  | nil => rfl
  | cons d u ih =>
    obtain ⟨hd, hrest⟩ := List.forall_mem_cons.1 hufree
    have hopen : d ≠ '(' := by
      rintro rfl
      cases hd
    have hclose : d ≠ ')' := by
      rintro rfl
      cases hd
    rw [List.cons_append, enclosesFrom, if_neg hopen, if_neg hclose, ih hrest]

theorem enclosesFrom_eq (h : SameOutline s t) (depth : Nat) :
    enclosesFrom depth s = enclosesFrom depth t := by
  induction h generalizing depth with
  | nil => rfl
  | @char d s t h ih =>
    have hempty : s.isEmpty = t.isEmpty := by
      rw [Bool.eq_iff_iff, List.isEmpty_iff, List.isEmpty_iff, h.eq_nil_iff]
    rw [enclosesFrom, enclosesFrom, ih, ih, ih, hempty]
  | word hu hv hufree hvfree h ih =>
    rw [enclosesFrom_append_free hufree, enclosesFrom_append_free hvfree, ih]
  | longer hufree ht htfree h ih => rw [enclosesFrom_append_free hufree, ih]

end SameOutline

theorem enclosed?_eq_none_iff {s : List Char} : enclosed? s = none ↔
    ¬ (s.head? = some '(' ∧ s.getLast? = some ')' ∧ enclosesFrom 0 s = true) := by
  unfold enclosed?
  split
  · rename_i r
    cases r with
    | nil => simp
    | cons d r => simp
  · rename_i hopen
    refine iff_of_true rfl fun h => ?_
    obtain ⟨r, rfl⟩ := List.head?_eq_some_iff.1 h.1
    exact hopen r rfl

/-- A text that is not enclosed as a whole has no other outline than such texts. -/
theorem SameOutline.enclosed?_eq_none {s t : List Char} (h : SameOutline s t)
    (hs : enclosed? s = none) : enclosed? t = none := by
  rw [enclosed?_eq_none_iff] at hs ⊢
  rwa [← h.head?_iff rfl, ← h.getLast?_iff rfl, ← h.enclosesFrom_eq]

/-! ## Markers and names -/

theorem isPunctuation_marker (n : Nat) : ∀ c ∈ marker n, isPunctuation c = false := by
  intro c hc
  have hmarker := isMarkerChar_of_mem_marker hc
  rw [Bool.eq_false_iff]
  intro hpunctuation
  simp only [isPunctuation, Bool.or_eq_true, beq_iff_eq] at hpunctuation
  rcases hpunctuation with ((rfl | rfl) | rfl) | rfl <;> exact absurd hmarker (by decide)

theorem isPunctuation_of_isNameChar {c : Char} (h : isNameChar c = true) :
    isPunctuation c = false := by
  rw [Bool.eq_false_iff]
  intro hpunctuation
  simp only [isPunctuation, Bool.or_eq_true, beq_iff_eq] at hpunctuation
  rcases hpunctuation with ((rfl | rfl) | rfl) | rfl <;> exact absurd h (by decide)

theorem maskFrom_append_chars (n : Nat) (s : List Char) (lexemes : List Lexeme) :
    maskFrom n (s.map .char ++ lexemes) = s ++ maskFrom n lexemes := by
  induction s with
  | nil => rfl
  | cons c s ih => exact congrArg (c :: ·) ih

/-- Masked text has the outline of the masked text that is read again from it. -/
theorem Joins.sameOutline {symbols : List Symbol} {lexemes : List Lexeme}
    (h : Joins symbols lexemes) (n : Nat) : SameOutline (render symbols) (maskFrom n lexemes) := by
  have hmarker : ∀ n : Nat, marker n ≠ [] := fun n => List.cons_ne_nil _ _
  induction h generalizing n with
  | nil => exact .nil
  | char _ ih => exact .char _ (ih n)
  | @name k name _ _ hname _ ih =>
    have hne : name ≠ [] := by
      rintro rfl
      cases hname
    rw [render_cons, Symbol.text, maskFrom_append_chars]
    exact .word (hmarker k) hne (isPunctuation_marker k)
      (fun c hc => isPunctuation_of_isNameChar (isNameChar_of_isSimpleName hname c hc)) (ih n)
  | @quoted k _ _ _ _ _ ih =>
    rw [render_cons, Symbol.text, maskFrom]
    exact .word (hmarker k) (hmarker n) (isPunctuation_marker k) (isPunctuation_marker n)
      (ih (n + 1))
  | @join k _ _ _ _ _ _ ih =>
    rw [render_cons, Symbol.text, maskFrom]
    refine .longer (isPunctuation_marker k) (by simp [hmarker]) ?_ (ih n)
    intro c hc
    obtain rfl := Option.some.inj hc
    decide

end SchemaPlan.Expression
