import SchemaPlan.Proofs.Expression.FixedPoint
import SchemaPlan.Proofs.Expression.Qualifier

/-!
# Literals under a cast

A cast names a type: a simple name, a name of several words or a quoted name, maybe with modifiers
and array brackets behind it.  It is dropped as a whole.

* `afterCast?_castText`: a cast is read up to its end, modifiers and brackets included.
* `canonicalMasked_cast`: of a masked literal under a cast the marker is left.
* `Writes.maskFrom`: the masked text of a cast.
-/

set_option autoImplicit false

namespace SchemaPlan.Expression

open Text (isBlank isDecimalDigit span_append IsSettled)

variable {c : Char} {s rest : List Char}

/-! ## The parts of a cast -/

/-- The head of a type: a simple name, a name of several words, or the marker of a quoted name. -/
inductive IsHead : List Char → Prop where
  | name {name : List Char} (h : isSimpleName name = true) : IsHead name
  | words {name : List Char} (h : name ∈ longTypeNames) : IsHead name
  | marker (n : Nat) : IsHead (marker n)

/-- No modifiers, or one or two numbers in parentheses. -/
inductive IsModifiers : List Char → Prop where
  | none : IsModifiers []
  | one (n : Nat) : IsModifiers ('(' :: ((toString n).toList ++ [')']))
  | two (m n : Nat) :
    IsModifiers ('(' :: ((toString m).toList ++ ',' :: ((toString n).toList ++ [')'])))

/-- Pairs of array brackets. -/
def brackets (n : Nat) : List Char :=
  (List.replicate n "[]".toList).flatten

theorem brackets_succ (n : Nat) : brackets (n + 1) = '[' :: ']' :: brackets n := by
  rw [brackets, List.replicate_succ, List.flatten_cons, brackets]
  rfl

theorem brackets_concat (n : Nat) : brackets n ++ ['[', ']'] = brackets (n + 1) := by
  induction n with
  | zero => rfl
  | succ n ih =>
    rw [brackets_succ n, List.cons_append, List.cons_append, ih, brackets_succ (n + 1)]

theorem dropBrackets_brackets (n : Nat) : dropBrackets (brackets n) = [] := by
  induction n with
  | zero => rfl
  | succ n ih => rw [brackets_succ, dropBrackets, ih]

theorem head?_brackets {n : Nat} (h : c ∈ (brackets n).head?) : c = '[' := by
  cases n with
  | zero => cases h
  | succ n =>
    rw [brackets_succ] at h
    exact (Option.some.inj h).symm

/-- A character that may follow the head of a type. -/
def isTailChar (c : Char) : Bool :=
  c.isDigit || ['(', ')', ',', '[', ']'].contains c

theorem isTailChar_of_mem {modifiers : List Char} {n : Nat} (h : IsModifiers modifiers) :
    ∀ c ∈ modifiers ++ brackets n, isTailChar c = true := by
  have hnumber : ∀ n : Nat, ∀ c ∈ (toString n).toList, isTailChar c = true := by
    intro n c hc
    rw [isTailChar, Text.isDigit_of_mem_toString hc, Bool.true_or]
  have hbrackets : ∀ c ∈ brackets n, isTailChar c = true := by
    intro c hc
    obtain ⟨pair, hpair, hc⟩ := List.mem_flatten.1 hc
    rw [(List.mem_replicate.1 hpair).2] at hc
    have hall : ∀ c ∈ "[]".toList, isTailChar c = true := by decide
    exact hall c hc
  refine List.forall_mem_append.2 ⟨?_, hbrackets⟩
  cases h with
  | none => exact List.forall_mem_nil _
  | one n =>
    simp only [List.forall_mem_cons, List.forall_mem_append]
    exact ⟨by decide, hnumber n, by decide⟩
  | two m n =>
    simp only [List.forall_mem_cons, List.forall_mem_append]
    exact ⟨by decide, hnumber m, by decide, hnumber n, by decide⟩

theorem isTailChar_cases (h : isTailChar c = true) :
    isBlank c = false ∧ IsSettled c ∧ c ≠ '.' ∧ isQuote c = false := by
  rw [isTailChar, Bool.or_eq_true] at h
  rcases h with hdigit | hsign
  · have hlast := (Text.toNat_of_isDigit hdigit).2
    refine ⟨Text.isBlank_of_isDigit hdigit, isSettled_of_low (by omega), ?_, ?_⟩
    · rintro rfl
      exact absurd hdigit (by decide)
    · exact isQuote_of_isNameChar (by rw [isNameChar, hdigit, Bool.or_true])
  · have hall : ∀ c ∈ ['(', ')', ',', '[', ']'],
        isBlank c = false ∧ IsSettled c ∧ c ≠ '.' ∧ isQuote c = false := by
      decide
    exact hall c (List.contains_iff_mem.1 hsign)

/-- The tail of a type goes on with a parenthesis or with a bracket. -/
theorem head?_tail {modifiers : List Char} {n : Nat} (h : IsModifiers modifiers)
    (hc : c ∈ (modifiers ++ brackets n).head?) : c ∈ ['(', '['] := by
  cases h with
  | none => rw [head?_brackets hc]; decide
  | one n => rw [← Option.some.inj hc]; decide
  | two m n => rw [← Option.some.inj hc]; decide

theorem afterModifiers?_tail {modifiers : List Char} (h : IsModifiers modifiers) (n : Nat) :
    (afterModifiers? (modifiers ++ brackets n)).getD (modifiers ++ brackets n) = brackets n := by
  have hclose : ∀ r : List Char, ∀ c ∈ (')' :: r).head?, isDecimalDigit c = false := by
    intro r c hc
    rw [← Option.some.inj hc]
    decide
  cases h with
  | none =>
    cases n with
    | zero => rfl
    | succ n => rw [brackets_succ]; rfl
  | one k =>
    rw [List.cons_append, List.append_assoc, List.singleton_append, afterModifiers?,
      takeDigits?_toString k (hclose _)]
    rfl
  | two k m =>
    have hcomma : ∀ r : List Char, ∀ c ∈ (',' :: r).head?, isDecimalDigit c = false := by
      intro r c hc
      rw [← Option.some.inj hc]
      decide
    have hblanks : ∀ r : List Char,
        ((toString m).toList ++ r).dropWhile isBlank = (toString m).toList ++ r := by
      intro r
      cases hdigits : (toString m).toList with
      | nil => simp at hdigits
      | cons d digits =>
        have hd : d ∈ (toString m).toList := by rw [hdigits]; exact List.mem_cons_self
        exact List.dropWhile_cons_of_neg (by
          rw [Text.isBlank_of_isDigit (Text.isDigit_of_mem_toString hd)]
          exact Bool.false_ne_true)
    rw [List.cons_append, List.append_assoc, List.cons_append, List.append_assoc,
      List.singleton_append, afterModifiers?, takeDigits?_toString k (hcomma _)]
    simp only [hblanks, takeDigits?_toString m (hclose _)]
    rfl

theorem afterTypeName?_head {head tail : List Char} (h : IsHead head)
    (hstop : ∀ c ∈ tail.head?, c ∈ ['(', '[']) (hspace : ' ' ∉ tail) :
    afterTypeName? (head ++ tail) = some tail := by
  cases h with
  | @name head hsimple =>
    have hname := isNameChar_of_isSimpleName hsimple
    have hnospace : ' ' ∉ head ++ tail := by
      rw [List.mem_append, not_or]
      exact ⟨fun h => absurd (hname _ h) (by decide), hspace⟩
    have hwords : ∀ name ∈ longTypeNames, ' ' ∈ name := by decide
    rw [afterTypeName?_of_not_words fun name hlist r heq => hnospace (by simp [heq, hwords name hlist])]
    cases head with
    | nil => cases hsimple
    | cons c r =>
      have hstart : isNameStart c = true := (Bool.and_eq_true_iff.1 hsimple).1
      have hmark : c ≠ mark := by
        rintro rfl
        exact absurd hstart (by decide)
      have hsigns : ∀ d ∈ ['(', '['], isPathChar d = false := by decide
      have hrest : (r ++ tail).dropWhile isPathChar = tail :=
        (span_append (fun d hd => by
          rw [isPathChar, hname d (List.mem_cons_of_mem c hd), Bool.true_or])
          fun d hd => hsigns d (hstop d hd)).2
      rw [List.cons_append, takeMarker?, if_neg hmark, Option.none_or, takePath?, if_pos hstart,
        hrest]
      rfl
  | words hwords =>
    simp only [longTypeNames, List.mem_cons, List.not_mem_nil, or_false] at hwords
    rcases hwords with rfl | rfl | rfl | rfl | rfl | rfl <;> rfl
  | marker n => exact afterTypeName?_marker n tail

/-- A cast is read up to its end. -/
theorem afterCast?_castText {head modifiers : List Char} (hhead : IsHead head)
    (hmodifiers : IsModifiers modifiers) (n : Nat) :
    afterCast? (':' :: ':' :: (head ++ (modifiers ++ brackets n))) = some [] := by
  have hspace : ' ' ∉ modifiers ++ brackets n := by
    intro h
    exact absurd (isTailChar_of_mem hmodifiers _ h) (by decide)
  have hname := afterTypeName?_head hhead (fun c => head?_tail hmodifiers) hspace
  have hcolons : ∀ r, Text.after? [':', ':'] (':' :: ':' :: r) = some r := fun r => rfl
  rw [afterCast?, hcolons]
  simp only [hname, Option.map_some, afterModifiers?_tail hmodifiers n, dropBrackets_brackets]

/-! ## A literal under a cast -/

/-- What the passes before the casts see of the head of a type. -/
structure IsKept (head : List Char) : Prop where
  start : ∃ c r, head = c :: r ∧ isBlank c = false
  stop : ∀ c ∈ head.getLast?, isBlank c = false
  spaced : Text.collapse head = head
  settled : ∀ c ∈ head, IsSettled c
  noPoint : '.' ∉ head

theorem isKept_of_word {head : List Char} (hne : head ≠ [])
    (h : ∀ c ∈ head, isBlank c = false ∧ IsSettled c ∧ c ≠ '.') : IsKept head := by
  obtain ⟨c, r, rfl⟩ := List.exists_cons_of_ne_nil hne
  exact
    { start := ⟨c, r, rfl, (h c List.mem_cons_self).1⟩
      stop := fun d hd => (h d (List.mem_of_getLast? hd)).1
      spaced := Text.collapse_of_not_blank fun d hd => (h d hd).1
      settled := fun d hd => (h d hd).2.1
      noPoint := fun hd => (h '.' hd).2.2 rfl }

theorem isMarkerChar_cases (h : isMarkerChar c = true) :
    isBlank c = false ∧ IsSettled c ∧ c ≠ '.' := by
  refine ⟨isBlank_of_isMarkerChar h, isSettled_of_low (isMarkerChar_sign h), ?_⟩
  rintro rfl
  exact absurd h (by decide)

theorem IsHead.isKept {head : List Char} (h : IsHead head) : IsKept head := by
  cases h with
  | @name head hsimple =>
    refine isKept_of_word ?_ fun c hc => ?_
    · rintro rfl
      cases hsimple
    · have hname := isNameChar_of_isSimpleName hsimple c hc
      obtain ⟨hsettled, hblank⟩ := isNameChar_cases hname
      refine ⟨hblank, hsettled, ?_⟩
      rintro rfl
      exact absurd hname (by decide)
  | @words head hwords =>
    have hall : ∀ name ∈ longTypeNames, name.head?.any (fun c => !isBlank c) = true ∧
        name.getLast?.all (fun c => !isBlank c) = true ∧ Text.collapse name = name ∧
        (∀ c ∈ name, IsSettled c) ∧ '.' ∉ name := by
      decide +kernel
    obtain ⟨hstart, hstop, hspaced, hsettled, hpoint⟩ := hall head hwords
    refine ⟨?_, ?_, hspaced, hsettled, hpoint⟩
    · cases head with
      | nil => cases hstart
      | cons c r => exact ⟨c, r, rfl, by simpa using hstart⟩
    · intro c hc
      rw [Option.mem_def.1 hc] at hstop
      simpa using hstop
  | marker n =>
    refine isKept_of_word (List.cons_ne_nil _ _) fun c hc => ?_
    exact isMarkerChar_cases (isMarkerChar_of_mem_marker hc)

/-- The passes up to the casts keep a marker on its own. -/
theorem canonicalMasked_marker :
    canonicalMasked (marker 0) = marker 0 ∧
      stripOuter (tidy (dropParens (marker 0))) = marker 0 := by
  have hshaped : IsShaped (marker 0) :=
    { settled := by decide +kernel
      blanks := by decide
      commas := by
        show (marker 0).IsChain fun c d => c = ',' → d = ' '
        decide
      start := by decide
      stop := by decide
      bare := by decide }
  have hself : canonicalMasked (marker 0) = marker 0 :=
    canonicalMasked_eq_self hshaped (by decide)
  have hcasts : dropCasts (marker 0) = marker 0 := by
    have happend := dropCasts_append (s := marker 0) (r := []) (by decide)
    rwa [List.append_nil, dropCasts, List.append_nil] at happend
  refine ⟨hself, ?_⟩
  rw [canonicalMasked, Text.collapse_of_not_blank (by decide),
    Text.lowercase_of_settled hshaped.settled, dropPublicQualifier,
    dropPublicFrom_of_not_mem false (by decide), hcasts] at hself
  exact hself

/-- Of a masked literal under a cast the marker is left. -/
theorem canonicalMasked_cast {qualifier head modifiers : List Char}
    (hqualifier : qualifier ∈ [[], "public.".toList]) (hhead : IsHead head)
    (hmodifiers : IsModifiers modifiers) (n : Nat) :
    canonicalMasked (marker 0 ++ ':' :: ':' :: (qualifier ++ (head ++ (modifiers ++ brackets n)))) =
      marker 0 := by
  have htail := fun c hc => isTailChar_cases (isTailChar_of_mem hmodifiers (n := n) c hc)
  have hcast := afterCast?_castText hhead hmodifiers n
  have hkept := hhead.isKept
  generalize modifiers ++ brackets n = tail at htail hcast
  have hfront : ∀ c ∈ marker 0 ++ ':' :: ':' :: qualifier, isBlank c = false ∧ IsSettled c := by
    have hall : ∀ qualifier ∈ [[], "public.".toList],
        ∀ c ∈ marker 0 ++ ':' :: ':' :: qualifier, isBlank c = false ∧ IsSettled c := by
      decide +kernel
    exact hall qualifier hqualifier
  have htext : marker 0 ++ ':' :: ':' :: (qualifier ++ (head ++ tail)) =
      (marker 0 ++ ':' :: ':' :: qualifier) ++ (head ++ tail) := by
    simp
  have hcollapse : Text.collapse (marker 0 ++ ':' :: ':' :: (qualifier ++ (head ++ tail))) =
      marker 0 ++ ':' :: ':' :: (qualifier ++ (head ++ tail)) := by
    obtain ⟨d, r, hstart, hd⟩ := hkept.start
    have hword : Text.collapse (head ++ tail) = head ++ tail := by
      rw [Text.collapse_append (by rw [hstart]; exact List.cons_ne_nil d r) hkept.stop
        fun c hc => (htail c hc).1, hkept.spaced]
    rw [htext]
    conv_lhs => rw [hstart, List.cons_append]
    rw [Text.collapse_word_append (fun c hc => (hfront c hc).1) hd, ← List.cons_append, ← hstart,
      hword]
  have hlower : Text.lowercase (marker 0 ++ ':' :: ':' :: (qualifier ++ (head ++ tail))) =
      marker 0 ++ ':' :: ':' :: (qualifier ++ (head ++ tail)) := by
    apply Text.lowercase_of_settled
    rw [htext]
    refine List.forall_mem_append.2 ⟨?_, List.forall_mem_append.2 ?_⟩
    · exact fun c hc => (hfront c hc).2
    · exact ⟨hkept.settled, fun c hc => (htail c hc).2.1⟩
  have hpublic : dropPublicQualifier (marker 0 ++ ':' :: ':' :: (qualifier ++ (head ++ tail))) =
      marker 0 ++ ':' :: ':' :: (head ++ tail) := by
    have hpoint : '.' ∉ head ++ tail := by
      rw [List.mem_append, not_or]
      exact ⟨hkept.noPoint, fun h => (htail '.' h).2.2.1 rfl⟩
    have htype : dropPublicFrom 0 false (qualifier ++ (head ++ tail)) = head ++ tail := by
      simp only [List.mem_cons, List.not_mem_nil, or_false] at hqualifier
      rcases hqualifier with rfl | rfl
      · exact dropPublicFrom_of_not_mem false hpoint
      · rw [dropPublicFrom_public, dropPublicFrom_of_not_mem false hpoint]
    have hcolon : Text.isWordChar ':' = false := by decide
    rw [dropPublicQualifier, List.append_cons, dropPublicFrom_append_cons (by decide), hcolon, htype,
      dropPublicFrom_of_not_mem false (by decide), ← List.append_cons]
  have hcasts : dropCasts (marker 0 ++ ':' :: ':' :: (head ++ tail)) = marker 0 := by
    rw [dropCasts_append (by decide), dropCasts]
    split
    · rename_i rest hrest
      rw [hcast] at hrest
      rw [← Option.some.inj hrest, dropCasts, List.append_nil]
    · rename_i hnone
      rw [hcast] at hnone
      cases hnone
  rw [canonicalMasked, hcollapse, hlower, hpublic, hcasts]
  exact canonicalMasked_marker.2

/-! ## Reading a cast -/

open Text (enclose) in
theorem lexemes_enclose {q : Char} (hq : isQuote q = true) (x : List Char)
    (hrest : rest.head? ≠ some q) :
    lexemes (enclose q x ++ rest) = .quoted (enclose q x) :: lexemes rest := by
  have htext : enclose q x ++ rest = q :: (Text.double q x ++ q :: rest) := by
    rw [enclose, List.cons_append, List.append_assoc, List.singleton_append]
  rw [htext, lexemes_quote hq, takeQuoted_double_append, takeQuoted_end hrest]
  rfl

/-- How the head of a type is written. -/
inductive Writes : List Char → List Char → Prop where
  | plain {head : List Char} (h : IsHead head) (hquote : ∀ c ∈ head, isQuote c = false) :
    Writes head head
  | quoted (name : List Char) : Writes (Text.enclose '"' name) (marker 1)

theorem Writes.isHead {written head : List Char} (h : Writes written head) : IsHead head := by
  cases h with
  | plain h _ => exact h
  | quoted name => exact .marker 1

/-- The masked text of a cast. -/
theorem Writes.maskFrom {qualifier written head tail : List Char} (h : Writes written head)
    (hqualifier : qualifier ∈ [[], "public.".toList]) (htail : ∀ c ∈ tail, isQuote c = false) :
    maskFrom 1 (lexemes (qualifier ++ (written ++ tail))) = qualifier ++ (head ++ tail) := by
  have hquote : ∀ c ∈ qualifier, isQuote c = false := by
    have hall : ∀ qualifier ∈ [[], "public.".toList], ∀ c ∈ qualifier, isQuote c = false := by
      decide
    exact hall qualifier hqualifier
  have hrest : ∀ n, Expression.maskFrom n (lexemes tail) = tail := by
    intro n
    have hchars := lexemes_append_chars htail []
    rw [List.append_nil, lexemes_nil] at hchars
    rw [hchars, maskFrom_append_chars]
    exact List.append_nil tail
  rw [lexemes_append_chars hquote, maskFrom_append_chars]
  cases h with
  | plain hhead hwritten => rw [lexemes_append_chars hwritten, maskFrom_append_chars, hrest]
  | quoted name =>
    have hend : tail.head? ≠ some '"' := by
      intro hhead
      exact absurd (htail '"' (List.mem_of_head? hhead)) (by decide)
    rw [lexemes_enclose rfl name hend, Expression.maskFrom, hrest]

end SchemaPlan.Expression
