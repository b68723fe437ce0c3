import SchemaPlan.Proofs.Expression.Symbol

/-!
# Reading tokens again

A canonical form is written with the tokens of the text it comes from, so it splits into the same
tokens, apart from two changes: a simple name without its quotes is a run of characters, and a token
that comes to stand behind another with the same quotes is read as one token with it.

* `takeQuoted_cases`: a token is closed or runs to the end of the text.
* `IsSound`: what the passes keep of masked text.
* `joins_lexemes`: how the text of symbols splits into lexemes.
* `Joins.kept`: a token of such a text does not lose its quotes any more.
-/

set_option autoImplicit false

namespace SchemaPlan.Expression

open Text (double enclose Rewrites)

/-! ## Quotes -/

section Quotes

variable {q c : Char} {x r : List Char}

theorem takeQuoted_cons (h : c ≠ q) (r : List Char) :
    takeQuoted q (c :: r) = (c :: (takeQuoted q r).1, (takeQuoted q r).2) := by
  cases r with
  | nil => rfl
  | cons d r => rw [takeQuoted, if_neg h]

theorem takeQuoted_pair (q : Char) (r : List Char) :
    takeQuoted q (q :: q :: r) = (q :: q :: (takeQuoted q r).1, (takeQuoted q r).2) := by
  rw [takeQuoted, if_pos rfl, if_pos rfl]

theorem takeQuoted_end (h : r.head? ≠ some q) : takeQuoted q (q :: r) = ([q], r) := by
  cases r with
  | nil => rfl
  | cons d r =>
    have hd : d ≠ q := fun heq => h (by rw [heq]; rfl)
    rw [takeQuoted, if_pos rfl, if_neg hd]

/-- Doubled quotes belong to the token. -/
theorem takeQuoted_double_append (q : Char) (x r : List Char) :
    takeQuoted q (double q x ++ r) =
      (double q x ++ (takeQuoted q r).1, (takeQuoted q r).2) := by
  induction x with
  | nil => rfl
  | cons c x ih =>
    rw [double]
    split
    · rename_i hc
      rw [List.cons_append, List.cons_append, takeQuoted_pair, ih]
      rfl
    · rename_i hc
      rw [List.cons_append, takeQuoted_cons hc, ih]
      rfl

/-- A token is closed by a single quote, or it runs to the end of the text. -/
theorem takeQuoted_cases (q : Char) (s : List Char) :
    (∃ x, (takeQuoted q s).1 = double q x ++ [q]) ∨
      (takeQuoted q s).2 = [] ∧ ∃ x, (takeQuoted q s).1 = double q x := by
  have hcons : ∀ {c : Char} {t : List Char} {rest : List Char}, c ≠ q →
      ((∃ x, t = double q x ++ [q]) ∨ rest = [] ∧ ∃ x, t = double q x) →
        (∃ x, c :: t = double q x ++ [q]) ∨ rest = [] ∧ ∃ x, c :: t = double q x := by
    rintro c t rest hc (⟨x, rfl⟩ | ⟨hrest, x, rfl⟩)
    · exact .inl ⟨c :: x, by rw [double, if_neg hc]; rfl⟩
    · exact .inr ⟨hrest, c :: x, by rw [double, if_neg hc]⟩
  fun_induction takeQuoted q s with
  | case1 => exact .inr ⟨rfl, [], rfl⟩
  | case2 c =>
    by_cases hc : c = q
    · exact .inl ⟨[], by rw [hc]; rfl⟩
    · exact hcons hc (.inr ⟨rfl, [], rfl⟩)
  | case3 r token rest htake ih =>
    rw [htake] at ih
    rcases ih with ⟨x, hx⟩ | ⟨hrest, x, hx⟩
    · exact .inl ⟨q :: x, by simp [double, ← hx]⟩
    · exact .inr ⟨hrest, q :: x, by simp [double, ← hx]⟩
  | case4 d r hd => exact .inl ⟨[], rfl⟩
  | case5 c d r hc token rest htake ih =>
    rw [htake] at ih
    exact hcons hc ih

end Quotes

/-! ## Tokens -/

/-- A token with its closing quote. -/
def IsClosed (token : List Char) : Prop :=
  ∃ q x, isQuote q = true ∧ token = enclose q x

/-- A token that runs to the end of its text. -/
def IsOpen (token : List Char) : Prop :=
  ∃ q x, isQuote q = true ∧ token = q :: double q x

theorem lexemes_nil : lexemes [] = [] := by
  rw [lexemes]

theorem lexemes_char {c : Char} (h : isQuote c = false) (r : List Char) :
    lexemes (c :: r) = .char c :: lexemes r := by
  rw [lexemes, if_neg (by simp [h])]

theorem lexemes_quote {q : Char} (h : isQuote q = true) (r : List Char) :
    lexemes (q :: r) = .quoted (q :: (takeQuoted q r).1) :: lexemes (takeQuoted q r).2 := by
  rw [lexemes, if_pos h]

theorem lexemes_append_chars {s : List Char} (h : ∀ c ∈ s, isQuote c = false) (r : List Char) :
    lexemes (s ++ r) = s.map .char ++ lexemes r := by
  induction s with
  | nil => rfl
  | cons c s ih =>
    obtain ⟨hc, hs⟩ := List.forall_mem_cons.1 h
    rw [List.cons_append, lexemes_char hc, ih hs]
    rfl

/-! ## Symbols of masked text -/

/-- Masked text of a list of tokens: no mark stands outside markers, every marker belongs to a
token, and nothing stands behind a token that runs to the end. -/
inductive IsSound (tokens : List (List Char)) : List Symbol → Prop where
  | nil : IsSound tokens []
  | char {c : Char} {symbols : List Symbol} (hc : c ≠ mark) (h : IsSound tokens symbols) :
    IsSound tokens (.char c :: symbols)
  | token {n : Nat} {token : List Char} {symbols : List Symbol} (hn : tokens[n]? = some token)
    (htoken : IsClosed token) (h : IsSound tokens symbols) :
    IsSound tokens (.token n :: symbols)
  | last {n : Nat} {token : List Char} (hn : tokens[n]? = some token) (htoken : IsOpen token) :
    IsSound tokens [.token n]

namespace IsSound

variable {tokens : List (List Char)} {symbols symbols' : List Symbol}

theorem clean (h : IsSound tokens symbols) : .char mark ∉ symbols := by
  induction h with
  | nil => exact List.not_mem_nil
  | char hc _ ih =>
    rw [List.mem_cons, Symbol.char.injEq, not_or]
    exact ⟨Ne.symm hc, ih⟩
  | token _ _ _ ih => simpa using ih
  | last => simp

theorem known (h : IsSound tokens symbols) {n : Nat} (hn : .token n ∈ symbols) :
    ∃ token, tokens[n]? = some token ∧ (IsClosed token ∨ IsOpen token) := by
  induction h with
  | nil => cases hn
  | char _ _ ih => exact ih (by simpa using hn)
  | token hk htoken _ ih =>
    rcases List.mem_cons.1 hn with heq | hn
    · obtain rfl := Symbol.token.inj heq
      exact ⟨_, hk, .inl htoken⟩
    · exact ih hn
  | last hk htoken =>
    obtain rfl := Symbol.token.inj (List.mem_singleton.1 hn)
    exact ⟨_, hk, .inr htoken⟩

theorem sublist (h : IsSound tokens symbols) (hsub : symbols'.Sublist symbols) :
    IsSound tokens symbols' := by
  induction h generalizing symbols' with
  | nil =>
    rw [List.sublist_nil.1 hsub]
    exact .nil
  | char hc _ ih =>
    cases hsub with
    | cons _ hsub => exact ih hsub
    | cons_cons _ hsub => exact .char hc (ih hsub)
  | token hn htoken _ ih =>
    cases hsub with
    | cons _ hsub => exact ih hsub
    | cons_cons _ hsub => exact .token hn htoken (ih hsub)
  | last hn htoken =>
    cases hsub with
    | cons _ hsub =>
      rw [List.sublist_nil.1 hsub]
      exact .nil
    | cons_cons _ hsub =>
      rw [List.sublist_nil.1 hsub]
      exact .last hn htoken

theorem chars_append {cs : List Char} (hcs : mark ∉ cs) (h : IsSound tokens symbols) :
    IsSound tokens (cs.map .char ++ symbols) := by
  induction cs with
  | nil => exact h
  | cons c cs ih =>
    rw [List.mem_cons, not_or] at hcs
    exact .char (Ne.symm hcs.1) (ih hcs.2)

/-- Passes over the characters that bring in no mark keep masked text sound. -/
theorem rewrites {R : Char → List Char → Prop} (hR : ∀ c cs, R c cs → c ≠ mark → mark ∉ cs)
    (h : IsSound tokens symbols) (hsymbols : Rewrites (OnSymbols R) symbols symbols') :
    IsSound tokens symbols' := by
  induction h generalizing symbols' with
  | nil =>
    cases hsymbols
    exact .nil
  | char hc _ ih =>
    cases hsymbols with
    | cons hx hrest =>
      cases hx with
      | char hcs => exact chars_append (hR _ _ hcs hc) (ih hrest)
  | token hn htoken _ ih =>
    cases hsymbols with
    | cons hx hrest =>
      cases hx
      exact .token hn htoken (ih hrest)
  | last hn htoken =>
    cases hsymbols with
    | cons hx hrest =>
      cases hx
      cases hrest
      exact .last hn htoken

end IsSound

/-- The symbols of a text are sound when no mark stands outside its tokens. -/
theorem isSound_number {s : List Char} (h : .char mark ∉ lexemes s) :
    IsSound (tokens (lexemes s)) (number 0 (lexemes s)) := by
  suffices hgeneral : ∀ before : List (List Char),
      IsSound (before ++ tokens (lexemes s)) (number before.length (lexemes s)) from hgeneral []
  have hfirst : ∀ (before : List (List Char)) (token : List Char) (r : List Lexeme),
      (before ++ tokens (.quoted token :: r))[before.length]? = some token := by
    intro before token r
    rw [List.getElem?_append_right (Nat.le_refl _), Nat.sub_self]
    rfl
  fun_induction lexemes s with
  | case1 => exact fun _ => .nil
  | case2 q r hq ih =>
    intro before
    have hrest := ih (fun hmark => h (List.mem_cons_of_mem _ hmark))
      (before ++ [q :: (takeQuoted q r).1])
    rw [List.length_append, List.length_singleton, List.append_assoc] at hrest
    rcases takeQuoted_cases q r with ⟨x, hx⟩ | ⟨hend, x, hx⟩
    · exact .token (hfirst _ _ _) ⟨q, x, hq, by rw [hx]; rfl⟩ hrest
    · rw [hend, lexemes_nil]
      exact .last (hfirst _ _ _) ⟨q, x, hq, by rw [hx]⟩
  | case3 c r hc ih =>
    intro before
    rw [List.mem_cons, Lexeme.char.injEq, not_or] at h
    exact .char (Ne.symm h.1) (ih h.2 before)

/-! ## The lexemes of a canonical form -/

/-- Whether the characters may stand in a simple name. -/
theorem isNameChar_of_isSimpleName {name : List Char} (h : isSimpleName name = true) :
    ∀ c ∈ name, isNameChar c = true := by
  cases name with
  | nil => cases h
  | cons c r =>
    rw [isSimpleName, Bool.and_eq_true, List.all_eq_true] at h
    exact List.forall_mem_cons.2 ⟨by rw [isNameChar, h.1, Bool.true_or], h.2⟩

/-- A token loses its quotes only when a simple name stands in them. -/
theorem unquoteName_cases (token : List Char) :
    unquoteName token = token ∨ isSimpleName (unquoteName token) = true := by
  unfold unquoteName
  split
  · split
    · split
      · rename_i hname
        exact .inr hname
      · exact .inl rfl
    · exact .inl rfl
  · exact .inl rfl

/-- How the text of symbols splits into lexemes: a simple name is read as characters, and tokens
with the same quotes that follow each other are read as one. -/
inductive Joins : List Symbol → List Lexeme → Prop where
  | nil : Joins [] []
  | char {c : Char} {symbols : List Symbol} {lexemes : List Lexeme}
    (h : Joins symbols lexemes) : Joins (.char c :: symbols) (.char c :: lexemes)
  | name {n : Nat} {name : List Char} {symbols : List Symbol} {lexemes : List Lexeme}
    (hname : isSimpleName name = true) (h : Joins symbols lexemes) :
    Joins (.token n :: symbols) (name.map .char ++ lexemes)
  | quoted {n : Nat} {token : List Char} {symbols : List Symbol} {lexemes : List Lexeme}
    (hkept : unquoteName token = token) (h : Joins symbols lexemes) :
    Joins (.token n :: symbols) (.quoted token :: lexemes)
  | join {n : Nat} {token next : List Char} {symbols : List Symbol} {lexemes : List Lexeme}
    (hkept : unquoteName (token ++ next) = token ++ next)
    (h : Joins symbols (.quoted next :: lexemes)) :
    Joins (.token n :: symbols) (.quoted (token ++ next) :: lexemes)

/-- Quotes between quotes stay: they are no part of a simple name. -/
theorem unquoteName_enclose_append (q : Char) (x y : List Char) :
    unquoteName (enclose q x ++ q :: y) = enclose q x ++ q :: y := by
  have htext : enclose q x ++ q :: y = q :: (double q x ++ q :: q :: y) := by
    rw [enclose, List.cons_append, List.append_assoc, List.singleton_append]
  rw [htext]
  unfold unquoteName
  split
  · rename_i r hr
    rw [List.cons.injEq] at hr
    obtain ⟨rfl, rfl⟩ := hr
    split
    · rename_i inner hinner
      rw [if_neg]
      intro hname
      have hquotes := congrArg (List.count '"') (Text.before?_eq_some_iff.1 hinner)
      have hnone : inner.count '"' = 0 := by
        rw [List.count_eq_zero]
        intro hmem
        exact absurd (isNameChar_of_isSimpleName hname '"' hmem) (by decide)
      rw [List.count_append, List.count_append, hnone, List.count_cons_self, List.count_cons_self,
        List.count_singleton_self] at hquotes
      omega
    · rfl
  · rfl

theorem isQuote_of_isNameChar {c : Char} (h : isNameChar c = true) : isQuote c = false := by
  rw [Bool.eq_false_iff]
  intro hquote
  rw [isQuote, Bool.or_eq_true, beq_iff_eq, beq_iff_eq] at hquote
  rcases hquote with rfl | rfl <;> exact absurd h (by decide)

/-- A closed token in front of a text is read as a token of its own or with the token behind it. -/
theorem joins_closed {n : Nat} {symbols : List Symbol} {q : Char} {x r : List Char}
    (hq : isQuote q = true) (hkept : unquoteName (enclose q x) = enclose q x)
    (h : Joins symbols (lexemes r)) : Joins (.token n :: symbols) (lexemes (enclose q x ++ r)) := by
  have htext : enclose q x ++ r = q :: (double q x ++ q :: r) := by
    rw [enclose, List.cons_append, List.append_assoc, List.singleton_append]
  rw [htext, lexemes_quote hq, takeQuoted_double_append]
  by_cases hr : r.head? = some q
  · obtain ⟨t, rfl⟩ := List.head?_eq_some_iff.1 hr
    have htoken : q :: (double q x ++ q :: q :: (takeQuoted q t).1) =
        enclose q x ++ q :: (takeQuoted q t).1 := by
      rw [enclose, List.cons_append, List.append_assoc, List.singleton_append]
    rw [lexemes_quote hq] at h
    rw [takeQuoted_pair, htoken]
    exact .join (unquoteName_enclose_append q x _) h
  · rw [takeQuoted_end hr]
    exact .quoted hkept h

/-- A token that runs to the end is read as a token of its own. -/
theorem joins_open {n : Nat} {q : Char} {x : List Char} (hq : isQuote q = true)
    (hkept : unquoteName (q :: double q x) = q :: double q x) :
    Joins [.token n] (lexemes (q :: double q x)) := by
  have htake := takeQuoted_double_append q x []
  rw [List.append_nil] at htake
  rw [lexemes_quote hq, htake]
  show Joins _ (.quoted (q :: (double q x ++ [])) :: lexemes [])
  rw [List.append_nil, lexemes_nil]
  exact .quoted hkept .nil

/-- A simple name in front of a text is read as its characters. -/
theorem joins_name {n : Nat} {symbols : List Symbol} {name r : List Char}
    (hname : isSimpleName name = true) (h : Joins symbols (lexemes r)) :
    Joins (.token n :: symbols) (lexemes (name ++ r)) := by
  rw [lexemes_append_chars fun c hc =>
    isQuote_of_isNameChar (isNameChar_of_isSimpleName hname c hc)]
  exact .name hname h

/-- The text of sound symbols splits into their characters and tokens. -/
theorem joins_lexemes {tokens : List (List Char)} {symbols : List Symbol}
    (h : IsSound tokens symbols) (hchars : ∀ c, .char c ∈ symbols → isQuote c = false) :
    Joins symbols (lexemes (symbols.flatMap (Symbol.spelling tokens))) := by
  have hspelling : ∀ {n : Nat} {token : List Char}, tokens[n]? = some token →
      (Symbol.token n).spelling tokens = unquoteName token := by
    intro n token hn
    rw [Symbol.spelling, hn, Option.getD_some]
  induction h with
  | nil =>
    rw [List.flatMap_nil, lexemes_nil]
    exact .nil
  | @char c symbols hc h ih =>
    rw [List.flatMap_cons, Symbol.spelling, List.singleton_append,
      lexemes_char (hchars c List.mem_cons_self)]
    exact .char (ih fun d hd => hchars d (List.mem_cons_of_mem _ hd))
  | @token n token symbols hn htoken h ih =>
    have hrest := ih fun d hd => hchars d (List.mem_cons_of_mem _ hd)
    rw [List.flatMap_cons, hspelling hn]
    rcases unquoteName_cases token with hkept | hsimple
    · obtain ⟨q, x, hq, rfl⟩ := htoken
      rw [hkept]
      exact joins_closed hq hkept hrest
    · exact joins_name hsimple hrest
  | @last n token hn htoken =>
    rw [List.flatMap_cons, List.flatMap_nil, hspelling hn]
    rcases unquoteName_cases token with hkept | hsimple
    · obtain ⟨q, x, hq, rfl⟩ := htoken
      rw [hkept, List.append_nil]
      exact joins_open hq hkept
    · refine joins_name hsimple ?_
      rw [lexemes_nil]
      exact .nil

namespace Joins

variable {symbols : List Symbol} {lexemes : List Lexeme}

/-- A token of the text does not lose its quotes any more. -/
theorem kept (h : Joins symbols lexemes) : ∀ token, .quoted token ∈ lexemes →
    unquoteName token = token := by
  induction h with
  | nil => exact fun _ hmem => absurd hmem List.not_mem_nil
  | char _ ih => exact fun token hmem => ih token (by simpa using hmem)
  | name _ _ ih => exact fun token hmem => ih token (by simpa using hmem)
  | quoted hkept _ ih =>
    intro token hmem
    rcases List.mem_cons.1 hmem with heq | hmem
    · rwa [Lexeme.quoted.inj heq]
    · exact ih token hmem
  | join hkept _ ih =>
    intro token hmem
    rcases List.mem_cons.1 hmem with heq | hmem
    · rwa [Lexeme.quoted.inj heq]
    · exact ih token (List.mem_cons_of_mem _ hmem)

/-- A character of the text was one before, or it stands in a simple name. -/
theorem char_mem (h : Joins symbols lexemes) {c : Char} (hc : .char c ∈ lexemes) :
    .char c ∈ symbols ∨ isNameChar c = true := by
  induction h with
  | nil => cases hc
  | char _ ih =>
    rw [List.mem_cons, Lexeme.char.injEq] at hc
    rcases hc with rfl | hc
    · exact .inl List.mem_cons_self
    · exact (ih hc).imp_left (List.mem_cons_of_mem _)
  | name hname _ ih =>
    rcases List.mem_append.1 hc with hc | hc
    · obtain ⟨d, hd, heq⟩ := List.mem_map.1 hc
      obtain rfl := Lexeme.char.inj heq
      exact .inr (isNameChar_of_isSimpleName hname d hd)
    · exact (ih hc).imp_left (List.mem_cons_of_mem _)
  | quoted _ _ ih => exact (ih (by simpa using hc)).imp_left (List.mem_cons_of_mem _)
  | join _ _ ih => exact (ih (by simpa using hc)).imp_left (List.mem_cons_of_mem _)

end Joins

end SchemaPlan.Expression
