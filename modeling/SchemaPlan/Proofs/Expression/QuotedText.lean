import SchemaPlan.Proofs.Expression.KeptTokens

/-!
# Quoted text in canonical forms

Tokens travel through the passes as numbered markers.  They come out unchanged, in their order, and
the text between them holds no quotes.  Two things happen to a token: an identifier that is a simple
lower case name loses its quotes, and the quoted type of a cast goes with the cast.

* `splits_lexemes`: where the tokens of a text begin and end.
* `tokensOutsideCasts`: the tokens that do not stand behind the sign of a cast.
* `canonical_shows_tokens`: they stand in the canonical form, and no other quotes do.
-/

set_option autoImplicit false

namespace SchemaPlan.Expression

open Text (double enclose)

/-! ## The tokens of a text -/

/-- How a text splits into tokens and characters.  A quote opens a token; inside it the quote is
written twice, and a single one closes the token.  A token that is not closed runs to the end. -/
inductive Splits : List Char → List Lexeme → Prop where
  | nil : Splits [] []
  | char {c : Char} {s : List Char} {lexemes : List Lexeme} (hc : isQuote c = false)
    (h : Splits s lexemes) : Splits (c :: s) (.char c :: lexemes)
  | closed {q : Char} {x s : List Char} {lexemes : List Lexeme} (hq : isQuote q = true)
    (hs : s.head? ≠ some q) (h : Splits s lexemes) :
    Splits (enclose q x ++ s) (.quoted (enclose q x) :: lexemes)
  | unclosed {q : Char} {x : List Char} (hq : isQuote q = true) :
    Splits (q :: double q x) [.quoted (q :: double q x)]

/-- A token takes the quotes in a row up to the last. -/
theorem head?_takeQuoted (q : Char) (s : List Char) : (takeQuoted q s).2.head? ≠ some q := by
  fun_induction takeQuoted q s with
  | case1 => simp
  | case2 => simp
  | case3 r token rest htake ih => rwa [htake] at ih
  | case4 d r hd => simpa using hd
  | case5 c d r hc token rest htake ih => rwa [htake] at ih

theorem splits_lexemes (s : List Char) : Splits s (lexemes s) := by
  fun_induction lexemes s with
  | case1 => exact .nil
  | case2 q r hq ih =>
    have happend := takeQuoted_append q r
    rcases takeQuoted_cases q r with ⟨x, hx⟩ | ⟨hend, x, hx⟩
    · have hclosed := Splits.closed (x := x) hq (head?_takeQuoted q r) ih
      rw [enclose, ← hx, List.cons_append, happend] at hclosed
      exact hclosed
    · rw [hx, hend, List.append_nil] at happend
      rw [hx, hend, lexemes_nil, ← happend]
      exact .unclosed hq
  | case3 c r hc ih => exact .char (Bool.eq_false_iff.2 hc) ih

theorem mem_of_char_mem_lexemes {c : Char} {s : List Char} (h : .char c ∈ lexemes s) : c ∈ s := by
  fun_induction lexemes s with
  | case1 => cases h
  | case2 q r hq ih =>
    have hrest := ih (by simpa using h)
    rw [← takeQuoted_append q r]
    exact List.mem_cons_of_mem q (List.mem_append_right _ hrest)
  | case3 d r hd ih =>
    rw [List.mem_cons, Lexeme.char.injEq] at h
    rw [List.mem_cons]
    exact h.imp_right ih

/-- The tokens of a text, apart from those behind the sign of a cast.  `before` stands between the
lexemes and the token before them. -/
def tokensOutsideCasts : List Char → List Lexeme → List (List Char)
  | _, [] => []
  | before, .char c :: r => tokensOutsideCasts (before ++ [c]) r
  | before, .quoted token :: r =>
    if OpensCast before then tokensOutsideCasts [] r else token :: tokensOutsideCasts [] r

/-- The numbers of the tokens outside casts lead back to these tokens. -/
theorem map_numbersUnless (front : List (List Char)) (before : List Char) (lexemes : List Lexeme) :
    (numbersUnless OpensCast before (number front.length lexemes)).map
        (fun n => (front ++ tokens lexemes)[n]?) =
      (tokensOutsideCasts before lexemes).map some := by
  induction lexemes generalizing front before with
  | nil => rfl
  | cons lexeme r ih =>
    cases lexeme with
    | char c => exact ih front (before ++ [c])
    | quoted token =>
      have hrest := ih (front ++ [token]) []
      rw [List.length_append, List.length_singleton, List.append_assoc] at hrest
      have htoken : (front ++ tokens (.quoted token :: r))[front.length]? = some token := by
        rw [List.getElem?_append_right (Nat.le_refl _), Nat.sub_self]
        rfl
      rw [number, numbersUnless, tokensOutsideCasts]
      split
      · exact hrest
      · rw [List.map_cons, List.map_cons, htoken]
        exact congrArg (some token :: ·) hrest

/-! ## Tokens in a text -/

/-- The text of a token in a canonical form: the token itself, or the simple lower case name that
it encloses in double quotes. -/
inductive Shown : List Char → List Char → Prop where
  | verbatim {token : List Char}
    (h : ∀ name, isSimpleName name = true → token ≠ '"' :: (name ++ ['"'])) : Shown token token
  | name {name : List Char} (h : isSimpleName name = true) : Shown ('"' :: (name ++ ['"'])) name

theorem shown_unquoteName (token : List Char) : Shown token (unquoteName token) := by
  unfold unquoteName
  split
  · rename_i r
    split
    · rename_i inner hinner
      rw [Text.before?_eq_some_iff] at hinner
      subst hinner
      split
      · rename_i hname
        exact .name hname
      · rename_i hname
        refine .verbatim fun name hsimple heq => hname ?_
        rwa [List.append_cancel_right (List.cons.inj heq).2]
    · rename_i hnone
      exact .verbatim fun name hsimple heq =>
        Text.before?_eq_none_iff.1 hnone name (List.cons.inj heq).2
  · rename_i hother
    exact .verbatim fun name hsimple heq => hother _ heq

/-- A text that shows tokens in order, with text without quotes around and between them. -/
inductive ShowsTokens : List (List Char) → List Char → Prop where
  | nil {gap : List Char} (hgap : ∀ c ∈ gap, isQuote c = false) : ShowsTokens [] gap
  | cons {gap token shown : List Char} {tokens : List (List Char)} {text : List Char}
    (hgap : ∀ c ∈ gap, isQuote c = false) (hshown : Shown token shown)
    (h : ShowsTokens tokens text) : ShowsTokens (token :: tokens) (gap ++ (shown ++ text))

theorem ShowsTokens.char {c : Char} {tokens : List (List Char)} {text : List Char}
    (hc : isQuote c = false) (h : ShowsTokens tokens text) : ShowsTokens tokens (c :: text) := by
  cases h with
  | nil hgap => exact .nil (List.forall_mem_cons.2 ⟨hc, hgap⟩)
  | cons hgap hshown h =>
    rw [← List.cons_append]
    exact .cons (List.forall_mem_cons.2 ⟨hc, hgap⟩) hshown h

/-- Symbols without quotes show their tokens. -/
theorem showsTokens_flatMap {tokens shown : List (List Char)} {symbols : List Symbol}
    (hquotes : ∀ c, .char c ∈ symbols → isQuote c = false)
    (h : (numbers symbols).map (fun n => tokens[n]?) = shown.map some) :
    ShowsTokens shown (symbols.flatMap (Symbol.spelling tokens)) := by
  induction symbols generalizing shown with
  | nil =>
    obtain rfl : shown = [] := List.map_eq_nil_iff.1 h.symm
    exact .nil (List.forall_mem_nil _)
  | cons x symbols ih =>
    have hfree : ∀ c, .char c ∈ symbols → isQuote c = false :=
      fun c hc => hquotes c (List.mem_cons_of_mem x hc)
    cases x with
    | char c =>
      rw [numbers_char] at h
      exact (ih hfree h).char (hquotes c List.mem_cons_self)
    | token n =>
      cases shown with
      | nil => cases h
      | cons token shown =>
        rw [numbers_token, List.map_cons, List.map_cons, List.cons.injEq] at h
        obtain ⟨htoken, h⟩ := h
        have hspelling : (Symbol.token n).spelling tokens = unquoteName token := by
          rw [Symbol.spelling, htoken, Option.getD_some]
        rw [List.flatMap_cons, hspelling]
        exact .cons (List.forall_mem_nil _) (shown_unquoteName token) (ih hfree h)

/-- **Quoted text is never touched.**  The tokens of an expression stand in its canonical form as
they are and in order, between text without quotes; only a simple lower case name has lost its
quotes, and only the types of casts are missing. -/
theorem canonical_shows_tokens {expression : String} (h : mark ∉ expression.toList) :
    Splits expression.toList (lexemes expression.toList) ∧
      ShowsTokens (tokensOutsideCasts [] (lexemes expression.toList))
        (canonical expression).toList := by
  refine ⟨splits_lexemes _, ?_⟩
  have hclean : .char mark ∉ number 0 (lexemes expression.toList) :=
    fun hmark => h (mem_of_char_mem_lexemes (char_mem_number.1 hmark))
  obtain ⟨symbols, hmasked, hclean', hnumbers⟩ := exists_numbers_canonicalMasked hclean
  rw [← mask_eq_render] at hmasked
  have hquotes := isQuote_of_mem_canonicalMasked (@not_isQuote_of_mem_mask expression.toList)
  rw [hmasked] at hquotes
  rw [canonical, String.toList_ofList, canonicalChars, hmasked, unmask_render hclean']
  refine showsTokens_flatMap (fun c hc => hquotes c (mem_render hc)) ?_
  rw [hnumbers]
  exact map_numbersUnless [] [] _

/-- Tokens of every kind: identifiers with and without need of their quotes, a literal with a
quote, the type of a cast, and a literal that is not closed. -/
def mixedTokens : String :=
  "COALESCE(\"Name\", 'It''s'::PUBLIC.\"Mood\", \"low\", 'Open"

theorem canonical_shows_tokens_mixed :
    mark ∉ mixedTokens.toList ∧
      tokensOutsideCasts [] (lexemes mixedTokens.toList) =
        ["\"Name\"".toList, "'It''s'".toList, "\"low\"".toList, "'Open".toList] ∧
      canonical mixedTokens = "coalesce(\"Name\", 'It''s', low, 'Open" ∧
      Splits mixedTokens.toList (lexemes mixedTokens.toList) ∧
      ShowsTokens (tokensOutsideCasts [] (lexemes mixedTokens.toList))
        (canonical mixedTokens).toList := by
  have hmark : mark ∉ mixedTokens.toList := by decide +kernel
  exact ⟨hmark, by decide +kernel, by decide +kernel, canonical_shows_tokens hmark⟩

end SchemaPlan.Expression
