import SchemaPlan.Expression.Canonical
import SchemaPlan.Proofs.Text.Rewriting

/-!
# Masked text as a list of symbols

Masked text is a list of characters and markers.  A pass works on the text without knowing of the
markers, so it has to be shown that it takes none apart.

* `mask_eq_render`, `unmask_render`: masking writes symbols, and unmasking reads them back.
* `exists_render_of_rewrites`: a pass that keeps marks and digits keeps the markers.
* `exists_chars_of_render`, `exists_token_of_render`: the symbols are read off the text.
* `unmask_mask`: masked text is unmasked to the text with its simple names unquoted.
-/

set_option autoImplicit false

namespace SchemaPlan.Expression

open Text (Rewrites)

/-! ## Symbols -/

/-- A character of masked text, or the marker of a token. -/
inductive Symbol where
  | char (c : Char)
  | token (n : Nat)
deriving DecidableEq, Repr

namespace Symbol

def text : Symbol → List Char
  | char c => [c]
  | token n => marker n

/-- The text that stands for a symbol after unmasking. -/
def spelling (tokens : List (List Char)) : Symbol → List Char
  | char c => [c]
  | token n => unquoteName (tokens[n]?.getD (toString n).toList)

end Symbol

/-- Masked text. -/
def render (symbols : List Symbol) : List Char :=
  symbols.flatMap Symbol.text

/-- The symbols of lexemes whose tokens are numbered from `n` on. -/
def number : Nat → List Lexeme → List Symbol
  | _, [] => []
  | n, .char c :: r => .char c :: number n r
  | n, .quoted _ :: r => .token n :: number (n + 1) r

@[simp] theorem render_nil : render [] = [] := rfl

@[simp] theorem render_cons (x : Symbol) (symbols : List Symbol) :
    render (x :: symbols) = x.text ++ render symbols :=
  List.flatMap_cons

@[simp] theorem render_append (a b : List Symbol) : render (a ++ b) = render a ++ render b :=
  List.flatMap_append

theorem render_map_char (s : List Char) : render (s.map .char) = s := by
  induction s with
  | nil => rfl
  | cons c r ih => rw [List.map_cons, render_cons, ih, Symbol.text, List.singleton_append]

theorem maskFrom_eq_render (n : Nat) (lexemes : List Lexeme) :
    maskFrom n lexemes = render (number n lexemes) := by
  fun_induction number n lexemes with
  | case1 => rfl
  | case2 n c r ih => rw [maskFrom, ih, render_cons, Symbol.text, List.singleton_append]
  | case3 n token r ih => rw [maskFrom, ih, render_cons, Symbol.text]

theorem mask_eq_render (lexemes : List Lexeme) : mask lexemes = render (number 0 lexemes) :=
  maskFrom_eq_render 0 lexemes

/-! ## Marks -/

theorem not_isDigit_mark : mark.isDigit = false := by decide

theorem mark_not_mem_digits (n : Nat) : mark ∉ (toString n).toList := by
  intro h
  have hdigit := Text.isDigit_of_mem_toString h
  rw [not_isDigit_mark] at hdigit
  cases hdigit

/-- A character of a marker. -/
def isMarkerChar (c : Char) : Bool :=
  c == mark || c.isDigit

theorem isMarkerChar_of_mem_marker {n : Nat} {c : Char} (h : c ∈ marker n) :
    isMarkerChar c = true := by
  unfold marker at h
  unfold isMarkerChar
  rw [List.mem_cons, List.mem_append, List.mem_singleton] at h
  rcases h with rfl | h | rfl
  · simp
  · simp [Text.isDigit_of_mem_toString h]
  · simp

theorem marker_append (n : Nat) (s : List Char) :
    marker n ++ s = mark :: ((toString n).toList ++ mark :: s) := by
  simp [marker]

/-- The text in front of a mark and the text behind it are told apart. -/
theorem append_mark_inj {a b s t : List Char} (ha : mark ∉ a) (hb : mark ∉ b) :
    a ++ mark :: s = b ++ mark :: t ↔ a = b ∧ s = t := by
  constructor
  · intro h
    have hcut := congrArg (Text.cut? mark) h
    rw [Text.cut?_append ha, Text.cut?_append hb, Option.some.injEq, Prod.mk.injEq] at hcut
    exact hcut
  · rintro ⟨rfl, rfl⟩
    rfl

/-! ## Symbols read off the text -/

/-- Text without marks in front of masked text consists of characters. -/
theorem exists_chars_of_render {symbols : List Symbol} {a rest : List Char} (ha : mark ∉ a)
    (h : render symbols = a ++ rest) :
    ∃ back, symbols = a.map .char ++ back ∧ rest = render back := by
  induction a generalizing symbols with
  | nil => exact ⟨symbols, rfl, h.symm⟩
  | cons c a ih =>
    obtain ⟨hc, hmem⟩ := not_or.1 (mt List.mem_cons.2 ha)
    cases symbols with
    | nil => cases h
    | cons x symbols =>
      rw [render_cons, List.cons_append] at h
      cases x with
      | char d =>
        obtain ⟨rfl, hrest⟩ := List.cons.inj h
        obtain ⟨back, rfl, hback⟩ := ih hmem hrest
        exact ⟨back, rfl, hback⟩
      | token n =>
        rw [Symbol.text, marker_append] at h
        exact absurd (List.cons.inj h).1 hc

/-- A mark in masked text starts the marker of a token. -/
theorem exists_token_of_render {symbols : List Symbol} (hclean : .char mark ∉ symbols)
    {a rest : List Char} (ha : mark ∉ a) (h : render symbols = a ++ mark :: rest) :
    ∃ n back, symbols = a.map .char ++ .token n :: back ∧
      mark :: rest = marker n ++ render back := by
  obtain ⟨back, rfl, hback⟩ := exists_chars_of_render ha h
  cases back with
  | nil => cases hback
  | cons x back =>
    rw [render_cons] at hback
    cases x with
    | char c =>
      obtain ⟨rfl, -⟩ := List.cons.inj hback
      exact absurd (List.mem_append_right _ List.mem_cons_self) hclean
    | token n => exact ⟨n, back, rfl, hback⟩

/-- The numbers of the tokens. -/
def numbers (symbols : List Symbol) : List Nat :=
  symbols.filterMap fun
    | .char _ => none
    | .token n => some n

@[simp] theorem numbers_char (c : Char) (symbols : List Symbol) :
    numbers (.char c :: symbols) = numbers symbols := rfl

@[simp] theorem numbers_token (n : Nat) (symbols : List Symbol) :
    numbers (.token n :: symbols) = n :: numbers symbols := rfl

/-! ## Passes over the characters -/

/-- A replacement of characters as one of symbols, which leaves the markers. -/
inductive OnSymbols (R : Char → List Char → Prop) : Symbol → List Symbol → Prop where
  | char {c : Char} {cs : List Char} (h : R c cs) : OnSymbols R (.char c) (cs.map .char)
  | token (n : Nat) : OnSymbols R (.token n) [.token n]

theorem rewrites_of_kept {R : Char → List Char → Prop} {s r t : List Char}
    (hkeep : ∀ c ∈ s, ∀ cs, R c cs → cs = [c]) (h : Rewrites R (s ++ r) t) :
    ∃ u, t = s ++ u ∧ Rewrites R r u := by
  induction s generalizing t with
  | nil => exact ⟨t, rfl, h⟩
  | cons c s ih =>
    obtain ⟨hc, hs⟩ := List.forall_mem_cons.1 hkeep
    rw [List.cons_append] at h
    cases h with
    | @cons _ cs _ t hcs h =>
      obtain ⟨u, rfl, hu⟩ := ih hs h
      exact ⟨u, by rw [hc cs hcs]; rfl, hu⟩

/-- A pass that keeps marks and digits keeps the markers. -/
theorem exists_render_of_rewrites {R : Char → List Char → Prop}
    (hkeep : ∀ c cs, isMarkerChar c = true → R c cs → cs = [c]) {symbols : List Symbol}
    {t : List Char} (h : Rewrites R (render symbols) t) :
    ∃ symbols', t = render symbols' ∧ Rewrites (OnSymbols R) symbols symbols' := by
  induction symbols generalizing t with
  | nil =>
    cases h
    exact ⟨[], rfl, .nil⟩
  | cons x symbols ih =>
    rw [render_cons] at h
    cases x with
    | char c =>
      cases h with
      | @cons _ cs _ t hcs h =>
        obtain ⟨symbols', rfl, hrest⟩ := ih h
        refine ⟨cs.map .char ++ symbols', ?_, .cons (.char hcs) hrest⟩
        rw [render_append, render_map_char]
    | token n =>
      obtain ⟨u, rfl, hu⟩ := rewrites_of_kept
        (fun c hc cs => hkeep c cs (isMarkerChar_of_mem_marker hc)) h
      obtain ⟨symbols', rfl, hrest⟩ := ih hu
      exact ⟨.token n :: symbols', rfl, .keep (.token n) hrest⟩

/-! ## Unmasking -/

theorem unmask_cons {tokens : List (List Char)} {c : Char} (hc : c ≠ mark) (s : List Char) :
    unmask tokens (c :: s) = c :: unmask tokens s := by
  unfold unmask
  rw [Text.pieces, if_neg hc]
  cases hpieces : Text.pieces mark s with
  | nil => exact absurd hpieces (Text.pieces_ne_nil mark s)
  | cons piece pieces => rfl

theorem unmask_marker (tokens : List (List Char)) (n : Nat) (s : List Char) :
    unmask tokens (marker n ++ s) = (Symbol.token n).spelling tokens ++ unmask tokens s := by
  have hpieces : Text.pieces mark (marker n ++ s) =
      [] :: (toString n).toList :: Text.pieces mark s := by
    rw [marker, List.cons_append, List.append_assoc, List.singleton_append, Text.pieces, if_pos rfl,
      Text.pieces_append (mark_not_mem_digits n)]
  unfold unmask
  rw [hpieces, unmaskPieces, unmaskPieces, resolveMarker, Text.readNat?_toString]
  rfl

/-- Unmasking reads the symbols back. -/
theorem unmask_render {tokens : List (List Char)} {symbols : List Symbol}
    (hclean : .char mark ∉ symbols) :
    unmask tokens (render symbols) = symbols.flatMap (Symbol.spelling tokens) := by
  induction symbols with
  | nil => rfl
  | cons x symbols ih =>
    rw [List.mem_cons, not_or] at hclean
    rw [render_cons, List.flatMap_cons, ← ih hclean.2]
    cases x with
    | char c => exact unmask_cons (fun heq => hclean.1 (heq ▸ rfl)) _
    | token n => exact unmask_marker tokens n _

/-- The text of a lexeme in the canonical form. -/
def Lexeme.unquoted : Lexeme → List Char
  | .char c => [c]
  | .quoted token => unquoteName token

theorem char_mem_number {n : Nat} {lexemes : List Lexeme} {c : Char} :
    .char c ∈ number n lexemes ↔ .char c ∈ lexemes := by
  fun_induction number n lexemes with
  | case1 => simp
  | case2 n d r ih => simp [ih]
  | case3 n token r ih => simp [ih]

/-- The numbers lead back to the tokens. -/
theorem flatMap_spelling_number (before : List (List Char)) (lexemes : List Lexeme) :
    (number before.length lexemes).flatMap (Symbol.spelling (before ++ tokens lexemes)) =
      lexemes.flatMap Lexeme.unquoted := by
  induction lexemes generalizing before with
  | nil => rfl
  | cons lexeme r ih =>
    cases lexeme with
    | char c =>
      rw [number, List.flatMap_cons, List.flatMap_cons]
      exact congrArg (c :: ·) (ih before)
    | quoted token =>
      have hnext := ih (before ++ [token])
      rw [List.length_append, List.length_singleton, List.append_assoc] at hnext
      rw [number, List.flatMap_cons, List.flatMap_cons, ← hnext]
      have htoken : (before ++ tokens (.quoted token :: r))[before.length]? = some token := by
        rw [List.getElem?_append_right (Nat.le_refl _), Nat.sub_self]
        rfl
      rw [Symbol.spelling, htoken]
      rfl

/-- Masked text is unmasked to the text with its simple names unquoted. -/
theorem unmask_mask {lexemes : List Lexeme} (hclean : .char mark ∉ lexemes) :
    unmask (tokens lexemes) (mask lexemes) = lexemes.flatMap Lexeme.unquoted := by
  rw [mask_eq_render, unmask_render (fun h => hclean (char_mem_number.1 h))]
  exact flatMap_spelling_number [] lexemes

end SchemaPlan.Expression
