import SchemaPlan.Proofs.Expression.Outline
import SchemaPlan.Proofs.Expression.Reduced
import SchemaPlan.Proofs.Text.LowerCase

/-!
# The shape of canonical forms

Lower case, the space behind commas and the parentheses around the whole are final after one run of
the passes.

* `isShaped_canonicalMasked`: what every canonical form has.
* `IsSound.exists_canonicalMasked`: the passes take no marker apart.
* `isReread_canonicalChars`: what is read again from a canonical form.
-/

set_option autoImplicit false

namespace SchemaPlan.Expression

open Text (Rewrites IsSettled IsSign IsLowercaseOf isBlank)

/-! ## What every canonical form has -/

/-- Masked text in lower case, with spaces as its only blanks and none at its ends, with a space
behind every comma, and without parentheses around the whole. -/
structure IsShaped (m : List Char) : Prop where
  settled : ∀ c ∈ m, IsSettled c
  blanks : ∀ c ∈ m, isBlank c = true → c = ' '
  commas : m.IsChain Spaced
  start : m.head? ≠ some ' '
  stop : m.getLast? ≠ some ' '
  bare : enclosed? m = none

theorem stripOuter_cases (s : List Char) :
    ∃ inner, stripOuter s = Text.trim inner ∧ enclosed? (Text.trim inner) = none ∧
      inner <:+: s := by
  fun_induction stripOuter s with
  | case1 s inner hinner ih =>
    obtain ⟨core, heq, hbare, hinfix⟩ := ih
    refine ⟨core, heq, hbare, hinfix.trans (List.IsInfix.trans ?_ (Text.trim_isInfix s))⟩
    rw [enclosed?_eq_some hinner]
    exact ⟨['('], [')'], rfl⟩
  | case2 s hnone => exact ⟨s, rfl, hnone, List.infix_rfl⟩

/-- What tidying and stripping make of settled text. -/
theorem isShaped_stripOuter_tidy {s : List Char} (hsettled : ∀ c ∈ s, IsSettled c)
    (hblanks : ∀ c ∈ s, isBlank c = true → c = ' ') : IsShaped (stripOuter (tidy s)) := by
  obtain ⟨inner, heq, hbare, hinfix⟩ := stripOuter_cases (tidy s)
  have hsub : Text.trim inner <:+: tidied false s := by
    rw [← tidy_eq]
    exact (Text.trim_isInfix inner).trans hinfix
  have hmem : ∀ c ∈ Text.trim inner, c = ' ' ∨ c ∈ s ∧ isBlank c = false :=
    fun c hc => mem_of_rewrites_isSpacing (rewrites_tidied hblanks) (hsub.subset hc)
  have hcommas : (Text.trim inner).IsChain Spaced := by
    obtain ⟨front, back, hfull⟩ := hsub
    have hchain := isChain_tidied false s
    rw [← hfull] at hchain
    exact hchain.left_of_append.right_of_append
  rw [heq]
  refine ⟨fun c hc => ?_, fun c hc hblank => ?_, hcommas, fun h => ?_, fun h => ?_, hbare⟩
  · rcases hmem c hc with rfl | ⟨hc, -⟩
    · decide
    · exact hsettled c hc
  · rcases hmem c hc with rfl | ⟨-, hother⟩
    · rfl
    · rw [hblank] at hother
      cases hother
  · have hhead : isBlank ' ' = false := Text.head?_strip h
    cases hhead
  · have hlast : isBlank ' ' = false := Text.getLast?_strip h
    cases hlast

/-- The text that is tidied: in lower case, without qualifiers and casts and without parentheses
around single operands. -/
def untidied (s : List Char) : List Char :=
  stripped (Text.lowercase (Text.collapse s))

theorem canonicalMasked_eq (s : List Char) : canonicalMasked s = stripOuter (tidy (untidied s)) :=
  rfl

/-- The characters of the text that is tidied are settled, and signs only where there were some. -/
theorem mem_untidied {s : List Char} {c : Char} (hc : c ∈ untidied s) :
    IsSettled c ∧ (IsSign c → c = ' ' ∨ c ∈ s ∧ isBlank c = false) := by
  obtain ⟨hsettled, hsign⟩ := Text.lower_of_mem_lowercase ((stripped_sublist _).subset hc)
  exact ⟨hsettled, fun h => mem_of_rewrites_isSpacing (rewrites_collapse s) (hsign h)⟩

theorem blanks_untidied {s : List Char} : ∀ c ∈ untidied s, isBlank c = true → c = ' ' := by
  intro c hc hblank
  rcases (mem_untidied hc).2 (.inr hblank) with rfl | ⟨-, hother⟩
  · rfl
  · rw [hblank] at hother
    cases hother

theorem isShaped_canonicalMasked (s : List Char) : IsShaped (canonicalMasked s) :=
  isShaped_stripOuter_tidy (fun _ hc => (mem_untidied hc).1) blanks_untidied

/-- No quote is brought in. -/
theorem isQuote_of_mem_canonicalMasked {s : List Char} (hs : ∀ c ∈ s, isQuote c = false) :
    ∀ c ∈ canonicalMasked s, isQuote c = false := by
  intro c hc
  rw [canonicalMasked_eq, tidy_eq] at hc
  have hmem := mem_of_rewrites_isSpacing (rewrites_tidied blanks_untidied)
    ((sublist_of_isDrop (rewrites_stripOuter _)).subset hc)
  rw [Bool.eq_false_iff]
  intro hquote
  have hsign : IsSign c := by
    rw [isQuote, Bool.or_eq_true, beq_iff_eq, beq_iff_eq] at hquote
    rcases hquote with rfl | rfl <;> decide
  have horigin : c = ' ' ∨ c ∈ s ∧ isBlank c = false := by
    rcases hmem with rfl | ⟨hmem, -⟩
    · exact .inl rfl
    · exact (mem_untidied hmem).2 hsign
  rcases horigin with rfl | ⟨hmem, -⟩
  · exact absurd hquote (by decide)
  · rw [hs c hmem] at hquote
    cases hquote

/-! ## Markers -/

theorem isMarkerChar_sign {c : Char} (h : isMarkerChar c = true) : c.toNat < 0x41 := by
  rw [isMarkerChar, Bool.or_eq_true, beq_iff_eq] at h
  rcases h with rfl | h
  · decide
  · have hlast := (Text.toNat_of_isDigit h).2
    omega

theorem IsSpacing.keeps {c : Char} {cs : List Char} (hc : isMarkerChar c = true)
    (h : IsSpacing c cs) : cs = [c] := by
  cases h with
  | keep => rfl
  | space hblank =>
    rw [isMarkerChar_of_isBlank hblank] at hc
    cases hc
  | drop hblank =>
    rw [isMarkerChar_of_isBlank hblank] at hc
    cases hc
  | comma heq =>
    subst heq
    exact absurd hc (by decide)

theorem IsSpacing.mark_mem {c : Char} {cs : List Char} (h : IsSpacing c cs) (hmark : mark ∈ cs) :
    c = mark := by
  rcases h.mem hmark with hspace | ⟨heq, -⟩
  · exact absurd hspace (by decide)
  · exact heq.symm

/-- The symbols other than spaces. -/
def solidSymbols (symbols : List Symbol) : List Symbol :=
  symbols.filter fun x => x != .char ' '

section Passes

variable {tokens : List (List Char)} {symbols symbols' : List Symbol} {t : List Char}

theorem mem_render {c : Char} (h : .char c ∈ symbols) : c ∈ render symbols :=
  List.mem_flatMap.2 ⟨.char c, h, List.mem_cons_self⟩

/-- Spacing changes spaces only. -/
theorem solidSymbols_of_isSpacing (hblanks : ∀ c, .char c ∈ symbols → isBlank c = true → c = ' ')
    (h : Rewrites (OnSymbols IsSpacing) symbols symbols') :
    solidSymbols symbols' = solidSymbols symbols := by
  refine h.filter_eq ?_
  rintro _ hx _ (⟨hcs⟩ | ⟨n⟩)
  · have hc := hblanks _ hx
    cases hcs with
    | keep => rfl
    | space hblank => rw [hc hblank]; rfl
    | drop hblank => rw [hc hblank]; rfl
    | comma hcomma => rw [hcomma]; rfl
  · rfl

/-- Blanks and commas are spaced between the symbols. -/
theorem IsSound.exists_spacing (h : IsSound tokens symbols)
    (ht : Rewrites IsSpacing (render symbols) t) : ∃ symbols', t = render symbols' ∧
      IsSound tokens symbols' ∧ ((∀ c ∈ render symbols, isBlank c = true → c = ' ') →
        solidSymbols symbols' = solidSymbols symbols) := by
  obtain ⟨symbols', rfl, hsymbols⟩ := exists_render_of_rewrites (fun _ _ => IsSpacing.keeps) ht
  refine ⟨symbols', rfl, h.rewrites (fun c cs hcs hc hmark => ?_) hsymbols, fun hblanks => ?_⟩
  · exact hc (hcs.mark_mem hmark)
  · exact solidSymbols_of_isSpacing (fun c hc => hblanks c (mem_render hc)) hsymbols

theorem IsSound.exists_drop (h : IsSound tokens symbols)
    (ht : Rewrites IsDrop (render symbols) t) : ∃ symbols', t = render symbols' ∧
      IsSound tokens symbols' ∧ symbols'.Sublist symbols := by
  obtain ⟨symbols', rfl, hsub⟩ := exists_render_of_isDrop ht
  exact ⟨symbols', rfl, h.sublist hsub, hsub⟩

theorem eq_of_isLowercaseOf (hsettled : ∀ c, .char c ∈ symbols → IsSettled c)
    (h : Rewrites (OnSymbols IsLowercaseOf) symbols symbols') : symbols' = symbols := by
  induction h with
  | nil => rfl
  | @cons x xs s t hx _ ih =>
    rw [ih fun c hc => hsettled c (List.mem_cons_of_mem x hc)]
    cases hx with
    | @char c cs hcs =>
      have hc := hsettled c List.mem_cons_self
      cases hcs with
      | alone => rw [hc.lower]; rfl
      | sigma n hsigma => exact absurd hsigma hc.noSigma
    | token n => rfl

theorem IsSound.exists_lowercase (h : IsSound tokens symbols) : ∃ symbols',
    Text.lowercase (render symbols) = render symbols' ∧ IsSound tokens symbols' ∧
      ((∀ c ∈ render symbols, IsSettled c) → symbols' = symbols) := by
  obtain ⟨symbols', heq, hsymbols⟩ := exists_render_of_rewrites
    (fun c cs hc hcs => IsLowercaseOf.eq_singleton hcs (isMarkerChar_sign hc))
    (Text.rewrites_lowercase (render symbols))
  refine ⟨symbols', heq, h.rewrites (fun c cs hcs hc hmark => ?_) hsymbols, fun hsettled => ?_⟩
  · exact hc ((Text.lower_of_isLowercaseOf hcs hmark).2 (.inl (by decide))).symm
  · exact eq_of_isLowercaseOf (fun c hc => hsettled c (mem_render hc)) hsymbols

/-- The passes keep masked text sound, and on text with the shape of a canonical form they only drop
symbols and change spaces. -/
theorem IsSound.exists_canonicalMasked (h : IsSound tokens symbols) : ∃ symbols',
    canonicalMasked (render symbols) = render symbols' ∧ IsSound tokens symbols' ∧
      (IsShaped (render symbols) →
        (solidSymbols symbols').Sublist (solidSymbols symbols)) := by
  obtain ⟨collapsed, hcollapsed, h, hsolid⟩ := h.exists_spacing (rewrites_collapse _)
  obtain ⟨lower, hlower, h, hsame⟩ := h.exists_lowercase
  obtain ⟨unqualified, hunqualified, h, hpublic⟩ := h.exists_drop (rewrites_dropPublicQualifier _)
  obtain ⟨uncast, huncast, hcasts, -⟩ := exists_dropCasts h.clean
  obtain ⟨atoms, hatoms, h, hparens⟩ := (h.sublist hcasts).exists_drop (rewrites_dropParens _)
  have huntidied : untidied (render symbols) = render atoms := by
    rw [untidied, stripped, hcollapsed, hlower, hunqualified, huncast, hatoms]
  have hblanks : ∀ c ∈ render atoms, isBlank c = true → c = ' ' := huntidied ▸ blanks_untidied
  have hspaced : Rewrites IsSpacing (render atoms) (tidied false (render atoms)) :=
    rewrites_tidied hblanks
  obtain ⟨tidy, htidy, h, hsolid'⟩ := h.exists_spacing hspaced
  obtain ⟨bare, hbare, h, houter⟩ := h.exists_drop (rewrites_stripOuter _)
  refine ⟨bare, ?_, h, fun hshaped => ?_⟩
  · rw [canonicalMasked_eq, huntidied, tidy_eq, htidy, hbare]
  · have hsettled : ∀ c ∈ render collapsed, IsSettled c := by
      intro c hc
      rw [← hcollapsed] at hc
      rcases Text.mem_collapse hc with rfl | hc
      · decide
      · exact hshaped.settled c hc
    rw [← hsolid hshaped.blanks, ← hsame hsettled]
    have hdropped : (solidSymbols atoms).Sublist (solidSymbols lower) :=
      (hparens.trans (hcasts.trans hpublic)).filter _
    rw [← hsolid' hblanks] at hdropped
    exact (houter.filter _).trans hdropped

end Passes

/-! ## Reading a canonical form again -/

theorem isSettled_of_low {c : Char} (h : c.toNat < 0x41) : IsSettled c := by
  refine ⟨?_, by omega⟩
  rw [Text.lowercaseChar, if_pos (by omega), Text.toLower_of_sign h]

theorem isNameChar_cases {c : Char} (h : isNameChar c = true) :
    IsSettled c ∧ isBlank c = false := by
  have hlow : c.toNat < 0x80 := by
    rw [isNameChar, isNameStart, Bool.or_eq_true, Bool.or_eq_true, beq_iff_eq] at h
    rcases h with (hlower | rfl) | hdigit
    · have hlast : c.toNat ≤ 122 := of_decide_eq_true (Bool.and_eq_true_iff.1 hlower).2
      omega
    · decide
    · have hlast := (Text.toNat_of_isDigit hdigit).2
      omega
  have hall : ∀ n < 0x80, isNameChar (Char.ofNat n) = true →
      IsSettled (Char.ofNat n) ∧ isBlank (Char.ofNat n) = false := by
    decide +kernel
  have hc := hall c.toNat hlow
  rw [Char.ofNat_toNat] at hc
  exact hc h

theorem mem_maskFrom {n : Nat} {lexemes : List Lexeme} {c : Char} (h : c ∈ maskFrom n lexemes) :
    isMarkerChar c = true ∨ .char c ∈ lexemes := by
  fun_induction maskFrom n lexemes with
  | case1 => cases h
  | case2 n d r ih =>
    rcases List.mem_cons.1 h with rfl | h
    · exact .inr List.mem_cons_self
    · exact (ih h).imp_right (List.mem_cons_of_mem _)
  | case3 n token r ih =>
    rcases List.mem_append.1 h with h | h
    · exact .inl (isMarkerChar_of_mem_marker h)
    · exact (ih h).imp_right (List.mem_cons_of_mem _)

theorem not_isQuote_of_mem_mask {s : List Char} : ∀ c ∈ mask (lexemes s), isQuote c = false := by
  have hlexemes : ∀ s : List Char, ∀ c, .char c ∈ lexemes s → isQuote c = false := by
    intro s c hc
    fun_induction lexemes s with
    | case1 => cases hc
    | case2 q r hq ih => exact ih (by simpa using hc)
    | case3 d r hd ih =>
      rw [List.mem_cons, Lexeme.char.injEq] at hc
      rcases hc with rfl | hc
      · exact Bool.eq_false_iff.2 hd
      · exact ih hc
  intro c hc
  rcases mem_maskFrom hc with hmarker | hc
  · rw [Bool.eq_false_iff]
    intro hquote
    rw [isQuote, Bool.or_eq_true, beq_iff_eq, beq_iff_eq] at hquote
    rcases hquote with rfl | rfl <;> exact absurd hmarker (by decide)
  · exact hlexemes s c hc

/-- What is read again from a canonical form: no mark stands outside tokens, no token loses its
quotes, and the masked text has the shape of a canonical form. -/
structure IsReread (s : List Char) : Prop where
  clean : .char mark ∉ lexemes s
  kept : ∀ token, .quoted token ∈ lexemes s → unquoteName token = token
  shaped : IsShaped (mask (lexemes s))

theorem isReread_canonicalChars {s : List Char} (hs : .char mark ∉ lexemes s) :
    IsReread (canonicalChars s) := by
  obtain ⟨symbols, hmasked, hsound, -⟩ := (isSound_number hs).exists_canonicalMasked
  rw [← mask_eq_render] at hmasked
  have hshaped := isShaped_canonicalMasked (mask (lexemes s))
  have hquotes := isQuote_of_mem_canonicalMasked (not_isQuote_of_mem_mask (s := s))
  rw [hmasked] at hshaped hquotes
  have htext : canonicalChars s = symbols.flatMap (Symbol.spelling (tokens (lexemes s))) := by
    rw [canonicalChars, hmasked, unmask_render hsound.clean]
  have hjoins := joins_lexemes hsound fun c hc => hquotes c (mem_render hc)
  rw [← htext] at hjoins
  have houtline := hjoins.sameOutline 0
  have hchars : ∀ c ∈ mask (lexemes (canonicalChars s)), IsSettled c ∧
      (isBlank c = true → c = ' ') := by
    intro c hc
    rcases mem_maskFrom hc with hmarker | hc
    · refine ⟨isSettled_of_low (isMarkerChar_sign hmarker), fun hblank => ?_⟩
      rw [isMarkerChar_of_isBlank hblank] at hmarker
      cases hmarker
    · rcases hjoins.char_mem hc with hc | hname
      · exact ⟨hshaped.settled c (mem_render hc), hshaped.blanks c (mem_render hc)⟩
      · obtain ⟨hsettled, hblank⟩ := isNameChar_cases hname
        refine ⟨hsettled, fun h => ?_⟩
        rw [h] at hblank
        cases hblank
  refine ⟨fun hmark => ?_, hjoins.kept, ?_⟩
  · rcases hjoins.char_mem hmark with hmark | hname
    · exact hsound.clean hmark
    · exact absurd hname (by decide)
  · exact ⟨fun c hc => (hchars c hc).1, fun c hc => (hchars c hc).2,
      houtline.isChain hshaped.commas,
      mt (houtline.head?_iff rfl).2 hshaped.start, mt (houtline.getLast?_iff rfl).2 hshaped.stop,
      houtline.enclosed?_eq_none hshaped.bare⟩

end SchemaPlan.Expression
