import SchemaPlan.Proofs.Expression.Qualifier
import SchemaPlan.Proofs.Expression.Shape

/-!
# The tokens that the passes keep

The casts are dropped from text that three passes have changed, so what makes a token the type of a
cast is read off the text before them.  Each of the three passes works on the text between two
tokens on its own: it carries over whether the sign of a cast stands in front of a token.

* `KeepsTokens.exists_render`: a pass that works between the tokens keeps them in order.
* `keepsTokens_collapse`, `keepsTokens_lowercase`, `keepsTokens_dropPublicQualifier`: the passes in
  front of the casts.
* `exists_numbers_canonicalMasked`: of the tokens those behind the sign of a cast are dropped.
-/

set_option autoImplicit false

namespace SchemaPlan.Expression

open Text (Rewrites IsLowercaseOf isBlank collapse)

variable {a b s t : List Char} {symbols : List Symbol}

/-! ## Passes between the tokens -/

/-- The numbers of the tokens, apart from those for which `p` holds of the text between them and the
token before. -/
def numbersUnless (p : List Char → Prop) [DecidablePred p] : List Char → List Symbol → List Nat
  | _, [] => []
  | before, .char c :: r => numbersUnless p (before ++ [c]) r
  | before, .token n :: r =>
    if p before then numbersUnless p [] r else n :: numbersUnless p [] r

section Numbers

variable (p : List Char → Prop) [DecidablePred p]

theorem numbersUnless_append (before a : List Char) (symbols : List Symbol) :
    numbersUnless p before (a.map .char ++ symbols) = numbersUnless p (before ++ a) symbols := by
  induction a generalizing before with
  | nil => rw [List.append_nil]; rfl
  | cons c a ih => rw [List.map_cons, List.cons_append, numbersUnless, ih, ← List.append_cons]

theorem numbersUnless_chars (before a : List Char) : numbersUnless p before (a.map .char) = [] := by
  have h := numbersUnless_append p before a []
  rwa [List.append_nil] at h

theorem numbersUnless_token (a : List Char) (n : Nat) (symbols : List Symbol) :
    numbersUnless p [] (a.map .char ++ .token n :: symbols) =
      if p a then numbersUnless p [] symbols else n :: numbersUnless p [] symbols := by
  rw [numbersUnless_append]
  rfl

end Numbers

/-- Masked text is text without marks, or such text with a token behind it. -/
theorem run_induction {P : List Symbol → Prop}
    (chars : ∀ a : List Char, mark ∉ a → P (a.map .char))
    (token : ∀ (a : List Char) n symbols, mark ∉ a → .char mark ∉ symbols → P symbols →
      P (a.map .char ++ .token n :: symbols)) (hclean : .char mark ∉ symbols) : P symbols := by
  suffices hgeneral : ∀ a : List Char, mark ∉ a → P (a.map .char ++ symbols) from
    hgeneral [] List.not_mem_nil
  induction symbols with
  | nil =>
    intro a ha
    rw [List.append_nil]
    exact chars a ha
  | cons x symbols ih =>
    obtain ⟨hx, hrest⟩ := not_or.1 (mt List.mem_cons.2 hclean)
    intro a ha
    cases x with
    | char c =>
      have hchar := ih hrest (a ++ [c]) (by
        rw [List.mem_append, List.mem_singleton, not_or]
        exact ⟨ha, fun hc => hx (hc ▸ rfl)⟩)
      rwa [List.map_append, List.append_assoc] at hchar
    | token n => exact token a n symbols ha hrest (ih hrest [] List.not_mem_nil)

/-- A pass that works on the text between the tokens: it brings in no marks, and `q` holds of what
it makes of the text in front of a token when `p` held of that text. -/
structure KeepsTokens (R : List Char → List Char → Prop) (p q : List Char → Prop) : Prop where
  chars : ∀ {a t}, mark ∉ a → R a t → mark ∉ t
  token : ∀ {a n s t}, mark ∉ a → R (a ++ (marker n ++ s)) t →
    ∃ b u, t = b ++ (marker n ++ u) ∧ mark ∉ b ∧ (p a ↔ q b) ∧ R s u

/-- A pass that works on the text between the tokens keeps them in order. -/
theorem KeepsTokens.exists_render {R : List Char → List Char → Prop} {p q : List Char → Prop}
    [DecidablePred p] [DecidablePred q] (h : KeepsTokens R p q) (hclean : .char mark ∉ symbols)
    (ht : R (render symbols) t) : ∃ symbols', t = render symbols' ∧ .char mark ∉ symbols' ∧
      numbersUnless q [] symbols' = numbersUnless p [] symbols := by
  have hchars : ∀ {a : List Char}, mark ∉ a → Symbol.char mark ∉ a.map Symbol.char := by
    intro a ha hmem
    obtain ⟨c, hc, heq⟩ := List.mem_map.1 hmem
    exact ha (Symbol.char.inj heq ▸ hc)
  refine run_induction (P := fun symbols => ∀ t, R (render symbols) t → ∃ symbols',
    t = render symbols' ∧ .char mark ∉ symbols' ∧
      numbersUnless q [] symbols' = numbersUnless p [] symbols)
    (fun a ha t ht => ?_) (fun a n symbols ha hclean ih t ht => ?_) hclean t ht
  · rw [render_map_char] at ht
    have htext := h.chars ha ht
    refine ⟨t.map .char, (render_map_char t).symm, hchars htext, ?_⟩
    rw [numbersUnless_chars, numbersUnless_chars]
  · rw [render_append, render_map_char, render_cons, Symbol.text] at ht
    obtain ⟨b, u, rfl, hb, hiff, hrest⟩ := h.token ha ht
    obtain ⟨symbols', rfl, hclean', hnumbers⟩ := ih u hrest
    refine ⟨b.map .char ++ .token n :: symbols', ?_, ?_, ?_⟩
    · rw [render_append, render_map_char, render_cons, Symbol.text]
    · rw [List.mem_append, List.mem_cons, not_or, not_or]
      exact ⟨hchars hb, Symbol.noConfusion, hclean'⟩
    · rw [numbersUnless_token, numbersUnless_token, hnumbers]
      by_cases hp : p a
      · rw [if_pos hp, if_pos (hiff.1 hp)]
      · rw [if_neg hp, if_neg (mt hiff.2 hp)]

/-! ## The passes in front of the casts -/

/-- Whether a text ends in the sign of a cast: in two colons, once it is in lower case and has lost
the qualifier `public.`. -/
def OpensCast (before : List Char) : Prop :=
  EndsInCastSign (before.map Char.toLower)

instance : DecidablePred OpensCast :=
  fun before => inferInstanceAs (Decidable (EndsInCastSign (before.map Char.toLower)))

/-- The sign of a cast holds no blanks. -/
theorem opensCast_congr
    (h : ∀ w : List Char, (∀ c ∈ w, isBlank c = false) → (w <:+ b ↔ w <:+ a)) :
    OpensCast a ↔ OpensCast b := by
  have hsign : ∀ c ∈ ":public.".toList, isBlank c = false := by decide
  refine exists_congr fun m => exists_congr fun n => ?_
  rw [List.suffix_map_iff, List.suffix_map_iff]
  refine exists_congr fun w => and_congr_left fun hw => (h w fun c hc => ?_).symm
  have hlower : c.toLower ∈ castSign m n := hw ▸ List.mem_map_of_mem hc
  by_contra hblank
  rw [Text.toLower_of_isBlank (Bool.of_not_eq_false hblank)] at hlower
  exact hblank (hsign c (mem_castSign hlower))

/-- Behind a marker the blanks are collapsed on their own. -/
theorem collapse_marker (n : Nat) (s : List Char) :
    ∃ u, collapse (marker n ++ s) = marker n ++ u ∧ (u = collapse s ∨ u = ' ' :: collapse s) := by
  have hfront : ∀ c ∈ mark :: (toString n).toList, isBlank c = false := fun c hc =>
    isBlank_of_isMarkerChar (isMarkerChar_of_mem_marker (List.mem_append_left [mark] hc))
  have hmark : isBlank mark = false := by decide
  have hword := Text.collapse_word_append hfront hmark s
  rw [List.cons_append, ← marker_append, Text.collapse_cons hmark] at hword
  split at hword
  · exact ⟨_, by rw [hword, marker_append, List.cons_append], .inr rfl⟩
  · exact ⟨_, by rw [hword, marker_append, List.cons_append], .inl rfl⟩

theorem mark_not_mem_collapse (h : mark ∉ a) : mark ∉ collapse a := by
  intro hmark
  rcases Text.mem_collapse hmark with hspace | hmark
  · exact absurd hspace (by decide)
  · exact h hmark

theorem keepsTokens_collapse :
    KeepsTokens (fun s t => t = collapse s ∨ t = ' ' :: collapse s) OpensCast OpensCast where
  chars := by
    rintro a t ha (rfl | rfl)
    · exact mark_not_mem_collapse ha
    · exact List.not_mem_cons_of_ne_of_not_mem (by decide) (mark_not_mem_collapse ha)
  token := by
    intro a n s t ha ht
    -- `x` is what the text in front of the marker becomes, whatever stands behind it
    obtain ⟨x, hcollapse, hlast⟩ := Text.exists_collapse_append a
    obtain ⟨u, hu, hrest⟩ := collapse_marker n s
    have hsplit : collapse (a ++ (marker n ++ s)) = x ++ (marker n ++ u) := by
      rw [← hu]
      exact hcollapse mark _ (by decide)
    have hx : mark ∉ x := by
      have hclean : mark ∉ collapse (a ++ [':']) := by
        apply mark_not_mem_collapse
        rw [List.mem_append, not_or]
        exact ⟨ha, by decide⟩
      rw [hcollapse ':' [] (by decide)] at hclean
      exact fun hmark => hclean (List.mem_append_left _ hmark)
    rcases ht with rfl | rfl
    · exact ⟨x, u, hsplit, hx, opensCast_congr hlast, hrest⟩
    · refine ⟨' ' :: x, u, by rw [hsplit]; rfl, ?_, opensCast_congr fun w hw => ?_, hrest⟩
      · exact List.not_mem_cons_of_ne_of_not_mem (by decide) hx
      · have hspace : ∀ c ∈ [' '].getLast?, isBlank c = true := by
          intro c hc
          obtain rfl : ' ' = c := Option.some.inj hc
          exact Text.isBlank_space
        rw [← hlast w hw]
        exact Text.isSuffix_append_iff hw hspace

theorem mark_not_mem_of_lowercase (h : mark ∉ a) (ht : Rewrites IsLowercaseOf a t) : mark ∉ t := by
  intro hmark
  obtain ⟨c, hc, cs, hcs, hmem⟩ := ht.exists_of_mem hmark
  exact h ((Text.lower_of_isLowercaseOf hcs hmem).2 (.inl (by decide)) ▸ hc)

theorem keepsTokens_lowercase : KeepsTokens (Rewrites IsLowercaseOf) OpensCast EndsInCastSign where
  chars := mark_not_mem_of_lowercase
  token := by
    intro a n s t ha ht
    obtain ⟨b, u, rfl, hb, hu⟩ := ht.of_append
    have hmarker : ∀ c ∈ marker n, ∀ cs, IsLowercaseOf c cs → cs = [c] :=
      fun c hc cs hcs => hcs.eq_singleton (isMarkerChar_sign (isMarkerChar_of_mem_marker hc))
    obtain ⟨u, rfl, hrest⟩ := rewrites_of_kept hmarker hu
    -- the sign of a cast holds no `k`, the one letter with a capital beyond ASCII
    have hsign : ∀ c ∈ ":public.".toList, c.toNat < 0x80 ∧ c ≠ 'k' := by decide
    refine ⟨b, u, rfl, mark_not_mem_of_lowercase ha hb,
      exists_congr fun m => exists_congr fun k => ?_, hrest⟩
    exact (Text.suffix_lowercase_iff hb fun c hc => hsign c (mem_castSign hc)).symm

theorem dropPublicFrom_marker (inWord : Bool) (a : List Char) (n : Nat) (s : List Char) :
    dropPublicFrom 0 inWord (a ++ (marker n ++ s)) =
      dropPublicFrom 0 inWord a ++ (marker n ++ dropPublicQualifier s) := by
  have hsplit : ∀ inWord a b, dropPublicFrom 0 inWord (a ++ mark :: b) =
      dropPublicFrom 0 inWord a ++ mark :: dropPublicFrom 0 false b :=
    dropPublicFrom_append_cons (by decide)
  have hdigits : '.' ∉ (toString n).toList := by
    intro hmem
    exact absurd (Text.isDigit_of_mem_toString hmem) (by decide)
  rw [marker_append, hsplit, hsplit, dropPublicFrom_of_not_mem false hdigits, marker_append,
    dropPublicQualifier]

theorem mark_not_mem_dropPublicQualifier (h : mark ∉ a) : mark ∉ dropPublicQualifier a :=
  fun hmark => h ((dropPublicFrom_sublist false a).subset hmark)

theorem keepsTokens_dropPublicQualifier :
    KeepsTokens (fun s t => t = dropPublicQualifier s) EndsInCastSign ([':', ':'] <:+ ·) where
  chars := by
    rintro a t ha rfl
    exact mark_not_mem_dropPublicQualifier ha
  token := by
    rintro a n s t ha rfl
    exact ⟨dropPublicQualifier a, dropPublicQualifier s, dropPublicFrom_marker false a n s,
      mark_not_mem_dropPublicQualifier ha, ends_in_colons_iff.symm, rfl⟩

/-! ## The tokens of a canonical form -/

theorem numbersOutsideCasts_chars (a : List Char) : numbersOutsideCasts (a.map .char) = [] := by
  induction a with
  | nil => rfl
  | cons c a ih =>
    rw [List.map_cons, numbersOutsideCasts_char, ih]
    intro n back h
    have hmem : Symbol.token n ∈ (c :: a).map Symbol.char := by
      rw [List.map_cons, h]
      simp
    simp at hmem

theorem numbersOutsideCasts_token (a : List Char) (n : Nat) (symbols : List Symbol) :
    numbersOutsideCasts (a.map .char ++ .token n :: symbols) =
      if [':', ':'] <:+ a then numbersOutsideCasts symbols
      else n :: numbersOutsideCasts symbols := by
  induction a with
  | nil => rfl
  | cons c a ih =>
    by_cases hcast : [':', ':'] = c :: a
    · rw [← hcast]
      rfl
    · rw [List.map_cons, List.cons_append, numbersOutsideCasts_char, ih]
      · simp only [List.suffix_cons_iff, hcast, false_or]
      · intro k back h
        match a, h with
        | [d], h => simp_all
        | d :: e :: a, h => simp at h

/-- The casts drop the tokens behind two colons. -/
theorem numbersOutsideCasts_eq (hclean : .char mark ∉ symbols) :
    numbersOutsideCasts symbols = numbersUnless ([':', ':'] <:+ ·) [] symbols := by
  refine run_induction (P := fun symbols =>
    numbersOutsideCasts symbols = numbersUnless ([':', ':'] <:+ ·) [] symbols)
    (fun a _ => ?_) (fun a n symbols _ _ ih => ?_) hclean
  · rw [numbersOutsideCasts_chars, numbersUnless_chars]
  · rw [numbersOutsideCasts_token, numbersUnless_token, ih]

/-- A pass over the characters that leaves markers alone keeps the tokens. -/
theorem exists_render_of_kept {R : Char → List Char → Prop}
    (hkeep : ∀ c cs, isMarkerChar c = true → R c cs → cs = [c])
    (hmark : ∀ c cs, R c cs → mark ∈ cs → c = mark) (hclean : .char mark ∉ symbols)
    (h : Rewrites R (render symbols) t) :
    ∃ symbols', t = render symbols' ∧ .char mark ∉ symbols' ∧
      numbers symbols' = numbers symbols := by
  obtain ⟨symbols', rfl, hsymbols⟩ := exists_render_of_rewrites hkeep h
  refine ⟨symbols', rfl, fun hmem => ?_, hsymbols.filterMap_eq ?_⟩
  · obtain ⟨x, hx, xs, hxs, hmem⟩ := hsymbols.exists_of_mem hmem
    cases hxs with
    | @char c cs hcs =>
      obtain ⟨d, hd, heq⟩ := List.mem_map.1 hmem
      obtain rfl := Symbol.char.inj heq
      exact hclean (hmark c cs hcs hd ▸ hx)
    | token n => simp at hmem
  · rintro _ - _ (@⟨c, cs, -⟩ | ⟨n⟩)
    · simp
    · rfl

theorem exists_render_of_dropped (hclean : .char mark ∉ symbols)
    (h : Rewrites IsDrop (render symbols) t) :
    ∃ symbols', t = render symbols' ∧ .char mark ∉ symbols' ∧
      numbers symbols' = numbers symbols := by
  refine exists_render_of_kept (fun _ _ => IsDrop.keeps) (fun c cs hcs hmark => ?_) hclean h
  cases hcs with
  | keep => exact (List.mem_singleton.1 hmark).symm
  | drop => cases hmark

theorem exists_render_of_spaced (hclean : .char mark ∉ symbols)
    (h : Rewrites IsSpacing (render symbols) t) :
    ∃ symbols', t = render symbols' ∧ .char mark ∉ symbols' ∧
      numbers symbols' = numbers symbols :=
  exists_render_of_kept (fun _ _ => IsSpacing.keeps) (fun _ _ => IsSpacing.mark_mem) hclean h

/-- Of the tokens the passes drop those that stand behind the sign of a cast. -/
theorem exists_numbers_canonicalMasked (hclean : .char mark ∉ symbols) :
    ∃ symbols', canonicalMasked (render symbols) = render symbols' ∧ .char mark ∉ symbols' ∧
      numbers symbols' = numbersUnless OpensCast [] symbols := by
  obtain ⟨collapsed, hcollapsed, hclean₁, hnumbers₁⟩ :=
    keepsTokens_collapse.exists_render hclean (.inl rfl)
  obtain ⟨lower, hlower, hclean₂, hnumbers₂⟩ :=
    keepsTokens_lowercase.exists_render hclean₁ (Text.rewrites_lowercase _)
  obtain ⟨unqualified, hunqualified, hclean₃, hnumbers₃⟩ :=
    keepsTokens_dropPublicQualifier.exists_render hclean₂ rfl
  obtain ⟨uncast, huncast, hsub, hnumbers₄⟩ := exists_dropCasts hclean₃
  obtain ⟨atoms, hatoms, hclean₅, hnumbers₅⟩ :=
    exists_render_of_dropped (fun hmark => hclean₃ (hsub.subset hmark)) (rewrites_dropParens _)
  have huntidied : untidied (render symbols) = render atoms := by
    rw [untidied, stripped, hcollapsed, hlower, hunqualified, huncast, hatoms]
  have hblanks : ∀ c ∈ render atoms, isBlank c = true → c = ' ' := huntidied ▸ blanks_untidied
  have hspaced : Rewrites IsSpacing (render atoms) (tidied false (render atoms)) :=
    rewrites_tidied hblanks
  obtain ⟨tidy, htidy, hclean₆, hnumbers₆⟩ := exists_render_of_spaced hclean₅ hspaced
  obtain ⟨bare, hbare, hclean₇, hnumbers₇⟩ :=
    exists_render_of_dropped hclean₆ (rewrites_stripOuter _)
  refine ⟨bare, ?_, hclean₇, ?_⟩
  · rw [canonicalMasked_eq, huntidied, tidy_eq, htidy, hbare]
  · rw [hnumbers₇, hnumbers₆, hnumbers₅, hnumbers₄, numbersOutsideCasts_eq hclean₃, hnumbers₃,
      hnumbers₂, hnumbers₁]

end SchemaPlan.Expression
