import SchemaPlan.Proofs.Expression.Shape

/-!
# Canonical forms that are final

Every pass runs once, and a later one can leave work for an earlier one: dropping a cast leaves two
spaces, and a name that loses its quotes can turn into a qualifier.  A canonical form is final
exactly when nothing of the kind happened.

* `canonicalMasked_eq_self`: the passes keep reduced text.
* `isReduced_of_solid`: text that they keep is reduced.  None of them adds a character but spaces,
  so what one of them drops is missed in the end.
* `canonical_canonical_iff`: the canonical form of a canonical form is that form exactly when it is
  reduced.
* `cast_leaves_spaces`: a canonical form that is not.
-/

set_option autoImplicit false

namespace SchemaPlan.Expression

open Text (Rewrites IsSettled isBlank isWordChar)

theorem trim_append_pad {m : List Char} (h : IsShaped m) : Text.trim (m ++ pad m) = m := by
  have hpad : ∀ c ∈ pad m, isBlank c = true := by
    unfold pad
    split
    · exact List.forall_mem_singleton.2 Text.isBlank_space
    · exact List.forall_mem_nil _
  rw [Text.trim_append_of_blank hpad]
  refine Text.trim_eq_self (fun c hc => ?_) fun c hc => ?_
  · rw [Bool.eq_false_iff]
    intro hblank
    exact h.start (by rw [hc, h.blanks c (List.mem_of_head? hc) hblank])
  · rw [Bool.eq_false_iff]
    intro hblank
    exact h.stop (by rw [hc, h.blanks c (List.mem_of_getLast? hc) hblank])

theorem stripOuter_append_pad {m : List Char} (h : IsShaped m) : stripOuter (m ++ pad m) = m := by
  have htrim := trim_append_pad h
  rw [stripOuter]
  split
  · rename_i inner hinner
    rw [htrim, h.bare] at hinner
    cases hinner
  · exact htrim

theorem collapse_of_isShaped {m : List Char} (h : IsShaped m)
    (hsingle : ∀ a b, m = a ++ ' ' :: b → b.head? ≠ some ' ') : Text.collapse m = m := by
  rw [collapse_eq_trimStart h.blanks hsingle h.stop]
  cases m with
  | nil => rfl
  | cons c r =>
    refine List.dropWhile_cons_of_neg fun hblank => h.start ?_
    rw [h.blanks c List.mem_cons_self hblank]
    rfl

/-- Nothing is left to do on reduced text. -/
theorem canonicalMasked_eq_self {m : List Char} (h : IsShaped m) (hreduced : IsReduced m) :
    canonicalMasked m = m := by
  have hcollapse : Text.collapse m = m :=
    collapse_of_isShaped h fun a b hab => (hreduced.spaces a b hab).1
  have hlower : Text.lowercase m = m := Text.lowercase_of_settled h.settled
  have hregular : ∀ a b, [] ++ m = a ++ ' ' :: b → KeepsSpace a b :=
    fun a b hab => (hreduced.spaces a b hab).2
  have htidy : tidy m = m ++ pad m := by
    rw [tidy_eq]
    exact (tidies_tidied h.commas).eq_append_pad (fun _ => by simp) hregular
  rw [canonicalMasked_eq, untidied, hcollapse, hlower, hreduced.stripped_eq, htidy,
    stripOuter_append_pad h]

theorem flatMap_unquoted {lexemes : List Lexeme}
    (h : ∀ token, .quoted token ∈ lexemes → unquoteName token = token) :
    lexemes.flatMap Lexeme.unquoted = spell lexemes := by
  induction lexemes with
  | nil => rfl
  | cons lexeme r ih =>
    have hr := ih fun token htoken => h token (List.mem_cons_of_mem _ htoken)
    rw [List.flatMap_cons, hr]
    cases lexeme with
    | char c => rfl
    | quoted token => rw [Lexeme.unquoted, h token List.mem_cons_self, spell]

theorem canonicalChars_of_isReduced {s : List Char} (h : IsReread s)
    (hreduced : IsReduced (mask (lexemes s))) : canonicalChars s = s := by
  rw [canonicalChars, canonicalMasked_eq_self h.shaped hreduced, unmask_mask h.clean,
    flatMap_unquoted h.kept, spell_lexemes]

/-! ## Final text is reduced -/

theorem solid_collapse {m : List Char} (h : IsShaped m) : solid (Text.collapse m) = solid m :=
  solid_of_isSpacing h.blanks (rewrites_collapse m)

theorem lowercase_collapse {m : List Char} (h : IsShaped m) :
    Text.lowercase (Text.collapse m) = Text.collapse m := by
  refine Text.lowercase_of_settled fun c hc => ?_
  rcases Text.mem_collapse hc with rfl | hc
  · decide
  · exact h.settled c hc

/-- When no character but spaces is lost, the passes collapse, tidy and trim only. -/
theorem isStripped_of_canonicalMasked {m : List Char} (h : IsShaped m)
    (hsolid : solid (canonicalMasked m) = solid m) : IsStripped (Text.collapse m) ∧
      canonicalMasked m = Text.trim (tidied false (Text.collapse m)) := by
  have htidied : solid (tidied false (untidied m)) = solid (untidied m) :=
    solid_of_isSpacing blanks_untidied (rewrites_tidied blanks_untidied)
  have hstripped : untidied m = stripped (Text.collapse m) := by
    rw [untidied, lowercase_collapse h]
  have hbare : canonicalMasked m = stripOuter (tidied false (untidied m)) := by
    rw [canonicalMasked_eq, tidy_eq]
  -- what is solid is kept by all passes, since it is kept by them together
  have houter := solid_sublist (sublist_of_isDrop (rewrites_stripOuter (tidied false (untidied m))))
  have hinner := solid_sublist (stripped_sublist (Text.collapse m))
  rw [← hbare, hsolid, htidied, hstripped, ← solid_collapse h] at houter
  have hall : solid (stripped (Text.collapse m)) = solid (Text.collapse m) := hinner.antisymm houter
  have hcollapsed := isStripped_of_solid hall
  rw [hcollapsed.stripped_eq] at hstripped
  refine ⟨hcollapsed, ?_⟩
  rw [hbare, hstripped]
  refine stripOuter_of_solid ?_
  rw [← hstripped, ← hbare, hsolid, htidied, hstripped, solid_collapse h]

/-- Text that is final is reduced: none of its characters but spaces could have been dropped, and
none of its spaces. -/
theorem isReduced_of_solid {m : List Char} (h : IsShaped m)
    (hsolid : solid (canonicalMasked m) = solid m)
    (hlength : (canonicalMasked m).length = m.length) : IsReduced m := by
  obtain ⟨hcollapsed, htrim⟩ := isStripped_of_canonicalMasked h hsolid
  have hchain := isChain_collapse h.commas
  have hle := Text.length_collapse_le m
  have hshort := (length_trim_tidied hchain).1
  rw [htrim] at hlength
  have hsingle : ∀ a b, m = a ++ ' ' :: b → b.head? ≠ some ' ' := by
    intro a b hab hhead
    have hlt := length_collapse_lt hab hhead
    omega
  have hself := collapse_of_isShaped h hsingle
  rw [hself] at hcollapsed hchain hlength
  have hkept := (length_trim_tidied hchain).2 hlength.ge
  have hspaces : ∀ a b, m = a ++ ' ' :: b → KeepsSpace ([] ++ a) b :=
    (tidies_tidied hchain).keepsSpace (by simp) hkept
  exact ⟨hcollapsed, fun a b hab => ⟨hsingle a b hab, hspaces a b hab⟩⟩

/-! ## Spellings -/

section Spellings

variable {f : Symbol → List Char} {symbols symbols' : List Symbol}

theorem solidSymbols_cons {x : Symbol} (hx : x ≠ .char ' ') (symbols : List Symbol) :
    solidSymbols (x :: symbols) = x :: solidSymbols symbols :=
  List.filter_cons_of_pos (by simpa using hx)

theorem solidSymbols_space (symbols : List Symbol) :
    solidSymbols (.char ' ' :: symbols) = solidSymbols symbols :=
  rfl

theorem solid_flatMap (hspace : f (.char ' ') = [' ']) (symbols : List Symbol) :
    solid (symbols.flatMap f) = (solidSymbols symbols).flatMap fun x => solid (f x) := by
  induction symbols with
  | nil => rfl
  | cons x symbols ih =>
    rw [List.flatMap_cons, solid, List.filter_append, ← solid, ← solid, ih]
    by_cases hx : x = .char ' '
    · rw [hx, hspace, solidSymbols_space]
      rfl
    · rw [solidSymbols_cons hx, List.flatMap_cons]

theorem length_flatMap_eq (hspace : f (.char ' ') = [' ']) (symbols : List Symbol) :
    (symbols.flatMap f).length =
      ((solidSymbols symbols).flatMap f).length + symbols.count (.char ' ') := by
  induction symbols with
  | nil => rfl
  | cons x symbols ih =>
    rw [List.flatMap_cons, List.length_append, ih]
    by_cases hx : x = .char ' '
    · rw [hx, hspace, List.count_cons_self, solidSymbols_space, List.length_singleton]
      omega
    · rw [solidSymbols_cons hx, List.flatMap_cons, List.length_append, List.count_cons_of_ne hx]
      omega

/-- Symbols that are dropped are missed in the spelling. -/
theorem eq_of_length_flatMap (h : symbols'.Sublist symbols) (hf : ∀ x ∈ symbols, f x ≠ [])
    (hlength : (symbols.flatMap f).length ≤ (symbols'.flatMap f).length) : symbols' = symbols := by
  have hle : ∀ {symbols symbols' : List Symbol}, symbols'.Sublist symbols →
      (symbols'.flatMap f).length ≤ (symbols.flatMap f).length := by
    intro symbols symbols' h
    induction h with
    | slnil => exact Nat.le_refl _
    | cons x _ ih =>
      rw [List.flatMap_cons, List.length_append]
      omega
    | cons_cons x _ ih =>
      rw [List.flatMap_cons, List.flatMap_cons, List.length_append, List.length_append]
      omega
  induction h with
  | slnil => rfl
  | cons x h ih =>
    have hx := List.length_pos_iff.2 (hf x List.mem_cons_self)
    have hrest := hle h
    rw [List.flatMap_cons, List.length_append] at hlength
    omega
  | cons_cons x h ih =>
    rw [List.flatMap_cons, List.flatMap_cons, List.length_append, List.length_append] at hlength
    rw [ih (fun y hy => hf y (List.mem_cons_of_mem x hy)) (by omega)]

end Spellings

/-- A token is not spelled with spaces only. -/
theorem solid_spelling_ne_nil {tokens : List (List Char)} {symbols : List Symbol}
    (h : IsSound tokens symbols) :
    ∀ x ∈ solidSymbols symbols, solid (x.spelling tokens) ≠ [] := by
  intro x hx
  obtain ⟨hx, hspace⟩ := List.mem_filter.1 hx
  suffices hsome : ∃ c ∈ x.spelling tokens, c ≠ ' ' by
    obtain ⟨c, hc, hne⟩ := hsome
    exact List.ne_nil_of_mem (List.mem_filter.2 ⟨hc, by simpa using hne⟩)
  cases x with
  | char c => exact ⟨c, List.mem_singleton_self c, by simpa using hspace⟩
  | token n =>
    obtain ⟨token, htoken, hkind⟩ := h.known hx
    rw [Symbol.spelling, htoken, Option.getD_some]
    obtain ⟨q, r, hq, rfl⟩ : ∃ q r, isQuote q = true ∧ token = q :: r := by
      rcases hkind with ⟨q, x, hq, rfl⟩ | ⟨q, x, hq, rfl⟩
      · exact ⟨q, _, hq, rfl⟩
      · exact ⟨q, _, hq, rfl⟩
    rcases unquoteName_cases (q :: r) with hkept | hname
    · refine ⟨q, by rw [hkept]; exact List.mem_cons_self, ?_⟩
      rintro rfl
      exact absurd hq (by decide)
    · obtain ⟨c, t, ht⟩ : ∃ c t, unquoteName (q :: r) = c :: t := by
        cases hunquoted : unquoteName (q :: r) with
        | nil =>
          rw [hunquoted] at hname
          cases hname
        | cons c t => exact ⟨c, t, rfl⟩
      refine ⟨c, by rw [ht]; exact List.mem_cons_self, ?_⟩
      rintro rfl
      exact absurd (isNameChar_of_isSimpleName hname ' ' (by rw [ht]; exact List.mem_cons_self))
        (by decide)

/-- A text that is its own canonical form is reduced. -/
theorem isReduced_of_canonicalChars {s : List Char} (h : IsReread s) (heq : canonicalChars s = s) :
    IsReduced (mask (lexemes s)) := by
  have hsound := isSound_number h.clean
  obtain ⟨final, hfinal, hsound', hsub⟩ := hsound.exists_canonicalMasked
  rw [← mask_eq_render] at hfinal hsub
  replace hsub := hsub h.shaped
  have hspelling : final.flatMap (Symbol.spelling (tokens (lexemes s))) =
      (number 0 (lexemes s)).flatMap (Symbol.spelling (tokens (lexemes s))) := by
    have hfrom : canonicalChars s = final.flatMap (Symbol.spelling (tokens (lexemes s))) := by
      rw [canonicalChars, hfinal, unmask_render hsound'.clean]
    have hto := flatMap_spelling_number [] (lexemes s)
    rw [flatMap_unquoted h.kept, spell_lexemes] at hto
    exact hfrom.symm.trans (heq.trans hto.symm)
  -- every symbol but a space adds to the spelling, so all of them are left
  have hsolid : solidSymbols final = solidSymbols (number 0 (lexemes s)) := by
    refine eq_of_length_flatMap hsub (solid_spelling_ne_nil hsound) (Nat.le_of_eq ?_)
    rw [← solid_flatMap rfl, ← solid_flatMap rfl, hspelling]
  have hspaces : final.count (.char ' ') = (number 0 (lexemes s)).count (.char ' ') := by
    have hlength := fun symbols => length_flatMap_eq
      (f := Symbol.spelling (tokens (lexemes s))) rfl symbols
    have hcount := hlength final
    rw [hspelling, hlength, hsolid] at hcount
    omega
  refine isReduced_of_solid h.shaped ?_ ?_
  · rw [hfinal, mask_eq_render, render, solid_flatMap rfl, hsolid, ← solid_flatMap rfl, render]
  · rw [hfinal, mask_eq_render, render, length_flatMap_eq rfl, hsolid, hspaces,
      ← length_flatMap_eq rfl]
    rfl

/-! ## Repeated canonical forms -/

/-- **The canonical form of a canonical form is that form again exactly when it is reduced**: when
no space, no qualifier, no cast and no parentheses around an operand are left for the passes. -/
theorem canonical_canonical_iff {expression : String}
    (h : .char mark ∉ lexemes expression.toList) :
    canonical (canonical expression) = canonical expression ↔
      IsReduced (mask (lexemes (canonical expression).toList)) := by
  have hreread : IsReread (canonical expression).toList := by
    rw [canonical, String.toList_ofList]
    exact isReread_canonicalChars h
  have hiff : canonical (canonical expression) = canonical expression ↔
      canonicalChars (canonical expression).toList = (canonical expression).toList := by
    rw [← String.toList_inj]
    conv_lhs => lhs; rw [canonical, String.toList_ofList]
  rw [hiff]
  exact ⟨isReduced_of_canonicalChars hreread, canonicalChars_of_isReduced hreread⟩

/-- A call on a cast name. -/
theorem canonical_canonical_iff_lower :
    canonical "LOWER((\"name\")::text) = 'X'" = "lower(name) = 'X'" ∧
      canonical (canonical "LOWER((\"name\")::text) = 'X'") =
        canonical "LOWER((\"name\")::text) = 'X'" :=
  ⟨by decide +kernel, (canonical_canonical_iff (by decide +kernel)).2 (by decide +kernel)⟩

/-- **A cast behind a space leaves two spaces**, which a second run collapses. -/
theorem cast_leaves_spaces :
    canonical "a ::text = b" = "a  = b" ∧ canonical (canonical "a ::text = b") = "a = b" := by
  decide +kernel

end SchemaPlan.Expression
