import Mathlib.Data.List.Chain
import SchemaPlan.Expression.Canonical
import SchemaPlan.Proofs.Text.Blank
import SchemaPlan.Proofs.Text.Occurrence
import SchemaPlan.Proofs.Text.Rewriting

/-!
# Regular blanks

Collapsing and tidying touch blanks only.  Tidying is five replacements one after the other, which
come to one pass from left to right (`tidy_eq`): it drops one space behind an opening parenthesis or
a comma and one in front of a closing parenthesis or a comma, and writes a space behind every comma.

* `rewrites_collapse`, `rewrites_tidied`: all other characters are kept.
* `isChain_tidied`: every comma of tidied text that does not end it has a space behind it.
* `Tidies.eq_append_pad`, `Tidies.keepsSpace`: text is kept exactly when it is spaced regularly.
* `length_trim_tidied`: text with regular commas gets no longer, and text that gets no shorter is
  kept.
-/

set_option autoImplicit false

namespace SchemaPlan.Expression

open Text (Rewrites isBlank collapse words replaceAll)

/-! ## One pass -/

/-- Tidies text in one pass.  `skip` tells whether a space in front is dropped. -/
def tidied : Bool → List Char → List Char
  | _, [] => []
  | skip, c :: r =>
    if c = ' ' then
      if skip || r.head? == some ')' || r.head? == some ',' then tidied false r
      else ' ' :: tidied false r
    else if c = ',' then ',' :: ' ' :: tidied true r
    else c :: tidied (c == '(') r

/-- Drops the spaces behind opening parentheses. -/
def tidyOpen (s : List Char) : List Char :=
  replaceAll ['(', ' '] ['('] s

/-- Drops the spaces in front of closing parentheses and commas. -/
def tidyBefore (s : List Char) : List Char :=
  replaceAll [' ', ','] [','] (replaceAll [' ', ')'] [')'] s)

/-- Writes one space behind every comma. -/
def tidyComma (s : List Char) : List Char :=
  replaceAll [',', ' ', ' '] [',', ' '] (replaceAll [','] [',', ' '] s)

variable {c : Char} {r s : List Char}

theorem tidyOpen_space (r : List Char) : tidyOpen ('(' :: ' ' :: r) = '(' :: tidyOpen r :=
  Text.replaceAll_append (by simp) _ _

theorem tidyOpen_cons (h : c = '(' → r.head? ≠ some ' ') : tidyOpen (c :: r) = c :: tidyOpen r := by
  refine Text.replaceAll_cons (fun rest heq => ?_) _
  simp only [List.cons_append, List.nil_append, List.cons.injEq] at heq
  exact h heq.1 (by rw [heq.2]; rfl)

theorem head?_tidyOpen (s : List Char) : (tidyOpen s).head? = s.head? := by
  cases s with
  | nil => rfl
  | cons c r =>
    by_cases h : c = '(' → r.head? ≠ some ' '
    · rw [tidyOpen_cons h]
      rfl
    · obtain ⟨rfl, hspace⟩ := Classical.not_imp.1 h
      obtain ⟨t, rfl⟩ := List.head?_eq_some_iff.1 (not_not.1 hspace)
      rw [tidyOpen_space]
      rfl

/-- A character in front of which a space is dropped. -/
def bindsSpace (c : Option Char) : Bool :=
  c == some ')' || c == some ','

theorem tidyBefore_drop (h : bindsSpace r.head? = true) : tidyBefore (' ' :: r) = tidyBefore r := by
  unfold bindsSpace at h
  rw [Bool.or_eq_true, beq_iff_eq, beq_iff_eq] at h
  unfold tidyBefore
  rcases h with h | h
  · obtain ⟨t, rfl⟩ := List.head?_eq_some_iff.1 h
    have hclose : replaceAll [' ', ')'] [')'] (')' :: t) =
        ')' :: replaceAll [' ', ')'] [')'] t := by
      exact Text.replaceAll_cons (by simp) _
    have hspace : replaceAll [' ', ')'] [')'] (' ' :: ')' :: t) =
        ')' :: replaceAll [' ', ')'] [')'] t :=
      Text.replaceAll_append (by simp) _ _
    rw [hspace, hclose]
  · obtain ⟨t, rfl⟩ := List.head?_eq_some_iff.1 h
    have hcomma : replaceAll [' ', ')'] [')'] (',' :: t) =
        ',' :: replaceAll [' ', ')'] [')'] t := by
      exact Text.replaceAll_cons (by simp) _
    have hspace : replaceAll [' ', ')'] [')'] (' ' :: ',' :: t) =
        ' ' :: replaceAll [' ', ')'] [')'] (',' :: t) := by
      exact Text.replaceAll_cons (by simp) _
    have hdrop : ∀ t, replaceAll [' ', ','] [','] (' ' :: ',' :: t) =
        ',' :: replaceAll [' ', ','] [','] t :=
      fun t => Text.replaceAll_append (by simp) _ _
    have hkeep : ∀ t, replaceAll [' ', ','] [','] (',' :: t) =
        ',' :: replaceAll [' ', ','] [','] t :=
      fun t => Text.replaceAll_cons (by simp) _
    rw [hspace, hcomma, hdrop, hkeep]

theorem tidyBefore_cons (h : c = ' ' → bindsSpace r.head? = false) :
    tidyBefore (c :: r) = c :: tidyBefore r := by
  have hclose : replaceAll [' ', ')'] [')'] (c :: r) = c :: replaceAll [' ', ')'] [')'] r := by
    refine Text.replaceAll_cons (fun rest heq => ?_) _
    simp only [List.cons_append, List.nil_append, List.cons.injEq] at heq
    have hbinds := h heq.1
    rw [heq.2] at hbinds
    cases hbinds
  unfold tidyBefore
  rw [hclose]
  refine Text.replaceAll_cons (fun rest heq => ?_) _
  simp only [List.cons_append, List.nil_append, List.cons.injEq] at heq
  have hbinds := h heq.1
  cases r with
  | nil => cases heq.2
  | cons d t =>
    by_cases hd : ∀ u, d :: t ≠ [' ', ')'] ++ u
    · rw [Text.replaceAll_cons hd, List.cons.injEq] at heq
      rw [heq.2.1] at hbinds
      cases hbinds
    · obtain ⟨u, hu⟩ := not_forall.1 hd
      rw [not_not.1 hu, Text.replaceAll_append (by simp)] at heq
      cases heq.2

theorem tidyComma_space (r : List Char) :
    tidyComma (',' :: ' ' :: r) = ',' :: ' ' :: tidyComma r := by
  have hspace : replaceAll [','] [',', ' '] (' ' :: r) = ' ' :: replaceAll [','] [',', ' '] r :=
    Text.replaceAll_cons (by simp) _
  have hcomma : replaceAll [','] [',', ' '] (',' :: ' ' :: r) =
      [',', ' '] ++ replaceAll [','] [',', ' '] (' ' :: r) :=
    Text.replaceAll_append (by simp) _ _
  unfold tidyComma
  rw [hcomma, hspace]
  exact Text.replaceAll_append (by simp) _ _

theorem tidyComma_cons (hc : c ≠ ',') : tidyComma (c :: r) = c :: tidyComma r := by
  unfold tidyComma
  rw [Text.replaceAll_cons (by simp [hc]), Text.replaceAll_cons (by simp [hc])]

theorem head?_replaceComma (h : r.head? ≠ some ' ') :
    (replaceAll [','] [',', ' '] r).head? ≠ some ' ' := by
  cases r with
  | nil => exact h
  | cons d t =>
    by_cases hd : d = ','
    · have hcomma : replaceAll [','] [',', ' '] (',' :: t) =
          [',', ' '] ++ replaceAll [','] [',', ' '] t :=
        Text.replaceAll_append (by simp) _ _
      rw [hd, hcomma]
      simp
    · rw [Text.replaceAll_cons (by simp [hd])]
      exact h

theorem tidyComma_comma (h : r.head? ≠ some ' ') :
    tidyComma (',' :: r) = ',' :: ' ' :: tidyComma r := by
  have hcomma : replaceAll [','] [',', ' '] (',' :: r) =
      [',', ' '] ++ replaceAll [','] [',', ' '] r :=
    Text.replaceAll_append (by simp) _ _
  have hhead := head?_replaceComma h
  unfold tidyComma
  rw [hcomma, List.cons_append, List.cons_append, List.nil_append, Text.replaceAll_cons ?_,
    Text.replaceAll_cons (by simp)]
  intro rest heq
  simp only [List.cons_append, List.nil_append, List.cons.injEq] at heq
  rw [heq.2.2] at hhead
  exact hhead rfl

theorem head?_tidyBefore (h : s.head? ≠ some ' ') : (tidyBefore s).head? = s.head? := by
  cases s with
  | nil => rfl
  | cons c r =>
    rw [tidyBefore_cons (fun hc => absurd (by rw [hc]; rfl) h)]
    rfl

/-- A comma is written with one space behind it, whether one follows or not. -/
theorem tidyComma_tidyBefore_space (r : List Char) :
    tidyComma (',' :: tidyBefore (' ' :: r)) = ',' :: ' ' :: tidyComma (tidyBefore r) := by
  cases hdrop : bindsSpace r.head? with
  | true =>
    have hhead : r.head? ≠ some ' ' := by
      intro hspace
      rw [hspace] at hdrop
      cases hdrop
    rw [tidyBefore_drop hdrop, tidyComma_comma (by rwa [head?_tidyBefore hhead])]
  | false => rw [tidyBefore_cons (fun _ => hdrop), tidyComma_space]

/-! ### Character by character -/

theorem tidy_space (r : List Char) :
    tidy (' ' :: r) = if bindsSpace r.head? = true then tidy r else ' ' :: tidy r := by
  show tidyComma (tidyBefore (tidyOpen (' ' :: r))) = _
  rw [tidyOpen_cons (fun h => absurd h (by decide)), ← head?_tidyOpen r]
  split
  · rename_i hbinds
    rw [tidyBefore_drop hbinds]
    rfl
  · rename_i hbinds
    rw [tidyBefore_cons (fun _ => Bool.eq_false_iff.2 hbinds), tidyComma_cons (by decide)]
    rfl

theorem tidy_comma_space (r : List Char) : tidy (',' :: ' ' :: r) = ',' :: ' ' :: tidy r := by
  show tidyComma (tidyBefore (tidyOpen (',' :: ' ' :: r))) = _
  rw [tidyOpen_cons (fun h => absurd h (by decide)), tidyOpen_cons (fun h => absurd h (by decide)),
    tidyBefore_cons (fun h => absurd h (by decide)), tidyComma_tidyBefore_space]
  rfl

theorem tidy_comma (h : r.head? ≠ some ' ') : tidy (',' :: r) = ',' :: ' ' :: tidy r := by
  have hopen : (tidyOpen r).head? ≠ some ' ' := by rwa [head?_tidyOpen]
  show tidyComma (tidyBefore (tidyOpen (',' :: r))) = _
  rw [tidyOpen_cons (fun h => absurd h (by decide)),
    tidyBefore_cons (fun h => absurd h (by decide)),
    tidyComma_comma (by rwa [head?_tidyBefore hopen])]
  rfl

theorem tidy_open_space (r : List Char) : tidy ('(' :: ' ' :: r) = '(' :: tidy r := by
  show tidyComma (tidyBefore (tidyOpen ('(' :: ' ' :: r))) = _
  rw [tidyOpen_space, tidyBefore_cons (fun h => absurd h (by decide)), tidyComma_cons (by decide)]
  rfl

theorem tidy_cons (hspace : c ≠ ' ') (hcomma : c ≠ ',') (hopen : c = '(' → r.head? ≠ some ' ') :
    tidy (c :: r) = c :: tidy r := by
  show tidyComma (tidyBefore (tidyOpen (c :: r))) = _
  rw [tidyOpen_cons hopen, tidyBefore_cons (fun h => absurd h hspace), tidyComma_cons hcomma]
  rfl

theorem tidied_space (r : List Char) : tidied true (' ' :: r) = tidied false r := by
  simp [tidied]

theorem tidied_true (h : s.head? ≠ some ' ') : tidied true s = tidied false s := by
  cases s with
  | nil => rfl
  | cons c r =>
    have hc : c ≠ ' ' := fun heq => h (by rw [heq]; rfl)
    rw [tidied, tidied, if_neg hc, if_neg hc]

theorem tidied_cons (hspace : c ≠ ' ') (hcomma : c ≠ ',') (hopen : c = '(' → r.head? ≠ some ' ') :
    tidied false (c :: r) = c :: tidied false r := by
  rw [tidied, if_neg hspace, if_neg hcomma]
  cases hparen : c == '(' with
  | false => rfl
  | true => rw [tidied_true (hopen (beq_iff_eq.1 hparen))]

/-- Tidying is one pass. -/
theorem tidy_eq (s : List Char) : tidy s = tidied false s := by
  induction hn : s.length using Nat.strongRecOn generalizing s with
  | ind n ih =>
    cases s with
    | nil => rfl
    | cons c r =>
      rw [List.length_cons] at hn
      have hrest : tidy r = tidied false r := ih r.length (by omega) r rfl
      have hskip : ∀ t, r = ' ' :: t → tidy t = tidied false t := by
        rintro t rfl
        rw [List.length_cons] at hn
        exact ih t.length (by omega) t rfl
      by_cases hspace : c = ' '
      · subst hspace
        rw [tidy_space, hrest, tidied, if_pos rfl, Bool.false_or]
        rfl
      · by_cases hcomma : c = ','
        · subst hcomma
          rw [tidied, if_neg hspace, if_pos rfl]
          by_cases hhead : r.head? = some ' '
          · obtain ⟨t, rfl⟩ := List.head?_eq_some_iff.1 hhead
            rw [tidy_comma_space, tidied_space, hskip t rfl]
          · rw [tidy_comma hhead, tidied_true hhead, hrest]
        · by_cases hopen : c = '(' ∧ r.head? = some ' '
          · obtain ⟨rfl, hhead⟩ := hopen
            obtain ⟨t, rfl⟩ := List.head?_eq_some_iff.1 hhead
            show tidy _ = '(' :: tidied true (' ' :: t)
            rw [tidy_open_space, tidied_space, hskip t rfl]
          · have hhead : c = '(' → r.head? ≠ some ' ' := fun heq hhead => hopen ⟨heq, hhead⟩
            rw [tidy_cons hspace hcomma hhead, tidied_cons hspace hcomma hhead, hrest]

/-! ## Blanks and commas -/

/-- A blank becomes a space or nothing, a comma may get a space, and all else is kept. -/
inductive IsSpacing (c : Char) : List Char → Prop where
  | keep (h : isBlank c = false) : IsSpacing c [c]
  | space (h : isBlank c = true) : IsSpacing c [' ']
  | drop (h : isBlank c = true) : IsSpacing c []
  | comma (h : c = ',') : IsSpacing c [',', ' ']

theorem rewrites_collapse (s : List Char) : Rewrites IsSpacing s (collapse s) := by
  -- a blank in front is dropped, or it becomes the space behind a word
  suffices hboth : Rewrites IsSpacing s (collapse s) ∧
      (s.head?.any isBlank = true → Rewrites IsSpacing s (' ' :: collapse s)) from hboth.1
  induction s with
  | nil => exact ⟨.nil, fun h => by simp at h⟩
  | cons c r ih =>
    cases hc : isBlank c with
    | true =>
      rw [Text.collapse_cons_blank hc]
      exact ⟨.drop (.drop hc) ih.1, fun _ => .cons (.space hc) ih.1⟩
    | false =>
      refine ⟨?_, fun h => by simp [hc] at h⟩
      rw [Text.collapse_cons hc]
      split
      · rename_i hblank
        exact .keep (.keep hc) (ih.2 hblank.1)
      · exact .keep (.keep hc) ih.1

theorem rewrites_tidied {skip : Bool} (h : ∀ c ∈ s, isBlank c = true → c = ' ') :
    Rewrites IsSpacing s (tidied skip s) := by
  induction s generalizing skip with
  | nil => exact .nil
  | cons c r ih =>
    obtain ⟨hc, hr⟩ := List.forall_mem_cons.1 h
    rw [tidied]
    split
    · rename_i hspace
      subst hspace
      split
      · exact .drop (.drop Text.isBlank_space) (ih hr)
      · exact .cons (.space Text.isBlank_space) (ih hr)
    · rename_i hspace
      split
      · rename_i hcomma
        exact .cons (.comma hcomma) (ih hr)
      · exact .keep (.keep (Bool.eq_false_iff.2 fun hblank => hspace (hc hblank))) (ih hr)

/-- Spacing brings in nothing but spaces. -/
theorem IsSpacing.mem {cs : List Char} {d : Char} (h : IsSpacing c cs) (hd : d ∈ cs) :
    d = ' ' ∨ d = c ∧ isBlank c = false := by
  cases h with
  | keep hc => exact .inr ⟨List.mem_singleton.1 hd, hc⟩
  | space => exact .inl (List.mem_singleton.1 hd)
  | drop => cases hd
  | comma hc =>
    subst hc
    rcases List.mem_pair.1 hd with rfl | rfl
    · exact .inr ⟨rfl, by decide⟩
    · exact .inl rfl

theorem mem_of_rewrites_isSpacing {t : List Char} {d : Char} (h : Rewrites IsSpacing s t)
    (hd : d ∈ t) : d = ' ' ∨ d ∈ s ∧ isBlank d = false := by
  obtain ⟨c, hc, cs, hcs, hmem⟩ := h.exists_of_mem hd
  rcases hcs.mem hmem with rfl | ⟨rfl, hblank⟩
  · exact .inl rfl
  · exact .inr ⟨hc, hblank⟩

/-- What stands behind a comma is a space. -/
def Spaced (c d : Char) : Prop :=
  c = ',' → d = ' '

theorem isChain_tidied (skip : Bool) (s : List Char) : (tidied skip s).IsChain Spaced := by
  have hcons : ∀ {c : Char} {t : List Char}, c ≠ ',' → t.IsChain Spaced →
      (c :: t).IsChain Spaced :=
    fun hc ht => List.isChain_cons.2 ⟨fun _ _ h => absurd h hc, ht⟩
  induction s generalizing skip with
  | nil => exact .nil
  | cons c r ih =>
    rw [tidied]
    split
    · split
      · exact ih false
      · exact hcons (by decide) (ih false)
    · split
      · exact .cons_cons (fun _ => rfl) (hcons (by decide) (ih true))
      · rename_i hcomma
        exact hcons hcomma (ih _)

/-! ## Text that is spaced regularly -/

/-- The space that tidying writes behind a comma at the end. -/
def pad (s : List Char) : List Char :=
  if s.getLast? = some ',' then [' '] else []

theorem pad_cons (hc : c ≠ ',') (r : List Char) : pad (c :: r) = pad r := by
  cases r with
  | nil => simp [pad, hc]
  | cons d r => rw [pad, List.getLast?_cons_cons, pad]

theorem pad_comma_space (r : List Char) : pad (',' :: ' ' :: r) = pad r := by
  rw [pad, List.getLast?_cons_cons, ← pad, pad_cons (by decide)]

/-- A space that tidying keeps: it stands behind a comma, or neither behind an opening parenthesis
nor in front of a closing one or a comma. -/
def KeepsSpace (a b : List Char) : Prop :=
  a.getLast? = some ',' ∨ a.getLast? ≠ some '(' ∧ bindsSpace b.head? = false

instance (a b : List Char) : Decidable (KeepsSpace a b) :=
  inferInstanceAs (Decidable (_ ∨ _))

/-- What tidying makes of text in which every comma but the last has a space behind it. -/
inductive Tidies : List Char → List Char → Prop where
  | nil : Tidies [] []
  | lastComma : Tidies [','] [',', ' ']
  | comma {r t : List Char} (h : Tidies r t) : Tidies (',' :: ' ' :: r) (',' :: ' ' :: t)
  | drop {r t : List Char} (hbinds : bindsSpace r.head? = true) (h : Tidies r t) :
    Tidies (' ' :: r) t
  | keep {r t : List Char} (hbinds : bindsSpace r.head? = false) (h : Tidies r t) :
    Tidies (' ' :: r) (' ' :: t)
  | dropInside {r t : List Char} (h : Tidies r t) : Tidies ('(' :: ' ' :: r) ('(' :: t)
  | char {c : Char} {r t : List Char} (hspace : c ≠ ' ') (hcomma : c ≠ ',')
    (hopen : c = '(' → r.head? ≠ some ' ') (h : Tidies r t) : Tidies (c :: r) (c :: t)

theorem tidies_tidied (h : s.IsChain Spaced) : Tidies s (tidied false s) := by
  induction hn : s.length using Nat.strongRecOn generalizing s with
  | ind n ih =>
    cases s with
    | nil => exact .nil
    | cons c r =>
      rw [List.length_cons] at hn
      obtain ⟨hc, hr⟩ := List.isChain_cons.1 h
      have hrest : Tidies r (tidied false r) := ih r.length (by omega) hr rfl
      have hskip : ∀ t, r = ' ' :: t → Tidies t (tidied false t) := by
        rintro t rfl
        rw [List.length_cons] at hn
        exact ih t.length (by omega) hr.tail rfl
      by_cases hspace : c = ' '
      · subst hspace
        rw [tidied, if_pos rfl, Bool.false_or]
        split
        · rename_i hbinds
          exact .drop hbinds hrest
        · rename_i hbinds
          exact .keep (Bool.eq_false_iff.2 hbinds) hrest
      · by_cases hcomma : c = ','
        · subst hcomma
          rw [tidied, if_neg hspace, if_pos rfl]
          cases r with
          | nil => exact .lastComma
          | cons d t =>
            obtain rfl := hc d rfl rfl
            rw [tidied_space]
            exact .comma (hskip t rfl)
        · by_cases hopen : c = '(' ∧ r.head? = some ' '
          · obtain ⟨rfl, hhead⟩ := hopen
            obtain ⟨t, rfl⟩ := List.head?_eq_some_iff.1 hhead
            show Tidies _ ('(' :: tidied true (' ' :: t))
            rw [tidied_space]
            exact .dropInside (hskip t rfl)
          · have hhead : c = '(' → r.head? ≠ some ' ' := fun heq hhead => hopen ⟨heq, hhead⟩
            rw [tidied_cons hspace hcomma hhead]
            exact .char hspace hcomma hhead hrest

/-- Tidying drops characters, apart from the space at the end. -/
theorem Tidies.sublist {t : List Char} (h : Tidies s t) : t.Sublist (s ++ pad s) := by
  induction h with
  | nil => exact List.Sublist.refl _
  | lastComma => exact List.Sublist.refl _
  | comma _ ih =>
    rw [pad_comma_space]
    exact (ih.cons_cons _).cons_cons _
  | drop _ _ ih =>
    rw [pad_cons (by decide)]
    exact ih.cons _
  | keep _ _ ih =>
    rw [pad_cons (by decide)]
    exact ih.cons_cons _
  | dropInside _ ih =>
    rw [pad_cons (by decide), pad_cons (by decide)]
    exact (ih.cons _).cons_cons _
  | char _ hcomma _ _ ih =>
    rw [pad_cons hcomma]
    exact ih.cons_cons _

theorem Tidies.length_le {t : List Char} (h : Tidies s t) :
    t.length ≤ s.length + (pad s).length := by
  rw [← List.length_append]
  exact h.sublist.length_le

/-- Tidying keeps text whose spaces are all kept, with a space behind every comma but the last. -/
theorem Tidies.eq_append_pad {before t : List Char} (h : Tidies s t)
    (hstart : s.head? = some ' ' → before.getLast? ≠ some ',')
    (hspaces : ∀ a b, before ++ s = a ++ ' ' :: b → KeepsSpace a b) : t = s ++ pad s := by
  induction h generalizing before with
  | nil => rfl
  | lastComma => rfl
  | @comma r t _ ih =>
    have hrest : t = r ++ pad r := by
      refine @ih (before ++ [',', ' ']) (by simp) fun a b hab => hspaces a b ?_
      rw [← hab, List.append_assoc]
      rfl
    rw [pad_comma_space, hrest]
    rfl
  | @drop r t hbinds _ _ =>
    have hkept := (hspaces before r rfl).resolve_left (hstart rfl)
    rw [hkept.2] at hbinds
    cases hbinds
  | @keep r t _ _ ih =>
    have hrest : t = r ++ pad r := by
      refine @ih (before ++ [' ']) (by simp) fun a b hab => hspaces a b ?_
      rw [← hab, List.append_assoc]
      rfl
    rw [pad_cons (by decide), hrest]
    rfl
  | @dropInside r t _ _ =>
    have hkept := hspaces (before ++ ['(']) r (by simp)
    simp [KeepsSpace] at hkept
  | @char c r t _ hcomma _ _ ih =>
    have hrest : t = r ++ pad r := by
      refine @ih (before ++ [c]) (by simp [hcomma]) fun a b hab => hspaces a b ?_
      rw [← hab, List.append_assoc]
      rfl
    rw [pad_cons hcomma, hrest]
    rfl

/-- Text that tidying keeps has no space that it drops. -/
theorem Tidies.keepsSpace {before t : List Char} (h : Tidies s t)
    (hstart : s.head? = some ' ' → before.getLast? ≠ some '(') (heq : t = s ++ pad s) :
    ∀ a b, s = a ++ ' ' :: b → KeepsSpace (before ++ a) b := by
  induction h generalizing before with
  | nil =>
    intro a b hab
    cases (List.append_eq_nil_iff.1 hab.symm).2
  | lastComma =>
    intro a b hab
    cases a with
    | nil => cases hab
    | cons d a => cases (List.append_eq_nil_iff.1 (List.cons.inj hab).2.symm).2
  | @comma r t _ ih =>
    rw [pad_comma_space] at heq
    have hrest := @ih (before ++ [',', ' ']) (by simp) (List.cons.inj (List.cons.inj heq).2).2
    rintro (_ | ⟨d, _ | ⟨e, a⟩⟩) b hab
    · cases hab
    · cases hab
      exact .inl (by simp)
    · cases hab
      simpa using hrest a b rfl
  | @drop r t _ h _ =>
    rw [pad_cons (by decide)] at heq
    have hle := h.length_le
    rw [heq, List.length_append, List.length_cons] at hle
    omega
  | @keep r t hbinds _ ih =>
    rw [pad_cons (by decide)] at heq
    have hrest := @ih (before ++ [' ']) (by simp) (List.cons.inj heq).2
    rintro (_ | ⟨d, a⟩) b hab
    · cases hab
      exact .inr ⟨by simpa using hstart rfl, hbinds⟩
    · cases hab
      simpa using hrest a b rfl
  | @dropInside r t h _ =>
    rw [pad_cons (by decide), pad_cons (by decide), List.cons_append, List.cons.injEq] at heq
    have hle := h.length_le
    rw [heq.2, List.length_append, List.length_cons] at hle
    omega
  | @char c r t hspace hcomma hopen _ ih =>
    rw [pad_cons hcomma] at heq
    have hrest := @ih (before ++ [c]) ?_ (List.cons.inj heq).2
    · rintro (_ | ⟨d, a⟩) b hab
      · exact absurd (List.cons.inj hab).1 hspace
      · cases hab
        simpa using hrest a b rfl
    · intro hhead hlast
      rw [List.getLast?_concat] at hlast
      exact hopen (Option.some.inj hlast) hhead

/-- Collapsing text whose blanks are single spaces, with none at the end, drops those in front. -/
theorem collapse_eq_trimStart (hblank : ∀ c ∈ s, isBlank c = true → c = ' ')
    (hsingle : ∀ a b, s = a ++ ' ' :: b → b.head? ≠ some ' ') (hend : s.getLast? ≠ some ' ') :
    collapse s = Text.trimStart s := by
  induction s with
  | nil => rfl
  | cons c r ih =>
    obtain ⟨-, hrblank⟩ := List.forall_mem_cons.1 hblank
    have hrend : r.getLast? ≠ some ' ' := by
      intro h
      obtain ⟨front, rfl⟩ := List.getLast?_eq_some_iff.1 h
      exact hend (by rw [← List.cons_append, List.getLast?_concat])
    have hr := ih hrblank (fun a b hab => hsingle (c :: a) b (by rw [hab]; rfl)) hrend
    rw [Text.trimStart] at hr ⊢
    cases hc : isBlank c with
    | true => rw [Text.collapse_cons_blank hc, hr, List.dropWhile_cons_of_pos hc]
    | false =>
      rw [Text.collapse_cons hc, List.dropWhile_cons_of_neg (by simp [hc]), List.cons.injEq]
      refine ⟨rfl, ?_⟩
      cases r with
      | nil => rfl
      | cons d t =>
        rw [List.head?_cons, Option.any_some]
        cases hd : isBlank d with
        | false => rw [if_neg (by simp), hr, List.dropWhile_cons_of_neg (by simp [hd])]
        | true =>
          -- the space behind a word is followed by another word
          obtain rfl : d = ' ' := hrblank d List.mem_cons_self hd
          rw [List.dropWhile_cons_of_pos hd] at hr
          cases t with
          | nil => exact absurd rfl hend
          | cons e u =>
            have he : isBlank e = false := by
              rw [Bool.eq_false_iff]
              intro hblank'
              have heq := hrblank e (List.mem_cons_of_mem _ List.mem_cons_self) hblank'
              exact hsingle [c] (e :: u) rfl (by rw [heq]; rfl)
            rw [List.dropWhile_cons_of_neg (by simp [he])] at hr
            have hwords : words (' ' :: e :: u) ≠ [] := by
              rw [Text.words_cons_blank hd]
              exact Text.words_cons_ne_nil he u
            rw [hr, if_pos ⟨rfl, hwords⟩]

/-- Collapsing keeps the space behind a comma, unless the text ends there. -/
theorem isChain_collapse (h : s.IsChain Spaced) : (collapse s).IsChain Spaced := by
  induction s with
  | nil => exact .nil
  | cons c r ih =>
    obtain ⟨hc, hr⟩ := List.isChain_cons.1 h
    cases hblank : isBlank c with
    | true =>
      rw [Text.collapse_cons_blank hblank]
      exact ih hr
    | false =>
      rw [Text.collapse_cons hblank]
      split
      · have hspace : (' ' :: collapse r).IsChain Spaced :=
          List.isChain_cons.2 ⟨fun _ _ hcomma => absurd hcomma (by decide), ih hr⟩
        exact .cons_cons (fun _ => rfl) hspace
      · rename_i hend
        refine List.isChain_cons.2 ⟨fun d hd hcomma => ?_, ih hr⟩
        -- behind a comma stands a space, and no word follows it
        cases r with
        | nil => cases hd
        | cons e t =>
          obtain rfl := hc e rfl hcomma
          have hwords : words (' ' :: t) = [] := by
            by_contra hne
            exact hend ⟨rfl, hne⟩
          rw [collapse, hwords] at hd
          cases hd

/-- Two blanks in a row are collapsed. -/
theorem length_collapse_lt {a b : List Char} (h : s = a ++ ' ' :: b) (hb : b.head? = some ' ') :
    (collapse s).length < s.length := by
  obtain ⟨t, rfl⟩ := List.head?_eq_some_iff.1 hb
  have hwords : words s = words (a ++ ' ' :: t) := by
    rw [h, Text.words_append_blank Text.isBlank_space, Text.words_append_blank Text.isBlank_space,
      Text.words_cons_blank Text.isBlank_space]
  have hle := Text.length_collapse_le (a ++ ' ' :: t)
  rw [collapse, hwords, ← collapse, h]
  simp only [List.length_append, List.length_cons] at hle ⊢
  omega

/-- A text that ends in a comma is tidied to one that ends in a space. -/
theorem getLast?_tidied {skip : Bool} (h : s.getLast? = some ',') :
    (tidied skip s).getLast? = some ' ' := by
  have hcons : ∀ {c : Char} {t : List Char}, t.getLast? = some ' ' →
      (c :: t).getLast? = some ' ' := by
    intro c t ht
    rw [← List.singleton_append, List.getLast?_append_of_ne_nil _ (by rintro rfl; cases ht), ht]
  induction s generalizing skip with
  | nil => cases h
  | cons c r ih =>
    cases r with
    | nil =>
      obtain rfl := Option.some.inj h
      rfl
    | cons d t =>
      rw [List.getLast?_cons_cons] at h
      rw [tidied]
      split
      · split
        · exact ih h
        · exact hcons (ih h)
      · split
        · exact hcons (hcons (ih h))
        · exact hcons (ih h)

/-- Tidied and trimmed text is no longer than the text, and as long only when nothing was
dropped. -/
theorem length_trim_tidied (h : s.IsChain Spaced) :
    (Text.trim (tidied false s)).length ≤ s.length ∧
      (s.length ≤ (Text.trim (tidied false s)).length → tidied false s = s ++ pad s) := by
  have hsub := (tidies_tidied h).sublist
  have htrim := Text.length_trim_le (tidied false s)
  by_cases hcomma : s.getLast? = some ','
  · -- the space behind the last comma is trimmed again
    have hlast : (tidied false s).getLast? = some ' ' := getLast?_tidied hcomma
    obtain ⟨front, hfront⟩ := List.getLast?_eq_some_iff.1 hlast
    have hpad : pad s = [' '] := if_pos hcomma
    have hblank : ∀ c ∈ [' '], isBlank c = true := List.forall_mem_singleton.2 Text.isBlank_space
    have hle := Text.length_trim_le front
    have hlength := hsub.length_le
    rw [hfront, Text.trim_append_of_blank hblank]
    rw [hfront, hpad, List.length_append, List.length_append] at hlength
    refine ⟨by omega, fun hge => ?_⟩
    rw [← hfront]
    refine hsub.eq_of_length ?_
    rw [hfront, hpad, List.length_append, List.length_append]
    omega
  · have hpad : pad s = [] := if_neg hcomma
    have hlength := hsub.length_le
    rw [hpad, List.append_nil] at hsub hlength ⊢
    exact ⟨by omega, fun hge => hsub.eq_of_length (by omega)⟩

end SchemaPlan.Expression
