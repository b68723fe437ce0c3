import SchemaPlan.Proofs.Expression.Pass
import SchemaPlan.Proofs.Expression.Spacing

/-!
# Reduced text

Masked text is reduced when nothing is left for the passes that can leave work to an earlier one.
Such a pass keeps reduced text, and a pass that has something to do drops a character that is no
space, so it can be told from the other characters that there was nothing to do.

* `IsStripped.stripped_eq`: the passes that delete keep text in which there is nothing to delete.
* `isStripped_of_solid`: text is such when they delete nothing but spaces.
-/

set_option autoImplicit false

namespace SchemaPlan.Expression

open Text (Rewrites isBlank isWordChar)

/-! ## What is left for the passes -/

/-- Text in which `public.` stands inside words only, no cast begins, and an operand in parentheses
stands behind a name only. -/
structure IsStripped (m : List Char) : Prop where
  qualifier : ∀ a b, m = a ++ ("public.".toList ++ b) → a.getLast?.any isWordChar = true
  cast : ∀ a b, m = a ++ b → afterCast? b = none
  group : ∀ a b, m = a ++ b → takeGroup? b ≠ none → a.getLast?.any bindsParen = true

/-- Stripped text in which spaces are single and kept by tidying. -/
structure IsReduced (m : List Char) : Prop extends IsStripped m where
  spaces : ∀ a b, m = a ++ ' ' :: b → b.head? ≠ some ' ' ∧ KeepsSpace a b

theorem forall_split_iff {m : List Char} {P : List Char → List Char → Prop} :
    (∀ a b, m = a ++ b → P a b) ↔ ∀ i < m.length + 1, P (m.take i) (m.drop i) := by
  constructor
  · intro h i _
    exact h _ _ (List.take_append_drop i m).symm
  · rintro h a b rfl
    have hsplit := h a.length (by rw [List.length_append]; omega)
    rwa [List.take_left', List.drop_left'] at hsplit <;> rfl

instance (m : List Char) : Decidable (IsReduced m) :=
  decidable_of_iff (∀ i < m.length + 1,
    (Text.after? "public.".toList (m.drop i) ≠ none →
        (m.take i).getLast?.any isWordChar = true) ∧
      afterCast? (m.drop i) = none ∧
      (takeGroup? (m.drop i) ≠ none → (m.take i).getLast?.any bindsParen = true) ∧
      ((m.drop i).head? = some ' ' →
        (m.drop i).tail.head? ≠ some ' ' ∧ KeepsSpace (m.take i) (m.drop i).tail)) <| by
    rw [← forall_split_iff (P := fun a b =>
      (Text.after? "public.".toList b ≠ none → a.getLast?.any isWordChar = true) ∧
        afterCast? b = none ∧ (takeGroup? b ≠ none → a.getLast?.any bindsParen = true) ∧
        (b.head? = some ' ' → b.tail.head? ≠ some ' ' ∧ KeepsSpace a b.tail))]
    constructor
    · intro h
      refine ⟨⟨fun a b hab => (h a _ hab).1 ?_, fun a b hab => (h a b hab).2.1,
        fun a b hab => (h a b hab).2.2.1⟩, fun a b hab => (h a _ hab).2.2.2 rfl⟩
      rw [Text.after?_eq_some_iff.2 rfl]
      exact Option.some_ne_none b
    · intro h a b hab
      refine ⟨fun hafter => ?_, h.cast a b hab, h.group a b hab, fun hhead => ?_⟩
      · obtain ⟨rest, hrest⟩ := Option.ne_none_iff_exists'.1 hafter
        exact h.qualifier a rest (by rw [hab, Text.after?_eq_some_iff.1 hrest])
      · obtain ⟨r, rfl⟩ := List.head?_eq_some_iff.1 hhead
        exact h.spaces a r hab

/-- Drops qualifiers, casts and parentheses around single operands. -/
def stripped (s : List Char) : List Char :=
  dropParens (dropCasts (dropPublicQualifier s))

theorem any_getLast? (p : Char → Bool) (a : List Char) :
    (a.getLast?.map p).getD false = a.getLast?.any p := by
  cases a.getLast? <;> rfl

theorem dropPublicFrom_eq_self {inWord : Bool} {s : List Char}
    (h : ∀ a b, s = a ++ ("public.".toList ++ b) →
      (a.getLast?.map isWordChar).getD inWord = true) : dropPublicFrom 0 inWord s = s := by
  induction s generalizing inWord with
  | nil => rfl
  | cons c r ih =>
    rw [dropPublicFrom, if_neg, ih]
    · intro a b hr
      have hc := h (c :: a) b (by rw [hr]; rfl)
      cases a with
      | nil => exact hc
      | cons d a => rwa [List.getLast?_cons_cons] at hc
    · intro hstart
      rw [Bool.and_eq_true, Bool.not_eq_true'] at hstart
      obtain ⟨rest, hrest⟩ := Option.isSome_iff_exists.1 hstart.2
      have hpublic : c :: r = "public.".toList ++ rest := Text.after?_eq_some_iff.1 hrest
      have hword := h [] rest hpublic
      rw [hstart.1] at hword
      cases hword

theorem dropCasts_eq_self {s : List Char} (h : ∀ a b, s = a ++ b → afterCast? b = none) :
    dropCasts s = s := by
  induction s with
  | nil => rw [dropCasts]
  | cons c r ih =>
    rw [dropCasts]
    split
    · rename_i rest hcast
      rw [h [] (c :: r) rfl] at hcast
      cases hcast
    · rw [ih fun a b hr => h (c :: a) b (by rw [hr]; rfl)]

theorem dropParensOnce_eq_self {atStart : Bool} {s : List Char}
    (hstart : atStart = true → takeGroup? s = none)
    (h : ∀ a b, a ≠ [] → s = a ++ b → takeGroup? b ≠ none →
      a.getLast?.any bindsParen = true) : dropParensOnce atStart s = s := by
  induction s generalizing atStart with
  | nil => rw [dropParensOnce]
  | cons c r ih =>
    rw [dropParensOnce]
    split
    · rename_i atom rest hgroup
      split at hgroup
      · rename_i hat
        rw [hstart hat] at hgroup
        cases hgroup
      · cases hgroup
    · split
      · rename_i atom rest hgroup
        split at hgroup
        · cases hgroup
        · rename_i hbinds
          exact absurd (h [c] r (by simp) rfl (by rw [hgroup]; simp)) (by simpa using hbinds)
      · rw [ih (by simp)]
        intro a b ha hr hgroup
        have hlast := h (c :: a) b (by simp) (by rw [hr]; rfl) hgroup
        rw [← List.singleton_append, List.getLast?_append_of_ne_nil _ ha] at hlast
        exact hlast

theorem dropParens_eq_self {s : List Char} (h : dropParensOnce true s = s) : dropParens s = s := by
  rw [dropParens, h]
  simp

/-- Stripped text is kept. -/
theorem IsStripped.stripped_eq {s : List Char} (h : IsStripped s) : stripped s = s := by
  have hpublic : dropPublicQualifier s = s := by
    refine dropPublicFrom_eq_self fun a b hab => ?_
    rw [any_getLast?]
    exact h.qualifier a b hab
  have hparens : dropParens s = s := by
    refine dropParens_eq_self (dropParensOnce_eq_self (fun _ => ?_) fun a b _ => h.group a b)
    by_contra hgroup
    cases h.group [] s rfl hgroup
  rw [stripped, hpublic, dropCasts_eq_self h.cast, hparens]

/-! ## Characters that are no spaces -/

/-- The characters other than spaces. -/
def solid (s : List Char) : List Char :=
  s.filter fun c => c != ' '

theorem solid_sublist {s t : List Char} (h : t.Sublist s) : (solid t).Sublist (solid s) :=
  h.filter _

theorem solid_cons {c : Char} (h : c ≠ ' ') (s : List Char) : solid (c :: s) = c :: solid s :=
  List.filter_cons_of_pos (by simpa using h)

theorem solid_cons_inj {c : Char} {s t : List Char} : solid (c :: s) = solid (c :: t) ↔
    solid s = solid t := by
  by_cases h : c = ' '
  · rw [h]
    exact Iff.rfl
  · rw [solid_cons h, solid_cons h, List.cons.injEq]
    exact and_iff_right rfl

/-- A sublist of the rest lacks a first character that is no space. -/
theorem solid_ne_of_sublist {c : Char} {r t : List Char} (hc : c ≠ ' ') (h : t.Sublist r) :
    solid t ≠ solid (c :: r) := by
  intro heq
  have hle := (solid_sublist h).length_le
  rw [heq, solid_cons hc, List.length_cons] at hle
  omega

theorem sublist_of_isDrop {s t : List Char} (h : Rewrites IsDrop s t) : t.Sublist s := by
  refine h.sublist ?_
  rintro c cs (⟨⟩ | ⟨-⟩)
  · exact .inl rfl
  · exact .inr rfl

theorem dropCasts_sublist (s : List Char) : (dropCasts s).Sublist s := by
  fun_induction dropCasts s with
  | case1 => exact List.Sublist.refl []
  | case2 c r rest hcast ih =>
    obtain ⟨u, heq⟩ := exists_append_of_cast hcast
    rw [heq, ← List.cons_append]
    exact ih.trans (List.sublist_append_right _ rest)
  | case3 c r hnone ih => exact ih.cons_cons c

/-- A qualifier that is dropped is missed. -/
theorem qualifier_of_solid {inWord : Bool} {s : List Char}
    (h : solid (dropPublicFrom 0 inWord s) = solid s) : ∀ a b,
      s = a ++ ("public.".toList ++ b) → (a.getLast?.map isWordChar).getD inWord = true := by
  induction s generalizing inWord with
  | nil =>
    intro a b hab
    cases (List.append_eq_nil_iff.1 (List.append_eq_nil_iff.1 hab.symm).2).1
  | cons c r ih =>
    intro a b hab
    rw [dropPublicFrom] at h
    split at h
    · rename_i hstart
      rw [Bool.and_eq_true] at hstart
      obtain ⟨rest, hrest⟩ := Option.isSome_iff_exists.1 hstart.2
      have heq := Text.after?_eq_some_iff.1 hrest
      have hword : "public.".toList = 'p' :: "ublic.".toList := rfl
      rw [hword, List.cons_append, List.cons.injEq] at heq
      obtain ⟨rfl, rfl⟩ := heq
      have hsix : ("ublic.".toList ++ rest).take 6 = "ublic.".toList := rfl
      have hsub : (dropPublicFrom 6 (isWordChar 'p') ("ublic.".toList ++ rest)).Sublist
          ("ublic.".toList ++ rest) :=
        sublist_of_isDrop (rewrites_dropPublicFrom (by rw [hsix]; decide))
      exact absurd h (solid_ne_of_sublist (by decide) hsub)
    · rename_i hstart
      cases a with
      | nil =>
        have hafter : Text.after? "public.".toList (c :: r) = some b :=
          Text.after?_eq_some_iff.2 hab
        rw [hafter] at hstart
        simpa using hstart
      | cons d a =>
        rw [List.cons_append, List.cons.injEq] at hab
        obtain ⟨rfl, hr⟩ := hab
        have hrest := ih (solid_cons_inj.1 h) a b hr
        cases a with
        | nil => exact hrest
        | cons e a => rwa [List.getLast?_cons_cons]

/-- A cast that is dropped is missed. -/
theorem cast_of_solid {s : List Char} (h : solid (dropCasts s) = solid s) :
    ∀ a b, s = a ++ b → afterCast? b = none := by
  induction s with
  | nil =>
    intro a b hab
    obtain ⟨-, rfl⟩ := List.append_eq_nil_iff.1 hab.symm
    rfl
  | cons c r ih =>
    intro a b hab
    rw [dropCasts] at h
    split at h
    · rename_i rest hcast
      obtain ⟨u, heq⟩ := exists_append_of_cast hcast
      rw [heq] at h
      exact absurd h (solid_ne_of_sublist (by decide)
        ((dropCasts_sublist rest).trans (List.sublist_append_right u rest)))
    · rename_i hnone
      cases a with
      | nil =>
        rw [← List.nil_append b, ← hab]
        exact hnone
      | cons d a =>
        rw [List.cons_append, List.cons.injEq] at hab
        exact ih (solid_cons_inj.1 h) a b hab.2

/-- Parentheses that are dropped are missed. -/
theorem group_of_solid {atStart : Bool} {s : List Char}
    (h : solid (dropParensOnce atStart s) = solid s) :
    (atStart = true → takeGroup? s = none) ∧ ∀ a b, a ≠ [] → s = a ++ b →
      takeGroup? b ≠ none → a.getLast?.any bindsParen = true := by
  -- what is left of an operand in parentheses lacks the first of them
  have hmissed : ∀ {s atom rest : List Char}, takeGroup? s = some (atom, rest) →
      solid (atom ++ dropParensOnce false rest) ≠ solid s := by
    intro s atom rest hgroup
    obtain ⟨before, behind, rfl, -, -⟩ := takeGroup?_eq_some hgroup
    refine solid_ne_of_sublist (by decide) ?_
    refine List.Sublist.trans ?_ (List.sublist_append_right before _)
    refine (List.Sublist.refl atom).append ?_
    exact (sublist_of_isDrop (rewrites_dropParensOnce false rest)).trans
      ((List.sublist_cons_self _ _).trans (List.sublist_append_right behind _))
  induction s generalizing atStart with
  | nil =>
    refine ⟨fun _ => rfl, fun a b ha hab => ?_⟩
    exact absurd (List.append_eq_nil_iff.1 hab.symm).1 ha
  | cons c r ih =>
    rw [dropParensOnce] at h
    split at h
    · rename_i atom rest hgroup
      split at hgroup
      · exact absurd h (hmissed hgroup)
      · cases hgroup
    · rename_i hnone
      split at h
      · rename_i atom rest hgroup
        split at hgroup
        · cases hgroup
        · exact absurd (solid_cons_inj.1 h) (hmissed hgroup)
      · rename_i hnone'
        obtain ⟨-, hrest⟩ := ih (solid_cons_inj.1 h)
        refine ⟨fun hat => by simpa [hat] using hnone, fun a b ha hab hgroup => ?_⟩
        obtain ⟨d, a, rfl⟩ := List.exists_cons_of_ne_nil ha
        rw [List.cons_append, List.cons.injEq] at hab
        obtain ⟨rfl, rfl⟩ := hab
        by_cases hempty : a = []
        · subst hempty
          by_contra hbinds
          exact hgroup (by simpa [show bindsParen c = false by simpa using hbinds] using hnone')
        · rw [← List.singleton_append, List.getLast?_append_of_ne_nil _ hempty]
          exact hrest a b hempty rfl hgroup

/-- Spacing changes spaces only. -/
theorem solid_of_isSpacing {s t : List Char} (hblanks : ∀ c ∈ s, isBlank c = true → c = ' ')
    (h : Rewrites IsSpacing s t) : solid t = solid s := by
  refine h.filter_eq fun c hc cs hcs => ?_
  cases hcs with
  | keep => rfl
  | space hblank => rw [hblanks c hc hblank]
  | drop hblank => rw [hblanks c hc hblank]; rfl
  | comma hcomma => rw [hcomma]; rfl

theorem sublist_dropParensOnce (s : List Char) :
    (dropParens s).Sublist (dropParensOnce true s) := by
  rw [dropParens]
  split
  · exact sublist_of_isDrop (rewrites_dropParens _)
  · exact List.Sublist.refl _

/-- Parentheses around the whole that are dropped are missed. -/
theorem stripOuter_of_solid {s : List Char} (h : solid (stripOuter s) = solid s) :
    stripOuter s = Text.trim s := by
  rw [stripOuter] at h ⊢
  split at h
  · rename_i inner hinner
    have hclosed : (stripOuter inner).Sublist (inner ++ [')']) :=
      (sublist_of_isDrop (rewrites_stripOuter inner)).trans (List.sublist_append_left inner _)
    have htrim : (solid (Text.trim s)).Sublist (solid s) := solid_sublist (Text.trim_sublist s)
    rw [enclosed?_eq_some hinner, ← h] at htrim
    have hopen := solid_sublist (hclosed.trans (List.sublist_cons_self '(' _))
    exact absurd (hopen.antisymm htrim) (solid_ne_of_sublist (by decide) hclosed)
  · rfl

theorem stripped_sublist (s : List Char) : (stripped s).Sublist s :=
  (sublist_of_isDrop (rewrites_dropParens _)).trans ((dropCasts_sublist _).trans
    (sublist_of_isDrop (rewrites_dropPublicQualifier s)))

/-- Text that loses at most spaces is stripped. -/
theorem isStripped_of_solid {s : List Char} (h : solid (stripped s) = solid s) : IsStripped s := by
  -- each pass leaves a sublist, and the last one holds as much as the text
  have hparens := solid_sublist (sublist_of_isDrop
    (rewrites_dropParens (dropCasts (dropPublicQualifier s))))
  have hcasts := solid_sublist (dropCasts_sublist (dropPublicQualifier s))
  have hpublic := solid_sublist (sublist_of_isDrop (rewrites_dropPublicQualifier s))
  rw [← stripped, h] at hparens
  have hqualifier := qualifier_of_solid (hpublic.antisymm (hparens.trans hcasts))
  have hs : dropPublicQualifier s = s := dropPublicFrom_eq_self hqualifier
  rw [hs] at hparens hcasts
  have hcast := cast_of_solid (hcasts.antisymm hparens)
  rw [stripped, hs, dropCasts_eq_self hcast] at h
  have honce := solid_sublist (sublist_dropParensOnce s)
  rw [h] at honce
  obtain ⟨hstart, hgroup⟩ := group_of_solid
    ((solid_sublist (sublist_of_isDrop (rewrites_dropParensOnce true s))).antisymm honce)
  refine ⟨fun a b hab => ?_, hcast, fun a b hab hfound => ?_⟩
  · rw [← any_getLast?]
    exact hqualifier a b hab
  · by_cases ha : a = []
    · subst ha
      rw [List.nil_append] at hab
      exact absurd (hab ▸ hstart rfl) hfound
    · exact hgroup a b ha hab hfound

end SchemaPlan.Expression
