import SchemaPlan.Proofs.Expression.Symbol
import SchemaPlan.Proofs.Text.Blank

/-!
# The passes as deletions

Four of the passes only delete: the qualifier, the casts, the parentheses around single operands and
those around the whole.  A cast may name a quoted type and then takes its marker along; the other
passes keep all markers.

* `rewrites_dropPublicQualifier`, `rewrites_dropParens`, `rewrites_stripOuter`: these passes keep or
  drop single characters, and no marks and digits.
* `afterCast?_eq_some`: a cast is two colons and a type, which holds one marker or none.
* `exists_dropCasts`: dropping the casts drops symbols, and of the tokens those behind two colons.
-/

set_option autoImplicit false

namespace SchemaPlan.Expression

open Text (Rewrites isBlank isDecimalDigit span_append)

/-! ## Parts of an expression -/

section Parts

variable {s a b rest : List Char}

theorem takeDigits?_eq_some (h : takeDigits? s = some (a, b)) :
    s = a ++ b ∧ a ≠ [] ∧ ∀ c ∈ a, isDecimalDigit c = true := by
  unfold takeDigits? at h
  simp only [Option.ite_none_left_eq_some, Option.some.injEq, Prod.mk.injEq, List.isEmpty_iff] at h
  obtain ⟨hne, rfl, rfl⟩ := h
  exact ⟨List.takeWhile_append_dropWhile.symm, hne, fun c hc => List.mem_takeWhile_imp hc⟩

/-- Text inside a cast: it holds no mark and no colon. -/
def IsInner (s : List Char) : Prop :=
  ∀ c ∈ s, c ≠ mark ∧ c ≠ ':'

instance (s : List Char) : Decidable (IsInner s) :=
  inferInstanceAs (Decidable (∀ c ∈ s, c ≠ mark ∧ c ≠ ':'))

theorem IsInner.append (ha : IsInner a) (hb : IsInner b) : IsInner (a ++ b) :=
  List.forall_mem_append.2 ⟨ha, hb⟩

theorem IsInner.mark_not_mem (h : IsInner s) : mark ∉ s :=
  fun hmark => (h mark hmark).1 rfl

theorem IsInner.colon_not_mem (h : IsInner s) : ':' ∉ s :=
  fun hcolon => (h ':' hcolon).2 rfl

/-- Characters of a kind that marks and colons are not of. -/
theorem isInner_of_forall {p : Char → Bool} (hp : p mark = false ∧ p ':' = false)
    (h : ∀ c ∈ s, p c = true) : IsInner s := by
  intro c hc
  constructor
  · rintro rfl
    rw [h mark hc] at hp
    cases hp.1
  · rintro rfl
    rw [h ':' hc] at hp
    cases hp.2

theorem isInner_of_digits (h : ∀ c ∈ a, isDecimalDigit c = true) : IsInner a :=
  isInner_of_forall (by decide) h

theorem takeMarker?_eq_some (h : takeMarker? s = some (a, b)) :
    s = a ++ b ∧ ∃ digits, IsInner digits ∧ a = mark :: (digits ++ [mark]) := by
  unfold takeMarker? at h
  split at h
  · cases h
  · split at h
    · rename_i hmark
      split at h
      · rename_i digits d rest hdigits
        obtain ⟨hr, -, hall⟩ := takeDigits?_eq_some hdigits
        split at h
        · rename_i hd
          simp only [Option.some.injEq, Prod.mk.injEq] at h
          obtain ⟨rfl, rfl⟩ := h
          refine ⟨by simp [hr], digits, isInner_of_digits hall, ?_⟩
          rw [hmark, hd, List.cons_append]
        · cases h
      · cases h
    · cases h

theorem takePath?_eq_some (h : takePath? s = some (a, b)) : s = a ++ b ∧ a ≠ [] ∧ IsInner a := by
  unfold takePath? at h
  split at h
  · cases h
  · rename_i c r
    split at h
    · rename_i hc
      simp only [Option.some.injEq, Prod.mk.injEq] at h
      obtain ⟨rfl, rfl⟩ := h
      refine ⟨by rw [List.cons_append, List.takeWhile_append_dropWhile], List.cons_ne_nil _ _, ?_⟩
      refine List.forall_mem_cons.2 ⟨?_, ?_⟩
      · constructor <;> (rintro rfl; exact absurd hc (by decide))
      · exact isInner_of_forall (by decide) fun _ hd => List.mem_takeWhile_imp hd
    · cases h

theorem takeDecimal?_eq_some (h : takeDecimal? s = some (a, b)) : s = a ++ b := by
  unfold takeDecimal? at h
  split at h
  · rename_i hwhole
    split at h
    · rename_i hfraction
      simp only [Option.some.injEq, Prod.mk.injEq] at h
      obtain ⟨rfl, rfl⟩ := h
      rw [(takeDigits?_eq_some hwhole).1, (takeDigits?_eq_some hfraction).1, List.append_assoc]
      rfl
    · simp only [Option.some.injEq, Prod.mk.injEq] at h
      obtain ⟨rfl, rfl⟩ := h
      exact (takeDigits?_eq_some hwhole).1
  · exact (takeDigits?_eq_some h).1

theorem takeNumber?_eq_some (h : takeNumber? s = some (a, b)) : s = a ++ b := by
  unfold takeNumber? at h
  split at h
  · obtain ⟨⟨number, rest⟩, hdecimal, heq⟩ := Option.map_eq_some_iff.1 h
    simp only [Prod.mk.injEq] at heq
    obtain ⟨rfl, rfl⟩ := heq
    rw [takeDecimal?_eq_some hdecimal]
    rfl
  · exact takeDecimal?_eq_some h

theorem takeAtom?_eq_some (h : takeAtom? s = some (a, b)) : s = a ++ b := by
  unfold takeAtom? at h
  rcases Option.or_eq_some_iff.1 h with h | ⟨-, h⟩
  · exact (takePath?_eq_some h).1
  · rcases Option.or_eq_some_iff.1 h with h | ⟨-, h⟩
    · exact (takeMarker?_eq_some h).1
    · exact takeNumber?_eq_some h

/-- The name of a type: text inside a cast, or what looks like a marker. -/
def IsTypeText (name : List Char) : Prop :=
  name ≠ [] ∧ IsInner name ∨ ∃ digits, IsInner digits ∧ name = mark :: (digits ++ [mark])

theorem afterTypeName?_eq_some (h : afterTypeName? s = some rest) :
    ∃ name, s = name ++ rest ∧ IsTypeText name := by
  unfold afterTypeName? at h
  rcases Option.or_eq_some_iff.1 h with h | ⟨-, h⟩
  · obtain ⟨name, hmem, hname⟩ := List.exists_of_findSome?_eq_some h
    have hwords : ∀ name ∈ longTypeNames, name ≠ [] ∧ IsInner name := by decide
    exact ⟨name, Text.after?_eq_some_iff.1 hname, .inl (hwords name hmem)⟩
  · obtain ⟨⟨name, rest⟩, hpart, rfl⟩ := Option.map_eq_some_iff.1 h
    rcases Option.or_eq_some_iff.1 hpart with hpart | ⟨-, hpart⟩
    · obtain ⟨hs, hdigits⟩ := takeMarker?_eq_some hpart
      exact ⟨name, hs, .inr hdigits⟩
    · obtain ⟨hs, hname⟩ := takePath?_eq_some hpart
      exact ⟨name, hs, .inl hname⟩

theorem exists_blanks (s : List Char) :
    ∃ blanks, s = blanks ++ s.dropWhile isBlank ∧ ∀ c ∈ blanks, isBlank c = true :=
  ⟨s.takeWhile isBlank, List.takeWhile_append_dropWhile.symm, fun _ hc => List.mem_takeWhile_imp hc⟩

theorem afterModifiers?_eq_some (h : afterModifiers? s = some rest) :
    ∃ modifiers, s = modifiers ++ rest ∧ IsInner modifiers := by
  have hsign : ∀ c ∈ ['(', ')', ','], IsInner [c] := by decide
  unfold afterModifiers? at h
  split at h
  · rename_i r
    split at h
    · rename_i digits _ hdigits
      obtain ⟨rfl, -, hall⟩ := takeDigits?_eq_some hdigits
      obtain rfl := Option.some.inj h
      refine ⟨['('] ++ digits ++ [')'], by simp, ?_⟩
      exact ((hsign '(' (by simp)).append (isInner_of_digits hall)).append (hsign ')' (by simp))
    · rename_i digits second hdigits
      obtain ⟨rfl, -, hall⟩ := takeDigits?_eq_some hdigits
      split at h
      · rename_i digits' _ hdigits'
        obtain ⟨hsecond, -, hall'⟩ := takeDigits?_eq_some hdigits'
        obtain ⟨blanks, hblanks, hblank⟩ := exists_blanks second
        have hinner : IsInner blanks := isInner_of_forall (by decide) hblank
        obtain rfl := Option.some.inj h
        refine ⟨['('] ++ digits ++ [','] ++ blanks ++ digits' ++ [')'], ?_, ?_⟩
        · rw [hblanks, hsecond]
          simp
        · exact (((((hsign '(' (by simp)).append (isInner_of_digits hall)).append
            (hsign ',' (by simp))).append hinner).append
              (isInner_of_digits hall')).append (hsign ')' (by simp))
      · cases h
    · cases h
  · cases h

theorem dropBrackets_eq (s : List Char) :
    ∃ brackets, s = brackets ++ dropBrackets s ∧ IsInner brackets := by
  fun_induction dropBrackets s with
  | case1 r ih =>
    obtain ⟨brackets, hr, hinner⟩ := ih
    refine ⟨['[', ']'] ++ brackets, ?_, IsInner.append (by decide) hinner⟩
    rw [List.append_assoc, ← hr]
    rfl
  | case2 s hs => exact ⟨[], rfl, by decide⟩

/-- A cast is two colons and a type. -/
theorem afterCast?_eq_some (h : afterCast? s = some rest) :
    ∃ name suffix, s = ':' :: ':' :: (name ++ (suffix ++ rest)) ∧ IsTypeText name ∧
      IsInner suffix := by
  unfold afterCast? at h
  split at h
  · cases h
  · rename_i t ht
    obtain ⟨u, hname, rfl⟩ := Option.map_eq_some_iff.1 h
    obtain ⟨name, rfl, htype⟩ := afterTypeName?_eq_some hname
    obtain ⟨modifiers, hmodifiers, hinner⟩ :
        ∃ modifiers, u = modifiers ++ (afterModifiers? u).getD u ∧ IsInner modifiers := by
      cases hm : afterModifiers? u with
      | none => exact ⟨[], rfl, by decide⟩
      | some v => exact afterModifiers?_eq_some hm
    obtain ⟨brackets, hbrackets, hinner'⟩ := dropBrackets_eq ((afterModifiers? u).getD u)
    refine ⟨name, modifiers ++ brackets, ?_, htype, hinner.append hinner'⟩
    rw [Text.after?_eq_some_iff.1 ht]
    conv_lhs => rw [hmodifiers, hbrackets]
    simp

/-- A cast starts with a colon and stands at the start of the text. -/
theorem exists_append_of_cast (h : afterCast? s = some rest) : ∃ u, s = ':' :: (u ++ rest) := by
  obtain ⟨name, suffix, rfl, -⟩ := afterCast?_eq_some h
  exact ⟨':' :: (name ++ suffix), by simp⟩

/-! ## Markers behind colons -/

/-- A number is read up to its end. -/
theorem takeDigits?_toString (n : Nat) (hrest : ∀ c ∈ rest.head?, isDecimalDigit c = false) :
    takeDigits? ((toString n).toList ++ rest) = some ((toString n).toList, rest) := by
  have hdigits : ∀ c ∈ (toString n).toList, isDecimalDigit c = true := by
    intro c hc
    have hdigit := Text.isDigit_of_mem_toString hc
    have hlast := (Text.toNat_of_isDigit hdigit).2
    rw [isDecimalDigit, if_pos (by omega), hdigit]
  obtain ⟨htake, hdrop⟩ := span_append hdigits hrest
  rw [takeDigits?, htake, hdrop]
  simp

theorem takeMarker?_marker (n : Nat) (rest : List Char) :
    takeMarker? (marker n ++ rest) = some (marker n, rest) := by
  have hdigits : takeDigits? ((toString n).toList ++ mark :: rest) =
      some ((toString n).toList, mark :: rest) := by
    apply takeDigits?_toString
    intro c hc
    obtain rfl : mark = c := Option.some.inj hc
    decide
  rw [marker, List.cons_append, List.append_assoc, List.singleton_append, takeMarker?, if_pos rfl,
    hdigits]
  simp

/-- Text in which no name of several words stands is read as a marker or a path. -/
theorem afterTypeName?_of_not_words (h : ∀ name ∈ longTypeNames, ∀ r, s ≠ name ++ r) :
    afterTypeName? s = ((takeMarker? s).or (takePath? s)).map Prod.snd := by
  have hnone : (longTypeNames.findSome? fun name => Text.after? name s) = none := by
    rw [List.findSome?_eq_none_iff]
    intro name hname
    exact Text.after?_eq_none_iff.2 (h name hname)
  rw [afterTypeName?, hnone, Option.none_or]

theorem afterTypeName?_marker (n : Nat) (rest : List Char) :
    afterTypeName? (marker n ++ rest) = some rest := by
  have hmarks : ∀ name ∈ longTypeNames, name.head? ≠ some mark ∧ name ≠ [] := by decide
  rw [afterTypeName?_of_not_words, takeMarker?_marker, Option.some_or]
  · rfl
  · intro name hname r heq
    have hhead := congrArg List.head? heq
    rw [List.head?_append_of_ne_nil _ (hmarks name hname).2] at hhead
    exact (hmarks name hname).1 hhead.symm

/-- A marker behind two colons is the type of a cast. -/
theorem exists_afterCast?_marker (n : Nat) (rest : List Char) :
    ∃ r, afterCast? (':' :: ':' :: (marker n ++ rest)) = some r := by
  have hcolons : Text.after? [':', ':'] (':' :: ':' :: (marker n ++ rest)) =
      some (marker n ++ rest) := rfl
  rw [afterCast?, hcolons]
  simp only [afterTypeName?_marker, Option.map_some]
  exact ⟨_, rfl⟩

/-- An operand in parentheses. -/
theorem takeGroup?_eq_some (h : takeGroup? s = some (a, b)) :
    ∃ before behind, s = '(' :: (before ++ (a ++ (behind ++ ')' :: b))) ∧
      (∀ c ∈ before, isBlank c = true) ∧ ∀ c ∈ behind, isBlank c = true := by
  unfold takeGroup? at h
  split at h
  · rename_i r
    split at h
    · cases h
    · rename_i atom rest hatom
      split at h
      · rename_i rest' hrest
        simp only [Option.some.injEq, Prod.mk.injEq] at h
        obtain ⟨rfl, rfl⟩ := h
        obtain ⟨before, hbefore, hblank⟩ := exists_blanks r
        obtain ⟨behind, hbehind, hblank'⟩ := exists_blanks rest
        refine ⟨before, behind, ?_, hblank, hblank'⟩
        rw [← hrest, ← hbehind, ← takeAtom?_eq_some hatom, ← hbefore]
      · cases h
  · cases h

theorem enclosed?_eq_some (h : enclosed? s = some rest) : s = '(' :: (rest ++ [')']) := by
  unfold enclosed? at h
  split at h
  · rename_i r
    split at h
    · rename_i hends
      rw [Bool.and_eq_true, beq_iff_eq] at hends
      obtain rfl := Option.some.inj h
      rw [List.dropLast_append_getLast? ')' hends.1]
    · cases h
  · cases h

end Parts

/-! ## Passes that keep or drop characters -/

/-- A character is kept, or it is dropped and no character of a marker. -/
inductive IsDrop (c : Char) : List Char → Prop where
  | keep : IsDrop c [c]
  | drop (h : isMarkerChar c = false) : IsDrop c []

theorem IsDrop.keeps {c : Char} {cs : List Char} (hc : isMarkerChar c = true) (h : IsDrop c cs) :
    cs = [c] := by
  cases h with
  | keep => rfl
  | drop hother =>
    rw [hc] at hother
    cases hother

variable {s t : List Char}

theorem rewrites_isDrop_refl (s : List Char) : Rewrites IsDrop s s :=
  .refl fun _ _ => .keep

theorem rewrites_isDrop_nil (h : ∀ c ∈ s, isMarkerChar c = false) : Rewrites IsDrop s [] := by
  induction s with
  | nil => exact .nil
  | cons c s ih =>
    obtain ⟨hc, hs⟩ := List.forall_mem_cons.1 h
    exact .drop (.drop hc) (ih hs)

theorem rewrites_isDrop_trans {u : List Char} (h : Rewrites IsDrop s t)
    (hnext : Rewrites IsDrop t u) : Rewrites IsDrop s u := by
  refine h.trans (fun c cs ds hcs hds => ?_) hnext
  cases hcs with
  | keep =>
    cases hds with
    | cons hd hnil =>
      cases hnil
      rwa [List.append_nil]
  | drop hc =>
    cases hds
    exact .drop hc

theorem isMarkerChar_of_isBlank {c : Char} (h : isBlank c = true) : isMarkerChar c = false := by
  rw [isMarkerChar, Bool.or_eq_false_iff]
  constructor
  · rw [beq_eq_false_iff_ne]
    rintro rfl
    exact absurd h (by decide)
  · rw [Bool.eq_false_iff]
    intro hdigit
    rw [Text.isBlank_of_isDigit hdigit] at h
    cases h

theorem isBlank_of_isMarkerChar {c : Char} (h : isMarkerChar c = true) : isBlank c = false := by
  rw [Bool.eq_false_iff]
  intro hblank
  rw [isMarkerChar_of_isBlank hblank] at h
  cases h

theorem rewrites_isDrop_of_blank (h : ∀ c ∈ s, isBlank c = true) : Rewrites IsDrop s [] :=
  rewrites_isDrop_nil fun c hc => isMarkerChar_of_isBlank (h c hc)

theorem rewrites_dropPublicFrom {skip : Nat} {inWord : Bool}
    (hskip : ∀ c ∈ s.take skip, isMarkerChar c = false) :
    Rewrites IsDrop s (dropPublicFrom skip inWord s) := by
  fun_induction dropPublicFrom skip inWord s with
  | case1 => exact .nil
  | case2 skip inWord c r ih =>
    rw [List.take_succ_cons, List.forall_mem_cons] at hskip
    exact .drop (.drop hskip.1) (ih hskip.2)
  | case3 inWord c r hpublic ih =>
    rw [Bool.and_eq_true] at hpublic
    obtain ⟨rest, hrest⟩ := Option.isSome_iff_exists.1 hpublic.2
    have heq := Text.after?_eq_some_iff.1 hrest
    have hword : "public.".toList = 'p' :: "ublic.".toList := rfl
    rw [hword, List.cons_append, List.cons.injEq] at heq
    obtain ⟨rfl, rfl⟩ := heq
    have hsix : ("ublic.".toList ++ rest).take 6 = "ublic.".toList := rfl
    refine .drop (.drop (by decide)) (ih ?_)
    rw [hsix]
    decide
  | case4 inWord c r hother ih => exact .keep .keep (ih (by simp))

theorem rewrites_dropPublicQualifier (s : List Char) : Rewrites IsDrop s (dropPublicQualifier s) :=
  rewrites_dropPublicFrom (by simp)

/-- An operand loses its parentheses and the blanks next to them. -/
theorem rewrites_of_takeGroup? {a b : List Char} (h : takeGroup? s = some (a, b))
    (hb : Rewrites IsDrop b t) : Rewrites IsDrop s (a ++ t) := by
  obtain ⟨before, behind, rfl, hbefore, hbehind⟩ := takeGroup?_eq_some h
  exact .drop (.drop (by decide)) ((rewrites_isDrop_of_blank hbefore).append
    ((rewrites_isDrop_refl a).append ((rewrites_isDrop_of_blank hbehind).append
      (.drop (.drop (by decide)) hb))))

theorem rewrites_dropParensOnce (atStart : Bool) (s : List Char) :
    Rewrites IsDrop s (dropParensOnce atStart s) := by
  fun_induction dropParensOnce atStart s with
  | case1 => exact .nil
  | case2 atStart c r atom rest hgroup ih =>
    split at hgroup
    · exact rewrites_of_takeGroup? hgroup ih
    · cases hgroup
  | case3 atStart c r hnone atom rest hgroup ih =>
    split at hgroup
    · cases hgroup
    · exact .keep .keep (rewrites_of_takeGroup? hgroup ih)
  | case4 atStart c r hnone hnone' ih => exact .keep .keep ih

theorem rewrites_dropParens (s : List Char) : Rewrites IsDrop s (dropParens s) := by
  fun_induction dropParens s with
  | case1 s t hlt ih => exact rewrites_isDrop_trans (rewrites_dropParensOnce true s) ih
  | case2 s t hge => exact rewrites_dropParensOnce true s

theorem rewrites_trim (s : List Char) : Rewrites IsDrop s (Text.trim s) := by
  obtain ⟨before, hbefore, hblank⟩ := exists_blanks s
  have hend := List.rdropWhile_append_rtakeWhile (p := isBlank) (l := s.dropWhile isBlank)
  have hsplit : s = before ++ (Text.trim s ++ (s.dropWhile isBlank).rtakeWhile isBlank) := by
    conv_lhs => rw [hbefore, ← hend]
    rfl
  conv_lhs => rw [hsplit]
  have hrest : Rewrites IsDrop (Text.trim s ++ (s.dropWhile isBlank).rtakeWhile isBlank)
      (Text.trim s ++ []) :=
    (rewrites_isDrop_refl _).append
      (rewrites_isDrop_of_blank fun _ hc => List.mem_rtakeWhile_imp hc)
  rw [List.append_nil] at hrest
  exact (rewrites_isDrop_of_blank hblank).append hrest

theorem rewrites_stripOuter (s : List Char) : Rewrites IsDrop s (stripOuter s) := by
  fun_induction stripOuter s with
  | case1 s inner hinner ih =>
    refine rewrites_isDrop_trans (rewrites_trim s) ?_
    rw [enclosed?_eq_some hinner]
    have hclose : Rewrites IsDrop (inner ++ [')']) (stripOuter inner ++ []) :=
      ih.append (rewrites_isDrop_nil (by decide))
    rw [List.append_nil] at hclose
    exact .drop (.drop (by decide)) hclose
  | case2 s hnone => exact rewrites_trim s

/-- A pass that keeps or drops characters drops symbols. -/
theorem exists_render_of_isDrop {symbols : List Symbol} (h : Rewrites IsDrop (render symbols) t) :
    ∃ symbols', t = render symbols' ∧ symbols'.Sublist symbols := by
  obtain ⟨symbols', rfl, hsymbols⟩ := exists_render_of_rewrites (fun _ _ => IsDrop.keeps) h
  refine ⟨symbols', rfl, hsymbols.sublist ?_⟩
  rintro x xs (⟨hcs⟩ | ⟨n⟩)
  · cases hcs with
    | keep => exact .inl rfl
    | drop => exact .inr rfl
  · exact .inl rfl

/-! ## Casts -/

theorem dropCasts_append {r : List Char} (h : ':' ∉ s) : dropCasts (s ++ r) = s ++ dropCasts r := by
  induction s with
  | nil => rfl
  | cons c s ih =>
    rw [List.mem_cons, not_or] at h
    rw [List.cons_append, dropCasts]
    split
    · rename_i rest hcast
      obtain ⟨u, heq⟩ := exists_append_of_cast hcast
      exact absurd (List.cons.inj heq).1.symm h.1
    · rw [ih h.2, List.cons_append]

/-- The numbers of the tokens that do not stand behind two colons. -/
def numbersOutsideCasts : List Symbol → List Nat
  | .char ':' :: .char ':' :: .token _ :: r => numbersOutsideCasts r
  | .char _ :: r => numbersOutsideCasts r
  | .token n :: r => n :: numbersOutsideCasts r
  | [] => []

theorem numbersOutsideCasts_char {c : Char} {symbols : List Symbol}
    (h : ∀ n back, Symbol.char c :: symbols ≠ .char ':' :: .char ':' :: .token n :: back) :
    numbersOutsideCasts (.char c :: symbols) = numbersOutsideCasts symbols := by
  apply numbersOutsideCasts.eq_2
  rintro n back rfl rfl
  exact h n back rfl

/-- Text without colons does not change what a token stands behind. -/
theorem numbersOutsideCasts_append {a : List Char} (ha : ':' ∉ a) (symbols : List Symbol) :
    numbersOutsideCasts (a.map .char ++ symbols) = numbersOutsideCasts symbols := by
  induction a with
  | nil => rfl
  | cons c a ih =>
    obtain ⟨hc, ha⟩ := not_or.1 (mt List.mem_cons.2 ha)
    rw [List.map_cons, List.cons_append, numbersOutsideCasts_char, ih ha]
    intro n back h
    exact hc (Symbol.char.inj (List.cons.inj h).1).symm

/-- A cast consists of symbols.  Only the one behind the two colons can be a token. -/
theorem exists_symbols_of_cast {symbols : List Symbol} {rest : List Char}
    (hclean : .char mark ∉ symbols) (h : afterCast? (render symbols) = some rest) :
    ∃ front back, symbols = front ++ back ∧ front ≠ [] ∧ rest = render back ∧
      numbersOutsideCasts symbols = numbersOutsideCasts back := by
  obtain ⟨name, suffix, heq, htype, hsuffix⟩ := afterCast?_eq_some h
  have hcolons : mark ∉ [':', ':'] := by decide
  rcases htype with ⟨hne, hname⟩ | ⟨digits, hdigits, rfl⟩
  · obtain ⟨d, name, rfl⟩ := List.exists_cons_of_ne_nil hne
    have hinner : IsInner (d :: name ++ suffix) := hname.append hsuffix
    have hmark : mark ∉ [':', ':'] ++ (d :: name ++ suffix) := by
      rw [List.mem_append, not_or]
      exact ⟨hcolons, hinner.mark_not_mem⟩
    have hrender : render symbols = [':', ':'] ++ (d :: name ++ suffix) ++ rest := by
      rw [heq, List.append_assoc, List.append_assoc]
      rfl
    obtain ⟨back, rfl, hback⟩ := exists_chars_of_render hmark hrender
    refine ⟨_, back, rfl, List.cons_ne_nil _ _, hback, ?_⟩
    rw [← numbersOutsideCasts_append hinner.colon_not_mem back]
    -- behind the two colons stands a character other than a colon
    have hd : d ≠ ':' := (hname d List.mem_cons_self).2
    calc numbersOutsideCasts (.char ':' :: .char ':' :: .char d :: (name ++ suffix).map .char ++ back)
        = numbersOutsideCasts (.char ':' :: .char d :: (name ++ suffix).map .char ++ back) :=
          numbersOutsideCasts_char (by simp)
      _ = numbersOutsideCasts (.char d :: (name ++ suffix).map .char ++ back) :=
          numbersOutsideCasts_char (by simp [hd])
  · have hrender : render symbols = [':', ':'] ++ mark :: (digits ++ mark :: (suffix ++ rest)) := by
      rw [heq, List.cons_append, List.append_assoc]
      rfl
    obtain ⟨n, back, rfl, hmarker⟩ := exists_token_of_render hclean hcolons hrender
    rw [marker_append, List.cons.injEq,
      append_mark_inj hdigits.mark_not_mem (mark_not_mem_digits n)] at hmarker
    obtain ⟨back, rfl, hback⟩ := exists_chars_of_render hsuffix.mark_not_mem hmarker.2.2.symm
    refine ⟨.char ':' :: .char ':' :: .token n :: suffix.map .char, back, rfl,
      List.cons_ne_nil _ _, hback, ?_⟩
    exact numbersOutsideCasts_append hsuffix.colon_not_mem back

/-- Dropping the casts drops symbols, and of the tokens those behind two colons. -/
theorem exists_dropCasts {symbols : List Symbol} (hclean : .char mark ∉ symbols) :
    ∃ symbols', dropCasts (render symbols) = render symbols' ∧ symbols'.Sublist symbols ∧
      numbers symbols' = numbersOutsideCasts symbols := by
  induction hn : symbols.length using Nat.strongRecOn generalizing symbols with
  | ind n ih =>
    cases symbols with
    | nil => exact ⟨[], by simp [dropCasts], List.Sublist.refl _, rfl⟩
    | cons x symbols =>
      have hrest : ∀ front back : List Symbol, x :: symbols = front ++ back → front ≠ [] →
          ∃ symbols', dropCasts (render back) = render symbols' ∧ symbols'.Sublist back ∧
            numbers symbols' = numbersOutsideCasts back := by
        intro front back hsplit hfront
        rw [hsplit] at hn hclean
        refine ih back.length ?_ (fun h => hclean (List.mem_append_right front h)) rfl
        have hlength := List.length_pos_iff.2 hfront
        rw [List.length_append] at hn
        omega
      cases x with
      | char c =>
        rw [render_cons, Symbol.text, List.singleton_append, dropCasts]
        split
        · rename_i rest hcast
          obtain ⟨front, back, hsplit, hfront, rfl, hnumbers⟩ :=
            exists_symbols_of_cast hclean hcast
          obtain ⟨symbols', heq, hsub, hnumbers'⟩ := hrest front back hsplit hfront
          refine ⟨symbols', heq, ?_, hnumbers'.trans hnumbers.symm⟩
          rw [hsplit]
          exact hsub.trans (List.sublist_append_right front back)
        · rename_i hnone
          obtain ⟨symbols', heq, hsub, hnumbers⟩ :=
            hrest [.char c] symbols rfl (List.cons_ne_nil _ _)
          refine ⟨.char c :: symbols', by rw [heq]; rfl, hsub.cons_cons _, ?_⟩
          rw [numbersOutsideCasts_char]
          · exact hnumbers
          · -- a marker behind two colons would be a cast
            intro k back h
            obtain ⟨hc, rfl⟩ := List.cons.inj h
            obtain rfl := Symbol.char.inj hc
            obtain ⟨r, hsome⟩ := exists_afterCast?_marker k (render back)
            rw [render_cons, render_cons] at hnone
            cases hsome.symm.trans hnone
      | token k =>
        have hcolon : ':' ∉ marker k := by
          intro h
          exact absurd (isMarkerChar_of_mem_marker h) (by decide)
        obtain ⟨symbols', heq, hsub, hnumbers⟩ := 
          hrest [.token k] symbols rfl (List.cons_ne_nil _ _)
        refine ⟨.token k :: symbols', ?_, hsub.cons_cons _, congrArg (k :: ·) hnumbers⟩
        rw [render_cons, Symbol.text, dropCasts_append hcolon, heq]
        rfl

end SchemaPlan.Expression
