import Mathlib.Data.List.DropRight
import SchemaPlan.Text.Blank

/-!
# Trimmed and collapsed text

* `trim_append_of_not_blank`: a text that ends in no blank is trimmed at its start alone.
* `words_append_blank`: a blank separates words.
* `collapse_collapse`: collapsing twice is collapsing once.
* `exists_collapse_append`: what stands before a word is collapsed on its own.
* `length_collapse_le`: collapsing makes no text longer, so text that it keeps is trimmed
  (`trim_of_collapse`).
-/

set_option autoImplicit false

namespace SchemaPlan.Text

variable {s a b : List Char} {c d : Char}

/-- A property of the characters of a text is decided along the text.  Without this the instance
that goes through all characters there are can be found first. -/
instance (priority := high) decidableForallMem (P : Char → Prop) [DecidablePred P]
    (s : List Char) : Decidable (∀ c ∈ s, P c) :=
  List.decidableBAll P s

theorem toNat_of_isDigit (h : c.isDigit = true) : 48 ≤ c.toNat ∧ c.toNat ≤ 57 := by
  simp only [Char.isDigit, Bool.and_eq_true, decide_eq_true_eq] at h
  exact h

theorem isBlank_of_isDigit (h : c.isDigit = true) : isBlank c = false := by
  obtain ⟨hlow, hhigh⟩ := toNat_of_isDigit h
  simp [isBlank]
  omega

/-- Capital letters have small ones, and no other character changes in lower case. -/
theorem toLower_cases (c : Char) :
    (c.toNat < 0x41 ∨ 0x5A < c.toNat) ∧ c.toLower = c ∨
      (0x41 ≤ c.toNat ∧ c.toNat ≤ 0x5A) ∧ c.toLower.toNat = c.toNat + 0x20 := by
  by_cases hc : c.toNat < 0x80
  · have hall : ∀ n < 0x80,
        (n < 0x41 ∨ 0x5A < n) ∧ (Char.ofNat n).toLower = Char.ofNat n ∨
          (0x41 ≤ n ∧ n ≤ 0x5A) ∧ (Char.ofNat n).toLower.toNat = n + 0x20 := by
      decide +kernel
    have hcases := hall c.toNat hc
    rwa [Char.ofNat_toNat] at hcases
  · refine .inl ⟨.inr (by omega), ?_⟩
    unfold Char.toLower
    rw [dif_neg]
    rintro ⟨-, hlast⟩
    have : c.toNat ≤ 0x5A := hlast
    omega

theorem toLower_of_isDigit (h : c.isDigit = true) : c.toLower = c := by
  obtain ⟨-, hhigh⟩ := toNat_of_isDigit h
  rcases toLower_cases c with ⟨-, heq⟩ | ⟨⟨hlow, -⟩, -⟩
  · exact heq
  · omega

/-- What is in lower case stays so. -/
theorem toLower_toLower (c : Char) : c.toLower.toLower = c.toLower := by
  rcases toLower_cases c with ⟨-, heq⟩ | ⟨hupper, hlower⟩
  · rw [heq, heq]
  · rcases toLower_cases c.toLower with ⟨-, heq⟩ | ⟨hupper', -⟩
    · exact heq
    · omega

theorem isBlank_toLower (h : isBlank c = false) : isBlank c.toLower = false := by
  rcases toLower_cases c with ⟨-, heq⟩ | ⟨hupper, hlower⟩
  · rwa [heq]
  · simp [isBlank]
    omega

/-- A run of characters is read up to its end. -/
theorem span_append {p : Char → Bool} {rest : List Char} (ha : ∀ c ∈ a, p c = true)
    (hrest : ∀ c ∈ rest.head?, p c = false) :
    (a ++ rest).takeWhile p = a ∧ (a ++ rest).dropWhile p = rest := by
  have hstop : rest.takeWhile p = [] ∧ rest.dropWhile p = rest := by
    cases rest with
    | nil => exact ⟨rfl, rfl⟩
    | cons c r => simp [List.takeWhile, List.dropWhile, hrest c rfl]
  rw [List.takeWhile_append_of_pos ha, List.dropWhile_append_of_pos ha, hstop.1, hstop.2,
    List.append_nil]
  exact ⟨rfl, rfl⟩

/-! ## Trimming -/

theorem trimEnd_eq_rdropWhile (s : List Char) : trimEnd s = s.rdropWhile isBlank :=
  rfl

theorem trimEnd_append (h : isBlank c = false) (s : List Char) : trimEnd (s ++ [c]) = s ++ [c] := by
  rw [trimEnd_eq_rdropWhile, List.rdropWhile_concat_neg isBlank _ _ (by simp [h])]

/-- Text that starts with no blank and ends in none is trimmed. -/
theorem trim_eq_self (hstart : ∀ c ∈ s.head?, isBlank c = false)
    (hend : ∀ c ∈ s.getLast?, isBlank c = false) : trim s = s := by
  have hfront : trimStart s = s := by
    cases s with
    | nil => rfl
    | cons c r => exact List.dropWhile_cons_of_neg (by simp [hstart c rfl])
  rw [trim, hfront, trimEnd_eq_rdropWhile, List.rdropWhile_eq_self_iff]
  intro hne
  rw [hend _ (List.getLast?_eq_some_getLast hne)]
  exact Bool.false_ne_true

theorem trim_isInfix (s : List Char) : trim s <:+: s :=
  (List.rdropWhile_prefix isBlank _).isInfix.trans (List.dropWhile_suffix isBlank).isInfix

theorem trim_sublist (s : List Char) : (trim s).Sublist s :=
  (trim_isInfix s).sublist

theorem trim_trimStart (s : List Char) : trim (trimStart s) = trim s := by
  rw [trim, trim, trimStart, trimStart, List.dropWhile_idempotent]

/-- Blanks at the end are trimmed. -/
theorem trim_append_of_blank (h : ∀ c ∈ b, isBlank c = true) (a : List Char) :
    trim (a ++ b) = trim a := by
  have hend : ∀ s : List Char, trimEnd (s ++ b) = trimEnd s := by
    intro s
    rw [trimEnd, List.reverse_append, List.dropWhile_append_of_pos (by simpa using h), trimEnd]
  rw [trim, trimStart, List.dropWhile_append, trim, trimStart]
  split
  · rename_i hempty
    rw [List.isEmpty_iff.1 hempty, List.dropWhile_eq_nil_iff.2 h]
  · exact hend _

/-- What is stripped of some characters at both ends starts with none of them. -/
theorem head?_strip {p : Char → Bool} (hc : c ∈ ((s.dropWhile p).rdropWhile p).head?) :
    p c = false := by
  obtain ⟨r, hr⟩ := List.head?_eq_some_iff.1 hc
  obtain ⟨rest, hrest⟩ := List.rdropWhile_prefix p (s.dropWhile p)
  rw [hr, List.cons_append] at hrest
  have hne : s.dropWhile p ≠ [] := by
    rw [← hrest]
    exact List.cons_ne_nil _ _
  have hhead := List.head_dropWhile_not p hne
  simpa only [← hrest, List.head_cons] using hhead

/-- What is stripped of some characters at both ends ends in none of them. -/
theorem getLast?_strip {p : Char → Bool} (hc : c ∈ ((s.dropWhile p).rdropWhile p).getLast?) :
    p c = false := by
  have hne : (s.dropWhile p).rdropWhile p ≠ [] := fun h => by
    rw [h] at hc
    cases hc
  have hlast := List.rdropWhile_last_not p (s.dropWhile p) hne
  rw [List.getLast?_eq_some_getLast hne] at hc
  rw [← Option.some.inj hc]
  exact Bool.eq_false_iff.2 hlast

theorem trim_cons_blank (h : isBlank c = true) (s : List Char) : trim (c :: s) = trim s := by
  rw [trim, trimStart, List.dropWhile_cons_of_pos h, trim, trimStart]

/-- What ends in no blank and has none at its front is trimmed at the start of what stands before
it. -/
theorem trim_append_of_not_blank (hc : isBlank c = false) (hd : isBlank d = false)
    (s : List Char) : trim (s ++ [c, d]) = trimStart s ++ [c, d] := by
  have hfront : trimStart (s ++ [c, d]) = trimStart s ++ [c, d] := by
    have hpair : [c, d].dropWhile isBlank = [c, d] :=
      List.dropWhile_cons_of_neg (by simp [hc])
    rw [trimStart, List.dropWhile_append, hpair]
    split
    · rename_i hempty
      rw [trimStart, List.isEmpty_iff.1 hempty, List.nil_append]
    · rfl
  rw [trim, hfront, List.append_cons, trimEnd_append hd]

/-! ## Words -/

/-- A blank behind a character ends its word. -/
theorem extendWords_of_blank (c : Char) (h : isBlank d = true) (ws : List (List Char)) :
    extendWords c (some d) ws = [c] :: ws := by
  cases ws with
  | nil => rfl
  | cons w ws => simp only [extendWords, h, if_true]

theorem words_cons_ne_nil (h : isBlank c = false) (r : List Char) : words (c :: r) ≠ [] := by
  rw [words, if_neg (by simp [h])]
  unfold extendWords
  split
  · split <;> simp
  · simp

/-- A blank separates words. -/
theorem words_append_blank (h : isBlank c = true) (a b : List Char) :
    words (a ++ c :: b) = words a ++ words b := by
  induction a with
  | nil => exact words_cons_blank h b
  | cons x a ih =>
    cases hx : isBlank x with
    | true => rw [List.cons_append, words_cons_blank hx, words_cons_blank hx, ih]
    | false =>
      rw [List.cons_append, words, words, if_neg (by simp [hx]), if_neg (by simp [hx]), ih]
      cases a with
      | nil => exact extendWords_of_blank x h (words b)
      | cons y r =>
        rw [List.cons_append, List.head?_cons, List.head?_cons]
        cases hwords : words (y :: r) with
        | nil =>
          have hy : isBlank y = true := by
            by_contra hne
            exact words_cons_ne_nil (Bool.eq_false_iff.2 hne) r hwords
          rw [List.nil_append, extendWords_of_blank x hy, extendWords_of_blank x hy]
          rfl
        | cons w ws =>
          rw [List.cons_append]
          simp only [extendWords]
          split <;> rfl

/-- Two characters in a row that are no blanks belong to one word. -/
theorem words_cons_cons (hc : isBlank c = false) (hd : isBlank d = false) (r : List Char) :
    ∃ w ws, words (d :: r) = w :: ws ∧ words (c :: d :: r) = (c :: w) :: ws := by
  obtain ⟨w, ws, hwords⟩ := List.exists_cons_of_ne_nil (words_cons_ne_nil hd r)
  refine ⟨w, ws, hwords, ?_⟩
  rw [words, if_neg (by simp [hc]), hwords, List.head?_cons]
  simp only [extendWords, hd, Bool.false_eq_true, if_false]

theorem words_of_not_blank (hs : s ≠ []) (h : ∀ c ∈ s, isBlank c = false) : words s = [s] := by
  induction s with
  | nil => exact absurd rfl hs
  | cons c r ih =>
    cases r with
    | nil => simp [words, h c List.mem_cons_self, extendWords]
    | cons d r =>
      have hrest : ∀ x ∈ d :: r, isBlank x = false := fun x hx => h x (List.mem_cons_of_mem c hx)
      obtain ⟨w, ws, hwords, heq⟩ :=
        words_cons_cons (h c List.mem_cons_self) (hrest d List.mem_cons_self) r
      rw [ih (List.cons_ne_nil d r) hrest, List.cons.injEq] at hwords
      rw [heq, ← hwords.1, ← hwords.2]

/-- No word holds a blank. -/
theorem not_blank_of_mem_words {w : List Char} (hw : w ∈ words s) : ∀ c ∈ w, isBlank c = false := by
  induction s generalizing w with
  | nil => cases hw
  | cons c r ih =>
    rw [words] at hw
    split at hw
    · exact ih hw
    · rename_i hc
      have hhead : isBlank c = false := Bool.eq_false_iff.2 hc
      unfold extendWords at hw
      split at hw
      · rename_i d v vs hnext hrest
        have hall : ∀ w ∈ v :: vs, ∀ c ∈ w, isBlank c = false := fun w hw => ih (hrest ▸ hw)
        split at hw
        · rcases List.mem_cons.1 hw with rfl | hw
          · exact List.forall_mem_singleton.2 hhead
          · exact hall w hw
        · rcases List.mem_cons.1 hw with rfl | hw
          · exact List.forall_mem_cons.2 ⟨hhead, hall v List.mem_cons_self⟩
          · exact hall w (List.mem_cons_of_mem v hw)
      · rcases List.mem_cons.1 hw with rfl | hw
        · exact List.forall_mem_singleton.2 hhead
        · exact ih hw

/-! ## Collapsing -/

theorem collapse_cons_blank (h : isBlank c = true) (r : List Char) :
    collapse (c :: r) = collapse r := by
  rw [collapse, words_cons_blank h, collapse]

theorem collapse_cons_cons (hc : isBlank c = false) (hd : isBlank d = false) (r : List Char) :
    collapse (c :: d :: r) = c :: collapse (d :: r) := by
  obtain ⟨w, ws, hwords, heq⟩ := words_cons_cons hc hd r
  rw [collapse, collapse, heq, hwords, List.intercalate_cons_cons_left]

/-- A blank behind a word becomes one space, unless no word follows. -/
theorem collapse_append_blank (hs : s ≠ []) (hword : ∀ c ∈ s, isBlank c = false)
    (h : isBlank d = true) (r : List Char) :
    collapse (s ++ d :: r) = if words r = [] then s else s ++ ' ' :: collapse r := by
  rw [collapse, words_append_blank h, words_of_not_blank hs hword, collapse]
  split
  · rename_i hempty
    rw [hempty]
    exact List.intercalate_singleton
  · rename_i hne
    rw [List.singleton_append, List.intercalate_cons_of_ne_nil hne]
    simp

/-- A character that is no blank is kept, with a space behind it when a blank and then a word
follow. -/
theorem collapse_cons (h : isBlank c = false) (r : List Char) :
    collapse (c :: r) = c :: if r.head?.any isBlank = true ∧ words r ≠ [] then ' ' :: collapse r
      else collapse r := by
  have hlone : ∀ x ∈ [c], isBlank x = false := List.forall_mem_singleton.2 h
  cases r with
  | nil => rw [collapse, words_of_not_blank (List.cons_ne_nil c []) hlone]; simp [collapse, words]
  | cons d r =>
    cases hd : isBlank d with
    | true =>
      have hsplit := collapse_append_blank (List.cons_ne_nil c []) hlone hd r
      rw [List.singleton_append, List.singleton_append] at hsplit
      rw [hsplit, collapse_cons_blank hd, words_cons_blank hd]
      by_cases hwords : words r = []
      · simp [hwords, collapse]
      · simp [hwords, hd]
    | false =>
      rw [collapse_cons_cons h hd]
      simp [hd]

/-- Collapsing makes no text longer. -/
theorem length_collapse_le (s : List Char) : (collapse s).length ≤ s.length := by
  induction hn : s.length using Nat.strongRecOn generalizing s with
  | ind n ih =>
    cases s with
    | nil => simp [collapse, words]
    | cons c r =>
      rw [List.length_cons] at hn
      cases hc : isBlank c with
      | true =>
        rw [collapse_cons_blank hc]
        have := ih r.length (by omega) r rfl
        omega
      | false =>
        have hlone : ∀ x ∈ [c], isBlank x = false := List.forall_mem_singleton.2 hc
        cases r with
        | nil => rw [collapse, words_of_not_blank (List.cons_ne_nil c []) hlone]; simpa using hn.le
        | cons d r =>
          rw [List.length_cons] at hn
          cases hd : isBlank d with
          | true =>
            have hsplit := collapse_append_blank (List.cons_ne_nil c []) hlone hd r
            rw [List.singleton_append] at hsplit
            rw [hsplit]
            have := ih r.length (by omega) r rfl
            split <;> simp <;> omega
          | false =>
            rw [collapse_cons_cons hc hd, List.length_cons]
            have := ih (d :: r).length (by simp; omega) (d :: r) rfl
            simp at this
            omega

/-- The words of words that are joined by spaces. -/
theorem words_intercalate {ws : List (List Char)}
    (h : ∀ w ∈ ws, w ≠ [] ∧ ∀ c ∈ w, isBlank c = false) : words ([' '].intercalate ws) = ws := by
  induction ws with
  | nil => rfl
  | cons w ws ih =>
    obtain ⟨⟨hne, hword⟩, hrest⟩ := List.forall_mem_cons.1 h
    cases ws with
    | nil => rw [List.intercalate_singleton, words_of_not_blank hne hword]
    | cons v ws =>
      rw [List.intercalate_cons_of_ne_nil (List.cons_ne_nil v ws), List.append_assoc,
        List.singleton_append, words_append_blank isBlank_space, words_of_not_blank hne hword,
        ih hrest, List.singleton_append]

/-- Collapsing twice is collapsing once. -/
theorem collapse_collapse (s : List Char) : collapse (collapse s) = collapse s := by
  have hwords : words (collapse s) = words s :=
    words_intercalate fun w hw => ⟨ne_nil_of_mem_words w hw, not_blank_of_mem_words hw⟩
  rw [collapse, hwords, collapse]

theorem collapse_of_not_blank (h : ∀ c ∈ s, isBlank c = false) : collapse s = s := by
  cases s with
  | nil => rfl
  | cons c r =>
    rw [collapse, words_of_not_blank (List.cons_ne_nil c r) h, List.intercalate_singleton]

/-- Two words with a space between them are kept. -/
theorem collapse_append_space (ha : a ≠ []) (haword : ∀ c ∈ a, isBlank c = false) (hb : b ≠ [])
    (hbword : ∀ c ∈ b, isBlank c = false) : collapse (a ++ ' ' :: b) = a ++ ' ' :: b := by
  have hwords : words b ≠ [] := by
    rw [words_of_not_blank hb hbword]
    exact List.cons_ne_nil b []
  rw [collapse_append_blank ha haword isBlank_space, if_neg hwords, collapse_of_not_blank hbword]

/-- Text that collapsing keeps has no blanks at its ends. -/
theorem trim_of_collapse (h : collapse s = s) : trim s = s := by
  refine trim_eq_self (fun c hc => ?_) fun c hc => ?_
  · cases s with
    | nil => cases hc
    | cons x r =>
      obtain rfl : x = c := Option.some.inj hc
      by_contra hblank
      rw [collapse_cons_blank (Bool.of_not_eq_false hblank)] at h
      have hlength := length_collapse_le r
      rw [h, List.length_cons] at hlength
      omega
  · obtain ⟨front, rfl⟩ := List.getLast?_eq_some_iff.1 hc
    by_contra hblank
    have hwords : words (front ++ [c]) = words front := by
      rw [words_append_blank (Bool.of_not_eq_false hblank)]
      exact List.append_nil _
    have hlength := length_collapse_le front
    rw [collapse, ← hwords, ← collapse, h, List.length_append, List.length_singleton] at hlength
    omega

/-- A character of the collapsed text is a space or one of the text. -/
theorem mem_collapse (h : c ∈ collapse s) : c = ' ' ∨ c ∈ s := by
  have hextend : ∀ (c : Char) (next : Option Char) (ws : List (List Char)),
      (extendWords c next ws).flatten = c :: ws.flatten := by
    intro c next ws
    unfold extendWords
    split
    · split <;> rfl
    · rfl
  have hwords : ∀ s : List Char, (words s).flatten.Sublist s := by
    intro s
    induction s with
    | nil => exact List.Sublist.refl []
    | cons c r ih =>
      rw [words]
      split
      · exact ih.cons c
      · rw [hextend]
        exact ih.cons_cons c
  have hjoined : ∀ {ws : List (List Char)},
      c ∈ [' '].intercalate ws → c = ' ' ∨ c ∈ ws.flatten := by
    intro ws
    induction ws with
    | nil => exact fun hc => absurd hc List.not_mem_nil
    | cons w ws ih =>
      cases ws with
      | nil => simpa using .inr
      | cons v ws =>
        rw [List.intercalate_cons_of_ne_nil (List.cons_ne_nil v ws), List.flatten_cons,
          List.mem_append, List.mem_append, List.mem_append, List.mem_singleton]
        rintro ((hc | rfl) | hc)
        · exact .inr (.inl hc)
        · exact .inl rfl
        · exact (ih hc).imp_right .inr
  exact (hjoined h).imp_right fun hc => (hwords s).subset hc

theorem intercalate_append {us ws : List (List Char)} (hus : us ≠ []) (hws : ws ≠ []) :
    [' '].intercalate (us ++ ws) = [' '].intercalate us ++ [' '] ++ [' '].intercalate ws := by
  induction us with
  | nil => exact absurd rfl hus
  | cons u us ih =>
    cases us with
    | nil =>
      rw [List.singleton_append, List.intercalate_cons_of_ne_nil hws, List.intercalate_singleton]
    | cons v us =>
      rw [List.cons_append, List.intercalate_cons_of_ne_nil (by simp), ih (List.cons_ne_nil v us),
        List.intercalate_cons_of_ne_nil (List.cons_ne_nil v us)]
      simp only [List.append_assoc]

/-- The last word of a text, maybe an empty one, and what stands before it. -/
theorem exists_word_behind_blank (s : List Char) :
    ∃ a w, s = a ++ w ∧ (∀ c ∈ a.getLast?, isBlank c = true) ∧ ∀ c ∈ w, isBlank c = false := by
  let isOther : Char → Bool := fun c => !isBlank c
  refine ⟨s.rdropWhile isOther, s.rtakeWhile isOther, List.rdropWhile_append_rtakeWhile.symm,
    fun c hc => ?_, fun c hc => by simpa [isOther] using List.mem_rtakeWhile_imp hc⟩
  have hne : s.rdropWhile isOther ≠ [] := by
    intro hempty
    rw [hempty] at hc
    cases hc
  have hlast := List.rdropWhile_last_not isOther s hne
  rw [List.getLast?_eq_some_getLast hne] at hc
  obtain rfl := Option.some.inj hc
  simpa [isOther] using hlast

/-- Text that does not end in a blank ends in a word, which collapsing keeps together with what
follows without a blank. -/
theorem exists_last_word (hs : s ≠ []) (hend : ∀ c ∈ s.getLast?, isBlank c = false) :
    ∃ a b w, s = a ++ w ∧ w ≠ [] ∧ (∀ c ∈ b.getLast?, c = ' ') ∧
      ∀ z, (∀ c ∈ z, isBlank c = false) → collapse (s ++ z) = b ++ (w ++ z) := by
  obtain ⟨a, w, rfl, hblank, hword⟩ := exists_word_behind_blank s
  have hne : w ≠ [] := by
    rintro rfl
    rw [List.append_nil] at hs hend
    have hlast := List.getLast?_eq_some_getLast hs
    have hother := hend _ hlast
    rw [hblank _ hlast] at hother
    cases hother
  have hwhole : ∀ z : List Char, (∀ c ∈ z, isBlank c = false) → ∀ c ∈ w ++ z, isBlank c = false :=
    fun z hz => List.forall_mem_append.2 ⟨hword, hz⟩
  rcases List.eq_nil_or_concat a with rfl | ⟨a, x, rfl⟩
  · exact ⟨[], [], w, rfl, hne, (fun c hc => by cases hc),
      fun z hz => collapse_of_not_blank (hwhole z hz)⟩
  · have hx : isBlank x = true := hblank x (by simp)
    refine ⟨a ++ [x], if words a = [] then [] else collapse a ++ [' '], w, by simp, hne, ?_,
      fun z hz => ?_⟩
    · intro c hc
      split at hc
      · cases hc
      · simpa [eq_comm] using hc
    · have hwords : words (a.concat x ++ w ++ z) = words a ++ [w ++ z] := by
        rw [List.concat_eq_append, List.append_assoc, ← List.append_cons, words_append_blank hx,
          words_of_not_blank (List.append_ne_nil_of_left_ne_nil hne z) (hwhole z hz)]
      rw [collapse, hwords, collapse]
      split
      · rename_i hempty
        rw [hempty, List.nil_append, List.intercalate_singleton, List.nil_append]
      · rename_i hbefore
        rw [intercalate_append hbefore (List.cons_ne_nil _ _), List.intercalate_singleton]

/-- What follows without a blank is kept. -/
theorem collapse_append {z : List Char} (hs : s ≠ []) (hend : ∀ c ∈ s.getLast?, isBlank c = false)
    (hz : ∀ c ∈ z, isBlank c = false) : collapse (s ++ z) = collapse s ++ z := by
  obtain ⟨a, b, w, -, -, -, hcollapse⟩ := exists_last_word hs hend
  have hself := hcollapse [] (List.forall_mem_nil _)
  rw [List.append_nil, List.append_nil] at hself
  rw [hcollapse z hz, hself, List.append_assoc]

theorem collapse_ne_nil (hs : s ≠ []) (hend : ∀ c ∈ s.getLast?, isBlank c = false) :
    collapse s ≠ [] := by
  obtain ⟨a, b, w, -, hne, -, hcollapse⟩ := exists_last_word hs hend
  have hself := hcollapse [] (List.forall_mem_nil _)
  rw [List.append_nil, List.append_nil] at hself
  rw [hself]
  exact List.append_ne_nil_of_right_ne_nil b hne

/-- Text that does not end in a blank ends in two characters, the first of them no blank, when it
does so collapsed. -/
theorem exists_of_collapse_eq_append {r : List Char} (hc : isBlank c = false)
    (hend : ∀ x ∈ s.getLast?, isBlank x = false) (h : collapse s = r ++ [c, d]) :
    ∃ front, s = front ++ [c, d] := by
  have hs : s ≠ [] := by
    rintro rfl
    simp [collapse, words] at h
  obtain ⟨a, b, w, rfl, hne, hspace, hcollapse⟩ := exists_last_word hs hend
  have hself := hcollapse [] (List.forall_mem_nil _)
  rw [List.append_nil, List.append_nil, h] at hself
  rcases List.eq_nil_or_concat w with rfl | ⟨w, y, rfl⟩
  · exact absurd rfl hne
  · rw [List.concat_eq_append, ← List.append_assoc, List.append_cons r c] at hself
    obtain ⟨hfront, hy⟩ := List.append_inj' hself rfl
    rcases List.eq_nil_or_concat w with rfl | ⟨w, x, rfl⟩
    · rw [List.append_nil] at hfront
      have hc' : c = ' ' := hspace c (by simp [← hfront])
      rw [hc', isBlank_space] at hc
      cases hc
    · rw [List.concat_eq_append, ← List.append_assoc] at hfront
      obtain ⟨-, hx⟩ := List.append_inj' hfront rfl
      obtain rfl := List.singleton_inj.1 hx
      obtain rfl := List.singleton_inj.1 hy
      exact ⟨a ++ w, by simp⟩

/-! ## Text behind other text -/

/-- A word is kept in front of what it goes on with. -/
theorem collapse_word_append (hs : ∀ c ∈ s, isBlank c = false) (hd : isBlank d = false)
    (r : List Char) : collapse (s ++ d :: r) = s ++ collapse (d :: r) := by
  induction s with
  | nil => rfl
  | cons c s ih =>
    obtain ⟨hc, hs⟩ := List.forall_mem_cons.1 hs
    rw [List.cons_append, List.cons_append, ← ih hs]
    cases s with
    | nil => exact collapse_cons_cons hc hd r
    | cons e s => exact collapse_cons_cons hc (List.forall_mem_cons.1 hs).1 _

/-- Words behind a blank stand behind one space, unless they are the first. -/
theorem collapse_append_blank_append (hd : isBlank d = true) (a : List Char) {b : List Char}
    (hb : words b ≠ []) :
    collapse (a ++ d :: b) = (if words a = [] then [] else collapse a ++ [' ']) ++ collapse b := by
  rw [collapse, words_append_blank hd]
  split
  · rename_i hempty
    rw [hempty]
    rfl
  · rename_i hne
    rw [intercalate_append hne hb]
    rfl

/-- A text without blanks ends another when it ends its last word. -/
theorem isSuffix_append_iff {w : List Char} (hw : ∀ c ∈ w, isBlank c = false)
    (ha : ∀ c ∈ a.getLast?, isBlank c = true) : w <:+ a ++ b ↔ w <:+ b := by
  constructor
  · rintro ⟨t, ht⟩
    rcases List.append_eq_append_iff.1 ht with ⟨u, rfl, rfl⟩ | ⟨u, rfl, rfl⟩
    · rcases List.eq_nil_or_concat u with rfl | ⟨u, d, rfl⟩
      · exact List.suffix_rfl
      · have hblank : isBlank d = true := ha d (by simp)
        rw [hw d (by simp)] at hblank
        cases hblank
    · exact List.suffix_append u w
  · exact fun h => h.trans (List.suffix_append a b)

/-- What stands before a character that is no blank is collapsed on its own, and keeps its last
word. -/
theorem exists_collapse_append (a : List Char) :
    ∃ x, (∀ d r, isBlank d = false → collapse (a ++ d :: r) = x ++ collapse (d :: r)) ∧
      ∀ w, (∀ c ∈ w, isBlank c = false) → (w <:+ x ↔ w <:+ a) := by
  obtain ⟨front, word, rfl, hblank, hword⟩ := exists_word_behind_blank a
  rcases List.eq_nil_or_concat front with rfl | ⟨front, e, rfl⟩
  · exact ⟨word, fun d r hd => collapse_word_append hword hd r, fun w _ => Iff.rfl⟩
  · have he : isBlank e = true := hblank e (by simp)
    refine ⟨(if words front = [] then [] else collapse front ++ [' ']) ++ word,
      fun d r hd => ?_, fun w hw => ?_⟩
    · have hne : words (word ++ d :: r) ≠ [] := by
        cases word with
        | nil => exact words_cons_ne_nil hd r
        | cons c word => exact words_cons_ne_nil (hword c List.mem_cons_self) _
      rw [List.concat_eq_append, List.append_assoc, List.append_assoc, List.singleton_append,
        collapse_append_blank_append he front hne, collapse_word_append hword hd, List.append_assoc]
    · have hspace : ∀ c ∈ (if words front = [] then [] else collapse front ++ [' ']).getLast?,
          isBlank c = true := by
        intro c hc
        split at hc
        · cases hc
        · obtain rfl : ' ' = c := by simpa using hc
          exact isBlank_space
      rw [isSuffix_append_iff hw hspace, isSuffix_append_iff hw hblank]

end SchemaPlan.Text
