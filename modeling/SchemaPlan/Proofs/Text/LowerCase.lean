import SchemaPlan.Proofs.Text.Blank
import SchemaPlan.Proofs.Text.Rewriting
import SchemaPlan.Text.CaseMap

/-!
# Text in lower case

Lower case is final: the lower case form of a capital is no capital itself.  For the runs of capital
letters this is a property of pairs of runs, which `runs_closed` checks on the table.

* `rewrites_lowercase`: lower case replaces character by character.
* `lower_of_mem_lowercase`: a text in lower case holds settled characters only, and no sign that was
  not there.
* `lowercase_of_settled`: a text of settled characters is in lower case.
* `suffix_lowercase_iff`: a text in lower case ends in ASCII characters that the text ended in.
-/

set_option autoImplicit false

namespace SchemaPlan.Text

/-- A character that lower case keeps, whatever stands around it. -/
structure IsSettled (c : Char) : Prop where
  lower : lowercaseChar c = [c]
  noSigma : c.toNat ≠ 0x3A3

instance (c : Char) : Decidable (IsSettled c) :=
  decidable_of_iff (lowercaseChar c = [c] ∧ c.toNat ≠ 0x3A3)
    ⟨fun ⟨hlower, hsigma⟩ => ⟨hlower, hsigma⟩, fun ⟨hlower, hsigma⟩ => ⟨hlower, hsigma⟩⟩

/-- A character that is no letter and no lower case form of one. -/
def IsSign (c : Char) : Prop :=
  c.toNat < 0x41 ∨ isBlank c = true

instance (c : Char) : Decidable (IsSign c) :=
  inferInstanceAs (Decidable (_ ∨ _))

/-! ## Runs of capital letters -/

/-- The ranges of the blank characters. -/
def blankRanges : List (Nat × Nat) :=
  [(0x9, 0xD), (0x20, 0x20), (0x85, 0x85), (0xA0, 0xA0), (0x1680, 0x1680), (0x2000, 0x200A),
    (0x2028, 0x2029), (0x202F, 0x202F), (0x205F, 0x205F), (0x3000, 0x3000)]

theorem isBlank_iff {c : Char} : isBlank c = true ↔ inRanges blankRanges c.toNat = true := by
  simp only [isBlank, inRanges, blankRanges, List.any_cons, List.any_nil, Bool.or_eq_true,
    Bool.and_eq_true, decide_eq_true_eq, beq_iff_eq, Bool.or_false]
  omega

/-- The last lower case form of a run. -/
def lastLower (run : Nat × Nat × Nat × Nat) : Nat :=
  run.2.2.2 + (run.2.1 - run.1)

/-- Whether no lower case form of the first run is a capital of the second. -/
def missesRun (run other : Nat × Nat × Nat × Nat) : Bool :=
  lastLower run < other.1 || other.2.1 < run.2.2.2 ||
    (other.2.2.1 == 2 && (run.2.2.1 == 2 || run.1 == run.2.1) &&
      (run.2.2.2 - other.1) % 2 == 1)

/-- Whether the lower case forms of a run are characters beyond the signs, and none of those that
are mapped on their own. -/
def missesSigns (run : Nat × Nat × Nat × Nat) : Bool :=
  (lastLower run < 0xD800 || (0xE000 ≤ run.2.2.2 && lastLower run < 0x110000)) &&
    (0x80 ≤ run.2.2.2 || (run.2.2.2 == 0x6B && run.1 == run.2.1)) &&
    ((0x130, 0x130) :: (0x3A3, 0x3A3) :: blankRanges).all fun range =>
      lastLower run < range.1 || range.2 < run.2.2.2

/-- The lower case forms of the runs are no capitals and no signs. -/
theorem runs_closed : (lowercaseRuns.all fun run =>
    missesSigns run && lowercaseRuns.all fun other => missesRun run other) = true := by
  decide +kernel

/-- The run of a capital letter. -/
def runOf? (c : Char) : Option (Nat × Nat × Nat × Nat) :=
  lowercaseRuns.find? fun run =>
    run.1 ≤ c.toNat && c.toNat ≤ run.2.1 && (c.toNat - run.1) % run.2.2.1 == 0

/-- The number of the lower case form of a letter in a run. -/
def lowerNumber (run : Nat × Nat × Nat × Nat) (c : Char) : Nat :=
  run.2.2.2 + (c.toNat - run.1)

theorem runOf?_eq_some {c : Char} {run : Nat × Nat × Nat × Nat} (h : runOf? c = some run) :
    run ∈ lowercaseRuns ∧ run.1 ≤ c.toNat ∧ c.toNat ≤ run.2.1 ∧
      (c.toNat - run.1) % run.2.2.1 = 0 := by
  have hrun := List.find?_some h
  simp only [Bool.and_eq_true, decide_eq_true_eq, beq_iff_eq] at hrun
  exact ⟨List.mem_of_find?_eq_some h, hrun.1.1, hrun.1.2, hrun.2⟩

theorem lowercaseChar_of_high {c : Char} (hhigh : 0x80 ≤ c.toNat) (hdotted : c.toNat ≠ 0x130) :
    lowercaseChar c = match runOf? c with
      | some run => [Char.ofNat (lowerNumber run c)]
      | none => [c] := by
  rw [lowercaseChar, if_neg (Nat.not_lt.2 hhigh), if_neg hdotted]
  rfl

theorem toNat_ofNat {n : Nat} (h : n.isValidChar) : (Char.ofNat n).toNat = n := by
  unfold Char.ofNat
  rw [dif_pos h]
  rfl

theorem lowerNumber_bounds {c : Char} {run : Nat × Nat × Nat × Nat} (h : runOf? c = some run) :
    run.2.2.2 ≤ lowerNumber run c ∧ lowerNumber run c ≤ lastLower run := by
  obtain ⟨-, hfirst, hlast, -⟩ := runOf?_eq_some h
  unfold lowerNumber lastLower
  omega

/-- The lower case form of a letter in a run is in no run that the run misses. -/
theorem not_inRun_of_missesRun {c : Char} {run other : Nat × Nat × Nat × Nat}
    (h : runOf? c = some run) (hmisses : missesRun run other = true)
    (hfirst : other.1 ≤ lowerNumber run c) (hlast : lowerNumber run c ≤ other.2.1) :
    (lowerNumber run c - other.1) % other.2.2.1 ≠ 0 := by
  obtain ⟨-, hge, hle, hstep⟩ := runOf?_eq_some h
  have hbounds := lowerNumber_bounds h
  simp only [missesRun, Bool.or_eq_true, Bool.and_eq_true, decide_eq_true_eq,
    beq_iff_eq] at hmisses
  rcases hmisses with (hbefore | hbehind) | ⟨⟨htwo, heven⟩, hodd⟩
  · omega
  · omega
  · -- the lower case forms alternate with the letters of the other run
    have hdistance : (c.toNat - run.1) % 2 = 0 := by
      rcases heven with heven | hone
      · rwa [← heven]
      · omega
    rw [htwo]
    unfold lowerNumber at hfirst ⊢
    omega

theorem toNat_lowerNumber {c : Char} {run : Nat × Nat × Nat × Nat} (h : runOf? c = some run) :
    (Char.ofNat (lowerNumber run c)).toNat = lowerNumber run c := by
  have hclosed := List.all_eq_true.1 runs_closed run (runOf?_eq_some h).1
  simp only [missesSigns, Bool.and_eq_true, Bool.or_eq_true, decide_eq_true_eq] at hclosed
  obtain ⟨⟨⟨hvalid, -⟩, -⟩, -⟩ := hclosed
  have hbounds := lowerNumber_bounds h
  apply toNat_ofNat
  show _ < 0xD800 ∨ 0xDFFF < _ ∧ _ < 0x110000
  omega

/-- The sign of the unit Kelvin is the one capital beyond ASCII whose lower case form is an ASCII
letter. -/
theorem lowerNumber_high {c : Char} {run : Nat × Nat × Nat × Nat} (h : runOf? c = some run) :
    0x80 ≤ lowerNumber run c ∨ lowerNumber run c = 0x6B := by
  obtain ⟨hrun, hfirst, hlast, -⟩ := runOf?_eq_some h
  have hclosed := List.all_eq_true.1 runs_closed run hrun
  simp only [missesSigns, Bool.and_eq_true, Bool.or_eq_true, decide_eq_true_eq,
    beq_iff_eq] at hclosed
  obtain ⟨⟨⟨-, hlow⟩, -⟩, -⟩ := hclosed
  unfold lowerNumber
  omega

/-- What the table guarantees for the lower case form of a letter in a run. -/
theorem lower_of_run {c : Char} {run : Nat × Nat × Nat × Nat} (h : runOf? c = some run) :
    IsSettled (Char.ofNat (lowerNumber run c)) ∧ ¬ IsSign (Char.ofNat (lowerNumber run c)) := by
  obtain ⟨hrun, hfirst, hlast, -⟩ := runOf?_eq_some h
  have hclosed := List.all_eq_true.1 runs_closed run hrun
  simp only [missesSigns, Bool.and_eq_true, Bool.or_eq_true, decide_eq_true_eq, beq_iff_eq,
    List.all_cons, List.all_eq_true] at hclosed
  obtain ⟨⟨-, hdotted, hsigma, hblanks⟩, hothers⟩ := hclosed
  have hbounds := lowerNumber_bounds h
  have hhigh := lowerNumber_high h
  have hnumber := toNat_lowerNumber h
  constructor
  · rcases hhigh with hhigh | hn
    · have hnone : runOf? (Char.ofNat (lowerNumber run c)) = none := by
        by_contra hsome
        obtain ⟨other, hother⟩ := Option.ne_none_iff_exists'.1 hsome
        obtain ⟨hmem, hge, hle, hmod⟩ := runOf?_eq_some hother
        rw [hnumber] at hge hle hmod
        exact not_inRun_of_missesRun h (hothers other hmem) hge hle hmod
      refine ⟨?_, by omega⟩
      rw [lowercaseChar_of_high (by omega) (by omega), hnone]
    · rw [hn]
      decide
  · rintro (hlow' | hblank)
    · omega
    · obtain ⟨range, hrange, hbetween⟩ := inRanges_eq_true_iff.1 (isBlank_iff.1 hblank)
      have hmisses := hblanks range hrange
      omega

/-! ## The lower case form of a character -/

theorem toLower_of_sign {c : Char} (h : c.toNat < 0x41) : c.toLower = c := by
  rcases toLower_cases c with ⟨-, heq⟩ | ⟨hupper, -⟩
  · exact heq
  · omega

theorem toLower_of_high {c : Char} (h : 0x80 ≤ c.toNat) : c.toLower = c := by
  rcases toLower_cases c with ⟨-, heq⟩ | ⟨hupper, -⟩
  · exact heq
  · omega

theorem toLower_of_isBlank {c : Char} (h : isBlank c = true) : c.toLower = c := by
  rcases Nat.lt_or_ge c.toNat 0x41 with hlow | hhigh
  · exact toLower_of_sign hlow
  · apply toLower_of_high
    simp [isBlank] at h
    omega

theorem lower_of_ascii {c : Char} (h : c.toNat < 0x80) :
    IsSettled c.toLower ∧ (IsSign c.toLower → c.toLower = c) := by
  have hall : ∀ n < 0x80, IsSettled (Char.ofNat n).toLower ∧
      (IsSign (Char.ofNat n).toLower → (Char.ofNat n).toLower = Char.ofNat n) := by
    decide +kernel
  have hc := hall c.toNat h
  rwa [Char.ofNat_toNat] at hc

/-- The lower case forms that a character has: its own, or one of two for a capital sigma. -/
inductive IsLowercaseOf (c : Char) : List Char → Prop where
  | alone (hsigma : c.toNat ≠ 0x3A3) : IsLowercaseOf c (lowercaseChar c)
  | sigma (n : Nat) (hsigma : c.toNat = 0x3A3) (hn : n ∈ [0x3C2, 0x3C3]) :
    IsLowercaseOf c [Char.ofNat n]

theorem lower_of_isLowercaseOf {c d : Char} {cs : List Char} (h : IsLowercaseOf c cs)
    (hd : d ∈ cs) : IsSettled d ∧ (IsSign d → d = c) := by
  cases h with
  | alone hsigma =>
    rcases Nat.lt_or_ge c.toNat 0x80 with hlow | hhigh
    · rw [lowercaseChar, if_pos hlow, List.mem_singleton] at hd
      rw [hd]
      exact lower_of_ascii hlow
    · by_cases hdotted : c.toNat = 0x130
      · rw [lowercaseChar, if_neg (Nat.not_lt.2 hhigh), if_pos hdotted] at hd
        have hall : ∀ d ∈ [Char.ofNat 0x69, Char.ofNat 0x307], IsSettled d ∧ ¬ IsSign d := by
          decide +kernel
        exact ⟨(hall d hd).1, fun hsign => absurd hsign (hall d hd).2⟩
      · rw [lowercaseChar_of_high hhigh hdotted] at hd
        cases hrun : runOf? c with
        | some run =>
          rw [hrun, List.mem_singleton] at hd
          rw [hd]
          exact ⟨(lower_of_run hrun).1, fun hsign => absurd hsign (lower_of_run hrun).2⟩
        | none =>
          rw [hrun, List.mem_singleton] at hd
          rw [hd]
          refine ⟨⟨?_, hsigma⟩, fun _ => rfl⟩
          rw [lowercaseChar_of_high hhigh hdotted, hrun]
  | sigma n hsigma hn =>
    have hall : ∀ n ∈ [0x3C2, 0x3C3], IsSettled (Char.ofNat n) ∧ ¬ IsSign (Char.ofNat n) := by
      decide +kernel
    rw [List.mem_singleton] at hd
    rw [hd]
    exact ⟨(hall n hn).1, fun hsign => absurd hsign (hall n hn).2⟩

/-- A sign is its own lower case form. -/
theorem IsLowercaseOf.eq_singleton {c : Char} {cs : List Char} (h : IsLowercaseOf c cs)
    (hc : c.toNat < 0x41) : cs = [c] := by
  cases h with
  | alone hsigma => rw [lowercaseChar, if_pos (by omega), toLower_of_sign hc]
  | sigma n hsigma hn => omega

/-! ## Texts -/

theorem rewrites_lowercaseAfter (before s : List Char) :
    Rewrites IsLowercaseOf s (lowercaseAfter before s) := by
  induction s generalizing before with
  | nil => exact .nil
  | cons c r ih =>
    rw [lowercaseAfter]
    refine .cons ?_ (ih (c :: before))
    split
    · rename_i hsigma
      split
      · exact .sigma 0x3C2 hsigma (by simp)
      · exact .sigma 0x3C3 hsigma (by simp)
    · rename_i hsigma
      exact .alone hsigma

/-- Lower case replaces character by character. -/
theorem rewrites_lowercase (s : List Char) : Rewrites IsLowercaseOf s (lowercase s) :=
  rewrites_lowercaseAfter [] s

/-- A character in lower case is settled, and a sign only where it was one. -/
theorem lower_of_mem_lowercase {s : List Char} {d : Char} (hd : d ∈ lowercase s) :
    IsSettled d ∧ (IsSign d → d ∈ s) := by
  obtain ⟨c, hc, cs, hcs, hmem⟩ := (rewrites_lowercase s).exists_of_mem hd
  obtain ⟨hsettled, hsign⟩ := lower_of_isLowercaseOf hcs hmem
  exact ⟨hsettled, fun h => hsign h ▸ hc⟩

/-- A text of settled characters is in lower case. -/
theorem lowercase_of_settled {s : List Char} (h : ∀ c ∈ s, IsSettled c) : lowercase s = s := by
  suffices hafter : ∀ before, lowercaseAfter before s = s from hafter []
  induction s with
  | nil => exact fun _ => rfl
  | cons c r ih =>
    obtain ⟨hc, hr⟩ := List.forall_mem_cons.1 h
    intro before
    rw [lowercaseAfter, if_neg hc.noSigma, hc.lower, ih hr, List.singleton_append]

/-! ## Texts at the end -/

/-- The last character of a lower case form: that of an ASCII character is the form itself, and
that of another is no ASCII character but one letter. -/
theorem IsLowercaseOf.exists_last {c : Char} {cs : List Char} (h : IsLowercaseOf c cs) :
    c.toNat < 0x80 ∧ cs = [c.toLower] ∨
      0x80 ≤ c.toNat ∧ ∃ front d, cs = front ++ [d] ∧ (0x80 ≤ d.toNat ∨ d = 'k') := by
  cases h with
  | alone hsigma =>
    rcases Nat.lt_or_ge c.toNat 0x80 with hlow | hhigh
    · exact .inl ⟨hlow, by rw [lowercaseChar, if_pos hlow]⟩
    · refine .inr ⟨hhigh, ?_⟩
      by_cases hdotted : c.toNat = 0x130
      · rw [lowercaseChar, if_neg (Nat.not_lt.2 hhigh), if_pos hdotted]
        exact ⟨[Char.ofNat 0x69], Char.ofNat 0x307, rfl, .inl (by decide)⟩
      · rw [lowercaseChar_of_high hhigh hdotted]
        cases hrun : runOf? c with
        | none => exact ⟨[], c, rfl, .inl hhigh⟩
        | some run =>
          refine ⟨[], Char.ofNat (lowerNumber run c), rfl, ?_⟩
          rcases lowerNumber_high hrun with hhigh | hk
          · exact .inl (by rwa [toNat_lowerNumber hrun])
          · exact .inr (by rw [hk])
  | sigma n hsigma hn =>
    refine .inr ⟨by omega, [], Char.ofNat n, rfl, .inl ?_⟩
    have hall : ∀ n ∈ [0x3C2, 0x3C3], 0x80 ≤ (Char.ofNat n).toNat := by decide
    exact hall n hn

/-- A text of ASCII characters, other than the letter that is the lower case form of a character
beyond them, ends the lower case form of a text when it ends that of the ASCII characters. -/
theorem suffix_lowercase_iff {s t w : List Char} (h : Rewrites IsLowercaseOf s t)
    (hw : ∀ c ∈ w, c.toNat < 0x80 ∧ c ≠ 'k') : w <:+ t ↔ w <:+ s.map Char.toLower := by
  induction s using List.reverseRecOn generalizing t w with
  | nil =>
    cases h
    exact Iff.rfl
  | append_singleton s c ih =>
    obtain ⟨x, y, rfl, hx, hy⟩ := h.of_append
    cases hy with
    | @cons _ cs _ _ hcs hnil =>
      cases hnil
      have hlast : ∀ {d : Char} {v : List Char}, w = v ++ [d] → d.toNat < 0x80 ∧ d ≠ 'k' :=
        fun hv => hw _ (by simp [hv])
      rw [List.append_nil, List.map_append, List.map_singleton]
      rcases hcs.exists_last with ⟨hlow, rfl⟩ | ⟨hhigh, front, d, rfl, hd⟩
      · rw [List.suffix_concat_iff, List.suffix_concat_iff]
        refine or_congr Iff.rfl (exists_congr fun v => and_congr_right fun hv => ih hx ?_)
        exact fun e he => hw e (by simp [hv, he])
      · rw [← List.append_assoc, List.suffix_concat_iff, List.suffix_concat_iff]
        refine or_congr Iff.rfl (iff_of_false ?_ ?_)
        · rintro ⟨v, hv, -⟩
          obtain ⟨hlow, hk⟩ := hlast hv
          rcases hd with hd | hd
          · omega
          · exact hk hd
        · rintro ⟨v, hv, -⟩
          rw [toLower_of_high hhigh] at hv
          have := (hlast hv).1
          omega

end SchemaPlan.Text
