import SchemaPlan.Migration.File
import SchemaPlan.Proofs.Outcome
import SchemaPlan.Proofs.Text.Blank
import SchemaPlan.Proofs.Text.Occurrence
import SchemaPlan.Proofs.Time.Stamp

/-!
# Migration files read back

The values of a header hold no blanks, so a header ends at the first blank line of a file, whatever
the script holds, and every line of it says one thing.

* `isSlug_slug`: a slug is not empty and consists of lower case letters, digits and underscores.
* `WellFormed.read_render_iff`: a file is read back from its text, if its year has four digits.
* `wellFormed_ofScript` and `verify_ofScript`: the migration of a script is such a file, and intact.
-/

set_option autoImplicit false

namespace SchemaPlan

open Outcome Text

namespace MigrationFile

/-! ## Names -/

/-- Whether a character can stand in a slug. -/
def IsSlugChar (c : Char) : Prop :=
  ('a' ≤ c ∧ c ≤ 'z') ∨ ('0' ≤ c ∧ c ≤ '9') ∨ c = '_'

instance (c : Char) : Decidable (IsSlugChar c) :=
  inferInstanceAs (Decidable (_ ∨ _))

/-- A text of slug characters that is not empty. -/
structure IsSlug (text : String) : Prop where
  ne_empty : text ≠ ""
  chars : ∀ c ∈ text.toList, IsSlugChar c

/-- Fourteen digits, an underscore and a slug. -/
structure IsStamped (name stamp slug : String) : Prop where
  whole : name = stamp ++ "_" ++ slug
  length : stamp.toList.length = 14
  digits : ∀ c ∈ stamp.toList, c.isDigit = true
  slug : IsSlug slug

theorem isSlugChar_toLower {c : Char} (h : c.isAlphanum = true) : IsSlugChar c.toLower := by
  have hascii : c.toNat < 128 := by
    have hbelow {limit : UInt32} (hlast : c.val ≤ limit) (hlimit : limit.toNat < 128) :
        c.toNat < 128 :=
      Nat.lt_of_le_of_lt (UInt32.le_iff_toNat_le.1 hlast) hlimit
    rcases (Bool.or_eq_true_iff.1 h).imp_left Bool.or_eq_true_iff.1 with (hupper | hlower) | hdigit
    · exact hbelow (of_decide_eq_true hupper).2 (by decide)
    · exact hbelow (of_decide_eq_true (Bool.and_eq_true_iff.1 hlower).2) (by decide)
    · exact hbelow (of_decide_eq_true (Bool.and_eq_true_iff.1 hdigit).2) (by decide)
  have hall : ∀ n < 128, (Char.ofNat n).isAlphanum = true → IsSlugChar (Char.ofNat n).toLower := by
    decide
  have hc := hall c.toNat hascii
  rw [Char.ofNat_toNat] at hc
  exact hc h

theorem isSlugChar_of_mem_slugChars {s : List Char} {c : Char} (h : c ∈ slugChars s) :
    IsSlugChar c := by
  induction s with
  | nil => cases h
  | cons d r ih =>
    rw [slugChars] at h
    split at h
    · rename_i hd
      rcases List.mem_cons.1 h with rfl | h
      · exact isSlugChar_toLower hd
      · exact ih h
    · split at h
      · rename_i hrest
        exact ih (hrest ▸ h)
      · rcases List.mem_cons.1 h with rfl | h
        · decide
        · exact ih h

theorem isSlug_slug (description : String) : IsSlug (slug description) := by
  unfold slug
  dsimp only
  split
  · exact ⟨by decide, by decide⟩
  · rename_i hne
    refine ⟨fun hempty => hne ?_, fun c hc => ?_⟩
    · rw [String.ofList_eq_empty_iff] at hempty
      rw [hempty]
      rfl
    · rw [String.toList_ofList, List.mem_reverse] at hc
      have hinner := (List.dropWhile_sublist _).subset hc
      rw [List.mem_reverse] at hinner
      exact isSlugChar_of_mem_slugChars ((List.dropWhile_sublist _).subset hinner)

/-- Lower case letters are kept. -/
theorem slugChars_of_letters {s : List Char} (h : ∀ c ∈ s, 'a' ≤ c ∧ c ≤ 'z') : slugChars s = s := by
  induction s with
  | nil => rfl
  | cons c r ih =>
    obtain ⟨⟨hfirst, hlast⟩, hr⟩ := List.forall_mem_cons.1 h
    have hlower : c.isLower = true :=
      Bool.and_eq_true_iff.2 ⟨decide_eq_true hfirst, decide_eq_true hlast⟩
    have hletter : c.isAlphanum = true :=
      Bool.or_eq_true_iff.2 (.inl (Bool.or_eq_true_iff.2 (.inr hlower)))
    have hkept : c.toLower = c := by
      unfold Char.toLower
      rw [dif_neg]
      rintro ⟨-, hcapital⟩
      have hsmall : 97 ≤ c.toNat := hfirst
      have hlarge : c.toNat ≤ 90 := hcapital
      omega
    rw [slugChars, if_pos hletter, ih hr, hkept]

/-- A description of lower case letters is its own slug. -/
theorem slug_of_letters {s : List Char} (hne : s ≠ []) (h : ∀ c ∈ s, 'a' ≤ c ∧ c ≤ 'z') :
    slug (String.ofList s) = String.ofList s := by
  have hkept {t : List Char} (ht : ∀ c ∈ t, 'a' ≤ c ∧ c ≤ 'z') :
      t.dropWhile (· = '_') = t := by
    cases t with
    | nil => rfl
    | cons c r =>
      refine List.dropWhile_cons_of_neg fun hunderscore => ?_
      rw [of_decide_eq_true hunderscore] at ht
      exact absurd (ht '_' List.mem_cons_self).1 (by decide)
  have hreverse : ∀ c ∈ s.reverse, 'a' ≤ c ∧ c ≤ 'z' := fun c hc => h c (List.mem_reverse.1 hc)
  rw [slug, String.toList_ofList, slugChars_of_letters h, hkept h, hkept hreverse,
    List.reverse_reverse]
  exact if_neg fun hempty => hne (List.isEmpty_iff.1 hempty)

/-! ## Values of a header -/

/-- A text without blanks. -/
def IsWord (text : String) : Prop :=
  ∀ c ∈ text.toList, isBlank c = false

instance (text : String) : Decidable (IsWord text) :=
  inferInstanceAs (Decidable (∀ c ∈ text.toList, isBlank c = false))

theorem IsWord.append {a b : String} (ha : IsWord a) (hb : IsWord b) : IsWord (a ++ b) := by
  intro c hc
  rw [String.toList_append, List.mem_append] at hc
  exact hc.elim (ha c) (hb c)

theorem IsWord.of_digits {text : String} (h : ∀ c ∈ text.toList, c.isDigit = true) : IsWord text :=
  fun c hc => isBlank_of_isDigit (h c hc)

theorem isWord_padNat (w n : Nat) : IsWord (padNat w n) :=
  .of_digits fun _ => isDigit_of_mem_padNat

theorem isWord_slug {text : String} (h : IsSlug text) : IsWord text := by
  intro c hc
  rcases h.chars c hc with ⟨hfirst, hlast⟩ | ⟨hfirst, hlast⟩ | rfl
  · have hlow : 97 ≤ c.toNat := hfirst
    have hhigh : c.toNat ≤ 122 := hlast
    simp [isBlank]
    omega
  · exact isBlank_of_isDigit (Bool.and_eq_true_iff.2 ⟨decide_eq_true hfirst, decide_eq_true hlast⟩)
  · decide

theorem isWord_yearText (year : Int) : IsWord (Time.yearText year) := by
  unfold Time.yearText
  split
  · exact isWord_padNat _ _
  · exact IsWord.append (by split <;> decide) (isWord_padNat _ _)

theorem isWord_dateText {separator : String} (h : IsWord separator) (t : Time.Instant) :
    IsWord (t.dateText separator) :=
  ((((isWord_yearText _).append h).append (isWord_padNat _ _)).append h).append (isWord_padNat _ _)

theorem isWord_timeText {separator : String} (h : IsWord separator) (t : Time.Instant) :
    IsWord (t.timeText separator) :=
  ((((isWord_padNat _ _).append h).append (isWord_padNat _ _)).append h).append (isWord_padNat _ _)

/-- The text of an instant holds no blanks. -/
theorem isWord_text (t : Time.Instant) : IsWord t.text := by
  have hpoint (w n : Nat) : IsWord ("." ++ padNat w n) :=
    IsWord.append (by decide) (isWord_padNat w n)
  have hfraction : IsWord t.fractionText := by
    unfold Time.Instant.fractionText
    dsimp only
    split
    · decide
    split
    · exact hpoint _ _
    split
    · exact hpoint _ _
    · exact hpoint _ _
  exact ((((isWord_dateText (by decide) t).append (by decide)).append
    (isWord_timeText (by decide) t)).append hfraction).append (by decide)

theorem isWord_hex (bytes : List UInt8) : IsWord (hex bytes) := by
  have hdigit : ∀ n < 16, isBlank (hexDigit n) = false := by decide
  intro c hc
  rw [hex, String.toList_ofList, List.mem_flatMap] at hc
  obtain ⟨byte, -, hc⟩ := hc
  have hbyte := byte.toNat_lt
  simp only [hexPair, List.mem_cons, List.not_mem_nil, or_false] at hc
  rcases hc with rfl | rfl
  · exact hdigit _ (by omega)
  · exact hdigit _ (by omega)

/-! ## Lines of a header -/

section Lines

variable {line rest : List Char}

/-- A line that something follows does not end the header. -/
theorem cutAt?_line (hline : '\n' ∉ line) (hrest : rest.head? ≠ some '\n') :
    cutAt? ['\n', '\n'] (line ++ '\n' :: rest) =
      (cutAt? ['\n', '\n'] rest).map fun parts => (line ++ '\n' :: parts.1, parts.2) := by
  induction line with
  | nil =>
    have hgoes : after? ['\n', '\n'] ('\n' :: rest) = none := by
      refine after?_eq_none_iff.2 fun behind h => hrest ?_
      rw [(List.cons.inj h).2]
      rfl
    rw [List.nil_append, cutAt?, hgoes]
    rfl
  | cons c line ih =>
    obtain ⟨hc, hline⟩ := List.ne_and_not_mem_of_not_mem_cons hline
    have hgoes : after? ['\n', '\n'] (c :: (line ++ '\n' :: rest)) = none :=
      after?_eq_none_iff.2 fun behind h => hc (List.cons.inj h).1.symm
    rw [List.cons_append, cutAt?, hgoes]
    simp only [ih hline, Option.map_map]
    rfl

/-- A line before an empty one ends the header. -/
theorem cutAt?_lastLine (hline : '\n' ∉ line) (rest : List Char) :
    cutAt? ['\n', '\n'] (line ++ '\n' :: '\n' :: rest) = some (line, rest) := by
  induction line with
  | nil => rfl
  | cons c line ih =>
    obtain ⟨hc, hline⟩ := List.ne_and_not_mem_of_not_mem_cons hline
    have hgoes : after? ['\n', '\n'] (c :: (line ++ '\n' :: '\n' :: rest)) = none :=
      after?_eq_none_iff.2 fun behind h => hc (List.cons.inj h).1.symm
    rw [List.cons_append, cutAt?, hgoes]
    simp only [ih hline]
    rfl

/-- A value without blanks is read up to the end of its line. -/
theorem valueOf?_append {start value : String} (h : IsWord value) :
    valueOf? start (start.toList ++ value.toList) = some value := by
  have htrim : trim value.toList = value.toList :=
    trim_eq_self (fun c hc => h c (List.mem_of_mem_head? hc))
      fun c hc => h c (List.mem_of_getLast? hc)
  rw [valueOf?, after?_eq_some_iff.2 rfl, Option.map_some, htrim, String.ofList_toList]

theorem Header.read_name (header : Header) {name : String} (h : IsWord name) :
    header.read (nameStart.toList ++ name.toList) = .ok { header with name := some name } := by
  rw [Header.read, valueOf?_append h]

/-- The line of the time says the instant that its text is read as. -/
theorem Header.read_time (header : Header) (t : Time.Instant) :
    header.read (timeStart.toList ++ t.text.toList) =
      ((Time.Instant.parse t.text).map fun instant =>
        { header with generatedAt := some instant }).mapError .invalidTime := by
  have hname : valueOf? nameStart (timeStart.toList ++ t.text.toList) = none := by
    simp [valueOf?, nameStart, timeStart, after?]
  rw [Header.read, hname, valueOf?_append (isWord_text t)]
  cases hparse : Time.Instant.parse t.text <;> simp only [hparse] <;> rfl

theorem Header.read_checksum (header : Header) {checksum : String} (h : IsWord checksum) :
    header.read (checksumStart.toList ++ checksum.toList) =
      .ok { header with checksum := some checksum } := by
  have hname : valueOf? nameStart (checksumStart.toList ++ checksum.toList) = none := by
    simp [valueOf?, nameStart, checksumStart, after?]
  have htime : valueOf? timeStart (checksumStart.toList ++ checksum.toList) = none := by
    simp [valueOf?, timeStart, checksumStart, after?]
  rw [Header.read, hname, htime, valueOf?_append h]

end Lines

/-! ## Files -/

/-- The values of a header hold no blanks. -/
structure WellFormed (file : MigrationFile) : Prop where
  name : IsWord file.name
  checksum : IsWord file.checksum

variable {file : MigrationFile}

/-- The text of a file is read as the migration, with the time as its text is read. -/
theorem WellFormed.read_render_eq (h : file.WellFormed) :
    read file.render =
      ((Time.Instant.parse file.generatedAt.text).map fun instant =>
        { file with generatedAt := instant }).mapError .invalidTime := by
  have hline {start value : String} (hstart : '\n' ∉ start.toList) (hvalue : IsWord value) :
      '\n' ∉ start.toList ++ value.toList := by
    rw [List.mem_append, not_or]
    exact ⟨hstart, fun hmem => absurd (hvalue _ hmem) (by decide)⟩
  have hname : '\n' ∉ nameStart.toList ++ file.name.toList := hline (by decide) h.name
  have htime : '\n' ∉ timeStart.toList ++ file.generatedAt.text.toList :=
    hline (by decide) (isWord_text _)
  have hchecksum : '\n' ∉ checksumStart.toList ++ file.checksum.toList :=
    hline (by decide) h.checksum
  have htext : file.render.toList =
      nameStart.toList ++ file.name.toList ++ '\n' ::
        (timeStart.toList ++ file.generatedAt.text.toList ++ '\n' ::
          (checksumStart.toList ++ file.checksum.toList ++ '\n' :: '\n' :: file.body.toList)) := by
    simp [render]
  have hcut : cutAt? ['\n', '\n'] file.render.toList =
      some (nameStart.toList ++ file.name.toList ++ '\n' ::
        (timeStart.toList ++ file.generatedAt.text.toList ++ '\n' ::
          (checksumStart.toList ++ file.checksum.toList)), file.body.toList) := by
    rw [htext, cutAt?_line hname (by simp [timeStart]), cutAt?_line htime (by simp [checksumStart]),
      cutAt?_lastLine hchecksum]
    rfl
  rw [read, hcut]
  simp only [pieces_append hname, pieces_append htime, pieces_of_not_mem hchecksum]
  simp only [List.foldlM_cons, List.foldlM_nil, Header.read_name _ h.name, Header.read_time,
    String.ofList_toList]
  cases Time.Instant.parse file.generatedAt.text with
  | error cause => rfl
  | ok instant =>
    have hlast := Header.read_checksum ⟨some file.name, some instant, none⟩ h.checksum
    refine bind_eq_ok_iff.2 ⟨⟨file.name, instant, file.checksum⟩, ?_, rfl⟩
    exact bind_eq_ok_iff.2 ⟨_, rfl, bind_eq_ok_iff.2 ⟨_, rfl, bind_eq_ok_iff.2 ⟨_, hlast, rfl⟩⟩⟩

/-- **A migration is read back from the text of its file exactly when its year has four digits**,
whatever its script is. -/
theorem WellFormed.read_render_iff (h : file.WellFormed) :
    read file.render = .ok file ↔ file.generatedAt.HasPlainYear := by
  rw [h.read_render_eq, mapError_eq_ok_iff, map_eq_ok_iff]
  constructor
  · rintro ⟨instant, hinstant, hfile⟩
    have htime : instant = file.generatedAt := congrArg generatedAt hfile
    rw [htime] at hinstant
    exact Time.Instant.parse_text_iff.1 hinstant
  · exact fun hyear => ⟨_, Time.Instant.parse_text hyear, rfl⟩

theorem isStamped_ofScript (description : String) (script : Script) {time : Time.Instant}
    (h : time.HasPlainYear) :
    IsStamped (ofScript description script time).name time.stamp (slug description) :=
  ⟨rfl, Time.Instant.length_stamp h, fun _ => Time.Instant.isDigit_of_mem_stamp h,
    isSlug_slug description⟩

theorem wellFormed_ofScript (description : String) (script : Script) (time : Time.Instant) :
    (ofScript description script time).WellFormed where
  name := (((isWord_dateText (by decide) time).append (isWord_timeText (by decide) time)).append
    (by decide)).append (isWord_slug (isSlug_slug description))
  checksum := isWord_hex _

/-- The migration of a script is intact. -/
theorem verify_ofScript (description : String) (script : Script) (time : Time.Instant) :
    (ofScript description script time).verify = .ok () :=
  if_pos (beq_self_eq_true _)

end MigrationFile

end SchemaPlan
