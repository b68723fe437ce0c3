import SchemaPlan.Proofs.Outcome
import SchemaPlan.Proofs.Text.Padded
import SchemaPlan.Time.Reading

/-!
# Instants read back

An instant whose year has four digits is read back from its text, to the nanosecond.  Every part of
the text is read up to its end, whatever stands behind it.

* `digits_padNat` and `fraction_fractionText` read one part,
* `date_dateText` and `time_timeText` read the two halves,
* `parse_text` reads the whole text, and `parse_text_iff` says that other years are not read back.
-/

set_option autoImplicit false

namespace SchemaPlan.Time

open Outcome Text

theorem daysInMonth_le (year : Int) (month : Nat) : daysInMonth year month ≤ 31 := by
  unfold daysInMonth
  split
  · split <;> decide
  all_goals decide

theorem Date.day_le (date : Date) : date.day ≤ 31 :=
  Nat.le_trans date.day_valid.2 (daysInMonth_le date.year date.month)

namespace Reading

/-! ## Numbers -/

theorem length_le_byteSize (s : List Char) : s.length ≤ byteSize s := by
  have hfold (size : Nat) : size + s.length ≤ s.foldl (fun size c => size + c.utf8Size) size := by
    induction s generalizing size with
    | nil => exact Nat.le_refl _
    | cons c s ih =>
      have hc := Char.utf8Size_pos c
      refine Nat.le_trans ?_ (ih (size + c.utf8Size))
      rw [List.length_cons]
      omega
  simpa [byteSize] using hfold 0

theorem digitsFrom?_append {ds : List Char} (hds : ∀ c ∈ ds, c.isDigit = true) (value : Nat)
    (s : List Char) :
    digitsFrom? ds.length value (ds ++ s) = some (Nat.ofDigitChars 10 ds value, s) := by
  induction ds generalizing value with
  | nil => rfl
  | cons c ds ih =>
    obtain ⟨hc, hds⟩ := List.forall_mem_cons.1 hds
    rw [List.length_cons, List.cons_append, digitsFrom?, if_pos hc, ih hds, Nat.ofDigitChars_cons,
      Nat.mul_comm value 10]
    rfl

/-- A number is read back from its digits. -/
theorem digits_padNat {w n : Nat} (hw : 0 < w) (h : n < 10 ^ w) (s : List Char) :
    digits w ((padNat w n).toList ++ s) = .ok (n, s) := by
  have hlength := length_padNat hw h
  have hbytes := length_le_byteSize ((padNat w n).toList ++ s)
  have hread := digitsFrom?_append (fun _ => isDigit_of_mem_padNat (w := w) (n := n)) 0 s
  rw [hlength, ofDigitChars_padNat] at hread
  rw [List.length_append, hlength] at hbytes
  rw [digits, if_neg (by omega), hread]

/-- Nothing that starts with a sign is a number. -/
theorem exists_digits_eq_error {w : Nat} {c : Char} (hw : 0 < w) (hc : c.isDigit = false)
    (s : List Char) : ∃ fault, digits w (c :: s) = .error fault := by
  have hnone : digitsFrom? w 0 (c :: s) = none := by
    cases w with
    | zero => cases hw
    | succ w => exact if_neg (Bool.eq_false_iff.1 hc)
  rw [digits, hnone]
  split
  · exact ⟨_, rfl⟩
  · exact ⟨_, rfl⟩

/-- The digits of a fraction are read up to their end. -/
theorem fraction_padNat {w n : Nat} (hw : 0 < w) (h : n < 10 ^ w) (hnine : w ≤ 9) {s : List Char}
    (hs : ∀ c ∈ s.head?, c.isDigit = false) :
    fraction ('.' :: ((padNat w n).toList ++ s)) = .ok (n * 10 ^ (9 - w), s) := by
  have hlength := length_padNat hw h
  have hdigit : ∀ c ∈ (padNat w n).toList, c.isDigit = true := fun _ => isDigit_of_mem_padNat
  have hvalue : nanoseconds (padNat w n).toList = n * 10 ^ (9 - w) := by
    have hcounted : (padNat w n).toList.take 9 = (padNat w n).toList :=
      List.take_of_length_le (by omega)
    have hfold := ofDigitChars_padNat w n
    simp only [Nat.ofDigitChars_eq_foldl, Nat.mul_comm 10] at hfold
    rw [nanoseconds, hcounted, hlength]
    exact congrArg (· * 10 ^ (9 - w)) hfold
  have hread : fraction ('.' :: ((padNat w n).toList ++ s)) =
      .ok (nanoseconds (((padNat w n).toList ++ s).takeWhile Char.isDigit),
        ((padNat w n).toList ++ s).dropWhile Char.isDigit) := by
    obtain ⟨c, r, hcons⟩ := List.exists_cons_of_length_pos (Nat.lt_of_lt_of_eq hw hlength.symm)
    rw [hcons, List.cons_append]
    exact if_pos (hdigit c (hcons ▸ List.mem_cons_self))
  obtain ⟨htake, hdrop⟩ := span_append hdigit hs
  rw [hread, htake, hdrop, hvalue]

theorem oneOf_cons {allowed : List Char} {c : Char} (h : c ∈ allowed) (s : List Char) :
    oneOf allowed (c :: s) = .ok (c, s) :=
  if_pos (List.contains_iff_mem.2 h)

theorem below_of_lt {limit value : Nat} (h : value < limit) : below limit value = .ok ⟨value, h⟩ :=
  dif_pos h

theorem between_of_le {low high value : Nat} (hlow : low ≤ value) (hhigh : value ≤ high) :
    between low high value = .ok value :=
  if_pos ⟨hlow, hhigh⟩

/-! ## The halves of an instant -/

section Instant

variable (t : Instant)

/-- The fraction is read to the nanosecond. -/
theorem fraction_fractionText {s : List Char} (hs : ∀ c ∈ s.head?, c.isDigit = false ∧ c ≠ '.') :
    fraction (t.fractionText.toList ++ s) = .ok (t.nanosecond.val, s) := by
  have hdigit : ∀ c ∈ s.head?, c.isDigit = false := fun c hc => (hs c hc).1
  have hlt := t.nanosecond.isLt
  have hpoint (text : String) : ("." ++ text).toList ++ s = '.' :: (text.toList ++ s) := by
    simp
  -- a short fraction stands for the digits that are left out, too
  have hshort {w n : Nat} (hw : 0 < w) (hn : n < 10 ^ w) (hnine : w ≤ 9)
      (hvalue : n * 10 ^ (9 - w) = t.nanosecond) :
      fraction (("." ++ padNat w n).toList ++ s) = .ok (t.nanosecond.val, s) := by
    rw [hpoint, fraction_padNat hw hn hnine hdigit, hvalue]
  unfold Instant.fractionText
  dsimp only
  split
  · rename_i hzero
    rw [hzero]
    cases s with
    | nil => rfl
    | cons c r =>
      have hpoint : c ≠ '.' := (hs c rfl).2
      simp [fraction, hpoint]
  split
  · exact hshort (by omega) (by omega) (by omega) (by omega)
  split
  · exact hshort (by omega) (by omega) (by omega) (by omega)
  · exact hshort (by omega) hlt (by omega) (by omega)

/-- Year, month and day are read up to their end. -/
theorem date_dateText (hyear : 0 ≤ t.date.year ∧ t.date.year ≤ 9999) (s : List Char) :
    date ((t.dateText "-").toList ++ s) =
      .ok ((t.date.year.toNat, t.date.month, t.date.day), s) := by
  obtain ⟨hjanuary, hdecember⟩ := t.date.month_valid
  have hfirst : 1 ≤ t.date.day := t.date.day_valid.1
  have hlast : t.date.day ≤ 31 := t.date.day_le
  have htext : (t.dateText "-").toList ++ s =
      (padNat 4 t.date.year.toNat).toList ++ '-' :: ((padNat 2 t.date.month).toList ++
        '-' :: ((padNat 2 t.date.day).toList ++ s)) := by
    simp [Instant.dateText, yearText, hyear]
  rw [htext]
  refine bind_eq_ok_iff.2 ⟨_, digits_padNat (by omega) (by omega) _, ?_⟩
  refine bind_eq_ok_iff.2 ⟨_, oneOf_cons (by decide) _, ?_⟩
  refine bind_eq_ok_iff.2 ⟨_, digits_padNat (by omega) (by omega) _, ?_⟩
  refine bind_eq_ok_iff.2 ⟨_, between_of_le hjanuary hdecember, ?_⟩
  refine bind_eq_ok_iff.2 ⟨_, oneOf_cons (by decide) _, ?_⟩
  refine bind_eq_ok_iff.2 ⟨_, digits_padNat (by omega) (by omega) _, ?_⟩
  refine bind_eq_ok_iff.2 ⟨_, between_of_le hfirst hlast, ?_⟩
  rfl

/-- The minute of the day, the second and the nanosecond are read up to their end. -/
theorem time_timeText {s : List Char} (hs : ∀ c ∈ s.head?, c.isDigit = false ∧ c ≠ '.') :
    time ((t.timeText ":").toList ++ (t.fractionText.toList ++ s)) =
      .ok ((t.minute, t.second, t.nanosecond), s) := by
  have hminute := t.minute.isLt
  have hsecond := t.second.isLt
  have hhour : t.hour < 24 := by
    rw [Instant.hour]
    omega
  have hsixty : t.minuteOfHour < 60 := Nat.mod_lt _ (by omega)
  have htext : (t.timeText ":").toList ++ (t.fractionText.toList ++ s) =
      (padNat 2 t.hour).toList ++ ':' :: ((padNat 2 t.minuteOfHour).toList ++
        ':' :: ((padNat 2 t.second).toList ++ (t.fractionText.toList ++ s))) := by
    simp [Instant.timeText]
  rw [htext]
  refine bind_eq_ok_iff.2 ⟨_, digits_padNat (by omega) (by omega) _, ?_⟩
  refine bind_eq_ok_iff.2 ⟨_, below_of_lt hhour, ?_⟩
  refine bind_eq_ok_iff.2 ⟨_, oneOf_cons (by decide) _, ?_⟩
  refine bind_eq_ok_iff.2 ⟨_, digits_padNat (by omega) (by omega) _, ?_⟩
  refine bind_eq_ok_iff.2 ⟨_, below_of_lt hsixty, ?_⟩
  refine bind_eq_ok_iff.2 ⟨_, oneOf_cons (by decide) _, ?_⟩
  refine bind_eq_ok_iff.2 ⟨_, digits_padNat (by omega) (by omega) _, ?_⟩
  refine bind_eq_ok_iff.2 ⟨_, below_of_lt hsecond, ?_⟩
  refine bind_eq_ok_iff.2 ⟨_, fraction_fractionText t hs, ?_⟩
  refine bind_eq_ok_iff.2 ⟨_, below_of_lt t.nanosecond.isLt, ?_⟩
  have hday : minuteOfDay ⟨t.hour, hhour⟩ ⟨t.minuteOfHour, hsixty⟩ = t.minute :=
    Fin.ext (Nat.div_add_mod' t.minute 60)
  rw [hday]
  rfl

theorem offset_utc : offset "+00:00".toList = .ok (0, []) := by
  decide

end Instant

end Reading

namespace Instant

/-- A clock that shows UTC shows the instant itself. -/
theorem ofLocal_zero (t : Instant) : ofLocal t.date t.minute t.second t.nanosecond 0 = t := by
  have hminute := t.minute.isLt
  have hnight : ¬ (t.minute : Int) - 0 < 0 := by omega
  have hday : (t.minute : Int) - 0 < 1440 := by omega
  have hshown : (((t.minute : Int) - 0) % 1440).toNat = t.minute := by omega
  simp only [ofLocal, if_neg hnight, if_pos hday, hshown]

/-- **An instant is read back from its text**, to the nanosecond and with leap seconds. -/
theorem parse_text {t : Instant} (hyear : 0 ≤ t.date.year ∧ t.date.year ≤ 9999) :
    Instant.parse t.text = .ok t := by
  have htext : t.text.toList = (t.dateText "-").toList ++ 'T' :: ((t.timeText ":").toList ++
      (t.fractionText.toList ++ "+00:00".toList)) := by
    simp [Instant.text]
  have hsign : ∀ c ∈ "+00:00".toList.head?, c.isDigit = false ∧ c ≠ '.' := by
    intro c hc
    obtain rfl : '+' = c := by simpa using hc
    exact ⟨by decide, by decide⟩
  rw [Instant.parse, htext]
  refine bind_eq_ok_iff.2 ⟨_, Reading.date_dateText t hyear _, ?_⟩
  refine bind_eq_ok_iff.2 ⟨_, Reading.oneOf_cons (by decide) _, ?_⟩
  refine bind_eq_ok_iff.2 ⟨_, Reading.time_timeText t hsign, ?_⟩
  refine bind_eq_ok_iff.2 ⟨_, Reading.offset_utc, ?_⟩
  have hdate : Date.ofParts? t.date.year.toNat t.date.month t.date.day = some t.date :=
    Date.ofParts?_eq_some_iff.2 ⟨(Int.toNat_of_nonneg hyear.1).symm, rfl, rfl⟩
  simp only [hdate, ofLocal_zero]
  rfl

/-- A year that has no four digits has a sign, and there is no sign in RFC 3339. -/
theorem exists_parse_text_eq_error {t : Instant}
    (hyear : ¬ (0 ≤ t.date.year ∧ t.date.year ≤ 9999)) :
    ∃ fault, Instant.parse t.text = .error fault := by
  obtain ⟨sign, rest, hsign, htext⟩ : ∃ sign rest, sign.isDigit = false ∧
      t.text.toList = sign :: rest := by
    have hsigned : yearText t.date.year =
        (if t.date.year < 0 then "-" else "+") ++ padNat 4 t.date.year.natAbs := if_neg hyear
    rw [text, dateText, hsigned]
    split
    · exact ⟨'-', _, by decide, by simp; rfl⟩
    · exact ⟨'+', _, by decide, by simp; rfl⟩
  obtain ⟨fault, hfault⟩ := Reading.exists_digits_eq_error (Nat.succ_pos 3) hsign rest
  refine ⟨fault, ?_⟩
  rw [Instant.parse, htext, Reading.instant, Reading.date, hfault]
  rfl

/-- **An instant is read back exactly when its year has four digits.** -/
theorem parse_text_iff {t : Instant} :
    Instant.parse t.text = .ok t ↔ 0 ≤ t.date.year ∧ t.date.year ≤ 9999 := by
  refine ⟨fun h => ?_, parse_text⟩
  by_contra hyear
  obtain ⟨fault, hfault⟩ := exists_parse_text_eq_error hyear
  rw [hfault] at h
  cases h

end Instant

end SchemaPlan.Time
