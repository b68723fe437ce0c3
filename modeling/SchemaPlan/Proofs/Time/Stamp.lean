import SchemaPlan.Proofs.Text.Padded
import SchemaPlan.Proofs.Time.Reading

/-!
# Stamps

The stamp of an instant whose year has four digits has fourteen digits, and stamps are ordered as
the instants are, up to the fraction of the second.

* `length_stamp` and `isDigit_of_mem_stamp`: a stamp is fourteen digits.
* `slash_not_mem_stamp`: it is no path, whatever the year is.
* `compare_stamp`: stamps are compared as the instants at whole seconds are.
-/

set_option autoImplicit false

namespace SchemaPlan.Time

open Text

/-- A number that is split into hours and minutes is compared by hours first. -/
theorem compare_divMod (m n d : Nat) :
    compare m n = (compare (m / d) (n / d)).then (compare (m % d) (n % d)) := by
  have hm := Nat.div_add_mod m d
  have hn := Nat.div_add_mod n d
  rcases lt_trichotomy (m / d) (n / d) with hlt | heq | hgt
  · rw [compare_lt_iff_lt.2 hlt, Ordering.lt_then]
    exact compare_lt_iff_lt.2 (Nat.lt_of_div_lt_div hlt)
  · rw [compare_eq_iff_eq.2 heq, Ordering.eq_then]
    have hmono : StrictMono fun r => d * (n / d) + r := fun _ _ h => Nat.add_lt_add_left h _
    have hcmp := hmono.cmp_map_eq (m % d) (n % d)
    rw [cmp_eq_compare, cmp_eq_compare] at hcmp
    rw [← hcmp, hn, ← heq, hm]
  · rw [compare_gt_iff_gt.2 hgt, Ordering.gt_then]
    exact compare_gt_iff_gt.2 (Nat.lt_of_div_lt_div hgt)

namespace Instant

variable {s t : Instant}

/-- Whether the year has four digits. -/
def HasPlainYear (t : Instant) : Prop :=
  0 ≤ t.date.year ∧ t.date.year ≤ 9999

instance (t : Instant) : Decidable t.HasPlainYear :=
  inferInstanceAs (Decidable (_ ∧ _))

/-- The second in which an instant lies. -/
def wholeSecond (t : Instant) : Instant :=
  { t with nanosecond := ⟨0, by decide⟩ }

theorem stamp_eq (h : t.HasPlainYear) :
    t.stamp = padNat 4 t.date.year.toNat ++ (padNat 2 t.date.month ++ (padNat 2 t.date.day ++
      (padNat 2 t.hour ++ (padNat 2 t.minuteOfHour ++ padNat 2 t.second)))) := by
  have hyear : yearText t.date.year = padNat 4 t.date.year.toNat := if_pos h
  simp [stamp, dateText, timeText, hyear, String.append_assoc]

theorem hour_lt (t : Instant) : t.hour < 24 := by
  have hminute := t.minute.isLt
  rw [hour]
  omega

theorem minuteOfHour_lt (t : Instant) : t.minuteOfHour < 60 :=
  Nat.mod_lt _ (by omega)

/-- A stamp can stand in the name of a file, in every year. -/
theorem slash_not_mem_stamp (t : Instant) : '/' ∉ t.stamp.toList := by
  have hnat (w n : Nat) : '/' ∉ (padNat w n).toList := fun h => by
    cases isDigit_of_mem_padNat h
  have hyear : '/' ∉ (yearText t.date.year).toList := by
    unfold yearText
    split
    · exact hnat _ _
    · rw [String.toList_append, List.mem_append, not_or]
      refine ⟨?_, hnat _ _⟩
      split
      · decide
      · decide
  simp [stamp, dateText, timeText, hyear, hnat]

/-- Every part of a stamp fits into its width. -/
structure Fits (t : Instant) : Prop where
  year : t.date.year.toNat < 10 ^ 4
  month : t.date.month < 10 ^ 2
  day : t.date.day < 10 ^ 2
  hour : t.hour < 10 ^ 2
  minute : t.minuteOfHour < 10 ^ 2
  second : t.second.val < 10 ^ 2

theorem HasPlainYear.fits (h : t.HasPlainYear) : t.Fits where
  year := by
    have hlast := h.2
    omega
  month := Nat.lt_of_le_of_lt t.date.month_valid.2 (by omega)
  day := Nat.lt_of_le_of_lt t.date.day_le (by omega)
  hour := Nat.lt_trans t.hour_lt (by omega)
  minute := Nat.lt_trans t.minuteOfHour_lt (by omega)
  second := Nat.lt_trans t.second.isLt (by omega)

theorem length_stamp (h : t.HasPlainYear) : t.stamp.toList.length = 14 := by
  have hfits := h.fits
  simp only [stamp_eq h, String.toList_append, List.length_append,
    length_padNat (by omega) hfits.year, length_padNat (by omega) hfits.month,
    length_padNat (by omega) hfits.day, length_padNat (by omega) hfits.hour,
    length_padNat (by omega) hfits.minute, length_padNat (by omega) hfits.second]

theorem isDigit_of_mem_stamp (h : t.HasPlainYear) {c : Char} (hc : c ∈ t.stamp.toList) :
    c.isDigit = true := by
  simp only [stamp_eq h, String.toList_append, List.mem_append] at hc
  rcases hc with hc | hc | hc | hc | hc | hc <;> exact isDigit_of_mem_padNat hc

/-- **Stamps are ordered as time is**, up to the fraction of the second. -/
theorem compare_stamp (hs : s.HasPlainYear) (ht : t.HasPlainYear) :
    compare s.stamp t.stamp = compare s.wholeSecond t.wholeSecond := by
  have hpart {w m n : Nat} (hw : 0 < w) (hm : m < 10 ^ w) (hn : n < 10 ^ w) (u v : String) :
      compare (padNat w m ++ u) (padNat w n ++ v) = (compare m n).then (compare u v) := by
    rw [compare_append (by rw [length_padNat hw hm, length_padNat hw hn]), compare_padNat hw hm hn]
  have hsfits := hs.fits
  have htfits := ht.fits
  have hyear : compare s.date.year.toNat t.date.year.toNat =
      compare s.date.year t.date.year := by
    have hcmp := Int.natCast_strictMono.cmp_map_eq s.date.year.toNat t.date.year.toNat
    rw [cmp_eq_compare, cmp_eq_compare, Int.toNat_of_nonneg hs.1, Int.toNat_of_nonneg ht.1] at hcmp
    exact hcmp.symm
  have hminute : compare s.minute t.minute =
      (compare s.hour t.hour).then (compare s.minuteOfHour t.minuteOfHour) :=
    compare_divMod s.minute t.minute 60
  rw [stamp_eq hs, stamp_eq ht, hpart (by omega) hsfits.year htfits.year,
    hpart (by omega) hsfits.month htfits.month, hpart (by omega) hsfits.day htfits.day,
    hpart (by omega) hsfits.hour htfits.hour, hpart (by omega) hsfits.minute htfits.minute,
    compare_padNat (by omega) hsfits.second htfits.second, hyear]
  have hdate : compare s.date t.date = (compare s.date.year t.date.year).then
      ((compare s.date.month t.date.month).then (compare s.date.day t.date.day)) := rfl
  have hsecond : compare s.wholeSecond t.wholeSecond = (compare s.date t.date).then
      ((compare s.minute t.minute).then (compare s.second t.second)) := by
    have hnow : (compare s.second t.second).then (compare (0 : Fin 1000000000) 0) =
        compare s.second t.second := Ordering.then_eq
    exact congrArg (fun o => (compare s.date t.date).then ((compare s.minute t.minute).then o)) hnow
  rw [hsecond, hdate, hminute]
  simp only [Ordering.then_assoc]
  rfl

end Instant

end SchemaPlan.Time
