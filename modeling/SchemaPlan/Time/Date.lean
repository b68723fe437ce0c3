/-!
# Dates

Days of the Gregorian calendar, extended to all years.  A `Date` exists: its month is a month and
its day is a day of that month.  `Date.next` and `Date.previous` walk from day to day.
-/

set_option autoImplicit false

namespace SchemaPlan.Time

/-- Whether February has 29 days. -/
def isLeapYear (year : Int) : Bool :=
  year % 4 == 0 && (year % 100 != 0 || year % 400 == 0)

/-- The number of days of a month. -/
def daysInMonth (year : Int) : Nat → Nat
  | 2 => if isLeapYear year then 29 else 28
  | 4 | 6 | 9 | 11 => 30
  | _ => 31

theorem daysInMonth_pos (year : Int) (month : Nat) : 1 ≤ daysInMonth year month := by
  unfold daysInMonth
  split
  · split <;> decide
  all_goals decide

/-- A day of the calendar. -/
structure Date where
  year : Int
  month : Nat
  day : Nat
  month_valid : 1 ≤ month ∧ month ≤ 12
  day_valid : 1 ≤ day ∧ day ≤ daysInMonth year month
deriving DecidableEq, Repr

namespace Date

/-- The day with these numbers, if there is one. -/
def ofParts? (year : Int) (month day : Nat) : Option Date :=
  if h : (1 ≤ month ∧ month ≤ 12) ∧ 1 ≤ day ∧ day ≤ daysInMonth year month then
    some ⟨year, month, day, h.1, h.2⟩
  else none

/-- January is a month. -/
theorem january_valid : 1 ≤ 1 ∧ 1 ≤ 12 :=
  ⟨Nat.le_refl 1, by decide⟩

/-- The last day of a month. -/
def lastOf (year : Int) (month : Nat) (valid : 1 ≤ month ∧ month ≤ 12) : Date :=
  ⟨year, month, daysInMonth year month, valid, daysInMonth_pos year month, Nat.le_refl _⟩

/-- The first day of a month. -/
def firstOf (year : Int) (month : Nat) (valid : 1 ≤ month ∧ month ≤ 12) : Date :=
  ⟨year, month, 1, valid, Nat.le_refl 1, daysInMonth_pos year month⟩

/-- The day after a day. -/
def next (date : Date) : Date :=
  if hd : date.day < daysInMonth date.year date.month then
    ⟨date.year, date.month, date.day + 1, date.month_valid, Nat.le_add_left 1 _, hd⟩
  else if hm : date.month < 12 then
    firstOf date.year (date.month + 1) ⟨Nat.le_add_left 1 _, hm⟩
  else firstOf (date.year + 1) 1 january_valid

/-- The day before a day. -/
def previous (date : Date) : Date :=
  if hd : 1 < date.day then
    ⟨date.year, date.month, date.day - 1, date.month_valid, Nat.le_sub_one_of_lt hd,
      Nat.le_trans (Nat.sub_le _ _) date.day_valid.2⟩
  else if hm : 1 < date.month then
    lastOf date.year (date.month - 1)
      ⟨Nat.le_sub_one_of_lt hm, Nat.le_trans (Nat.sub_le _ _) date.month_valid.2⟩
  else lastOf (date.year - 1) 12 ⟨by decide, Nat.le_refl 12⟩

/-- Earlier days come first. -/
instance : Ord Date where
  compare a b :=
    (compare a.year b.year).then ((compare a.month b.month).then (compare a.day b.day))

theorem ofParts?_eq_some_iff {year : Int} {month day : Nat} {date : Date} :
    ofParts? year month day = some date ↔
      date.year = year ∧ date.month = month ∧ date.day = day := by
  unfold ofParts?
  constructor
  · intro h
    split at h
    · simp only [Option.some.injEq] at h
      subst h
      exact ⟨rfl, rfl, rfl⟩
    · simp at h
  · rintro ⟨rfl, rfl, rfl⟩
    rw [dif_pos ⟨date.month_valid, date.day_valid⟩]

end Date

end SchemaPlan.Time
