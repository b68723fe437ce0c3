import SchemaPlan.Text.Number
import SchemaPlan.Time.Date

/-!
# Instants

A point in time in UTC, to the nanosecond.  The minutes of a day are counted from midnight; a
second may be the sixtieth, because leap seconds exist.

* `Instant.text` is the form of RFC 3339 with as many groups of three fraction digits as needed,
* `Instant.stamp` has fourteen digits and orders as the time does,
* `Instant.display` is for people.

Years before 0 and after 9999 are written with a sign.
-/

set_option autoImplicit false

namespace SchemaPlan.Time

/-- A point in time. -/
structure Instant where
  date : Date
  /-- Minutes since midnight. -/
  minute : Fin 1440
  second : Fin 61
  nanosecond : Fin 1000000000
deriving DecidableEq, Repr

/-- A year with four digits, or with a sign when four digits do not do. -/
def yearText (year : Int) : String :=
  if 0 ≤ year ∧ year ≤ 9999 then Text.padNat 4 year.toNat
  else (if year < 0 then "-" else "+") ++ Text.padNat 4 year.natAbs

namespace Instant

/-- The hour of the day. -/
def hour (t : Instant) : Nat :=
  t.minute / 60

/-- The minute of the hour. -/
def minuteOfHour (t : Instant) : Nat :=
  t.minute % 60

/-- Earlier instants come first. -/
instance : Ord Instant where
  compare a b :=
    (compare a.date b.date).then <| (compare a.minute b.minute).then <|
      (compare a.second b.second).then (compare a.nanosecond b.nanosecond)

/-- Year, month and day with something between them. -/
def dateText (separator : String) (t : Instant) : String :=
  yearText t.date.year ++ separator ++ Text.padNat 2 t.date.month ++ separator ++
    Text.padNat 2 t.date.day

/-- Hour, minute and second with something between them. -/
def timeText (separator : String) (t : Instant) : String :=
  Text.padNat 2 t.hour ++ separator ++ Text.padNat 2 t.minuteOfHour ++ separator ++
    Text.padNat 2 t.second

/-- The fraction of the second: nothing, or a point and three, six or nine digits. -/
def fractionText (t : Instant) : String :=
  let n : Nat := t.nanosecond
  if n = 0 then ""
  else if n % 1000000 = 0 then "." ++ Text.padNat 3 (n / 1000000)
  else if n % 1000 = 0 then "." ++ Text.padNat 6 (n / 1000)
  else "." ++ Text.padNat 9 n

/-- The form of RFC 3339. -/
def text (t : Instant) : String :=
  t.dateText "-" ++ "T" ++ t.timeText ":" ++ t.fractionText ++ "+00:00"

/-- The digits of date and time, to the second. -/
def stamp (t : Instant) : String :=
  t.dateText "" ++ t.timeText ""

/-- Date and time for people, to the second. -/
def display (t : Instant) : String :=
  t.dateText "-" ++ " " ++ t.timeText ":"

/-- The instant that a clock shows which is `offset` minutes ahead of UTC, where the offset is less
than a day. -/
def ofLocal (date : Date) (minute : Fin 1440) (second : Fin 61) (nanosecond : Fin 1000000000)
    (offset : Int) : Instant :=
  let shifted : Int := minute - offset
  let day := if shifted < 0 then date.previous else if shifted < 1440 then date else date.next
  let minute := (shifted % 1440).toNat
  ⟨day, ⟨minute, by omega⟩, second, nanosecond⟩

end Instant

end SchemaPlan.Time
