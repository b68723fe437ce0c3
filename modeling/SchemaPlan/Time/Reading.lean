import SchemaPlan.Time.Instant

/-!
# Reading instants

The reader of RFC 3339.  A text holds `YYYY-MM-DD`, a `T`, a `t` or a space, `hh:mm:ss`, a fraction
of any length of which nine digits count, and `Z`, `z` or an offset `±hh:mm`.  Its parts are read
from left to right, each gives its value and the rest of the text, and the first fault is reported.
A part that is too short is told from one that is wrong by the number of UTF-8 bytes that are left.
-/

set_option autoImplicit false

namespace SchemaPlan.Time

/-- Why a text is no instant. -/
inductive InvalidInstant where
  | tooShort
  | unexpected
  | outOfRange
  | tooLong
deriving DecidableEq, Repr

/-- The fault in words. -/
def InvalidInstant.message : InvalidInstant → String
  | tooShort => "premature end of input"
  | unexpected => "input contains invalid characters"
  | outOfRange => "input is out of range"
  | tooLong => "trailing input"

namespace Reading

/-- The number of bytes of a text. -/
def byteSize (s : List Char) : Nat :=
  s.foldl (fun size c => size + c.utf8Size) 0

/-- The value of a digit. -/
def digitValue (c : Char) : Nat :=
  c.toNat - 48

/-- Reads a number of digits behind the digits of `value`. -/
def digitsFrom? : Nat → Nat → List Char → Option (Nat × List Char)
  | 0, value, s => some (value, s)
  | width + 1, value, c :: r =>
    if c.isDigit then digitsFrom? width (value * 10 + digitValue c) r else none
  | _ + 1, _, [] => none

/-- A number of `width` digits. -/
def digits (width : Nat) (s : List Char) : Except InvalidInstant (Nat × List Char) :=
  if byteSize s < width then .error .tooShort
  else match digitsFrom? width 0 s with
    | some part => .ok part
    | none => .error .unexpected

/-- One of some characters. -/
def oneOf (allowed : List Char) : List Char → Except InvalidInstant (Char × List Char)
  | [] => .error .tooShort
  | c :: r => if allowed.contains c then .ok (c, r) else .error .unexpected

/-- A value below a limit. -/
def below (limit value : Nat) : Except InvalidInstant (Fin limit) :=
  if h : value < limit then .ok ⟨value, h⟩ else .error .outOfRange

/-- A value between two limits. -/
def between (low high value : Nat) : Except InvalidInstant Nat :=
  if low ≤ value ∧ value ≤ high then .ok value else .error .outOfRange

/-- The digits of a fraction of a second as nanoseconds; the digits behind the ninth are dropped. -/
def nanoseconds (s : List Char) : Nat :=
  let counted := s.take 9
  counted.foldl (fun n c => n * 10 + digitValue c) 0 * Nat.pow 10 (9 - counted.length)

/-- An optional fraction of a second. -/
def fraction : List Char → Except InvalidInstant (Nat × List Char)
  | '.' :: r =>
    match r with
    | [] => .error .tooShort
    | c :: _ =>
      if c.isDigit then .ok (nanoseconds (r.takeWhile Char.isDigit), r.dropWhile Char.isDigit)
      else .error .unexpected
  | s => .ok (0, s)

/-- Hours and minutes of an offset, in minutes. -/
def clockOffset (s : List Char) : Except InvalidInstant (Nat × List Char) := do
  let (hours, s) ← digits 2 s
  let (_, s) ← oneOf [':'] s
  let (minutes, s) ← digits 2 s
  let minutes ← below 60 minutes
  pure (hours * 60 + minutes, s)

/-- The minutes that the clock is ahead of UTC. -/
def offset (s : List Char) : Except InvalidInstant (Int × List Char) := do
  let (sign, s) ← oneOf ['Z', 'z', '+', '-', '−'] s
  if sign = 'Z' ∨ sign = 'z' then pure (0, s)
  else
    let (minutes, s) ← clockOffset s
    pure (if sign = '+' then minutes else -minutes, s)

/-- Year, month and day. -/
def date (s : List Char) : Except InvalidInstant ((Nat × Nat × Nat) × List Char) := do
  let (year, s) ← digits 4 s
  let (_, s) ← oneOf ['-'] s
  let (month, s) ← digits 2 s
  let month ← between 1 12 month
  let (_, s) ← oneOf ['-'] s
  let (day, s) ← digits 2 s
  let day ← between 1 31 day
  pure ((year, month, day), s)

/-- The minute of the day that an hour and a minute make. -/
def minuteOfDay (hour : Fin 24) (minute : Fin 60) : Fin 1440 :=
  ⟨hour * 60 + minute, by omega⟩

/-- Minute of the day, second and nanosecond. -/
def time (s : List Char) :
    Except InvalidInstant ((Fin 1440 × Fin 61 × Fin 1000000000) × List Char) := do
  let (hour, s) ← digits 2 s
  let hour ← below 24 hour
  let (_, s) ← oneOf [':'] s
  let (minute, s) ← digits 2 s
  let minute ← below 60 minute
  let (_, s) ← oneOf [':'] s
  let (second, s) ← digits 2 s
  let second ← below 61 second
  let (nanosecond, s) ← fraction s
  let nanosecond ← below 1000000000 nanosecond
  pure ((minuteOfDay hour minute, second, nanosecond), s)

/-- The whole text. -/
def instant (s : List Char) : Except InvalidInstant Instant := do
  let ((year, month, day), s) ← date s
  let (_, s) ← oneOf ['T', 't', ' '] s
  let ((minute, second, nanosecond), s) ← time s
  let (ahead, s) ← offset s
  if 1440 ≤ ahead.natAbs then throw .outOfRange
  if !s.isEmpty then throw .tooLong
  match Date.ofParts? year month day with
  | some date => pure (.ofLocal date minute second nanosecond ahead)
  | none => throw .outOfRange

end Reading

/-- Reads an instant in the form of RFC 3339. -/
def Instant.parse (text : String) : Except InvalidInstant Instant :=
  Reading.instant text.toList

end SchemaPlan.Time
