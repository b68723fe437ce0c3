import SchemaPlan.Json.Basic

/-!
# Reading JSON

`Json.parse?` reads one value with blanks around it.  Every step takes a text and gives the value
with the rest of the text; each value takes at least one character, so the length of the text
bounds the number of steps.  What is nested deeper than a given depth must be well formed, but denotes
no value.
-/

set_option autoImplicit false

namespace SchemaPlan.Json

/-- Drops the blanks that may stand between tokens. -/
def skipBlanks (s : List Char) : List Char :=
  s.dropWhile fun c => c == ' ' || c == '\n' || c == '\t' || c == '\r'

/-- The greatest number that 64 bits hold. -/
def maxWord : Nat := Nat.pow 2 64 - 1

/-- Appends decimal digits to a significand as long as it fits 64 bits; gives the significand
and the count of the digits it took. -/
def absorb : Nat → List Char → Nat × Nat
  | significand, [] => (significand, 0)
  | significand, c :: r =>
    let next := significand * 10 + (c.toNat - 48)
    if next ≤ maxWord then
      let (all, count) := absorb next r
      (all, count + 1)
    else (significand, 0)

/-- An exponent: a sign and digits behind the letter; `none` when the digits are missing. -/
def readExponent? (s : List Char) : Option (Int × List Char) :=
  let (negative, r) :=
    match s with
    | '+' :: r => (false, r)
    | '-' :: r => (true, r)
    | r => (false, r)
  let digits := r.takeWhile Char.isDigit
  let value : Int := (digits.foldl (fun n c => n * 10 + (c.toNat - 48)) 0 : Nat)
  if digits.isEmpty then none
  else some (if negative then -value else value, r.dropWhile Char.isDigit)

/-- An integer without point and exponent: one that does not fit, and minus zero, is a float. -/
def integerNumber (negative : Bool) (significand : Nat) : Json :=
  if negative then
    if significand = 0 || Nat.pow 2 63 < significand then
      match Number.Binary64.ofDecimal? true significand 0 with
      | some x => .number (.float x)
      | none => .unreadable
    else .number (.integer (-(significand : Int)))
  else .number (.integer significand)

/-- A number with a point or an exponent, or with more digits than fit. -/
def floatNumber (negative : Bool) (significand : Nat) (exponent : Int) : Json :=
  match Number.Binary64.ofDecimal? negative significand exponent with
  | some x => .number (.float x)
  | none => .unreadable

/-- Reads a number: digits without a leading zero, then maybe a point with digits and an
exponent. -/
def readNumber? (s : List Char) : Option (Json × List Char) :=
  let (negative, r) :=
    match s with
    | '-' :: r => (true, r)
    | r => (false, r)
  let whole := r.takeWhile Char.isDigit
  let rest := r.dropWhile Char.isDigit
  if whole.isEmpty || (whole.head? == some '0' && 1 < whole.length) then none
  else
    let (significand, taken) := absorb 0 whole
    let dropped : Int := (whole.length - taken : Nat)
    match rest with
    | '.' :: r =>
      let fraction := r.takeWhile Char.isDigit
      let rest := r.dropWhile Char.isDigit
      if fraction.isEmpty then none
      else
        let (significand, taken) := absorb significand fraction
        let exponent := dropped - taken
        match rest with
        | 'e' :: r | 'E' :: r =>
          (readExponent? r).map fun (e, rest) =>
            (floatNumber negative significand (exponent + e), rest)
        | _ => some (floatNumber negative significand exponent, rest)
    | 'e' :: r | 'E' :: r =>
      (readExponent? r).map fun (e, rest) => (floatNumber negative significand (dropped + e), rest)
    | _ =>
      if dropped = 0 then some (integerNumber negative significand, rest)
      else some (floatNumber negative significand dropped, rest)

/-- The value of a hexadecimal digit. -/
def hexValue? (c : Char) : Option Nat :=
  if c.isDigit then some (c.toNat - 48)
  else if 'a' ≤ c && c ≤ 'f' then some (c.toNat - 87)
  else if 'A' ≤ c && c ≤ 'F' then some (c.toNat - 55)
  else none

/-- The value of four hexadecimal digits and the rest of the text. -/
def readHex? : List Char → Option (Nat × List Char)
  | a :: b :: c :: d :: r => do
    let a ← hexValue? a
    let b ← hexValue? b
    let c ← hexValue? c
    let d ← hexValue? d
    pure (((a * 16 + b) * 16 + c) * 16 + d, r)
  | _ => none

/-- The character behind a backslash, the letter `u` aside. -/
def escaped? (c : Char) : Option Char :=
  match c with
  | '"' => some '"'
  | '\\' => some '\\'
  | '/' => some '/'
  | 'b' => some (Char.ofNat 8)
  | 'f' => some (Char.ofNat 12)
  | 'n' => some '\n'
  | 'r' => some '\r'
  | 't' => some '\t'
  | _ => none

/-- A code point given by four hexadecimal digits, or by two of them that form a surrogate pair;
`none` in the first place for half a pair. -/
def readCodePoint? (s : List Char) : Option (Option Char × List Char) :=
  match readHex? s with
  | none => none
  | some (n, rest) =>
    if n < 0xD800 || 0xDFFF < n then some (some (Char.ofNat n), rest)
    else if 0xDC00 ≤ n then some (none, rest)
    else
      match rest with
      | '\\' :: 'u' :: r =>
        match readHex? r with
        | none => some (none, rest)
        | some (low, r) =>
          if low < 0xDC00 || 0xDFFF < low then some (none, rest)
          else some (some (Char.ofNat (0x10000 + (n - 0xD800) * 0x400 + (low - 0xDC00))), r)
      | _ => some (none, rest)

/-- Reads a string behind its opening quote.  `text` holds what was read, reversed, or nothing
when it holds half a surrogate pair. -/
def readChars : Nat → Option (List Char) → List Char → Option (Option String × List Char)
  | 0, _, _ => none
  | _ + 1, _, [] => none
  | fuel + 1, text, c :: r =>
    if c = '"' then some (text.map fun read => String.ofList read.reverse, r)
    else if c = '\\' then
      match r with
      | 'u' :: r =>
        match readCodePoint? r with
        | none => none
        | some (found, rest) =>
          readChars fuel (text.bind fun read => found.map fun x => x :: read) rest
      | x :: r =>
        match escaped? x with
        | none => none
        | some x => readChars fuel (text.map fun read => x :: read) r
      | [] => none
    else if c.toNat < 0x20 then none
    else readChars fuel (text.map fun read => c :: read) r

/-- A value inside so many others that it may hold further ones, or none. -/
def shallow (depth : Nat) (value : Json) : Json :=
  match depth with
  | 0 => .unreadable
  | _ + 1 => value

/-- An object, when all its keys could be read. -/
def ofMembers? : Option (List (String × Json)) → Json
  | some members => .object members
  | none => .unreadable

mutual

/-- Reads a value at the start of the text. -/
def readValue : Nat → Nat → List Char → Option (Json × List Char)
  | 0, _, _ => none
  | fuel + 1, depth, s =>
    match skipBlanks s with
    | 'n' :: 'u' :: 'l' :: 'l' :: r => some (.null, r)
    | 't' :: 'r' :: 'u' :: 'e' :: r => some (.bool true, r)
    | 'f' :: 'a' :: 'l' :: 's' :: 'e' :: r => some (.bool false, r)
    | '"' :: r =>
      match readChars fuel (some []) r with
      | none => none
      | some (some text, rest) => some (.string text, rest)
      | some (none, rest) => some (.unreadable, rest)
    | '[' :: r =>
      match skipBlanks r with
      | ']' :: r => some (shallow depth (.array []), r)
      | r =>
        (readItems fuel (depth - 1) r).map fun (items, rest) => (shallow depth (.array items), rest)
    | '{' :: r =>
      match skipBlanks r with
      | '}' :: r => some (shallow depth (.object []), r)
      | r =>
        (readMembers fuel (depth - 1) r).map fun (members, rest) =>
          (shallow depth (ofMembers? members), rest)
    | s => readNumber? s

/-- Reads the items of an array and its closing bracket. -/
def readItems : Nat → Nat → List Char → Option (List Json × List Char)
  | 0, _, _ => none
  | fuel + 1, depth, s =>
    match readValue fuel depth s with
    | none => none
    | some (item, rest) =>
      match skipBlanks rest with
      | ',' :: r => (readItems fuel depth r).map fun (items, rest) => (item :: items, rest)
      | ']' :: r => some ([item], r)
      | _ => none

/-- Reads the members of an object and its closing brace; there are none when a key holds half of a
surrogate pair. -/
def readMembers : Nat → Nat → List Char → Option (Option (List (String × Json)) × List Char)
  | 0, _, _ => none
  | fuel + 1, depth, s =>
    match skipBlanks s with
    | '"' :: r =>
      match readChars fuel (some []) r with
      | some (key, rest) =>
        match skipBlanks rest with
        | ':' :: r =>
          match readValue fuel depth r with
          | none => none
          | some (value, rest) =>
            let member := key.map fun key => (key, value)
            match skipBlanks rest with
            | ',' :: r =>
              (readMembers fuel depth r).map fun (members, rest) =>
                (member.bind fun member => members.map fun members => member :: members, rest)
            | '}' :: r => some (member.map fun member => [member], r)
            | _ => none
        | _ => none
      | none => none
    | _ => none

end

/-- The nesting up to which values denote something. -/
def maxDepth : Nat := 127

/-- Reads a text that holds one value. -/
def parse? (text : String) : Option Json :=
  let s := text.toList
  match readValue (2 * s.length + 2) maxDepth s with
  | some (value, rest) => if (skipBlanks rest).isEmpty then some value else none
  | none => none

end SchemaPlan.Json
