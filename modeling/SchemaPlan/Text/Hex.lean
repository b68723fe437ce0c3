/-!
# Hexadecimal text

Bytes are written with two lower case digits each.
-/

set_option autoImplicit false

namespace SchemaPlan.Text

/-- A hexadecimal digit in lower case. -/
def hexDigit (n : Nat) : Char :=
  if n < 10 then Char.ofNat (48 + n) else Char.ofNat (87 + n)

/-- The two digits of a number below 256. -/
def hexPair (n : Nat) : List Char :=
  [hexDigit (n / 16), hexDigit (n % 16)]

/-- Bytes as hexadecimal text. -/
def hex (bytes : List UInt8) : String :=
  String.ofList (bytes.flatMap fun b => hexPair b.toNat)

end SchemaPlan.Text
