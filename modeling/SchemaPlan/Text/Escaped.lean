import SchemaPlan.Text.Hex
import SchemaPlan.Text.Unseen

/-!
# Escaped text

Texts of others must not garble the log.

* `escaped` puts a text between quotes, where quotes, backslashes and characters that can not be seen
  are escapes,
* `withoutTerminalCodes` leaves a text as it is but for the controls that a terminal obeys.
-/

set_option autoImplicit false

namespace SchemaPlan.Text

/-- The digits of a number to base sixteen, without zeros in front. -/
def hexDigits (n : Nat) : List Char :=
  Nat.toDigits 16 n

/-- A character given by its code point. -/
def codePointEscape (c : Char) : List Char :=
  ['\\', 'u', Char.ofNat 0x7B] ++ hexDigits c.toNat ++ [Char.ofNat 0x7D]

/-- A character inside an escaped text. -/
def escapeUnseen (c : Char) : List Char :=
  match c with
  | '\t' => ['\\', 't']
  | '\r' => ['\\', 'r']
  | '\n' => ['\\', 'n']
  | '\x00' => ['\\', '0']
  | '"' => ['\\', '"']
  | '\\' => ['\\', '\\']
  | c => if isUnseen c then codePointEscape c else [c]

/-- A text between double quotes, with escapes. -/
def escaped (text : String) : String :=
  String.ofList (['"'] ++ text.toList.flatMap escapeUnseen ++ ['"'])

/-- The bell, the backspace, the form feed, the escape and the delete. -/
def terminalCodes : List Nat := [0x07, 0x08, 0x0C, 0x1B, 0x7F]

/-- A character, or the escape of a control that a terminal obeys. -/
def escapeTerminalCode (c : Char) : List Char :=
  if terminalCodes.contains c.toNat then ['\\', 'x'] ++ hexPair c.toNat
  else if 0x80 ≤ c.toNat && c.toNat ≤ 0x9F then codePointEscape c
  else [c]

/-- A text that can not steer a terminal. -/
def withoutTerminalCodes (text : String) : String :=
  String.ofList (text.toList.flatMap escapeTerminalCode)

end SchemaPlan.Text
