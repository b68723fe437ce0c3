import SchemaPlan.Json.Basic
import SchemaPlan.Text.Split
import SchemaPlan.Text.Hex

/-!
# Writing JSON

`compact` writes a value on one line, `pretty` with one item per line and two blanks of indent
per level.  Quotes, backslashes and control characters are escaped, all else stands as it is.
-/

set_option autoImplicit false

namespace SchemaPlan

/-- The text of a number. -/
def JsonNumber.text : JsonNumber → String
  | integer value => toString value
  | float value => value.jsonText

namespace Json

/-- A character inside a string. -/
def escapeChar (c : Char) : List Char :=
  if c = '"' then ['\\', '"']
  else if c = '\\' then ['\\', '\\']
  else if c.toNat = 8 then ['\\', 'b']
  else if c.toNat = 9 then ['\\', 't']
  else if c.toNat = 10 then ['\\', 'n']
  else if c.toNat = 12 then ['\\', 'f']
  else if c.toNat = 13 then ['\\', 'r']
  else if c.toNat < 0x20 then
    ['\\', 'u', '0', '0'] ++ Text.hexPair c.toNat
  else [c]

/-- A string in quotes. -/
def quoted (text : String) : String :=
  String.ofList ('"' :: (text.toList.flatMap escapeChar ++ ['"']))

mutual

/-- The value on one line; a value that denotes nothing is written like null. -/
def compact : Json → String
  | null | unreadable => "null"
  | bool value => if value then "true" else "false"
  | number value => value.text
  | string value => quoted value
  | array items => "[" ++ Text.join "," (compactItems items) ++ "]"
  | object members => "\x7b" ++ Text.join "," (compactMembers members) ++ "\x7d"

/-- The items of an array on one line. -/
def compactItems : List Json → List String
  | [] => []
  | item :: items => compact item :: compactItems items

/-- The members of an object on one line. -/
def compactMembers : List (String × Json) → List String
  | [] => []
  | (key, value) :: members => (quoted key ++ ":" ++ compact value) :: compactMembers members

end

/-- A line break and the indent of a level. -/
def newline (level : Nat) : String :=
  "\n" ++ String.ofList (List.replicate (2 * level) ' ')

/-- Parts on lines of their own between brackets; brackets alone when there is none. -/
def block (opening closing : String) (level : Nat) (parts : List String) : String :=
  if parts.isEmpty then opening ++ closing
  else
    opening ++ newline (level + 1) ++ Text.join ("," ++ newline (level + 1)) parts ++
      newline level ++ closing

mutual

/-- The value at a level, one item per line. -/
def prettyAt : Nat → Json → String
  | _, null | _, unreadable => "null"
  | _, bool value => if value then "true" else "false"
  | _, number value => value.text
  | _, string value => quoted value
  | level, array items => block "[" "]" level (prettyItems (level + 1) items)
  | level, object members => block "\x7b" "\x7d" level (prettyMembers (level + 1) members)

/-- The items of an array, each over its lines. -/
def prettyItems : Nat → List Json → List String
  | _, [] => []
  | level, item :: items => prettyAt level item :: prettyItems level items

/-- The members of an object, each over its lines. -/
def prettyMembers : Nat → List (String × Json) → List String
  | _, [] => []
  | level, (key, value) :: members =>
    (quoted key ++ ": " ++ prettyAt level value) :: prettyMembers level members

end

/-- The value with one item per line. -/
def pretty (value : Json) : String :=
  prettyAt 0 value

end Json

end SchemaPlan
