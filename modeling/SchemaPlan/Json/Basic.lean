import SchemaPlan.Number.Shortest

/-!
# JSON values

The members of an object are kept in the order of the text, repeated keys included, so a reader
of records can refuse a repeated field (`repeats`) or take the last one (`lastWins`).
-/

set_option autoImplicit false

namespace SchemaPlan

/-- A number in JSON text: one without point and exponent is an integer when it fits 64 bits. -/
inductive JsonNumber where
  | integer (value : Int)
  | float (value : Number.Binary64)
deriving DecidableEq, Repr

/-- A JSON value.  `unreadable` stands for a text that is well formed but denotes no value: a string
with half of a surrogate pair, an object with such a key, a number too large for the 64-bit format, or
a value that is nested too deep. -/
inductive Json where
  | null
  | bool (value : Bool)
  | number (value : JsonNumber)
  | string (value : String)
  | array (items : List Json)
  | object (members : List (String × Json))
  | unreadable
deriving Repr

namespace Json

/-- The value of the last member with a key. -/
def last? (key : String) (members : List (String × Json)) : Option Json :=
  (members.reverse.find? fun member => member.1 == key).map Prod.snd

/-- Whether a key occurs more than once. -/
def repeats (key : String) (members : List (String × Json)) : Bool :=
  1 < (members.filter fun member => member.1 == key).length

mutual

/-- Whether some part of the value denotes no value. -/
def hasUnreadable : Json → Bool
  | array items => anyUnreadable items
  | object members => anyUnreadableMember members
  | unreadable => true
  | _ => false

/-- Whether some part of some item denotes no value. -/
def anyUnreadable : List Json → Bool
  | [] => false
  | item :: items => hasUnreadable item || anyUnreadable items

/-- Whether some part of some member denotes no value. -/
def anyUnreadableMember : List (String × Json) → Bool
  | [] => false
  | (_, value) :: members => hasUnreadable value || anyUnreadableMember members

end

mutual

/-- Keeps, of the members with one key, the last, in every object of the value. -/
def lastWins : Json → Json
  | array items => array (lastWinsItems items)
  | object members => object (lastWinsMembers members)
  | value => value

/-- `lastWins` on every item. -/
def lastWinsItems : List Json → List Json
  | [] => []
  | item :: items => lastWins item :: lastWinsItems items

/-- The members without those whose key occurs again later. -/
def lastWinsMembers : List (String × Json) → List (String × Json)
  | [] => []
  | (key, value) :: members =>
    let rest := lastWinsMembers members
    if rest.any fun member => member.1 == key then rest else (key, lastWins value) :: rest

end

end Json

end SchemaPlan
