import SchemaPlan.Json.Basic
import SchemaPlan.Json.Printer

/-!
# Records as JSON

A record is written as an object with one member per field.  It is read from such an object, in
any order and with members that are no fields, or from an array that lists the fields in their
order.  A field that occurs twice is an error.

* `Json.record?` recognises a record with given fields,
* `Record.field?`, `Record.fieldOr?` and `Record.nullable?` read a field that is required, that
  has a default, and that may be null or missing.
-/

set_option autoImplicit false

namespace SchemaPlan

/-- The fields of a record that are present; `positional` tells that they came as an array. -/
structure Record where
  members : List (String × Json)
  positional : Bool
deriving Repr

namespace Json

/-- The record that an object or an array of at most all fields stands for. -/
def record? (fields : List String) : Json → Option Record
  | object members =>
    if fields.any fun field => repeats field members then none else some ⟨members, false⟩
  | array items => if fields.length < items.length then none else some ⟨fields.zip items, true⟩
  | _ => none

/-- A text. -/
def text? : Json → Option String
  | string value => some value
  | _ => none

/-- A truth value. -/
def bool? : Json → Option Bool
  | bool value => some value
  | _ => none

/-- An integer between bounds, both included. -/
def integerIn? (low high : Int) : Json → Option Int
  | number (.integer value) => if low ≤ value && value ≤ high then some value else none
  | _ => none

/-- An integer of 64 bits with a sign. -/
def int64? (value : Json) : Option Int :=
  integerIn? (-Int.pow 2 63) (Int.pow 2 63 - 1) value

/-- A number as floating point; an integer is rounded to one. -/
def float? : Json → Option Number.Binary64
  | number (.float value) => some value
  | number (.integer value) => Number.Binary64.ofNat? (value < 0) value.natAbs
  | _ => none

/-- A list whose items are read by `decode`. -/
def list? {α : Type} (decode : Json → Option α) : Json → Option (List α)
  | array items => items.mapM decode
  | _ => none

/-- A list of texts. -/
def texts? (value : Json) : Option (List String) :=
  list? text? value

/-- Nothing for null, else what `decode` reads. -/
def nullable? {α : Type} (decode : Json → Option α) : Json → Option (Option α)
  | null => some none
  | value => (decode value).map some

/-- A choice without content: its name, or an object with its name and null. -/
def choice? {α : Type} (ofName? : String → Option α) : Json → Option α
  | string name => ofName? name
  | object [(name, null)] => ofName? name
  | _ => none

/-- A list of texts as an array. -/
def ofTexts (texts : List String) : Json :=
  array (texts.map string)

/-- A text or null. -/
def ofOption (text : Option String) : Json :=
  (text.map string).getD null

/-- A number. -/
def ofNat (n : Nat) : Json :=
  number (.integer n)

end Json

namespace Record

/-- A required field. -/
def field? {α : Type} (record : Record) (name : String) (decode : Json → Option α) : Option α :=
  (Json.last? name record.members).bind decode

/-- A field with a default. -/
def fieldOr? {α : Type} (record : Record) (name : String) (default : α)
    (decode : Json → Option α) : Option α :=
  match Json.last? name record.members with
  | some value => decode value
  | none => some default

/-- A field that may be null, and may be missing in an object. -/
def nullable? {α : Type} (record : Record) (name : String) (decode : Json → Option α) :
    Option (Option α) :=
  match Json.last? name record.members with
  | some value => Json.nullable? decode value
  | none => if record.positional then none else some none

end Record

/-- A member that is left out when there is no value. -/
def Json.memberOf? (name : String) (value : Option Json) : List (String × Json) :=
  value.toList.map fun value => (name, value)

end SchemaPlan
