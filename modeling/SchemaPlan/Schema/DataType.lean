import SchemaPlan.Text.Blank
import SchemaPlan.Text.Number
import SchemaPlan.Text.Quoted

/-!
# Column types

A type has many spellings: authors write `varchar(255)`, a database reports
`character varying(255)`.  `DataType.parse` folds them into one value and `DataType.toText`
writes that value in one spelling.  `convertsLosslesslyTo` says which changes of a column's type
keep every value.
-/

set_option autoImplicit false

namespace SchemaPlan

/-- A column type. -/
inductive DataType where
  | boolean
  | smallInt
  | integer
  | bigInt
  | real
  | doublePrecision
  | numeric (precision scale : Option Nat)
  | text
  | varchar (length : Option Nat)
  | char (length : Option Nat)
  | uuid
  | date
  | time
  | timeTz
  | timestamp
  | timestampTz
  | interval
  | bytea
  | json
  | jsonb
  | inet
  /-- A user-defined enum type. -/
  | enum (name : String)
  | array (element : DataType)
  /-- Any other type, such as one that an extension provides. -/
  | custom (name : String)
deriving DecidableEq, Repr

/-- The text of a type that cannot be read. -/
structure InvalidDataType where
  text : String
deriving DecidableEq, Repr

/-- What is said about a text that is no type. -/
def InvalidDataType.message (e : InvalidDataType) : String :=
  "invalid data type '" ++ e.text ++ "'"

namespace DataType

/-! ## Relations between types -/

/-- Whether every value of a column survives the change of its type. -/
def convertsLosslesslyTo (source target : DataType) : Bool :=
  source == target ||
  match source, target with
  | .array _, .text | .bytea, .text => false
  | _, .text => true
  | .smallInt, .integer | .smallInt, .bigInt | .integer, .bigInt => true
  | .real, .doublePrecision => true
  | .smallInt, .numeric none _ | .integer, .numeric none _ | .bigInt, .numeric none _ => true
  | .varchar _, .varchar none | .char _, .varchar none => true
  | .enum _, .varchar none | .uuid, .varchar none => true
  | .varchar (some m), .varchar (some n) | .char (some m), .varchar (some n) => m ≤ n
  | .timestamp, .timestampTz | .json, .jsonb => true
  | _, _ => false

/-- The enum type that the type refers to, through arrays. -/
def enumName? : DataType → Option String
  | enum name => some name
  | array element => element.enumName?
  | _ => none

/-- The custom type that the type refers to, through arrays. -/
def customName? : DataType → Option String
  | custom name => some name
  | array element => element.customName?
  | _ => none

/-- Turns a custom type whose name is that of an enum into that enum type. -/
def resolveEnums (isEnum : String → Bool) : DataType → DataType
  | custom name => if isEnum name then enum name else custom name
  | array element => array (element.resolveEnums isEnum)
  | type => type

/-- Gives the enum type `old` the name `new`, through arrays. -/
def renameEnum (old new : String) : DataType → DataType
  | enum name => if name = old then enum new else enum name
  | array element => array (element.renameEnum old new)
  | type => type

/-! ## Writing a type -/

/-- A character that a type name may hold without quotes. -/
def isPlainChar (c : Char) : Bool :=
  c.isLower || c.isDigit || c == '_' || c == '(' || c == ')' || c == ',' || c == '.' || c == ' '

/-- A type name, in quotes when it holds other characters. -/
def nameText (name : String) : String :=
  if name.toList.all isPlainChar then name else Text.quoteIdentifier name

/-- A base name with a length. -/
def withLength (base : String) : Option Nat → String
  | some n => base ++ "(" ++ toString n ++ ")"
  | none => base

/-- The spelling under which a type is stored and shown. -/
def toText : DataType → String
  | boolean => "boolean"
  | smallInt => "smallint"
  | integer => "integer"
  | bigInt => "bigint"
  | real => "real"
  | doublePrecision => "double precision"
  | numeric (some p) (some s) => "numeric(" ++ toString p ++ "," ++ toString s ++ ")"
  | numeric (some p) none => "numeric(" ++ toString p ++ ")"
  | numeric none _ => "numeric"
  | text => "text"
  | varchar length => withLength "character varying" length
  | char length => withLength "character" length
  | uuid => "uuid"
  | date => "date"
  | time => "time without time zone"
  | timeTz => "time with time zone"
  | timestamp => "timestamp without time zone"
  | timestampTz => "timestamp with time zone"
  | interval => "interval"
  | bytea => "bytea"
  | json => "json"
  | jsonb => "jsonb"
  | inet => "inet"
  | enum name => nameText name
  | custom name => nameText name
  | array element => element.toText ++ "[]"

/-! ## Reading a type -/

/-- A modifier: a number below `2 ^ 32` with blanks around it. -/
def readModifier? (s : List Char) : Option Nat :=
  (Text.readNat? (Text.trim s)).filter (· < Nat.pow 2 32)

/-- Splits `numeric(10, 2)` into a base name and its modifiers, which may stand before the end of
the name.  Modifiers that are not numbers belong to the name, and those of time types are
dropped; a bracket that is not closed is an error. -/
def splitModifiers? (s : List Char) : Option (List Char × List Nat) :=
  match Text.cut? '(' s with
  | none => some (s, [])
  | some (front, behind) =>
    match Text.cut? ')' behind with
    | none => none
    | some (inner, rest) =>
      match (Text.pieces ',' inner).mapM readModifier? with
      | none => some (s, [])
      | some modifiers =>
        let base := Text.collapse (Text.trimEnd front ++ rest)
        if (Text.after? ['t', 'i', 'm', 'e'] base).isSome then some (base, [])
        else some (base, modifiers)

/-- The built-in type with a base name and modifiers. -/
def builtin? (base : String) (modifiers : List Nat) : Option DataType :=
  match modifiers with
  | [] =>
    match base with
    | "boolean" | "bool" => some boolean
    | "smallint" | "int2" => some smallInt
    | "integer" | "int" | "int4" => some integer
    | "bigint" | "int8" => some bigInt
    | "real" | "float4" => some real
    | "double precision" | "float8" => some doublePrecision
    | "numeric" | "decimal" => some (numeric none none)
    | "text" => some text
    | "character varying" | "varchar" => some (varchar none)
    | "character" | "char" | "bpchar" => some (char none)
    | "uuid" => some uuid
    | "date" => some date
    | "time" | "time without time zone" => some time
    | "timetz" | "time with time zone" => some timeTz
    | "timestamp" | "timestamp without time zone" => some timestamp
    | "timestamptz" | "timestamp with time zone" => some timestampTz
    | "interval" => some interval
    | "bytea" => some bytea
    | "json" => some json
    | "jsonb" => some jsonb
    | "inet" => some inet
    | _ => none
  | [n] =>
    match base with
    | "numeric" | "decimal" => some (numeric (some n) none)
    | "character varying" | "varchar" => some (varchar (some n))
    | "character" | "char" | "bpchar" => some (char (some n))
    | _ => none
  | [p, s] =>
    match base with
    | "numeric" | "decimal" => some (numeric (some p) (some s))
    | _ => none
  | _ => none

/-- Drops the double quotes at both ends. -/
def stripQuotes (s : List Char) : List Char :=
  ((s.dropWhile (· == '"')).reverse.dropWhile (· == '"')).reverse

/-- The text without the schema `public` in front. -/
def dropPublic (s : List Char) : List Char :=
  (Text.after? "public.".toList s).getD s

/-- Reads a type name without array brackets, with no blanks around it. -/
def parseName? (s : List Char) : Option DataType :=
  match s with
  | '"' :: _ =>
    let name := Text.undouble '"' (stripQuotes s)
    if name.isEmpty then none else some (custom (String.ofList name))
  | _ =>
    let lower := dropPublic (Text.collapse (s.map Char.toLower))
    (splitModifiers? lower).map fun (base, modifiers) =>
      (builtin? (String.ofList base) modifiers).getD (custom (String.ofList lower))

/-- Reads a type; the error holds the text whose brackets were taken off. -/
def parseChars (s : List Char) : Except InvalidDataType DataType :=
  match Text.trim s with
  | [] => .error ⟨String.ofList s⟩
  | t =>
    match _h : Text.before? ['[', ']'] (Text.trim s) with
    | some inner =>
      match parseChars inner with
      | .ok element => .ok (array element)
      | .error e => .error e
    | none =>
      match parseName? t with
      | some type => .ok type
      | none => .error ⟨String.ofList s⟩
termination_by s.length
decreasing_by
  have h1 := Text.length_trim_le s
  rw [Text.before?_eq_some_iff.1 _h] at h1
  simp at h1
  omega

/-- Reads a type in any of its spellings.  A name that is not built in is a custom type; in
double quotes it keeps its case. -/
def parse (text : String) : Except InvalidDataType DataType :=
  parseChars text.toList

end DataType

end SchemaPlan
