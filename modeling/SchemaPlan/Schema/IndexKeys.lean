import SchemaPlan.Text.Blank
import SchemaPlan.Text.Quoted
import SchemaPlan.Expression.Canonical

/-!
# Keys of an index definition

A catalog reports an index as the statement that would create it.  Its keys stand in the first
parentheses behind `USING`, separated by commas.  They are columns when every one of them is a
bare name; otherwise the whole list is an expression.
-/

set_option autoImplicit false

namespace SchemaPlan.IndexKeys

/-- What stands before the parenthesis that closes `depth` open ones.  `quote` is the quote of the
token that is open. -/
def insideFrom (depth : Nat) (quote : Option Char) : List Char → Option (List Char)
  | [] => none
  | c :: r =>
    match quote with
    | some q => (insideFrom depth (if c = q then none else some q) r).map fun s => c :: s
    | none =>
      if c = '\'' || c = '"' then (insideFrom depth (some c) r).map fun s => c :: s
      else if c = '(' then (insideFrom (depth + 1) none r).map fun s => c :: s
      else if c = ')' then
        if depth = 1 then some [] else (insideFrom (depth - 1) none r).map fun s => c :: s
      else (insideFrom depth none r).map fun s => c :: s

/-- The list of keys in a definition. -/
def ofDefinition? (definition : List Char) : Option (List Char) := do
  let (_, behind) ← Text.cutAt? " USING ".toList definition
  let (_, keys) ← Text.cut? '(' behind
  insideFrom 1 none keys

/-- The pieces between the commas outside parentheses and quotes; one piece more than there are
such commas. -/
def splitFrom (depth : Nat) (quote : Option Char) : List Char → List (List Char)
  | [] => [[]]
  | c :: r =>
    if c = ',' && quote.isNone && depth == 0 then [] :: splitFrom depth quote r
    else
      let quote' :=
        match quote with
        | some q => if c = q then none else some q
        | none => if c = '\'' || c = '"' then some c else none
      let depth' :=
        if quote.isSome then depth
        else if c = '(' then depth + 1
        else if c = ')' then depth - 1
        else depth
      match splitFrom depth' quote' r with
      | p :: ps => (c :: p) :: ps
      | [] => [[c]]

/-- The keys of a list, without blanks around them; an empty last one is left out. -/
def split (keys : List Char) : List (List Char) :=
  let parts := (splitFrom 0 none keys).map Text.trim
  if parts.getLast?.any List.isEmpty then parts.dropLast else parts

/-- Whether quotes stand in pairs only. -/
def quotesPaired : List Char → Bool
  | [] => true
  | '"' :: '"' :: r => quotesPaired r
  | c :: r => c != '"' && quotesPaired r

/-- The column that a key names, when it is a simple name or a quoted one. -/
def column? (key : List Char) : Option (List Char) :=
  match key with
  | '"' :: r =>
    match Text.before? ['"'] r with
    | some inner =>
      if !inner.isEmpty && quotesPaired inner then some (Text.undouble '"' inner) else none
    | none => none
  | _ => if Expression.isSimpleName key then some key else none

/-- The columns of a list of keys, or the whole list as an expression. -/
def read (keys : String) : List String × Option String :=
  match split keys.toList with
  | [] => ([], some (Text.trimmed keys))
  | parts =>
    match parts.mapM column? with
    | some columns => (columns.map String.ofList, none)
    | none => ([], some (Text.trimmed keys))

end SchemaPlan.IndexKeys
