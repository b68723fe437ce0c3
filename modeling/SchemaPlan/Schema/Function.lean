import SchemaPlan.Schema.ObjectId
import SchemaPlan.Text.Blank
import SchemaPlan.Text.WordChar

/-!
# Functions

A stored function.  `identityArguments` is its argument list without the defaults, which is what
a statement that drops it has to name.
-/

set_option autoImplicit false

namespace SchemaPlan

/-- What a function promises about its results. -/
inductive Volatility where
  | immutable
  | stable
  | volatile
deriving DecidableEq, Repr

namespace Volatility

/-- The promise as SQL. -/
def sql : Volatility → String
  | immutable => "IMMUTABLE"
  | stable => "STABLE"
  | volatile => "VOLATILE"

/-- The promise that a catalog stores under a letter. -/
def ofCatalogCode? (code : Char) : Option Volatility :=
  match code with
  | 'i' => some immutable
  | 's' => some stable
  | 'v' => some volatile
  | _ => none

end Volatility

/-- Where a function may run in a parallel query. -/
inductive ParallelSafety where
  | safe
  | restricted
  | notSafe
deriving DecidableEq, Repr

namespace ParallelSafety

/-- The safety as SQL. -/
def sql : ParallelSafety → String
  | safe => "SAFE"
  | restricted => "RESTRICTED"
  | notSafe => "UNSAFE"

/-- The safety that a catalog stores under a letter. -/
def ofCatalogCode? (code : Char) : Option ParallelSafety :=
  match code with
  | 's' => some safe
  | 'r' => some restricted
  | 'u' => some notSafe
  | _ => none

end ParallelSafety

/-- A stored function. -/
structure Function where
  name : String
  arguments : String := ""
  returns : String := "void"
  language : String := "plpgsql"
  body : String := ""
  volatility : Volatility := .volatile
  parallel : ParallelSafety := .notSafe
  dependsOn : List ObjectId := []
deriving DecidableEq, Repr

namespace Function

/-- Splits an argument list at the commas outside parentheses and single quotes.  `depth` counts
the open parentheses and `quoted` tells whether a literal is open. -/
def splitArgumentsFrom (depth : Nat) (quoted : Bool) : List Char → List (List Char)
  | [] => [[]]
  | c :: r =>
    if c = ',' && !quoted && depth == 0 then [] :: splitArgumentsFrom depth quoted r
    else
      let depth' := if quoted then depth else if c = '(' then depth + 1
        else if c = ')' then depth - 1 else depth
      match splitArgumentsFrom depth' (if c = '\'' then !quoted else quoted) r with
      | p :: ps => (c :: p) :: ps
      | [] => [[c]]

/-- Splits an argument list at the commas outside parentheses and single quotes. -/
def splitArguments (arguments : List Char) : List (List Char) :=
  splitArgumentsFrom 0 false arguments

/-- Whether the text starts with the word `default`, in any case of ASCII letters. -/
def startsWithDefault (s : List Char) : Bool :=
  match Text.after? "default".toList ((s.take 7).map Char.toLower) with
  | some _ => !((s.drop 7).head?.any Text.isWordChar)
  | none => false

/-- Whether a default begins at the text: after blanks that may be missing an equals sign, or
after blanks that may not be missing the word `default`. -/
def startsDefaultClause (s : List Char) : Bool :=
  let t := s.dropWhile Text.isBlank
  t.head? == some '=' || ((s.head?.any Text.isBlank) && startsWithDefault t)

/-- The part of an argument before its default. -/
def beforeDefault : List Char → List Char
  | [] => []
  | c :: r => if startsDefaultClause (c :: r) then [] else c :: beforeDefault r

/-- The arguments without their defaults, separated by commas. -/
def identityArguments (function : Function) : String :=
  let parts := (splitArguments function.arguments.toList).map fun argument =>
    Text.trim (beforeDefault argument)
  Text.join ", " ((parts.filter fun part => !part.isEmpty).map String.ofList)

end Function

end SchemaPlan
