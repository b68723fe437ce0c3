import SchemaPlan.Number.Binary64

/-!
# Edit distance

The distance of two texts is the least number of characters that have to be inserted, deleted or
replaced to turn one into the other.  It is computed row by row: `nextRow` has the distances of
all starts of the second text from a start of the first that is one character longer.

* `similarity` is one minus the distance over the greater length.
-/

set_option autoImplicit false

namespace SchemaPlan.Text

/-- The entries of the next row from the second on.  `diagonal` is the entry of the old row to
the upper left, `left` the entry just computed, and the list holds the rest of the old row. -/
def nextEntries (c : Char) : Nat → Nat → List Char → List Nat → List Nat
  | diagonal, left, d :: ds, up :: ups =>
    let entry := min (min (up + 1) (left + 1)) (diagonal + if c = d then 0 else 1)
    entry :: nextEntries c up entry ds ups
  | _, _, _, _ => []

/-- The row for one more character `c` of the first text. -/
def nextRow (c : Char) (target : List Char) : List Nat → List Nat
  | [] => []
  | first :: row => (first + 1) :: nextEntries c first (first + 1) target row

/-- The row of distances from the empty text. -/
def firstRow (target : List Char) : List Nat :=
  List.range (target.length + 1)

/-- The edit distance of two texts. -/
def editDistance (source target : List Char) : Nat :=
  ((source.foldl (fun row c => nextRow c target row) (firstRow target)).getLast?).getD 0

/-- How similar two texts are: the distance and the greater length, as a ratio that is taken from
one.  Two empty texts are equal. -/
def similarity (source target : String) : Number.Binary64 :=
  let longest := max source.length target.length
  if longest = 0 then .one
  else
    match Number.Binary64.ofRatio? false (editDistance source.toList target.toList) longest with
    | some distance => distance.complement
    | none => .zero

end SchemaPlan.Text
