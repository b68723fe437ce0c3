import SchemaPlan.Change.Operation
import SchemaPlan.Schema.Fingerprint
import SchemaPlan.Text.EditDistance

/-!
# Rename candidates

An object that goes and one that comes may be one object under a new name.

* `objectCandidates` pairs objects of one kind whose definitions agree up to their names.
* `columnCandidates` pairs columns of one type with similar names, the most similar first.
-/

set_option autoImplicit false

namespace SchemaPlan.Change

/-- Whether two objects may be one under a new name. -/
def mayBeOne (old new : SchemaObject) : Bool :=
  if old.kind = new.kind then
    old.fingerprint?.isSome && old.fingerprint? == new.fingerprint?
  else false

/-- The candidate for two objects. -/
def objectCandidate (old new : SchemaObject) : RenameCandidate :=
  { kind := old.kind
    table := none
    source := old.id.name
    target := new.id.name
    similarity := Text.similarity old.id.localName new.id.localName }

/-- The objects that are not taken. -/
def free (taken : List ObjectId) (created : List SchemaObject) : List SchemaObject :=
  created.filter fun new => !taken.contains new.id

/-- Pairs each object that goes with the first free object that comes and may be the same. -/
def matchObjects (taken : List ObjectId) (dropped created : List SchemaObject) :
    List (SchemaObject × SchemaObject) :=
  match dropped with
  | [] => []
  | old :: rest =>
    match (free taken created).find? (mayBeOne old) with
    | some new => (old, new) :: matchObjects (new.id :: taken) rest created
    | none => matchObjects taken rest created

/-- Pairs of objects that go and come, as candidates. -/
def objectCandidates (dropped created : List SchemaObject) : List RenameCandidate :=
  (matchObjects [] dropped created).map fun pair => objectCandidate pair.1 pair.2

/-- A measure of how similar two names are, and the order of its values. -/
structure Measure (σ : Type) where
  similarity : String → String → σ
  le : σ → σ → Bool

/-- The measure in floating point numbers. -/
def Measure.rounded : Measure Number.Binary64 :=
  ⟨Text.similarity, Number.Binary64.le⟩

/-- Two columns and how similar their names are. -/
structure ColumnPair (σ : Type) where
  similarity : σ
  old : String
  new : String
deriving DecidableEq, Repr

variable {σ : Type}

/-- Whether a pair goes before another: the more similar first, then by old and new name. -/
def ColumnPair.before (measure : Measure σ) (a b : ColumnPair σ) : Bool :=
  if measure.le a.similarity b.similarity && measure.le b.similarity a.similarity then
    ((compare a.old b.old).then (compare a.new b.new)).isLE
  else measure.le b.similarity a.similarity

/-- The pairs of columns of one type whose names are similar enough. -/
def columnPairs (measure : Measure σ) (dropped added : List Column) (threshold : σ) :
    List (ColumnPair σ) :=
  dropped.flatMap fun old =>
    (added.filter fun new => old.type == new.type).filterMap fun new =>
      let similarity := measure.similarity old.name new.name
      if measure.le threshold similarity then some ⟨similarity, old.name, new.name⟩ else none

/-- Keeps a pair when neither of its columns is in an earlier one. -/
def choosePairs : List (ColumnPair σ) → List (ColumnPair σ) → List (ColumnPair σ)
  | _, [] => []
  | chosen, pair :: rest =>
    if chosen.any fun other => other.old == pair.old || other.new == pair.new then
      choosePairs chosen rest
    else pair :: choosePairs (pair :: chosen) rest

/-- The pairs of columns that go from and come to a table. -/
def matchColumns (measure : Measure σ) (dropped added : List Column) (threshold : σ) :
    List (ColumnPair σ) :=
  choosePairs [] ((columnPairs measure dropped added threshold).mergeSort
    (ColumnPair.before measure))

/-- The candidate for two columns of a table. -/
def columnCandidate (table : String) (pair : ColumnPair Number.Binary64) : RenameCandidate :=
  { kind := .table
    table := some table
    source := pair.old
    target := pair.new
    similarity := pair.similarity }

/-- Pairs of columns that go from and come to a table, as candidates. -/
def columnCandidates (table : String) (dropped added : List Column)
    (threshold : Number.Binary64) : List RenameCandidate :=
  (matchColumns .rounded dropped added threshold).map (columnCandidate table)

end SchemaPlan.Change
