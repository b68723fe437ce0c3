import SchemaPlan.Text.Split

/-!
# Object identity

Every object of a schema is known by its kind and name.  Constraints and triggers belong to a
table and are known by `table.name`.  Identities are ordered by kind, in the order in which
objects of different kinds are created, and then by name.
-/

set_option autoImplicit false

namespace SchemaPlan

/-- The kinds of objects. -/
inductive ObjectKind where
  | extension
  | enum
  | function
  | table
  | constraint
  | index
  | trigger
deriving DecidableEq, Repr

namespace ObjectKind

/-- All kinds in their order. -/
def all : List ObjectKind :=
  [extension, enum, function, table, constraint, index, trigger]

/-- The place of a kind in the order of creation. -/
def rank : ObjectKind → Nat
  | extension => 0
  | enum => 1
  | function => 2
  | table => 3
  | constraint => 4
  | index => 5
  | trigger => 6

/-- The name of a kind. -/
def text : ObjectKind → String
  | extension => "extension"
  | enum => "enum"
  | function => "function"
  | table => "table"
  | constraint => "constraint"
  | index => "index"
  | trigger => "trigger"

/-- The kind with exactly this name. -/
def ofText? (name : String) : Option ObjectKind :=
  all.find? fun kind => kind.text == name

/-- The kind with this name in any case of ASCII letters; an enum is also a `type`. -/
def parse? (name : String) : Option ObjectKind :=
  let lower := String.ofList (name.toList.map Char.toLower)
  if lower = "type" then some enum else ofText? lower

/-- Whether names of this kind are qualified by a table. -/
def isTableScoped : ObjectKind → Bool
  | constraint | trigger => true
  | _ => false

theorem rank_injective {a b : ObjectKind} (h : a.rank = b.rank) : a = b := by
  cases a <;> cases b <;> simp_all [rank]

end ObjectKind

/-- The identity of an object. -/
structure ObjectId where
  kind : ObjectKind
  name : String
deriving DecidableEq, Repr

namespace ObjectId

/-- The identity of a table. -/
def table (name : String) : ObjectId := ⟨.table, name⟩

/-- The identity of a constraint or trigger of a table. -/
def within (kind : ObjectKind) (table name : String) : ObjectId :=
  ⟨kind, table ++ "." ++ name⟩

/-- Kind and name, separated by a space. -/
def text (id : ObjectId) : String :=
  id.kind.text ++ " " ++ id.name

/-- The table and the name inside it, for an identity qualified by a table. -/
def tableScope? (id : ObjectId) : Option (String × String) :=
  if id.kind.isTableScoped then
    (Text.cut? '.' id.name.toList).map fun parts =>
      (String.ofList parts.1, String.ofList parts.2)
  else none

/-- A table without a dot in its name is found again. -/
theorem tableScope?_within {kind : ObjectKind} {table : String} (hkind : kind.isTableScoped = true)
    (htable : '.' ∉ table.toList) (name : String) :
    (within kind table name).tableScope? = some (table, name) := by
  have hcut : Text.cut? '.' (table ++ "." ++ name).toList = some (table.toList, name.toList) := by
    rw [String.toList_append, String.toList_append, List.append_assoc]
    exact Text.cut?_append htable name.toList
  rw [tableScope?, within, if_pos hkind, hcut]
  simp only [Option.map_some, String.ofList_toList]

/-- A constraint or trigger always has a table in its name. -/
theorem exists_tableScope?_within {kind : ObjectKind} (hkind : kind.isTableScoped = true)
    (table name : String) : ∃ scope, (within kind table name).tableScope? = some scope := by
  have hdot : '.' ∈ (table ++ "." ++ name).toList := by
    rw [String.toList_append, String.toList_append]
    exact List.mem_append_left _ (List.mem_append_right _ List.mem_cons_self)
  obtain ⟨parts, hparts⟩ := Text.exists_cut? hdot
  rw [tableScope?, within, if_pos hkind, hparts]
  exact ⟨_, rfl⟩

theorem within_inj {kind : ObjectKind} {table other name name' : String}
    (hkind : kind.isTableScoped = true) (htable : '.' ∉ table.toList)
    (hother : '.' ∉ other.toList) (h : within kind table name = within kind other name') :
    table = other ∧ name = name' := by
  have hscope := congrArg tableScope? h
  rw [tableScope?_within hkind htable, tableScope?_within hkind hother] at hscope
  simpa using hscope

/-- The name without its table. -/
def localName (id : ObjectId) : String :=
  match id.tableScope? with
  | some (_, name) => name
  | none => id.name

instance : Ord ObjectId :=
  ⟨compareLex (compareOn fun id => id.kind.rank) (compareOn fun id => id.name)⟩

instance : Std.TransOrd ObjectId :=
  inferInstanceAs (Std.TransCmp (compareLex (compareOn fun id : ObjectId => id.kind.rank)
    (compareOn fun id : ObjectId => id.name)))

instance : Std.LawfulEqOrd ObjectId where
  compare_self := Std.ReflCmp.compare_self
  eq_of_compare {a b} h := by
    have hlex : compareLex (compareOn fun id : ObjectId => id.kind.rank)
        (compareOn fun id : ObjectId => id.name) a b = .eq := h
    rw [compareLex, Ordering.then_eq_eq] at hlex
    have hrank : compare a.kind.rank b.kind.rank = .eq := hlex.1
    have hname : compare a.name b.name = .eq := hlex.2
    have hk := ObjectKind.rank_injective (Std.LawfulEqCmp.eq_of_compare hrank)
    have hn := Std.LawfulEqCmp.eq_of_compare hname
    cases a
    cases b
    simp_all

end ObjectId

end SchemaPlan
