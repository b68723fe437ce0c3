import Mathlib.Data.List.Perm.Basic
import SchemaPlan.Proofs.Graph.References

/-!
# Constraints and indexes among the parts of a schema

Constraints and indexes are what registration gives computed names to.  Those of a table stand in
it or are parts of their own; `SchemaObject.named` finds both, each with its table.

* `withName_eq_mapNames`: registration changes their names, and nothing else.
* `IsNamed.eq_of_idNamed_eq`: an identity tells the name and whose it is.
* `flatMap_named_resolvedParts`: splitting a declaration keeps its constraints and indexes.
-/

set_option autoImplicit false

namespace SchemaPlan

/-! ## Names -/

/-- Whether objects of a kind get a computed name when they have none. -/
def ObjectKind.hasComputedName : ObjectKind → Bool
  | constraint | index => true
  | _ => false

namespace SchemaObject

/-- The name that is written down for a constraint or index; the empty one when there is none. -/
def writtenName : SchemaObject → String
  | constraint c => c.constraint.name
  | index i => i.name
  | _ => ""

/-- The computed name of a constraint or index. -/
def computedName : SchemaObject → String
  | constraint c => c.constraint.kind.computedName c.table
  | index i => i.computedName
  | _ => ""

/-- The name that a constraint or index is registered with. -/
def givenName (object : SchemaObject) : String :=
  if object.writtenName = "" then object.computedName else object.writtenName

/-- The identity of a constraint or index if it had another name. -/
def idNamed (name : String) : SchemaObject → ObjectId
  | constraint c => .within .constraint c.table name
  | index _ => ⟨.index, name⟩
  | object => object.id

/-- The constraints and indexes of a part of a schema, each with its table. -/
def named : SchemaObject → List SchemaObject
  | table t => t.constraints.map fun c => constraint ⟨t.name, c⟩
  | constraint c => [constraint c]
  | index i => [index i]
  | _ => []

/-- A part of a schema with other names for its constraints and indexes. -/
def mapNames (name : SchemaObject → String) : SchemaObject → SchemaObject
  | table t =>
    table { t with
      constraints := t.constraints.map fun c => { c with name := name (constraint ⟨t.name, c⟩) } }
  | constraint c =>
    constraint { c with constraint := { c.constraint with name := name (constraint c) } }
  | index i => index { i with name := name (index i) }
  | object => object

theorem mapNames_congr {name other : SchemaObject → String} {object : SchemaObject}
    (h : ∀ x ∈ object.named, name x = other x) : object.mapNames name = object.mapNames other := by
  cases object with
  | table t =>
    have hsame : ∀ c ∈ t.constraints,
        ({ c with name := name (constraint ⟨t.name, c⟩) } : Constraint) =
          { c with name := other (constraint ⟨t.name, c⟩) } := fun c hc => by
      rw [h _ (List.mem_map_of_mem hc)]
    rw [mapNames, mapNames, List.map_congr_left hsame]
  | constraint c => rw [mapNames, mapNames, h _ (List.mem_singleton_self _)]
  | index i => rw [mapNames, mapNames, h _ (List.mem_singleton_self _)]
  | _ => rfl

theorem id_mapNames (name : SchemaObject → String) (object : SchemaObject) :
    (object.mapNames name).id = object.idNamed (name object) := by
  cases object <;> rfl

theorem withName_constraint (table : String) (c : Constraint) :
    c.withName table = { c with name := (constraint ⟨table, c⟩).givenName } := by
  rw [Constraint.withName, givenName, writtenName]
  split <;> rfl

/-- Registration gives names to constraints and indexes, and changes nothing else. -/
theorem withName_eq_mapNames (object : SchemaObject) :
    object.withName = object.mapNames givenName := by
  cases object with
  | table t => simp only [withName, mapNames, withName_constraint]
  | constraint c => simp only [withName, mapNames, withName_constraint]
  | index i =>
    rw [withName, mapNames, givenName, writtenName]
    split <;> rfl
  | _ => rfl

/-- Registration leaves an object alone when all constraints and indexes in it have names. -/
theorem withName_eq_self_iff {object : SchemaObject} :
    object.withName = object ↔ ∀ x ∈ object.named, x.writtenName ≠ "" := by
  have hconstraint : ∀ {c : Constraint} {table : String},
      c.withName table = c ↔ c.name ≠ "" := by
    intro c table
    rw [Constraint.withName]
    split
    · rename_i hempty
      refine iff_of_false (fun h => ?_) (not_not.2 hempty)
      exact Constraint.computedName_ne_empty _ _ ((congrArg Constraint.name h).trans hempty)
    · rename_i hname
      exact iff_of_true rfl hname
  cases object with
  | table t =>
    have hnames : (table t).withName = table t ↔
        t.constraints.map (fun c => c.withName t.name) = t.constraints := by
      refine ⟨fun h => congrArg Table.constraints (table.inj h), fun h => ?_⟩
      rw [withName, h]
    have hall : t.constraints.map (fun c => c.withName t.name) = t.constraints ↔
        ∀ c ∈ t.constraints, c.withName t.name = c := by
      conv_lhs => rhs; rw [← List.map_id' t.constraints]
      exact List.map_inj_left
    rw [hnames, hall]
    simp only [hconstraint, named, List.forall_mem_map, writtenName]
  | constraint c =>
    have hname : (constraint c).withName = constraint c ↔
        c.constraint.withName c.table = c.constraint := by
      refine ⟨fun h => congrArg TableConstraint.constraint (constraint.inj h), fun h => ?_⟩
      rw [withName, h]
    rw [hname, hconstraint]
    simp only [named, List.forall_mem_singleton, writtenName]
  | index i =>
    simp only [named, List.forall_mem_singleton, writtenName, withName]
    split
    · rename_i hempty
      refine iff_of_false (fun h => ?_) (not_not.2 hempty)
      have hcomputed := congrArg Index.name (index.inj h)
      exact Naming.tagged_ne_empty (by decide) _ _ (hcomputed.trans hempty)
    · rename_i hname
      exact iff_of_true rfl hname
  | _ => exact iff_of_true rfl fun name hname => absurd hname List.not_mem_nil

theorem kind_idNamed (name : String) (object : SchemaObject) :
    (object.idNamed name).kind = object.kind := by
  cases object <;> rfl

theorem named_resolveEnums (isEnum : String → Bool) (object : SchemaObject) :
    (object.resolveEnums isEnum).named = object.named := by
  cases object <;> rfl

/-- A constraint of a table without a dot in its name, or an index. -/
inductive IsNamed : SchemaObject → Prop
  | constraint (c : TableConstraint) (h : '.' ∉ c.table.toList) : IsNamed (.constraint c)
  | index (i : Index) : IsNamed (.index i)

theorem mem_named_self {object : SchemaObject} (h : object.kind.hasComputedName = true) :
    object ∈ object.named := by
  cases object <;> first | exact List.mem_singleton_self _ | cases h

/-- Only the identities of constraints and indexes depend on these names. -/
theorem idNamed_eq_idNamed {object : SchemaObject} (h : object.kind.hasComputedName = false)
    (name other : String) : object.idNamed name = object.idNamed other := by
  cases object <;> first | rfl | cases h

/-- The names in identities can be told apart, and so can whose they are. -/
theorem IsNamed.eq_of_idNamed_eq {x y : SchemaObject} (hx : x.IsNamed) (hy : y.IsNamed)
    {name other : String} (h : x.idNamed name = y.idNamed other) :
    name = other ∧ ∀ common, x.idNamed common = y.idNamed common := by
  cases hx with
  | constraint c hc =>
    cases hy with
    | constraint c' hc' =>
      obtain ⟨htable, hname⟩ := ObjectId.within_inj rfl hc hc' h
      exact ⟨hname, fun common => congrArg (ObjectId.within .constraint · common) htable⟩
    | index i => cases congrArg ObjectId.kind h
  | index i =>
    cases hy with
    | constraint c' hc' => cases congrArg ObjectId.kind h
    | index i' => exact ⟨congrArg ObjectId.name h, fun _ => rfl⟩

end SchemaObject

/-! ## Splitting -/

/-- The constraints and indexes of a table. -/
def Table.named (t : Table) : List SchemaObject :=
  (t.constraints.map fun c => .constraint ⟨t.name, c⟩) ++ t.ownIndexes.map .index

/-- The constraints and indexes of a declaration. -/
def Declaration.named (declaration : Declaration) : List SchemaObject :=
  declaration.tables.flatMap Table.named

/-- Splitting a table keeps its constraints and indexes. -/
theorem Table.flatMap_named_parts (t : Table) :
    ((SchemaObject.table t).parts.flatMap SchemaObject.named).Perm t.named := by
  have hself : ∀ {objects : List SchemaObject}, (∀ object ∈ objects, object.named = [object]) →
      objects.flatMap SchemaObject.named = objects := fun h => by
    rw [List.flatMap_congr h]
    exact List.flatMap_singleton' _
  have hkeys : (t.foreignKeys.map SchemaObject.constraint).flatMap SchemaObject.named =
      t.foreignKeys.map .constraint :=
    hself (List.forall_mem_map.2 fun _ _ => rfl)
  have hindexes : (t.ownIndexes.map SchemaObject.index).flatMap SchemaObject.named =
      t.ownIndexes.map .index :=
    hself (List.forall_mem_map.2 fun _ _ => rfl)
  have htriggers : (t.ownTriggers.map SchemaObject.trigger).flatMap SchemaObject.named = [] :=
    List.flatMap_eq_nil_iff.2 (List.forall_mem_map.2 fun _ _ => rfl)
  rw [SchemaObject.parts, List.flatMap_cons, List.flatMap_append, List.flatMap_append, hkeys,
    hindexes, htriggers, List.append_nil, ← List.append_assoc, Table.named]
  refine List.Perm.append_right _ ?_
  have hsplit := List.filter_append_perm (fun c : Constraint => !c.kind.isForeignKey) t.constraints
  have hnamed := hsplit.map fun c => SchemaObject.constraint ⟨t.name, c⟩
  simp only [Bool.not_not, List.map_append] at hnamed
  rw [foreignKeys, List.map_map]
  exact hnamed

namespace Registration

/-- **Splitting a declaration keeps its constraints and indexes.** -/
theorem flatMap_named_resolvedParts (declaration : Declaration) :
    ((resolvedParts declaration.objects).flatMap SchemaObject.named).Perm declaration.named := by
  rw [resolvedParts, resolveEnums, List.flatMap_map,
    List.flatMap_congr fun object _ => object.named_resolveEnums _, List.flatMap_assoc]
  have hnone : ∀ (α : Type) (wrap : α → SchemaObject) (xs : List α),
      (∀ x, (wrap x).parts.flatMap SchemaObject.named = []) →
        ((xs.map wrap).flatMap fun object => object.parts.flatMap SchemaObject.named) = [] :=
    fun _ wrap xs h => List.flatMap_eq_nil_iff.2 fun object hobject => by
      obtain ⟨x, -, rfl⟩ := List.mem_map.1 hobject
      exact h x
  simp only [Declaration.objects, List.flatMap_append]
  rw [hnone _ _ _ fun _ => rfl, hnone _ _ _ fun _ => rfl, hnone _ _ _ fun _ => rfl,
    List.nil_append, List.nil_append, List.nil_append, List.flatMap_map]
  exact List.Perm.flatMap_left _ fun t _ => t.flatMap_named_parts

/-- A table among the parts holds no foreign key, and a constraint is one. -/
theorem parts_of_mem_resolvedParts {declaration : Declaration} {part : SchemaObject}
    (h : part ∈ resolvedParts declaration.objects) : part.parts = [part] ∧ part.StandsAlone := by
  obtain ⟨split, hsplit, rfl⟩ := List.mem_map.1 h
  obtain ⟨source, hsource, hmem⟩ := List.mem_flatMap.1 hsplit
  refine ⟨SchemaObject.parts_resolveEnums _ (SchemaObject.parts_of_mem_parts hmem), ?_⟩
  have halone := SchemaObject.standsAlone_of_mem_parts
    (declaration.standsAlone_objects source hsource) hmem
  cases split <;> exact halone

end Registration

end SchemaPlan
