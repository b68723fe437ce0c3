import SchemaPlan.Dialect.Compilation
import SchemaPlan.Proofs.Graph.Registration

/-!
# The order of sources

Two authors write down one schema in different orders.

* `SameUpToOrder` says which order is theirs to choose: that of extensions, enums, functions and
  tables, and in a table that of foreign keys, indexes and triggers.
* `register_of_sameUpToOrder`: nothing that is made of a declaration shows their choice.
-/

set_option autoImplicit false

namespace SchemaPlan

/-! ## What may stand in another order -/

/-- Tables that differ in the order of their foreign keys, indexes and triggers at most. -/
structure Table.SameUpToOrder (a b : Table) : Prop where
  name : a.name = b.name
  comment : a.comment = b.comment
  columns : a.columns = b.columns
  inlineConstraints : (a.constraints.filter fun c => !c.kind.isForeignKey) =
    b.constraints.filter fun c => !c.kind.isForeignKey
  foreignKeys : (a.constraints.filter fun c => c.kind.isForeignKey).Perm
    (b.constraints.filter fun c => c.kind.isForeignKey)
  indexes : a.indexes.Perm b.indexes
  triggers : a.triggers.Perm b.triggers

/-- Declarations that differ in the order of their objects, and of what stands inside their
tables, at most. -/
structure Declaration.SameUpToOrder (a b : Declaration) : Prop where
  name : a.name = b.name
  schema : a.schema = b.schema
  extensions : a.extensions.Perm b.extensions
  enums : a.enums.Perm b.enums
  functions : a.functions.Perm b.functions
  tables : ∃ tables, a.tables.Perm tables ∧ List.Forall₂ Table.SameUpToOrder tables b.tables

/-! ## Parts -/

theorem Table.SameUpToOrder.parts_perm {a b : Table} (h : a.SameUpToOrder b) :
    (SchemaObject.table a).parts.Perm (SchemaObject.table b).parts := by
  have hbare : a.bare = b.bare := by
    rw [bare, bare, h.name, h.comment, h.columns, h.inlineConstraints]
  have hkeys : a.foreignKeys.Perm b.foreignKeys := by
    rw [Table.foreignKeys, Table.foreignKeys, h.name]
    exact h.foreignKeys.map _
  have hindexes : a.ownIndexes.Perm b.ownIndexes := by
    rw [ownIndexes, ownIndexes, h.name]
    exact h.indexes.map _
  have htriggers : a.ownTriggers.Perm b.ownTriggers := by
    rw [ownTriggers, ownTriggers, h.name]
    exact h.triggers.map _
  rw [SchemaObject.parts, SchemaObject.parts, hbare]
  exact (((hkeys.map _).append (hindexes.map _)).append (htriggers.map _)).cons _

theorem parts_perm_of_forall₂ {xs ys : List Table} (h : List.Forall₂ Table.SameUpToOrder xs ys) :
    ((xs.map SchemaObject.table).flatMap SchemaObject.parts).Perm
      ((ys.map SchemaObject.table).flatMap SchemaObject.parts) := by
  induction h with
  | nil => exact List.Perm.refl _
  | cons hhead _ ih =>
    simp only [List.map_cons, List.flatMap_cons]
    exact hhead.parts_perm.append ih

namespace Declaration

variable {a b : Declaration}

theorem SameUpToOrder.parts_perm (h : a.SameUpToOrder b) :
    (a.objects.flatMap SchemaObject.parts).Perm (b.objects.flatMap SchemaObject.parts) := by
  obtain ⟨tables, hperm, htables⟩ := h.tables
  have hall := ((hperm.map SchemaObject.table).flatMap_right SchemaObject.parts).trans
    (parts_perm_of_forall₂ htables)
  simp only [objects, List.flatMap_append]
  exact ((((h.extensions.map _).flatMap_right _).append ((h.enums.map _).flatMap_right _)).append
    ((h.functions.map _).flatMap_right _)).append hall

/-- **The order in which a schema is written down never drives the result.**  Declarations that
differ in it are both registered or both refused.  They have one graph, and so every comparison
with a live schema gives one change set with one script, or one error. -/
theorem register_of_sameUpToOrder (h : a.SameUpToOrder b) :
    (∃ e e', a.register = .error e ∧ b.register = .error e') ∨
      ∃ graph graph', a.register = .ok graph ∧ b.register = .ok graph' ∧ graph = graph' ∧
        ∀ (dialect : Dialect) (options : DiffOptions) (live : SchemaGraph),
          (dialect.compile options graph live).map
              (fun c => (c.changes, c.script.sql, c.script.checksum)) =
            (dialect.compile options graph' live).map
              (fun c => (c.changes, c.script.sql, c.script.checksum)) := by
  have hperm := h.parts_perm
  cases ha : a.register with
  | ok graph =>
    have hb : b.register = .ok graph := Registration.register_eq_ok_of_parts_perm hperm ha
    exact .inr ⟨graph, graph, rfl, hb, rfl, fun _ _ _ => rfl⟩
  | error e =>
    cases hb : b.register with
    | ok graph =>
      have ha' : a.register = .ok graph := Registration.register_eq_ok_of_parts_perm hperm.symm hb
      rw [ha] at ha'
      cases ha'
    | error e' => exact .inl ⟨e, e', rfl, rfl⟩

/-- Songs in albums of users. -/
def albumDeclaration : Declaration where
  name := "music"
  extensions := ["citext", "pg_trgm"]
  enums := [⟨"mood", ["sad", "calm"]⟩]
  tables := [
    { name := "user", columns := [{ name := "id", type := .uuid }]
      constraints := [{ kind := .primaryKey ["id"] }] },
    { name := "album"
      columns := [{ name := "owner", type := .uuid }, { name := "maker", type := .uuid },
        { name := "mood", type := .custom "mood" }]
      constraints := [
        { kind := .foreignKey
            { columns := ["owner"], referencesTable := "user", referencesColumns := ["id"] } },
        { kind := .unique ["owner", "mood"] },
        { kind := .foreignKey
            { columns := ["maker"], referencesTable := "user", referencesColumns := ["id"] } }]
      indexes := [{ columns := ["owner"] }, { columns := ["maker"] }] }]

/-- The same table with its foreign keys and indexes the other way round. -/
def albumReversed (t : Table) : Table :=
  { t with constraints := t.constraints.reverse, indexes := t.indexes.reverse }

/-- The same schema with everything the other way round. -/
def albumDeclarationReversed : Declaration :=
  { albumDeclaration with
    extensions := albumDeclaration.extensions.reverse
    tables := (albumDeclaration.tables.map albumReversed).reverse }

theorem register_of_sameUpToOrder_albums :
    albumDeclaration.SameUpToOrder albumDeclarationReversed ∧
      ∃ graph, albumDeclaration.register = .ok graph ∧
        albumDeclarationReversed.register = .ok graph := by
  have hsame : albumDeclaration.SameUpToOrder albumDeclarationReversed := {
    name := rfl
    schema := rfl
    extensions := by decide
    enums := by decide
    functions := by decide
    tables := ⟨albumDeclaration.tables.reverse, List.reverse_perm _ |>.symm,
      .cons ⟨rfl, rfl, rfl, rfl, by decide, by decide, by decide⟩
        (.cons ⟨rfl, rfl, rfl, rfl, by decide, by decide, by decide⟩ .nil)⟩ }
  have hok : albumDeclaration.register.toOption.isSome = true := by decide +kernel
  refine ⟨hsame, ?_⟩
  rcases register_of_sameUpToOrder hsame with ⟨e, -, he, -⟩ | ⟨graph, graph', ha, hb, rfl, -⟩
  · rw [he] at hok
    cases hok
  · exact ⟨graph, ha, hb⟩

end Declaration

end SchemaPlan
