import Mathlib.Data.List.Perm.Basic
import SchemaPlan.Proofs.Catalog.Attachment
import SchemaPlan.Proofs.Graph.SourceOrder

/-!
# The order of catalog rows

The rows of a catalog are read in any order.

* `Reordered` says which order is free: that of all rows, but for the keys and checks of a table.
* `filter_sortedColumns`: the columns of a table stand by their positions.
* `sameUpToOrder_fill`: so a table is filled alike, up to the order of its foreign keys, indexes and
  triggers, which registration does not see.
* `graph_of_reordered`: nothing that is made of a catalog shows the order of its rows.
-/

set_option autoImplicit false

namespace SchemaPlan

/-- A translation succeeds in any order, with the same results. -/
theorem Outcome.exists_mapM_of_perm {ε α β : Type} {f : α → Except ε β} {xs ys : List α}
    {as : List β} (h : xs.Perm ys) (hxs : xs.mapM f = .ok as) :
    ∃ bs, ys.mapM f = .ok bs ∧ as.Perm bs := by
  obtain ⟨bs, hbs, hperm⟩ := List.perm_comp_forall₂ h.symm (Outcome.mapM_eq_ok_iff.1 hxs)
  exact ⟨bs, Outcome.mapM_eq_ok_iff.2 hbs, hperm.symm⟩

namespace Catalog

/-! ## Rows in another order -/

/-- Whether a row is one of a primary key, a unique key or a check. -/
def ConstraintRow.isInline (row : ConstraintRow) : Bool :=
  ["p", "u", "c"].contains row.kind

namespace Snapshot

variable {a b : Snapshot}

/-- The same rows in another order.  The keys and checks of each table keep theirs. -/
structure Reordered (a b : Snapshot) : Prop where
  extensions : a.extensions.Perm b.extensions
  enums : a.enums.Perm b.enums
  tables : a.tables.Perm b.tables
  columns : a.columns.Perm b.columns
  constraints : a.constraints.Perm b.constraints
  indexes : a.indexes.Perm b.indexes
  functions : a.functions.Perm b.functions
  triggers : a.triggers.Perm b.triggers
  inline : ∀ name ∈ a.tables.map TableRow.name,
    (a.constraints.filter fun row => row.table == name && row.isInline) =
      b.constraints.filter fun row => row.table == name && row.isInline

/-- No two tables have one name, and no two columns of a table one position. -/
structure HasDistinctPlaces (snapshot : Snapshot) : Prop where
  tables : (snapshot.tables.map TableRow.name).Nodup
  columns : ∀ name ∈ snapshot.tables.map TableRow.name,
    ((snapshot.columns.filter fun row => row.table == name).map ColumnRow.position).Nodup

theorem Reordered.symm (h : a.Reordered b) : b.Reordered a where
  extensions := h.extensions.symm
  enums := h.enums.symm
  tables := h.tables.symm
  columns := h.columns.symm
  constraints := h.constraints.symm
  indexes := h.indexes.symm
  functions := h.functions.symm
  triggers := h.triggers.symm
  inline name hname := (h.inline name ((h.tables.map TableRow.name).mem_iff.2 hname)).symm

theorem HasDistinctPlaces.of_reordered (ha : a.HasDistinctPlaces) (h : a.Reordered b) :
    b.HasDistinctPlaces where
  tables := (h.tables.map TableRow.name).nodup_iff.1 ha.tables
  columns name hname :=
    ((h.columns.filter _).map ColumnRow.position).nodup_iff.1
      (ha.columns name ((h.tables.map TableRow.name).mem_iff.2 hname))

/-! ## Tables and columns -/

theorem bareTables_of_reordered (ha : a.HasDistinctPlaces) (h : a.Reordered b) :
    a.bareTables = b.bareTables := by
  have hnames : ((b.tables.map fun row =>
      ({ name := row.name, comment := row.comment } : Table)).map Table.name).Nodup := by
    rw [List.map_map]
    exact (ha.of_reordered h).tables
  exact Order.ofList_eq_of_perm (Order.ascending_ofList _ _)
    ((h.tables.map _).trans (Order.ofList_perm hnames).symm)

theorem mem_names_of_mem_bareTables {t : Table} (ht : t ∈ a.bareTables) :
    t.name ∈ a.tables.map TableRow.name := by
  obtain ⟨row, hrow, rfl⟩ := List.mem_map.1 (Order.mem_of_mem_ofList ht)
  exact List.mem_map_of_mem hrow

/-- By table, then by position. -/
def columnOrder : ColumnRow → ColumnRow → Ordering :=
  compareLex (compareOn ColumnRow.table) (compareOn ColumnRow.position)

instance : Std.TransCmp columnOrder :=
  inferInstanceAs
    (Std.TransCmp (compareLex (compareOn ColumnRow.table) (compareOn ColumnRow.position)))

theorem position_eq_of_columnOrder {x y : ColumnRow} (h : columnOrder x y = .eq) :
    x.position = y.position := by
  rw [columnOrder, compareLex, Ordering.then_eq_eq] at h
  exact Std.LawfulEqCmp.eq_of_compare h.2

theorem pairwise_sortedColumns (snapshot : Snapshot) :
    snapshot.sortedColumns.Pairwise fun x y => (columnOrder x y).isLE = true := by
  have htotal (x y : ColumnRow) :
      ((columnOrder x y).isLE || (columnOrder y x).isLE) = true := by
    have hswap : columnOrder y x = (columnOrder x y).swap := Std.OrientedCmp.eq_swap
    rw [hswap]
    cases columnOrder x y <;> rfl
  exact List.pairwise_mergeSort (fun _ _ _ => Std.TransCmp.isLE_trans) htotal snapshot.columns

/-- The columns of a table stand by their positions. -/
theorem filter_sortedColumns (ha : a.HasDistinctPlaces) (h : a.Reordered b) {name : String}
    (hname : name ∈ a.tables.map TableRow.name) :
    (a.sortedColumns.filter fun row => row.table == name) =
      b.sortedColumns.filter fun row => row.table == name := by
  have hpermA : a.sortedColumns.Perm a.columns := List.mergeSort_perm _ _
  have hpermB : b.sortedColumns.Perm a.columns := (List.mergeSort_perm _ _).trans h.columns.symm
  refine List.Perm.eq_of_pairwise (fun x y hx hy hxy hyx => ?_)
    ((pairwise_sortedColumns a).filter _) ((pairwise_sortedColumns b).filter _)
    ((hpermA.trans hpermB.symm).filter _)
  have hposition := position_eq_of_columnOrder (Std.OrientedCmp.isLE_antisymm hxy hyx)
  exact List.inj_on_of_nodup_map (ha.columns name hname) ((hpermA.filter _).mem_iff.1 hx)
    ((hpermB.filter _).mem_iff.1 hy) hposition

/-! ## Constraints -/

/-- What a row says about the table itself is a key or a check. -/
theorem filter_constraint (row : ConstraintRow) :
    row.constraint.toOption.filter (fun c => !c.kind.isForeignKey) =
      if row.isInline then row.constraint.toOption else none := by
  rw [ConstraintRow.constraint, ConstraintRow.isInline]
  split
  · rename_i hkind
    rw [hkind]
    rfl
  · rename_i hkind
    rw [hkind]
    rfl
  · rename_i hkind
    rw [hkind]
    rfl
  · rename_i hkind
    rw [hkind]
    cases row.foreignKey <;> rfl
  · exact (ite_self _).symm

theorem filter_contents (rows : List ConstraintRow) (name : String) :
    ((constraintAttachment.contents rows name).filter fun c => !c.kind.isForeignKey) =
      (rows.filter fun row => row.table == name && row.isInline).filterMap
        fun row => row.constraint.toOption := by
  rw [Attachment.contents, List.filter_filterMap, List.filterMap_filter, List.filterMap_filter]
  refine List.filterMap_congr fun row _ => ?_
  cases hname : row.table == name with
  | true => simpa [constraintAttachment, hname] using filter_constraint row
  | false => simp [constraintAttachment, hname]

/-! ## Filled tables -/

/-- **A table is filled alike in every order**, up to what becomes an object of its own. -/
theorem sameUpToOrder_fill (ha : a.HasDistinctPlaces) (h : a.Reordered b) {t : Table}
    (ht : t ∈ a.bareTables) : (a.fill t).SameUpToOrder (b.fill t) where
  name := rfl
  comment := rfl
  columns := by
    have hname := mem_names_of_mem_bareTables ht
    have hcontents : columnAttachment.contents a.sortedColumns t.name =
        columnAttachment.contents b.sortedColumns t.name :=
      congrArg (List.filterMap _) (filter_sortedColumns ha h hname)
    rw [fill, fill, hcontents]
  inlineConstraints := by
    have hname := mem_names_of_mem_bareTables ht
    rw [fill, fill, List.filter_append, List.filter_append, filter_contents, filter_contents,
      h.inline t.name hname]
  foreignKeys := ((Attachment.contents_perm h.constraints t.name).append_left _).filter _
  indexes := (Attachment.contents_perm h.indexes t.name).append_left _
  triggers := (Attachment.contents_perm h.triggers t.name).append_left _

theorem rowsFit_of_reordered (ha : a.HasDistinctPlaces) (h : a.Reordered b) (hfit : a.RowsFit) :
    b.RowsFit := by
  have htables := bareTables_of_reordered ha h
  constructor
  · rw [← htables]
    exact fun row hrow => hfit.columns row (h.columns.mem_iff.2 hrow)
  · rw [← htables]
    exact fun row hrow => hfit.constraints row (h.constraints.mem_iff.2 hrow)
  · rw [← htables]
    exact fun row hrow => hfit.indexes row (h.indexes.mem_iff.2 hrow)
  · rw [← htables]
    exact fun row hrow => hfit.triggers row (h.triggers.mem_iff.2 hrow)

theorem exists_assembledTables (ha : a.HasDistinctPlaces) (h : a.Reordered b)
    {tables : List Table} (htables : a.assembledTables = .ok tables) :
    ∃ tables', b.assembledTables = .ok tables' ∧
      List.Forall₂ Table.SameUpToOrder tables tables' := by
  obtain ⟨hfit, rfl⟩ := assembledTables_eq_ok_iff.1 htables
  refine ⟨b.bareTables.map b.fill,
    assembledTables_eq_ok_iff.2 ⟨rowsFit_of_reordered ha h hfit, rfl⟩, ?_⟩
  rw [← bareTables_of_reordered ha h, List.forall₂_map_left_iff, List.forall₂_map_right_iff,
    List.forall₂_same]
  exact fun t ht => sameUpToOrder_fill ha h ht

/-! ## Graphs -/

theorem exists_objects (ha : a.HasDistinctPlaces) (h : a.Reordered b)
    {objects : List SchemaObject} (hobjects : a.objects = .ok objects) :
    ∃ objects', b.objects = .ok objects' ∧
      (objects.flatMap SchemaObject.parts).Perm (objects'.flatMap SchemaObject.parts) := by
  obtain ⟨tables, htables, hrest⟩ := Outcome.bind_eq_ok_iff.1 hobjects
  obtain ⟨functions, hfunctions, hrest⟩ := Outcome.bind_eq_ok_iff.1 hrest
  cases hrest
  obtain ⟨tables', htables', hsame⟩ := exists_assembledTables ha h htables
  obtain ⟨functions', hfunctions', hperm⟩ := Outcome.exists_mapM_of_perm h.functions hfunctions
  refine ⟨_, Outcome.bind_eq_ok_iff.2 ⟨tables', htables',
    Outcome.bind_eq_ok_iff.2 ⟨functions', hfunctions', rfl⟩⟩, ?_⟩
  simp only [List.flatMap_append]
  exact ((((h.extensions.map _).flatMap_right _).append ((h.enums.map _).flatMap_right _)).append
    ((hperm.map _).flatMap_right _)).append (parts_perm_of_forall₂ hsame)

theorem graph_eq_ok_of_reordered (ha : a.HasDistinctPlaces) (h : a.Reordered b)
    {graph : SchemaGraph} (hgraph : a.graph = .ok graph) : b.graph = .ok graph := by
  obtain ⟨objects, hobjects, hregister⟩ := Outcome.bind_eq_ok_iff.1 hgraph
  rw [Outcome.mapError_eq_ok_iff] at hobjects hregister
  obtain ⟨objects', hobjects', hperm⟩ := exists_objects ha h hobjects
  exact Outcome.bind_eq_ok_iff.2 ⟨objects', Outcome.mapError_eq_ok_iff.2 hobjects',
    Outcome.mapError_eq_ok_iff.2 (Registration.register_eq_ok_of_parts_perm hperm hregister)⟩

/-- Every error of a catalog is one of introspection. -/
theorem kind_of_graph_eq_error {snapshot : Snapshot} {e : SchemaError}
    (h : snapshot.graph = .error e) : e.kind = "IntrospectionError" := by
  rcases Outcome.bind_eq_error_iff.1 h with h | ⟨objects, -, h⟩
  · obtain ⟨fault, -, rfl⟩ := Outcome.mapError_eq_error_iff.1 h
    rfl
  · obtain ⟨cause, -, rfl⟩ := Outcome.mapError_eq_error_iff.1 h
    rfl

/-- **The order of catalog rows never drives the result.**  Snapshots that differ in it have one
graph or none, and every error says that the catalog could not be read. -/
theorem graph_of_reordered (ha : a.HasDistinctPlaces) (h : a.Reordered b) :
    (∃ graph, a.graph = .ok graph ∧ b.graph = .ok graph) ∨
      ∃ e e', a.graph = .error e ∧ b.graph = .error e' ∧
        e.kind = "IntrospectionError" ∧ e'.kind = "IntrospectionError" := by
  cases hgraph : a.graph with
  | ok graph => exact .inl ⟨graph, rfl, graph_eq_ok_of_reordered ha h hgraph⟩
  | error e =>
    cases hgraph' : b.graph with
    | ok graph =>
      have hback := graph_eq_ok_of_reordered (ha.of_reordered h) h.symm hgraph'
      rw [hgraph] at hback
      cases hback
    | error e' =>
      exact .inr ⟨e, e', rfl, rfl, kind_of_graph_eq_error hgraph, kind_of_graph_eq_error hgraph'⟩

/-- A column that may be null, without a default. -/
def columnRow (table name : String) (position : Int) (type : String) : ColumnRow :=
  { table, name, position, type, nullable := true, default := none, comment := none }

/-- A constraint that is never deferred. -/
def constraintRow (table name kind : String) (columns : List String) (definition : String)
    (referencesTable : Option String) (referencesColumns : List String) : ConstraintRow :=
  { table, name, kind, columns, definition, referencesTable, referencesColumns, onUpdate := "a"
    onDelete := "a", deferrable := false, initiallyDeferred := false }

/-- Albums of users. -/
def albumRows : Snapshot where
  extensions := [⟨"citext"⟩, ⟨"pg_trgm"⟩]
  tables := [⟨"user", none⟩, ⟨"album", none⟩]
  columns := [columnRow "album" "owner" 1 "uuid", columnRow "album" "year" 2 "integer",
    columnRow "user" "id" 1 "uuid"]
  constraints := [
    constraintRow "user" "user_pkey" "p" ["id"] "PRIMARY KEY (id)" none [],
    constraintRow "album" "album_key" "u" ["year"] "UNIQUE (year)" none [],
    constraintRow "album" "album_owner" "f" ["owner"] "FOREIGN KEY (owner) REFERENCES user(id)"
      (some "user") ["id"],
    constraintRow "album" "album_check" "c" [] "CHECK ((year > 0))" none []]

/-- The same rows the other way round, but for the key and the check of albums. -/
def albumRowsReordered : Snapshot where
  extensions := [⟨"pg_trgm"⟩, ⟨"citext"⟩]
  tables := [⟨"album", none⟩, ⟨"user", none⟩]
  columns := [columnRow "user" "id" 1 "uuid", columnRow "album" "year" 2 "integer",
    columnRow "album" "owner" 1 "uuid"]
  constraints := [
    constraintRow "album" "album_owner" "f" ["owner"] "FOREIGN KEY (owner) REFERENCES user(id)"
      (some "user") ["id"],
    constraintRow "album" "album_key" "u" ["year"] "UNIQUE (year)" none [],
    constraintRow "album" "album_check" "c" [] "CHECK ((year > 0))" none [],
    constraintRow "user" "user_pkey" "p" ["id"] "PRIMARY KEY (id)" none []]

theorem graph_of_reordered_albums :
    albumRows.HasDistinctPlaces ∧ albumRows.Reordered albumRowsReordered ∧
      ∃ graph, albumRows.graph = .ok graph ∧ albumRowsReordered.graph = .ok graph := by
  have hplaces : albumRows.HasDistinctPlaces := ⟨by decide, by decide⟩
  have hrows : albumRows.Reordered albumRowsReordered := {
    extensions := by decide
    enums := by decide
    tables := by decide
    columns := by decide
    constraints := by decide
    indexes := by decide
    functions := by decide
    triggers := by decide
    inline := by decide }
  have hsorted : albumRows.sortedColumns = albumRows.columns :=
    List.mergeSort_of_pairwise (by decide)
  have hok : albumRows.graph.toOption.isSome = true := by
    rw [graph, objects, assembledTables, hsorted]
    decide +kernel
  refine ⟨hplaces, hrows, ?_⟩
  rcases graph_of_reordered hplaces hrows with hgraph | ⟨e, -, he, -⟩
  · exact hgraph
  · rw [he] at hok
    cases hok

end Snapshot

end Catalog

end SchemaPlan
