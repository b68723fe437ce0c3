import SchemaPlan.Change.Apply
import SchemaPlan.Proofs.Graph.NamedParts
import SchemaPlan.Proofs.Graph.RoundTrip
import SchemaPlan.Proofs.Graph.Substitution

/-!
# Names of the constraints of a table

Constraints of a table stand in it or, foreign keys among them, by themselves.  Registration tells
objects apart by their identities, so it compares the names of the latter and never those of the
former.

* `constraintsOn_perm`: registration keeps every constraint, under the name that it has or gets.
* `exists_register_renameInside_iff`: whether a schema is registered does not depend on the names
  inside of tables.
* `constraint_names_of_register`: constraints that stand by themselves have different names in a
  table, a source in which they do not is refused, and those inside a table repeat what the source
  repeats.
* `repeated_name_registered`: two constraints of a table may share a name.
-/

set_option autoImplicit false

namespace SchemaPlan

/-- The constraints of a table among objects, inside of it and by themselves. -/
def Registration.constraintsOn (objects : List SchemaObject) (table : String) : List Constraint :=
  constraintsOf (objects.flatMap SchemaObject.named) table

/-! ## Constraints of the parts -/

namespace SchemaObject

/-- Names are given one by one. -/
theorem named_withName (object : SchemaObject) :
    object.withName.named = object.named.map withName := by
  cases object with
  | table t =>
    simp only [withName, named, List.map_map]
    rfl
  | index i =>
    rw [named, List.map_singleton, withName_eq_mapNames]
    rfl
  | _ => rfl

/-- An object with other names for the constraints that stay inside its table. -/
def renameInside (name : String → Constraint → String) : SchemaObject → SchemaObject
  | table t =>
    table { t with
      constraints := t.constraints.map fun c =>
        if c.kind.isForeignKey then c else { c with name := name t.name c } }
  | object => object

/-- An object without names for the constraints inside its table. -/
def unnamedInside : SchemaObject → SchemaObject :=
  renameInside fun _ _ => ""

theorem id_renameInside (name : String → Constraint → String) (object : SchemaObject) :
    (object.renameInside name).id = object.id := by
  cases object <;> rfl

theorem kind_renameInside (name : String → Constraint → String) (object : SchemaObject) :
    (object.renameInside name).kind = object.kind := by
  cases object <;> rfl

/-- What stays inside a table is told by its kind. -/
theorem parts_renameInside (name : String → Constraint → String) (object : SchemaObject) :
    (object.renameInside name).parts = object.parts.map (renameInside name) := by
  cases object with
  | table t =>
    have hkind : ∀ c : Constraint,
        (if c.kind.isForeignKey then c else { c with name := name t.name c }).kind = c.kind := by
      intro c
      split <;> rfl
    simp only [renameInside, parts, Table.bare, Table.foreignKeys, List.map_cons, List.map_append,
      List.map_map, List.filter_map, Function.comp_def, hkind]
    congr 3
    refine List.map_congr_left fun c hc => ?_
    rw [if_pos (List.mem_filter.1 hc).2]
  | _ => rfl

/-- Without the names, an object is as without other names, registered or not. -/
theorem unnamedInside_withName (name : String → Constraint → String) (object : SchemaObject) :
    (object.renameInside name).withName.unnamedInside = object.withName.unnamedInside := by
  cases object with
  | table t =>
    simp only [unnamedInside, renameInside, withName, List.map_map]
    congr 2
    refine List.map_congr_left fun c _ => ?_
    simp only [Function.comp_apply, Constraint.withName_kind]
    split <;> rfl
  | _ => rfl

theorem resolveEnums_renameInside (isEnum : String → Bool) (name : String → Constraint → String)
    (object : SchemaObject) :
    (object.renameInside name).resolveEnums isEnum =
      (object.resolveEnums isEnum).renameInside name := by
  cases object <;> rfl

end SchemaObject

namespace Registration

variable {xs ys : List SchemaObject} {table : String}

theorem constraintsOf_perm (h : xs.Perm ys) (table : String) :
    (constraintsOf xs table).Perm (constraintsOf ys table) :=
  h.filterMap _

theorem constraintsOf_append (xs ys : List SchemaObject) (table : String) :
    constraintsOf (xs ++ ys) table = constraintsOf xs table ++ constraintsOf ys table :=
  List.filterMap_append

/-- Constraints that get names are the constraints with names. -/
theorem constraintsOf_map_withName (xs : List SchemaObject) (table : String) :
    constraintsOf (xs.map SchemaObject.withName) table =
      (constraintsOf xs table).map fun c => c.withName table := by
  rw [constraintsOf, constraintsOf, List.filterMap_map, List.map_filterMap]
  refine List.filterMap_congr fun object _ => ?_
  cases object with
  | constraint c =>
    simp only [Function.comp_apply, SchemaObject.withName]
    split
    · rename_i htable
      rw [htable]
      rfl
    · rfl
  | index i =>
    rw [Function.comp_apply, SchemaObject.withName_eq_mapNames]
    rfl
  | _ => rfl

theorem constraintsOf_resolveEnums (xs : List SchemaObject) (table : String) :
    constraintsOf (Registration.resolveEnums xs) table = constraintsOf xs table := by
  rw [constraintsOf, Registration.resolveEnums, List.filterMap_map]
  refine List.filterMap_congr fun object _ => ?_
  cases object <;> rfl

/-- Indexes are no constraints. -/
theorem constraintsOf_indexes (indexes : List Index) (table : String) :
    constraintsOf (indexes.map .index) table = [] := by
  rw [constraintsOf, List.filterMap_map, List.filterMap_eq_nil_iff]
  exact fun _ _ => rfl

/-- Splitting an object keeps the constraints in it. -/
theorem constraintsOn_parts (object : SchemaObject) (table : String) :
    (constraintsOn object.parts table).Perm (constraintsOf object.named table) := by
  cases object with
  | table t =>
    refine (constraintsOf_perm t.flatMap_named_parts table).trans ?_
    rw [Table.named, constraintsOf_append, constraintsOf_indexes, List.append_nil]
    exact List.Perm.refl _
  | _ =>
    simp only [constraintsOn, SchemaObject.parts, List.flatMap_cons, List.flatMap_nil,
      List.append_nil]
    exact List.Perm.refl _

/-- **Registration keeps every constraint of a table, under the name that it has or gets.** -/
theorem constraintsOn_perm {sources : List SchemaObject} {graph : SchemaGraph}
    (h : register sources = .ok graph) (table : String) :
    (constraintsOn graph.objects table).Perm
      ((constraintsOn sources table).map fun c => c.withName table) := by
  have hparts : (constraintsOn (sources.flatMap SchemaObject.parts) table).Perm
      (constraintsOn sources table) := by
    rw [constraintsOn, constraintsOn, List.flatMap_assoc, constraintsOf, constraintsOf,
      List.filterMap_flatMap, List.filterMap_flatMap]
    exact List.Perm.flatMap_left _ fun object _ => constraintsOn_parts object table
  have hnamed : constraintsOn (namedParts sources) table =
      (constraintsOn (sources.flatMap SchemaObject.parts) table).map fun c => c.withName table := by
    rw [namedParts_eq, constraintsOn, Registration.resolveEnums, List.flatMap_map,
      List.flatMap_congr fun object _ => object.named_resolveEnums _, List.flatMap_map,
      List.flatMap_congr fun object _ => object.named_withName, ← List.map_flatMap,
      constraintsOf_map_withName]
    rfl
  refine (constraintsOf_perm ((objects_perm_namedParts h).flatMap_right _) table).trans ?_
  rw [← constraintsOn, hnamed]
  exact hparts.map _

/-- **Constraints that stand by themselves have different names in a table.** -/
theorem nodup_name_constraintsOf (h : (xs.map SchemaObject.id).Nodup) (table : String) :
    ((constraintsOf xs table).map Constraint.name).Nodup := by
  have hids : ((attached xs .constraint table).map SchemaObject.id).Nodup :=
    ((List.filter_sublist.trans List.filter_sublist).map SchemaObject.id).nodup h
  rw [← map_constraintsOf, List.map_map] at hids
  refine List.Nodup.of_map (ObjectId.within .constraint table) ?_
  rw [List.map_map]
  exact hids

/-! ## Names that repeat -/

/-- Collecting fails at an identity that repeats. -/
theorem exists_of_collect_eq_error {e : SchemaError} : ∀ {acc : List SchemaObject},
    collect acc xs = .error e → ∃ id, e = .duplicate (.object id) ∧
      2 ≤ ((acc ++ xs).map SchemaObject.id).count id := by
  induction xs with
  | nil =>
    intro acc h
    cases h
  | cons object rest ih =>
    intro acc h
    rw [collect] at h
    split at h
    · rename_i hany
      obtain ⟨other, hother, hid⟩ := List.any_eq_true.1 hany
      have hearlier : object.id ∈ acc.map SchemaObject.id :=
        List.mem_map.2 ⟨other, hother, beq_iff_eq.1 hid⟩
      refine ⟨object.id, (Except.error.inj h).symm, ?_⟩
      have hpos := List.count_pos_iff.2 hearlier
      rw [List.map_append, List.count_append, List.map_cons, List.count_cons_self]
      omega
    · rename_i hany
      have hfresh : object.id ∉ acc.map SchemaObject.id := fun hmem => by
        obtain ⟨other, hother, hid⟩ := List.mem_map.1 hmem
        exact hany (List.any_eq_true.2 ⟨other, hother, beq_iff_eq.2 hid⟩)
      obtain ⟨id, he, hcount⟩ := ih h
      have hperm : (Order.insertBy SchemaObject.id object acc ++ rest).Perm
          (acc ++ object :: rest) :=
        ((Order.insertBy_perm hfresh).append_right rest).trans List.perm_middle.symm
      exact ⟨id, he, hcount.trans_eq ((hperm.map SchemaObject.id).count_eq id)⟩

/-- **A source whose parts repeat an identity is refused as a duplicate**, of one that repeats. -/
theorem exists_register_eq_duplicate {sources : List SchemaObject}
    (h : ¬ ((namedParts sources).map SchemaObject.id).Nodup) :
    ∃ id, register sources = .error (.duplicate (.object id)) ∧
      2 ≤ ((namedParts sources).map SchemaObject.id).count id := by
  rw [namedParts_eq, map_id_resolveEnums] at h ⊢
  cases hcollect :
      collect [] ((sources.flatMap SchemaObject.parts).map SchemaObject.withName) with
  | ok collected => exact absurd (collect_nil_eq_ok_iff.1 hcollect).1 h
  | error e =>
    obtain ⟨id, rfl, hcount⟩ := exists_of_collect_eq_error hcollect
    exact ⟨id, by rw [register, hcollect]; rfl, hcount⟩

/-- **A source in which constraints that stand by themselves share a name in a table is
refused.** -/
theorem register_eq_duplicate_of_standing {sources : List SchemaObject} {table : String}
    (h : ¬ ((constraintsOf (sources.flatMap SchemaObject.parts) table).map
      fun c => (c.withName table).name).Nodup) :
    ∃ id, register sources = .error (.duplicate (.object id)) ∧
      2 ≤ ((namedParts sources).map SchemaObject.id).count id := by
  refine exists_register_eq_duplicate fun hids => h ?_
  have hnames := nodup_name_constraintsOf hids table
  rwa [namedParts_eq, constraintsOf_resolveEnums, constraintsOf_map_withName, List.map_map]
    at hnames

/-! ## Names inside of tables -/

/-- No reference is by the name of a constraint. -/
theorem sound_unnamedInside_iff {object : SchemaObject} :
    Sound (xs.map SchemaObject.unnamedInside) object.unnamedInside ↔ Sound xs object := by
  have hcolumns : ∀ {table columns},
      HasColumns (xs.map SchemaObject.unnamedInside) table columns ↔ HasColumns xs table columns :=
    hasColumns_map_iff (SchemaObject.kind_renameInside _) fun _ => ⟨_, rfl, rfl, rfl⟩
  have hknown : ∀ {id}, Known (xs.map SchemaObject.unnamedInside) id ↔ Known xs id :=
    known_map_iff (SchemaObject.id_renameInside _)
  cases object with
  | table t =>
    have hkind : ∀ c : Constraint,
        (if c.kind.isForeignKey then c else { c with name := "" }).kind = c.kind := by
      intro c
      split <;> rfl
    simp only [SchemaObject.unnamedInside, SchemaObject.renameInside, Sound, List.forall_mem_map,
      hkind]
    exact and_congr_right fun _ => and_congr_left fun _ =>
      forall₄_congr fun column _ name _ => hknown
  | function f => exact forall₂_congr fun id _ => hknown
  | constraint c => exact and_congr hcolumns (forall₂_congr fun key _ => hcolumns)
  | index i => exact hcolumns
  | trigger r => exact and_congr hcolumns hknown
  | _ => exact Iff.rfl

/-- Whether objects are registered can be told without the names inside of tables. -/
theorem exists_register_iff_unnamedInside {sources : List SchemaObject} :
    (∃ graph, register sources = .ok graph) ↔
      (((namedParts sources).map SchemaObject.unnamedInside).map SchemaObject.id).Nodup ∧
        ∀ object ∈ (namedParts sources).map SchemaObject.unnamedInside,
          Sound ((namedParts sources).map SchemaObject.unnamedInside) object := by
  simp only [register_eq_ok_iff_sound, exists_and_left, exists_eq, and_true, List.forall_mem_map,
    sound_unnamedInside_iff, List.map_map]
  exact and_congr_left fun _ => by
    simp only [Function.comp_def, SchemaObject.unnamedInside, SchemaObject.id_renameInside]

theorem unnamedInside_namedParts (name : String → Constraint → String)
    (sources : List SchemaObject) :
    (namedParts (sources.map (SchemaObject.renameInside name))).map SchemaObject.unnamedInside =
      (namedParts sources).map SchemaObject.unnamedInside := by
  have hparts : (sources.map (SchemaObject.renameInside name)).flatMap SchemaObject.parts =
      (sources.flatMap SchemaObject.parts).map (SchemaObject.renameInside name) := by
    rw [List.flatMap_map, List.flatMap_congr fun object _ => object.parts_renameInside name,
      ← List.map_flatMap]
  have hresolved : resolvedParts (sources.map (SchemaObject.renameInside name)) =
      (resolvedParts sources).map (SchemaObject.renameInside name) := by
    rw [resolvedParts, resolvedParts, hparts, Registration.resolveEnums, Registration.resolveEnums,
      namesOf_map (SchemaObject.id_renameInside name), List.map_map, List.map_map]
    exact List.map_congr_left fun object _ => object.resolveEnums_renameInside _ name
  rw [namedParts, namedParts, hresolved, List.map_map, List.map_map, List.map_map]
  exact List.map_congr_left fun object _ => object.unnamedInside_withName name

/-- **Whether a schema is registered does not depend on the names inside of tables.** -/
theorem exists_register_renameInside_iff (name : String → Constraint → String)
    (sources : List SchemaObject) :
    (∃ graph, register (sources.map (SchemaObject.renameInside name)) = .ok graph) ↔
      ∃ graph, register sources = .ok graph := by
  rw [exists_register_iff_unnamedInside, unnamedInside_namedParts,
    ← exists_register_iff_unnamedInside]

end Registration

/-! ## Dropping a constraint by its name -/

/-- **A constraint is dropped alone exactly when its name occurs once in its table.** -/
theorem Change.alterTable?_dropConstraint_iff {t : Table} {c : Constraint}
    (hc : c ∈ t.constraints) :
    alterTable? t (.dropConstraint c) = some { t with constraints := t.constraints.erase c } ↔
      (t.constraints.map Constraint.name).count c.name = 1 := by
  have hfilter : alterTable? t (.dropConstraint c) =
        some { t with constraints := t.constraints.erase c } ↔
      t.constraints.filter (fun other => other.name != c.name) = t.constraints.erase c := by
    simp only [alterTable?, Option.some.injEq, Table.mk.injEq, true_and, and_true]
  have hcount : (t.constraints.map Constraint.name).count c.name =
      t.constraints.countP fun other => other.name == c.name := by
    rw [List.count, List.countP_map]
    rfl
  rw [hfilter, hcount]
  constructor
  · intro heq
    have hlength := congrArg List.length heq
    have hsplit := List.length_eq_countP_add_countP (fun other : Constraint => other.name == c.name)
      (l := t.constraints)
    rw [← List.countP_eq_length_filter, List.length_erase_of_mem hc] at hlength
    have hpos := List.length_pos_of_mem hc
    simp only [bne] at hlength
    simp only [Bool.not_eq_true, Bool.decide_eq_false] at hsplit
    omega
  · intro hone
    obtain ⟨front, back, hsplit⟩ := List.append_of_mem hc
    rw [hsplit, List.countP_append, List.countP_cons, if_pos (beq_self_eq_true c.name)] at hone
    have hother : ∀ rest : List Constraint,
        rest.countP (fun other => other.name == c.name) = 0 →
          c ∉ rest ∧ rest.filter (fun other => other.name != c.name) = rest := by
      intro rest hrest
      have hnames := List.countP_eq_zero.1 hrest
      exact ⟨fun hmem => hnames c hmem (beq_self_eq_true _),
        List.filter_eq_self.2 fun other hmem => by simpa [bne] using hnames other hmem⟩
    obtain ⟨hfresh, hfront⟩ := hother front (by omega)
    obtain ⟨-, hback⟩ := hother back (by omega)
    rw [hsplit, List.erase_append_right _ hfresh, List.erase_cons_head, List.filter_append, hfront,
      List.filter_cons_of_neg (by simp), hback]

/-! ## Names of a registered schema -/

namespace Registration

/-- What holds of the names of the constraints of a table in a registered schema. -/
structure NamesConstraints (sources : List SchemaObject) (graph : SchemaGraph) (table : String) :
    Prop where
  /-- Every constraint is kept, under the name that it has or gets. -/
  kept : (constraintsOn graph.objects table).Perm
    ((constraintsOn sources table).map fun c => c.withName table)
  /-- Names repeat where the source repeats them. -/
  distinct : ((constraintsOn graph.objects table).map Constraint.name).Nodup ↔
    ((constraintsOn sources table).map fun c => (c.withName table).name).Nodup
  /-- Constraints that stand by themselves, foreign keys among them, have different names. -/
  standing : ((constraintsOf graph.objects table).map Constraint.name).Nodup

theorem namesConstraints_of_register {sources : List SchemaObject} {graph : SchemaGraph}
    (h : register sources = .ok graph) (table : String) : NamesConstraints sources graph table where
  kept := constraintsOn_perm h table
  distinct := by
    rw [((constraintsOn_perm h table).map Constraint.name).nodup_iff, List.map_map]
    rfl
  standing := nodup_name_constraintsOf (settled_of_register h).1.ascending.nodup_keys table

/-- **Constraint names are unique among the constraints that stand by themselves**: registration
keeps the names of the source, given or computed, and refuses a source in which two of these would
share one.  It looks at no name inside of a table, so names there repeat as the source repeats them,
and a constraint is dropped alone exactly when its name does not. -/
theorem constraint_names_of_register (sources : List SchemaObject) :
    (∀ graph, register sources = .ok graph → ∀ table, NamesConstraints sources graph table) ∧
    (∀ table, ¬ ((constraintsOf (sources.flatMap SchemaObject.parts) table).map
        fun c => (c.withName table).name).Nodup →
      ∃ id, register sources = .error (.duplicate (.object id)) ∧
        2 ≤ ((namedParts sources).map SchemaObject.id).count id) ∧
    (∀ name, (∃ graph, register (sources.map (SchemaObject.renameInside name)) = .ok graph) ↔
      ∃ graph, register sources = .ok graph) ∧
    ∀ t : Table, ∀ c ∈ t.constraints,
      (Change.alterTable? t (.dropConstraint c) =
          some { t with constraints := t.constraints.erase c } ↔
        (t.constraints.map Constraint.name).count c.name = 1) :=
  ⟨fun _ h table => namesConstraints_of_register h table,
    fun _ h => register_eq_duplicate_of_standing h,
    fun name => exists_register_renameInside_iff name sources,
    fun _ _ hc => Change.alterTable?_dropConstraint_iff hc⟩

/-- Songs with two unnamed constraints in their table, and a foreign key with a name. -/
def coverTable : Table where
  name := "song"
  columns := [{ name := "id", type := .uuid }, { name := "cover_of", type := .uuid }]
  constraints := [
    { kind := .primaryKey ["id"] },
    { kind := .check "id <> cover_of" },
    ⟨"song_cover", .foreignKey
      { columns := ["cover_of"], referencesTable := "song", referencesColumns := ["id"] }⟩]

/-- The same table with everything twice. -/
def doubledCoverTable : Table :=
  { coverTable with constraints := coverTable.constraints ++ coverTable.constraints }

theorem constraint_names_of_register_covers :
    (∃ graph, register [.table coverTable] = .ok graph ∧
      NamesConstraints [.table coverTable] graph "song" ∧
      ((constraintsOn graph.objects "song").map Constraint.name).Nodup) ∧
    ∃ id, register [.table doubledCoverTable] = .error (.duplicate (.object id)) := by
  have hregistered : (register [.table coverTable]).toOption.isSome = true := by decide +kernel
  obtain ⟨graph, hgraph⟩ := Option.isSome_iff_exists.1 hregistered
  rw [Outcome.toOption_eq_some_iff] at hgraph
  have hnames := (constraint_names_of_register _).1 graph hgraph "song"
  obtain ⟨id, hid, -⟩ := (constraint_names_of_register [.table doubledCoverTable]).2.1 "song"
    (by decide +kernel)
  exact ⟨⟨graph, hgraph, hnames, hnames.distinct.2 (by decide +kernel)⟩, id, hid⟩

/-- A table whose unique and check constraints have one name. -/
def repeatedNameTable : Table where
  name := "song"
  columns := [{ name := "title", type := .text }, { name := "year", type := .integer }]
  constraints := [⟨"song_key", .unique ["title"]⟩, ⟨"song_key", .check "year > 0"⟩]

/-- **Two constraints of a registered table may share a name**, and dropping one drops both. -/
theorem repeated_name_registered : ∃ graph,
    register [.table repeatedNameTable] = .ok graph ∧
    ¬ ((constraintsOn graph.objects "song").map Constraint.name).Nodup ∧
    Change.alterTable? repeatedNameTable (.dropConstraint ⟨"song_key", .unique ["title"]⟩) =
      some { repeatedNameTable with constraints := [] } :=
  ⟨.ofNodes [⟨.table repeatedNameTable, []⟩], by decide +kernel, by decide +kernel,
    by decide +kernel⟩

end Registration

end SchemaPlan
