import SchemaPlan.Proofs.Graph.Registration

/-!
# References of registered objects

`Sound` says what it takes for an object to be registered among others.

* `check_eq_ok_iff`: the check of an object passes exactly when the object is sound.
* `known_of_mem_references`: what a sound object depends on exists.
* `closed_of_register`: every dependency of a registered graph is one of its objects.
* `register_eq_ok_iff_sound`: a list of objects is registered exactly when no two of its parts have
  one identity and all of them are sound.
-/

set_option autoImplicit false

namespace SchemaPlan.Registration

variable {objects : List SchemaObject}

/-- There is an object with an identity. -/
def Known (objects : List SchemaObject) (id : ObjectId) : Prop :=
  ∃ object ∈ objects, object.id = id

/-- There is a table with a name and the listed columns. -/
def HasColumns (objects : List SchemaObject) (table : String) (columns : List String) : Prop :=
  ∃ t : Table, .table t ∈ objects ∧ t.name = table ∧
    ∀ name ∈ columns, (t.column? name).isSome = true

/-- No reference of an object dangles, and no column or label of it repeats. -/
def Sound (objects : List SchemaObject) : SchemaObject → Prop
  | .extension _ => True
  | .enum type => type.labels.Nodup
  | .function function => ∀ id ∈ function.dependsOn, Known objects id
  | .table t =>
    (t.columns.map Column.name).Nodup ∧
      (∀ column ∈ t.columns, ∀ name, column.type.enumName? = some name →
        Known objects ⟨.enum, name⟩) ∧
      ∀ constraint ∈ t.constraints, ∀ name ∈ constraint.kind.columns,
        (t.column? name).isSome = true
  | .constraint value =>
    HasColumns objects value.table value.constraint.kind.columns ∧
      ∀ key, value.constraint.foreignKey? = some key →
        HasColumns objects key.referencesTable key.referencesColumns
  | .index index => HasColumns objects index.table index.columns
  | .trigger trigger =>
    HasColumns objects trigger.table [] ∧ Known objects ⟨.function, trigger.function⟩

theorem HasColumns.known {table : String} {columns : List String}
    (h : HasColumns objects table columns) : Known objects (.table table) := by
  obtain ⟨t, hmem, rfl, -⟩ := h
  exact ⟨.table t, hmem, rfl⟩

/-! ## The parts of the check -/

theorem requireObject_eq_ok_iff {source id : ObjectId} :
    requireObject objects source id = .ok () ↔ Known objects id := by
  have hany : (objects.any fun object => object.id == id) = true ↔ Known objects id := by
    simp only [List.any_eq_true, beq_iff_eq]
    rfl
  rw [requireObject, ← hany]
  split
  · rename_i h
    simp only [h]
  · rename_i h
    simp only [reduceCtorEq, h]

theorem requireColumns_eq_ok_iff {source : ObjectId} {table : Table} {columns : List String} :
    requireColumns source table columns = .ok () ↔
      ∀ name ∈ columns, (table.column? name).isSome = true := by
  induction columns with
  | nil => simp [requireColumns]
  | cons name rest ih =>
    rw [requireColumns, List.forall_mem_cons]
    split
    · rename_i h
      rw [ih]
      simp only [h, true_and]
    · rename_i h
      simp only [reduceCtorEq, h, false_and]

/-- The look-up of columns fails at one that is missing, and names it. -/
theorem exists_of_requireColumns_eq_error {source : ObjectId} {table : Table}
    {columns : List String} {e : SchemaError} (h : requireColumns source table columns = .error e) :
    ∃ name ∈ columns, name ∉ table.columns.map Column.name ∧
      e = .dangling source (.column table.name name) := by
  induction columns with
  | nil => cases h
  | cons name rest ih =>
    rw [requireColumns] at h
    split at h
    · obtain ⟨other, hother, hmissing⟩ := ih h
      exact ⟨other, List.mem_cons_of_mem name hother, hmissing⟩
    · rename_i hmissing
      rw [Table.column?_isSome_iff] at hmissing
      exact ⟨name, List.mem_cons_self, hmissing, (Except.error.inj h).symm⟩

theorem checkLabels_eq_ok_iff {type : String} {labels seen : List String} :
    checkLabels type seen labels = .ok () ↔ labels.Nodup ∧ ∀ label ∈ labels, label ∉ seen := by
  induction labels generalizing seen with
  | nil => simp [checkLabels]
  | cons label rest ih =>
    rw [checkLabels]
    split
    · rename_i h
      have hseen : label ∈ seen := List.contains_iff_mem.1 h
      simp [hseen]
    · rename_i h
      have hseen : label ∉ seen := fun hmem => h (List.contains_iff_mem.2 hmem)
      rw [ih, List.nodup_cons, List.forall_mem_cons]
      constructor
      · rintro ⟨hnodup, hrest⟩
        refine ⟨⟨fun hmem => ?_, hnodup⟩, hseen, fun x hx hxs => ?_⟩
        · exact hrest label hmem List.mem_cons_self
        · exact hrest x hx (List.mem_cons_of_mem _ hxs)
      · rintro ⟨⟨hfresh, hnodup⟩, -, hrest⟩
        refine ⟨hnodup, fun x hx hxs => ?_⟩
        rcases List.mem_cons.1 hxs with rfl | hxs
        · exact hfresh hx
        · exact hrest x hx hxs

theorem checkColumns_eq_ok_iff {table : Table} {columns : List Column} {seen : List String} :
    checkColumns objects table seen columns = .ok () ↔
      (columns.map Column.name).Nodup ∧ (∀ column ∈ columns, column.name ∉ seen) ∧
        ∀ column ∈ columns, ∀ name, column.type.enumName? = some name →
          Known objects ⟨.enum, name⟩ := by
  induction columns generalizing seen with
  | nil => simp [checkColumns]
  | cons column rest ih =>
    have hstep : checkColumns objects table seen (column :: rest) = .ok () ↔
        column.name ∉ seen ∧
          (∀ name, column.type.enumName? = some name → Known objects ⟨.enum, name⟩) ∧
            checkColumns objects table (column.name :: seen) rest = .ok () := by
      rw [checkColumns]
      by_cases hseen : column.name ∈ seen
      · simp [hseen, Outcome.then_eq_ok_iff]
      · cases column.type.enumName? with
        | none => simp [hseen]
        | some name =>
          simp only [List.contains_iff_mem, hseen, if_false, Outcome.then_eq_ok_iff,
            requireObject_eq_ok_iff, not_false_eq_true, true_and, Option.some.injEq, forall_eq']
    rw [hstep, ih, List.map_cons, List.nodup_cons, List.forall_mem_cons, List.forall_mem_cons]
    constructor
    · rintro ⟨hseen, henum, hnodup, hrest, henums⟩
      refine ⟨⟨fun hmem => ?_, hnodup⟩, ⟨hseen, fun c hc hcs => ?_⟩, henum, henums⟩
      · obtain ⟨c, hc, hname⟩ := List.mem_map.1 hmem
        exact hrest c hc (hname ▸ List.mem_cons_self)
      · exact hrest c hc (List.mem_cons_of_mem _ hcs)
    · rintro ⟨⟨hfresh, hnodup⟩, ⟨hseen, hrest⟩, henum, henums⟩
      refine ⟨hseen, henum, hnodup, fun c hc hcs => ?_, henums⟩
      rcases List.mem_cons.1 hcs with hname | hcs
      · exact hfresh (hname ▸ List.mem_map_of_mem hc)
      · exact hrest c hc hcs

theorem table?_eq_some_iff (h : (objects.map SchemaObject.id).Nodup) {name : String}
    {t : Table} : table? objects name = some t ↔ .table t ∈ objects ∧ t.name = name := by
  have hfound : ∀ {t : Table}, table? objects name = some t →
      .table t ∈ objects ∧ t.name = name := by
    intro t heq
    obtain ⟨object, hmem, heq⟩ := List.exists_of_findSome?_eq_some heq
    split at heq
    · split at heq
      · rename_i hname
        cases heq
        exact ⟨hmem, hname⟩
      · cases heq
    · cases heq
  refine ⟨hfound, ?_⟩
  rintro ⟨hmem, rfl⟩
  cases heq : table? objects t.name with
  | none =>
    have hno := List.findSome?_eq_none_iff.1 heq _ hmem
    simp at hno
  | some other =>
    obtain ⟨hother, hname⟩ := hfound heq
    have hid : (SchemaObject.table other).id = (SchemaObject.table t).id := by
      simp only [SchemaObject.id, hname]
    have hsame := List.inj_on_of_nodup_map h hother hmem hid
    rw [SchemaObject.table.inj hsame]

/-- Looking up a table and some of its columns succeeds when they exist. -/
theorem requireTable_bind_eq_ok_iff (h : (objects.map SchemaObject.id).Nodup)
    {source : ObjectId} {name : String} {next : Table → Except SchemaError Unit} :
    (requireTable objects source name >>= next) = .ok () ↔
      ∃ t : Table, .table t ∈ objects ∧ t.name = name ∧ next t = .ok () := by
  have hrequire : ∀ t, requireTable objects source name = .ok t ↔
      .table t ∈ objects ∧ t.name = name := by
    intro t
    rw [← table?_eq_some_iff h, requireTable]
    split
    · rename_i heq
      simp only [heq, Except.ok.injEq, Option.some.injEq]
    · rename_i heq
      simp only [heq, reduceCtorEq]
  rw [Outcome.bind_eq_ok_iff]
  exact exists_congr fun t => by rw [hrequire t, and_assoc]

/-- **The check of an object passes exactly when the object is sound.** -/
theorem check_eq_ok_iff (h : (objects.map SchemaObject.id).Nodup) {object : SchemaObject} :
    check objects object = .ok () ↔ Sound objects object := by
  cases object with
  | extension => simp only [check, Sound]
  | enum type =>
    rw [check, checkLabels_eq_ok_iff, Sound]
    simp only [List.not_mem_nil, not_false_eq_true, implies_true, and_true]
  | function function =>
    rw [check, Outcome.forM_eq_ok_iff, Sound]
    simp only [requireObject_eq_ok_iff]
  | table t =>
    rw [check, Outcome.then_eq_ok_iff, checkColumns_eq_ok_iff, Outcome.forM_eq_ok_iff, Sound]
    simp only [requireColumns_eq_ok_iff, List.not_mem_nil, not_false_eq_true, implies_true,
      true_and, and_assoc]
  | constraint value =>
    rw [check, requireTable_bind_eq_ok_iff h, Sound]
    cases hkey : value.constraint.foreignKey? with
    | none =>
      simp [HasColumns, requireColumns_eq_ok_iff]
    | some key =>
      simp only [Outcome.then_eq_ok_iff, requireColumns_eq_ok_iff, requireTable_bind_eq_ok_iff h,
        HasColumns, Option.some.injEq, forall_eq']
      simp only [← and_assoc, exists_and_right]
  | index index =>
    rw [check, requireTable_bind_eq_ok_iff h, Sound]
    simp only [requireColumns_eq_ok_iff, HasColumns]
  | trigger trigger =>
    rw [check, requireTable_bind_eq_ok_iff h, Sound]
    simp only [requireObject_eq_ok_iff, HasColumns, List.not_mem_nil, false_implies, implies_true,
      and_true]
    simp only [← and_assoc, exists_and_right]

/-! ## Dependencies -/

theorem known_of_mem_calls {id : ObjectId} {expression : String}
    (h : id ∈ calls objects expression) : Known objects id := by
  obtain ⟨name, hname, rfl⟩ := List.mem_map.1 h
  have hcontains := (List.mem_filter.1 hname).2
  rw [List.contains_iff_mem, namesOf, List.mem_map] at hcontains
  obtain ⟨object, hobject, rfl⟩ := hcontains
  obtain ⟨hmem, hkind⟩ := List.mem_filter.1 hobject
  refine ⟨object, hmem, ?_⟩
  rw [← beq_iff_eq.1 hkind, ← SchemaObject.kind_id]

theorem known_of_mem_extensions {id : ObjectId} (h : id ∈ extensions objects) :
    Known objects id := by
  obtain ⟨object, hobject, rfl⟩ := List.mem_map.1 h
  exact ⟨object, (List.mem_filter.1 hobject).1, rfl⟩

/-- **What a sound object depends on exists.** -/
theorem known_of_mem_references {object : SchemaObject} (h : Sound objects object)
    {id : ObjectId} (hid : id ∈ references objects object) : Known objects id := by
  cases object with
  | extension => simp [references] at hid
  | enum => simp [references] at hid
  | function function => exact h id hid
  | table t =>
    rw [references, List.mem_append, List.mem_flatMap, List.mem_flatMap] at hid
    rcases hid with ⟨column, hcolumn, hid⟩ | ⟨constraint, -, hid⟩
    · simp only [columnDependencies, List.mem_append, List.mem_map, Option.mem_toList,
        List.mem_flatMap] at hid
      rcases hid with (⟨name, hname, rfl⟩ | hid) | ⟨expression, -, hid⟩
      · exact h.2.1 column hcolumn name hname
      · split at hid
        · exact known_of_mem_extensions hid
        · cases hid
      · exact known_of_mem_calls hid
    · rw [checkDependencies] at hid
      split at hid
      · exact known_of_mem_calls hid
      · cases hid
  | constraint value =>
    simp only [references, List.mem_cons, List.mem_map, Option.mem_toList] at hid
    rcases hid with rfl | ⟨key, hkey, rfl⟩
    · exact h.1.known
    · exact (h.2 key hkey).known
  | index index =>
    simp only [references, List.mem_cons, List.mem_append, List.mem_flatMap] at hid
    rcases hid with rfl | ⟨expression, -, hid⟩ | hid
    · exact HasColumns.known h
    · exact known_of_mem_calls hid
    · split at hid
      · cases hid
      · exact known_of_mem_extensions hid
  | trigger trigger =>
    simp only [references, List.mem_cons, List.not_mem_nil, or_false] at hid
    rcases hid with rfl | rfl
    · exact h.1.known
    · exact h.2

theorem mem_dependencies_graphOf_iff (h : Order.Ascending SchemaObject.id objects)
    {id other : ObjectId} : other ∈ (graphOf objects).dependencies id ↔
      ∃ object ∈ objects, object.id = id ∧ other ∈ references objects object := by
  rw [SchemaGraph.mem_dependencies_iff, nodes_graphOf h]
  simp only [List.mem_map, exists_exists_and_eq_and, dependencies, Order.mem_setOf_iff]
  rfl

theorem Settled.sound (h : Settled objects) {object : SchemaObject} (hobject : object ∈ objects) :
    Sound objects object :=
  (check_eq_ok_iff h.ascending.nodup_keys).1 (h.check object hobject)

/-- **Every dependency of a registered graph is one of its objects.** -/
theorem closed_of_register {xs : List SchemaObject} {graph : SchemaGraph}
    (h : register xs = .ok graph) {id other : ObjectId} (hother : other ∈ graph.dependencies id) :
    other ∈ graph.ids := by
  obtain ⟨hsettled, hgraph⟩ := settled_of_register h
  rw [hgraph, mem_dependencies_graphOf_iff hsettled.ascending] at hother
  obtain ⟨object, hobject, -, href⟩ := hother
  obtain ⟨target, htarget, rfl⟩ := known_of_mem_references (hsettled.sound hobject) href
  rw [← graph.map_id_objects]
  exact List.mem_map_of_mem htarget

/-! ## What it takes to be registered -/

/-- The parts of a list of objects with resolved types. -/
def resolvedParts (xs : List SchemaObject) : List SchemaObject :=
  resolveEnums (xs.flatMap SchemaObject.parts)

/-- The objects that a list of objects is registered as, in the order of their sources. -/
def namedParts (xs : List SchemaObject) : List SchemaObject :=
  (resolvedParts xs).map SchemaObject.withName

/-- Functions are registered as they are. -/
theorem function_mem_resolvedParts_iff {xs : List SchemaObject} {f : Function} :
    .function f ∈ resolvedParts xs ↔ .function f ∈ xs := by
  constructor
  · intro h
    obtain ⟨part, hpart, heq⟩ := List.mem_map.1 h
    obtain ⟨source, hsource, hpart⟩ := List.mem_flatMap.1 hpart
    have hfunction : part = .function f := by
      cases part <;> cases heq
      rfl
    subst hfunction
    have hsame : source = .function f := by
      cases source with
      | table t => simp [SchemaObject.parts] at hpart
      | _ => exact (List.mem_singleton.1 hpart).symm
    exact hsame ▸ hsource
  · intro h
    exact List.mem_map.2 ⟨.function f, List.mem_flatMap.2 ⟨_, h, List.mem_singleton_self _⟩, rfl⟩

theorem function_mem_namedParts_iff {xs : List SchemaObject} {f : Function} :
    .function f ∈ namedParts xs ↔ .function f ∈ xs := by
  rw [namedParts, List.mem_map, ← @function_mem_resolvedParts_iff xs]
  constructor
  · rintro ⟨part, hpart, heq⟩
    cases part with
    | function g =>
      cases heq
      exact hpart
    | index i =>
      rw [SchemaObject.withName] at heq
      split at heq <;> cases heq
    | _ => cases heq
  · exact fun h => ⟨.function f, h, rfl⟩

theorem Sound.mono {xs ys : List SchemaObject} (h : xs ⊆ ys) {object : SchemaObject}
    (hsound : Sound xs object) : Sound ys object := by
  have hknown : ∀ {id}, Known xs id → Known ys id := by
    rintro id ⟨object, hobject, hid⟩
    exact ⟨object, h hobject, hid⟩
  have hcolumns : ∀ {table columns}, HasColumns xs table columns → HasColumns ys table columns := by
    rintro table columns ⟨t, ht, hname, hall⟩
    exact ⟨t, h ht, hname, hall⟩
  cases object with
  | function f => exact fun id hid => hknown (hsound id hid)
  | table t =>
    exact ⟨hsound.1, fun column hcolumn name hname => hknown (hsound.2.1 column hcolumn name hname),
      hsound.2.2⟩
  | constraint value => exact ⟨hcolumns hsound.1, fun key hkey => hcolumns (hsound.2 key hkey)⟩
  | index index => exact hcolumns hsound
  | trigger trigger => exact ⟨hcolumns hsound.1, hknown hsound.2⟩
  | _ => exact hsound

theorem namesOf_map_withName (objects : List SchemaObject) :
    namesOf (objects.map SchemaObject.withName) .enum = namesOf objects .enum := by
  simp only [namesOf, List.filter_map, List.map_map, Function.comp_def, SchemaObject.kind_withName]
  refine List.map_congr_left fun object hobject => ?_
  rw [SchemaObject.id_withName]
  · rw [beq_iff_eq.1 (List.mem_filter.1 hobject).2]
    decide
  · rw [beq_iff_eq.1 (List.mem_filter.1 hobject).2]
    decide

theorem namedParts_eq (xs : List SchemaObject) :
    namedParts xs = resolveEnums ((xs.flatMap SchemaObject.parts).map SchemaObject.withName) := by
  simp only [namedParts, resolvedParts, resolveEnums, namesOf_map_withName, List.map_map]
  exact List.map_congr_left fun object _ => object.withName_resolveEnums _

theorem map_id_resolveEnums (objects : List SchemaObject) :
    (resolveEnums objects).map SchemaObject.id = objects.map SchemaObject.id := by
  rw [resolveEnums, List.map_map]
  exact List.map_congr_left fun object _ => object.id_resolveEnums _

/-- Types are resolved alike in any order of the objects. -/
theorem resolveEnums_perm {xs ys : List SchemaObject} (h : xs.Perm ys) :
    (resolveEnums xs).Perm (resolveEnums ys) := by
  have henums : (namesOf xs .enum).contains = (namesOf ys .enum).contains := by
    funext name
    rw [Bool.eq_iff_iff, List.contains_iff_mem, List.contains_iff_mem, mem_namesOf_iff,
      mem_namesOf_iff]
    simp only [h.mem_iff]
  rw [resolveEnums, resolveEnums, henums]
  exact h.map _

/-- **A list of objects is registered exactly when its parts have different identities and are
sound.** -/
theorem register_eq_ok_iff_sound {xs : List SchemaObject} {graph : SchemaGraph} :
    register xs = .ok graph ↔ ((namedParts xs).map SchemaObject.id).Nodup ∧
      (∀ object ∈ namedParts xs, Sound (namedParts xs) object) ∧
      graph = graphOf (Order.ofList SchemaObject.id (namedParts xs)) := by
  let named := (xs.flatMap SchemaObject.parts).map SchemaObject.withName
  have hparts : namedParts xs = resolveEnums named := namedParts_eq xs
  rw [register_eq_ok_iff, hparts, map_id_resolveEnums]
  simp only [collect_nil_eq_ok_iff, and_assoc, exists_and_left, exists_eq_left]
  refine and_congr_right fun hnodup => ?_
  have hasc := ascending_resolveEnums (Order.ascending_ofList SchemaObject.id named)
  have hperm := resolveEnums_perm (Order.ofList_perm hnodup)
  have hsorted : Order.ofList SchemaObject.id (resolveEnums named) =
      resolveEnums (Order.ofList SchemaObject.id named) :=
    Order.ofList_eq_of_perm hasc hperm.symm
  rw [hsorted]
  refine and_congr_left fun _ => ⟨fun h object hobject => ?_, fun h object hobject => ?_⟩
  · exact ((check_eq_ok_iff hasc.nodup_keys).1 (h object (hperm.mem_iff.2 hobject))).mono
      hperm.subset
  · exact (check_eq_ok_iff hasc.nodup_keys).2
      ((h object (hperm.mem_iff.1 hobject)).mono hperm.symm.subset)

/-- The objects of a registered graph are the parts of its sources. -/
theorem objects_perm_namedParts {xs : List SchemaObject} {graph : SchemaGraph}
    (h : register xs = .ok graph) : graph.objects.Perm (namedParts xs) := by
  obtain ⟨hnodup, -, rfl⟩ := register_eq_ok_iff_sound.1 h
  rw [objects_graphOf (Order.ascending_ofList _ _)]
  exact Order.ofList_perm hnodup

/-- Objects that are split and have names only get their types resolved. -/
theorem namedParts_of_whole {xs : List SchemaObject}
    (hparts : ∀ object ∈ xs, object.parts = [object])
    (hnames : ∀ object ∈ xs, object.withName = object) : namedParts xs = resolveEnums xs := by
  rw [namedParts_eq, SchemaObject.flatMap_parts hparts, List.map_congr_left hnames, List.map_id']

/-- **Objects in order that are split, named and resolved are registered as they are, exactly when
they are sound.** -/
theorem register_eq_ok_iff_of_whole {xs : List SchemaObject} {graph : SchemaGraph}
    (hasc : Order.Ascending SchemaObject.id xs) (hparts : ∀ object ∈ xs, object.parts = [object])
    (hnames : ∀ object ∈ xs, object.withName = object) (htypes : resolveEnums xs = xs) :
    register xs = .ok graph ↔ (∀ object ∈ xs, Sound xs object) ∧ graph = graphOf xs := by
  rw [register_eq_ok_iff_sound, namedParts_of_whole hparts hnames, htypes,
    Order.ofList_eq_self hasc]
  exact and_iff_right hasc.nodup_keys

/-- Such objects are refused for one that is not sound. -/
theorem exists_of_register_eq_error_of_whole {xs : List SchemaObject} {e : SchemaError}
    (hasc : Order.Ascending SchemaObject.id xs) (hparts : ∀ object ∈ xs, object.parts = [object])
    (hnames : ∀ object ∈ xs, object.withName = object) (htypes : resolveEnums xs = xs)
    (h : register xs = .error e) :
    ∃ object ∈ xs, ¬ Sound xs object ∧ check xs object = .error e := by
  have hcollect :
      collect [] ((xs.flatMap SchemaObject.parts).map SchemaObject.withName) = .ok xs := by
    rw [SchemaObject.flatMap_parts hparts, List.map_congr_left hnames, List.map_id']
    exact collect_nil_eq_ok_iff.2 ⟨hasc.nodup_keys, (Order.ofList_eq_self hasc).symm⟩
  rw [register, hcollect] at h
  rcases Outcome.bind_eq_error_iff.1 h with hnone | ⟨collected, hcollected, hrest⟩
  · cases hnone
  cases hcollected
  rw [htypes] at hrest
  rcases Outcome.bind_eq_error_iff.1 hrest with hcheck | ⟨-, -, hpure⟩
  · obtain ⟨object, hobject, hfails⟩ := Outcome.exists_of_forM_eq_error hcheck
    refine ⟨object, hobject, fun hsound => ?_, hfails⟩
    rw [(check_eq_ok_iff hasc.nodup_keys).2 hsound] at hfails
    cases hfails
  · cases hpure

end SchemaPlan.Registration
