import SchemaPlan.Proofs.Catalog.Assembly
import SchemaPlan.Proofs.Change.Alteration
import SchemaPlan.Proofs.Change.OrderSafety
import SchemaPlan.Proofs.Graph.References

/-!
# Standing for a declared object

After a change set has run, each declared object is there as it was declared or as it was live,
with the changes that its comparison asked for.

* `Realizes` says when an object stands for a declared one.
* `settled_of_realized`: objects that stand for all declared ones are registered as they are.
* `exists_alteration`: altering a live object makes it stand for the declared one.
-/

set_option autoImplicit false

namespace SchemaPlan

/-- An object that stands for a declared one and is registered as it is. -/
structure SchemaObject.Realizes (object declared : SchemaObject) : Prop where
  agrees : declared.Agrees object
  id : object.id = declared.id
  parts : object.parts = [object]
  withName : object.withName = object
  columns : ∀ t, object = .table t → (t.columns.map Column.name).Nodup
  /-- A function asks for the declared dependencies or for none. -/
  dependsOn : ∀ f, object = .function f → f.dependsOn = [] ∨ object = declared
  /-- An index is over the declared columns or over none. -/
  keys : ∀ i, object = .index i → i.columns = [] ∨ ∃ d, declared = .index d ∧ i.columns = d.columns

namespace Registration

variable {options : DiffOptions} {declared objects : List SchemaObject}

/-- Objects that stand for all declared ones; beside them there may be extensions. -/
structure Realized (options : DiffOptions) (declared objects : List SchemaObject) : Prop where
  each : ∀ object ∈ objects, (∃ e, object = .extension e) ∨
    ∃ d ∈ declared, options.ignoresId d.id = false ∧ object.Realizes d
  all : ∀ d ∈ declared, options.ignoresId d.id = false → ∃ object ∈ objects, object.Realizes d

theorem Realized.known (h : Realized options declared objects) {id : ObjectId}
    (hid : Known declared id) (hkept : options.ignoresId id = false) : Known objects id := by
  obtain ⟨d, hd, rfl⟩ := hid
  obtain ⟨object, hobject, hrealizes⟩ := h.all d hd hkept
  exact ⟨object, hobject, hrealizes.id⟩

/-- A declared column of a table that agrees is found in it by its name. -/
theorem column?_isSome_of_agrees {d t : Table} (h : d.Agrees t) {name : String}
    (hname : (d.column? name).isSome = true) : (t.column? name).isSome = true := by
  obtain ⟨column, hcolumn⟩ := Option.isSome_iff_exists.1 hname
  obtain ⟨existing, hexisting, -⟩ := h.columns column (List.mem_of_find?_eq_some hcolumn)
  have hcolumnName : column.name = name := by simpa using List.find?_some hcolumn
  rw [← hcolumnName, hexisting]
  rfl

/-- Every column of a table that agrees has a declared one. -/
theorem exists_declared_column {d t : Table} (h : d.Agrees t)
    (hnodup : (t.columns.map Column.name).Nodup) {column : Column} (hcolumn : column ∈ t.columns) :
    ∃ c ∈ d.columns, c.Agrees column := by
  obtain ⟨c, hc⟩ := Option.isSome_iff_exists.1 (h.noOthers column hcolumn)
  have hname : c.name = column.name := by simpa using List.find?_some hc
  obtain ⟨existing, hexisting, hagrees⟩ := h.columns c (List.mem_of_find?_eq_some hc)
  rw [hname, (Table.column?_eq_some_iff hnodup).2 ⟨hcolumn, rfl⟩] at hexisting
  cases hexisting
  exact ⟨c, List.mem_of_find?_eq_some hc, hagrees⟩

theorem columns_canonical (c : Constraint) : c.canonical.kind.columns = c.kind.columns := by
  rw [Constraint.canonical]
  cases c.kind <;> rfl

theorem Realized.hasColumns (h : Realized options declared objects) {table : String}
    {columns : List String} (hcolumns : HasColumns declared table columns) :
    HasColumns objects table columns := by
  obtain ⟨d, hd, rfl, hall⟩ := hcolumns
  obtain ⟨object, hobject, hrealizes⟩ := h.all _ hd (DiffOptions.not_ignoresId_of_kind nofun)
  cases object with
  | table t =>
    refine ⟨t, hobject, congrArg ObjectId.name hrealizes.id, fun name hname => ?_⟩
    exact column?_isSome_of_agrees hrealizes.agrees (hall name hname)
  | _ => cases congrArg ObjectId.kind hrealizes.id

/-- Both sides have the same enum types. -/
theorem Realized.namesOf_enum (h : Realized options declared objects) :
    (namesOf objects .enum).contains = (namesOf declared .enum).contains := by
  funext name
  rw [Bool.eq_iff_iff, List.contains_iff_mem, List.contains_iff_mem, mem_namesOf_iff,
    mem_namesOf_iff]
  constructor
  · rintro ⟨object, hobject, hkind, rfl⟩
    rcases h.each object hobject with ⟨e, rfl⟩ | ⟨d, hd, -, hrealizes⟩
    · cases hkind
    · refine ⟨d, hd, ?_, by rw [hrealizes.id]⟩
      rw [← SchemaObject.kind_id, ← hrealizes.id, SchemaObject.kind_id, hkind]
  · rintro ⟨d, hd, hkind, rfl⟩
    have hkept : options.ignoresId d.id = false := by
      refine DiffOptions.not_ignoresId_of_kind ?_
      rw [SchemaObject.kind_id, hkind]
      nofun
    obtain ⟨object, hobject, hrealizes⟩ := h.all d hd hkept
    refine ⟨object, hobject, ?_, by rw [hrealizes.id]⟩
    rw [← SchemaObject.kind_id, hrealizes.id, SchemaObject.kind_id, hkind]

/-- The column types of an object that stands for a declared one are resolved. -/
theorem Realized.resolveEnums (h : Realized options declared objects) (hdeclared : Settled declared)
    {object : SchemaObject} (hobject : object ∈ objects) :
    object.resolveEnums (namesOf objects .enum).contains = object := by
  rw [h.namesOf_enum]
  cases object with
  | table t =>
    rcases h.each _ hobject with ⟨e, heq⟩ | ⟨d, hd, -, hrealizes⟩
    · cases heq
    · cases d with
      | table d =>
        have hresolved : d.columns.map (fun column =>
            { column with type := column.type.resolveEnums (namesOf declared .enum).contains }) =
              d.columns :=
          congrArg Table.columns (SchemaObject.table.inj (hdeclared.resolveEnums _ hd))
        have hcolumns : t.columns.map (fun column =>
            { column with type := column.type.resolveEnums (namesOf declared .enum).contains }) =
              t.columns := by
          refine (List.map_congr_left fun column hcolumn => ?_).trans (List.map_id' t.columns)
          obtain ⟨c, hc, hagrees⟩ :=
            exists_declared_column hrealizes.agrees (hrealizes.columns t rfl) hcolumn
          have hsame := List.map_inj_left.1 (hresolved.trans (List.map_id' _).symm) c hc
          have htype := congrArg Column.type hsame
          simp only [hagrees.type] at htype
          rw [htype]
        rw [SchemaObject.resolveEnums, hcolumns]
      | _ => cases congrArg ObjectId.kind hrealizes.id
  | _ => rfl

/-- A table that stands for a sound one has no other types and columns to refer to. -/
theorem Realized.sound_table (h : Realized options declared objects) {d t : Table}
    (hsound : Sound declared (.table d)) (hrealizes : (SchemaObject.table t).Realizes (.table d)) :
    Sound objects (.table t) := by
  have hagrees : d.Agrees t := hrealizes.agrees
  have hnodup := hrealizes.columns t rfl
  refine ⟨hnodup, fun column hcolumn name hname => ?_, fun c hc name hname => ?_⟩
  · obtain ⟨c, hc, hcolumns⟩ := exists_declared_column hagrees hnodup hcolumn
    rw [← hcolumns.type] at hname
    exact h.known (hsound.2.1 c hc name hname) (DiffOptions.not_ignoresId_of_kind nofun)
  · obtain ⟨existing, hexisting, hcanonical⟩ := hagrees.noOtherConstraints c hc
    rw [← columns_canonical, ← hcanonical, columns_canonical] at hname
    exact column?_isSome_of_agrees hagrees (hsound.2.2 existing hexisting name hname)

/-- An index that stands for a sound one is over its columns or over none. -/
theorem Realized.sound_index (h : Realized options declared objects) {d i : Index}
    (hsound : Sound declared (.index d)) (hrealizes : (SchemaObject.index i).Realizes (.index d)) :
    Sound objects (.index i) := by
  have hcanonical : d.canonical = i.canonical := SchemaObject.index.inj hrealizes.agrees
  have htable : d.canonical.table = i.canonical.table := congrArg Index.table hcanonical
  change d.table = i.table at htable
  have hcolumns := h.hasColumns hsound
  rw [htable] at hcolumns
  rcases hrealizes.keys i rfl with hnil | ⟨d', heq, hsame⟩
  · obtain ⟨t, ht, hname, -⟩ := hcolumns
    rw [Sound, hnil]
    exact ⟨t, ht, hname, fun _ hname => absurd hname List.not_mem_nil⟩
  · cases heq
    rw [Sound, hsame]
    exact hcolumns

/-- **What stands for a declared object is sound.** -/
theorem Realized.sound (h : Realized options declared objects) (hdeclared : Settled declared)
    (hdepends : ∀ f, .function f ∈ declared → ∀ id ∈ f.dependsOn, options.ignoresId id = false)
    {object : SchemaObject} (hobject : object ∈ objects) : Sound objects object := by
  rcases h.each object hobject with ⟨e, rfl⟩ | ⟨d, hd, -, hrealizes⟩
  · exact trivial
  have hsound := hdeclared.sound hd
  have hkind := congrArg ObjectId.kind hrealizes.id
  cases object with
  | extension => exact trivial
  | enum type =>
    cases d with
    | enum d =>
      obtain rfl : d = type := hrealizes.agrees
      exact hsound
    | _ => cases hkind
  | function function =>
    rcases hrealizes.dependsOn function rfl with hnil | heq
    · rw [Sound, hnil]
      exact fun _ hid => absurd hid List.not_mem_nil
    · rw [← heq] at hd hsound
      exact fun id hid => h.known (hsound id hid) (hdepends function hd id hid)
  | table t =>
    cases d with
    | table d => exact h.sound_table hsound hrealizes
    | _ => cases hkind
  | constraint value =>
    cases d with
    | constraint d =>
      have hcanonical := SchemaObject.constraint.inj hrealizes.agrees
      subst hcanonical
      exact ⟨h.hasColumns hsound.1, fun key hkey => h.hasColumns (hsound.2 key hkey)⟩
    | _ => cases hkind
  | index i =>
    cases d with
    | index d => exact h.sound_index hsound hrealizes
    | _ => cases hkind
  | trigger trigger =>
    cases d with
    | trigger d =>
      have hcanonical : d.canonical = trigger.canonical :=
        SchemaObject.trigger.inj hrealizes.agrees
      have htable : d.canonical.table = trigger.canonical.table :=
        congrArg Trigger.table hcanonical
      have hfunction : d.canonical.function = trigger.canonical.function :=
        congrArg Trigger.function hcanonical
      change d.table = trigger.table at htable
      change d.function = trigger.function at hfunction
      rw [Sound, ← htable, ← hfunction]
      exact ⟨h.hasColumns hsound.1,
        h.known hsound.2 (DiffOptions.not_ignoresId_of_kind fun hkind => by cases hkind)⟩
    | _ => cases hkind

/-- **Objects that stand for all declared ones are registered as they are.** -/
theorem settled_of_realized (h : Realized options declared objects) (hdeclared : Settled declared)
    (hdepends : ∀ f, .function f ∈ declared → ∀ id ∈ f.dependsOn, options.ignoresId id = false)
    (hascending : Order.Ascending SchemaObject.id objects) : Settled objects where
  ascending := hascending
  parts object hobject := by
    rcases h.each object hobject with ⟨e, rfl⟩ | ⟨d, -, -, hrealizes⟩
    · rfl
    · exact hrealizes.parts
  withName object hobject := by
    rcases h.each object hobject with ⟨e, rfl⟩ | ⟨d, -, -, hrealizes⟩
    · rfl
    · exact hrealizes.withName
  resolveEnums _ hobject := h.resolveEnums hdeclared hobject
  check _ hobject :=
    (check_eq_ok_iff hascending.nodup_keys).2 (h.sound hdeclared hdepends hobject)

end Registration

/-! ## Bringing a live object to a declared one -/

/-- What registration says of a declared object; the expression of an index is no list of
columns. -/
structure SchemaObject.WellDeclared (declared : SchemaObject) : Prop where
  parts : declared.parts = [declared]
  withName : declared.withName = declared
  labels : ∀ e, declared = .enum e → e.labels.Nodup
  columns : ∀ t, declared = .table t → (t.columns.map Column.name).Nodup
  keys : ∀ i, declared = .index i → ∀ e, i.expression = some e →
    (IndexKeys.read (Expression.canonical e)).2 ≠ none

/-- What a catalog says of a live object; the constraints of a table have different names. -/
structure SchemaObject.WellReported (live : SchemaObject) : Prop where
  parts : live.parts = [live]
  withName : live.withName = live
  columns : ∀ t, live = .table t → (t.columns.map Column.name).Nodup
  constraints : ∀ t, live = .table t → (t.constraints.map Constraint.name).Nodup
  reported : Catalog.Reported live

theorem SchemaObject.WellDeclared.realizes_self {declared : SchemaObject}
    (h : declared.WellDeclared) : declared.Realizes declared where
  agrees := agrees_of_canonical_eq h.columns rfl
  id := rfl
  parts := h.parts
  withName := h.withName
  columns := h.columns
  dependsOn _ _ := .inr rfl
  keys i hi := .inr ⟨i, hi, rfl⟩

/-- An index over columns that has the canonical form of a declared one is over its columns. -/
theorem columns_of_index_canonical_eq {declared live : Index}
    (hkeys : ∀ e, declared.expression = some e → (IndexKeys.read (Expression.canonical e)).2 ≠ none)
    (hlive : live.expression = none) (h : declared.canonical = live.canonical) :
    live.columns = declared.columns := by
  have hexpression : declared.canonical.expression = live.canonical.expression :=
    congrArg Index.expression h
  have hcolumns : declared.canonical.columns = live.canonical.columns :=
    congrArg Index.columns h
  simp only [Index.canonical, hlive] at hexpression hcolumns
  cases hdeclared : declared.expression with
  | none =>
    rw [hdeclared] at hcolumns
    exact hcolumns.symm
  | some e =>
    rw [hdeclared] at hexpression
    exact absurd hexpression (hkeys e hdeclared)

/-- A live object that may stay stands for the declared one. -/
theorem SchemaObject.WellReported.realizes {declared live : SchemaObject}
    (h : live.WellReported) (hdeclared : declared.WellDeclared) (hid : live.id = declared.id)
    (hagrees : declared.Agrees live) : live.Realizes declared where
  agrees := hagrees
  id := hid
  parts := h.parts
  withName := h.withName
  columns := h.columns
  dependsOn f hf := by
    have hreported := h.reported
    rw [hf] at hreported
    exact .inl hreported
  keys i hi := by
    subst hi
    rcases (h.reported : Catalog.HasOneKeyList i) with hnone | hnil
    · cases declared with
      | index d =>
        have hcanonical : d.canonical = i.canonical := SchemaObject.index.inj hagrees
        exact .inr ⟨d, rfl, columns_of_index_canonical_eq (hdeclared.keys d rfl) hnone hcanonical⟩
      | _ => cases congrArg ObjectId.kind hid
    · exact .inl hnil

/-- The constraints of a table have the names under which they are registered. -/
theorem table_withName_iff {t : Table} : (SchemaObject.table t).withName = .table t ↔
    ∀ c ∈ t.constraints, c.withName t.name = c := by
  rw [SchemaObject.withName, SchemaObject.table.injEq]
  constructor
  · intro h c hc
    have hmap : t.constraints.map (fun c => c.withName t.name) = t.constraints :=
      congrArg Table.constraints h
    exact List.map_inj_left.1 (hmap.trans (List.map_id' _).symm) c hc
  · intro h
    rw [List.map_congr_left h, List.map_id']

/-- A live table on its way to a declared one stands for it when it has arrived. -/
theorem realizes_of_reaches {declared live result : Table}
    (hdeclared : (SchemaObject.table declared).WellDeclared)
    (hlive : (SchemaObject.table live).WellReported) (hname : live.name = declared.name)
    (h : Change.Reaches declared live result) :
    (SchemaObject.table result).Realizes (.table declared) := by
  obtain ⟨hinline, -, -⟩ := SchemaObject.table_parts_iff.1 hdeclared.parts
  obtain ⟨hliveInline, hindexes, htriggers⟩ := SchemaObject.table_parts_iff.1 hlive.parts
  have hresult : result.name = declared.name := h.name.trans hname
  constructor
  case agrees => exact h.agrees
  case id => exact congrArg ObjectId.table hresult
  case parts =>
    rw [SchemaObject.table_parts_iff, h.indexes, h.triggers]
    refine ⟨fun c hc => ?_, hindexes, htriggers⟩
    rcases h.constraints c hc with hc | hc
    · exact hliveInline c hc
    · exact hinline c hc
  case withName =>
    rw [table_withName_iff]
    intro c hc
    rcases h.constraints c hc with hc | hc
    · rw [h.name]
      exact table_withName_iff.1 hlive.withName c hc
    · rw [hresult]
      exact table_withName_iff.1 hdeclared.withName c hc
  case columns =>
    intro t ht
    cases ht
    exact h.nodup
  case dependsOn =>
    intro f hf
    cases hf
  case keys =>
    intro i hi
    cases hi

namespace Change

theorem inPlace_of_setsColumn {change : AlterChange} (h : change.setsColumn = true)
    (id : ObjectId) : change.InPlace id := by
  cases change <;> first | exact trivial | cases h

theorem inPlace_of_compareTables {options : DiffOptions} {declared live : Table}
    {changes : TableChanges} (h : compareTables options declared live = .ok changes)
    (hdeclared : ∀ c ∈ declared.constraints, c.kind.isForeignKey = false)
    (hlive : ∀ c ∈ live.constraints, c.kind.isForeignKey = false) (id : ObjectId) :
    ∀ change ∈ changes.removals ++ changes.additions, change.InPlace id := by
  obtain ⟨hremovals, hadditions⟩ := mem_of_compareTables h
  intro change hchange
  rcases List.mem_append.1 hchange with hchange | hchange
  · rcases hremovals change hchange with ⟨c, hc, rfl⟩ | ⟨column, rfl⟩
    · exact hlive c hc
    · exact trivial
  · rcases hadditions change hchange with hsets | ⟨c, hc, rfl⟩ | rfl
    · exact inPlace_of_setsColumn hsets id
    · exact hdeclared c hc
    · exact trivial

/-- What two lists of changes make of a live object, one after the other. -/
structure Alteration (declared live : SchemaObject) (removals additions : List AlterChange)
    (result : SchemaObject) : Prop where
  runs : ∃ between, alterAll? removals live = some between ∧
    alterAll? additions between = some result
  inPlace : ∀ change ∈ removals ++ additions, change.InPlace declared.id
  realizes : result.Realizes declared

theorem alteration_nil {declared live : SchemaObject} (h : live.Realizes declared) :
    Alteration declared live [] [] live where
  runs := ⟨live, rfl, rfl⟩
  inPlace _ hchange := absurd hchange List.not_mem_nil
  realizes := h

theorem exists_alteration_function {declared live : Function}
    (hdeclared : (SchemaObject.function declared).WellDeclared)
    (hlive : (SchemaObject.function live).WellReported)
    (hid : (SchemaObject.function live).id = (SchemaObject.function declared).id)
    {removals additions : List AlterChange}
    (halters : Verdict.Alters ⟨compareFunctions declared live, false, []⟩ removals additions) :
    ∃ result, Alteration (.function declared) (.function live) removals additions result := by
  rw [compareFunctions] at halters
  split at halters
  · rcases halters with halters | ⟨halters, -, -⟩ <;> cases halters
  · split at halters
    · rename_i hcanonical
      rcases halters with halters | ⟨-, rfl, rfl⟩
      · cases halters
      · exact ⟨_, alteration_nil
          (hlive.realizes hdeclared hid (congrArg SchemaObject.function hcanonical))⟩
    · rcases halters with halters | ⟨halters, -, -⟩
      · cases halters
        refine ⟨.function declared, ⟨.function live, rfl, rfl⟩, fun change hmem => ?_,
          hdeclared.realizes_self⟩
        rw [List.nil_append, List.mem_singleton] at hmem
        subst hmem
        exact rfl
      · cases halters

theorem exists_alteration_table {options : DiffOptions} {declared live : Table}
    {changes : TableChanges} (hdeclared : (SchemaObject.table declared).WellDeclared)
    (hlive : (SchemaObject.table live).WellReported) (hname : live.name = declared.name)
    (h : compareTables options declared live = .ok changes) :
    ∃ result, Alteration (.table declared) (.table live) changes.removals changes.additions
      result := by
  obtain ⟨between, result, hremovals, hadditions, hreaches⟩ := alterTables_of_compareTables
    (hdeclared.columns declared rfl) (hlive.columns live rfl) (hlive.constraints live rfl) h
  refine ⟨.table result, ⟨.table between, ?_, ?_⟩, ?_,
    realizes_of_reaches hdeclared hlive hname hreaches⟩
  · rw [alterAll?_table, hremovals]
    rfl
  · rw [alterAll?_table, hadditions]
    rfl
  · exact inPlace_of_compareTables h (SchemaObject.table_parts_iff.1 hdeclared.parts).1
      (SchemaObject.table_parts_iff.1 hlive.parts).1 _

/-- **Altering a live object as its comparison says makes it stand for the declared one.** -/
theorem exists_alteration {options : DiffOptions} {declared live : SchemaObject}
    {verdict : Verdict} (hdeclared : declared.WellDeclared) (hlive : live.WellReported)
    (hid : live.id = declared.id) (h : compareObjects options declared live = .ok verdict)
    {removals additions : List AlterChange} (halters : verdict.Alters removals additions) :
    ∃ result, Alteration declared live removals additions result := by
  rcases compareObjects_cases h with ⟨e, rfl, rfl⟩ | ⟨d, l, change, rfl, rfl, hcompare, rfl⟩ |
    ⟨d, l, rfl, rfl, rfl⟩ | ⟨d, l, changes, rfl, rfl, hcompare, rfl⟩ | rfl
  · -- Extensions stay.
    rcases halters with halters | ⟨-, rfl, rfl⟩
    · cases halters
    · cases live with
      | extension l =>
        have hname : l.name = e.name := congrArg ObjectId.name hid
        refine ⟨_, alteration_nil (hlive.realizes hdeclared hid ?_)⟩
        cases e
        cases l
        cases hname
        exact rfl
      | _ => cases congrArg ObjectId.kind hid
  · -- Enum types get all declared labels.
    have hname : l.name = d.name := congrArg ObjectId.name hid
    obtain ⟨hchange, hall⟩ := alterAll?_of_compareEnums hname (hdeclared.labels d rfl) hcompare
    obtain ⟨rfl, rfl⟩ := changes_of_alters hchange halters
    refine ⟨.enum d, ⟨.enum l, rfl, hall⟩, fun change hmem => ?_, hdeclared.realizes_self⟩
    obtain ⟨label, place, rfl⟩ := mem_newLabels hmem
    exact trivial
  · exact exists_alteration_function hdeclared hlive hid halters
  · have hname : l.name = d.name := congrArg ObjectId.name hid
    obtain ⟨rfl, rfl⟩ := changes_of_alters rfl halters
    exact exists_alteration_table hdeclared hlive hname hcompare
  · -- All other objects stay or are created again.
    rcases halters with halters | ⟨halters, rfl, rfl⟩
    · simp only at halters
      split at halters <;> cases halters
    · simp only at halters
      split at halters
      · rename_i hequivalent
        exact ⟨_, alteration_nil (hlive.realizes hdeclared hid
          (SchemaObject.agrees_of_canonical_eq hdeclared.columns (beq_iff_eq.1 hequivalent)))⟩
      · cases halters

end Change

end SchemaPlan
