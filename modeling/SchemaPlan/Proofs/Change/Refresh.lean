import Mathlib.Data.List.Nodup
import Mathlib.Logic.Function.Basic
import SchemaPlan.Change.Apply
import SchemaPlan.Change.ConfirmedRename
import SchemaPlan.Proofs.Change.Renaming
import SchemaPlan.Proofs.Graph.NamedParts

/-!
# Refreshing computed names

Names that are out of date are replaced one after the other, each by a rename of its own.  All the
while the parts of a schema stay as they are but for the names of their constraints and indexes, so
that a state is a function that gives these names (`SchemaObject.mapNames`).

* `afterRename_mapNames`: a rename changes this function at one constraint or index.
* `Refreshable` says when the renames of a list of them can not get stuck; `Refreshable.tail`: then
  the rest can not after the first.
* `Refreshable.foldlM_run` and `Refreshable.foldlM_refresh`: all renames, as they are run and as
  they are found.
-/

set_option autoImplicit false

namespace SchemaPlan.Change

variable {part x : SchemaObject} {parts stale : List SchemaObject} {name : SchemaObject → String}

/-! ## Places -/

/-- The constraint or index at a place of a part, with its table. -/
def namedAt (part : SchemaObject) (slot : Option Nat) : Option SchemaObject :=
  match part, slot with
  | .table t, some i => (t.constraints[i]?).map fun c => .constraint ⟨t.name, c⟩
  | .constraint c, none => some (.constraint c)
  | .index i, none => some (.index i)
  | _, _ => none

/-- The constraints and indexes at places of a list of parts. -/
def namedAtPlaces (parts : List SchemaObject) (places : List NamePlace) : List SchemaObject :=
  places.filterMap fun place =>
    (parts[place.position]?).bind fun part => namedAt part place.constraint

/-- The names of a constraint or index. -/
def namesOf (name : SchemaObject → String) (x : SchemaObject) : NamePair :=
  ⟨x.idNamed (name x), x.idNamed x.computedName⟩

theorem namesAt_mapNames (name : SchemaObject → String) (part : SchemaObject)
    (slot : Option Nat) :
    namesAt (part.mapNames name) slot = (namedAt part slot).map (namesOf name) := by
  cases part with
  | table t =>
    cases slot with
    | none => rfl
    | some i =>
      simp only [SchemaObject.mapNames, namesAt, namedAt, List.getElem?_map, Option.map_map]
      rfl
  | _ => cases slot <;> rfl

theorem placesIn_mapNames (name : SchemaObject → String) (part : SchemaObject) :
    placesIn (part.mapNames name) = placesIn part := by
  cases part with
  | table t => simp only [SchemaObject.mapNames, placesIn, List.length_map]
  | _ => rfl

theorem mem_named_of_namedAt {slot : Option Nat} (h : namedAt part slot = some x) :
    x ∈ part.named := by
  cases part with
  | table t =>
    cases slot with
    | none => cases h
    | some i =>
      obtain ⟨c, hc, rfl⟩ := Option.map_eq_some_iff.1 h
      exact List.mem_map_of_mem (List.mem_of_getElem? hc)
  | constraint c =>
    cases slot <;> cases h
    exact List.mem_singleton_self _
  | index i =>
    cases slot <;> cases h
    exact List.mem_singleton_self _
  | _ => cases slot <;> cases h

/-- What the parts have at a place, whatever names they have. -/
theorem bind_namesAt_mapNames (name : SchemaObject → String) (parts : List SchemaObject)
    (place : NamePlace) :
    (((parts.map (SchemaObject.mapNames name))[place.position]?).bind fun object =>
        namesAt object place.constraint) =
      ((parts[place.position]?).bind fun part => namedAt part place.constraint).map
        (namesOf name) := by
  rw [List.getElem?_map]
  cases parts[place.position]? with
  | none => rfl
  | some part => exact namesAt_mapNames name part place.constraint

/-! ## One rename -/

/-- A table holds the identities of the constraints in it. -/
theorem holds_table_within_iff {t : Table} {table new : String} (htable : '.' ∉ table.toList) :
    holds (.table t) (.within .constraint table new) = true ↔
      t.name = table ∧ ∃ c ∈ t.constraints, c.name = new := by
  have hscope : (ObjectId.within .constraint table new).tableScope? = some (table, new) :=
    ObjectId.tableScope?_within rfl htable new
  have hkind : (ObjectId.within .constraint table new).kind = .constraint := rfl
  have hother : ((SchemaObject.table t).id == ObjectId.within .constraint table new) = false :=
    beq_eq_false_iff_ne.2 fun h => nomatch congrArg ObjectId.kind h
  simp only [holds, hother, hkind, hscope, Bool.false_or, Bool.and_eq_true, beq_iff_eq,
    List.any_eq_true]

/-- A part holds an identity that one of its constraints and indexes has. -/
theorem holds_mapNames_iff (hpart : ∀ y ∈ part.named, y.IsNamed) (hx : x.IsNamed) {new : String} :
    holds (part.mapNames name) (x.idNamed new) = true ↔
      ∃ y ∈ part.named, y.idNamed (name y) = x.idNamed new := by
  cases hx with
  | constraint c hc =>
    cases part with
    | table t =>
      rw [SchemaObject.mapNames, SchemaObject.idNamed, holds_table_within_iff hc]
      constructor
      · rintro ⟨htable, named, hnamed, hname⟩
        obtain ⟨k, hk, rfl⟩ := List.mem_map.1 hnamed
        exact ⟨_, List.mem_map_of_mem hk, congrArg₂ (ObjectId.within .constraint) htable hname⟩
      · rintro ⟨y, hy, hid⟩
        have hplain := hpart y hy
        obtain ⟨k, hk, rfl⟩ := List.mem_map.1 hy
        cases hplain with
        | constraint _ hplain =>
          obtain ⟨htable, hname⟩ := ObjectId.within_inj rfl hplain hc hid
          exact ⟨htable, _, List.mem_map_of_mem hk, hname⟩
    | _ =>
      simp [holds, SchemaObject.mapNames, SchemaObject.named, SchemaObject.idNamed,
        SchemaObject.id, ObjectId.within]
  | index i =>
    cases part <;>
      simp [holds, SchemaObject.mapNames, SchemaObject.named, SchemaObject.idNamed,
        SchemaObject.id, ObjectId.within, ObjectId.table]

theorem mapNames_update_of_not_mem {new : String} (h : x ∉ part.named) :
    part.mapNames (Function.update name x new) = part.mapNames name :=
  SchemaObject.mapNames_congr fun _ hy => Function.update_of_ne (ne_of_mem_of_not_mem hy h) new name

/-- The name of one constraint or index in a table changes when the rename of its table's
constraints by name reaches it only. -/
theorem replaceName_eq_update {c k : TableConstraint} (htable : c.table = k.table)
    (hinj : SchemaObject.idNamed (name (.constraint k)) (.constraint k) =
      SchemaObject.idNamed (name (.constraint c)) (.constraint c) →
        SchemaObject.constraint k = .constraint c) (new : String) :
    replaceName (name (.constraint c)) new (name (.constraint k)) =
      Function.update name (.constraint c) new (.constraint k) := by
  rw [replaceName, Function.update_apply]
  refine if_congr ⟨fun hname => hinj ?_, congrArg name⟩ rfl rfl
  rw [SchemaObject.idNamed, SchemaObject.idNamed, hname, htable]

/-- A constraint or index that is a part of its own is renamed when it is the one. -/
theorem id_mapNames_beq (hself : part ∈ part.named)
    (hinj : ∀ y ∈ part.named, y.idNamed (name y) = x.idNamed (name x) → y = x) :
    ((part.mapNames name).id == x.idNamed (name x)) = decide (part = x) := by
  rw [SchemaObject.id_mapNames, Bool.eq_iff_iff, beq_iff_eq, decide_eq_true_eq]
  refine ⟨hinj part hself, ?_⟩
  rintro rfl
  rfl

/-- The rename of a constraint or index changes its name in a part, and no other name. -/
theorem afterRename_mapNames (hx : x.IsNamed)
    (hinj : ∀ y ∈ part.named, y.idNamed (name y) = x.idNamed (name x) → y = x) (new : String) :
    afterRename (x.idNamed (name x)) (x.idNamed new) (name x) new (part.mapNames name) =
      part.mapNames (Function.update name x new) := by
  cases hx with
  | constraint c hc =>
    have hscope : ((SchemaObject.constraint c).idNamed (name (.constraint c))).tableScope? =
        some (c.table, name (.constraint c)) := ObjectId.tableScope?_within rfl hc _
    simp only [afterRename, SchemaObject.kind_idNamed, SchemaObject.kind, hscope, Option.map_some]
    cases part with
    | table t =>
      simp only [SchemaObject.mapNames, afterConstraint, Option.some.injEq]
      split
      · rename_i htable
        simp only [List.map_map]
        congr 2
        refine List.map_congr_left fun k hk => ?_
        rw [Function.comp, replaceName_eq_update htable (hinj _ (List.mem_map_of_mem hk))]
      · rename_i htable
        have hne : SchemaObject.constraint c ∉ (SchemaObject.table t).named := by
          intro hmem
          obtain ⟨k, -, hk⟩ := List.mem_map.1 hmem
          cases hk
          exact htable rfl
        exact (mapNames_update_of_not_mem hne).symm
    | constraint k =>
      rw [id_mapNames_beq (List.mem_singleton_self _) hinj]
      by_cases heq : SchemaObject.constraint k = .constraint c
      · cases heq
        simp [afterConstraint, SchemaObject.mapNames]
      · simp [afterConstraint, SchemaObject.mapNames, heq]
    | _ => rfl
  | index i =>
    simp only [afterRename, SchemaObject.kind_idNamed, SchemaObject.kind]
    cases part with
    | index j =>
      rw [id_mapNames_beq (List.mem_singleton_self _) hinj]
      by_cases heq : SchemaObject.index j = .index i
      · cases heq
        simp [SchemaObject.mapNames]
      · simp [SchemaObject.mapNames, heq]
    | _ => exact (mapNames_update_of_not_mem (by simp [SchemaObject.named])).symm

theorem renamedNames_idNamed (hx : x.IsNamed) (old new : String) :
    renamedNames (x.idNamed old) (x.idNamed new) = .ok (old, new) := by
  cases hx with
  | constraint c hc =>
    have hscope : ∀ name, ((SchemaObject.constraint c).idNamed name).tableScope? =
        some (c.table, name) := ObjectId.tableScope?_within rfl hc
    rw [renamedNames, hscope, hscope]
    exact if_pos rfl
  | index i => rfl

/-- **Names that can be refreshed one after the other.**  The stale ones are those to refresh. -/
structure Refreshable (parts : List SchemaObject) (name : SchemaObject → String)
    (stale : List SchemaObject) : Prop where
  isNamed : ∀ x ∈ parts.flatMap SchemaObject.named, x.IsNamed
  subset : stale ⊆ parts.flatMap SchemaObject.named
  nodup : stale.Nodup
  /-- No two constraints or indexes have one identity. -/
  current : ∀ x ∈ parts.flatMap SchemaObject.named, ∀ y ∈ parts.flatMap SchemaObject.named,
    x.idNamed (name x) = y.idNamed (name y) → x = y
  /-- No new name is in use. -/
  unused : ∀ x ∈ stale, ∀ y ∈ parts.flatMap SchemaObject.named,
    y.idNamed (name y) ≠ x.idNamed x.computedName
  /-- No new name is given twice. -/
  computed : ∀ x ∈ stale, ∀ y ∈ stale,
    x.idNamed x.computedName = y.idNamed y.computedName → x = y

/-- **One rename** gives the first stale name its new form. -/
theorem Refreshable.renameObject_head (h : Refreshable parts name (x :: stale)) :
    renameObject (parts.map (SchemaObject.mapNames name)) (x.idNamed (name x))
        (x.idNamed x.computedName) =
      .ok (parts.map (SchemaObject.mapNames (Function.update name x x.computedName))) := by
  have hmem := h.subset List.mem_cons_self
  have hx := h.isNamed x hmem
  have hpart : ∀ part ∈ parts, ∀ y ∈ part.named, y ∈ parts.flatMap SchemaObject.named :=
    fun part hpart y hy => List.mem_flatMap.2 ⟨part, hpart, hy⟩
  have hholds : ∀ part ∈ parts, ∀ new, holds (part.mapNames name) (x.idNamed new) = true ↔
      ∃ y ∈ part.named, y.idNamed (name y) = x.idNamed new := fun part hp _ =>
    holds_mapNames_iff (fun y hy => h.isNamed y (hpart part hp y hy)) hx
  have hsource : ∃ object ∈ parts.map (SchemaObject.mapNames name),
      holds object (x.idNamed (name x)) = true := by
    obtain ⟨part, hp, hxp⟩ := List.mem_flatMap.1 hmem
    exact ⟨_, List.mem_map_of_mem hp, (hholds part hp _).2 ⟨x, hxp, rfl⟩⟩
  have htarget : ∀ object ∈ parts.map (SchemaObject.mapNames name),
      holds object (x.idNamed x.computedName) = false := by
    intro object hobject
    obtain ⟨part, hp, rfl⟩ := List.mem_map.1 hobject
    refine Bool.eq_false_iff.2 fun hheld => ?_
    obtain ⟨y, hy, heq⟩ := (hholds part hp _).1 hheld
    exact h.unused x List.mem_cons_self y (hpart part hp y hy) heq
  have hkind : (x.idNamed (name x)).kind ≠ .extension := by
    cases hx <;> exact nofun
  refine renameObject_eq_ok_iff.2 ⟨hsource, htarget, hkind, _, _, renamedNames_idNamed hx _ _, ?_⟩
  rw [List.map_map]
  refine List.map_congr_left fun part hp => Eq.symm ?_
  exact afterRename_mapNames hx (fun y hy => h.current y (hpart part hp y hy) x hmem) _

/-- After one rename the other stale names can be refreshed. -/
theorem Refreshable.tail (h : Refreshable parts name (x :: stale)) :
    Refreshable parts (Function.update name x x.computedName) stale := by
  have hnodup := List.nodup_cons.1 h.nodup
  have hne : ∀ y ∈ stale, y ≠ x := fun y hy => ne_of_mem_of_not_mem hy hnodup.1
  have hnew := h.unused x List.mem_cons_self
  refine ⟨h.isNamed, fun y hy => h.subset (List.mem_cons_of_mem x hy), hnodup.2, ?_, ?_, ?_⟩
  · intro y hy z hz heq
    by_cases hyx : y = x
    · by_cases hzx : z = x
      · rw [hyx, hzx]
      · rw [hyx, Function.update_self, Function.update_of_ne hzx] at heq
        exact absurd heq.symm (hnew z hz)
    · rw [Function.update_of_ne hyx] at heq
      by_cases hzx : z = x
      · rw [hzx, Function.update_self] at heq
        exact absurd heq (hnew y hy)
      · rw [Function.update_of_ne hzx] at heq
        exact h.current y hy z hz heq
  · intro y hy z hz heq
    by_cases hzx : z = x
    · rw [hzx, Function.update_self] at heq
      exact hne y hy (h.computed x List.mem_cons_self y (List.mem_cons_of_mem x hy) heq).symm
    · rw [Function.update_of_ne hzx] at heq
      exact h.unused y (List.mem_cons_of_mem x hy) z hz heq
  · exact fun y hy z hz =>
      h.computed y (List.mem_cons_of_mem x hy) z (List.mem_cons_of_mem x hz)

/-! ## All renames -/

/-- The rename of a constraint or index to its computed name. -/
def nameRefresh (name : SchemaObject → String) (x : SchemaObject) : Operation :=
  .rename (x.idNamed (name x)) (x.idNamed x.computedName)

/-- Whether the name of a constraint or index is another than its computed one. -/
def isOutdated (name : SchemaObject → String) (x : SchemaObject) : Bool :=
  name x != x.computedName

/-- The names once the stale ones are refreshed. -/
def refreshedName (name : SchemaObject → String) (stale : List SchemaObject) (x : SchemaObject) :
    String :=
  if x ∈ stale then x.computedName else name x

theorem refreshedName_cons (name : SchemaObject → String) (x : SchemaObject)
    (stale : List SchemaObject) :
    refreshedName name (x :: stale) =
      refreshedName (Function.update name x x.computedName) stale := by
  funext y
  by_cases hyx : y = x
  · simp [refreshedName, hyx]
  · simp [refreshedName, hyx]

theorem map_nameRefresh_update {new : String} (hx : x ∉ stale) :
    stale.map (nameRefresh (Function.update name x new)) = stale.map (nameRefresh name) :=
  List.map_congr_left fun y hy => by
    rw [nameRefresh, Function.update_of_ne (ne_of_mem_of_not_mem hy hx), nameRefresh]

theorem mapNames_refreshedName_nil (name : SchemaObject → String) :
    SchemaObject.mapNames (refreshedName name []) = SchemaObject.mapNames name := by
  have hsame : refreshedName name [] = name := funext fun _ => if_neg List.not_mem_nil
  rw [hsame]

/-- **The renames of stale names run.** -/
theorem Refreshable.foldlM_run (h : Refreshable parts name stale) :
    (stale.map (nameRefresh name)).foldlM run (parts.map (SchemaObject.mapNames name)) =
      .ok (parts.map (SchemaObject.mapNames (refreshedName name stale))) := by
  induction stale generalizing name with
  | nil =>
    rw [mapNames_refreshedName_nil]
    rfl
  | cons x rest ih =>
    have hrest := ih h.tail
    rw [map_nameRefresh_update (List.nodup_cons.1 h.nodup).1] at hrest
    rw [List.map_cons, List.foldlM_cons, refreshedName_cons]
    exact Outcome.bind_eq_ok_iff.2 ⟨_, h.renameObject_head, hrest⟩

section Refresh

variable {declared : SchemaGraph} {place : NamePlace}

/-- Refreshing what is up to date, or was refreshed, changes nothing. -/
theorem refresh_of_not_outdated (operations : List Operation)
    (hplace : (parts[place.position]?).bind (fun part => namedAt part place.constraint) = some x)
    (hcurrent : name x = x.computedName) :
    refresh declared ⟨parts.map (SchemaObject.mapNames name), operations⟩ place =
      .ok ⟨parts.map (SchemaObject.mapNames name), operations⟩ := by
  rw [refresh, bind_namesAt_mapNames, hplace]
  simp [namesOf, hcurrent]

/-- Refreshing an outdated name whose new form is declared is one rename. -/
theorem Refreshable.refresh_head (h : Refreshable parts name (x :: stale))
    (operations : List Operation)
    (hplace : (parts[place.position]?).bind (fun part => namedAt part place.constraint) = some x)
    (hdeclared : declares declared (x.idNamed x.computedName) = true) :
    refresh declared ⟨parts.map (SchemaObject.mapNames name), operations⟩ place =
      .ok ⟨parts.map (SchemaObject.mapNames (Function.update name x x.computedName)),
        operations ++ [nameRefresh name x]⟩ := by
  have houtdated : x.idNamed (name x) ≠ x.idNamed x.computedName :=
    h.unused x List.mem_cons_self x (h.subset List.mem_cons_self)
  rw [refresh, bind_namesAt_mapNames, hplace]
  simp [namesOf, houtdated, hdeclared, h.renameObject_head, nameRefresh, bind, Except.bind, pure,
    Except.pure]

/-- With one name refreshed, the outdated names at other places are the same. -/
theorem filter_isOutdated_update {found : List SchemaObject} (new : String)
    (hx : x ∉ found.filter (isOutdated name)) (houtdated : isOutdated name x = true) :
    found.filter (isOutdated (Function.update name x new)) = found.filter (isOutdated name) := by
  refine List.filter_congr fun y hy => ?_
  have hne : y ≠ x := fun heq => hx (List.mem_filter.2 ⟨heq ▸ hy, houtdated⟩)
  rw [isOutdated, Function.update_of_ne hne, isOutdated]

/-- **All outdated names are found and refreshed**, and the operations are their renames. -/
theorem Refreshable.foldlM_refresh {places : List NamePlace} (operations : List Operation)
    (h : Refreshable parts name ((namedAtPlaces parts places).filter (isOutdated name)))
    (hdeclared : ∀ x ∈ (namedAtPlaces parts places).filter (isOutdated name),
      declares declared (x.idNamed x.computedName) = true) :
    places.foldlM (refresh declared) ⟨parts.map (SchemaObject.mapNames name), operations⟩ =
      .ok ⟨parts.map (SchemaObject.mapNames
          (refreshedName name ((namedAtPlaces parts places).filter (isOutdated name)))),
        operations ++
          ((namedAtPlaces parts places).filter (isOutdated name)).map (nameRefresh name)⟩ := by
  induction places generalizing name operations with
  | nil =>
    rw [namedAtPlaces, List.filterMap_nil, List.filter_nil, mapNames_refreshedName_nil,
      List.map_nil, List.append_nil]
    rfl
  | cons place rest ih =>
    rw [List.foldlM_cons]
    cases hplace : (parts[place.position]?).bind fun part => namedAt part place.constraint with
    | none =>
      have hfound : namedAtPlaces parts (place :: rest) = namedAtPlaces parts rest :=
        List.filterMap_cons_none hplace
      rw [hfound] at h hdeclared ⊢
      refine Outcome.bind_eq_ok_iff.2 ⟨_, ?_, ih operations h hdeclared⟩
      rw [refresh, bind_namesAt_mapNames, hplace]
      rfl
    | some x =>
      have hfound : namedAtPlaces parts (place :: rest) = x :: namedAtPlaces parts rest :=
        List.filterMap_cons_some hplace
      rw [hfound] at h hdeclared ⊢
      by_cases hx : isOutdated name x = true
      · rw [List.filter_cons_of_pos hx] at h hdeclared ⊢
        have hnew := (List.nodup_cons.1 h.nodup).1
        obtain ⟨hhead, hdeclared⟩ := List.forall_mem_cons.1 hdeclared
        have htail := h.tail
        have hsame := filter_isOutdated_update x.computedName hnew hx
        rw [← hsame] at htail hdeclared
        have hrest := ih (operations ++ [nameRefresh name x]) htail hdeclared
        rw [hsame, map_nameRefresh_update hnew, ← refreshedName_cons, List.append_assoc] at hrest
        exact Outcome.bind_eq_ok_iff.2 ⟨_, h.refresh_head operations hplace hhead, hrest⟩
      · rw [List.filter_cons_of_neg hx] at h hdeclared ⊢
        have hcurrent : name x = x.computedName := by simpa [isOutdated] using hx
        exact Outcome.bind_eq_ok_iff.2 ⟨_, refresh_of_not_outdated operations hplace hcurrent,
          ih operations h hdeclared⟩

end Refresh

end SchemaPlan.Change
