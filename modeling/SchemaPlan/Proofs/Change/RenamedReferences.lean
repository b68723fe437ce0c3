import SchemaPlan.Proofs.Change.NameChange

/-!
# References after a rename

A rename gives an object another name wherever objects name it, with one exception: what functions
list as dependencies follows the rename of a function only.

* `mentions_rename`: what an object mentions is replaced.
* `renameObject_follows`: what a rename leaves is registered exactly when no identities collide and
  functions list nothing that changes its identity; then every reference is to the new name.
* `listed_table_not_followed`: a table that a function lists loses the function.
-/

set_option autoImplicit false

namespace SchemaPlan

/-- What an object refers to by name, outside of expressions. -/
def SchemaObject.mentions : SchemaObject → List ObjectId
  | extension _ | enum _ => []
  | function f => f.dependsOn
  | table t => t.columns.filterMap fun column => column.type.enumName?.map (ObjectId.mk .enum)
  | constraint c =>
    .table c.table ::
      c.constraint.foreignKey?.toList.map fun key => ObjectId.table key.referencesTable
  | index i => [.table i.table]
  | trigger r => [.table r.table, ⟨.function, r.function⟩]

namespace Change

variable {object subject : SchemaObject} {new : String}

/-! ## Mentions -/

open Registration (Sound Known)

/-- What a sound object mentions exists. -/
theorem known_of_mem_mentions {objects : List SchemaObject} (h : Sound objects object)
    {id : ObjectId} (hid : id ∈ object.mentions) : Known objects id := by
  cases object with
  | extension e => cases hid
  | enum e => cases hid
  | function f => exact h id hid
  | table t =>
    obtain ⟨column, hcolumn, hmention⟩ := List.mem_filterMap.1 hid
    obtain ⟨name, hname, rfl⟩ := Option.map_eq_some_iff.1 hmention
    exact h.2.1 column hcolumn name hname
  | constraint c =>
    rcases List.mem_cons.1 hid with rfl | hid
    · exact h.1.known
    · obtain ⟨key, hkey, rfl⟩ := List.mem_map.1 hid
      exact (h.2 key (Option.mem_toList.1 hkey)).known
  | index i =>
    obtain rfl := List.mem_singleton.1 hid
    exact Registration.HasColumns.known h
  | trigger r =>
    rcases List.mem_pair.1 hid with rfl | rfl
    · exact h.1.known
    · exact h.2

/-- An identity that is mentioned in words of names changes as the name does. -/
theorem replace_naming :
    (∀ name, (⟨.enum, (subject.naming new).enum name⟩ : ObjectId) =
      ObjectId.replace ⟨.enum, name⟩ subject.id (subject.idWith new)) ∧
    (∀ name, (⟨.function, (subject.naming new).function name⟩ : ObjectId) =
      ObjectId.replace ⟨.function, name⟩ subject.id (subject.idWith new)) ∧
    ∀ name, ObjectId.table ((subject.naming new).table name) =
      (ObjectId.table name).replace subject.id (subject.idWith new) := by
  have hreplace : ∀ {kind : ObjectKind} {old name : String},
      (⟨kind, replaceName old new name⟩ : ObjectId) =
        ObjectId.replace ⟨kind, name⟩ ⟨kind, old⟩ ⟨kind, new⟩ := by
    intro kind old name
    by_cases h : name = old
    · simp [replaceName, ObjectId.replace, h]
    · simp [replaceName, ObjectId.replace, h]
  have hother : ∀ {kind : ObjectKind} {name : String} {source target : ObjectId},
      kind ≠ source.kind →
        (⟨kind, name⟩ : ObjectId) = ObjectId.replace ⟨kind, name⟩ source target :=
    fun hne => (if_neg fun h => hne (congrArg ObjectId.kind h)).symm
  refine ⟨fun name => ?_, fun name => ?_, fun name => ?_⟩
  · cases subject with
    | enum e => exact hreplace
    | _ => exact hother (by rintro ⟨⟩)
  · cases subject with
    | function f => exact hreplace
    | _ => exact hother (by rintro ⟨⟩)
  · cases subject with
    | table t => exact hreplace
    | _ => exact hother (by rintro ⟨⟩)

/-- **What an object mentions is replaced by a rename.** -/
theorem mentions_rename
    (hlisted : ∀ f, object = .function f → f.dependsOn.map (subject.naming new).listed =
      f.dependsOn.map fun id => id.replace subject.id (subject.idWith new)) :
    (object.rename (subject.naming new)).mentions =
      object.mentions.map fun id => id.replace subject.id (subject.idWith new) := by
  obtain ⟨henum, hfunction, htable⟩ := @replace_naming subject new
  cases object with
  | extension e => rfl
  | enum e => rfl
  | function f => exact hlisted f rfl
  | table t =>
    simp only [SchemaObject.rename, SchemaObject.mentions, List.filterMap_map, List.map_filterMap]
    refine List.filterMap_congr fun column _ => ?_
    simp only [Function.comp, DataType.enumName?_mapEnum, Option.map_map]
    exact congrArg (fun f => column.type.enumName?.map f) (funext henum)
  | constraint c =>
    obtain ⟨table, name, kind⟩ := c
    cases kind with
    | foreignKey key => exact congrArg₂ (fun a b => [a, b]) (htable _) (htable _)
    | _ => exact congrArg (fun a => [a]) (htable _)
  | index i => exact congrArg (fun a => [a]) (htable _)
  | trigger r => exact congrArg₂ (fun a b => [a, b]) (htable _) (hfunction _)

/-- Resolving types adds mentions and takes none away. -/
theorem mentions_resolveEnums (isEnum : String → Bool) (object : SchemaObject) :
    object.mentions.Sublist (object.resolveEnums isEnum).mentions := by
  cases object with
  | table t =>
    simp only [SchemaObject.resolveEnums, SchemaObject.mentions, List.filterMap_map]
    induction t.columns with
    | nil => exact List.Sublist.refl _
    | cons column rest ih =>
      cases hname : column.type.enumName? with
      | none =>
        rw [List.filterMap_cons_none (by rw [hname]; rfl)]
        refine ih.trans (List.Sublist.filterMap _ (List.sublist_cons_self _ _))
      | some name =>
        have hresolved : (column.type.resolveEnums isEnum).enumName? = some name :=
          DataType.enumName?_resolveEnums.2 (.inl hname)
        rw [List.filterMap_cons_some (by rw [hname]; rfl),
          List.filterMap_cons_some (by simp only [Function.comp, hresolved]; rfl)]
        exact ih.cons_cons _
  | _ => exact List.Sublist.refl _

/-- The tables that a sound object names exist. -/
theorem known_of_mem_tableNames {objects : List SchemaObject} (hobject : object ∈ objects)
    (h : Sound objects object) {table : String} (htable : table ∈ object.tableNames) :
    Known objects (.table table) := by
  cases object with
  | table t =>
    obtain rfl := List.mem_singleton.1 htable
    exact ⟨_, hobject, rfl⟩
  | constraint c =>
    refine known_of_mem_mentions h ?_
    rcases List.mem_cons.1 htable with rfl | htable
    · exact List.mem_cons_self
    · obtain ⟨key, hkey, rfl⟩ := List.mem_map.1 htable
      exact List.mem_cons_of_mem _ (List.mem_map.2 ⟨key, hkey, rfl⟩)
  | index i =>
    obtain rfl := List.mem_singleton.1 htable
    exact known_of_mem_mentions h List.mem_cons_self
  | trigger r =>
    obtain rfl := List.mem_singleton.1 htable
    exact known_of_mem_mentions h List.mem_cons_self
  | _ => cases htable

/-! ## Renamed schemas -/

/-- **A schema after the rename of an object in it**: identities change as they should, and all that
mentioned the object mentions it by its new identity. -/
structure FollowsRename (graph result : SchemaGraph) (source target : ObjectId) : Prop where
  ids : result.ids.Perm (graph.objects.map (SchemaObject.idAfter source target))
  mentions : ∀ object ∈ graph.objects, ∃ renamed ∈ result.objects,
    renamed.id = object.idAfter source target ∧
      (object.mentions.map fun id => id.replace source target).Sublist renamed.mentions
  gone : ∀ object ∈ result.objects, source ∉ object.mentions

/-- A rename leaves what functions list: it is of a function, whose identity is replaced in the
lists, or what they list keeps its identity. -/
def LeavesLists (graph : SchemaGraph) (source target : ObjectId) : Prop :=
  source.kind = .function ∨ ∀ f, .function f ∈ graph.objects → ∀ id ∈ f.dependsOn,
    id ∈ graph.objects.map (SchemaObject.idAfter source target)

/-- The names inside a table that gets another name have no dots, and neither has the new name. -/
def PlainWithin (graph : SchemaGraph) (subject : SchemaObject) (new : String) : Prop :=
  subject.kind = .table → '.' ∉ new.toList ∧ ∀ part ∈ graph.objects,
    part.kind.isTableScoped = true → part.owningTable? = some subject.localName → part.IsPlain

/-- An object of a schema can get a new name: one that no object has. -/
structure CanRename (graph : SchemaGraph) (subject : SchemaObject) (new : String) : Prop where
  mem : subject ∈ graph.objects
  kind : subject.kind ≠ .extension
  plain : subject.IsPlain
  /-- A constraint or index with an empty name has none. -/
  named : subject.kind.hasComputedName = true → new ≠ ""
  free : ∀ other ∈ graph.objects, holds other (subject.idWith new) = false

section Registered

open Registration

variable {sources : List SchemaObject} {graph : SchemaGraph}

theorem CanRename.not_mem_ids (h : CanRename graph subject new) :
    subject.idWith new ∉ graph.objects.map SchemaObject.id := by
  intro hmem
  obtain ⟨other, hother, hid⟩ := List.mem_map.1 hmem
  have hheld := h.free other hother
  simp [holds, hid] at hheld

theorem CanRename.idWith_ne (h : CanRename graph subject new) :
    subject.idWith new ≠ subject.id := by
  intro heq
  refine h.not_mem_ids ?_
  rw [heq]
  exact List.mem_map_of_mem h.mem

variable (h : CanRename graph subject new) (hregister : register sources = .ok graph)
include h hregister

theorem CanRename.eq_of_id_eq (hobject : object ∈ graph.objects) (hid : object.id = subject.id) :
    object = subject :=
  List.inj_on_of_nodup_map (settled_of_register hregister).1.ascending.nodup_keys hobject h.mem hid

/-- The identities after a rename do not collide. -/
theorem CanRename.nodup_idAfter (hplain : PlainWithin graph subject new) :
    (graph.objects.map (SchemaObject.idAfter subject.id (subject.idWith new))).Nodup := by
  obtain ⟨hsettled, -⟩ := settled_of_register hregister
  have hnodup := hsettled.ascending.nodup_keys
  by_cases htable : subject.kind = .table
  · cases subject with
    | table t =>
      obtain ⟨hnew, hparts⟩ := hplain rfl
      refine nodup_idAfter_table hnodup (fun part hpart table hname heq => ?_) hnew hparts
      have hknown := known_of_mem_tableNames hpart (hsettled.sound hpart) hname
      rw [heq, known_iff_mem] at hknown
      exact h.not_mem_ids hknown
    | _ => cases htable
  · exact nodup_idAfter_of_kind hnodup h.not_mem_ids (subject.kind_id ▸ htable)

theorem CanRename.renameObject_eq :
    renameObject graph.objects subject.id (subject.idWith new) =
      .ok (graph.objects.map (SchemaObject.rename (subject.naming new))) := by
  have hheld : holds subject subject.id = true := by simp [holds]
  refine renameObject_eq_ok_iff.2 ⟨⟨subject, h.mem, hheld⟩, h.free, subject.kind_id ▸ h.kind, _, _,
    renamedNames_idWith h.plain, ?_⟩
  exact List.map_congr_left fun object hobject =>
    (afterRename_eq_rename h.plain h.kind (h.eq_of_id_eq hregister hobject)).symm

theorem CanRename.map_id :
    (graph.objects.map fun object => (object.rename (subject.naming new)).id) =
      graph.objects.map (SchemaObject.idAfter subject.id (subject.idWith new)) :=
  List.map_congr_left fun _ hobject =>
    id_rename_naming h.kind (h.eq_of_id_eq hregister hobject)

/-- **The renamed objects are registered exactly when their identities do not collide and the rename
leaves what functions list.** -/
theorem CanRename.exists_register_iff :
    (∃ result, register (graph.objects.map (SchemaObject.rename (subject.naming new))) =
        .ok result) ↔
      (graph.objects.map (SchemaObject.idAfter subject.id (subject.idWith new))).Nodup ∧
        LeavesLists graph subject.id (subject.idWith new) := by
  obtain ⟨hsettled, -⟩ := settled_of_register hregister
  rw [register_rename_iff hsettled fun object hobject =>
    withName_rename h.named (hsettled.withName object hobject), h.map_id hregister, LeavesLists]
  refine and_congr_right fun _ => ?_
  by_cases hfunction : subject.kind = .function
  · refine iff_of_true (fun f hf id hid => ?_) (.inl (subject.kind_id ▸ hfunction))
    obtain ⟨listed, hlisted, rfl⟩ := hsettled.sound hf id hid
    refine List.mem_map.2 ⟨listed, hlisted, ?_⟩
    have hkind : subject.id.kind ≠ .table := by
      rw [subject.kind_id, hfunction]
      exact nofun
    rw [idAfter_of_kind hkind]
    cases subject with
    | function g => rfl
    | _ => cases hfunction
  · rw [or_iff_right (subject.kind_id ▸ hfunction)]
    cases subject with
    | function g => exact absurd rfl hfunction
    | _ => exact Iff.rfl

/-- **A registered rename reaches every reference.** -/
theorem CanRename.follows {result : SchemaGraph}
    (hresult : register (graph.objects.map (SchemaObject.rename (subject.naming new))) =
      .ok result) : FollowsRename graph result subject.id (subject.idWith new) := by
  obtain ⟨hsettled, -⟩ := settled_of_register hregister
  obtain ⟨-, hlists⟩ := (h.exists_register_iff hregister).1 ⟨result, hresult⟩
  have hperm := objects_perm_namedParts hresult
  rw [namedParts_rename hsettled fun object hobject =>
    withName_rename h.named (hsettled.withName object hobject)] at hperm
  have hids : result.ids.Perm
      (graph.objects.map (SchemaObject.idAfter subject.id (subject.idWith new))) := by
    have hmap := hperm.map SchemaObject.id
    rw [result.map_id_objects, map_id_resolveEnums, List.map_map] at hmap
    rw [← h.map_id hregister]
    exact hmap
  have hgone : subject.id ∉ graph.objects.map
      (SchemaObject.idAfter subject.id (subject.idWith new)) := by
    intro hmem
    obtain ⟨object, -, hid⟩ := List.mem_map.1 hmem
    exact idAfter_ne h.idWith_ne hid
  refine ⟨hids, fun object hobject => ⟨_, hperm.mem_iff.2
    (List.mem_map_of_mem (List.mem_map_of_mem hobject)), ?_, ?_⟩, fun object hobject hmention => ?_⟩
  · rw [SchemaObject.id_resolveEnums, id_rename_naming h.kind (h.eq_of_id_eq hregister hobject)]
  · rw [← mentions_rename]
    · exact mentions_resolveEnums _ _
    · rintro f rfl
      cases subject with
      | function g => rfl
      | _ =>
        refine List.map_congr_left fun id hid => (if_neg ?_).symm
        rintro rfl
        exact hgone (hlists.resolve_left nofun f hobject _ hid)
  · have hknown := known_of_mem_mentions ((settled_of_register hresult).1.sound hobject) hmention
    rw [known_iff_mem, result.map_id_objects] at hknown
    exact hgone (hids.mem_iff.1 hknown)

end Registered

/-- **A rename follows every reference by name**, and what it leaves can be registered exactly when
no identities collide, which they do not for names without dots, and functions list nothing that
changes its identity, unless the rename is of a function. -/
theorem renameObject_follows {sources : List SchemaObject} {graph : SchemaGraph}
    (h : register sources = .ok graph) (hrename : CanRename graph subject new) :
    ∃ renamed, renameObject graph.objects subject.id (subject.idWith new) = .ok renamed ∧
      ((∃ result, register renamed = .ok result) ↔
        (graph.objects.map (SchemaObject.idAfter subject.id (subject.idWith new))).Nodup ∧
          LeavesLists graph subject.id (subject.idWith new)) ∧
      (PlainWithin graph subject new →
        (graph.objects.map (SchemaObject.idAfter subject.id (subject.idWith new))).Nodup) ∧
      ∀ result, register renamed = .ok result →
        FollowsRename graph result subject.id (subject.idWith new) :=
  ⟨_, hrename.renameObject_eq h, hrename.exists_register_iff h, hrename.nodup_idAfter h,
    fun _ => hrename.follows h⟩

/-- Notes with their authors.  One function lists the other. -/
def noteObjects : List SchemaObject := [
  .enum { name := "mood", labels := ["sad", "calm"] },
  .function { name := "audit", dependsOn := [⟨.function, "touch"⟩] },
  .function { name := "touch", returns := "trigger" },
  .table { name := "author", columns := [{ name := "id", type := .uuid }] },
  .table {
    name := "note"
    columns := [{ name := "owner", type := .uuid },
      { name := "moods", type := .array (.enum "mood") }] },
  .constraint ⟨"note", ⟨"note_owner", .foreignKey
    { columns := ["owner"], referencesTable := "author", referencesColumns := ["id"] }⟩⟩,
  .trigger { name := "stamp", table := "note", function := "touch", events := [.update] }]

/-- A function that another lists, and a table that a foreign key refers to, can be renamed. -/
theorem renameObject_follows_note : ∃ graph renamed result moved placed,
    register noteObjects = .ok graph ∧
    renameObject graph.objects ⟨.function, "touch"⟩ ⟨.function, "stamp_row"⟩ = .ok renamed ∧
    register renamed = .ok result ∧
    FollowsRename graph result ⟨.function, "touch"⟩ ⟨.function, "stamp_row"⟩ ∧
    renameObject graph.objects (.table "author") (.table "writer") = .ok moved ∧
    register moved = .ok placed ∧
    FollowsRename graph placed (.table "author") (.table "writer") := by
  have hok : (register noteObjects).toOption.map SchemaGraph.objects = some noteObjects := by
    decide +kernel
  obtain ⟨graph, hgraph, hobjects⟩ := Option.map_eq_some_iff.1 hok
  rw [Outcome.toOption_eq_some_iff] at hgraph
  let touch : SchemaObject := .function { name := "touch", returns := "trigger" }
  let author : SchemaObject :=
    .table { name := "author", columns := [{ name := "id", type := .uuid }] }
  have htouch : CanRename graph touch "stamp_row" := by
    refine ⟨?_, nofun, by decide, nofun, ?_⟩
    · rw [hobjects]
      decide
    · rw [hobjects]
      decide +kernel
  have hauthor : CanRename graph author "writer" := by
    refine ⟨?_, nofun, by decide, nofun, ?_⟩
    · rw [hobjects]
      decide
    · rw [hobjects]
      decide +kernel
  obtain ⟨renamed, hrenamed, hregisters, hdistinct, hfollows⟩ :=
    renameObject_follows hgraph htouch
  obtain ⟨result, hresult⟩ := hregisters.2 ⟨hdistinct nofun, .inl rfl⟩
  obtain ⟨moved, hmoved, hregisters', hdistinct', hfollows'⟩ := renameObject_follows hgraph hauthor
  have hplain : PlainWithin graph author "writer" := by
    refine fun _ => ⟨by decide, ?_⟩
    rw [hobjects]
    decide
  have hlists : LeavesLists graph author.id (author.idWith "writer") := by
    refine .inr ?_
    rw [hobjects]
    intro f hf id hid
    simp only [noteObjects, List.mem_cons, reduceCtorEq, SchemaObject.function.injEq, false_or,
      List.not_mem_nil, or_false] at hf
    rcases hf with rfl | rfl
    · rw [List.mem_singleton.1 hid]
      decide
    · cases hid
  obtain ⟨placed, hplaced⟩ := hregisters'.2 ⟨hdistinct' hplain, hlists⟩
  exact ⟨graph, renamed, result, moved, placed, hgraph, hrenamed, hresult, hfollows result hresult,
    hmoved, hplaced, hfollows' placed hplaced⟩

/-- A table that a function lists. -/
def legacyTable : SchemaObject :=
  .table { name := "legacy", columns := [{ name := "id", type := .integer }] }

/-- The function that lists it. -/
def legacyFunction : SchemaObject :=
  .function {
    name := "count_legacy"
    returns := "bigint"
    body := "BEGIN RETURN 0; END"
    dependsOn := [.table "legacy"] }

/-- **What a function lists does not follow the rename of a table**, so what the rename leaves can
not be registered. -/
theorem listed_table_not_followed : ∃ graph renamed,
    register [legacyTable, legacyFunction] = .ok graph ∧
    CanRename graph legacyTable "archive" ∧
    renameObject graph.objects (.table "legacy") (.table "archive") = .ok renamed ∧
    register renamed = .error (.dangling legacyFunction.id (.object (.table "legacy"))) := by
  let graph : SchemaGraph :=
    .ofNodes [⟨legacyFunction, [.table "legacy"]⟩, ⟨legacyTable, []⟩]
  let renamed : List SchemaObject := [legacyFunction,
    .table { name := "archive", columns := [{ name := "id", type := .integer }] }]
  have hrename : CanRename graph legacyTable "archive" :=
    ⟨by decide +kernel, nofun, by decide, nofun, by decide +kernel⟩
  exact ⟨graph, renamed, by decide +kernel, hrename, by decide +kernel, by decide +kernel⟩

end Change

end SchemaPlan
