import Mathlib.Data.List.Perm.Basic
import SchemaPlan.Proofs.Change.FreshBuild
import SchemaPlan.Proofs.Change.OutdatedNames
import SchemaPlan.Proofs.Graph.IgnoredExtensions

/-!
# Renaming a table keeps its keys

A confirmed rename of a table leads to renames only: of the table and of the computed names that
come from its name.  No key, index or constraint is dropped and created again.

* `renameObject_table`: the rename of the table, in all parts of the schema.
* `applyHints_rename`: the renames that follow from the hint.
* `diff_rename_keeps_keys`: these renames are all operations, and they lead to the declared graph.
-/

set_option autoImplicit false

namespace SchemaPlan

namespace Change

open Registration (resolvedParts namedParts ofKind)

variable {declaration : Declaration} {declared live : SchemaGraph} {old new : String}
  {parts : List SchemaObject} {options : DiffOptions}

/-- The rename of a constraint or index from the name that is computed under the other name of a
table to the one that is computed under its own. -/
def nameRename (old new : String) (x : SchemaObject) : Operation :=
  .rename (x.idNamed (x.renameTable old new).computedName) (x.idNamed x.computedName)

theorem map_nameRefresh {stale : List SchemaObject}
    (h : ∀ x ∈ stale, x ∈ declaration.namedAfter old) :
    stale.map (nameRefresh (SchemaObject.nameAfter old new)) = stale.map (nameRename old new) := by
  refine List.map_congr_left fun x hx => ?_
  have hwritten := (Declaration.mem_namedAfter_iff.1 (h x hx)).2.1
  rw [nameRefresh, SchemaObject.nameAfter, SchemaObject.givenName,
    SchemaObject.writtenName_renameTable, if_pos hwritten, nameRename]

/-- Parts of a declaration among which are all its constraints and indexes, and a table. -/
structure Covers (declaration : Declaration) (table : String) (parts : List SchemaObject) :
    Prop where
  mem : ∀ part ∈ parts, part ∈ resolvedParts declaration.objects
  named : (parts.flatMap SchemaObject.named).Perm declaration.named
  table : ∃ t, .table t ∈ parts ∧ t.name = table

theorem covers_of_perm (hold : old ∈ declaration.tables.map Table.name)
    (hperm : parts.Perm (resolvedParts declaration.objects)) : Covers declaration old parts := by
  refine ⟨fun part hpart => hperm.mem_iff.1 hpart, ?_, ?_⟩
  · exact (hperm.flatMap_right _).trans (Registration.flatMap_named_resolvedParts declaration)
  · obtain ⟨t, ht, rfl⟩ := List.mem_map.1 hold
    have hsource : .table t ∈ declaration.objects :=
      List.mem_append_right _ (List.mem_map_of_mem ht)
    have hbare : .table t.bare ∈ declaration.objects.flatMap SchemaObject.parts :=
      List.mem_flatMap.2 ⟨_, hsource, List.mem_cons_self⟩
    exact ⟨_, hperm.mem_iff.2 (List.mem_map_of_mem hbare), rfl⟩

/-- Leaving out extensions leaves out no constraint, index or table. -/
theorem Covers.withoutIgnored (h : Covers declaration old parts) (options : DiffOptions) :
    Covers declaration old (parts.filter fun part => !options.ignores part) := by
  refine ⟨fun part hpart => h.mem part (List.mem_filter.1 hpart).1, ?_, ?_⟩
  · have hsplit := (List.filter_append_perm (fun part => !options.ignores part) parts).flatMap_right
      SchemaObject.named
    have hnone : (parts.filter fun part => !!options.ignores part).flatMap SchemaObject.named =
        [] := by
      refine List.flatMap_eq_nil_iff.2 fun part hpart => ?_
      have hignored := (List.mem_filter.1 hpart).2
      cases part <;> first | rfl | cases hignored
    rw [List.flatMap_append, hnone, List.append_nil] at hsplit
    exact hsplit.trans h.named
  · obtain ⟨t, ht, hname⟩ := h.table
    exact ⟨t, List.mem_filter.2 ⟨ht, rfl⟩, hname⟩

/-! ## The table -/

theorem holds_table_iff {object : SchemaObject} {name : String} :
    holds object (.table name) = true ↔ object.id = .table name := by
  cases object <;> simp [holds, ObjectId.table]

/-- **The rename of the table** gives every part its old table back. -/
theorem renameObject_table (h : declaration.Renamable old new)
    (hregister : declaration.register = .ok declared)
    (hcovers : Covers declaration old parts) :
    renameObject (parts.map (livePart old new)) (.table new) (.table old) =
      .ok (parts.map (SchemaObject.mapNames (SchemaObject.nameAfter old new))) := by
  have hid : ∀ {t : Table}, (livePart old new (.table t)).id =
      .table (replaceName old new t.name) := rfl
  have hsource : ∃ object ∈ parts.map (livePart old new), holds object (.table new) = true := by
    obtain ⟨t, ht, rfl⟩ := hcovers.table
    refine ⟨_, List.mem_map_of_mem ht, holds_table_iff.2 ?_⟩
    rw [hid, replaceName, if_pos rfl]
  have htarget : ∀ object ∈ parts.map (livePart old new), holds object (.table old) = false := by
    intro object hobject
    obtain ⟨part, hpart, rfl⟩ := List.mem_map.1 hobject
    refine Bool.eq_false_iff.2 fun hheld => ?_
    have hheld := holds_table_iff.1 hheld
    have hkind := congrArg ObjectId.kind hheld
    rw [SchemaObject.kind_id, livePart, SchemaObject.kind_withName,
      SchemaObject.kind_renameTable] at hkind
    cases part with
    | table t =>
      have hname : replaceName old new t.name = old := congrArg ObjectId.name hheld
      rw [replaceName] at hname
      split at hname
      · exact h.ne hname
      · exact absurd hname ‹_›
    | _ => cases hkind
  have hkind : (ObjectId.table new).kind ≠ .extension := by simp [ObjectId.table]
  refine renameObject_eq_ok_iff.2 ⟨hsource, htarget, hkind, _, _, rfl, ?_⟩
  rw [List.map_map]
  refine List.map_congr_left fun part hpart => Eq.symm ?_
  have hfresh : new ∉ part.tableNames := fun hmem =>
    (h.tables_of_mem_parts hregister (hcovers.mem part hpart) _ hmem).1 rfl
  have hsplit := (Registration.parts_of_mem_resolvedParts (hcovers.mem part hpart)).1
  exact (SchemaObject.afterRename_table new old _).trans
    (SchemaObject.renameTable_back_withName hsplit hfresh)

/-- **Running the renames** of the table and of the outdated names, in any order of these. -/
theorem foldlM_run_renames (h : declaration.Renamable old new)
    (hregister : declaration.register = .ok declared)
    (hcovers : Covers declaration old parts) {stale : List SchemaObject}
    (hstale : stale.Perm (declaration.namedAfter old)) :
    (.rename (.table new) (.table old) :: stale.map (nameRename old new)).foldlM run
      (parts.map (livePart old new)) = .ok (parts.map SchemaObject.withName) := by
  rw [List.foldlM_cons]
  refine Outcome.bind_eq_ok_iff.2 ⟨_, renameObject_table h hregister hcovers, ?_⟩
  have hrun := (h.refreshable hregister hcovers.named hstale).foldlM_run
  rw [map_nameRefresh fun x hx => hstale.mem_iff.1 hx] at hrun
  rw [hrun]
  exact congrArg Except.ok (List.map_congr_left fun part hpart =>
    Declaration.mapNames_refreshedName hstale (hcovers.mem part hpart))

/-! ## The hint -/

theorem declares_constraint {graph : SchemaGraph} {t : Table} (ht : .table t ∈ graph.objects)
    (hplain : '.' ∉ t.name.toList) {c : Constraint} (hc : c ∈ t.constraints) :
    declares graph (.within .constraint t.name c.name) = true := by
  have htable : graph.table? t.name = some t := by
    have hfound : graph.get? (.table t.name) = some (.table t) := SchemaGraph.get?_of_mem ht
    rw [SchemaGraph.table?, hfound]
  have hkind : (ObjectId.within .constraint t.name c.name).kind = .constraint := rfl
  have hscope : (ObjectId.within .constraint t.name c.name).tableScope? = some (t.name, c.name) :=
    ObjectId.tableScope?_within rfl hplain c.name
  rw [declares, Bool.or_eq_true]
  refine .inr ?_
  simp only [hkind, hscope, htable, Option.any_some, List.any_eq_true, beq_iff_eq]
  exact ⟨c, hc, rfl⟩

/-- A computed name is declared when the part it stands in is. -/
theorem declares_computedName {graph : SchemaGraph} {part x : SchemaObject}
    (hpart : part.withName ∈ graph.objects) (hplain : ∀ table ∈ part.tableNames, '.' ∉ table.toList)
    (hx : x ∈ part.named) (hwritten : x.writtenName = "") :
    declares graph (x.idNamed x.computedName) = true := by
  have hname : x.givenName = x.computedName := if_pos hwritten
  rw [SchemaObject.withName_eq_mapNames] at hpart
  have hheld : x = part → declares graph (x.idNamed x.computedName) = true := by
    rintro rfl
    rw [declares, Bool.or_eq_true, SchemaGraph.contains_iff, ← graph.map_id_objects, ← hname,
      ← SchemaObject.id_mapNames]
    exact .inl (List.mem_map_of_mem hpart)
  cases part with
  | table t =>
    obtain ⟨c, hc, rfl⟩ := List.mem_map.1 hx
    rw [← hname]
    exact declares_constraint hpart (hplain _ (List.mem_singleton_self _))
      (List.mem_map.2 ⟨c, hc, rfl⟩)
  | constraint c => exact hheld (List.mem_singleton.1 hx)
  | index i => exact hheld (List.mem_singleton.1 hx)
  | _ => cases hx

/-- **The recorded places are refreshed** by the renames of the outdated names. -/
theorem foldlM_refresh_outdated (h : declaration.Renamable old new)
    (hregister : declaration.register = .ok declared)
    (hcovers : Covers declaration old parts) (target : SchemaGraph)
    (hdeclares : ∀ x ∈ declaration.namedAfter old,
      declares target (x.idNamed x.computedName) = true)
    (operations : List Operation) :
    (computedPlacesFrom 0 (parts.map (livePart old new))).foldlM (refresh target)
        ⟨parts.map (SchemaObject.mapNames (SchemaObject.nameAfter old new)), operations⟩ =
      .ok ⟨parts.map SchemaObject.withName, operations ++
        ((parts.flatMap SchemaObject.named).filter (SchemaObject.isNamedAfter old)).map
          (nameRename old new)⟩ := by
  have houtdated : ((parts.flatMap SchemaObject.named).filter
      (SchemaObject.isNamedAfter old)).Perm (declaration.namedAfter old) := hcovers.named.filter _
  have hfound := h.filter_isOutdated hcovers.mem
  have hrefreshable := h.refreshable hregister hcovers.named houtdated
  rw [← hfound] at hrefreshable
  rw [hrefreshable.foldlM_refresh operations, hfound,
    map_nameRefresh fun x hx => houtdated.mem_iff.1 hx]
  · refine congrArg (fun objects => Except.ok (Renamed.mk objects _)) ?_
    exact List.map_congr_left fun part hpart =>
      Declaration.mapNames_refreshedName houtdated (hcovers.mem part hpart)
  · rw [hfound]
    exact fun x hx => hdeclares x (houtdated.mem_iff.1 hx)

/-- **The renames that follow from the hint** are those of the table and of the outdated names. -/
theorem applyHints_rename (h : declaration.Renamable old new)
    (hregister : declaration.register = .ok declared)
    (hcovers : Covers declaration old parts)
    {target source result : SchemaGraph}
    (hrenames : options.renames = [⟨.table, new, old⟩]) (hcolumns : options.columnRenames = [])
    (hsource : source.objects = parts.map (livePart old new))
    (htarget : target.objects.Perm (parts.map SchemaObject.withName))
    (hresult : register (parts.map SchemaObject.withName) = .ok result) :
    applyHints source target options = .ok (result, .rename (.table new) (.table old) ::
      ((parts.flatMap SchemaObject.named).filter (SchemaObject.isNamedAfter old)).map
        (nameRename old new)) := by
  have hhint : declares target (.table old) = true := by
    obtain ⟨t, ht, rfl⟩ := hcovers.table
    rw [declares, Bool.or_eq_true, SchemaGraph.contains_iff, ← target.map_id_objects]
    exact .inl (List.mem_map.2 ⟨_, htarget.mem_iff.2 (List.mem_map_of_mem ht), rfl⟩)
  have hrename : applyHint target ⟨source.objects, []⟩ ⟨.table, new, old⟩ =
      .ok ⟨parts.map (SchemaObject.mapNames (SchemaObject.nameAfter old new)),
        [.rename (.table new) (.table old)]⟩ := by
    have hrun := renameObject_table h hregister hcovers
    have htargetId : (RenameHint.mk .table new old).targetId = .table old := rfl
    have hsourceId : (RenameHint.mk .table new old).sourceId = .table new := rfl
    rw [applyHint, htargetId, hsourceId, hhint, hsource, hrun]
    rfl
  have hrefresh := foldlM_refresh_outdated h hregister hcovers target ?_
    [.rename (.table new) (.table old)]
  · rw [applyHints, hrenames, hcolumns]
    simp only [List.isEmpty_cons, Bool.false_and, Bool.false_eq_true, if_false, List.foldlM_cons,
      List.foldlM_nil, hrename]
    rw [← hsource] at hrefresh
    refine Outcome.bind_eq_ok_iff.2 ⟨_, rfl, Outcome.bind_eq_ok_iff.2 ⟨_, rfl,
      Outcome.bind_eq_ok_iff.2 ⟨_, hrefresh, Outcome.bind_eq_ok_iff.2 ⟨_, hresult, rfl⟩⟩⟩⟩
  · intro x hx
    obtain ⟨hx, hwritten, -⟩ := Declaration.mem_namedAfter_iff.1 hx
    obtain ⟨part, hpart, hx⟩ := List.mem_flatMap.1 (hcovers.named.mem_iff.2 hx)
    refine declares_computedName (htarget.mem_iff.2 (List.mem_map_of_mem hpart)) ?_ hx hwritten
    exact fun table hmem => (h.tables_of_mem_parts hregister (hcovers.mem part hpart) table hmem).2

/-! ## The operations -/

/-- Two graphs of the same objects differ by renames only. -/
theorem plan_renames {target result : SchemaGraph} (options : DiffOptions)
    (renames : List Operation) (hobjects : result.objects = target.objects)
    (htarget : ∃ order, target.creationOrder = .ok order)
    (hresult : ∃ order, result.creationOrder = .ok order)
    (hcolumns : ∀ t, .table t ∈ target.objects → (t.columns.map Column.name).Nodup) :
    ∃ candidates, plan options target result renames = .ok ⟨renames, candidates⟩ := by
  obtain ⟨creation, hcreation⟩ := htarget
  obtain ⟨order, horder⟩ := hresult
  have hids : result.ids = target.ids := by
    rw [← result.map_id_objects, ← target.map_id_objects, hobjects]
  have hsame : ∀ graph other : SchemaGraph, graph.ids = other.ids →
      objectsNotIn graph other = [] := by
    intro graph other heq
    refine List.filter_eq_nil_iff.2 fun object hobject => ?_
    have hmem : other.contains object.id = true := by
      rw [SchemaGraph.contains_iff, ← heq, ← graph.map_id_objects]
      exact List.mem_map_of_mem hobject
    simp [hmem]
  refine plan_renames_of_agrees options ⟨creation, order.reverse⟩ renames hcreation ?_ ?_ ?_
  · rw [SchemaGraph.deletionOrder_eq_ok_iff, List.reverse_reverse]
    exact horder
  · intro object hobject existing hexisting
    have hfound : result.get? object.id = some object :=
      SchemaGraph.get?_of_mem (hobjects ▸ hobject)
    obtain rfl := Option.some.inj (hfound.symm.trans hexisting)
    exact SchemaObject.agrees_of_canonical_eq (fun t ht => hcolumns t (ht ▸ hobject)) rfl
  · rw [hsame _ _ hids, hsame _ _ hids.symm, List.map_nil, List.map_nil, List.append_nil,
      List.append_nil]
    exact orderSteps_renames renames

/-- The objects of a registered graph without its ignored extensions are registered again, and then
only renames are left to do. -/
theorem exists_plan_withoutIgnored {sources : List SchemaObject}
    (hregister : register sources = .ok declared)
    (hfunctions : ∀ f, .function f ∈ declared.objects → f.dependsOn = []) (options : DiffOptions) :
    ∃ result, (∀ xs : List SchemaObject, xs.Perm (declared.withoutIgnored options).objects →
        register xs = .ok result) ∧
      ∀ renames, ∃ candidates,
        plan options (declared.withoutIgnored options) result renames =
          .ok ⟨renames, candidates⟩ := by
  have hkept : (declared.withoutIgnored options).objects =
      declared.objects.filter fun object => !options.ignores object :=
    declared.objects_retain _
  have hsettled : Registration.Settled (declared.withoutIgnored options).objects := by
    rw [hkept]
    refine (Registration.settled_of_register hregister).1.kept fun f hf id hid => ?_
    rw [hfunctions f hf] at hid
    cases hid
  have hsame := Registration.objects_graphOf hsettled.ascending
  have hresult := fun xs (hperm : List.Perm xs (declared.withoutIgnored options).objects) =>
    Registration.register_of_perm hsettled hperm
  refine ⟨_, hresult, fun renames => plan_renames options renames hsame ?_ ?_ fun t ht =>
    (hsettled.sound ht).1⟩
  · refine (SchemaGraph.exists_creationOrder_withoutIgnored_iff declared options).2
      (SchemaGraph.acyclic_of_layered (SchemaGraph.layered_withoutIgnored ?_ options))
    exact SchemaGraph.layered_of_register hregister hfunctions
  · have hself := hresult _ (List.Perm.refl _)
    refine (SchemaGraph.exists_creationOrder_iff hself).2
      (SchemaGraph.acyclic_of_layered (SchemaGraph.layered_of_register hself fun f hf => ?_))
    rw [hsame, hkept] at hf
    exact hfunctions f (List.mem_filter.1 hf).1

/-- The parts of a declaration in the order in which the live schema has them. -/
theorem exists_parts (hnew : new ≠ "")
    (hlive : (declaration.renameTable old new).register = .ok live) :
    ∃ parts : List SchemaObject, parts.Perm (resolvedParts declaration.objects) ∧
      live.objects = parts.map (livePart old new) := by
  have hobjects := Registration.objects_perm_namedParts hlive
  rw [namedParts, Registration.resolvedParts_renameTable hnew, List.map_map] at hobjects
  obtain ⟨parts, heq, hperm⟩ :=
    (congrFun₂ (List.eq_map_comp_perm (livePart old new)) _ _).mpr hobjects
  exact ⟨parts, hperm, heq⟩

theorem ignores_livePart (options : DiffOptions) (part : SchemaObject) :
    options.ignores (livePart old new part) = options.ignores part := by
  rw [livePart, Registration.ignores_withName]
  cases part <;> rfl

/-- Constraints in tables come first, then foreign keys, then indexes. -/
theorem flatMap_named_of_ascending
    (h : Order.Ascending (fun part => (livePart old new part).id) parts) :
    parts.flatMap SchemaObject.named =
      (ofKind parts .table).flatMap SchemaObject.named ++
        (ofKind parts .constraint).flatMap SchemaObject.named ++
        (ofKind parts .index).flatMap SchemaObject.named := by
  have hkey : ∀ part : SchemaObject, (livePart old new part).id.kind = part.kind := fun part => by
    rw [SchemaObject.kind_id, livePart, SchemaObject.kind_withName, SchemaObject.kind_renameTable]
  have hnone : ∀ kind : ObjectKind, kind ≠ .table → kind.hasComputedName = false →
      (ofKind parts kind).flatMap SchemaObject.named = [] := by
    intro kind htable hnamed
    refine List.flatMap_eq_nil_iff.2 fun part hpart => ?_
    obtain rfl := beq_iff_eq.1 (List.mem_filter.1 hpart).2
    cases part <;> first | exact absurd rfl htable | rfl | cases hnamed
  have hall := congrArg (List.flatMap SchemaObject.named) (Registration.flatMap_ofKind hkey h)
  rw [← hall, List.flatMap_assoc]
  simp only [ObjectKind.all, List.flatMap_cons, List.flatMap_nil,
    hnone .extension (by decide) rfl, hnone .enum (by decide) rfl,
    hnone .function (by decide) rfl, hnone .trigger (by decide) rfl, List.nil_append,
    List.append_nil, List.append_assoc]

/-- The constraints and indexes whose names are computed from the name of a table, in groups. -/
structure NameGroups (declaration : Declaration) (table : String) where
  constraints : List SchemaObject
  keys : List SchemaObject
  indexes : List SchemaObject
  perm : (constraints ++ keys ++ indexes).Perm (declaration.namedAfter table)
  /-- Primary keys, unique and check constraints of the table. -/
  isConstraint : ∀ x ∈ constraints, ∃ c, x = .constraint c ∧ c.table = table ∧
    c.constraint.kind.isForeignKey = false
  /-- Foreign keys from or to the table. -/
  isKey : ∀ x ∈ keys, ∃ c key, x = .constraint c ∧ c.constraint.kind = .foreignKey key ∧
    (c.table = table ∨ key.referencesTable = table)
  /-- Indexes of the table. -/
  isIndex : ∀ x ∈ indexes, ∃ i, x = .index i ∧ i.table = table

/-- The groups one after the other. -/
def NameGroups.all {table : String} (groups : NameGroups declaration table) : List SchemaObject :=
  groups.constraints ++ groups.keys ++ groups.indexes

/-- The outdated names are found group by group. -/
theorem exists_groups (hcovers : Covers declaration old parts)
    (h : Order.Ascending (fun part => (livePart old new part).id) parts) :
    ∃ groups : NameGroups declaration old,
      (parts.flatMap SchemaObject.named).filter (SchemaObject.isNamedAfter old) = groups.all := by
  have hkinds := flatMap_named_of_ascending h
  have hfound : ∀ {kind : ObjectKind} {x : SchemaObject},
      x ∈ ((ofKind parts kind).flatMap SchemaObject.named).filter (SchemaObject.isNamedAfter old) →
      ∃ part ∈ parts, part.kind = kind ∧ x ∈ part.named ∧ old ∈ part.tableNames := by
    intro kind x hx
    obtain ⟨hx, hafter⟩ := List.mem_filter.1 hx
    obtain ⟨part, hpart, hx⟩ := List.mem_flatMap.1 hx
    obtain ⟨hmem, hkind⟩ := List.mem_filter.1 hpart
    have hsplit := (Registration.parts_of_mem_resolvedParts (hcovers.mem part hmem)).1
    exact ⟨part, hmem, beq_iff_eq.1 hkind, hx, SchemaObject.tableNames_subset_of_mem_named hsplit hx
      (List.contains_iff_mem.1 (Bool.and_eq_true_iff.1 hafter).2)⟩
  have hall := congrArg (List.filter (SchemaObject.isNamedAfter old)) hkinds
  rw [List.filter_append, List.filter_append] at hall
  refine ⟨⟨_, _, _, hall ▸ hcovers.named.filter _, fun x hx => ?_, fun x hx => ?_,
    fun x hx => ?_⟩, hall⟩
  · obtain ⟨part, hpart, hkind, hx, hold⟩ := hfound hx
    have hsplit := (Registration.parts_of_mem_resolvedParts (hcovers.mem part hpart)).1
    cases part with
    | table t =>
      obtain ⟨c, hc, rfl⟩ := List.mem_map.1 hx
      exact ⟨_, rfl, (List.mem_singleton.1 hold).symm,
        (SchemaObject.table_parts_iff.1 hsplit).1 c hc⟩
    | _ => cases hkind
  · obtain ⟨part, hpart, hkind, hx, hold⟩ := hfound hx
    have halone := (Registration.parts_of_mem_resolvedParts (hcovers.mem part hpart)).2
    cases part with
    | constraint c =>
      have hforeign : c.constraint.kind.isForeignKey = true := halone
      cases hkey : c.constraint.kind with
      | foreignKey key =>
        simp only [SchemaObject.tableNames, Constraint.foreignKey?, hkey, Option.toList_some,
          List.map_cons, List.map_nil, List.mem_cons, List.not_mem_nil, or_false] at hold
        exact ⟨c, key, List.mem_singleton.1 hx, hkey, hold.imp Eq.symm Eq.symm⟩
      | _ =>
        rw [hkey] at hforeign
        cases hforeign
    | _ => cases hkind
  · obtain ⟨part, -, hkind, hx, hold⟩ := hfound hx
    cases part with
    | index i => exact ⟨i, List.mem_singleton.1 hx, (List.mem_singleton.1 hold).symm⟩
    | _ => cases hkind

/-- **A confirmed rename of a table keeps every key.**  The operations are renames: of the table,
then of its constraints, of the foreign keys from or to it, and of its indexes, each of those whose
names were computed from the name of the table.  They lead to the declared graph. -/
theorem diff_rename_keeps_keys (hregister : declaration.register = .ok declared)
    (h : declaration.Renamable old new) (hrenames : options.renames = [⟨.table, new, old⟩])
    (hcolumns : options.columnRenames = []) :
    ∃ (live : SchemaGraph) (changes : ChangeSet) (groups : NameGroups declaration old),
      (declaration.renameTable old new).register = .ok live ∧
        diff options declared live = .ok changes ∧
        changes.operations =
          .rename (.table new) (.table old) :: groups.all.map (nameRename old new) ∧
        applyTo changes.operations live = .ok declared := by
  obtain ⟨live, hlive⟩ := h.exists_register hregister
  obtain ⟨parts, hperm, hobjects⟩ := exists_parts h.target_ne_empty hlive
  have hcovers := covers_of_perm h.source hperm
  have hdeclared : declared.objects.Perm (parts.map SchemaObject.withName) :=
    (Registration.objects_perm_namedParts hregister).trans (hperm.map _).symm
  -- The comparison leaves ignored extensions out of both graphs.
  let kept := parts.filter fun part => !options.ignores part
  have hkept : Covers declaration old kept := hcovers.withoutIgnored options
  have hsource : (live.withoutIgnored options).objects = kept.map (livePart old new) := by
    rw [SchemaGraph.withoutIgnored, SchemaGraph.objects_retain, hobjects, List.filter_map]
    simp only [Function.comp_def, ignores_livePart]
    rfl
  have htarget : (declared.withoutIgnored options).objects.Perm
      (kept.map SchemaObject.withName) := by
    have hfilter := hdeclared.filter fun object => !options.ignores object
    rw [List.filter_map] at hfilter
    simp only [Function.comp_def, Registration.ignores_withName] at hfilter
    rwa [SchemaGraph.withoutIgnored, SchemaGraph.objects_retain]
  obtain ⟨result, hresult, hplan⟩ := exists_plan_withoutIgnored hregister
    (h.functions_of_register hregister) options
  have hhints := applyHints_rename h hregister hkept hrenames hcolumns hsource htarget
    (hresult _ htarget.symm)
  have hascending : Order.Ascending (fun part => (livePart old new part).id) kept := by
    have hasc := (live.withoutIgnored options).ascending_objects
    rwa [hsource, Order.Ascending, List.pairwise_map] at hasc
  obtain ⟨groups, hgroups⟩ := exists_groups hkept hascending
  rw [hgroups] at hhints
  obtain ⟨candidates, hplan⟩ := hplan
    (.rename (.table new) (.table old) :: groups.all.map (nameRename old new))
  refine ⟨live, _, groups, hlive, Outcome.bind_eq_ok_iff.2 ⟨_, hhints, hplan⟩, rfl, ?_⟩
  have hrun := foldlM_run_renames h hregister hcovers groups.perm
  rw [← hobjects] at hrun
  exact Outcome.bind_eq_ok_iff.2 ⟨_, hrun, Registration.register_objects hregister hdeclared.symm⟩

/-- Songs on albums, with keys that have no names. -/
def songDeclaration : Declaration where
  name := "music"
  tables := [
    { name := "album"
      columns := [{ name := "id", type := .uuid }, { name := "title", type := .text }]
      constraints := [
        { kind := .primaryKey ["id"] },
        { name := "album_title", kind := .unique ["title"] }] },
    { name := "song"
      columns := [{ name := "album", type := .uuid }]
      constraints := [
        { kind := .foreignKey
            { columns := ["album"], referencesTable := "album", referencesColumns := ["id"] } }] }]

theorem diff_rename_keeps_keys_songs : ∃ declared : SchemaGraph,
    songDeclaration.register = .ok declared ∧ songDeclaration.Renamable "album" "albums" ∧
      ∃ (live : SchemaGraph) (changes : ChangeSet) (groups : NameGroups songDeclaration "album"),
        (songDeclaration.renameTable "album" "albums").register = .ok live ∧
          diff { renames := [⟨.table, "albums", "album"⟩] } declared live = .ok changes ∧
          changes.operations = .rename (.table "albums") (.table "album") ::
            groups.all.map (nameRename "album" "albums") ∧
          applyTo changes.operations live = .ok declared := by
  have hok : songDeclaration.register.toOption.isSome = true := by decide +kernel
  obtain ⟨declared, hdeclared⟩ := Option.isSome_iff_exists.1 hok
  have hregister := Outcome.toOption_eq_some_iff.1 hdeclared
  have hnodup : (((songDeclaration.named ++
      (songDeclaration.renameTable "album" "albums").named).filter fun x =>
        x.writtenName == "").map SchemaObject.computedName).Nodup := by decide +kernel
  have hrenamable : songDeclaration.Renamable "album" "albums" := {
    functions := by decide
    plain := by decide
    distinct := by decide +kernel
    source := by decide
    fresh := by decide
    plainTarget := by decide
    target_ne_empty := by decide
    written := by decide +kernel
    computed := fun x hx y hy hxw hyw => List.inj_on_of_nodup_map hnodup
      (List.mem_filter.2 ⟨hx, beq_iff_eq.2 hxw⟩) (List.mem_filter.2 ⟨hy, beq_iff_eq.2 hyw⟩) }
  exact ⟨declared, hregister, hrenamable, diff_rename_keeps_keys hregister hrenamable rfl rfl⟩

end Change

end SchemaPlan
