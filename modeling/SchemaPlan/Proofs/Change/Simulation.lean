import Mathlib.Logic.Function.Basic
import SchemaPlan.Change.Apply
import SchemaPlan.Proofs.Change.Deeds
import SchemaPlan.Proofs.Graph.Registration

/-!
# Running a schedule

A list of objects with distinct identities is a finite map, and an operation changes that map at
one identity.  So the runs of the steps of different objects do not meet.

* `Acts` says what an operation does at an identity; all other objects stay as they are.
* `acts_create`, `acts_drop` and `acts_alter`: what creating, dropping and altering do.
* `run_of_leads`: a schedule runs through when for each object its own steps do, one by one.
-/

set_option autoImplicit false

namespace SchemaPlan

/-- A change of an object in place: it adds or drops no foreign key, and a function keeps its
name. -/
def AlterChange.InPlace (id : ObjectId) : AlterChange → Prop
  | .addConstraint constraint | .dropConstraint constraint =>
    constraint.kind.isForeignKey = false
  | .replaceFunction function => (⟨.function, function.name⟩ : ObjectId) = id
  | _ => True

namespace Change

/-! ## Lists of objects as maps -/

/-- A list of objects with distinct identities, seen as a map. -/
structure Represents (objects : List SchemaObject) (state : ObjectId → Option SchemaObject) :
    Prop where
  nodup : (objects.map SchemaObject.id).Nodup
  mem_iff : ∀ id object, state id = some object ↔ object ∈ objects ∧ object.id = id

section Represents

variable {objects : List SchemaObject} {state : ObjectId → Option SchemaObject}
  {object : SchemaObject} {id : ObjectId}

theorem represents_graph (graph : SchemaGraph) : Represents graph.objects graph.get? where
  nodup := by
    rw [graph.map_id_objects]
    exact graph.nodup_ids
  mem_iff _ _ := SchemaGraph.get?_eq_some_iff

theorem Represents.id_eq (h : Represents objects state) (hobject : state id = some object) :
    object.id = id :=
  ((h.mem_iff id object).1 hobject).2

theorem Represents.mem (h : Represents objects state) (hobject : state id = some object) :
    object ∈ objects :=
  ((h.mem_iff id object).1 hobject).1

/-- A map knows its objects up to their order. -/
theorem Represents.perm {others : List SchemaObject} (h : Represents objects state)
    (hothers : Represents others state) : objects.Perm others := by
  refine (List.perm_ext_iff_of_nodup (List.Nodup.of_map _ h.nodup)
    (List.Nodup.of_map _ hothers.nodup)).2 fun object => ?_
  have hleft := h.mem_iff object.id object
  have hright := hothers.mem_iff object.id object
  simp only [and_true] at hleft hright
  rw [← hleft, hright]

/-- A graph with the objects of a map looks them up as the map does. -/
theorem Represents.get?_eq {graph : SchemaGraph} (h : Represents objects state)
    (hperm : objects.Perm graph.objects) : graph.get? = state := by
  funext id
  refine Option.ext fun object => ?_
  rw [SchemaGraph.get?_eq_some_iff, h.mem_iff, hperm.mem_iff]

theorem Represents.eq_none_iff (h : Represents objects state) :
    state id = none ↔ id ∉ objects.map SchemaObject.id := by
  rw [Option.eq_none_iff_forall_ne_some, List.mem_map]
  constructor
  · rintro hnone ⟨object, hmem, hid⟩
    exact hnone object ((h.mem_iff id object).2 ⟨hmem, hid⟩)
  · intro hno object hobject
    exact hno ⟨object, (h.mem_iff id object).1 hobject⟩

/-- An object with a new identity comes. -/
theorem Represents.append (h : Represents objects state) (hnone : state object.id = none) :
    Represents (objects ++ [object]) (Function.update state object.id (some object)) := by
  have hfresh := h.eq_none_iff.1 hnone
  constructor
  · rw [List.map_append, List.map_singleton, List.nodup_append]
    refine ⟨h.nodup, List.nodup_singleton _, fun a ha b hb heq => ?_⟩
    rw [List.mem_singleton.1 hb] at heq
    exact hfresh (heq ▸ ha)
  · intro id other
    rw [List.mem_append, List.mem_singleton]
    by_cases hid : id = object.id
    · subst hid
      rw [Function.update_self, Option.some.injEq]
      constructor
      · rintro rfl
        exact ⟨.inr rfl, rfl⟩
      · rintro ⟨hmem | rfl, hid⟩
        · exact absurd (hid ▸ List.mem_map_of_mem hmem) hfresh
        · rfl
    · rw [Function.update_of_ne hid, h.mem_iff]
      constructor
      · rintro ⟨hmem, rfl⟩
        exact ⟨.inl hmem, rfl⟩
      · rintro ⟨hmem | rfl, rfl⟩
        · exact ⟨hmem, rfl⟩
        · exact absurd rfl hid

/-- An object goes. -/
theorem Represents.erase (h : Represents objects state) (hobject : state id = some object) :
    ∃ rest, removeObject? objects id = some rest ∧
      Represents rest (Function.update state id none) := by
  have hmem := h.mem hobject
  have hid := h.id_eq hobject
  have hany : (objects.any fun other => other.id == id) = true :=
    List.any_eq_true.2 ⟨object, hmem, beq_iff_eq.2 hid⟩
  obtain ⟨found, front, back, hfront, hfound, hsplit, herase⟩ :=
    List.exists_of_eraseP hmem (p := fun other => other.id == id) (beq_iff_eq.2 hid)
  rw [beq_iff_eq] at hfound
  refine ⟨_, by rw [removeObject?, if_pos hany], ?_⟩
  rw [herase]
  have hnodup := h.nodup
  rw [hsplit, List.map_append, List.map_cons] at hnodup
  have hperm : (found.id :: (front ++ back).map SchemaObject.id).Nodup := by
    rw [List.map_append]
    exact List.perm_middle.nodup_iff.1 hnodup
  obtain ⟨hgone, hrest⟩ := List.nodup_cons.1 hperm
  refine ⟨hrest, fun other candidate => ?_⟩
  by_cases hother : other = id
  · subst hother
    rw [Function.update_self]
    constructor
    · intro hnone
      cases hnone
    · rintro ⟨hmem, hcandidate⟩
      refine absurd ?_ hgone
      rw [hfound, ← hcandidate]
      exact List.mem_map_of_mem hmem
  · rw [Function.update_of_ne hother, h.mem_iff, hsplit, List.mem_append, List.mem_append,
      List.mem_cons]
    constructor
    · rintro ⟨hmem | rfl | hmem, rfl⟩
      · exact ⟨.inl hmem, rfl⟩
      · exact absurd hfound hother
      · exact ⟨.inr hmem, rfl⟩
    · rintro ⟨hmem | hmem, rfl⟩
      · exact ⟨.inl hmem, rfl⟩
      · exact ⟨.inr (.inr hmem), rfl⟩

theorem updateObject_eq_some {change : SchemaObject → Option SchemaObject} {changed : SchemaObject}
    (hmem : object ∈ objects) (hnodup : (objects.map SchemaObject.id).Nodup)
    (hid : object.id = id) (hchange : change object = some changed) :
    updateObject objects id change =
      some (objects.map fun other => if other.id = id then changed else other) := by
  induction objects with
  | nil => cases hmem
  | cons first rest ih =>
    rw [List.map_cons, List.nodup_cons] at hnodup
    rw [updateObject, List.map_cons]
    rcases List.mem_cons.1 hmem with rfl | hmem
    · rw [if_pos hid, if_pos hid, hchange, Option.map_some]
      congr 2
      refine (List.map_id' rest).symm.trans (List.map_congr_left fun other hother => ?_)
      rw [if_neg]
      intro heq
      exact hnodup.1 (hid ▸ heq ▸ List.mem_map_of_mem hother)
    · have hfirst : first.id ≠ id := by
        intro heq
        exact hnodup.1 (heq ▸ hid ▸ List.mem_map_of_mem hmem)
      rw [if_neg hfirst, if_neg hfirst, ih hmem hnodup.2, Option.map_some]

/-- An object changes and keeps its identity. -/
theorem Represents.change (h : Represents objects state) (hobject : state id = some object)
    {change : SchemaObject → Option SchemaObject} {changed : SchemaObject}
    (hchange : change object = some changed) (hid : changed.id = id) :
    ∃ others, updateObject objects id change = some others ∧
      Represents others (Function.update state id (some changed)) := by
  refine ⟨_, updateObject_eq_some (h.mem hobject) h.nodup (h.id_eq hobject) hchange, ?_, ?_⟩
  · have hids : (objects.map fun other => if other.id = id then changed else other).map
        SchemaObject.id = objects.map SchemaObject.id := by
      rw [List.map_map]
      refine List.map_congr_left fun other _ => ?_
      rw [Function.comp]
      split
      · rename_i heq
        rw [hid, heq]
      · rfl
    rw [hids]
    exact h.nodup
  · intro other candidate
    simp only [List.mem_map]
    by_cases hother : other = id
    · subst hother
      rw [Function.update_self, Option.some.injEq]
      constructor
      · rintro rfl
        exact ⟨⟨object, h.mem hobject, if_pos (h.id_eq hobject)⟩, hid⟩
      · rintro ⟨⟨found, hfound, heq⟩, hcandidate⟩
        split at heq
        · exact heq
        · rename_i hne
          exact absurd (heq ▸ hcandidate) hne
    · rw [Function.update_of_ne hother, h.mem_iff]
      constructor
      · rintro ⟨hmem, rfl⟩
        exact ⟨⟨candidate, hmem, if_neg hother⟩, rfl⟩
      · rintro ⟨⟨found, hfound, heq⟩, rfl⟩
        split at heq
        · rw [← heq, hid] at hother
          exact absurd rfl hother
        · rw [← heq]
          exact ⟨hfound, rfl⟩

end Represents

/-! ## What operations do -/

/-- An operation turns one definition of an identity into another and leaves all other identities
alone, whatever objects there are. -/
def Acts (operation : Operation) (id : ObjectId) (before after : Option SchemaObject) : Prop :=
  ∀ objects state, Represents objects state → state id = before →
    ∃ objects', run objects operation = .ok objects' ∧
      Represents objects' (Function.update state id after)

theorem acts_create {object : SchemaObject} (h : object.StandsAlone) :
    Acts (createOperation object) object.id none (some object) := by
  intro objects state hstate hnone
  refine ⟨objects ++ [object], ?_, hstate.append hnone⟩
  have hfresh : ¬(objects.any fun other => other.id == object.id) = true := by
    intro hany
    obtain ⟨other, hmem, hid⟩ := List.any_eq_true.1 hany
    exact hstate.eq_none_iff.1 hnone (beq_iff_eq.1 hid ▸ List.mem_map_of_mem hmem)
  cases object with
  | constraint c =>
    have hforeign : c.constraint.kind.isForeignKey = true := h
    simp only [createOperation, run, List.foldlM_cons, List.foldlM_nil, alter]
    rw [if_pos hforeign]
    rfl
  | _ => simp only [createOperation, run, if_neg hfresh]

theorem acts_drop {object existing : SchemaObject} (h : object.StandsAlone) :
    Acts (dropOperation object) object.id (some existing) none := by
  intro objects state hstate hexisting
  obtain ⟨rest, hremove, hrest⟩ := hstate.erase hexisting
  refine ⟨rest, ?_, hrest⟩
  cases object with
  | constraint c =>
    have hremove' : removeObject? objects
        (.within .constraint (ObjectId.table c.table).name c.constraint.name) = some rest := hremove
    have hforeign : c.constraint.kind.isForeignKey = true := h
    simp only [dropOperation, run, List.foldlM_cons, List.foldlM_nil, alter, hremove']
    rw [if_pos hforeign]
    rfl
  | _ => simp only [dropOperation, run, hremove]

/-- A change of an object in place is the one of `alterObject?`. -/
theorem alter_of_updateObject {objects others : List SchemaObject} {id : ObjectId}
    {change : AlterChange} (hplace : change.InPlace id)
    (hrename : ∀ source target, change ≠ .renameColumn source target)
    (h : updateObject objects id (alterObject? change) = some others) :
    alter objects id change = .ok others := by
  cases change with
  | renameColumn source target => exact absurd rfl (hrename source target)
  | addConstraint constraint =>
    rw [AlterChange.InPlace] at hplace
    simp only [alter, hplace, Bool.false_eq_true, if_false, h]
  | dropConstraint constraint =>
    rw [AlterChange.InPlace] at hplace
    simp only [alter, hplace, Bool.false_eq_true, if_false, h]
  | _ => simp only [alter, h]

theorem alter_eq_ok {objects : List SchemaObject} {state : ObjectId → Option SchemaObject}
    {id : ObjectId} {object changed : SchemaObject} {change : AlterChange}
    (hstate : Represents objects state) (hobject : state id = some object)
    (hplace : change.InPlace id) (hchange : alterObject? change object = some changed)
    (hid : changed.id = id) : ∃ objects', alter objects id change = .ok objects' ∧
      Represents objects' (Function.update state id (some changed)) := by
  obtain ⟨others, hothers, hrepresents⟩ := hstate.change hobject hchange hid
  refine ⟨others, alter_of_updateObject hplace ?_ hothers, hrepresents⟩
  rintro source target rfl
  cases object <;> cases hchange

/-- An object after a list of changes; none when one of them does not fit. -/
def alterAll? (changes : List AlterChange) (object : SchemaObject) : Option SchemaObject :=
  changes.foldlM (fun object change => alterObject? change object) object

theorem name_of_alterTable? {table changed : Table} {change : AlterChange}
    (h : alterTable? table change = some changed) : changed.name = table.name := by
  have hcolumn : ∀ {name : String} {f : Column → Column},
      table.updateColumn? name f = some changed → changed.name = table.name := by
    intro name f hupdate
    rw [Table.updateColumn?] at hupdate
    split at hupdate
    · cases hupdate
    · cases hupdate
      rfl
  cases change with
  | alterColumnType | setNullable | setDefault | setColumnComment => exact hcolumn h
  | dropColumn =>
    rw [alterTable?] at h
    split at h
    · cases h
    · cases h
      rfl
  | addColumn | addConstraint | dropConstraint | setComment =>
    cases h
    rfl
  | renameColumn | addEnumLabel | replaceFunction => cases h

theorem id_of_alterObject? {id : ObjectId} {object changed : SchemaObject} {change : AlterChange}
    (hid : object.id = id) (hplace : change.InPlace id)
    (h : alterObject? change object = some changed) : changed.id = id := by
  cases object with
  | enum type =>
    cases change with
    | addEnumLabel label position =>
      obtain ⟨labels, -, rfl⟩ := Option.map_eq_some_iff.1 h
      exact hid
    | _ => cases h
  | function function =>
    cases change with
    | replaceFunction replacement =>
      cases h
      exact hplace
    | _ => cases h
  | table t =>
    obtain ⟨changedTable, hchanged, rfl⟩ := Option.map_eq_some_iff.1 h
    rw [SchemaObject.id, name_of_alterTable? hchanged]
    exact hid
  | _ => cases h

theorem id_of_alterAll? {id : ObjectId} {object changed : SchemaObject}
    {changes : List AlterChange} (hid : object.id = id)
    (hplace : ∀ change ∈ changes, change.InPlace id)
    (h : alterAll? changes object = some changed) : changed.id = id := by
  induction changes generalizing object with
  | nil =>
    cases h
    exact hid
  | cons change changes ih =>
    rw [alterAll?, List.foldlM_cons] at h
    obtain ⟨next, hnext, h⟩ := Option.bind_eq_some_iff.1 h
    obtain ⟨hfirst, hrest⟩ := List.forall_mem_cons.1 hplace
    exact ih (id_of_alterObject? hid hfirst hnext) hrest h

/-- **Altering an object changes it as its changes say**, one after the other. -/
theorem acts_alter {id : ObjectId} {object changed : SchemaObject} {changes : List AlterChange}
    (hid : object.id = id) (hplace : ∀ change ∈ changes, change.InPlace id)
    (h : alterAll? changes object = some changed) :
    Acts (.alter id changes) id (some object) (some changed) := by
  intro objects state hstate hobject
  rw [run]
  induction changes generalizing objects state object with
  | nil =>
    cases h
    rw [← hobject, Function.update_eq_self]
    exact ⟨objects, rfl, hstate⟩
  | cons change changes ih =>
    rw [alterAll?, List.foldlM_cons] at h
    obtain ⟨next, hnext, h⟩ := Option.bind_eq_some_iff.1 h
    obtain ⟨hfirst, hrest⟩ := List.forall_mem_cons.1 hplace
    have hnextId := id_of_alterObject? hid hfirst hnext
    obtain ⟨objects', hrun, hstate'⟩ := alter_eq_ok hstate hobject hfirst hnext hnextId
    obtain ⟨final, hfinal, hrepresents⟩ :=
      ih hnextId hrest h objects' _ hstate' (Function.update_self _ _ _)
    rw [Function.update_idem] at hrepresents
    refine ⟨final, ?_, hrepresents⟩
    rw [List.foldlM_cons, hrun]
    exact hfinal

/-! ## Schedules -/

/-- Operations on one identity lead from one definition to another. -/
def Leads : List Operation → ObjectId → Option SchemaObject → Option SchemaObject → Prop
  | [], _, before, after => before = after
  | operation :: rest, id, before, after =>
    ∃ between, Acts operation id before between ∧ Leads rest id between after

theorem leads_singleton {operation : Operation} {id : ObjectId}
    {before after : Option SchemaObject} (h : Acts operation id before after) :
    Leads [operation] id before after :=
  ⟨after, h, rfl⟩

theorem Leads.append {first second : List Operation} {id : ObjectId}
    {before between after : Option SchemaObject} (h : Leads first id before between)
    (h' : Leads second id between after) : Leads (first ++ second) id before after := by
  induction first generalizing before with
  | nil =>
    rw [h]
    exact h'
  | cons operation rest ih =>
    obtain ⟨next, hacts, hrest⟩ := h
    exact ⟨next, hacts, ih hrest⟩

theorem leads_alter {id : ObjectId} {object changed : SchemaObject} {changes : List AlterChange}
    (phase : Phase) (hid : object.id = id) (hplace : ∀ change ∈ changes, change.InPlace id)
    (h : alterAll? changes object = some changed) :
    Leads ((if changes.isEmpty then [] else [(phase, Operation.alter id changes)]).map Prod.snd) id
      (some object) (some changed) := by
  cases changes with
  | nil =>
    cases h
    rfl
  | cons => exact leads_singleton (acts_alter hid hplace h)

/-- An alteration in two parts leads over the definition between them. -/
theorem leads_alterations {id : ObjectId} {object between changed : SchemaObject}
    {removals additions : List AlterChange} (hid : object.id = id)
    (hplace : ∀ change ∈ removals ++ additions, change.InPlace id)
    (hremovals : alterAll? removals object = some between)
    (hadditions : alterAll? additions between = some changed) :
    Leads ((alterations id removals additions).map Prod.snd) id (some object) (some changed) := by
  obtain ⟨hfirst, hsecond⟩ := List.forall_mem_append.1 hplace
  rw [alterations, List.map_append]
  exact (leads_alter .removal hid hfirst hremovals).append
    (leads_alter .addition (id_of_alterAll? hid hfirst hremovals) hsecond hadditions)

/-- **A schedule runs through when for each object its own deeds do**, and the definition to which
they lead is the one that is left. -/
theorem run_of_leads {schedule : List Step} {final : ObjectId → Option SchemaObject} :
    ∀ {objects : List SchemaObject} {state : ObjectId → Option SchemaObject},
      Represents objects state →
      (∀ id, Leads ((deeds schedule id).map Prod.snd) id (state id) (final id)) →
      ∃ objects', (schedule.map Step.operation).foldlM run objects = .ok objects' ∧
        Represents objects' final := by
  induction schedule with
  | nil =>
    intro objects state hstate hleads
    obtain rfl : state = final := funext hleads
    exact ⟨objects, rfl, hstate⟩
  | cons step schedule ih =>
    intro objects state hstate hleads
    have hstep := hleads step.subject
    rw [deeds, List.filter_cons, if_pos (beq_self_eq_true _), List.map_cons] at hstep
    obtain ⟨between, hacts, hrest⟩ := hstep
    obtain ⟨objects', hrun, hstate'⟩ := hacts objects state hstate rfl
    obtain ⟨final, hfinal, hrepresents⟩ := ih hstate' fun id => by
      by_cases hid : id = step.subject
      · subst hid
        rw [Function.update_self]
        exact hrest
      · have hother := hleads id
        rw [deeds, List.filter_cons, if_neg (by simpa using Ne.symm hid)] at hother
        rw [Function.update_of_ne hid]
        exact hother
    refine ⟨final, ?_, hrepresents⟩
    rw [List.map_cons, List.foldlM_cons, hrun]
    exact hfinal

/-- The run of a change set, when for each object its deeds run through. -/
theorem IsSchedule.exists_run {options : DiffOptions} {declared live : SchemaGraph}
    {changes : ChangeSet} {orders : Orders} {recreated : List ObjectId} {schedule : List Step}
    (h : IsSchedule options declared live changes orders recreated schedule)
    (graph : SchemaGraph) (final : ObjectId → Option SchemaObject)
    (hleads : ∀ id, Leads ((deeds schedule id).map Prod.snd) id (graph.get? id) (final id)) :
    ∃ objects, changes.operations.foldlM run graph.objects = .ok objects ∧
      Represents objects final := by
  rw [h.operations]
  exact run_of_leads (represents_graph graph) hleads

end Change

end SchemaPlan
