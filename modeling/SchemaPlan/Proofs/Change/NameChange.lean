import SchemaPlan.Proofs.Change.Renaming
import SchemaPlan.Proofs.Graph.NamedParts
import SchemaPlan.Proofs.Graph.RenamedTable
import SchemaPlan.Proofs.Graph.Substitution

/-!
# A confirmed rename as a change of names

`renameObject` looks at every pair of a renamed object and another one.  On the objects of a schema
all of this comes to new names, kind by kind.

* `afterRename_eq_rename`: what a rename makes of an object is the object with new names.
* `id_rename_naming`: its identity is the one that `SchemaObject.idAfter` says.
* `nodup_idAfter_of_kind`, `nodup_idAfter_table`: when identities do not collide.
-/

set_option autoImplicit false

namespace SchemaPlan

open Change (replaceName)

/-! ## Names and identities -/

namespace SchemaObject

/-- The names that the identity of an object is made of. -/
def ownNames : SchemaObject → List String
  | constraint c => [c.table, c.constraint.name]
  | trigger r => [r.table, r.name]
  | object => [object.id.name]

/-- An object whose names have no dot, so that they can be read off its identity. -/
def IsPlain (object : SchemaObject) : Prop :=
  ∀ name ∈ object.ownNames, '.' ∉ name.toList

instance (object : SchemaObject) : Decidable object.IsPlain :=
  inferInstanceAs (Decidable (∀ name ∈ object.ownNames, '.' ∉ name.toList))

/-- The name of an object; that of a constraint or trigger stands without its table. -/
def localName : SchemaObject → String
  | constraint c => c.constraint.name
  | trigger r => r.name
  | object => object.id.name

theorem localName_mem_ownNames (object : SchemaObject) : object.localName ∈ object.ownNames := by
  cases object with
  | constraint c => exact List.mem_cons_of_mem _ List.mem_cons_self
  | trigger r => exact List.mem_cons_of_mem _ List.mem_cons_self
  | _ => exact List.mem_cons_self

/-- The identity that an object has under another name. -/
def idWith (new : String) : SchemaObject → ObjectId
  | constraint c => .within .constraint c.table new
  | trigger r => .within .trigger r.table new
  | object => ⟨object.kind, new⟩

/-- The identity of an object once an object has another identity.  With a table its constraints
and triggers get other ones. -/
def idAfter (source target : ObjectId) (object : SchemaObject) : ObjectId :=
  if object.id = source then target
  else
    match object with
    | constraint c =>
      if ObjectId.table c.table = source then .within .constraint target.name c.constraint.name
      else object.id
    | trigger r =>
      if ObjectId.table r.table = source then .within .trigger target.name r.name else object.id
    | object => object.id

end SchemaObject

theorem ObjectId.kind_within (kind : ObjectKind) (table name : String) :
    (ObjectId.within kind table name).kind = kind :=
  rfl

/-- An identity once one is replaced by another. -/
def ObjectId.replace (id source target : ObjectId) : ObjectId :=
  if id = source then target else id

/-- The renaming that gives an object another name. -/
def SchemaObject.naming (new : String) : SchemaObject → Renaming
  | extension _ => {}
  | enum e => { enum := replaceName e.name new }
  | function f =>
    { function := replaceName f.name new
      listed := fun id => id.replace ⟨.function, f.name⟩ ⟨.function, new⟩ }
  | table t => { table := replaceName t.name new }
  | constraint c =>
    { constraint := fun table name =>
        if table = c.table then replaceName c.constraint.name new name else name }
  | index i => { index := replaceName i.name new }
  | trigger r =>
    { trigger := fun table name => if table = r.table then replaceName r.name new name else name }

namespace Change

variable {object subject : SchemaObject} {new : String}

/-! ## A rename of names -/

theorem renameEnum_eq_mapEnum (old new : String) (type : DataType) :
    type.renameEnum old new = type.mapEnum (replaceName old new) := by
  induction type with
  | enum name =>
    rw [DataType.renameEnum, DataType.mapEnum, replaceName]
    split <;> rfl
  | array element ih => rw [DataType.renameEnum, DataType.mapEnum, ih]
  | _ => rfl

/-- A name inside a table changes exactly when the identity does. -/
theorem replace_scoped (new : String) {kind : ObjectKind} {table name table' name' : String}
    (huniq : ObjectId.within kind table' name' = .within kind table name →
      table' = table ∧ name' = name) :
    (if table' = table then replaceName name new name' else name') =
      if ObjectId.within kind table' name' = .within kind table name then new else name' := by
  by_cases hid : ObjectId.within kind table' name' = .within kind table name
  · obtain ⟨rfl, rfl⟩ := huniq hid
    simp [replaceName]
  · have hname : table' = table → name' ≠ name := by
      rintro rfl rfl
      exact hid rfl
    rw [if_neg hid, replaceName]
    split_ifs with htable hold
    · exact absurd hold (hname htable)
    · rfl
    · rfl

section Kinds

open SchemaObject

theorem afterEnum_eq_rename (e : EnumType) (object : SchemaObject) :
    afterEnum (object.id == ⟨.enum, e.name⟩) e.name new object =
      object.rename ((enum e).naming new) := by
  cases object with
  | enum e' =>
    by_cases h : e'.name = e.name
    · simp [afterEnum, rename, naming, replaceName, SchemaObject.id, h]
    · simp [afterEnum, rename, naming, replaceName, SchemaObject.id, h]
  | table t => simp [afterEnum, rename, naming, renameEnum_eq_mapEnum]
  | _ => simp [afterEnum, rename, naming, ConstraintKind.mapTable_id]

theorem afterFunction_eq_rename (f : Function) (object : SchemaObject) :
    afterFunction ⟨.function, f.name⟩ ⟨.function, new⟩ (object.id == ⟨.function, f.name⟩) f.name new
        object = object.rename ((function f).naming new) := by
  cases object with
  | function f' =>
    simp [afterFunction, rename, naming, replaceName, SchemaObject.id, ObjectId.replace]
  | _ =>
    simp [afterFunction, rename, naming, Column.map_retyped_id, ConstraintKind.mapTable_id]

theorem afterConstraint_eq_rename {c : TableConstraint}
    (huniq : object.id = (constraint c).id → object = constraint c) :
    afterConstraint (object.id == (constraint c).id) (some c.table) c.constraint.name new object =
      object.rename ((constraint c).naming new) := by
  cases object with
  | constraint c' =>
    have hsame : _ = ite _ new c'.constraint.name := replace_scoped new fun hid => by
      cases huniq hid
      exact ⟨rfl, rfl⟩
    simp only [rename, naming, hsame, ConstraintKind.mapTable_id]
    simp only [afterConstraint, SchemaObject.id, beq_iff_eq]
    split <;> rfl
  | table t =>
    by_cases h : t.name = c.table
    · simp [afterConstraint, rename, naming, Column.map_retyped_id, h]
    · simp [afterConstraint, rename, naming, Column.map_retyped_id, h, Ne.symm h]
  | _ => simp [afterConstraint, rename, naming]

/-- **On the objects of a schema a rename is a renaming of names.** -/
theorem afterRename_eq_rename (hplain : subject.IsPlain) (hkind : subject.kind ≠ .extension)
    (huniq : object.id = subject.id → object = subject) :
    afterRename subject.id (subject.idWith new) subject.localName new object =
      object.rename (subject.naming new) := by
  cases subject with
  | extension e => exact absurd rfl hkind
  | enum e => exact afterEnum_eq_rename e object
  | function f => exact afterFunction_eq_rename f object
  | table t =>
    have hafter := afterRename_table t.name new object
    rw [renameTable_eq_rename] at hafter
    exact hafter
  | constraint c =>
    have hscope : (constraint c).id.tableScope? = some (c.table, c.constraint.name) :=
      ObjectId.tableScope?_within rfl (hplain _ List.mem_cons_self) _
    rw [← afterConstraint_eq_rename huniq]
    change afterConstraint _ ((constraint c).id.tableScope?.map Prod.fst) _ _ _ = _
    rw [hscope]
    rfl
  | index i =>
    cases object with
    | index i' =>
      by_cases h : i'.name = i.name
      · simp [afterRename, rename, naming, replaceName, SchemaObject.id, h]
      · simp [afterRename, rename, naming, replaceName, SchemaObject.id, h]
    | _ =>
      simp [afterRename, rename, naming, SchemaObject.id, Column.map_retyped_id,
        ConstraintKind.mapTable_id]
  | trigger r =>
    cases object with
    | trigger r' =>
      have hsame : _ = ite _ new r'.name := replace_scoped new fun hid => by
        cases huniq hid
        exact ⟨rfl, rfl⟩
      simp only [rename, naming, hsame]
      by_cases hid : ObjectId.within .trigger r'.table r'.name = .within .trigger r.table r.name
      · simp [afterRename, SchemaObject.id, ObjectId.kind_within, hid]
      · simp [afterRename, SchemaObject.id, ObjectId.kind_within, hid]
    | _ =>
      simp [afterRename, rename, naming, SchemaObject.id, ObjectId.kind_within,
        Column.map_retyped_id, ConstraintKind.mapTable_id]

end Kinds

/-- The names before and after the rename of a plain object. -/
theorem renamedNames_idWith (hplain : subject.IsPlain) :
    renamedNames subject.id (subject.idWith new) = .ok (subject.localName, new) := by
  cases subject with
  | constraint c =>
    have htable := hplain c.table List.mem_cons_self
    have hscope := @ObjectId.tableScope?_within .constraint c.table rfl htable
    simp [renamedNames, SchemaObject.id, SchemaObject.idWith, SchemaObject.localName, hscope]
  | trigger r =>
    have htable := hplain r.table List.mem_cons_self
    have hscope := @ObjectId.tableScope?_within .trigger r.table rfl htable
    simp [renamedNames, SchemaObject.id, SchemaObject.idWith, SchemaObject.localName, hscope]
  | _ => rfl

/-! ## Identities -/

theorem idAfter_of_kind {source target : ObjectId} (hkind : source.kind ≠ .table) :
    object.idAfter source target = object.id.replace source target := by
  have hne : ∀ table, ObjectId.table table ≠ source := by
    rintro table rfl
    exact hkind rfl
  cases object with
  | constraint c => simp [SchemaObject.idAfter, ObjectId.replace, hne]
  | trigger r => simp [SchemaObject.idAfter, ObjectId.replace, hne]
  | _ => rfl

theorem idAfter_table {old : String} :
    object.idAfter (.table old) (.table new) = (object.renameTable old new).id := by
  cases object with
  | table t =>
    by_cases h : t.name = old
    · simp [SchemaObject.idAfter, SchemaObject.renameTable, SchemaObject.id, replaceName, h]
    · simp [SchemaObject.idAfter, SchemaObject.renameTable, SchemaObject.id, replaceName,
        ObjectId.table, h]
  | constraint c =>
    by_cases h : c.table = old
    · simp [SchemaObject.idAfter, SchemaObject.renameTable, SchemaObject.id, replaceName,
        ObjectId.table, ObjectId.within, h]
    · simp [SchemaObject.idAfter, SchemaObject.renameTable, SchemaObject.id, replaceName,
        ObjectId.table, ObjectId.within, h]
  | trigger r =>
    by_cases h : r.table = old
    · simp [SchemaObject.idAfter, SchemaObject.renameTable, SchemaObject.id, replaceName,
        ObjectId.table, ObjectId.within, h]
    · simp [SchemaObject.idAfter, SchemaObject.renameTable, SchemaObject.id, replaceName,
        ObjectId.table, ObjectId.within, h]
  | _ => rfl

theorem id_rename_self (hkind : subject.kind ≠ .extension) :
    (subject.rename (subject.naming new)).id = subject.idWith new := by
  cases subject with
  | extension e => exact absurd rfl hkind
  | _ => simp [SchemaObject.rename, SchemaObject.naming, SchemaObject.id, SchemaObject.idWith,
      replaceName, SchemaObject.kind, ObjectId.table]

theorem id_rename_of_ne (hne : object.id ≠ subject.id) (hkind : subject.kind ≠ .table) :
    (object.rename (subject.naming new)).id = object.id := by
  have hname : ∀ {old name : String}, name ≠ old → replaceName old new name = name :=
    fun h => if_neg h
  cases subject with
  | extension e => cases object <;> rfl
  | enum e =>
    cases object with
    | enum e' =>
      have hold : e'.name ≠ e.name := fun h => hne (congrArg (ObjectId.mk .enum) h)
      exact congrArg (ObjectId.mk .enum) (hname hold)
    | _ => rfl
  | function f =>
    cases object with
    | function f' =>
      have hold : f'.name ≠ f.name := fun h => hne (congrArg (ObjectId.mk .function) h)
      exact congrArg (ObjectId.mk .function) (hname hold)
    | _ => rfl
  | table t => exact absurd rfl hkind
  | constraint c =>
    cases object with
    | constraint c' =>
      have hsame := (replace_scoped new fun hid => absurd hid hne).trans (if_neg hne)
      exact congrArg (ObjectId.within .constraint c'.table) hsame
    | _ => rfl
  | index i =>
    cases object with
    | index i' =>
      have hold : i'.name ≠ i.name := fun h => hne (congrArg (ObjectId.mk .index) h)
      exact congrArg (ObjectId.mk .index) (hname hold)
    | _ => rfl
  | trigger r =>
    cases object with
    | trigger r' =>
      have hsame := (replace_scoped new fun hid => absurd hid hne).trans (if_neg hne)
      exact congrArg (ObjectId.within .trigger r'.table) hsame
    | _ => rfl

/-- **Renaming names changes identities as it should.** -/
theorem id_rename_naming (hkind : subject.kind ≠ .extension)
    (huniq : object.id = subject.id → object = subject) :
    (object.rename (subject.naming new)).id = object.idAfter subject.id (subject.idWith new) := by
  by_cases htable : subject.kind = .table
  · cases subject with
    | table t =>
      rw [SchemaObject.naming, ← SchemaObject.renameTable_eq_rename]
      exact idAfter_table.symm
    | _ => cases htable
  · rw [idAfter_of_kind (subject.kind_id ▸ htable), ObjectId.replace]
    by_cases hid : object.id = subject.id
    · rw [if_pos hid, huniq hid, id_rename_self hkind]
    · rw [if_neg hid, id_rename_of_ne hid htable]

/-- No object keeps the old identity. -/
theorem idAfter_ne {source target : ObjectId} (hne : target ≠ source) :
    object.idAfter source target ≠ source := by
  unfold SchemaObject.idAfter
  split
  · exact hne
  · rename_i hid
    split
    · split
      · rename_i htable
        rw [← htable]
        exact ne_of_apply_ne ObjectId.kind (by rintro ⟨⟩)
      · exact hid
    · split
      · rename_i htable
        rw [← htable]
        exact ne_of_apply_ne ObjectId.kind (by rintro ⟨⟩)
      · exact hid
    · exact hid

/-! ## Collisions -/

/-- Identities do not collide when the new one is free, unless it is one of a table. -/
theorem nodup_idAfter_of_kind {objects : List SchemaObject} {source target : ObjectId}
    (hnodup : (objects.map SchemaObject.id).Nodup) (hfree : target ∉ objects.map SchemaObject.id)
    (hkind : source.kind ≠ .table) : (objects.map (SchemaObject.idAfter source target)).Nodup := by
  refine List.Nodup.map_on (fun a ha b hb heq => List.inj_on_of_nodup_map hnodup ha hb ?_)
    (List.Nodup.of_map _ hnodup)
  rw [idAfter_of_kind hkind, idAfter_of_kind hkind, ObjectId.replace, ObjectId.replace] at heq
  have hmem : ∀ {x : SchemaObject}, x ∈ objects → x.id ≠ target := fun hx hid =>
    hfree (hid ▸ List.mem_map_of_mem hx)
  split_ifs at heq with hsa hsb hsb
  · rw [hsa, hsb]
  · exact absurd heq.symm (hmem hb)
  · exact absurd heq (hmem ha)
  · exact heq

section Tables

variable {kind : ObjectKind} {old table name table' name' : String}

/-- An identity with one dot is made of one table and one name. -/
theorem within_inj_of_plain (hkind : kind.isTableScoped = true) (htable : '.' ∉ table.toList)
    (hname : '.' ∉ name.toList) (h : ObjectId.within kind table' name' = .within kind table name) :
    table' = table ∧ name' = name := by
  have htext : table' ++ "." ++ name' = table ++ "." ++ name := congrArg ObjectId.name h
  have hdots := congrArg (fun text : String => text.toList.count '.') htext
  have htable' : '.' ∉ table'.toList := by
    rw [← List.count_eq_zero] at htable hname ⊢
    simp only [String.toList_append, List.count_append] at hdots
    omega
  exact ObjectId.within_inj hkind htable' htable h

/-- Constraints and triggers that have one identity after the rename of a table had one before. -/
theorem within_replaceName_inj (hkind : kind.isTableScoped = true) (hnew : '.' ∉ new.toList)
    (htable : table ≠ new) (htable' : table' ≠ new) (hname : table = old → '.' ∉ name.toList)
    (hname' : table' = old → '.' ∉ name'.toList)
    (h : ObjectId.within kind (replaceName old new table) name =
      .within kind (replaceName old new table') name') :
    ObjectId.within kind table name = .within kind table' name' := by
  unfold replaceName at h
  split_ifs at h with hold hold' hold'
  · rw [hold, hold', (ObjectId.within_inj hkind hnew hnew h).2]
  · exact absurd (within_inj_of_plain hkind hnew (hname hold) h.symm).1 htable'
  · exact absurd (within_inj_of_plain hkind hnew (hname' hold') h).1 htable
  · exact h

open SchemaObject in
/-- The new name of a table makes no identities collide when neither it nor a name of what belongs
to the table has a dot. -/
theorem nodup_idAfter_table {objects : List SchemaObject}
    (hnodup : (objects.map SchemaObject.id).Nodup)
    (hnames : ∀ part ∈ objects, ∀ table ∈ part.tableNames, table ≠ new) (hnew : '.' ∉ new.toList)
    (hplain : ∀ part ∈ objects, part.kind.isTableScoped = true → part.owningTable? = some old →
      part.IsPlain) :
    (objects.map (SchemaObject.idAfter (.table old) (.table new))).Nodup := by
  refine List.Nodup.map_on (fun a ha b hb heq => List.inj_on_of_nodup_map hnodup ha hb ?_)
    (List.Nodup.of_map _ hnodup)
  rw [idAfter_table, idAfter_table] at heq
  have hlocal : ∀ part ∈ objects, part.kind.isTableScoped = true →
      part.owningTable? = some old → '.' ∉ part.localName.toList :=
    fun part hpart hkind howner => hplain part hpart hkind howner _ part.localName_mem_ownNames
  cases a with
  | table t =>
    cases b with
    | table t' =>
      have hback := congrArg (replaceName new old) (congrArg ObjectId.name heq)
      have ht := @replaceName_back old new t.name (hnames _ ha _ (List.mem_singleton_self _))
      have ht' := @replaceName_back old new t'.name (hnames _ hb _ (List.mem_singleton_self _))
      exact congrArg ObjectId.table (ht.symm.trans (hback.trans ht'))
    | _ => cases congrArg ObjectId.kind heq
  | constraint c =>
    cases b with
    | constraint c' =>
      refine within_replaceName_inj rfl hnew (hnames _ ha _ List.mem_cons_self)
        (hnames _ hb _ List.mem_cons_self) (fun hold => ?_) (fun hold => ?_) heq
      · exact hlocal _ ha rfl (congrArg some hold)
      · exact hlocal _ hb rfl (congrArg some hold)
    | _ => cases congrArg ObjectId.kind heq
  | trigger r =>
    cases b with
    | trigger r' =>
      refine within_replaceName_inj rfl hnew (hnames _ ha _ List.mem_cons_self)
        (hnames _ hb _ List.mem_cons_self) (fun hold => ?_) (fun hold => ?_) heq
      · exact hlocal _ ha rfl (congrArg some hold)
      · exact hlocal _ hb rfl (congrArg some hold)
    | _ => cases congrArg ObjectId.kind heq
  | _ =>
    cases b with
    | table _ => cases congrArg ObjectId.kind heq
    | constraint _ => cases congrArg ObjectId.kind heq
    | trigger _ => cases congrArg ObjectId.kind heq
    | _ => exact heq

end Tables

/-! ## Names -/

open SchemaObject in
/-- Objects with names have names afterwards. -/
theorem withName_rename (hnew : subject.kind.hasComputedName = true → new ≠ "")
    (h : object.withName = object) :
    (object.rename (subject.naming new)).withName = object.rename (subject.naming new) := by
  have hconstraint : ∀ {table name : String}, name ≠ "" →
      (subject.naming new).constraint table name ≠ "" := by
    intro table name hname
    cases subject with
    | constraint c =>
      simp only [naming]
      split_ifs
      · exact replaceName_ne_empty (hnew rfl) hname
      · exact hname
    | _ => exact hname
  have hindex : ∀ {name : String}, name ≠ "" → (subject.naming new).index name ≠ "" := by
    intro name hname
    cases subject with
    | index i => exact replaceName_ne_empty (hnew rfl) hname
    | _ => exact hname
  rw [withName_eq_self_iff] at h ⊢
  cases object with
  | table t =>
    refine List.forall_mem_map.2 (List.forall_mem_map.2 fun c hc => ?_)
    exact hconstraint (h _ (List.mem_map_of_mem hc))
  | constraint c =>
    exact List.forall_mem_singleton.2 (hconstraint (h _ (List.mem_singleton_self _)))
  | index i => exact List.forall_mem_singleton.2 (hindex (h _ (List.mem_singleton_self _)))
  | _ => exact fun name hname => absurd hname List.not_mem_nil

end Change

end SchemaPlan
