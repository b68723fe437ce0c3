import SchemaPlan.Graph.Registration
import SchemaPlan.Proofs.Graph.Basic
import SchemaPlan.Proofs.Outcome

/-!
# What registration leaves

Registration turns any list of objects into one that it would leave as it is: split, named, with
resolved types, checked and in order.  `Settled` says this of a list.

* `settled_of_register`: the objects of a registered graph are settled, and the graph is the one
  that they determine.
* `register_of_perm`: registering settled objects in any order gives that graph.
* `register_eq_ok_of_parts_perm`: sources with the same parts are registered alike.
-/

set_option autoImplicit false

namespace SchemaPlan

/-! ## Passes that change nothing a second time -/

namespace DataType

theorem resolveEnums_resolveEnums (isEnum : String → Bool) (type : DataType) :
    (type.resolveEnums isEnum).resolveEnums isEnum = type.resolveEnums isEnum := by
  induction type with
  | custom name =>
    by_cases h : isEnum name = true
    · simp only [resolveEnums, h, if_true]
    · simp only [resolveEnums, h, Bool.false_eq_true, if_false]
  | array element ih => simp only [resolveEnums, ih]
  | _ => rfl

end DataType

namespace Naming

theorem tagged_ne_empty {tag : String} (h : tag ≠ "") (table : String) (parts : List String) :
    tagged tag table parts ≠ "" := by
  intro heq
  have := congrArg String.toList heq
  simp only [tagged, String.toList_append, String.toList_empty, List.append_eq_nil_iff] at this
  exact h (String.toList_eq_nil_iff.1 this.1)

end Naming

namespace Constraint

theorem computedName_ne_empty (kind : ConstraintKind) (table : String) :
    kind.computedName table ≠ "" :=
  Naming.tagged_ne_empty (by cases kind <;> simp [ConstraintKind.tag]) _ _

theorem withName_kind (constraint : Constraint) (table : String) :
    (constraint.withName table).kind = constraint.kind := by
  rw [withName]
  split <;> rfl

theorem withName_withName (constraint : Constraint) (table : String) :
    (constraint.withName table).withName table = constraint.withName table := by
  by_cases h : constraint.name = ""
  · have hne := computedName_ne_empty constraint.kind table
    rw [withName, withName, if_pos h, if_neg hne]
  · have hsame : constraint.withName table = constraint := if_neg h
    rw [hsame, hsame]

end Constraint

namespace SchemaObject

/-- A list of the object alone is what splitting it gives. -/
theorem parts_of_mem_parts {object part : SchemaObject} (h : part ∈ object.parts) :
    part.parts = [part] := by
  cases object with
  | table t =>
    simp only [parts, List.mem_cons, List.mem_append, List.mem_map] at h
    rcases h with rfl | (⟨_, _, rfl⟩ | ⟨_, _, rfl⟩) | ⟨_, _, rfl⟩
    · simp [parts, Table.bare, Table.foreignKeys, Table.ownIndexes, Table.ownTriggers,
        List.filter_filter]
    all_goals rfl
  | _ =>
    simp only [parts, List.mem_singleton] at h
    rw [h]
    rfl

theorem table_parts_iff {t : Table} : (SchemaObject.table t).parts = [.table t] ↔
    (∀ c ∈ t.constraints, c.kind.isForeignKey = false) ∧ t.indexes = [] ∧ t.triggers = [] := by
  constructor
  · intro h
    simp only [parts, List.cons.injEq, table.injEq] at h
    have hbare := h.1
    rw [Table.bare] at hbare
    refine ⟨fun c hc => ?_, ?_, ?_⟩
    · rw [← hbare] at hc
      simpa using (List.mem_filter.1 hc).2
    · rw [← hbare]
    · rw [← hbare]
  · rintro ⟨hc, hi, ht⟩
    have hinline : t.constraints.filter (fun c => !c.kind.isForeignKey) = t.constraints :=
      List.filter_eq_self.2 fun c h => by simp [hc c h]
    have hforeign : t.constraints.filter (fun c => c.kind.isForeignKey) = [] :=
      List.filter_eq_nil_iff.2 fun c h => by simp [hc c h]
    simp [parts, Table.bare, Table.foreignKeys, Table.ownIndexes, Table.ownTriggers, hinline,
      hforeign, hi, ht]
    cases t
    simp_all

theorem flatMap_parts {objects : List SchemaObject} (h : ∀ object ∈ objects, object.parts = [object]) :
    objects.flatMap parts = objects := by
  rw [List.flatMap_congr (g := fun object => [object]) h]
  exact List.flatMap_singleton' objects

theorem withName_withName (object : SchemaObject) : object.withName.withName = object.withName := by
  cases object with
  | table t =>
    simp only [withName, List.map_map, table.injEq]
    congr 1
    exact List.map_congr_left fun c _ => Constraint.withName_withName c t.name
  | constraint c => simp only [withName, Constraint.withName_withName]
  | index i =>
    by_cases h : i.name = ""
    · have hne : i.computedName ≠ "" := Naming.tagged_ne_empty (by decide) _ _
      simp only [withName, h, if_true, hne, if_false]
    · simp only [withName, h, if_false]
  | _ => rfl

theorem parts_withName {object : SchemaObject} (h : object.parts = [object]) :
    object.withName.parts = [object.withName] := by
  cases object with
  | table t =>
    rw [table_parts_iff] at h
    refine table_parts_iff.2 ⟨fun named hnamed => ?_, h.2⟩
    obtain ⟨c, hc, rfl⟩ := List.mem_map.1 hnamed
    rw [Constraint.withName_kind]
    exact h.1 c hc
  | index i =>
    simp only [withName]
    split <;> rfl
  | _ => rfl

theorem parts_resolveEnums {object : SchemaObject} (isEnum : String → Bool)
    (h : object.parts = [object]) :
    (object.resolveEnums isEnum).parts = [object.resolveEnums isEnum] := by
  cases object with
  | table t =>
    have hbare := table_parts_iff.1 h
    exact table_parts_iff.2 hbare
  | _ => rfl

/-- Names and enum types are resolved in either order. -/
theorem withName_resolveEnums (isEnum : String → Bool) (object : SchemaObject) :
    (object.resolveEnums isEnum).withName = object.withName.resolveEnums isEnum := by
  cases object with
  | index i =>
    simp only [resolveEnums, withName]
    split <;> rfl
  | _ => rfl

theorem kind_withName (object : SchemaObject) : object.withName.kind = object.kind := by
  cases object with
  | index i =>
    simp only [withName]
    split <;> rfl
  | _ => rfl

theorem id_withName {object : SchemaObject} (hconstraint : object.kind ≠ .constraint)
    (hindex : object.kind ≠ .index) : object.withName.id = object.id := by
  cases object with
  | constraint => exact absurd rfl hconstraint
  | index => exact absurd rfl hindex
  | _ => rfl

theorem resolveEnums_resolveEnums (isEnum : String → Bool) (object : SchemaObject) :
    (object.resolveEnums isEnum).resolveEnums isEnum = object.resolveEnums isEnum := by
  cases object with
  | table t =>
    simp only [resolveEnums, List.map_map]
    congr 2
    exact List.map_congr_left fun c _ => by
      simp only [Function.comp, DataType.resolveEnums_resolveEnums]
  | _ => rfl

theorem id_resolveEnums (isEnum : String → Bool) (object : SchemaObject) :
    (object.resolveEnums isEnum).id = object.id := by
  cases object <;> rfl

end SchemaObject

/-! ## Settled objects -/

namespace Registration

/-- The names of a kind are those of the identities. -/
theorem namesOf_map {f : SchemaObject → SchemaObject} (hid : ∀ object, (f object).id = object.id)
    (objects : List SchemaObject) (kind : ObjectKind) :
    namesOf (objects.map f) kind = namesOf objects kind := by
  simp only [namesOf, List.filter_map, List.map_map, Function.comp_def, ← SchemaObject.kind_id, hid]

theorem extensions_map {f : SchemaObject → SchemaObject} (hid : ∀ object, (f object).id = object.id)
    (objects : List SchemaObject) : extensions (objects.map f) = extensions objects := by
  simp only [extensions, List.filter_map, List.map_map, Function.comp_def, ← SchemaObject.kind_id,
    hid]

theorem namesOf_resolveEnums (objects : List SchemaObject) (kind : ObjectKind) :
    namesOf (resolveEnums objects) kind = namesOf objects kind :=
  namesOf_map (fun object => object.id_resolveEnums _) objects kind

theorem mem_namesOf_iff {objects : List SchemaObject} {kind : ObjectKind} {name : String} :
    name ∈ namesOf objects kind ↔
      ∃ object ∈ objects, object.kind = kind ∧ object.id.name = name := by
  rw [namesOf, List.mem_map]
  simp only [List.mem_filter, beq_iff_eq, and_assoc]

/-- The objects of a kind. -/
def ofKind (objects : List SchemaObject) (kind : ObjectKind) : List SchemaObject :=
  objects.filter fun object => object.kind == kind

theorem compare_lt_of_rank_lt {a b : ObjectId} (h : a.kind.rank < b.kind.rank) :
    compare a b = .lt := by
  have hrank : compare a.kind.rank b.kind.rank = .lt := Nat.compare_eq_lt.2 h
  have hlex : compareLex (compareOn fun id : ObjectId => id.kind.rank)
      (compareOn fun id : ObjectId => id.name) a b = .lt := by
    rw [compareLex, compareOn, hrank]
    rfl
  exact hlex

/-- Objects in the order of a key that tells their kind stand kind by kind. -/
theorem flatMap_ofKind {key : SchemaObject → ObjectId} {objects : List SchemaObject}
    (hkey : ∀ object, (key object).kind = object.kind) (h : Order.Ascending key objects) :
    ObjectKind.all.flatMap (ofKind objects) = objects := by
  have hkinds : ∀ kind : ObjectKind, kind ∈ ObjectKind.all := fun kind => by
    cases kind <;> decide
  have hnodup : ObjectKind.all.Nodup := by decide
  have hranks : ObjectKind.all.Pairwise fun a b => a.rank < b.rank := by decide
  have hperm : (ObjectKind.all.flatMap (ofKind objects)).Perm objects :=
    Order.groups_perm SchemaObject.kind hnodup fun object _ => hkinds object.kind
  refine Order.Ascending.eq_of_perm (List.pairwise_flatMap.2 ⟨fun _ _ => h.filter _, ?_⟩) h hperm
  refine hranks.imp fun {a b} hlt x hx y hy => compare_lt_of_rank_lt ?_
  rw [hkey, hkey, beq_iff_eq.1 (List.mem_filter.1 hx).2, beq_iff_eq.1 (List.mem_filter.1 hy).2]
  exact hlt

/-- What `collect` gives: the objects in order, unless an identity repeats. -/
theorem collect_eq_ok_iff {xs : List SchemaObject} : ∀ {acc ys : List SchemaObject},
    (acc.map SchemaObject.id).Nodup → (collect acc xs = .ok ys ↔
      ((acc ++ xs).map SchemaObject.id).Nodup ∧
        ys = xs.foldl (fun sorted a => Order.insertBy SchemaObject.id a sorted) acc) := by
  induction xs with
  | nil =>
    intro acc ys hacc
    simp only [collect, List.append_nil, hacc, true_and, List.foldl_nil, Except.ok.injEq, eq_comm]
  | cons x xs ih =>
    intro acc ys hacc
    have hmid : ((acc ++ x :: xs).map SchemaObject.id).Perm
        (x.id :: (acc ++ xs).map SchemaObject.id) :=
      List.perm_middle.map SchemaObject.id
    rw [collect]
    split
    · rename_i hany
      obtain ⟨other, hmem, hid⟩ := List.any_eq_true.1 hany
      refine ⟨fun h => by simp at h, fun h => ?_⟩
      refine absurd ?_ (List.nodup_cons.1 (hmid.nodup_iff.1 h.1)).1
      rw [← beq_iff_eq.1 hid]
      exact List.mem_map_of_mem (List.mem_append_left _ hmem)
    · rename_i hany
      have hx : x.id ∉ acc.map SchemaObject.id := fun hmem => by
        obtain ⟨other, hother, hid⟩ := List.mem_map.1 hmem
        exact hany (List.any_eq_true.2 ⟨other, hother, beq_iff_eq.2 hid⟩)
      have hins := (Order.insertBy_perm hx).map SchemaObject.id
      have hacc' : ((Order.insertBy SchemaObject.id x acc).map SchemaObject.id).Nodup :=
        hins.nodup_iff.2 (List.nodup_cons.2 ⟨hx, hacc⟩)
      have hperm : ((Order.insertBy SchemaObject.id x acc ++ xs).map SchemaObject.id).Perm
          ((acc ++ x :: xs).map SchemaObject.id) := by
        rw [List.map_append]
        refine (hins.append_right _).trans (List.Perm.trans ?_ hmid.symm)
        rw [List.map_cons, List.cons_append, List.map_append]
      rw [ih hacc', hperm.nodup_iff, List.foldl_cons]

theorem collect_nil_eq_ok_iff {xs ys : List SchemaObject} :
    collect [] xs = .ok ys ↔
      (xs.map SchemaObject.id).Nodup ∧ ys = Order.ofList SchemaObject.id xs :=
  collect_eq_ok_iff List.nodup_nil

/-- **What registration leaves**: every object is split, named, resolved and checked, and the
objects stand in order. -/
structure Settled (objects : List SchemaObject) : Prop where
  ascending : Order.Ascending SchemaObject.id objects
  parts : ∀ object ∈ objects, object.parts = [object]
  withName : ∀ object ∈ objects, object.withName = object
  resolveEnums : ∀ object ∈ objects,
    object.resolveEnums (namesOf objects .enum).contains = object
  check : ∀ object ∈ objects, check objects object = .ok ()

/-- The constraints and columns of a settled table need no change. -/
theorem Settled.table {objects : List SchemaObject} (h : Settled objects) {t : Table}
    (ht : .table t ∈ objects) :
    (∀ c ∈ t.constraints, c.withName t.name = c) ∧
      ∀ column ∈ t.columns,
        column.type.resolveEnums (namesOf objects .enum).contains = column.type := by
  have hnames : t.constraints.map (fun c => c.withName t.name) = t.constraints :=
    congrArg Table.constraints (SchemaObject.table.inj (h.withName _ ht))
  have htypes : t.columns.map (fun column =>
      { column with type := column.type.resolveEnums (namesOf objects .enum).contains }) =
        t.columns :=
    congrArg Table.columns (SchemaObject.table.inj (h.resolveEnums _ ht))
  refine ⟨List.map_inj_left.1 (hnames.trans (List.map_id' _).symm), fun column hcolumn => ?_⟩
  exact congrArg Column.type
    (List.map_inj_left.1 (htypes.trans (List.map_id' _).symm) column hcolumn)

/-- The graph that settled objects determine. -/
def graphOf (objects : List SchemaObject) : SchemaGraph :=
  .ofNodes (objects.map fun object => ⟨object, dependencies objects object⟩)

theorem nodes_graphOf {objects : List SchemaObject}
    (h : Order.Ascending SchemaObject.id objects) :
    (graphOf objects).nodes = objects.map fun object => ⟨object, dependencies objects object⟩ := by
  refine SchemaGraph.nodes_ofNodes ?_
  rw [Order.Ascending, List.pairwise_map]
  exact h

theorem objects_graphOf {objects : List SchemaObject}
    (h : Order.Ascending SchemaObject.id objects) : (graphOf objects).objects = objects := by
  simp only [SchemaGraph.objects, nodes_graphOf h, List.map_map]
  exact List.map_id objects

theorem register_eq_ok_iff {xs : List SchemaObject} {graph : SchemaGraph} :
    register xs = .ok graph ↔ ∃ collected,
      collect [] ((xs.flatMap SchemaObject.parts).map SchemaObject.withName) = .ok collected ∧
      (∀ object ∈ Registration.resolveEnums collected,
        Registration.check (Registration.resolveEnums collected) object = .ok ()) ∧
      graph = graphOf (Registration.resolveEnums collected) := by
  rw [register, Outcome.bind_eq_ok_iff]
  refine exists_congr fun collected => and_congr_right fun _ => ?_
  rw [Outcome.bind_eq_ok_iff]
  constructor
  · rintro ⟨⟨⟩, hcheck, hgraph⟩
    cases hgraph
    exact ⟨Outcome.forM_eq_ok_iff.1 hcheck, rfl⟩
  · rintro ⟨hcheck, rfl⟩
    exact ⟨(), Outcome.forM_eq_ok_iff.2 hcheck, rfl⟩

/-- **Registration sees the parts of its sources only, and not their order.** -/
theorem register_eq_ok_of_parts_perm {xs ys : List SchemaObject} {graph : SchemaGraph}
    (hperm : (xs.flatMap SchemaObject.parts).Perm (ys.flatMap SchemaObject.parts))
    (h : register xs = .ok graph) : register ys = .ok graph := by
  obtain ⟨collected, hcollect, hcheck, rfl⟩ := register_eq_ok_iff.1 h
  obtain ⟨hnodup, rfl⟩ := collect_nil_eq_ok_iff.1 hcollect
  have hnamed := hperm.map SchemaObject.withName
  refine register_eq_ok_iff.2 ⟨_, collect_nil_eq_ok_iff.2 ⟨?_, ?_⟩, hcheck, rfl⟩
  · exact (hnamed.map SchemaObject.id).nodup_iff.1 hnodup
  · exact (Order.ofList_eq_of_perm (Order.ascending_ofList _ _)
      (hnamed.symm.trans (Order.ofList_perm hnodup).symm)).symm

theorem ascending_resolveEnums {objects : List SchemaObject}
    (h : Order.Ascending SchemaObject.id objects) :
    Order.Ascending SchemaObject.id (resolveEnums objects) := by
  rw [Order.Ascending, resolveEnums, List.pairwise_map]
  refine h.imp fun {a b} hab => ?_
  rwa [SchemaObject.id_resolveEnums, SchemaObject.id_resolveEnums]

/-- Every object of a registered graph is a part of a source, with its name and resolved types. -/
theorem exists_source {xs : List SchemaObject} {graph : SchemaGraph}
    (h : register xs = .ok graph) {object : SchemaObject} (hobject : object ∈ graph.objects) :
    ∃ source ∈ xs, ∃ part ∈ source.parts,
      object = part.withName.resolveEnums (namesOf graph.objects .enum).contains := by
  obtain ⟨collected, hcollect, -, rfl⟩ := register_eq_ok_iff.1 h
  obtain ⟨hnodup, rfl⟩ := collect_nil_eq_ok_iff.1 hcollect
  have hperm := Order.ofList_perm hnodup
  have hasc := Order.ascending_ofList SchemaObject.id
    ((xs.flatMap SchemaObject.parts).map SchemaObject.withName)
  rw [objects_graphOf (ascending_resolveEnums hasc)] at hobject ⊢
  obtain ⟨named, hnamed, rfl⟩ := List.mem_map.1 hobject
  obtain ⟨part, hpart, rfl⟩ := List.mem_map.1 (hperm.mem_iff.1 hnamed)
  obtain ⟨source, hsource, hpart⟩ := List.mem_flatMap.1 hpart
  rw [namesOf_resolveEnums]
  exact ⟨source, hsource, part, hpart, rfl⟩

/-- **The objects of a registered graph are settled, and they determine it.** -/
theorem settled_of_register {xs : List SchemaObject} {graph : SchemaGraph}
    (h : register xs = .ok graph) : Settled graph.objects ∧ graph = graphOf graph.objects := by
  have hsource : ∀ object ∈ graph.objects, ∃ source ∈ xs, ∃ part ∈ source.parts,
      object = part.withName.resolveEnums (namesOf graph.objects .enum).contains :=
    fun _ hobject => exists_source h hobject
  obtain ⟨collected, hcollect, hcheck, rfl⟩ := register_eq_ok_iff.1 h
  obtain ⟨-, rfl⟩ := collect_nil_eq_ok_iff.1 hcollect
  have hresolved := ascending_resolveEnums (Order.ascending_ofList SchemaObject.id
    ((xs.flatMap SchemaObject.parts).map SchemaObject.withName))
  rw [objects_graphOf hresolved] at hsource ⊢
  refine ⟨⟨hresolved, ?_, ?_, ?_, hcheck⟩, rfl⟩
  · intro object hobject
    obtain ⟨_, -, part, hpart, rfl⟩ := hsource object hobject
    exact SchemaObject.parts_resolveEnums _
      (SchemaObject.parts_withName (SchemaObject.parts_of_mem_parts hpart))
  · intro object hobject
    obtain ⟨_, -, part, -, rfl⟩ := hsource object hobject
    rw [SchemaObject.withName_resolveEnums, SchemaObject.withName_withName]
  · intro object hobject
    obtain ⟨_, -, part, -, heq⟩ := hsource object hobject
    rw [heq]
    exact SchemaObject.resolveEnums_resolveEnums _ _

/-- **Settled objects in any order are registered as the graph that they determine.** -/
theorem register_of_perm {xs objects : List SchemaObject} (h : Settled objects)
    (hperm : xs.Perm objects) : register xs = .ok (graphOf objects) := by
  have hparts : xs.flatMap SchemaObject.parts = xs :=
    SchemaObject.flatMap_parts fun object hobject => h.parts object (hperm.mem_iff.1 hobject)
  have hnames : xs.map SchemaObject.withName = xs := by
    rw [List.map_congr_left fun object hobject => h.withName object (hperm.mem_iff.1 hobject)]
    exact List.map_id' xs
  have hresolved : Registration.resolveEnums objects = objects := by
    rw [Registration.resolveEnums, List.map_congr_left h.resolveEnums]
    exact List.map_id' objects
  refine register_eq_ok_iff.2 ⟨objects, ?_, ?_, ?_⟩
  · rw [hparts, hnames]
    refine collect_nil_eq_ok_iff.2 ⟨?_, ?_⟩
    · exact (hperm.map SchemaObject.id).nodup_iff.2 h.ascending.nodup_keys
    · exact (Order.ofList_eq_of_perm h.ascending hperm).symm
  · rw [hresolved]
    exact h.check
  · rw [hresolved]

/-- Registering the objects of a registered graph in any order gives the graph back. -/
theorem register_objects {sources xs : List SchemaObject} {graph : SchemaGraph}
    (h : register sources = .ok graph) (hperm : xs.Perm graph.objects) :
    register xs = .ok graph := by
  obtain ⟨hsettled, hgraph⟩ := settled_of_register h
  rw [hgraph]
  exact register_of_perm hsettled hperm

end Registration

/-! ## Foreign keys -/

/-- An object that is created and dropped by itself; of constraints these are the foreign keys. -/
def SchemaObject.StandsAlone : SchemaObject → Prop
  | .constraint c => c.constraint.kind.isForeignKey = true
  | _ => True

theorem SchemaObject.standsAlone_of_mem_parts {object part : SchemaObject}
    (hobject : object.StandsAlone) (h : part ∈ object.parts) : part.StandsAlone := by
  cases object with
  | table t =>
    simp only [parts, List.mem_cons, List.mem_append, List.mem_map] at h
    rcases h with rfl | (⟨c, hc, rfl⟩ | ⟨_, _, rfl⟩) | ⟨_, _, rfl⟩
    · exact trivial
    · obtain ⟨constraint, hconstraint, rfl⟩ := List.mem_map.1 hc
      exact (List.mem_filter.1 hconstraint).2
    all_goals exact trivial
  | _ =>
    rw [parts, List.mem_singleton] at h
    · exact h ▸ hobject
    all_goals intro _ heq; cases heq

theorem SchemaObject.standsAlone_withName {object : SchemaObject} (h : object.StandsAlone) :
    object.withName.StandsAlone := by
  cases object with
  | constraint c =>
    have hkind : (c.constraint.withName c.table).kind.isForeignKey = true := by
      rw [Constraint.withName_kind]
      exact h
    exact hkind
  | index i =>
    simp only [withName]
    split <;> exact trivial
  | _ => exact trivial

/-- The constraints of a registered graph are foreign keys when those of the sources are. -/
theorem Registration.standsAlone_of_register {xs : List SchemaObject} {graph : SchemaGraph}
    (h : register xs = .ok graph) (hsources : ∀ source ∈ xs, source.StandsAlone)
    {object : SchemaObject} (hobject : object ∈ graph.objects) : object.StandsAlone := by
  obtain ⟨source, hsource, part, hpart, heq⟩ := exists_source h hobject
  rw [heq]
  have hnamed := SchemaObject.standsAlone_withName
    (SchemaObject.standsAlone_of_mem_parts (hsources source hsource) hpart)
  cases hwith : part.withName with
  | constraint c =>
    rw [hwith] at hnamed
    exact hnamed
  | _ => exact trivial

theorem Declaration.standsAlone_objects (declaration : Declaration) :
    ∀ source ∈ declaration.objects, source.StandsAlone := by
  intro source hsource
  simp only [Declaration.objects, List.mem_append, List.mem_map] at hsource
  rcases hsource with ((⟨_, -, rfl⟩ | ⟨_, -, rfl⟩) | ⟨_, -, rfl⟩) | ⟨_, -, rfl⟩
  all_goals exact trivial

end SchemaPlan
