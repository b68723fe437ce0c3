import SchemaPlan.Proofs.Graph.References

/-!
# Registration and ignored extensions

An ignored extension refers to nothing and is referred to by nothing but the dependencies on all
extensions, so it makes no difference to the rest of a schema.

* `withoutIgnored_graphOf`: leaving ignored extensions out of a graph is leaving them out of the
  objects that determine it,
* `register_kept`: registering objects without their ignored extensions gives what is left of their
  graph without these, or the same error, unless a function says that it needs one,
* `register_of_kept`: objects that can be registered without their ignored extensions can be
  registered with them.
-/

set_option autoImplicit false

namespace SchemaPlan.Registration

variable {options : DiffOptions} {objects : List SchemaObject}

/-- The objects of a list that are no ignored extensions. -/
def kept (options : DiffOptions) (objects : List SchemaObject) : List SchemaObject :=
  objects.filter fun object => !options.ignores object

theorem mem_kept_iff {object : SchemaObject} :
    object ∈ kept options objects ↔ object ∈ objects ∧ options.ignoresId object.id = false := by
  rw [kept, List.mem_filter, DiffOptions.ignores_eq, Bool.not_eq_true']

theorem namesOf_kept {kind : ObjectKind} (hkind : kind ≠ .extension) :
    namesOf (kept options objects) kind = namesOf objects kind := by
  rw [namesOf, namesOf, kept, List.filter_filter]
  congr 1
  refine List.filter_congr fun object _ => ?_
  rw [DiffOptions.ignores_eq]
  cases hobject : object.kind == kind with
  | false => rfl
  | true =>
    have hid : object.id.kind ≠ .extension := by
      rw [object.kind_id, beq_iff_eq.1 hobject]
      exact hkind
    rw [DiffOptions.not_ignoresId_of_kind hid]
    rfl

/-! ## References -/

theorem calls_kept (expression : String) :
    calls (kept options objects) expression = calls objects expression := by
  rw [calls, calls, namesOf_kept (by decide)]

theorem mem_extensions_kept_iff {id : ObjectId} :
    id ∈ extensions (kept options objects) ↔
      id ∈ extensions objects ∧ options.ignoresId id = false := by
  simp only [extensions, List.mem_map, List.mem_filter, mem_kept_iff]
  constructor
  · rintro ⟨object, ⟨⟨hobject, hkept⟩, hkind⟩, rfl⟩
    exact ⟨⟨object, ⟨hobject, hkind⟩, rfl⟩, hkept⟩
  · rintro ⟨⟨object, ⟨hobject, hkind⟩, rfl⟩, hkept⟩
    exact ⟨object, ⟨⟨hobject, hkept⟩, hkind⟩, rfl⟩

/-- An object refers to the same objects among all and among those that are kept. -/
theorem mem_references_kept_iff {object : SchemaObject} {id : ObjectId}
    (hid : options.ignoresId id = false) :
    id ∈ references (kept options objects) object ↔ id ∈ references objects object := by
  have hextensions : id ∈ extensions (kept options objects) ↔ id ∈ extensions objects := by
    rw [mem_extensions_kept_iff]
    exact and_iff_left hid
  have hcalls : calls (kept options objects) = calls objects := funext calls_kept
  cases object with
  | table t =>
    have hcolumn : ∀ column, id ∈ columnDependencies (kept options objects) column ↔
        id ∈ columnDependencies objects column := by
      intro column
      rw [columnDependencies, columnDependencies, hcalls]
      simp only [List.mem_append]
      split
      · rw [hextensions]
      · rfl
    have hchecks : checkDependencies (kept options objects) = checkDependencies objects := by
      funext constraint
      rw [checkDependencies, checkDependencies, hcalls]
    simp only [references, List.mem_append, List.mem_flatMap, hcolumn, hchecks]
  | index i =>
    simp only [references, List.mem_cons, List.mem_append, hcalls]
    split
    · rfl
    · rw [hextensions]
  | _ => rfl

/-! ## Graphs -/

/-- **Leaving ignored extensions out of a graph is leaving them out of its objects**, if nothing
that is kept refers to them. -/
theorem withoutIgnored_graphOf (h : Order.Ascending SchemaObject.id objects)
    (hsound : ∀ object ∈ kept options objects, Sound (kept options objects) object) :
    (graphOf objects).withoutIgnored options = graphOf (kept options objects) := by
  have hkept : Order.Ascending SchemaObject.id (kept options objects) := List.Pairwise.filter _ h
  refine SchemaGraph.eq_of_nodes_eq ?_
  rw [SchemaGraph.withoutIgnored, SchemaGraph.nodes_retain, nodes_graphOf h, nodes_graphOf hkept,
    List.filter_map, List.map_map, List.map_map]
  refine List.map_congr_left fun object hobject => ?_
  have hobject : object ∈ kept options objects := hobject
  refine congrArg (GraphNode.mk object) (Order.filter_setOf fun id => ?_)
  change id ∈ references objects object ∧
    ((kept options objects).map SchemaObject.id).contains id = true ↔ _
  rw [List.contains_iff_mem, List.mem_map]
  constructor
  · rintro ⟨href, known, hknown, rfl⟩
    exact (mem_references_kept_iff (mem_kept_iff.1 hknown).2).2 href
  · intro href
    obtain ⟨known, hknown, rfl⟩ := known_of_mem_references (hsound object hobject) href
    exact ⟨(mem_references_kept_iff (mem_kept_iff.1 hknown).2).1 href, known, hknown, rfl⟩

/-! ## Registration -/

theorem ignores_withName (object : SchemaObject) :
    options.ignores object.withName = options.ignores object := by
  cases object with
  | index i =>
    simp only [SchemaObject.withName]
    split <;> rfl
  | _ => rfl

theorem ignores_resolveEnums (isEnum : String → Bool) (object : SchemaObject) :
    options.ignores (object.resolveEnums isEnum) = options.ignores object := by
  cases object <;> rfl

/-- The parts of an ignored extension are ignored, and no part of another object is. -/
theorem ignores_of_mem_parts {object part : SchemaObject} (h : part ∈ object.parts) :
    options.ignores part = options.ignores object := by
  cases object with
  | table t =>
    simp only [SchemaObject.parts, List.mem_cons, List.mem_append, List.mem_map] at h
    rcases h with rfl | (⟨_, -, rfl⟩ | ⟨_, -, rfl⟩) | ⟨_, -, rfl⟩
    all_goals rfl
  | _ =>
    simp only [SchemaObject.parts, List.mem_singleton] at h
    rw [h]

/-- The objects of a list that pass a test which only tells ignored extensions apart. -/
theorem flatMap_parts_filter {test : Bool → Bool} (xs : List SchemaObject) :
    (xs.filter fun object => test (options.ignores object)).flatMap SchemaObject.parts =
      (xs.flatMap SchemaObject.parts).filter fun object => test (options.ignores object) := by
  induction xs with
  | nil => rfl
  | cons object xs ih =>
    rw [List.flatMap_cons, List.filter_append, ← ih, List.filter_cons]
    cases hobject : test (options.ignores object) with
    | true =>
      have hall : object.parts.filter (fun part => test (options.ignores part)) = object.parts := by
        refine List.filter_eq_self.2 fun part hpart => ?_
        rw [ignores_of_mem_parts hpart, hobject]
      rw [hall]
      rfl
    | false =>
      have hnone : object.parts.filter (fun part => test (options.ignores part)) = [] := by
        refine List.filter_eq_nil_iff.2 fun part hpart => ?_
        rw [ignores_of_mem_parts hpart, hobject]
        exact Bool.false_ne_true
      rw [hnone]
      rfl

theorem map_filter_ignores {test : Bool → Bool} {f : SchemaObject → SchemaObject}
    (hf : ∀ object, options.ignores (f object) = options.ignores object) (xs : List SchemaObject) :
    (xs.filter fun object => test (options.ignores object)).map f =
      (xs.map f).filter fun object => test (options.ignores object) := by
  rw [List.filter_map]
  congr 1
  exact List.filter_congr fun object _ => congrArg test (hf object).symm

theorem namedParts_kept (xs : List SchemaObject) :
    namedParts (kept options xs) = kept options (namedParts xs) := by
  have henums : namesOf (kept options (xs.flatMap SchemaObject.parts)) .enum =
      namesOf (xs.flatMap SchemaObject.parts) .enum := namesOf_kept (by decide)
  rw [namedParts, resolvedParts, kept, flatMap_parts_filter, resolveEnums, ← kept, henums, kept,
    map_filter_ignores (ignores_resolveEnums _), map_filter_ignores ignores_withName]
  rfl

/-- Registration leaves ignored extensions as they are. -/
theorem filter_ignores_namedParts (xs : List SchemaObject) :
    (namedParts xs).filter options.ignores = xs.filter options.ignores := by
  have hparts : (xs.filter options.ignores).flatMap SchemaObject.parts =
      xs.filter options.ignores := by
    refine SchemaObject.flatMap_parts fun object hobject => ?_
    cases object with
    | extension e => rfl
    | _ => cases (List.mem_filter.1 hobject).2
  have hsame : ∀ object ∈ xs.filter options.ignores,
      (SchemaObject.withName ∘
        SchemaObject.resolveEnums (namesOf (xs.flatMap SchemaObject.parts) .enum).contains) object =
          object := by
    intro object hobject
    cases object with
    | extension e => rfl
    | _ => cases (List.mem_filter.1 hobject).2
  have hflat : (xs.flatMap SchemaObject.parts).filter options.ignores = xs.filter options.ignores :=
    (@flatMap_parts_filter options id xs).symm.trans hparts
  have hresolve := @map_filter_ignores options id _
    (ignores_resolveEnums (namesOf (xs.flatMap SchemaObject.parts) .enum).contains)
    (xs.flatMap SchemaObject.parts)
  have hname := @map_filter_ignores options id _ ignores_withName (resolvedParts xs)
  change ((resolvedParts xs).map SchemaObject.withName).filter (fun object =>
    id (options.ignores object)) = _
  rw [← hname, resolvedParts, resolveEnums, ← hresolve]
  change (((xs.flatMap SchemaObject.parts).filter options.ignores).map _).map _ = _
  rw [hflat, List.map_map, List.map_congr_left hsame]
  exact List.map_id' _

/-- No function says that it needs an ignored extension. -/
def NeedsNoIgnored (options : DiffOptions) (objects : List SchemaObject) : Prop :=
  ∀ f, .function f ∈ objects → ∀ id ∈ f.dependsOn, options.ignoresId id = false

theorem kept_cons_of_ignores {object : SchemaObject} (h : options.ignores object = true) :
    kept options (object :: objects) = kept options objects :=
  List.filter_cons_of_neg (by rw [h]; exact Bool.false_ne_true)

theorem kept_cons_of_not_ignores {object : SchemaObject} (h : options.ignores object = false) :
    kept options (object :: objects) = object :: kept options objects :=
  List.filter_cons_of_pos (by rw [h]; rfl)

/-- An identity that is not ignored is found with and without ignored extensions. -/
theorem any_id_kept {id : ObjectId} (hid : options.ignoresId id = false) :
    ((kept options objects).any fun object => object.id == id) =
      objects.any fun object => object.id == id := by
  rw [Bool.eq_iff_iff, List.any_eq_true, List.any_eq_true]
  constructor
  · rintro ⟨object, hobject, heq⟩
    exact ⟨object, (mem_kept_iff.1 hobject).1, heq⟩
  · rintro ⟨object, hobject, heq⟩
    exact ⟨object, mem_kept_iff.2 ⟨hobject, by rw [beq_iff_eq.1 heq]; exact hid⟩, heq⟩

/-- Objects are collected alike with and without ignored extensions, of which none may repeat. -/
theorem collect_kept {xs : List SchemaObject} : ∀ {acc : List SchemaObject},
    Order.Ascending SchemaObject.id acc →
    (((acc ++ xs).filter options.ignores).map SchemaObject.id).Nodup →
    (collect acc xs).map (kept options) = collect (kept options acc) (kept options xs) := by
  induction xs with
  | nil => exact fun _ _ => rfl
  | cons x xs ih =>
    intro acc hacc hignored
    have hany : (acc.any fun other => other.id == x.id) = true ↔
        x.id ∈ acc.map SchemaObject.id := by
      simp only [List.any_eq_true, beq_iff_eq, List.mem_map]
    have hnext : x.id ∉ acc.map SchemaObject.id →
        (collect (Order.insertBy SchemaObject.id x acc) xs).map (kept options) =
          collect (kept options (Order.insertBy SchemaObject.id x acc)) (kept options xs) := by
      intro hfresh
      have hperm := ((Order.insertBy_perm hfresh).append_right xs).trans List.perm_middle.symm
      exact ih (Order.ascending_insertBy hacc x) (((hperm.filter _).map _).nodup_iff.2 hignored)
    cases hx : options.ignores x with
    | true =>
      have hfresh : x.id ∉ acc.map SchemaObject.id := by
        intro hrepeats
        obtain ⟨other, hother, hid⟩ := List.mem_map.1 hrepeats
        have hignores : options.ignores other = true := by
          rw [options.ignores_eq, hid, ← options.ignores_eq, hx]
        rw [List.filter_append, List.filter_cons_of_pos hx, List.map_append, List.map_cons,
          List.nodup_append] at hignored
        exact hignored.2.2 _ (List.mem_map_of_mem (List.mem_filter.2 ⟨hother, hignores⟩)) x.id
          List.mem_cons_self hid
      rw [collect, if_neg (mt hany.1 hfresh), hnext hfresh, kept_cons_of_ignores hx, kept,
        Order.filter_insertBy_of_neg hacc hfresh (by rw [hx]; rfl), ← kept]
    | false =>
      have hid : options.ignoresId x.id = false := by
        rw [← options.ignores_eq]
        exact hx
      rw [kept_cons_of_not_ignores hx, collect, collect, any_id_kept hid]
      split
      · rfl
      · rename_i h
        have hfresh : x.id ∉ acc.map SchemaObject.id := mt hany.2 h
        have hinsert := Order.filter_insertBy_of_pos
          (p := fun object => !options.ignores object) hacc hfresh (by rw [hx]; rfl)
        rw [hnext hfresh, kept, hinsert, ← kept]

/-! ### The checks -/

theorem requireObject_kept {source id : ObjectId} (hid : options.ignoresId id = false) :
    requireObject (kept options objects) source id = requireObject objects source id := by
  rw [requireObject, any_id_kept hid, requireObject]

/-- The tables are the same with and without ignored extensions. -/
theorem table?_kept (name : String) : table? (kept options objects) name = table? objects name := by
  rw [table?, table?]
  induction objects with
  | nil => rfl
  | cons object objects ih =>
    cases hignored : options.ignores object with
    | true =>
      cases object with
      | extension e =>
        rw [kept_cons_of_ignores hignored, List.findSome?_cons]
        exact ih
      | _ => cases hignored
    | false =>
      rw [kept_cons_of_not_ignores hignored, List.findSome?_cons, List.findSome?_cons, ih]

theorem checkColumns_kept {table : Table} (columns : List Column) : ∀ seen : List String,
    checkColumns (kept options objects) table seen columns =
      checkColumns objects table seen columns := by
  induction columns with
  | nil => exact fun _ => rfl
  | cons column columns ih =>
    intro seen
    have henum : ∀ source name, requireObject (kept options objects) source ⟨.enum, name⟩ =
        requireObject objects source ⟨.enum, name⟩ := fun _ _ =>
      requireObject_kept (DiffOptions.not_ignoresId_of_kind nofun)
    rw [checkColumns, checkColumns]
    simp only [henum, ih]

/-- An object is checked alike with and without ignored extensions. -/
theorem check_kept {object : SchemaObject}
    (hneeds : ∀ f, object = .function f → ∀ id ∈ f.dependsOn, options.ignoresId id = false) :
    check (kept options objects) object = check objects object := by
  have htable : requireTable (kept options objects) = requireTable objects := by
    funext source name
    rw [requireTable, table?_kept, requireTable]
  cases object with
  | function f =>
    rw [check, check]
    exact Outcome.forM_congr fun id hid => requireObject_kept (hneeds f rfl id hid)
  | table t => rw [check, check, checkColumns_kept]
  | constraint value => rw [check, check, htable]
  | index index => rw [check, check, htable]
  | trigger trigger =>
    have hfunction : options.ignoresId ⟨.function, trigger.function⟩ = false :=
      DiffOptions.not_ignoresId_of_kind fun hkind => by cases hkind
    rw [check, check, htable, requireObject_kept hfunction]
  | _ => rfl

/-- Settled objects without ignored extensions are settled. -/
theorem Settled.kept (h : Settled objects) (hneeds : NeedsNoIgnored options objects) :
    Settled (kept options objects) where
  ascending := h.ascending.filter _
  parts := fun object hobject => h.parts object (mem_kept_iff.1 hobject).1
  withName := fun object hobject => h.withName object (mem_kept_iff.1 hobject).1
  resolveEnums := by
    rw [namesOf_kept (by decide)]
    exact fun object hobject => h.resolveEnums object (mem_kept_iff.1 hobject).1
  check := by
    intro object hobject
    have hmem := (mem_kept_iff.1 hobject).1
    rw [check_kept fun f hf => hneeds f (hf ▸ hmem)]
    exact h.check object hmem

theorem forM_check_kept (hneeds : NeedsNoIgnored options objects) :
    (kept options objects).forM (check (kept options objects)) = objects.forM (check objects) := by
  have hcheck : ∀ object ∈ objects, check (kept options objects) object = check objects object :=
    fun object hobject => check_kept fun f hf => hneeds f (hf ▸ hobject)
  have hpasses : ∀ object ∈ objects, (!options.ignores object) = false →
      check (kept options objects) object = .ok () := by
    intro object _ hignored
    cases object with
    | extension e => rfl
    | _ => cases hignored
  calc (kept options objects).forM (check (kept options objects))
      = objects.forM (check (kept options objects)) := Outcome.forM_filter hpasses
    _ = objects.forM (check objects) := Outcome.forM_congr hcheck

/-! ### Graphs with and without ignored extensions -/

theorem map_id_filter_ignores (xs : List SchemaObject) :
    (xs.filter options.ignores).map SchemaObject.id =
      (xs.map SchemaObject.id).filter options.ignoresId := by
  rw [List.filter_map]
  congr 1
  exact List.filter_congr fun object _ => options.ignores_eq object

/-- **Ignored extensions make no difference to registration.**  Without them the objects give what
is left of their graph without these, or the same error. -/
theorem register_kept {xs : List SchemaObject} (hneeds : NeedsNoIgnored options xs)
    (hignored : ((xs.filter options.ignores).map SchemaObject.id).Nodup) :
    (register xs).map (fun graph => graph.withoutIgnored options) =
      register (kept options xs) := by
  let named := (xs.flatMap SchemaObject.parts).map SchemaObject.withName
  have hnamed : ((kept options xs).flatMap SchemaObject.parts).map SchemaObject.withName =
      kept options named := by
    rw [kept, flatMap_parts_filter, map_filter_ignores ignores_withName]
    rfl
  have hids : (named.map SchemaObject.id).filter options.ignoresId =
      (xs.filter options.ignores).map SchemaObject.id := by
    rw [← filter_ignores_namedParts, map_id_filter_ignores, namedParts_eq, map_id_resolveEnums]
  have hcollect : (collect [] named).map (kept options) = collect [] (kept options named) := by
    refine collect_kept List.Pairwise.nil ?_
    rw [List.nil_append, map_id_filter_ignores, hids]
    exact hignored
  rw [register, register, hnamed, ← hcollect]
  cases hcollected : collect [] named with
  | error e => rfl
  | ok collected =>
    obtain ⟨hnodup, rfl⟩ := collect_nil_eq_ok_iff.1 hcollected
    let resolved := resolveEnums (Order.ofList SchemaObject.id named)
    have hasc : Order.Ascending SchemaObject.id resolved :=
      ascending_resolveEnums (Order.ascending_ofList SchemaObject.id named)
    have hperm : resolved.Perm (namedParts xs) := by
      rw [namedParts_eq]
      exact resolveEnums_perm (Order.ofList_perm hnodup)
    have hresolved : resolveEnums (kept options (Order.ofList SchemaObject.id named)) =
        kept options resolved := by
      rw [resolveEnums, namesOf_kept (by decide), kept,
        map_filter_ignores (ignores_resolveEnums _)]
      rfl
    have hneeds : NeedsNoIgnored options resolved := fun f hf =>
      hneeds f (function_mem_namedParts_iff.1 (hperm.mem_iff.1 hf))
    change (resolved.forM (check resolved) >>= fun _ => pure (graphOf resolved)).map _ =
      (resolveEnums (kept options _)).forM (check (resolveEnums (kept options _))) >>= fun _ =>
        pure (graphOf (resolveEnums (kept options _)))
    rw [hresolved, forM_check_kept hneeds]
    cases hcheck : resolved.forM (check resolved) with
    | error e => rfl
    | ok done =>
      refine congrArg Except.ok (withoutIgnored_graphOf hasc fun object hobject => ?_)
      have hkept : Order.Ascending SchemaObject.id (kept options resolved) := hasc.filter _
      rw [← forM_check_kept hneeds, Outcome.forM_eq_ok_iff] at hcheck
      exact (check_eq_ok_iff hkept.nodup_keys).1 (hcheck object hobject)

/-- What can be registered can be registered without its ignored extensions. -/
theorem register_kept_of_register {xs : List SchemaObject} {graph : SchemaGraph}
    (hneeds : NeedsNoIgnored options xs) (h : register xs = .ok graph) :
    register (kept options xs) = .ok (graph.withoutIgnored options) := by
  have hnodup := (register_eq_ok_iff_sound.1 h).1
  rw [← register_kept hneeds, h]
  · rfl
  · rw [← filter_ignores_namedParts, map_id_filter_ignores]
    exact hnodup.filter _

/-- **Objects that can be registered without their ignored extensions can be registered with
them**, and the graphs differ in nothing else. -/
theorem register_of_kept {xs : List SchemaObject} {graph : SchemaGraph}
    (hignored : ((xs.filter options.ignores).map SchemaObject.id).Nodup)
    (h : register (kept options xs) = .ok graph) :
    ∃ full, register xs = .ok full ∧ full.withoutIgnored options = graph := by
  have hneeds : NeedsNoIgnored options xs := by
    intro f hf id hid
    have hkept : .function f ∈ kept options xs := List.mem_filter.2 ⟨hf, rfl⟩
    obtain ⟨known, hknown, rfl⟩ :=
      (register_eq_ok_iff_sound.1 h).2.1 _ (function_mem_namedParts_iff.2 hkept) id hid
    rw [namedParts_kept] at hknown
    exact (mem_kept_iff.1 hknown).2
  rw [← register_kept hneeds hignored] at h
  exact Outcome.map_eq_ok_iff.1 h

end SchemaPlan.Registration
