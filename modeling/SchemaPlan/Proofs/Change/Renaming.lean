import SchemaPlan.Change.Renaming
import SchemaPlan.Proofs.Graph.IgnoredExtensions

/-!
# What a rename does

* `renameObject_eq_ok_iff` and `renameColumn_eq_ok_iff` say once when a rename succeeds and what
  it leaves,
* `renameObject_of_kept` and `renameColumn_of_kept`: a rename of a schema without its ignored
  extensions is one of the whole schema.
-/

set_option autoImplicit false

namespace SchemaPlan.Change

variable {objects renamed : List SchemaObject}

/-- When an object can be renamed, and what becomes of the objects. -/
theorem renameObject_eq_ok_iff {source target : ObjectId} :
    renameObject objects source target = .ok renamed ↔
      (∃ object ∈ objects, holds object source = true) ∧
      (∀ object ∈ objects, holds object target = false) ∧ source.kind ≠ .extension ∧
      ∃ old new, renamedNames source target = .ok (old, new) ∧
        renamed = objects.map (afterRename source target old new) := by
  have hheld : (!objects.any fun object => holds object source) = false ↔
      ∃ object ∈ objects, holds object source = true := by
    rw [Bool.not_eq_false', List.any_eq_true]
  have hfree : (objects.any fun object => holds object target) = false ↔
      ∀ object ∈ objects, holds object target = false := by
    simp only [List.any_eq_false, Bool.not_eq_true]
  rw [← hheld, ← hfree, renameObject]
  cases !objects.any fun object => holds object source with
  | true => simp [bind, Except.bind]
  | false =>
    cases objects.any fun object => holds object target with
    | true => simp [bind, Except.bind]
    | false =>
      cases hnames : renamedNames source target with
      | error cause => simp [bind, Except.bind]
      | ok names =>
        obtain ⟨old, new⟩ := names
        by_cases hkind : source.kind = .extension
        · simp [hkind, bind, Except.bind]
        · simp [hkind, bind, Except.bind, pure, Except.pure, eq_comm]

/-- When a column can be renamed, and what becomes of the objects. -/
theorem renameColumn_eq_ok_iff {table source target : String} :
    renameColumn objects table source target = .ok renamed ↔
      ∃ owner, findTable? objects table = some owner ∧ owner.column? target = none ∧
        owner.column? source ≠ none ∧ renamed = objects.map (afterColumn table source target) := by
  rw [renameColumn]
  cases hfound : findTable? objects table with
  | none => simp
  | some owner =>
    cases htarget : owner.column? target with
    | some column => simp [htarget]
    | none =>
      cases hsource : owner.column? source with
      | none => simp [htarget, hsource]
      | some column => simp [htarget, hsource, eq_comm]

/-! ## With and without ignored extensions -/

open Registration (kept mem_kept_iff map_filter_ignores)

variable {options : DiffOptions}

theorem afterRename_extension (source target : ObjectId) (old new : String) (e : Extension) :
    afterRename source target old new (.extension e) = .extension e := by
  unfold afterRename
  cases source.kind <;> rfl

theorem ignores_afterRename (source target : ObjectId) (old new : String) (object : SchemaObject) :
    options.ignores (afterRename source target old new object) = options.ignores object := by
  unfold afterRename
  cases source.kind with
  | extension => rfl
  | table =>
    cases object with
    | table t => simp only [afterTable]; split <;> rfl
    | _ => rfl
  | enum =>
    cases object with
    | enum e => simp only [afterEnum]; split <;> rfl
    | _ => rfl
  | function => cases object <;> rfl
  | constraint =>
    cases object with
    | table t => simp only [afterConstraint]; split <;> rfl
    | constraint c => simp only [afterConstraint]; split <;> rfl
    | _ => rfl
  | index =>
    cases object with
    | index i => simp only; split <;> rfl
    | _ => rfl
  | trigger =>
    cases object with
    | trigger t => simp only; split <;> rfl
    | _ => rfl

theorem ignores_afterColumn (table source target : String) (object : SchemaObject) :
    options.ignores (afterColumn table source target object) = options.ignores object := by
  cases object with
  | table t => simp only [afterColumn]; split <;> rfl
  | constraint c => simp only [afterColumn]; split <;> rfl
  | index i => simp only [afterColumn]; split <;> rfl
  | _ => rfl

/-- An ignored extension holds nothing but itself. -/
theorem holds_of_ignores {object : SchemaObject} (hignored : options.ignores object = true)
    {id : ObjectId} (hid : id.kind ≠ .extension) : holds object id = false := by
  cases object with
  | extension e =>
    have hne : (SchemaObject.extension e).id ≠ id := by
      rintro rfl
      exact hid rfl
    simp [holds, hne]
  | _ => cases hignored

/-- The tables are the same with and without ignored extensions. -/
theorem findTable?_kept (name : String) :
    findTable? (kept options objects) name = findTable? objects name :=
  Registration.table?_kept name

/-- What becomes of the objects that are kept, and of those that are ignored. -/
theorem kept_map {f : SchemaObject → SchemaObject}
    (hf : ∀ object, options.ignores (f object) = options.ignores object)
    (hsame : ∀ e, f (.extension e) = .extension e) :
    kept options (objects.map f) = (kept options objects).map f ∧
      (objects.map f).filter options.ignores = objects.filter options.ignores := by
  refine ⟨(map_filter_ignores hf objects).symm, ?_⟩
  have hmap := @map_filter_ignores options id f hf objects
  refine hmap.symm.trans ((List.map_congr_left fun object hobject => ?_).trans (List.map_id' _))
  cases object with
  | extension e => exact hsame e
  | _ => cases (List.mem_filter.1 hobject).2

/-- A rename without ignored extensions is one with them. -/
theorem renameObject_of_kept {source target : ObjectId} (hkind : target.kind = source.kind)
    (h : renameObject (kept options objects) source target = .ok renamed) :
    ∃ all, renameObject objects source target = .ok all ∧ kept options all = renamed ∧
      all.filter options.ignores = objects.filter options.ignores := by
  obtain ⟨⟨holder, hholder, hheld⟩, hfree, hextension, old, new, hnames, rfl⟩ :=
    renameObject_eq_ok_iff.1 h
  have hmap := @kept_map objects options (afterRename source target old new)
    (ignores_afterRename source target old new) (afterRename_extension source target old new)
  refine ⟨_, renameObject_eq_ok_iff.2 ⟨⟨holder, (mem_kept_iff.1 hholder).1, hheld⟩, ?_, hextension,
    old, new, hnames, rfl⟩, hmap⟩
  intro object hobject
  cases hignores : options.ignores object with
  | true => exact holds_of_ignores hignores (hkind ▸ hextension)
  | false =>
    refine hfree object (List.mem_filter.2 ⟨hobject, ?_⟩)
    rw [hignores]
    rfl

theorem renameColumn_of_kept {table source target : String}
    (h : renameColumn (kept options objects) table source target = .ok renamed) :
    ∃ all, renameColumn objects table source target = .ok all ∧ kept options all = renamed ∧
      all.filter options.ignores = objects.filter options.ignores := by
  obtain ⟨owner, hfound, htarget, hsource, rfl⟩ := renameColumn_eq_ok_iff.1 h
  rw [findTable?_kept] at hfound
  exact ⟨_, renameColumn_eq_ok_iff.2 ⟨owner, hfound, htarget, hsource, rfl⟩,
    kept_map (ignores_afterColumn table source target) fun _ => rfl⟩

end SchemaPlan.Change
