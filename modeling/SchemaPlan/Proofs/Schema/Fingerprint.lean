import SchemaPlan.Proofs.Text.Term
import SchemaPlan.Schema.Fingerprint

/-!
# Fingerprints tell definitions apart

A fingerprint is a text, and no two canonical forms without names have one text.  So objects with one
fingerprint are of one kind and agree in all but the names that a rename changes.

* For every type of the schema, `isPlain_term` says that its terms are made of names, and `term_inj`
  that a value is given by its term.  Only the default of a column is not: its term is that of an
  expression, as the default of a canonical column is one.
* `SchemaObject.fingerprint?_eq_iff`: equal fingerprints are equal canonical forms without names.
* `SchemaObject.kind_eq_of_fingerprint?_eq`: objects of different kinds have different fingerprints.
-/

set_option autoImplicit false

namespace SchemaPlan

open Text (Term)
open Text.Term

/-! ## Types and columns -/

@[simp] theorem DataType.isPlain_term (type : DataType) : type.term.IsPlain := by
  induction type with
  | numeric precision scale => exact isPlain_record (by decide) (by simp +decide)
  | varchar | char | enum | custom => exact isPlain_call (by decide) (by simp)
  | array element ih => exact isPlain_call (by decide) (by simpa using ih)
  | _ => exact .word (by decide)

@[simp] theorem DataType.term_inj {a b : DataType} : a.term = b.term ↔ a = b := by
  induction a generalizing b with
  | array element ih => cases b <;> simp [term, record, call, ih]
  | _ => cases b <;> simp [term, record, call]

@[simp] theorem Column.isPlain_term (column : Column) : column.term.IsPlain := by
  refine isPlain_record (by decide) ?_
  have hdefault (sql : String) : (call "Expression" [quoted sql]).IsPlain :=
    isPlain_call (by decide) (by simp)
  simp +decide [hdefault]

/-- The default of a column is an expression if it has one. -/
def Column.HasCanonicalDefault (column : Column) : Prop :=
  (column.default.bind DefaultValue.expression?).map .expression = column.default

theorem Column.hasCanonicalDefault_canonical (column : Column) :
    column.canonical.HasCanonicalDefault := by
  unfold HasCanonicalDefault canonical
  cases DefaultValue.canonicalSql? column.default <;> rfl

theorem Column.term_inj {a b : Column} (ha : a.HasCanonicalDefault) (hb : b.HasCanonicalDefault) :
    a.term = b.term ↔ a = b := by
  have hdefault : a.default.bind DefaultValue.expression? =
      b.default.bind DefaultValue.expression? ↔ a.default = b.default :=
    ⟨fun h => by rw [← ha, h, hb], fun h => by rw [h]⟩
  cases a
  cases b
  simp_all [term, record, call]

/-! ## Constraints, indexes and triggers -/

@[simp] theorem ForeignKeyAction.isPlain_term (action : ForeignKeyAction) :
    action.term.IsPlain := by
  cases action <;> exact .word (by decide)

@[simp] theorem ForeignKeyAction.term_inj {a b : ForeignKeyAction} : a.term = b.term ↔ a = b := by
  cases a <;> cases b <;> simp [term]

@[simp] theorem ForeignKey.isPlain_term (key : ForeignKey) : key.term.IsPlain :=
  isPlain_record (by decide) (by simp +decide)

@[simp] theorem ForeignKey.term_inj {a b : ForeignKey} : a.term = b.term ↔ a = b := by
  cases a
  cases b
  simp [term, record]

@[simp] theorem ConstraintKind.isPlain_term (kind : ConstraintKind) : kind.term.IsPlain := by
  cases kind with
  | foreignKey key => exact isPlain_call (by decide) (by simp)
  | _ => exact isPlain_record (by decide) (by simp +decide)

@[simp] theorem ConstraintKind.term_inj {a b : ConstraintKind} : a.term = b.term ↔ a = b := by
  cases a <;> cases b <;> simp [term, record, call]

@[simp] theorem Constraint.isPlain_term (constraint : Constraint) : constraint.term.IsPlain :=
  isPlain_record (by decide) (by simp +decide)

@[simp] theorem Constraint.term_inj {a b : Constraint} : a.term = b.term ↔ a = b := by
  cases a
  cases b
  simp [term, record]

@[simp] theorem TableConstraint.isPlain_term (constraint : TableConstraint) :
    constraint.term.IsPlain :=
  isPlain_record (by decide) (by simp +decide)

@[simp] theorem TableConstraint.term_inj {a b : TableConstraint} : a.term = b.term ↔ a = b := by
  cases a
  cases b
  simp [term, record]

@[simp] theorem IndexMethod.isPlain_term (method : IndexMethod) : method.term.IsPlain := by
  cases method with
  | custom name => exact isPlain_call (by decide) (by simp)
  | _ => exact .word (by decide)

@[simp] theorem IndexMethod.term_inj {a b : IndexMethod} : a.term = b.term ↔ a = b := by
  cases a <;> cases b <;> simp [term, call]

@[simp] theorem Index.isPlain_term (index : Index) : index.term.IsPlain :=
  isPlain_record (by decide) (by simp +decide)

@[simp] theorem Index.term_inj {a b : Index} : a.term = b.term ↔ a = b := by
  cases a
  cases b
  simp [term, record]

@[simp] theorem TriggerTiming.isPlain_term (timing : TriggerTiming) : timing.term.IsPlain := by
  cases timing <;> exact .word (by decide)

@[simp] theorem TriggerTiming.term_inj {a b : TriggerTiming} : a.term = b.term ↔ a = b := by
  cases a <;> cases b <;> simp [term]

@[simp] theorem TriggerEvent.isPlain_term (event : TriggerEvent) : event.term.IsPlain := by
  cases event <;> exact .word (by decide)

@[simp] theorem TriggerEvent.term_inj {a b : TriggerEvent} : a.term = b.term ↔ a = b := by
  cases a <;> cases b <;> simp [term]

@[simp] theorem TriggerScope.isPlain_term (scope : TriggerScope) : scope.term.IsPlain := by
  cases scope <;> exact .word (by decide)

@[simp] theorem TriggerScope.term_inj {a b : TriggerScope} : a.term = b.term ↔ a = b := by
  cases a <;> cases b <;> simp [term]

@[simp] theorem Trigger.isPlain_term (trigger : Trigger) : trigger.term.IsPlain :=
  isPlain_record (by decide) (by simp +decide)

@[simp] theorem Trigger.term_inj {a b : Trigger} : a.term = b.term ↔ a = b := by
  cases a
  cases b
  simp [term, record]

/-! ## Functions -/

@[simp] theorem Volatility.isPlain_term (volatility : Volatility) : volatility.term.IsPlain := by
  cases volatility <;> exact .word (by decide)

@[simp] theorem Volatility.term_inj {a b : Volatility} : a.term = b.term ↔ a = b := by
  cases a <;> cases b <;> simp [term]

@[simp] theorem ParallelSafety.isPlain_term (safety : ParallelSafety) : safety.term.IsPlain := by
  cases safety <;> exact .word (by decide)

@[simp] theorem ParallelSafety.term_inj {a b : ParallelSafety} : a.term = b.term ↔ a = b := by
  cases a <;> cases b <;> simp [term]

@[simp] theorem ObjectKind.isPlain_term (kind : ObjectKind) : kind.term.IsPlain := by
  cases kind <;> exact .word (by decide)

@[simp] theorem ObjectKind.term_inj {a b : ObjectKind} : a.term = b.term ↔ a = b := by
  cases a <;> cases b <;> simp [term]

@[simp] theorem ObjectId.isPlain_term (id : ObjectId) : id.term.IsPlain :=
  isPlain_record (by decide) (by simp +decide)

@[simp] theorem ObjectId.term_inj {a b : ObjectId} : a.term = b.term ↔ a = b := by
  cases a
  cases b
  simp [term, record]

@[simp] theorem Function.isPlain_term (function : Function) : function.term.IsPlain :=
  isPlain_record (by decide) (by simp +decide)

@[simp] theorem Function.term_inj {a b : Function} : a.term = b.term ↔ a = b := by
  cases a
  cases b
  simp [term, record]

/-! ## Tables and objects -/

@[simp] theorem Table.isPlain_term (table : Table) : table.term.IsPlain :=
  isPlain_record (by decide) (by simp +decide)

theorem Table.term_inj {a b : Table} (ha : ∀ column ∈ a.columns, column.HasCanonicalDefault)
    (hb : ∀ column ∈ b.columns, column.HasCanonicalDefault) : a.term = b.term ↔ a = b := by
  have hcolumns : list Column.term a.columns = list Column.term b.columns ↔ a.columns = b.columns :=
    list_inj fun x hx y hy => Column.term_inj (ha x hx) (hb y hy)
  cases a
  cases b
  simp_all [term, record]

@[simp] theorem Extension.isPlain_term (extension : Extension) : extension.term.IsPlain :=
  isPlain_record (by decide) (by simp +decide)

@[simp] theorem Extension.term_inj {a b : Extension} : a.term = b.term ↔ a = b := by
  cases a
  cases b
  simp [term, record]

@[simp] theorem EnumType.isPlain_term (enum : EnumType) : enum.term.IsPlain :=
  isPlain_record (by decide) (by simp +decide)

@[simp] theorem EnumType.term_inj {a b : EnumType} : a.term = b.term ↔ a = b := by
  cases a
  cases b
  simp [term, record]

namespace SchemaObject

theorem isPlain_term (object : SchemaObject) : object.term.IsPlain := by
  cases object <;> exact isPlain_call (by decide) (by simp)

/-- The columns of a table have defaults that are expressions. -/
def HasCanonicalDefaults : SchemaObject → Prop
  | table value => ∀ column ∈ value.columns, column.HasCanonicalDefault
  | _ => True

theorem hasCanonicalDefaults_unnamed_canonical (object : SchemaObject) :
    object.canonical.unnamed.HasCanonicalDefaults := by
  cases object with
  | table value =>
    intro column hcolumn
    obtain ⟨source, -, rfl⟩ := List.mem_map.1 hcolumn
    exact source.hasCanonicalDefault_canonical
  | _ => trivial

theorem term_inj {a b : SchemaObject} (ha : a.HasCanonicalDefaults) (hb : b.HasCanonicalDefaults) :
    a.term = b.term ↔ a = b := by
  cases a with
  | table s =>
    cases b with
    | table t => simp [term, call, Table.term_inj ha hb]
    | _ => simp [term, call]
  | _ => cases b <;> simp [term, call]

/-! ## Fingerprints -/

theorem kind_unnamed_canonical (object : SchemaObject) :
    object.canonical.unnamed.kind = object.kind := by
  cases object <;> rfl

theorem fingerprint?_eq_none {object : SchemaObject} (h : object.kind = .extension) :
    object.fingerprint? = none := by
  cases object with
  | extension value => rfl
  | _ => cases h

theorem fingerprint?_eq_some {object : SchemaObject} (h : object.kind ≠ .extension) :
    object.fingerprint? = some object.canonical.unnamed.term.text := by
  cases object with
  | extension value => exact absurd rfl h
  | _ => rfl

/-- **Fingerprints are equal when the canonical forms without names are.** -/
theorem fingerprint?_eq_iff {a b : SchemaObject} (ha : a.kind ≠ .extension) :
    a.fingerprint? = b.fingerprint? ↔ a.canonical.unnamed = b.canonical.unnamed := by
  by_cases hb : b.kind = .extension
  · rw [fingerprint?_eq_some ha, fingerprint?_eq_none hb]
    refine iff_of_false (Option.some_ne_none _) fun h => ha ?_
    rw [← kind_unnamed_canonical, h, kind_unnamed_canonical, hb]
  · rw [fingerprint?_eq_some ha, fingerprint?_eq_some hb, Option.some_inj,
      ← term_inj a.hasCanonicalDefaults_unnamed_canonical b.hasCanonicalDefaults_unnamed_canonical]
    exact ⟨text_inj (isPlain_term _) (isPlain_term _), congrArg Term.text⟩

/-- Objects of different kinds have different fingerprints. -/
theorem kind_eq_of_fingerprint?_eq {a b : SchemaObject} (ha : a.kind ≠ .extension)
    (h : a.fingerprint? = b.fingerprint?) : a.kind = b.kind := by
  rw [← kind_unnamed_canonical a, (fingerprint?_eq_iff ha).1 h, kind_unnamed_canonical]

end SchemaObject

end SchemaPlan
