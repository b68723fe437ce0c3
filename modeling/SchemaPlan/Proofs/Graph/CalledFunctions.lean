import SchemaPlan.Graph.Registration
import SchemaPlan.Proofs.Expression.FunctionCall

/-!
# Dependencies on called functions

An object depends on the functions that its expressions call.  The calls stand outside quotes, so an
object keeps its dependencies when what stands between quotes changes.

* `dependencies_mapExpressions`: objects depend on their expressions by the calls in them alone.
* `calledFunctions_exact`: the calls of an expression, and what they do not depend on.
-/

set_option autoImplicit false

namespace SchemaPlan

/-! ## Objects with other expressions -/

namespace SchemaObject

variable (f : String → String)

/-- A default with its expression replaced. -/
def defaultWith : DefaultValue → DefaultValue
  | .expression sql => .expression (f sql)
  | value => value

/-- A constraint with its expression replaced. -/
def constraintWith (constraint : Constraint) : Constraint :=
  match constraint.kind with
  | .check expression => { constraint with kind := .check (f expression) }
  | _ => constraint

/-- An index with its expressions replaced. -/
def indexWith (index : Index) : Index :=
  { index with
    expression := index.expression.map f
    predicate := index.predicate.map f }

/-- A trigger with its condition replaced. -/
def triggerWith (trigger : Trigger) : Trigger :=
  { trigger with condition := trigger.condition.map f }

/-- An object with all its expressions replaced. -/
def mapExpressions : SchemaObject → SchemaObject
  | .table t =>
    .table { t with
      columns := t.columns.map fun column =>
        { column with default := column.default.map (defaultWith f) }
      constraints := t.constraints.map (constraintWith f)
      indexes := t.indexes.map (indexWith f)
      triggers := t.triggers.map (triggerWith f) }
  | .constraint value => .constraint { value with constraint := constraintWith f value.constraint }
  | .index i => .index (indexWith f i)
  | .trigger t => .trigger (triggerWith f t)
  | object => object

variable {f}

theorem name_constraintWith (constraint : Constraint) :
    (constraintWith f constraint).name = constraint.name := by
  unfold constraintWith
  split <;> rfl

theorem foreignKey?_constraintWith (constraint : Constraint) :
    (constraintWith f constraint).foreignKey? = constraint.foreignKey? := by
  unfold constraintWith
  split
  · rename_i hkind
    rw [Constraint.foreignKey?, Constraint.foreignKey?, hkind]
  · rfl

/-- No expression is part of an identity. -/
theorem id_mapExpressions (object : SchemaObject) :
    (object.mapExpressions f).id = object.id := by
  cases object with
  | constraint value => rw [mapExpressions, id, id, name_constraintWith]
  | _ => rfl

end SchemaObject

namespace Registration

open SchemaObject

variable {f : String → String} {objects : List SchemaObject}

theorem kind_mapExpressions (object : SchemaObject) :
    (object.mapExpressions f).kind = object.kind := by
  rw [← kind_id, ← kind_id, id_mapExpressions]

theorem filter_mapExpressions (f : String → String) (objects : List SchemaObject)
    (kind : ObjectKind) :
    ((objects.map (mapExpressions f)).filter fun object => object.kind == kind).map
        SchemaObject.id =
      (objects.filter fun object => object.kind == kind).map SchemaObject.id := by
  rw [List.filter_map, List.map_map]
  have hkind : ((fun object : SchemaObject => object.kind == kind) ∘ mapExpressions f) =
      fun object => object.kind == kind := by
    funext object
    rw [Function.comp_apply, kind_mapExpressions]
  rw [hkind]
  exact List.map_congr_left fun object _ => id_mapExpressions object

theorem namesOf_mapExpressions (kind : ObjectKind) :
    namesOf (objects.map (mapExpressions f)) kind = namesOf objects kind := by
  have hids :=
    congrArg (List.map ObjectId.name) (filter_mapExpressions f objects kind)
  rwa [List.map_map, List.map_map] at hids

theorem extensions_mapExpressions :
    extensions (objects.map (mapExpressions f)) = extensions objects :=
  filter_mapExpressions f objects .extension

section

variable (hf : ∀ expression, Expression.calledFunctions (f expression) =
  Expression.calledFunctions expression)

include hf

theorem calls_mapExpressions (expression : String) :
    calls (objects.map (mapExpressions f)) (f expression) = calls objects expression := by
  rw [calls, calls, hf, namesOf_mapExpressions]

theorem flatMap_calls (expressions : List String) :
    (expressions.map f).flatMap (calls (objects.map (mapExpressions f))) =
      expressions.flatMap (calls objects) := by
  rw [List.flatMap_map]
  exact List.flatMap_congr fun expression _ => calls_mapExpressions hf expression

theorem references_mapExpressions (object : SchemaObject) :
    references (objects.map (mapExpressions f)) (object.mapExpressions f) =
      references objects object := by
  cases object with
  | table t =>
    rw [mapExpressions, references, references, List.flatMap_map, List.flatMap_map]
    refine congrArg₂ _ (List.flatMap_congr fun column _ => ?_)
      (List.flatMap_congr fun constraint _ => ?_)
    · rw [columnDependencies, columnDependencies, extensions_mapExpressions]
      have hdefault : ((column.default.map (defaultWith f)).bind DefaultValue.expression?).toList =
          (column.default.bind DefaultValue.expression?).toList.map f := by
        cases column.default with
        | none => rfl
        | some value => cases value <;> rfl
      rw [hdefault, flatMap_calls hf]
    · obtain ⟨name, kind⟩ := constraint
      cases kind with
      | check expression => exact calls_mapExpressions hf expression
      | _ => rfl
  | constraint value =>
    rw [mapExpressions, references, references, foreignKey?_constraintWith]
  | index i =>
    have hexpressions : (indexWith f i).expression.toList ++ (indexWith f i).predicate.toList =
        (i.expression.toList ++ i.predicate.toList).map f := by
      rw [indexWith, List.map_append]
      cases i.expression <;> cases i.predicate <;> rfl
    rw [mapExpressions, references, references, hexpressions, flatMap_calls hf,
      extensions_mapExpressions]
    rfl
  | _ => rfl

/-- Objects depend on their expressions by the calls in them alone. -/
theorem dependencies_mapExpressions (object : SchemaObject) :
    dependencies (objects.map (mapExpressions f)) (object.mapExpressions f) =
      dependencies objects object :=
  congrArg Order.setOf (references_mapExpressions hf object)

end

end Registration

/-! ## The calls of an expression -/

open Expression Registration SchemaObject in
/-- **Calls are found exactly.**  The called functions are, in order, the calls in the text outside
quotes, and other text between quotes leaves the calls and the dependencies of all objects as they
are. -/
theorem calledFunctions_exact (expression : String) :
    (∃ found : List Part, (∀ part, part ∈ found ↔ IsCall (callText expression) part) ∧
      found.Pairwise (fun a b => a.before.length < b.before.length) ∧
      calledFunctions expression = found.map fun part => String.ofList part.name) ∧
    (∀ other, Requotes expression.toList other.toList →
      calledFunctions other = calledFunctions expression ∧
        ∀ objects, calls objects other = calls objects expression) ∧
    ∀ requote : String → String,
      (∀ sql, requote sql = sql ∨ Requotes sql.toList (requote sql).toList) →
        ∀ objects object, dependencies (objects.map (mapExpressions requote))
          (object.mapExpressions requote) = dependencies objects object := by
  refine ⟨?_, fun other h => ?_, fun requote h objects object => ?_⟩
  · obtain ⟨found, hfound, hordered, hcalls⟩ := exists_calls (quote_not_mem_callText expression)
    refine ⟨found, hfound, hordered, ?_⟩
    rw [calledFunctions, ← callText, hcalls, List.map_map]
    rfl
  · have hcalled := calledFunctions_of_requotes h
    refine ⟨hcalled, fun objects => ?_⟩
    rw [calls, calls, hcalled]
  · refine dependencies_mapExpressions (fun sql => ?_) object
    rcases h sql with hsame | hother
    · rw [hsame]
    · exact calledFunctions_of_requotes hother

/-- Calls inside calls, behind a blank and behind the qualifier; what looks like a call stands in a
literal, behind a quoted name, behind another qualifier and behind a digit. -/
def nestedCalls : String :=
  "Lower('x(') || PUBLIC.\"G\"(a.f (1)) || 2g(public.h\n(y))"

/-- The same with another literal. -/
def requotedCalls : String :=
  "Lower('It''s f(1)') || PUBLIC.\"G\"(a.f (1)) || 2g(public.h\n(y))"

open Expression Registration SchemaObject in
theorem calledFunctions_exact_nested :
    Requotes nestedCalls.toList requotedCalls.toList ∧
      calledFunctions nestedCalls = ["lower", "h"] ∧
      calledFunctions requotedCalls = calledFunctions nestedCalls ∧
      ∀ objects object,
        dependencies (objects.map (mapExpressions fun sql =>
            if sql = nestedCalls then requotedCalls else sql))
          (object.mapExpressions fun sql => if sql = nestedCalls then requotedCalls else sql) =
        dependencies objects object := by
  have hrequotes : Requotes nestedCalls.toList requotedCalls.toList :=
    ⟨"Lower(".toList.map .char, '\'', "x('".toList,
      lexemes ") || PUBLIC.\"G\"(a.f (1)) || 2g(public.h\n(y))".toList, "It's f(1)".toList,
      by decide +kernel, by decide +kernel⟩
  obtain ⟨-, hother, hall⟩ := calledFunctions_exact nestedCalls
  refine ⟨hrequotes, by decide +kernel, (hother _ hrequotes).1, hall _ fun sql => ?_⟩
  by_cases hsql : sql = nestedCalls
  · rw [hsql, if_pos rfl]
    exact .inr hrequotes
  · rw [if_neg hsql]
    exact .inl rfl

end SchemaPlan
