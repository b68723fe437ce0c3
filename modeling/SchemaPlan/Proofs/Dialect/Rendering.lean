import SchemaPlan.Dialect.Script
import SchemaPlan.Proofs.Change.Replay

/-!
# Change sets in Postgres

Postgres has a statement for everything that a comparison can come up with.

* `Operation.tasks` lists what an operation has to do, each by a statement of its own, and
  `Task.IsDoneBy` says which statement does it,
* `statements_of_renderable`: an operation is rendered as one statement for each of its tasks,
* `renderable_of_diff`: what can not be renamed in Postgres is not renamed by a change set,
* `postgres_script_of_diff`: every change set has a script, with one statement for each task.
-/

set_option autoImplicit false

namespace SchemaPlan

/-! ## Tasks -/

/-- Something that takes one statement. -/
inductive Task where
  | create (object : SchemaObject)
  | drop (object : SchemaObject)
  | alter (target : ObjectId) (part : AlterChange)
  | rename (source target : ObjectId)
  | commentTable (table comment : String)
  | commentColumn (table column comment : String)

/-- The comment of a column as a task. -/
def Column.comments (column : Column) (table : String) : List Task :=
  column.comment.toList.map (.commentColumn table column.name)

/-- The comments of an object and of its columns. -/
def SchemaObject.comments : SchemaObject → List Task
  | .table t =>
    t.comment.toList.map (.commentTable t.name) ++ t.columns.flatMap fun column =>
      column.comments t.name
  | _ => []

/-- The comment that comes with a change of a table. -/
def AlterChange.comments (table : String) : AlterChange → List Task
  | .addColumn column => column.comments table
  | _ => []

/-- What an operation has to do, in order. -/
def Operation.tasks : Operation → List Task
  | .create object => .create object :: object.comments
  | .drop object => [.drop object]
  | .alter target parts =>
    parts.flatMap fun part => .alter target part :: part.comments target.name
  | .rename source target => [.rename source target]

namespace Task

/-- How the statement that creates an object starts. -/
def createVerb : SchemaObject → String
  | .extension _ => "CREATE EXTENSION IF NOT EXISTS "
  | .enum _ => "CREATE TYPE "
  | .function _ => "CREATE OR REPLACE FUNCTION "
  | .table _ => "CREATE TABLE "
  | .constraint _ => "ALTER TABLE "
  | .index _ => "CREATE "
  | .trigger _ => "CREATE TRIGGER "

/-- How the statement that drops an object starts. -/
def dropVerb : SchemaObject → String
  | .extension _ => "DROP EXTENSION "
  | .enum _ => "DROP TYPE "
  | .function _ => "DROP FUNCTION "
  | .table _ => "DROP TABLE "
  | .constraint _ => "ALTER TABLE "
  | .index _ => "DROP INDEX "
  | .trigger _ => "DROP TRIGGER "

/-- How the statement of a change starts. -/
def alterVerb : AlterChange → String
  | .addEnumLabel _ _ => "ALTER TYPE "
  | .replaceFunction _ => "CREATE OR REPLACE FUNCTION "
  | .setComment _ => "COMMENT ON TABLE "
  | .setColumnComment _ _ => "COMMENT ON COLUMN "
  | _ => "ALTER TABLE "

/-- How the statement that renames an object starts; extensions have none. -/
def renameVerb : ObjectKind → String
  | .extension => ""
  | .enum => "ALTER TYPE "
  | .function => "ALTER FUNCTION "
  | .table | .constraint => "ALTER TABLE "
  | .index => "ALTER INDEX "
  | .trigger => "ALTER TRIGGER "

/-- How the statement of a task starts. -/
def verb : Task → String
  | create object => createVerb object
  | drop object => dropVerb object
  | alter _ part => alterVerb part
  | rename source _ => renameVerb source.kind
  | commentTable _ _ => "COMMENT ON TABLE "
  | commentColumn _ _ _ => "COMMENT ON COLUMN "

/-- Whether a statement of Postgres does just what a task asks for. -/
def IsDoneBy (task : Task) (statement : String) : Prop :=
  (∃ rest, statement = task.verb ++ rest) ∧
    match task with
    | create object =>
      ∃ comments, Dialect.postgres.create object = .ok (statement :: comments)
    | drop object => Dialect.postgres.drop object = .ok statement
    | alter target part =>
      ∃ comments, Dialect.postgres.alterOnce target.name part = .ok (statement :: comments)
    | rename source target => Dialect.postgres.rename source target = .ok statement
    | commentTable table comment => statement = Postgres.commentOnTable table (some comment)
    | commentColumn table column comment =>
      statement = Postgres.commentOnColumn table column (some comment)

end Task

/-! ## How statements start -/

theorem starts_self (verb : String) : ∃ rest, verb = verb ++ rest :=
  ⟨"", String.append_empty.symm⟩

theorem starts_append {verb text : String} (h : ∃ rest, text = verb ++ rest) (more : String) :
    ∃ rest, text ++ more = verb ++ rest := by
  obtain ⟨rest, rfl⟩ := h
  exact ⟨rest ++ more, String.append_assoc⟩

namespace Postgres

theorem starts_commentOnTable (table : String) (comment : Option String) :
    ∃ rest, commentOnTable table comment = "COMMENT ON TABLE " ++ rest := by
  unfold commentOnTable
  repeat apply starts_append
  exact starts_self _

theorem starts_commentOnColumn (table column : String) (comment : Option String) :
    ∃ rest, commentOnColumn table column comment = "COMMENT ON COLUMN " ++ rest := by
  unfold commentOnColumn
  repeat apply starts_append
  exact starts_self _

theorem starts_createFunction (function : Function) :
    ∃ rest, createFunction function = "CREATE OR REPLACE FUNCTION " ++ rest := by
  unfold createFunction
  repeat apply starts_append
  exact starts_self _

theorem starts_createTrigger (trigger : Trigger) :
    ∃ rest, createTrigger trigger = "CREATE TRIGGER " ++ rest := by
  unfold createTrigger
  repeat apply starts_append
  exact starts_self _

end Postgres

namespace Dialect

open Text (quoteIdentifier quoteList join)

/-! ## Comments -/

/-- The statement for the comment of a column, if it has one. -/
def columnComment (table : String) (column : Column) : List String :=
  column.comment.toList.map fun comment => Postgres.commentOnColumn table column.name (some comment)

theorem forall₂_columnComment (table : String) (column : Column) :
    List.Forall₂ Task.IsDoneBy (column.comments table) (columnComment table column) := by
  rw [Column.comments, columnComment]
  cases column.comment with
  | none => exact .nil
  | some comment => exact .cons ⟨Postgres.starts_commentOnColumn _ _ _, rfl⟩ .nil

/-- The columns that have a comment get one statement each. -/
theorem columnComments_postgres (table : Table) :
    Dialect.postgres.columnComments table =
      .ok (table.columns.flatMap (columnComment table.name)) := by
  have hcomments : table.columns.flatMap (columnComment table.name) =
      (table.columns.filter fun column => column.comment.isSome).map fun column =>
        Postgres.commentOnColumn table.name column.name column.comment := by
    induction table.columns with
    | nil => rfl
    | cons column columns ih =>
      rw [List.flatMap_cons, ih, List.filter_cons, columnComment]
      cases hcomment : column.comment with
      | none => rfl
      | some comment =>
        rw [Option.isSome_some, if_pos rfl, List.map_cons, hcomment]
        rfl
  rw [hcomments]
  exact Outcome.mapM_eq_ok_map fun column _ => rfl

/-- The comments of a table and of its columns. -/
def tableComments (table : Table) : List String :=
  (table.comment.toList.map fun comment => Postgres.commentOnTable table.name (some comment)) ++
    table.columns.flatMap (columnComment table.name)

theorem forall₂_tableComments (table : Table) :
    List.Forall₂ Task.IsDoneBy (SchemaObject.table table).comments (tableComments table) := by
  refine List.rel_append ?_ ?_
  · cases table.comment with
    | none => exact .nil
    | some comment => exact .cons ⟨Postgres.starts_commentOnTable _ _, rfl⟩ .nil
  · induction table.columns with
    | nil => exact .nil
    | cons column columns ih =>
      rw [List.flatMap_cons, List.flatMap_cons]
      exact List.rel_append (forall₂_columnComment table.name column) ih

/-! ## Creating and dropping -/

/-- A table is created by one statement, which is followed by those of its comments. -/
theorem createTable_postgres (table : Table) :
    ∃ statement, Dialect.postgres.createTable table = .ok (statement :: tableComments table) ∧
      ∃ rest, statement = "CREATE TABLE " ++ rest := by
  have hcomment : (table.comment.toList.mapM fun comment =>
      Dialect.postgres.commentOnTable table.name (some comment)) =
      .ok (table.comment.toList.map fun comment =>
        Postgres.commentOnTable table.name (some comment)) :=
    Outcome.mapM_eq_ok_map fun comment _ => rfl
  have hcolumns : ∃ definitions,
      table.columns.mapM Dialect.postgres.columnDefinition = .ok definitions :=
    ⟨_, Outcome.mapM_eq_ok_map fun column _ => rfl⟩
  obtain ⟨definitions, hcolumns⟩ := hcolumns
  refine ⟨"CREATE TABLE " ++ quoteIdentifier table.name ++ " (\n" ++
    join ",\n" ((definitions ++ table.constraints.map Constraint.clause).map fun part =>
      "    " ++ part) ++ "\n)", ?_, ?_⟩
  · rw [createTable, hcolumns, hcomment, columnComments_postgres]
    rfl
  · repeat apply starts_append
    exact starts_self _

/-- An object is created by one statement, which is followed by those of its comments. -/
theorem forall₂_create (object : SchemaObject) :
    ∃ statements, Dialect.postgres.create object = .ok statements ∧
      List.Forall₂ Task.IsDoneBy (Operation.create object).tasks statements := by
  cases object with
  | extension e => exact ⟨_, rfl, .cons ⟨starts_append (starts_self _) _, [], rfl⟩ .nil⟩
  | enum e =>
    refine ⟨[Postgres.createEnum e], rfl, .cons ⟨?_, [], rfl⟩ .nil⟩
    repeat apply starts_append
    exact starts_self _
  | function f =>
    exact ⟨_, rfl, .cons ⟨Postgres.starts_createFunction f, [], rfl⟩ .nil⟩
  | table t =>
    obtain ⟨statement, hcreate, hstarts⟩ := createTable_postgres t
    exact ⟨_, hcreate, .cons ⟨hstarts, _, hcreate⟩ (forall₂_tableComments t)⟩
  | constraint c =>
    refine ⟨_, rfl, .cons ⟨?_, [], rfl⟩ .nil⟩
    repeat apply starts_append
    exact starts_self _
  | index i =>
    obtain ⟨method, hmethod⟩ :
        ∃ method, Dialect.postgres.indexMethodClause i.method = .ok method := by
      rw [indexMethodClause]
      split
      · exact ⟨_, rfl⟩
      · exact ⟨_, rfl⟩
    have hcreate : ∃ statement, Dialect.postgres.create (.index i) = .ok [statement] ∧
        ∃ rest, statement = "CREATE " ++ rest := by
      rw [create, createIndex, hmethod]
      refine ⟨_, rfl, ?_⟩
      repeat apply starts_append
      exact starts_self _
    obtain ⟨statement, hcreate, hstarts⟩ := hcreate
    exact ⟨_, hcreate, .cons ⟨hstarts, [], hcreate⟩ .nil⟩
  | trigger t =>
    exact ⟨_, rfl, .cons ⟨Postgres.starts_createTrigger t, [], rfl⟩ .nil⟩

/-- An object is dropped by one statement. -/
theorem exists_drop (object : SchemaObject) :
    ∃ statement, Dialect.postgres.drop object = .ok statement ∧
      (Task.drop object).IsDoneBy statement := by
  cases object <;>
  · refine ⟨_, rfl, ?_, rfl⟩
    repeat apply starts_append
    exact starts_self _

/-! ## Altering -/

/-- A change is one statement, and that of the comment which comes with it. -/
theorem forall₂_alterOnce (target : ObjectId) (part : AlterChange) :
    ∃ statements, Dialect.postgres.alterOnce target.name part = .ok statements ∧
      List.Forall₂ Task.IsDoneBy (.alter target part :: part.comments target.name) statements := by
  cases part with
  | addColumn column =>
    have hcomment : (column.comment.toList.mapM fun comment =>
        Dialect.postgres.commentOnColumn target.name column.name (some comment)) =
        .ok (columnComment target.name column) :=
      Outcome.mapM_eq_ok_map fun comment _ => rfl
    have hadd : ∃ statement, Dialect.postgres.alterOnce target.name (.addColumn column) =
        .ok (statement :: columnComment target.name column) ∧
        ∃ rest, statement = "ALTER TABLE " ++ rest := by
      obtain ⟨definition, hdefinition⟩ :
          ∃ definition, Dialect.postgres.columnDefinition column = .ok definition := ⟨_, rfl⟩
      rw [alterOnce, addColumn, hdefinition, hcomment]
      refine ⟨_, rfl, ?_⟩
      repeat apply starts_append
      exact starts_self _
    obtain ⟨statement, hadd, hstarts⟩ := hadd
    exact ⟨_, hadd, .cons ⟨hstarts, _, hadd⟩ (forall₂_columnComment target.name column)⟩
  | addEnumLabel label position =>
    refine ⟨[Postgres.addEnumLabel target.name label position], rfl, .cons ⟨?_, [], rfl⟩ .nil⟩
    repeat apply starts_append
    exact starts_self _
  | replaceFunction function =>
    exact ⟨_, rfl, .cons ⟨Postgres.starts_createFunction function, [], rfl⟩ .nil⟩
  | _ =>
    refine ⟨_, rfl, .cons ⟨?_, [], rfl⟩ .nil⟩
    repeat apply starts_append
    exact starts_self _

/-! ## Renaming -/

/-- Whether an operation that renames has a statement to do so. -/
def Renderable (operation : Operation) : Prop :=
  ∀ source target, operation = .rename source target → ∃ head, renameHead source = .ok head

/-- The statement that renames an object starts as its kind asks for. -/
theorem starts_of_renameHead {source : ObjectId} {head : String}
    (h : renameHead source = .ok head) :
    ∃ rest, head = Task.renameVerb source.kind ++ rest := by
  cases hkind : source.kind <;> cases hscope : source.tableScope? <;>
    rw [renameHead.eq_def, hkind, hscope] at h <;> cases h <;>
  · repeat apply starts_append
    exact starts_self _

theorem exists_rename {source : ObjectId} (target : ObjectId) {head : String}
    (h : renameHead source = .ok head) :
    ∃ statement, Dialect.postgres.rename source target = .ok statement ∧
      (Task.rename source target).IsDoneBy statement := by
  have hrename : Dialect.postgres.rename source target =
      .ok (head ++ " TO " ++ quoteIdentifier target.localName) := by
    rw [rename, h]
    rfl
  exact ⟨_, hrename, starts_append (starts_append (starts_of_renameHead h) _) _, hrename⟩

/-- Constraints and triggers are known by a name with a dot in it. -/
theorem exists_tableScope? {object : SchemaObject} {id : ObjectId}
    (h : Change.holds object id = true) (hkind : id.kind.isTableScoped = true) :
    ∃ scope, id.tableScope? = some scope := by
  unfold Change.holds at h
  rcases Bool.or_eq_true_iff.1 h with hid | hpart
  · rw [← beq_iff_eq.1 hid] at hkind ⊢
    cases object with
    | constraint c => exact ObjectId.exists_tableScope?_within rfl c.table c.constraint.name
    | trigger t => exact ObjectId.exists_tableScope?_within rfl t.table t.name
    | _ => cases hkind
  · split at hpart
    · rename_i hscope
      exact ⟨_, hscope⟩
    · cases hpart

/-- What can be renamed has a statement to rename it. -/
theorem renderable_of_run {objects renamed : List SchemaObject} {operation : Operation}
    (h : Change.run objects operation = .ok renamed) : Renderable operation := by
  rintro source target rfl
  obtain ⟨⟨object, -, hholds⟩, -, hextension, -⟩ := Change.renameObject_eq_ok_iff.1 h
  have hscope := exists_tableScope? hholds
  rw [renameHead.eq_def]
  cases hkind : source.kind with
  | extension => exact absurd hkind hextension
  | constraint =>
    obtain ⟨scope, hscope⟩ := hscope (by rw [hkind]; rfl)
    rw [hscope]
    exact ⟨_, rfl⟩
  | trigger =>
    obtain ⟨scope, hscope⟩ := hscope (by rw [hkind]; rfl)
    rw [hscope]
    exact ⟨_, rfl⟩
  | _ => exact ⟨_, rfl⟩

/-! ## Change sets -/

/-- An operation is rendered as one statement for each of its tasks. -/
theorem statements_of_renderable {operation : Operation} (h : Renderable operation) :
    ∃ statements, Dialect.postgres.statements operation = .ok statements ∧
      List.Forall₂ Task.IsDoneBy operation.tasks statements := by
  cases operation with
  | create object =>
    obtain ⟨statements, hcreate, hdone⟩ := forall₂_create object
    exact ⟨statements, Outcome.mapError_eq_ok_iff.2 hcreate, hdone⟩
  | drop object =>
    obtain ⟨statement, hdrop, hdone⟩ := exists_drop object
    refine ⟨[statement], Outcome.mapError_eq_ok_iff.2 ?_, .cons hdone .nil⟩
    exact Outcome.map_eq_ok_iff.2 ⟨statement, hdrop, rfl⟩
  | alter target parts =>
    obtain ⟨all, hall, hdone⟩ := Outcome.mapM_flatten fun part (_ : part ∈ parts) =>
      forall₂_alterOnce target part
    refine ⟨all.flatten, Outcome.mapError_eq_ok_iff.2 ?_, hdone⟩
    exact Outcome.map_eq_ok_iff.2 ⟨all, hall, rfl⟩
  | rename source target =>
    obtain ⟨head, hhead⟩ := h source target rfl
    obtain ⟨statement, hrename, hdone⟩ := exists_rename target hhead
    refine ⟨[statement], Outcome.mapError_eq_ok_iff.2 ?_, .cons hdone .nil⟩
    exact Outcome.map_eq_ok_iff.2 ⟨statement, hrename, rfl⟩

theorem renderable_of_not_renames {operation : Operation} (h : operation.renames = false) :
    Renderable operation := by
  rintro source target rfl
  cases h

/-- The operations of a run are renderable. -/
theorem renderable_of_foldlM {operations : List Operation} {objects renamed : List SchemaObject}
    (h : operations.foldlM Change.run objects = .ok renamed) :
    ∀ operation ∈ operations, Renderable operation := by
  induction operations generalizing objects with
  | nil => exact List.forall_mem_nil _
  | cons operation operations ih =>
    rw [List.foldlM_cons] at h
    obtain ⟨next, hnext, h⟩ := Outcome.bind_eq_ok_iff.1 h
    exact List.forall_mem_cons.2 ⟨renderable_of_run hnext, ih h⟩

section Changes

variable {options : DiffOptions} {declared live : SchemaGraph} {changes : ChangeSet}

/-- A change set renames only what it found, and no extensions. -/
theorem renderable_of_diff (h : diff options declared live = .ok changes) :
    ∀ operation ∈ changes.operations, Renderable operation := by
  obtain ⟨⟨renamed, renames⟩, happly, hplan⟩ := Outcome.bind_eq_ok_iff.1 h
  obtain ⟨rest, hoperations, hrest⟩ := Change.exists_plan_of_renames hplan
  obtain ⟨-, -, -, -, hlead⟩ := Change.applyHints_replays happly
  rw [hoperations]
  refine List.forall_mem_append.2 ⟨?_, fun operation hmem =>
    renderable_of_not_renames (Change.not_renames_of_plan hrest operation hmem)⟩
  rcases hlead with ⟨rfl, -⟩ | ⟨objects, hrun, -⟩
  · exact List.forall_mem_nil _
  · exact renderable_of_foldlM hrun

/-- **Every change set has a script in Postgres**, which has one statement for each object that is
created or dropped, for each rename and for each change, and one for each comment that comes with a
created table or an added column, in the order of the operations. -/
theorem postgres_script_of_diff (h : diff options declared live = .ok changes) :
    ∃ statements, Dialect.postgres.script changes.operations = .ok ⟨statements⟩ ∧
      List.Forall₂ Task.IsDoneBy (changes.operations.flatMap Operation.tasks) statements := by
  obtain ⟨all, hall, hdone⟩ := Outcome.mapM_flatten fun operation hmem =>
    statements_of_renderable (renderable_of_diff h operation hmem)
  exact ⟨all.flatten, Outcome.map_eq_ok_iff.2 ⟨all, hall, rfl⟩, hdone⟩

end Changes

/-- A table is renamed and gets a column with a comment. -/
theorem postgres_script_of_diff_album : ∃ declared live changes statements,
    register [.table { name := "album", columns := [
      { name := "name", type := .text },
      { name := "year", type := .integer, comment := some "of release" }] }] = .ok declared ∧
    register [.table { name := "albums", columns := [
      { name := "name", type := .text }] }] = .ok live ∧
    diff { renames := [⟨.table, "albums", "album"⟩] } declared live = .ok changes ∧
    Dialect.postgres.script changes.operations = .ok ⟨statements⟩ ∧
    List.Forall₂ Task.IsDoneBy
      [.rename (.table "albums") (.table "album"),
        .alter (.table "album")
          (.addColumn { name := "year", type := .integer, comment := some "of release" }),
        .commentColumn "album" "year" "of release"] statements := by
  have hrun : (do
      let declared ← register [.table { name := "album", columns := [
        { name := "name", type := .text },
        { name := "year", type := .integer, comment := some "of release" }] }]
      let live ← register [.table { name := "albums", columns := [
        { name := "name", type := .text }] }]
      let changes ← diff { renames := [⟨.table, "albums", "album"⟩] } declared live
      pure changes.operations) = .ok [.rename (.table "albums") (.table "album"),
        .alter (.table "album")
          [.addColumn { name := "year", type := .integer, comment := some "of release" }]] := by
    simp only [diff, Change.plan, Change.orderSteps, Change.Step.mergeSort_before]
    decide +kernel
  obtain ⟨declared, hdeclared, hrun⟩ := Outcome.bind_eq_ok_iff.1 hrun
  obtain ⟨live, hlive, hrun⟩ := Outcome.bind_eq_ok_iff.1 hrun
  obtain ⟨changes, hdiff, hoperations⟩ := Outcome.bind_eq_ok_iff.1 hrun
  obtain ⟨statements, hscript, hdone⟩ := postgres_script_of_diff hdiff
  refine ⟨declared, live, changes, statements, hdeclared, hlive, hdiff, hscript, ?_⟩
  rw [Except.ok.inj hoperations] at hdone
  exact hdone

end Dialect

end SchemaPlan
