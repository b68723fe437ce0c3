import SchemaPlan.Migration.Execution
import SchemaPlan.Proofs.Session.Exchange

/-!
# The protocol of applying migrations

What is sent while migrations are applied, for every sequence of answers.

* `Executor.Permits` says of each statement what must have been exchanged right before it is sent
  for a migration,
* `obeys_of_apply`: applying one migration sends permitted statements only,
* `Executor.Course`: several migrations are applied in turn, up to the first that fails,
* `course_of_applyAll` and `Course.obeys`: every run is such a course, and a course obeys the rules.
-/

set_option autoImplicit false

namespace SchemaPlan

open Database Outcome
open Session (Exchange Obeys obeys_nil)

/-! ## The protocol -/

namespace Executor

variable {executor : Executor} {file : MigrationFile} {files : List MigrationFile}
  {earlier sent : List Exchange}

/-- The history has no record of a migration. -/
def unrecorded (file : MigrationFile) : Exchange := ⟨.findRecord file.name, .ok none⟩

/-- A transaction has begun. -/
def begun : Exchange := ⟨.beginTransaction, .ok ()⟩

/-- The record of a migration was inserted. -/
def recorded (file : MigrationFile) : Exchange := ⟨.insertRecord file.name file.checksum, .ok ()⟩

/-- The schema that names are looked up in was set. -/
def directed (schema : String) : Exchange := ⟨.setSearchPath schema, .ok ()⟩

/-- The script of a migration was run. -/
def ran (file : MigrationFile) : Exchange := ⟨.runScript file.body, .ok ()⟩

/-- All that goes before the script of a migration. -/
def opening (executor : Executor) (file : MigrationFile) : List Exchange :=
  [unrecorded file, begun, recorded file] ++ executor.schema.toList.map directed

/-- What must have been exchanged right before a statement is sent for a migration. -/
def Permits (executor : Executor) (file : MigrationFile) (earlier : List Exchange) :
    Statement → Prop
  | .historyExists => executor.dryRun = true
  | .findRecord name => name = file.name
  | .beginTransaction => executor.dryRun = false ∧ [unrecorded file] <:+ earlier
  | .insertRecord name checksum =>
    executor.dryRun = false ∧ name = file.name ∧ checksum = file.checksum ∧
      [unrecorded file, begun] <:+ earlier
  | .setSearchPath schema =>
    executor.dryRun = false ∧ executor.schema = some schema ∧
      [unrecorded file, begun, recorded file] <:+ earlier
  | .runScript text =>
    executor.dryRun = false ∧ text = file.body ∧ Digest.Sha256.textDigest text = file.checksum ∧
      executor.opening file <:+ earlier
  | .commit => executor.dryRun = false ∧ executor.opening file ++ [ran file] <:+ earlier
  | .createHistory | .listRecords | .countRecords | .readCatalog _ _ => False

/-- What was exchanged long ago does not matter. -/
theorem Permits.mono {statement : Statement} (h : executor.Permits file earlier statement)
    (past : List Exchange) : executor.Permits file (past ++ earlier) statement := by
  have long {ending : List Exchange} (h : ending <:+ earlier) : ending <:+ past ++ earlier :=
    h.trans (List.suffix_append past earlier)
  cases statement with
  | historyExists => exact h
  | findRecord name => exact h
  | beginTransaction => exact ⟨h.1, long h.2⟩
  | insertRecord name checksum => exact ⟨h.1, h.2.1, h.2.2.1, long h.2.2.2⟩
  | setSearchPath schema => exact ⟨h.1, h.2.1, long h.2.2⟩
  | runScript text => exact ⟨h.1, h.2.1, h.2.2.1, long h.2.2.2⟩
  | commit => exact ⟨h.1, long h.2⟩
  | createHistory => exact h
  | listRecords => exact h
  | countRecords => exact h
  | readCatalog part schema => exact h

/-- The statements that look a migration up. -/
def Asks (executor : Executor) (file : MigrationFile) (statement : Statement) : Prop :=
  statement = .historyExists ∧ executor.dryRun = true ∨ statement = .findRecord file.name

theorem Asks.permits {statement : Statement} (h : executor.Asks file statement) :
    executor.Permits file earlier statement := by
  rcases h with ⟨rfl, hdry⟩ | rfl
  · exact hdry
  · rfl

/-! ## One migration -/

/-- The transaction of a migration, once the history has no record of it. -/
theorem obeys_of_runFile {result : Except MigrationError Unit} (hintact : file.isIntact = true)
    (hreal : executor.dryRun = false) (h : (executor.runFile file).Yields sent result) :
    Obeys (executor.Permits file) [unrecorded file] sent := by
  have hdigest : Digest.Sha256.textDigest file.body = file.checksum := eq_of_beq hintact
  have hscript {sent : List Exchange} {result : Except MigrationError Unit}
      (h : (do Attempt.send (.runScript file.body); Attempt.send .commit).Yields sent result) :
      Obeys (executor.Permits file) (executor.opening file) sent := by
    refine Attempt.obeys_of_send h ⟨hreal, rfl, hdigest, List.suffix_refl _⟩ fun _ rest h => ?_
    obtain ⟨answer, rfl, -⟩ := Attempt.yields_send_iff.1 h
    exact .cons ⟨hreal, List.suffix_refl _⟩ (obeys_nil _)
  refine Attempt.obeys_of_send h ⟨hreal, List.suffix_refl _⟩ fun _ rest h => ?_
  refine Attempt.obeys_of_send h ⟨hreal, rfl, rfl, List.suffix_refl _⟩ fun _ rest h => ?_
  cases hschema : executor.schema with
  | none =>
    have hopening : executor.opening file = [unrecorded file, begun, recorded file] := by
      simp [opening, hschema]
    simp only [hschema] at h
    have hall := hscript h
    rw [hopening] at hall
    exact hall
  | some schema =>
    have hopening : executor.opening file =
        [unrecorded file, begun, recorded file, directed schema] := by
      simp [opening, hschema]
    simp only [hschema] at h
    refine Attempt.obeys_of_send h ⟨hreal, hschema, List.suffix_refl _⟩ fun _ rest h => ?_
    have hall := hscript h
    rw [hopening] at hall
    exact hall

/-- A dry run asks first whether there is a history. -/
theorem record?_then_of_dryRun {β : Type} (hdry : executor.dryRun = true) (name : String)
    (next : Option AppliedMigration → Attempt β) :
    (executor.record? name >>= next) = (Attempt.send .historyExists >>= fun (ready : Bool) =>
      if ready then Attempt.send (.findRecord name) >>= next else next none) := by
  obtain ⟨dryRun, schema⟩ := executor
  cases hdry
  refine (bind_assoc _ _ _).trans (congrArg _ (funext fun ready => ?_))
  cases ready with
  | true => rfl
  | false => rfl

theorem record?_of_real (hreal : executor.dryRun = false) (name : String) :
    executor.record? name = Attempt.send (.findRecord name) := by
  obtain ⟨dryRun, schema⟩ := executor
  cases hreal
  rfl

theorem applyNew_of_real (hreal : executor.dryRun = false) :
    executor.applyNew file = (do
      Attempt.notice (.applying file.name)
      executor.runFile file
      Attempt.notice (.applied file.name file.checksum)
      pure .applied) := by
  obtain ⟨dryRun, schema⟩ := executor
  cases hreal
  rfl

/-- Nothing is sent for a migration that the history records. -/
theorem eq_nil_of_recorded {record : AppliedMigration}
    {result : Except MigrationError ApplyOutcome}
    (h : Attempt.Yields (if record.checksum = file.checksum then pure .alreadyApplied
      else throw (.checksumMismatch file.name record.checksum file.checksum)) sent result) :
    sent = [] := by
  split at h
  · exact (Attempt.yields_pure_iff.1 h).1
  · exact (Attempt.yields_throw_iff.1 h).1

/-- A dry run sends nothing for a migration that the history does not record. -/
theorem eq_nil_of_applyNew {result : Except MigrationError ApplyOutcome}
    (hdry : executor.dryRun = true) (h : (executor.applyNew file).Yields sent result) :
    sent = [] := by
  simp only [applyNew, hdry, if_true, Attempt.yields_notice_then_iff,
    Attempt.yields_print_then_iff] at h
  exact (Attempt.yields_pure_iff.1 h).1

/-- What is sent for a migration that the history does not record is its transaction. -/
theorem exists_of_applyNew {result : Except MigrationError ApplyOutcome}
    (hreal : executor.dryRun = false) (h : (executor.applyNew file).Yields sent result) :
    ∃ result, (executor.runFile file).Yields sent result := by
  rw [applyNew_of_real hreal, Attempt.yields_notice_then_iff] at h
  rcases Attempt.yields_bind_iff.1 h with
    ⟨error, hrun, -⟩ | ⟨first, value, second, hrun, hnotice, rfl⟩
  · exact ⟨_, hrun⟩
  · rw [Attempt.yields_notice_then_iff, Attempt.yields_pure_iff] at hnotice
    obtain ⟨rfl, -⟩ := hnotice
    rw [List.append_nil]
    exact ⟨_, hrun⟩

/-- What applying a migration can come to: it only asks whether the migration is recorded, or it
runs an intact migration that is not. -/
theorem apply_cases {result : Except MigrationError ApplyOutcome}
    (h : (executor.apply file).Yields sent result) :
    (∀ exchange ∈ sent, executor.Asks file exchange.statement) ∨
      file.isIntact = true ∧ executor.dryRun = false ∧ ∃ rest result,
        sent = unrecorded file :: rest ∧ (executor.runFile file).Yields rest result := by
  rcases Attempt.yields_ofExcept_then_iff.1 h with ⟨_, -, rfl, -⟩ | ⟨_, hverify, h⟩
  · exact .inl (List.forall_mem_nil _)
  have hintact : file.isIntact = true := by
    simpa [MigrationFile.verify] using hverify
  have hasks : executor.Asks file (.findRecord file.name) := .inr rfl
  cases hdry : executor.dryRun with
  | true =>
    left
    have hready : executor.Asks file .historyExists := .inl ⟨rfl, hdry⟩
    rw [record?_then_of_dryRun hdry] at h
    rcases Attempt.yields_send_then_iff.1 h with ⟨_, rfl, -⟩ | ⟨ready, rest, rfl, hlookup⟩
    · exact List.forall_mem_singleton.2 hready
    refine List.forall_mem_cons.2 ⟨hready, ?_⟩
    cases ready with
    | false =>
      obtain rfl := eq_nil_of_applyNew hdry hlookup
      exact List.forall_mem_nil _
    | true =>
      rcases Attempt.yields_send_then_iff.1 hlookup with ⟨_, rfl, -⟩ | ⟨record, rest, rfl, hrest⟩
      · exact List.forall_mem_singleton.2 hasks
      have hnil : rest = [] := by
        cases record with
        | some record => exact eq_nil_of_recorded hrest
        | none => exact eq_nil_of_applyNew hdry hrest
      rw [hnil]
      exact List.forall_mem_singleton.2 hasks
  | false =>
    rw [record?_of_real hdry] at h
    rcases Attempt.yields_send_then_iff.1 h with ⟨_, rfl, -⟩ | ⟨record, rest, rfl, hrest⟩
    · exact .inl (List.forall_mem_singleton.2 hasks)
    cases record with
    | some record =>
      obtain rfl := eq_nil_of_recorded hrest
      exact .inl (List.forall_mem_singleton.2 hasks)
    | none =>
      obtain ⟨_, hrun⟩ := exists_of_applyNew hdry hrest
      exact .inr ⟨hintact, rfl, rest, _, rfl, hrun⟩

/-- Applying a migration obeys its rules, whatever is answered. -/
theorem obeys_of_apply {result : Except MigrationError ApplyOutcome}
    (h : (executor.apply file).Yields sent result) :
    Obeys (executor.Permits file) [] sent := by
  rcases apply_cases h with hasks | ⟨hintact, hreal, rest, _, rfl, hrun⟩
  · rintro before exchange after rfl
    exact (hasks exchange (by simp)).permits
  · exact .cons rfl (obeys_of_runFile hintact hreal hrun)

/-! ## Several migrations -/

/-- What is sent for several migrations: what is sent for each of them in turn, up to the first
that fails. -/
inductive Course (executor : Executor) :
    List MigrationFile → List Exchange → Except MigrationError (List ApplyOutcome) → Prop
  | finished : Course executor [] [] (.ok [])
  | failed {file : MigrationFile} {later : List MigrationFile} {sent : List Exchange}
      {error : MigrationError} (fails : (executor.apply file).Yields sent (.error error)) :
      Course executor (file :: later) sent (.error error)
  | went {file : MigrationFile} {later : List MigrationFile} {sent sent' : List Exchange}
      {outcome : ApplyOutcome} {result : Except MigrationError (List ApplyOutcome)}
      (goes : (executor.apply file).Yields sent (.ok outcome))
      (rest : Course executor later sent' result) :
      Course executor (file :: later) (sent ++ sent') (result.map (outcome :: ·))

/-- A run over several migrations is a course. -/
theorem course_of_applyAll {result : Except MigrationError (List ApplyOutcome)}
    (h : (executor.applyAll files).Yields sent result) : executor.Course files sent result := by
  induction files generalizing sent result with
  | nil =>
    obtain ⟨rfl, rfl⟩ := Attempt.yields_pure_iff.1 h
    exact .finished
  | cons file later ih =>
    rw [applyAll, List.mapM_cons] at h
    rcases Attempt.yields_bind_iff.1 h with
      ⟨error, hfails, rfl⟩ | ⟨_, outcome, _, hgoes, hlater, rfl⟩
    · exact .failed hfails
    rcases Attempt.yields_bind_iff.1 hlater with
      ⟨error, hrest, rfl⟩ | ⟨_, outcomes, _, hrest, hend, rfl⟩
    · exact .went hgoes (ih hrest)
    · obtain ⟨rfl, rfl⟩ := Attempt.yields_pure_iff.1 hend
      rw [List.append_nil]
      exact .went hgoes (ih hrest)

/-- What is sent while migrations are applied, and what comes of it. -/
structure FollowsProtocol (executor : Executor) (files : List MigrationFile)
    (sent : List Exchange) (result : Except MigrationError (List ApplyOutcome)) : Prop where
  /-- Every statement is permitted for one of the migrations when it is sent. -/
  obeys : Obeys (fun earlier statement => ∃ file ∈ files, executor.Permits file earlier statement)
    [] sent
  /-- After the first migration that fails nothing is sent for a later one. -/
  course : executor.Course files sent result

/-- The statements of a course are permitted. -/
theorem Course.obeys {result : Except MigrationError (List ApplyOutcome)}
    (h : executor.Course files sent result) :
    Obeys (fun earlier statement => ∃ file ∈ files, executor.Permits file earlier statement)
      [] sent := by
  induction h with
  | finished => exact obeys_nil _
  | failed fails =>
    exact (obeys_of_apply fails).mono fun _ _ h => ⟨_, List.mem_cons_self, h⟩
  | went goes _ ih =>
    refine Obeys.append ?_ (Obeys.later ?_ _ ?_)
    · exact (obeys_of_apply goes).mono fun _ _ h => ⟨_, List.mem_cons_self, h⟩
    · rintro past _ _ ⟨file, hfile, h⟩
      exact ⟨file, hfile, h.mono past⟩
    · exact ih.mono fun _ _ ⟨file, hfile, h⟩ => ⟨file, List.mem_cons_of_mem _ hfile, h⟩

end Executor

end SchemaPlan
