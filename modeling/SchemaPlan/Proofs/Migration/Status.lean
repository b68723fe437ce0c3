import SchemaPlan.Proofs.Database.History
import SchemaPlan.Proofs.Migration.ExactlyOnce
import SchemaPlan.Proofs.Order.Sorted
import SchemaPlan.Proofs.Session.Run

/-!
# One story of every migration

Whether a migration is pending, drifted or applied is decided in three places: `Executor.status`
takes its record out of all records, `Executor.pending` searches all records for its name, and
`Executor.apply` asks for one record.  Each of them compares other checksums.

* `statusIn`: the state of a migration, read off the history,
* `run_records` and `run_record?`: what is read from a database that answers from its history,
* `pairUp_eq_map`: records that are taken out are not missed by migrations of other names,
* `run_apply_of_drifted`, `run_apply_of_recorded`, `run_apply_of_new`: the three ways to go on,
* `status_pending_apply_agree`: the three commands agree about every migration.
-/

set_option autoImplicit false

namespace SchemaPlan

open Database Outcome

namespace Executor

variable {σ : Type} {server : Server σ} {holds : σ → Option (List AppliedMigration) → Prop}
  {executor : Executor} {file : MigrationFile} {files : List MigrationFile} {state : σ}
  {history : Option (List AppliedMigration)}

/-- The state of a migration, read off the history. -/
def statusIn (history : Option (List AppliedMigration)) (file : MigrationFile) :
    MigrationStatus :=
  ⟨file.name, recordIn history file.name, file.driftsFrom (recordIn history file.name)⟩

/-- Whether an event brings out the script of a migration: it is sent, or printed in a dry run. -/
def BringsOut (executor : Executor) (file : MigrationFile) : Session.Event → Prop
  | .shown (.text text) => executor.dryRun = true ∧ text = "-- " ++ file.name ++ "\n" ++ file.body
  | .sent (.runScript text) _ => executor.dryRun = false ∧ text = file.body
  | _ => False

/-- Whether a run comes to the script of a migration. -/
def ComesTo (executor : Executor) (file : MigrationFile) (events : List Session.Event) : Prop :=
  ∃ event ∈ events, executor.BringsOut file event

/-- Whether there is a history to read; only a dry run does without one. -/
def CanRead (executor : Executor) (history : Option (List AppliedMigration)) : Prop :=
  executor.dryRun = true ∨ history.isSome = true

/-! ## What is read -/

/-- A dry run asks whether there is a history, any other takes it for granted. -/
theorem run_hasHistory (hserver : AnswersFromHistory server holds)
    (hread : executor.CanRead history) (h : holds state history) :
    ∃ events after, executor.hasHistory.run.run server state =
        ⟨.ok history.isSome, events, after⟩ ∧
      (∀ file, ¬executor.ComesTo file events) ∧ holds after history := by
  obtain ⟨dryRun, schema⟩ := executor
  cases dryRun with
  | true =>
    obtain ⟨after, hanswer, hafter⟩ := hserver.historyExists h
    refine ⟨_, after, Attempt.run_send_of_ok hanswer, ?_, hafter⟩
    simp [ComesTo, BringsOut]
  | false =>
    have hsome : history.isSome = true := hread.resolve_left Bool.false_ne_true
    refine ⟨[], state, ?_, by simp [ComesTo], h⟩
    rw [hsome]
    rfl

/-- All records are read, in some order. -/
theorem run_records (hserver : AnswersFromHistory server holds)
    (hread : executor.CanRead history) (hunique : (namesOf (history.getD [])).Nodup)
    (h : holds state history) :
    ∃ records events after, executor.records.run.run server state =
        ⟨.ok records, events, after⟩ ∧ records.Perm (history.getD []) := by
  obtain ⟨asked, between, hasked, -, hbetween⟩ := run_hasHistory hserver hread h
  cases history with
  | none => exact ⟨[], _, _, Attempt.run_bind_of_ok hasked, .nil⟩
  | some kept =>
    obtain ⟨rows, after, hanswer, hperm, -⟩ := hserver.listRecords hbetween
    have hrows : (rows.map AppliedMigration.name).Nodup :=
      (hperm.map AppliedMigration.name).nodup_iff.2 hunique
    have hlisted := Attempt.run_send_of_ok hanswer
    refine ⟨Order.ofList AppliedMigration.name rows, _, _, (Attempt.run_bind_of_ok hasked).trans
      (congrArg _ (Attempt.run_bind_of_ok hlisted)), (Order.ofList_perm hrows).trans hperm⟩

/-- The record of a migration is read. -/
theorem run_record? (file : MigrationFile) (hserver : AnswersFromHistory server holds)
    (hread : executor.CanRead history) (h : holds state history) :
    ∃ events after, (executor.record? file.name).run.run server state =
        ⟨.ok (recordIn history file.name), events, after⟩ ∧
      ¬executor.ComesTo file events ∧ holds after history := by
  obtain ⟨asked, between, hasked, hquiet, hbetween⟩ := run_hasHistory hserver hread h
  cases history with
  | none =>
    exact ⟨asked ++ [], between, Attempt.run_bind_of_ok hasked,
      by simpa [ComesTo] using hquiet file, hbetween⟩
  | some kept =>
    obtain ⟨after, hanswer, hafter⟩ := hserver.findRecord file.name hbetween
    refine ⟨_, _, (Attempt.run_bind_of_ok hasked).trans
      (congrArg _ (Attempt.run_send_of_ok hanswer)), ?_, hafter⟩
    simpa [ComesTo, BringsOut] using hquiet file

/-! ## Status and pending -/

/-- The order of the records does not matter. -/
theorem recordIn_eq_of_perm {rows : List AppliedMigration}
    (hperm : rows.Perm (history.getD [])) (h : (namesOf (history.getD [])).Nodup)
    (name : String) : recordIn (some rows) name = recordIn history name :=
  find?_eq_of_perm hperm h name

/-- Records that are taken out are not missed by migrations of other names. -/
theorem pairUp_eq_map (records : List AppliedMigration)
    (h : (files.map MigrationFile.name).Nodup) :
    (pairUp records files).1 = files.map (statusIn (some records)) := by
  induction files generalizing records with
  | nil => rfl
  | cons file files ih =>
    obtain ⟨hfirst, hrest⟩ := List.nodup_cons.1 h
    refine congrArg _ ((ih _ hrest).trans (List.map_congr_left fun other hother => ?_))
    have hne : other.name ≠ file.name := fun hname =>
      hfirst (hname ▸ List.mem_map_of_mem hother)
    have hrecord : recordIn (some (records.filter fun record => record.name ≠ file.name))
        other.name = recordIn (some records) other.name :=
      find?_filter_ne hne
    rw [statusIn, hrecord, statusIn]

/-- Every migration has one state, in order. -/
theorem result_status (hserver : AnswersFromHistory server holds)
    (hread : executor.CanRead history) (hunique : (namesOf (history.getD [])).Nodup)
    (hfiles : (files.map MigrationFile.name).Nodup) (h : holds state history) :
    ((executor.status files).run.run server state).result = .ok (files.map (statusIn history)) := by
  obtain ⟨records, events, after, hrecords, hperm⟩ := run_records hserver hread hunique h
  rw [status, Attempt.run_bind_of_ok hrecords]
  refine (congrArg Session.Run.result (Attempt.run_bind_of_ok (Attempt.run_notices
    (pairUp records files).2 fun record => .recordWithoutFile record.name))).trans ?_
  refine congrArg Except.ok ((pairUp_eq_map records hfiles).trans ?_)
  refine List.map_congr_left fun file _ => ?_
  rw [statusIn, recordIn_eq_of_perm hperm hunique, statusIn]

/-- The migrations without a record are pending, in order. -/
theorem result_pending (hserver : AnswersFromHistory server holds)
    (hread : executor.CanRead history) (hunique : (namesOf (history.getD [])).Nodup)
    (h : holds state history) :
    ((executor.pending files).run.run server state).result =
      .ok (files.filter fun file => (recordIn history file.name).isNone) := by
  obtain ⟨records, events, after, hrecords, hperm⟩ := run_records hserver hread hunique h
  rw [pending, Attempt.run_bind_of_ok hrecords]
  refine congrArg Except.ok (List.filter_congr fun file _ => ?_)
  rw [← recordIn_eq_of_perm hperm hunique, recordIn, Option.getD_some, Bool.eq_iff_iff]
  simp

/-! ## Apply -/

/-- A migration that was edited after it was written is refused before anything is read. -/
theorem run_apply_of_edited (hedited : file.isIntact = false) :
    (executor.apply file).run.run server state =
      ⟨.error (.checksumMismatch file.name file.checksum file.actualChecksum), [], state⟩ := by
  have hverify : file.verify =
      .error (.checksumMismatch file.name file.checksum file.actualChecksum) := by
    rw [MigrationFile.verify, hedited]
    rfl
  rw [apply, hverify]
  rfl

/-- How a migration is applied once its record was looked up. -/
def applyAfter (executor : Executor) (file : MigrationFile) :
    Option AppliedMigration → Attempt ApplyOutcome
  | some record =>
    if record.checksum = file.checksum then pure .alreadyApplied
    else throw (.checksumMismatch file.name record.checksum file.checksum)
  | none => executor.applyNew file

/-- The record of an intact migration decides. -/
theorem apply_of_intact (hintact : file.isIntact = true) :
    executor.apply file = executor.record? file.name >>= executor.applyAfter file := by
  have hverify : file.verify = .ok () := by
    rw [MigrationFile.verify, hintact]
    rfl
  rw [apply, hverify]
  rfl

/-- An intact migration with a record is skipped, unless the record has another checksum. -/
theorem run_apply_of_recorded (hserver : AnswersFromHistory server holds)
    (hread : executor.CanRead history) (h : holds state history) (hintact : file.isIntact = true)
    {record : AppliedMigration} (hrecord : recordIn history file.name = some record) :
    ¬executor.ComesTo file ((executor.apply file).run.run server state).events ∧
      ((executor.apply file).run.run server state).result =
        if record.checksum = file.checksum then .ok .alreadyApplied
        else .error (.checksumMismatch file.name record.checksum file.checksum) := by
  obtain ⟨events, after, hlookup, hquiet, -⟩ := run_record? file hserver hread h
  rw [apply_of_intact hintact, Attempt.run_bind_of_ok hlookup, hrecord]
  have hquiet : ¬executor.ComesTo file (events ++ []) := by rwa [List.append_nil]
  by_cases hsame : record.checksum = file.checksum
  · simp only [applyAfter, hsame, if_true]
    exact ⟨hquiet, rfl⟩
  · simp only [applyAfter, hsame, if_false]
    exact ⟨hquiet, rfl⟩

/-- A chain that begins with a statement fails in the database or further on. -/
theorem error_of_send_then {β : Type} {statement : Statement}
    {next : statement.Reply → Attempt β} {sent : List Session.Exchange} {error : MigrationError}
    (h : (Attempt.send statement >>= next).Yields sent (.error error)) :
    (∃ cause, error = .database cause) ∨
      ∃ reply rest, (next reply).Yields rest (.error error) := by
  rcases Attempt.yields_send_then_iff.1 h with ⟨cause, -, hcause⟩ | ⟨reply, rest, -, hrest⟩
  · exact .inl ⟨cause, Except.error.inj hcause⟩
  · exact .inr ⟨reply, rest, hrest⟩

/-- The transaction of a migration fails only where the database does. -/
theorem error_of_runFile {sent : List Session.Exchange} {error : MigrationError}
    (h : (executor.runFile file).Yields sent (.error error)) :
    ∃ cause, error = .database cause := by
  have hscript {sent : List Session.Exchange}
      (h : (do Attempt.send (.runScript file.body); Attempt.send .commit).Yields sent
        (.error error)) : ∃ cause, error = .database cause := by
    refine (error_of_send_then h).elim id fun ⟨_, _, h⟩ => ?_
    obtain ⟨answer, -, hanswer⟩ := Attempt.yields_send_iff.1 h
    obtain ⟨cause, -, hcause⟩ := mapError_eq_error_iff.1 hanswer.symm
    exact ⟨cause, hcause.symm⟩
  refine (error_of_send_then h).elim id fun ⟨_, _, h⟩ => ?_
  refine (error_of_send_then h).elim id fun ⟨_, _, h⟩ => ?_
  cases hschema : executor.schema with
  | none =>
    simp only [hschema] at h
    exact hscript h
  | some schema =>
    simp only [hschema] at h
    exact (error_of_send_then h).elim id fun ⟨_, _, h⟩ => hscript h

/-- How a migration that has no record can end. -/
theorem result_of_applyNew {sent : List Session.Exchange}
    {result : Except MigrationError ApplyOutcome}
    (h : (executor.applyNew file).Yields sent result) :
    result = .ok .printed ∨ result = .ok .applied ∨ ∃ cause, result = .error (.database cause) := by
  cases hdry : executor.dryRun with
  | true =>
    simp only [applyNew, hdry, if_true, Attempt.yields_notice_then_iff,
      Attempt.yields_print_then_iff] at h
    exact .inl (Attempt.yields_pure_iff.1 h).2
  | false =>
    right
    rw [applyNew_of_real hdry, Attempt.yields_notice_then_iff] at h
    rcases Attempt.yields_bind_iff.1 h with ⟨error, hrun, rfl⟩ | ⟨_, _, _, -, hend, -⟩
    · obtain ⟨cause, rfl⟩ := error_of_runFile hrun
      exact .inr ⟨cause, rfl⟩
    · rw [Attempt.yields_notice_then_iff, Attempt.yields_pure_iff] at hend
      exact .inl hend.2

/-- A run that comes to the script somewhere comes to it as a whole. -/
theorem ComesTo.append_left {events : List Session.Event} (h : executor.ComesTo file events)
    (earlier : List Session.Event) : executor.ComesTo file (earlier ++ events) :=
  let ⟨event, hevent, hscript⟩ := h
  ⟨event, List.mem_append_right _ hevent, hscript⟩

theorem comesTo_then_of_ok {α β : Type} {after : σ} {attempt : Attempt α} {value : α}
    {next : α → Attempt β} {events : List Session.Event}
    (hfirst : attempt.run.run server state = ⟨.ok value, events, after⟩)
    (h : executor.ComesTo file ((next value).run.run server after).events) :
    executor.ComesTo file ((attempt >>= next).run.run server state).events := by
  rw [Attempt.run_bind_of_ok hfirst]
  exact h.append_left events

/-- The script of a migration without a record is sent. -/
theorem comesTo_runFile (hserver : AnswersFromHistory server holds)
    (hreal : executor.dryRun = false) {records : List AppliedMigration}
    (h : holds state (some records)) (hnew : file.name ∉ namesOf records) :
    executor.ComesTo file ((executor.runFile file).run.run server state).events := by
  obtain ⟨begun, hbegin, hbegun⟩ := hserver.beginTransaction h
  obtain ⟨inserted, seen, hinsert, hinserted⟩ :=
    hserver.insertRecord file.name file.checksum hbegun hnew
  have hscript (state : σ) : executor.ComesTo file ((do
      Attempt.send (.runScript file.body)
      Attempt.send .commit : Attempt Unit).run.run server state).events := by
    obtain ⟨answer, hsent⟩ := Attempt.exists_sent_mem_events server state
      (.runScript file.body) fun _ => Attempt.send .commit
    exact ⟨_, hsent, hreal, rfl⟩
  refine comesTo_then_of_ok (Attempt.run_send_of_ok hbegin)
    (comesTo_then_of_ok (Attempt.run_send_of_ok hinsert) ?_)
  cases executor.schema with
  | none => exact hscript inserted
  | some schema =>
    obtain ⟨directed, hdirect, -⟩ := hserver.setSearchPath schema hinserted
    exact comesTo_then_of_ok (Attempt.run_send_of_ok hdirect) (hscript directed)

/-- The script of a migration without a record is run, or printed in a dry run. -/
theorem comesTo_applyNew (hserver : AnswersFromHistory server holds)
    (hread : executor.CanRead history) (h : holds state history)
    (hnone : recordIn history file.name = none) :
    executor.ComesTo file ((executor.applyNew file).run.run server state).events := by
  cases hdry : executor.dryRun with
  | true =>
    refine ⟨.shown (.text ("-- " ++ file.name ++ "\n" ++ file.body)), ?_, hdry, rfl⟩
    simp only [applyNew, hdry, if_true]
    exact List.mem_cons_of_mem _ List.mem_cons_self
  | false =>
    obtain ⟨records, rfl⟩ := Option.isSome_iff_exists.1 (hread.resolve_left (by simp [hdry]))
    have hrun := comesTo_runFile hserver hdry h (not_mem_namesOf_of_find? hnone)
    rw [applyNew_of_real hdry]
    refine comesTo_then_of_ok (Attempt.run_notice (.applying file.name)) ?_
    obtain ⟨event, hevent, hscript⟩ := hrun
    exact ⟨event, (Attempt.prefix_events_bind _ _).subset hevent, hscript⟩

/-- A migration without a record is not skipped and not refused for its checksum. -/
theorem run_apply_of_new (hserver : AnswersFromHistory server holds)
    (hread : executor.CanRead history) (h : holds state history) (hintact : file.isIntact = true)
    (hnone : recordIn history file.name = none) :
    executor.ComesTo file ((executor.apply file).run.run server state).events ∧
      (((executor.apply file).run.run server state).result = .ok .printed ∨
        ((executor.apply file).run.run server state).result = .ok .applied ∨
        ∃ cause,
          ((executor.apply file).run.run server state).result = .error (.database cause)) := by
  obtain ⟨events, after, hlookup, -, hafter⟩ := run_record? file hserver hread h
  rw [apply_of_intact hintact, Attempt.run_bind_of_ok hlookup, hnone]
  exact ⟨(comesTo_applyNew hserver hread hafter hnone).append_left events,
    result_of_applyNew (Session.yields_run server (executor.applyNew file).run after)⟩

/-! ## The three commands -/

/-- Whether the state of a migration tells what a run of it comes to. -/
structure Foretells (executor : Executor) (file : MigrationFile) (status : MigrationStatus)
    (run : Session.Run σ (Except MigrationError ApplyOutcome)) : Prop where
  mismatch : (∃ name recorded actual,
    run.result = .error (.checksumMismatch name recorded actual)) ↔ status.drifted = true
  skipped : run.result = .ok .alreadyApplied ↔ status.isApplied = true ∧ status.drifted = false
  comesTo : executor.ComesTo file run.events ↔ status.record = none ∧ status.drifted = false

/-- The state of a migration, read off the history, tells what a run of it comes to. -/
theorem foretells_statusIn (hserver : AnswersFromHistory server holds)
    (hread : executor.CanRead history) (h : holds state history) :
    executor.Foretells file (statusIn history file)
      ((executor.apply file).run.run server state) := by
  cases hintact : file.isIntact with
  | false =>
    have hdrifts : (statusIn history file).drifted = true := by
      simp [statusIn, MigrationFile.driftsFrom, hintact]
    rw [run_apply_of_edited hintact]
    exact ⟨by simp [hdrifts], by simp [hdrifts], by simp [ComesTo, hdrifts]⟩
  | true =>
    cases hrecord : recordIn history file.name with
    | none =>
      have hdrifts : (statusIn history file).drifted = false := by
        simp [statusIn, MigrationFile.driftsFrom, hintact, hrecord]
      have hnew : (statusIn history file).record = none := hrecord
      obtain ⟨hscript, hresult⟩ := run_apply_of_new hserver hread h hintact hrecord
      refine ⟨?_, ?_, by simp [hscript, hnew, hdrifts]⟩
      · rcases hresult with hresult | hresult | ⟨cause, hresult⟩ <;> simp [hresult, hdrifts]
      · rcases hresult with hresult | hresult | ⟨cause, hresult⟩ <;>
          simp [hresult, MigrationStatus.isApplied, hnew]
    | some record =>
      have hknown : (statusIn history file).record = some record := hrecord
      obtain ⟨hquiet, hresult⟩ := run_apply_of_recorded hserver hread h hintact hrecord
      by_cases hsame : record.checksum = file.checksum
      · have hdrifts : (statusIn history file).drifted = false := by
          simp [statusIn, MigrationFile.driftsFrom, hintact, hrecord, hsame]
        rw [if_pos hsame] at hresult
        exact ⟨by simp [hresult, hdrifts],
          by simp [hresult, hdrifts, MigrationStatus.isApplied, hknown],
          by simp [hquiet, hknown]⟩
      · have hdrifts : (statusIn history file).drifted = true := by
          simp [statusIn, MigrationFile.driftsFrom, hintact, hrecord, hsame]
        rw [if_neg hsame] at hresult
        exact ⟨by simp [hresult, hdrifts], by simp [hresult, hdrifts],
          by simp [hquiet, hknown]⟩

/-- Whether the three commands agree about a migration. -/
structure Agree (server : Server σ) (holds : σ → Option (List AppliedMigration) → Prop)
    (executor : Executor) (history : Option (List AppliedMigration))
    (pending : List MigrationFile) (file : MigrationFile) (status : MigrationStatus) : Prop where
  name : status.name = file.name
  record : status.record = recordIn history file.name
  drifted : status.drifted = file.driftsFrom status.record
  pending : file ∈ pending ↔ status.record = none
  apply : ∀ state, holds state history →
    executor.Foretells file status ((executor.apply file).run.run server state)

/-- **Status, pending and apply tell the same story.**  On a database that answers from a history
with at most one record of each name, the commands succeed for migrations of different names.
There is one state for each migration, in order.  It says whether the migration is pending, and
whether applying it ends with a mismatch of checksums, skips it, or comes to its script. -/
theorem status_pending_apply_agree {σ : Type} {server : Server σ}
    {holds : σ → Option (List AppliedMigration) → Prop} (executor : Executor)
    (history : Option (List AppliedMigration)) (files : List MigrationFile)
    (hserver : AnswersFromHistory server holds) (hread : executor.CanRead history)
    (hunique : (namesOf (history.getD [])).Nodup) (hfiles : (files.map MigrationFile.name).Nodup) :
    ∃ statuses pending,
      (∀ state, holds state history →
        ((executor.status files).run.run server state).result = .ok statuses ∧
        ((executor.pending files).run.run server state).result = .ok pending) ∧
      List.Forall₂ (Agree server holds executor history pending) files statuses := by
  refine ⟨_, _, fun state h => ⟨result_status hserver hread hunique hfiles h,
    result_pending hserver hread hunique h⟩, ?_⟩
  rw [List.forall₂_map_right_iff, List.forall₂_same]
  intro file hfile
  exact ⟨rfl, rfl, rfl, by simp [statusIn, hfile],
    fun state h => foretells_statusIn hserver hread h⟩

/-- A migration that makes a table of songs. -/
def createSongs : MigrationFile where
  name := "20240101000000_songs"
  generatedAt := newYear 2024
  checksum := "d6fe5f8ab8408309b069a7e55408133f372fb5d06507815d94b39ebedf919f14"
  body := "CREATE TABLE songs ();"

/-- Migrations that were edited, generated again, applied, and none of these. -/
def mixedFiles : List MigrationFile :=
  [{ createSongs with name := "1_edited", body := "DROP TABLE songs;" },
    { createSongs with name := "2_generated_again" },
    { createSongs with name := "3_applied" },
    { createSongs with name := "4_new" }]

/-- A database that has a record of two of them. -/
def mixedHistory : Memory where
  now := newYear 2025
  history := some [⟨"3_applied", createSongs.checksum, newYear 2024⟩,
    ⟨"2_generated_again", "e3b0", newYear 2023⟩]

/-- The history as it is read back from that database. -/
def mixedRecords : Option (List AppliedMigration) :=
  mixedHistory.history.map (List.map AppliedMigration.readBack)

/-- The commands agree about such migrations. -/
theorem status_pending_apply_agree_mixed :
    mixedFiles.map (fun file =>
      ((statusIn mixedRecords file).isApplied, (statusIn mixedRecords file).drifted)) =
        [(false, true), (true, true), (true, false), (false, false)] ∧
    ∃ statuses pending,
      ((status {} mixedFiles).run.run Memory.server mixedHistory).result = .ok statuses ∧
      ((Executor.pending {} mixedFiles).run.run Memory.server mixedHistory).result = .ok pending ∧
      List.Forall₂ (Agree Memory.server Memory.Shows {} mixedRecords pending)
        mixedFiles statuses := by
  refine ⟨by decide +kernel, ?_⟩
  obtain ⟨statuses, pending, hruns, hagree⟩ := status_pending_apply_agree {} mixedRecords mixedFiles
    Memory.answersFromHistory (.inr rfl) (by decide) (by decide)
  obtain ⟨hstatus, hpending⟩ := hruns mixedHistory ⟨rfl, rfl⟩
  exact ⟨statuses, pending, hstatus, hpending, hagree⟩

end Executor

end SchemaPlan
