import SchemaPlan.Proofs.Database.Ledger
import SchemaPlan.Proofs.Migration.Protocol

/-!
# Migrations are applied at most once

Over any number of runs, each cut short wherever the database refuses a statement, the script of a
migration is committed at most once, and always together with its record.

* `committed_of_runFile` and `committed_of_apply`: one migration commits nothing, or its script and
  its record in one transaction, and only if it had no record,
* `AppliesOnce` says so of all transactions that were added,
* `applyAll_exactly_once`: the protocol of a run and what follows from it for a sequence of runs.
-/

set_option autoImplicit false

namespace SchemaPlan

open Database Outcome
open Session (Exchange)

/-- The transaction of a migration: its record and its script. -/
def MigrationFile.transaction (file : MigrationFile) (time : Time.Instant) : Transaction where
  records := [⟨file.name, file.checksum, time⟩]
  scripts := [file.body]

/-! ## One migration -/

namespace Executor

variable {executor : Executor} {file : MigrationFile} {files : List MigrationFile}
  {before after : Ledger} {sent : List Exchange}

/-- A statement that is sent first changes the ledger first; a refusal ends the attempt. -/
theorem follows_send_then {β : Type} {statement : Statement} {next : statement.Reply → Attempt β}
    {result : Except MigrationError β}
    (h : (Attempt.send statement >>= next).Yields sent result)
    (hledger : before.Follows sent after) :
    (∃ cause, before.Step ⟨statement, .error cause⟩ after) ∨
      ∃ reply middle rest, before.Step ⟨statement, .ok reply⟩ middle ∧
        (next reply).Yields rest result ∧ middle.Follows rest after := by
  rcases Attempt.yields_send_then_iff.1 h with ⟨cause, rfl, -⟩ | ⟨reply, rest, rfl, hrest⟩
  · obtain ⟨middle, hstep, rfl⟩ := hledger
    exact .inl ⟨cause, hstep⟩
  · obtain ⟨middle, hstep, hledger⟩ := hledger
    exact .inr ⟨reply, middle, rest, hstep, hrest, hledger⟩

/-- A migration that is run leaves nothing behind, or its whole transaction. -/
theorem committed_of_runFile {result : Except MigrationError Unit}
    (h : (executor.runFile file).Yields sent result) (hledger : before.Follows sent after) :
    after.committed = before.committed ∨
      ∃ time, after.committed = before.committed ++ [file.transaction time] := by
  -- The script and the commit, once the record is part of the transaction.
  have hscript {sent : List Exchange} {result : Except MigrationError Unit} {time : Time.Instant}
      (h : (do Attempt.send (.runScript file.body); Attempt.send .commit).Yields sent result)
      (hledger : Ledger.Follows
        ⟨before.committed, some ⟨[⟨file.name, file.checksum, time⟩], []⟩⟩ sent after) :
      after.committed = before.committed ∨
        ∃ time, after.committed = before.committed ++ [file.transaction time] := by
    rcases follows_send_then h hledger with ⟨_, hstep⟩ | ⟨_, _, rest, rfl, h, hledger⟩
    · exact .inl hstep
    obtain ⟨answer, rfl, -⟩ := Attempt.yields_send_iff.1 h
    obtain ⟨_, hstep, rfl⟩ := hledger
    cases answer with
    | ok reply =>
      cases hstep
      exact .inr ⟨time, rfl⟩
    | error cause => exact hstep.imp id fun hcommit => ⟨time, hcommit⟩
  rcases follows_send_then h hledger with ⟨_, hstep⟩ | ⟨_, _, _, rfl, h, hledger⟩
  · exact .inl hstep
  rcases follows_send_then h hledger with ⟨_, hstep⟩ | ⟨_, _, _, ⟨time, rfl⟩, h, hledger⟩
  · exact .inl hstep
  cases hschema : executor.schema with
  | none =>
    simp only [hschema] at h
    exact hscript h hledger
  | some schema =>
    simp only [hschema] at h
    rcases follows_send_then h hledger with ⟨_, hstep⟩ | ⟨_, _, _, rfl, h, hledger⟩
    · exact .inl hstep
    exact hscript h hledger

/-- Looking a migration up commits nothing. -/
theorem committed_of_asks (h : ∀ exchange ∈ sent, executor.Asks file exchange.statement)
    (hledger : before.Follows sent after) : after.committed = before.committed := by
  induction sent generalizing before with
  | nil => rw [hledger]
  | cons exchange rest ih =>
    obtain ⟨middle, hstep, hledger⟩ := hledger
    obtain ⟨hask, h⟩ := List.forall_mem_cons.1 h
    rw [ih h hledger]
    obtain ⟨statement, answer⟩ := exchange
    rcases hask with ⟨rfl, -⟩ | rfl
    · cases answer with
      | ok reply => exact congrArg Ledger.committed hstep
      | error cause => exact hstep
    · cases answer with
      | ok reply => exact congrArg Ledger.committed hstep.1
      | error cause => exact hstep

/-- Applying a migration leaves nothing behind, or the whole transaction of an intact migration
that had no record. -/
theorem committed_of_apply {result : Except MigrationError ApplyOutcome}
    (h : (executor.apply file).Yields sent result) (hledger : before.Follows sent after) :
    after.committed = before.committed ∨
      file.isIntact = true ∧ file.name ∉ recordedNames before.committed ∧
        ∃ time, after.committed = before.committed ++ [file.transaction time] := by
  rcases apply_cases h with hasks | ⟨hintact, -, rest, _, rfl, hrun⟩
  · exact .inl (committed_of_asks hasks hledger)
  · obtain ⟨_, ⟨rfl, hlookup⟩, hledger⟩ := hledger
    exact (committed_of_runFile hrun hledger).imp id fun htime =>
      ⟨hintact, hlookup.1 rfl, htime⟩

end Executor

/-! ## Sequences of runs -/

/-- What was added to the committed transactions by applying some migrations. -/
structure AppliesOnce (files : List MigrationFile) (before added : List Transaction) : Prop where
  /-- A script is committed together with the record of its migration, and is intact. -/
  whole : ∀ transaction ∈ added, ∃ file ∈ files, file.isIntact = true ∧
    ∃ time, transaction = file.transaction time
  /-- No name is recorded twice. -/
  once : (recordedNames added).Nodup
  /-- No name is recorded that had been recorded before. -/
  fresh : ∀ name ∈ recordedNames added, name ∉ recordedNames before

namespace AppliesOnce

variable {files files' : List MigrationFile} {before added added' : List Transaction}

theorem nil : AppliesOnce files before [] where
  whole := by simp
  once := List.nodup_nil
  fresh := by simp [recordedNames]

theorem mono (h : AppliesOnce files before added) (hfiles : ∀ file ∈ files, file ∈ files') :
    AppliesOnce files' before added where
  whole := fun transaction htransaction =>
    let ⟨file, hfile, hwhole⟩ := h.whole transaction htransaction
    ⟨file, hfiles file hfile, hwhole⟩
  once := h.once
  fresh := h.fresh

theorem append (h : AppliesOnce files before added)
    (h' : AppliesOnce files (before ++ added) added') :
    AppliesOnce files before (added ++ added') where
  whole := by
    intro transaction htransaction
    rcases List.mem_append.1 htransaction with htransaction | htransaction
    · exact h.whole transaction htransaction
    · exact h'.whole transaction htransaction
  once := by
    rw [recordedNames_append, List.nodup_append]
    refine ⟨h.once, h'.once, ?_⟩
    rintro name hname _ hname' rfl
    refine h'.fresh name hname' ?_
    rw [recordedNames_append]
    exact List.mem_append_right _ hname
  fresh := by
    intro name hname
    rw [recordedNames_append] at hname
    rcases List.mem_append.1 hname with hname | hname
    · exact h.fresh name hname
    · have hfresh := h'.fresh name hname
      rw [recordedNames_append] at hfresh
      exact fun hmem => hfresh (List.mem_append_left _ hmem)

theorem singleton {file : MigrationFile} (hfile : file ∈ files) (hintact : file.isIntact = true)
    (hnew : file.name ∉ recordedNames before) (time : Time.Instant) :
    AppliesOnce files before [file.transaction time] where
  whole := List.forall_mem_singleton.2 ⟨file, hfile, hintact, time, rfl⟩
  once := by simp [recordedNames, MigrationFile.transaction]
  fresh := List.forall_mem_singleton.2 hnew

end AppliesOnce

namespace Executor

variable {executor : Executor} {files : List MigrationFile} {before after : Ledger}
  {sent : List Exchange}

/-- What one migration adds. -/
theorem appliesOnce_of_apply {file : MigrationFile} {result : Except MigrationError ApplyOutcome}
    (hfile : file ∈ files) (h : (executor.apply file).Yields sent result)
    (hledger : before.Follows sent after) :
    ∃ added, after.committed = before.committed ++ added ∧
      AppliesOnce files before.committed added := by
  rcases committed_of_apply h hledger with hsame | ⟨hintact, hnew, time, hadded⟩
  · exact ⟨[], by rw [hsame, List.append_nil], .nil⟩
  · exact ⟨_, hadded, .singleton hfile hintact hnew time⟩

/-- What a run over several migrations adds. -/
theorem Course.appliesOnce {result : Except MigrationError (List ApplyOutcome)}
    (h : executor.Course files sent result) (hledger : before.Follows sent after) :
    ∃ added, after.committed = before.committed ++ added ∧
      AppliesOnce files before.committed added := by
  induction h generalizing before with
  | finished =>
    cases hledger
    exact ⟨[], (List.append_nil _).symm, .nil⟩
  | failed fails => exact appliesOnce_of_apply List.mem_cons_self fails hledger
  | went goes _ ih =>
    obtain ⟨middle, hfirst, hledger⟩ := Ledger.follows_append_iff.1 hledger
    obtain ⟨added, hadded, hone⟩ := appliesOnce_of_apply List.mem_cons_self goes hfirst
    obtain ⟨added', hadded', hrest⟩ := ih hledger
    refine ⟨added ++ added', by rw [hadded', hadded, List.append_assoc], hone.append ?_⟩
    rw [← hadded]
    exact hrest.mono fun file hfile => List.mem_cons_of_mem _ hfile

/-- The state of a server after a sequence of runs. -/
def afterRuns {σ : Type} (server : Server σ) (state : σ)
    (runs : List (Executor × List MigrationFile)) : σ :=
  runs.foldl (fun state run => ((run.1.applyAll run.2).run.run server state).state) state

/-- A run over several migrations follows the protocol, whatever the server answers. -/
theorem followsProtocol_of_run {σ : Type} (server : Server σ) (state : σ) (executor : Executor)
    (files : List MigrationFile) :
    executor.FollowsProtocol files ((executor.applyAll files).run.run server state).exchanges
      ((executor.applyAll files).run.run server state).result :=
  have hcourse := course_of_applyAll (Session.yields_run server (executor.applyAll files).run state)
  ⟨hcourse.obeys, hcourse⟩

/-- What a sequence of runs adds, on a server that keeps a ledger. -/
theorem appliesOnce_of_runs {σ : Type} {server : Server σ} {holds : σ → Ledger → Prop}
    (hkeeps : Keeps server holds) (runs : List (Executor × List MigrationFile)) {state : σ}
    {ledger : Ledger} (h : holds state ledger) :
    ∃ added current, holds (afterRuns server state runs) ⟨ledger.committed ++ added, current⟩ ∧
      AppliesOnce (runs.flatMap (·.2)) ledger.committed added := by
  induction runs generalizing state ledger with
  | nil => exact ⟨[], ledger.current, by simpa [afterRuns] using h, .nil⟩
  | cons run runs ih =>
    obtain ⟨after, hfollows, hafter⟩ :=
      exists_follows_of_keeps hkeeps (run.1.applyAll run.2).run h
    obtain ⟨added, hadded, hone⟩ :=
      (followsProtocol_of_run server state run.1 run.2).course.appliesOnce hfollows
    obtain ⟨added', current, hheld, hrest⟩ := ih hafter
    rw [hadded] at hheld hrest
    refine ⟨added ++ added', current, ?_, (hone.mono ?_).append (hrest.mono ?_)⟩
    · rw [← List.append_assoc]
      exact hheld
    · exact fun file hfile => List.mem_append_left _ hfile
    · exact fun file hfile => List.mem_append_right _ hfile

/-- **Migrations are applied at most once.**  Every run sends only what the protocol permits, and
nothing for a migration behind the first that fails, whatever the server answers.  If the server
commits a transaction as a whole or not at all and finds the records that were committed, then a
sequence of runs adds whole transactions only, each with one script and its record, and none for a
name that was recorded before. -/
theorem applyAll_exactly_once {σ : Type} (server : Server σ) :
    (∀ (state : σ) (executor : Executor) (files : List MigrationFile),
      executor.FollowsProtocol files ((executor.applyAll files).run.run server state).exchanges
        ((executor.applyAll files).run.run server state).result) ∧
    ∀ holds : σ → Ledger → Prop, Keeps server holds →
      ∀ (state : σ) (ledger : Ledger), holds state ledger →
      ∀ runs : List (Executor × List MigrationFile), ∃ added current,
        holds (afterRuns server state runs) ⟨ledger.committed ++ added, current⟩ ∧
          AppliesOnce (runs.flatMap (·.2)) ledger.committed added :=
  ⟨followsProtocol_of_run server,
    fun _ hkeeps _ _ h runs => appliesOnce_of_runs hkeeps runs h⟩

/-- The first moment of a year. -/
def newYear (year : Int) : Time.Instant :=
  ⟨.firstOf year 1 Time.Date.january_valid, ⟨0, Nat.succ_pos _⟩, ⟨0, Nat.succ_pos _⟩,
    ⟨0, Nat.succ_pos _⟩⟩

/-- A migration that makes a table. -/
def createUsers : MigrationFile where
  name := "20240101000000_users"
  generatedAt := newYear 2024
  checksum := Digest.Sha256.textDigest "CREATE TABLE users ();"
  body := "CREATE TABLE users ();"

/-- A database with an empty history. -/
def emptyHistory : Memory where
  now := newYear 2025
  history := some []

/-- A dry run and two runs of one migration; they commit its script once. -/
theorem applyAll_exactly_once_users :
    (afterRuns Memory.server emptyHistory
      [(⟨true, none⟩, [createUsers]), (⟨false, some "app"⟩, [createUsers]),
        ({}, [createUsers])]).scripts = [createUsers.body] ∧
    ∃ added current,
      Memory.Holds (afterRuns Memory.server emptyHistory
        [(⟨true, none⟩, [createUsers]), (⟨false, some "app"⟩, [createUsers]), ({}, [createUsers])])
        ⟨added, current⟩ ∧
      AppliesOnce [createUsers, createUsers, createUsers] [] added :=
  ⟨by decide +kernel,
    (applyAll_exactly_once Memory.server).2 Memory.Holds Memory.keeps_server emptyHistory ⟨[], none⟩
      ⟨rfl, rfl, rfl, by simp⟩ _⟩

end Executor

end SchemaPlan
