import SchemaPlan.Database.Memory
import SchemaPlan.Proofs.Session.Exchange

/-!
# A database as a ledger of transactions

Of a database that commits a transaction as a whole or not at all, a ledger is all that matters for
migrations: the transactions it has committed and the one that is under way.

* `Ledger.Step` says how an exchange changes the ledger; a refused statement commits nothing, a
  refused commit may have been carried out or not, and a record is found if it was committed,
* `Keeps` says of a server that its states behave like a ledger,
* `exists_follows_of_keeps`: whatever a session does, the ledger of such a server follows it,
* `Memory.keeps_server`: the database in memory is such a server.
-/

set_option autoImplicit false

namespace SchemaPlan.Database

open Outcome
open Session (Exchange)

/-- The committed transactions of a database, in order, and the one under way. -/
structure Ledger where
  committed : List Transaction
  current : Option Transaction
deriving DecidableEq, Repr

/-- The names that transactions record, in order. -/
def recordedNames (transactions : List Transaction) : List String :=
  transactions.flatMap fun transaction => transaction.records.map (·.name)

@[simp]
theorem recordedNames_append (xs ys : List Transaction) :
    recordedNames (xs ++ ys) = recordedNames xs ++ recordedNames ys :=
  List.flatMap_append

theorem recordedNames_eq (transactions : List Transaction) :
    recordedNames transactions = (transactions.flatMap (·.records)).map (·.name) :=
  List.map_flatMap.symm

namespace Ledger

/-- More effects for the transaction under way; without one they are committed at once. -/
def affect (ledger : Ledger) (effects : Transaction) : Ledger :=
  match ledger.current with
  | some ⟨records, scripts⟩ =>
    { ledger with current := some ⟨records ++ effects.records, scripts ++ effects.scripts⟩ }
  | none => { ledger with committed := ledger.committed ++ [effects] }

/-- The transaction under way is committed. -/
def commit (ledger : Ledger) : Ledger :=
  ⟨ledger.committed ++ ledger.current.toList, none⟩

/-- How an exchange changes the ledger. -/
def Step (before : Ledger) : Exchange → Ledger → Prop
  | ⟨.findRecord name, .ok record⟩, after =>
    after = before ∧ (record = none ↔ name ∉ recordedNames before.committed)
  | ⟨.beginTransaction, .ok ()⟩, after => after = ⟨before.committed, some {}⟩
  | ⟨.insertRecord name checksum, .ok ()⟩, after =>
    ∃ time, after = before.affect { records := [⟨name, checksum, time⟩] }
  | ⟨.runScript text, .ok ()⟩, after => after = before.affect { scripts := [text] }
  | ⟨.commit, .ok ()⟩, after => after = before.commit
  | ⟨.commit, .error _⟩, after =>
    after.committed = before.committed ∨ after.committed = before.commit.committed
  | ⟨_, .ok _⟩, after => after = before
  | ⟨_, .error _⟩, after => after.committed = before.committed

/-- The ledger after exchanges in order. -/
def Follows : Ledger → List Exchange → Ledger → Prop
  | before, [], after => after = before
  | before, exchange :: rest, after =>
    ∃ middle, before.Step exchange middle ∧ Follows middle rest after

theorem follows_append_iff {before after : Ledger} {sent sent' : List Exchange} :
    Follows before (sent ++ sent') after ↔
      ∃ middle, Follows before sent middle ∧ Follows middle sent' after := by
  induction sent generalizing before with
  | nil => simp [Follows]
  | cons exchange rest ih =>
    simp only [List.cons_append, Follows, ih]
    constructor
    · rintro ⟨first, hstep, middle, hrest, h⟩
      exact ⟨middle, ⟨first, hstep, hrest⟩, h⟩
    · rintro ⟨middle, ⟨first, hstep, hrest⟩, h⟩
      exact ⟨first, hstep, middle, hrest, h⟩

end Ledger

/-! ## Servers that keep a ledger -/

/-- Whether the states of a server behave like ledgers: it commits transactions as a whole or not at
all, and finds the records that were committed. -/
structure Keeps {σ : Type} (server : Server σ) (holds : σ → Ledger → Prop) : Prop where
  connect : ∀ {state ledger} (url : String) (connections : Nat), holds state ledger →
    holds (server.connect state url connections).2 ledger
  answer : ∀ {state ledger} (statement : Statement), holds state ledger →
    ∃ after, ledger.Step ⟨statement, (server.answer state statement).1⟩ after ∧
      holds (server.answer state statement).2 after

/-- The ledger of a server follows every session. -/
theorem exists_follows_of_keeps {σ α : Type} {server : Server σ} {holds : σ → Ledger → Prop}
    (hkeeps : Keeps server holds) (session : Session α) {state : σ} {ledger : Ledger}
    (h : holds state ledger) :
    ∃ after, ledger.Follows (session.run server state).exchanges after ∧
      holds (session.run server state).state after := by
  induction session generalizing state ledger with
  | done result => exact ⟨ledger, rfl, h⟩
  | tell output rest ih => exact ih h
  | connect url connections next ih => exact ih _ (hkeeps.connect url connections h)
  | send statement next ih =>
    obtain ⟨middle, hstep, hmiddle⟩ := hkeeps.answer statement h
    obtain ⟨after, hfollows, hafter⟩ := ih _ hmiddle
    exact ⟨after, ⟨middle, hstep, hfollows⟩, hafter⟩

/-! ## The database in memory -/

namespace Memory

/-- Whether a database in memory stands for a ledger. -/
structure Holds (memory : Memory) (ledger : Ledger) : Prop where
  records : memory.history.getD [] = ledger.committed.flatMap (·.records)
  scripts : memory.scripts = ledger.committed.flatMap (·.scripts)
  transaction : memory.transaction = ledger.current
  /-- Records are only inserted into a table that exists. -/
  history : ∀ effects ∈ ledger.current, effects.records ≠ [] → memory.history.isSome = true

variable {memory : Memory} {ledger : Ledger}

theorem holds_note (h : Holds memory ledger) (statement : Statement) :
    Holds (memory.note statement) ledger := by
  unfold note
  split
  · split
    · exact h
    · exact ⟨h.records, h.scripts, h.transaction, h.history⟩
  · exact ⟨h.records, h.scripts, h.transaction, h.history⟩

/-- A refusal may end the transaction under way and changes nothing else. -/
theorem holds_afterRefusal (h : Holds memory ledger) (statement : Statement) :
    ∃ current, Holds (memory.afterRefusal statement) ⟨ledger.committed, current⟩ := by
  unfold afterRefusal
  split
  · exact ⟨ledger.current, h.records, h.scripts, h.transaction, h.history⟩
  · exact ⟨none, h.records, h.scripts, rfl, by simp⟩

theorem step_of_refusal (statement : Statement) (cause : DatabaseError)
    (current : Option Transaction) :
    ledger.Step ⟨statement, .error cause⟩ ⟨ledger.committed, current⟩ := by
  cases statement with
  | commit => exact .inl rfl
  | _ => rfl

/-- What was under way is committed, if anything was. -/
theorem holds_commit (h : Holds memory ledger) {current : Option Transaction}
    (hhistory : ∀ effects ∈ current, effects.records ≠ [] → memory.history.isSome = true) :
    Holds (memory.commit (current.getD {})) ⟨ledger.committed ++ current.toList, none⟩ where
  records := by
    have hrecords := h.records
    cases current with
    | none =>
      cases hmemory : memory.history with
      | _ => rw [hmemory] at hrecords; simpa [commit, hmemory] using hrecords
    | some effects =>
      cases hmemory : memory.history with
      | some records => rw [hmemory] at hrecords; simpa [commit, hmemory] using hrecords
      | none =>
        have hempty : effects.records = [] := by
          by_contra hne
          have hsome := hhistory effects rfl hne
          rw [hmemory] at hsome
          cases hsome
        rw [hmemory] at hrecords
        simpa [commit, hmemory, hempty] using hrecords
  scripts := by
    cases current with
    | _ => simp [commit, h.scripts]
  transaction := rfl
  history := by simp

theorem holds_affect (h : Holds memory ledger) {effects : Transaction}
    (hhistory : effects.records ≠ [] → memory.history.isSome = true) :
    Holds (memory.affect effects) (ledger.affect effects) := by
  have htransaction := h.transaction
  cases hcurrent : ledger.current with
  | none =>
    rw [hcurrent] at htransaction
    have hcommit : Holds (memory.commit effects) ⟨ledger.committed ++ [effects], none⟩ :=
      @holds_commit _ _ h (some effects) fun _ heffects => by cases heffects; exact hhistory
    simpa only [affect, Ledger.affect, htransaction, hcurrent] using hcommit
  | some current =>
    rw [hcurrent] at htransaction
    simp only [affect, Ledger.affect, htransaction, hcurrent]
    refine ⟨h.records, h.scripts, rfl, ?_⟩
    rintro _ ⟨⟩ hne
    by_cases hempty : current.records = []
    · exact hhistory fun hnone => hne (by simp [hempty, hnone])
    · exact h.history current hcurrent hempty

theorem records_eq_ok_iff {records : List AppliedMigration} :
    memory.records = .ok records ↔ memory.history = some records := by
  unfold Memory.records
  split <;> simp_all

/-- A statement that is carried out changes the database as it changes the ledger. -/
theorem exists_step_of_execute {memory' : Memory} {statement : Statement}
    {reply : statement.Reply} (h : Holds memory ledger)
    (hexecute : memory.execute statement = .ok (reply, memory')) :
    ∃ after, ledger.Step ⟨statement, .ok reply⟩ after ∧ Holds memory' after := by
  cases statement with
  | createHistory =>
    cases hexecute
    exact ⟨ledger, rfl, h.records, h.scripts, h.transaction, fun _ _ _ => rfl⟩
  | historyExists =>
    cases hexecute
    exact ⟨ledger, rfl, h⟩
  | findRecord name =>
    obtain ⟨records, hrecords, hreply⟩ := map_eq_ok_iff.1 hexecute
    cases hreply
    refine ⟨ledger, ⟨rfl, ?_⟩, h⟩
    rw [recordedNames_eq, ← h.records, records_eq_ok_iff.1 hrecords]
    change Option.map AppliedMigration.readBack _ = none ↔ _
    simp
  | listRecords =>
    obtain ⟨_, _, hreply⟩ := map_eq_ok_iff.1 hexecute
    cases hreply
    exact ⟨ledger, rfl, h⟩
  | countRecords =>
    obtain ⟨_, _, hreply⟩ := map_eq_ok_iff.1 hexecute
    cases hreply
    exact ⟨ledger, rfl, h⟩
  | beginTransaction =>
    cases hexecute
    exact ⟨_, rfl, h.records, h.scripts, rfl, by simp⟩
  | insertRecord name checksum =>
    obtain ⟨inserted, hinsert, hreply⟩ := map_eq_ok_iff.1 hexecute
    cases hreply
    obtain ⟨records, hrecords, hinsert⟩ := bind_eq_ok_iff.1 hinsert
    split at hinsert
    · cases hinsert
    · cases hinsert
      exact ⟨_, ⟨memory.now, rfl⟩,
        holds_affect h fun _ => by rw [records_eq_ok_iff.1 hrecords]; rfl⟩
  | setSearchPath schema =>
    cases hexecute
    exact ⟨ledger, rfl, h⟩
  | runScript text =>
    cases hexecute
    exact ⟨_, rfl, holds_affect h (by simp)⟩
  | commit =>
    cases hexecute
    refine ⟨_, rfl, ?_⟩
    rw [h.transaction]
    exact holds_commit h h.history
  | readCatalog part schema =>
    cases hexecute
    exact ⟨ledger, rfl, h⟩

/-- A statement is refused, or carried out. -/
theorem answer_cases (memory : Memory) (statement : Statement) :
    (∃ cause, memory.answer statement =
      (.error cause, (memory.note statement).afterRefusal statement)) ∨
    ∃ reply memory', (memory.note statement).execute statement = .ok (reply, memory') ∧
      memory.answer statement = (.ok reply, memory') := by
  unfold answer
  cases hrefusal : (memory.note statement).refusal? statement with
  | some text => exact .inl ⟨.refused text, by simp only [hrefusal]⟩
  | none =>
    cases hexecute : (memory.note statement).execute statement with
    | ok outcome => exact .inr ⟨outcome.1, outcome.2, rfl, by simp only [hrefusal, hexecute]⟩
    | error cause => exact .inl ⟨cause, by simp only [hrefusal, hexecute]⟩

/-- The database in memory commits a transaction as a whole or not at all. -/
theorem keeps_server : Keeps Memory.server Holds where
  connect := by
    intro memory ledger url connections h
    change Holds (memory.connect url connections).2 ledger
    unfold connect
    split <;> exact h
  answer := by
    intro memory ledger statement h
    have hnote := holds_note h statement
    change ∃ after, ledger.Step ⟨statement, (memory.answer statement).1⟩ after ∧
      Holds (memory.answer statement).2 after
    rcases memory.answer_cases statement with ⟨cause, h⟩ | ⟨reply, memory', hexecute, h⟩
    · obtain ⟨current, hcurrent⟩ := holds_afterRefusal hnote statement
      rw [h]
      exact ⟨_, step_of_refusal statement cause current, hcurrent⟩
    · rw [h]
      exact exists_step_of_execute hnote hexecute

end Memory

end SchemaPlan.Database
