import Mathlib.Data.List.Nodup
import SchemaPlan.Database.Memory
import SchemaPlan.Proofs.Outcome

/-!
# A database that answers from its history

Migrations are looked up in two ways: one by its name, or all at once.  A database that fails at
nothing answers both from one table, which has at most one record of each name.

* `AnswersFromHistory` says so of the states of a server,
* `Memory.answersFromHistory`: the database in memory is such a server when nothing is refused,
* `find?_eq_of_perm`: what is found under a name does not depend on the order of the rows.
-/

set_option autoImplicit false

namespace SchemaPlan.Database

/-- The names of records. -/
def namesOf (records : List AppliedMigration) : List String :=
  records.map AppliedMigration.name

/-- The record of a migration in a history; a missing table has none. -/
def recordIn (history : Option (List AppliedMigration)) (name : String) :
    Option AppliedMigration :=
  (history.getD []).find? fun record => record.name = name

/-! ## Records and names -/

section Records

variable {records rows : List AppliedMigration} {record : AppliedMigration} {name : String}

theorem find?_eq_some_iff (h : (namesOf records).Nodup) :
    records.find? (fun record => record.name = name) = some record ↔
      record ∈ records ∧ record.name = name := by
  constructor
  · intro hfound
    exact ⟨List.mem_of_find?_eq_some hfound, by simpa using List.find?_some hfound⟩
  · rintro ⟨hmem, hname⟩
    cases hfound : records.find? fun record => record.name = name with
    | none => simpa [hname] using List.find?_eq_none.1 hfound record hmem
    | some other =>
      have hother : other.name = name := by simpa using List.find?_some hfound
      have hsame := List.inj_on_of_nodup_map h (List.mem_of_find?_eq_some hfound) hmem
        (hother.trans hname.symm)
      rw [hsame]

/-- What is found under a name does not depend on the order of the rows. -/
theorem find?_eq_of_perm (hperm : rows.Perm records) (h : (namesOf records).Nodup)
    (name : String) : rows.find? (fun record => record.name = name) =
      records.find? fun record => record.name = name := by
  have hrows : (namesOf rows).Nodup := (hperm.map AppliedMigration.name).nodup_iff.2 h
  refine Option.ext fun record => ?_
  rw [find?_eq_some_iff hrows, find?_eq_some_iff h, hperm.mem_iff]

/-- Rows of other names do not matter. -/
theorem find?_filter_ne {other : String} (hne : name ≠ other) :
    (records.filter fun record => record.name ≠ other).find? (fun record => record.name = name) =
      records.find? fun record => record.name = name := by
  rw [List.find?_filter]
  congr 1
  funext record
  by_cases hname : record.name = name
  · simp [hname, hne]
  · simp [hname]

theorem not_mem_namesOf_of_find? (h : records.find? (fun record => record.name = name) = none) :
    name ∉ namesOf records := by
  intro hmem
  obtain ⟨record, hrecord, hname⟩ := List.mem_map.1 hmem
  simpa [hname] using List.find?_eq_none.1 h record hrecord

end Records

/-! ## Servers with a history -/

/-- Whether a server answers from a history, and fails at nothing up to the script of a migration.
How scripts and commits are answered is left open. -/
structure AnswersFromHistory {σ : Type} (server : Server σ)
    (holds : σ → Option (List AppliedMigration) → Prop) : Prop where
  historyExists : ∀ {state history}, holds state history → ∃ next,
    server.answer state .historyExists = (.ok history.isSome, next) ∧ holds next history
  findRecord : ∀ {state records} (name : String), holds state (some records) → ∃ next,
    server.answer state (.findRecord name) = (.ok (recordIn (some records) name), next) ∧
      holds next (some records)
  /-- The rows may come in any order. -/
  listRecords : ∀ {state records}, holds state (some records) → ∃ rows next,
    server.answer state .listRecords = (.ok rows, next) ∧ rows.Perm records ∧
      holds next (some records)
  beginTransaction : ∀ {state history}, holds state history → ∃ next,
    server.answer state .beginTransaction = (.ok (), next) ∧ holds next history
  /-- A record of a new name can be inserted. -/
  insertRecord : ∀ {state records} (name checksum : String), holds state (some records) →
    name ∉ namesOf records → ∃ next seen,
      server.answer state (.insertRecord name checksum) = (.ok (), next) ∧ holds next seen
  setSearchPath : ∀ {state history} (schema : String), holds state history → ∃ next,
    server.answer state (.setSearchPath schema) = (.ok (), next) ∧ holds next history

/-! ## The database in memory -/

namespace Memory

/-- Whether a database in memory refuses nothing and has a history, as it is read back. -/
structure Shows (memory : Memory) (history : Option (List AppliedMigration)) : Prop where
  refusals : memory.refusals = []
  history : memory.history.map (List.map AppliedMigration.readBack) = history

variable {memory : Memory} {history : Option (List AppliedMigration)}

theorem shows_note (h : Shows memory history) (statement : Statement) :
    Shows (memory.note statement) history := by
  unfold note
  split
  · split
    · exact h
    · exact ⟨h.refusals, h.history⟩
  · exact ⟨h.refusals, h.history⟩

/-- What is not refused is carried out. -/
theorem answer_eq_of_execute {statement : Statement} {reply : statement.Reply} {next : Memory}
    (h : Shows memory history)
    (hexecute : (memory.note statement).execute statement = .ok (reply, next)) :
    memory.answer statement = (.ok reply, next) := by
  have hrefusal : (memory.note statement).refusal? statement = none := by
    rw [refusal?, (shows_note h statement).refusals, List.find?_nil]
  simp only [answer, hrefusal, hexecute]

theorem exists_records {records : List AppliedMigration} (h : Shows memory (some records)) :
    ∃ kept, memory.history = some kept ∧ memory.records = .ok kept ∧
      kept.map AppliedMigration.readBack = records := by
  obtain ⟨kept, hkept, hback⟩ := Option.map_eq_some_iff.1 h.history
  exact ⟨kept, hkept, by rw [Memory.records, hkept], hback⟩

theorem find?_readBack (kept : List AppliedMigration) (name : String) :
    (kept.map AppliedMigration.readBack).find? (fun record => record.name = name) =
      (kept.find? fun record => record.name = name).map AppliedMigration.readBack := by
  rw [List.find?_map]
  rfl

theorem shows_affect (h : Shows memory history) (effects : Transaction) :
    ∃ seen, Shows (memory.affect effects) seen := by
  refine ⟨_, ?_, rfl⟩
  unfold affect
  split
  · exact h.refusals
  · exact h.refusals

/-- The database in memory answers from its history when nothing is refused. -/
theorem answersFromHistory : AnswersFromHistory Memory.server Shows where
  historyExists := by
    intro memory history h
    have hnote := shows_note h .historyExists
    have hsome : (memory.note .historyExists).history.isSome = history.isSome := by
      rw [← hnote.history, Option.isSome_map]
    refine ⟨memory.note .historyExists, answer_eq_of_execute h ?_, hnote⟩
    rw [← hsome]
    rfl
  findRecord := by
    intro memory records name h
    have hnote := shows_note h (.findRecord name)
    obtain ⟨kept, -, hkept, rfl⟩ := exists_records hnote
    refine ⟨memory.note (.findRecord name), answer_eq_of_execute h ?_, hnote⟩
    simp only [execute, hkept, Except.map, recordIn, Option.getD_some, find?_readBack]
  listRecords := by
    intro memory records h
    have hnote := shows_note h .listRecords
    obtain ⟨kept, -, hkept, rfl⟩ := exists_records hnote
    refine ⟨_, memory.note .listRecords, answer_eq_of_execute h ?_,
      (List.mergeSort_perm kept AppliedMigration.before).map AppliedMigration.readBack, hnote⟩
    simp only [execute, hkept, Except.map]
  beginTransaction := by
    intro memory history h
    have hnote := shows_note h .beginTransaction
    exact ⟨_, answer_eq_of_execute h rfl, hnote.refusals, hnote.history⟩
  insertRecord := by
    intro memory records name checksum h hnew
    have hnote := shows_note h (.insertRecord name checksum)
    obtain ⟨kept, -, hkept, rfl⟩ := exists_records hnote
    obtain ⟨seen, hseen⟩ := shows_affect hnote
      { records := [⟨name, checksum, (memory.note (.insertRecord name checksum)).now⟩] }
    have hfree : (kept.any fun record => record.name = name) = false := by
      refine List.any_eq_false.2 fun record hrecord hname => hnew ?_
      rw [namesOf, List.map_map]
      exact List.mem_map.2 ⟨record, hrecord, of_decide_eq_true hname⟩
    refine ⟨_, seen, answer_eq_of_execute h ?_, hseen⟩
    rw [execute, insert, hkept]
    simp only [bind, Except.bind, hfree]
    rfl
  setSearchPath := by
    intro memory history schema h
    exact ⟨_, answer_eq_of_execute h rfl, shows_note h (.setSearchPath schema)⟩

end Memory

end SchemaPlan.Database
