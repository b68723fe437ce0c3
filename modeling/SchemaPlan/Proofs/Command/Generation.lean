import SchemaPlan.Command.Run
import SchemaPlan.Proofs.Outcome
import SchemaPlan.Proofs.Session.Straight

/-!
# What generating a migration goes through

A migration is written in the last stage only.  Everything before it reads: the declaration, the
migrations that are there, the history and the catalog.

* `generate_eq`: the stages,
* `Statement.mayWrite`: the statements that can change what a database holds,
* `sends_checkHistory`: what is sent, up to the first failure,
* `Generation`: what a successful run has read and compared, and `Generation.IsOf` how it came
  about,
* `exists_generation`: a run that succeeds went through all of it, and `Delivers` what it wanted,
* `run_generate_cases`: a run fails before anything is sent, or goes on from an open connection.
-/

set_option autoImplicit false

namespace SchemaPlan

open Database Outcome Storage
open Session (Exchange)

/-- Whether a statement can change what a database holds. -/
def Database.Statement.mayWrite : Statement → Bool
  | .createHistory | .insertRecord _ _ | .runScript _ | .commit => true
  | .historyExists | .findRecord _ | .listRecords | .countRecords | .beginTransaction
  | .setSearchPath _ | .readCatalog _ _ => false

/-! ## What is sent -/

namespace Catalog

/-- The reads of the catalog of a schema. -/
def reads (schema : String) : List Statement :=
  [.extensions, .enums, .tables, .columns, .constraints, .indexes, .functions, .triggers].map
    fun part => .readCatalog part schema

/-- How the reads were answered. -/
def answers (schema : String) (snapshot : Snapshot) : List Exchange :=
  [⟨.readCatalog .extensions schema, .ok snapshot.extensions⟩,
    ⟨.readCatalog .enums schema, .ok snapshot.enums⟩,
    ⟨.readCatalog .tables schema, .ok snapshot.tables⟩,
    ⟨.readCatalog .columns schema, .ok snapshot.columns⟩,
    ⟨.readCatalog .constraints schema, .ok snapshot.constraints⟩,
    ⟨.readCatalog .indexes schema, .ok snapshot.indexes⟩,
    ⟨.readCatalog .functions schema, .ok snapshot.functions⟩,
    ⟨.readCatalog .triggers schema, .ok snapshot.triggers⟩]

theorem sends_readSnapshot (schema : String) : Attempt.Sends (reads schema) (readSnapshot schema) :=
  (Attempt.sends_notice _).then fun _ =>
    (Attempt.sends_send _).bind fun _ => (Attempt.sends_send _).bind fun _ =>
    (Attempt.sends_send _).bind fun _ => (Attempt.sends_send _).bind fun _ =>
    (Attempt.sends_send _).bind fun _ => (Attempt.sends_send _).bind fun _ =>
    (Attempt.sends_send _).bind fun _ => (Attempt.sends_send _).bind fun _ =>
    Attempt.sends_pure _

/-- A snapshot holds what was answered. -/
theorem answers_of_readSnapshot {schema : String} {sent : List Exchange} {snapshot : Snapshot}
    (h : (readSnapshot schema).Yields sent (.ok snapshot)) : sent = answers schema snapshot := by
  rw [readSnapshot, Attempt.yields_notice_then_iff] at h
  obtain ⟨extensions, after, rfl, hextensions⟩ := Attempt.yields_ok_send_then_iff.1 h
  obtain ⟨enums, after, rfl, henums⟩ := Attempt.yields_ok_send_then_iff.1 hextensions
  obtain ⟨tables, after, rfl, htables⟩ := Attempt.yields_ok_send_then_iff.1 henums
  obtain ⟨columns, after, rfl, hcolumns⟩ := Attempt.yields_ok_send_then_iff.1 htables
  obtain ⟨constraints, after, rfl, hconstraints⟩ := Attempt.yields_ok_send_then_iff.1 hcolumns
  obtain ⟨indexes, after, rfl, hindexes⟩ := Attempt.yields_ok_send_then_iff.1 hconstraints
  obtain ⟨functions, after, rfl, hfunctions⟩ := Attempt.yields_ok_send_then_iff.1 hindexes
  obtain ⟨triggers, after, rfl, htriggers⟩ := Attempt.yields_ok_send_then_iff.1 hfunctions
  obtain ⟨rfl, hsnapshot⟩ := Attempt.yields_pure_iff.1 htriggers
  cases hsnapshot
  rfl

theorem sends_readGraph (schema : String) : Attempt.Sends (reads schema) (readGraph schema) := by
  rw [← List.append_nil (reads schema)]
  refine (sends_readSnapshot schema).bind fun snapshot => ?_
  cases snapshot.graph with
  | ok graph => exact Attempt.sends_pure graph
  | error cause =>
    cases cause <;> first
      | exact (Attempt.sends_notice _).then fun _ => Attempt.sends_throw _ _
      | exact Attempt.sends_throw _ _

/-- A live schema is made of what was answered. -/
theorem answers_of_readGraph {schema : String} {sent : List Exchange} {graph : SchemaGraph}
    (h : (readGraph schema).Yields sent (.ok graph)) :
    ∃ snapshot : Snapshot, sent = answers schema snapshot ∧ snapshot.graph = .ok graph := by
  obtain ⟨first, snapshot, second, hfirst, hsecond, rfl⟩ := Attempt.yields_ok_bind_iff.1 h
  refine ⟨snapshot, ?_⟩
  rw [answers_of_readSnapshot hfirst]
  split at hsecond
  · rename_i live hlive
    obtain ⟨rfl, hresult⟩ := Attempt.yields_pure_iff.1 hsecond
    cases hresult
    exact ⟨List.append_nil _, hlive⟩
  · dsimp only at hsecond
    split at hsecond
    · rw [Attempt.yields_notice_then_iff] at hsecond
      cases (Attempt.yields_throw_iff.1 hsecond).2
    · cases (Attempt.yields_throw_iff.1 hsecond).2

end Catalog

namespace Command

variable {settings : Settings} {arguments : GenerateArguments} {files after : FileTree}
  {now : Time.Instant} {sent : List Exchange}

/-! ## The stages -/

/-- The last stage: a migration is made of the changes. -/
def deliverChanges (settings : Settings) (arguments : GenerateArguments) (files : FileTree)
    (now : Time.Instant) (changes : ChangeSet) : Attempt FileTree := do
  changes.candidates.forM fun candidate => Attempt.notice (.possibleRename candidate)
  if changes.isEmpty then
    Attempt.notice .upToDate
    pure files
  else
    Attempt.ofExcept (refuseDestructive arguments.allowDestructive changes)
    changes.operations.forM fun operation => Attempt.notice (.planned operation)
    let script ← Attempt.ofSchema (Dialect.postgres.script changes.operations)
    deliver settings arguments.dryRun files
      (MigrationFile.ofScript arguments.description script now)

/-- The stage before: the live schema is read and compared with the declared one. -/
def compareLive (settings : Settings) (arguments : GenerateArguments) (files : FileTree)
    (now : Time.Instant) (declared : SchemaGraph) (schema : String) : Attempt FileTree := do
  Attempt.notice (.comparingWith schema)
  let live ← Catalog.readGraph schema
  let changes ← compare arguments.diffOptions declared live
  deliverChanges settings arguments files now changes

/-- The stage before: the migrations that are there are read and compared with the history. -/
def checkHistory (settings : Settings) (arguments : GenerateArguments) (files : FileTree)
    (now : Time.Instant) (declared : SchemaGraph) (schema : String) : Attempt FileTree := do
  let executor : Executor := {}
  executor.init
  let existing ← Attempt.ofExcept (existingMigrations files settings.migrationsDirectory)
  let pending ← executor.pending existing
  if !pending.isEmpty then Attempt.notice (.pendingFiles pending.length)
  compareLive settings arguments files now declared schema

theorem generate_eq : generate settings arguments files now = (do
    let declaration ← Attempt.ofExcept (loadDeclaration files settings.schemaFile)
    let declared ← Attempt.ofSchema declaration.register
    settings.connect
    checkHistory settings arguments files now declared
      (settings.targetSchema (some declaration.schema))) :=
  rfl

/-! ## What is sent -/

/-- What is sent to generate a migration of a schema. -/
def generateStatements (schema : String) : List Statement :=
  [.createHistory, .listRecords] ++ Catalog.reads schema

theorem sends_pending (files : List MigrationFile) :
    Attempt.Sends [.listRecords] (Executor.pending {} files) := by
  have hrecords : Attempt.Sends [.listRecords] (Executor.records {}) :=
    (Attempt.sends_send .listRecords).bind fun _ => Attempt.sends_pure _
  exact hrecords.bind fun _ => Attempt.sends_pure _

theorem sends_compare (options : DiffOptions) (declared live : SchemaGraph) :
    Attempt.Sends [] (compare options declared live) :=
  (Attempt.sends_ofExcept _).then fun _ => (Attempt.sends_notice _).then fun _ =>
    Attempt.sends_pure _

theorem sends_deliver (settings : Settings) (dryRun : Bool) (files : FileTree)
    (migration : MigrationFile) : Attempt.Sends [] (deliver settings dryRun files migration) :=
  .ite
    ((Attempt.sends_print _).then fun _ => (Attempt.sends_print _).then fun _ =>
      Attempt.sends_pure _)
    ((Attempt.sends_store _).then fun _ => (Attempt.sends_notice _).then fun _ =>
      (Attempt.sends_notice _).then fun _ => Attempt.sends_pure _)

theorem sends_deliverChanges (changes : ChangeSet) :
    Attempt.Sends [] (deliverChanges settings arguments files now changes) := by
  refine (Attempt.sends_forM _ fun _ => Attempt.sends_notice _).then fun _ => .ite ?_ ?_
  · exact (Attempt.sends_notice _).then fun _ => Attempt.sends_pure _
  · exact (Attempt.sends_ofExcept _).then fun _ =>
      (Attempt.sends_forM _ fun _ => Attempt.sends_notice _).then fun _ =>
      (Attempt.sends_ofExcept _).then fun _ => sends_deliver _ _ _ _

theorem sends_compareLive (declared : SchemaGraph) (schema : String) :
    Attempt.Sends (Catalog.reads schema)
      (compareLive settings arguments files now declared schema) := by
  rw [← List.append_nil (Catalog.reads schema)]
  exact (Attempt.sends_notice _).then fun _ => (Catalog.sends_readGraph schema).bind fun _ =>
    (sends_compare _ _ _).then fun _ => sends_deliverChanges _

theorem sends_checkHistory (declared : SchemaGraph) (schema : String) :
    Attempt.Sends (generateStatements schema)
      (checkHistory settings arguments files now declared schema) := by
  refine (Attempt.sends_send .createHistory).bind fun _ =>
    (Attempt.sends_ofExcept _).then fun _ => (sends_pending _).bind fun pending => .ite ?_ ?_
  · exact (Attempt.sends_notice _).then fun _ => sends_compareLive declared schema
  · exact sends_compareLive declared schema

/-- Of these statements only the making of the history table can write. -/
theorem eq_createHistory_of_mayWrite {schema : String} {statement : Statement}
    (h : statement ∈ generateStatements schema) (hwrites : statement.mayWrite = true) :
    statement = .createHistory := by
  rcases List.mem_cons.1 h with rfl | h
  · rfl
  rcases List.mem_cons.1 h with rfl | h
  · cases hwrites
  · obtain ⟨part, -, rfl⟩ := List.mem_map.1 h
    cases hwrites

/-! ## What a run went through -/

/-- What a run that succeeds has read and compared. -/
structure Generation where
  declaration : Declaration
  declared : SchemaGraph
  /-- The migrations that were there. -/
  existing : List MigrationFile
  /-- The rows of the history. -/
  records : List AppliedMigration
  snapshot : Catalog.Snapshot
  live : SchemaGraph
  changes : ChangeSet

namespace Generation

variable (generation : Generation)

/-- The schema that is compared. -/
def schema (settings : Settings) : String :=
  settings.targetSchema (some generation.declaration.schema)

/-- Everything that is sent, each statement with its answer. -/
def exchanges (settings : Settings) : List Exchange :=
  [⟨.createHistory, .ok ()⟩, ⟨.listRecords, .ok generation.records⟩] ++
    Catalog.answers (generation.schema settings) generation.snapshot

/-- Whether every step before the last succeeds with these results. -/
structure IsOf (settings : Settings) (arguments : GenerateArguments) (files : FileTree) : Prop where
  loads : loadDeclaration files settings.schemaFile = .ok generation.declaration
  registers : generation.declaration.register = .ok generation.declared
  parses : existingMigrations files settings.migrationsDirectory = .ok generation.existing
  reads : generation.snapshot.graph = .ok generation.live
  compares : diff arguments.diffOptions generation.declared generation.live =
    .ok generation.changes

end Generation

/-- Whether changes may be written, as a script. -/
structure Passes (arguments : GenerateArguments) (changes : ChangeSet) (script : Script) :
    Prop where
  nonempty : changes.isEmpty = false
  allowed : changes.isDestructive = true → arguments.allowDestructive = true
  renders : Dialect.postgres.script changes.operations = .ok script
  writes : arguments.dryRun = false

/-- What becomes of the changes and the files. -/
inductive Delivers (settings : Settings) (arguments : GenerateArguments) (files : FileTree)
    (now : Time.Instant) (changes : ChangeSet) : FileTree → Prop
  /-- There was nothing to write, or nothing was to be written. -/
  | nothing (unwanted : changes.isEmpty = true ∨ arguments.dryRun = true) :
    Delivers settings arguments files now changes files
  | migration {script : Script} {after : FileTree} (passes : Passes arguments changes script)
      (written : (MigrationFile.ofScript arguments.description script now).write files
        settings.migrationsDirectory = .ok after) :
    Delivers settings arguments files now changes after

/-- Changes that can lose data have to be allowed. -/
theorem refuseDestructive_eq_ok_iff {allowed : Bool} {changes : ChangeSet} :
    refuseDestructive allowed changes = .ok () ↔
      (changes.isDestructive = true → allowed = true) := by
  rw [refuseDestructive]
  cases changes.isDestructive <;> cases allowed <;> simp

/-- A migration is made of the changes if there are any and it is wanted. -/
theorem delivers_of_deliverChanges {changes : ChangeSet}
    (h : (deliverChanges settings arguments files now changes).Yields sent (.ok after)) :
    Delivers settings arguments files now changes after := by
  obtain ⟨_, -, h⟩ := Attempt.exists_of_yields_ok_then
    (Attempt.sends_forM _ fun _ => Attempt.sends_notice _) h
  split at h
  · rename_i hempty
    rw [Attempt.yields_notice_then_iff] at h
    cases (Attempt.yields_pure_iff.1 h).2
    exact .nothing (.inl hempty)
  rename_i hnonempty
  obtain ⟨_, hallowed, h⟩ := Attempt.yields_ok_ofExcept_then_iff.1 h
  obtain ⟨_, -, h⟩ := Attempt.exists_of_yields_ok_then
    (Attempt.sends_forM _ fun _ => Attempt.sends_notice _) h
  obtain ⟨script, hscript, h⟩ := Attempt.yields_ok_ofExcept_then_iff.1 h
  unfold deliver at h
  split at h
  · rename_i hdry
    rw [Attempt.yields_print_then_iff, Attempt.yields_print_then_iff] at h
    cases (Attempt.yields_pure_iff.1 h).2
    exact .nothing (.inr hdry)
  · rename_i hwet
    obtain ⟨written, hwritten, h⟩ := Attempt.yields_ok_store_then_iff.1 h
    rw [Attempt.yields_notice_then_iff, Attempt.yields_notice_then_iff] at h
    cases (Attempt.yields_pure_iff.1 h).2
    rw [Bool.not_eq_true] at hnonempty hwet
    exact .migration ⟨hnonempty, refuseDestructive_eq_ok_iff.1 hallowed,
      mapError_eq_ok_iff.1 hscript, hwet⟩ hwritten

theorem diff_of_compare {options : DiffOptions} {declared live : SchemaGraph}
    {changes : ChangeSet} (h : (compare options declared live).Yields sent (.ok changes)) :
    diff options declared live = .ok changes := by
  obtain ⟨found, hdiff, h⟩ := Attempt.yields_ok_ofExcept_then_iff.1 h
  rw [Attempt.yields_notice_then_iff] at h
  cases (Attempt.yields_pure_iff.1 h).2
  exact mapError_eq_ok_iff.1 hdiff

/-- The live schema is compared as it was answered. -/
theorem delivers_of_compareLive {declared : SchemaGraph} {schema : String}
    (h : (compareLive settings arguments files now declared schema).Yields sent (.ok after)) :
    ∃ (snapshot : Catalog.Snapshot) (live : SchemaGraph) (changes : ChangeSet),
      sent = Catalog.answers schema snapshot ∧ snapshot.graph = .ok live ∧
      diff arguments.diffOptions declared live = .ok changes ∧
      Delivers settings arguments files now changes after := by
  rw [compareLive, Attempt.yields_notice_then_iff] at h
  obtain ⟨first, live, second, hread, hlater, rfl⟩ := Attempt.yields_ok_bind_iff.1 h
  obtain ⟨snapshot, rfl, hlive⟩ := Catalog.answers_of_readGraph hread
  obtain ⟨changes, hcompared, hlast⟩ :=
    Attempt.exists_of_yields_ok_then (sends_compare _ _ _) hlater
  obtain rfl : second = [] := List.map_eq_nil_iff.1 ((sends_deliverChanges changes).all hlast)
  exact ⟨snapshot, live, changes, List.append_nil _, hlive, diff_of_compare hcompared,
    delivers_of_deliverChanges hlast⟩

/-- The rows of the history are read once. -/
theorem exists_records_of_pending {existing pending : List MigrationFile}
    (h : (Executor.pending {} existing).Yields sent (.ok pending)) :
    ∃ records, sent = [⟨.listRecords, .ok records⟩] := by
  obtain ⟨first, sorted, second, hfirst, hsecond, rfl⟩ := Attempt.yields_ok_bind_iff.1 h
  obtain ⟨rfl, -⟩ := Attempt.yields_pure_iff.1 hsecond
  have hfirst : (Attempt.send .listRecords >>= fun (records : List AppliedMigration) =>
    pure (Order.ofList AppliedMigration.name records) :
      Attempt (List AppliedMigration)).Yields first (.ok sorted) := hfirst
  obtain ⟨records, rest, rfl, hrest⟩ := Attempt.yields_ok_send_then_iff.1 hfirst
  obtain ⟨rfl, -⟩ := Attempt.yields_pure_iff.1 hrest
  exact ⟨records, rfl⟩

/-- What comes after the connection, when it succeeds, went through all steps. -/
theorem exists_generation {declaration : Declaration} {declared : SchemaGraph}
    (hloads : loadDeclaration files settings.schemaFile = .ok declaration)
    (hregisters : declaration.register = .ok declared)
    (h : (checkHistory settings arguments files now declared
      (settings.targetSchema (some declaration.schema))).Yields sent (.ok after)) :
    ∃ generation : Generation, generation.IsOf settings arguments files ∧
      sent = generation.exchanges settings ∧
      Delivers settings arguments files now generation.changes after := by
  obtain ⟨_, rest, rfl, hmade⟩ := Attempt.yields_ok_send_then_iff.1 h
  obtain ⟨existing, hparsed, hlater⟩ := Attempt.yields_ok_ofExcept_then_iff.1 hmade
  obtain ⟨first, pending, second, hpending, hcompared, rfl⟩ := Attempt.yields_ok_bind_iff.1 hlater
  obtain ⟨records, rfl⟩ := exists_records_of_pending hpending
  have hcompared : (compareLive settings arguments files now declared
      (settings.targetSchema (some declaration.schema))).Yields second (.ok after) := by
    split at hcompared
    · rwa [Attempt.yields_notice_then_iff] at hcompared
    · exact hcompared
  obtain ⟨snapshot, live, changes, rfl, hlive, hdiff, hdelivers⟩ :=
    delivers_of_compareLive hcompared
  exact ⟨⟨declaration, declared, existing, records, snapshot, live, changes⟩,
    ⟨hloads, hregisters, hparsed, hlive, hdiff⟩, rfl, hdelivers⟩

/-! ## The connection -/

section Connection

variable {σ : Type} {server : Server σ} {state opened : σ}

/-- Whether a server lets a command with some settings in, and in which state. -/
def Settings.Opens (settings : Settings) (server : Server σ) (state opened : σ) (url : String) :
    Prop :=
  settings.requireUrl = .ok url ∧
    server.connect state url settings.maxConnections = (.ok (), opened)

theorem run_connect {url : String} (hurl : settings.requireUrl = .ok url) :
    settings.connect.run.run server state =
      ⟨(server.connect state url settings.maxConnections).1.mapError .database,
        [.connected url (server.connect state url settings.maxConnections).1],
        (server.connect state url settings.maxConnections).2⟩ := by
  rw [Settings.connect, hurl]
  rfl

/-- A connection is opened, or there is none and nothing was sent. -/
theorem run_connect_cases (settings : Settings) (server : Server σ) (state : σ) :
    (∃ error events reached, settings.connect.run.run server state =
        ⟨.error error, events, reached⟩ ∧ events.filterMap Session.Event.exchange? = []) ∨
      ∃ url opened, settings.Opens server state opened url := by
  cases hurl : settings.requireUrl with
  | error error =>
    refine .inl ⟨error, [], state, ?_, rfl⟩
    rw [Settings.connect, hurl]
    rfl
  | ok url =>
    cases hconnect : server.connect state url settings.maxConnections with
    | mk answer reached =>
      cases answer with
      | ok _ => exact .inr ⟨url, reached, hurl, hconnect⟩
      | error cause =>
        refine .inl ⟨.database cause, [.connected url (.error cause)], reached, ?_, rfl⟩
        rw [run_connect hurl, hconnect]
        rfl

/-- A run goes on from an open connection. -/
theorem run_generate_of_opens {declaration : Declaration} {declared : SchemaGraph} {url : String}
    (hloads : loadDeclaration files settings.schemaFile = .ok declaration)
    (hregisters : declaration.register = .ok declared)
    (hopens : settings.Opens server state opened url) :
    (generate settings arguments files now).run.run server state =
      ((checkHistory settings arguments files now declared
        (settings.targetSchema (some declaration.schema))).run.run server opened).behind
          [.connected url (.ok ())] := by
  have hrun : settings.connect.run.run server state =
      ⟨.ok (), [.connected url (.ok ())], opened⟩ := by
    rw [run_connect hopens.1, hopens.2]
    rfl
  rw [generate_eq, Attempt.run_bind_of_ok (Attempt.run_ofExcept_of_ok hloads),
    Attempt.run_bind_of_ok (Attempt.run_ofSchema_of_ok hregisters), Attempt.run_bind_of_ok hrun]
  rfl

/-- A run fails before anything is sent, or it goes on from an open connection. -/
theorem run_generate_cases (settings : Settings) (arguments : GenerateArguments)
    (files : FileTree) (now : Time.Instant) (server : Server σ) (state : σ) :
    (∃ error events reached, (generate settings arguments files now).run.run server state =
        ⟨.error error, events, reached⟩ ∧ events.filterMap Session.Event.exchange? = []) ∨
      ∃ declaration declared url opened,
        loadDeclaration files settings.schemaFile = .ok declaration ∧
        declaration.register = .ok declared ∧ settings.Opens server state opened url := by
  cases hloads : loadDeclaration files settings.schemaFile with
  | error error =>
    refine .inl ⟨error, [], state, ?_, rfl⟩
    rw [generate_eq, hloads]
    rfl
  | ok declaration =>
    cases hregisters : declaration.register with
    | error cause =>
      refine .inl ⟨.schema cause, [], state, ?_, rfl⟩
      rw [generate_eq, Attempt.run_bind_of_ok (Attempt.run_ofExcept_of_ok hloads), hregisters]
      rfl
    | ok declared =>
      rcases run_connect_cases settings server state with
        ⟨error, events, reached, hrun, hsent⟩ | ⟨url, opened, hopens⟩
      · refine .inl ⟨error, events, reached, ?_, hsent⟩
        rw [generate_eq, Attempt.run_bind_of_ok (Attempt.run_ofExcept_of_ok hloads),
          Attempt.run_bind_of_ok (Attempt.run_ofSchema_of_ok hregisters),
          Attempt.run_bind_of_error hrun]
        rfl
      · exact .inr ⟨declaration, declared, url, opened, rfl, hregisters, hopens⟩

end Connection

end Command

end SchemaPlan
