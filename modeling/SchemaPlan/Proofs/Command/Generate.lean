import SchemaPlan.Database.Memory
import SchemaPlan.Proofs.Command.Generation
import SchemaPlan.Proofs.Dialect.Rendering
import SchemaPlan.Proofs.Migration.Discovery
import SchemaPlan.Proofs.Migration.ExactlyOnce
import SchemaPlan.Proofs.Session.Answered
import SchemaPlan.Proofs.Session.Stored
import SchemaPlan.Proofs.Storage.NewFile

/-!
# What generating a migration leaves behind

A migration is due when every step before the last succeeds and its result is wanted.  If it is due
and there is place for its file, exactly this file is added; in every other case the files are the
old ones, and there may be new directories.  So it is whatever the database answers and wherever the
command stops.

* `Generation.IsDue`: everything before the last step succeeds, and a file is wanted,
* `leaves_checkHistory`: what a run leaves agrees with its result, also when it fails,
* `ends_checkHistory`: a migration that is due is written, or the run ends with the error of that,
* `generate_adds_at_most_one`: what is left behind.
-/

set_option autoImplicit false

namespace SchemaPlan.Command

open Database Outcome Storage

/-- The name of the file that is generated. -/
def GenerateArguments.fileName (arguments : GenerateArguments) (now : Time.Instant) : String :=
  now.stamp ++ "_" ++ MigrationFile.slug arguments.description ++ ".sql"

variable {settings : Settings} {arguments : GenerateArguments} {files after : FileTree}
  {now : Time.Instant}

/-! ## The file -/

/-- A migration can be written where there is place for its file. -/
theorem exists_write_iff (script : Script) {directory : String} :
    (∃ after, (MigrationFile.ofScript arguments.description script now).write files directory =
        .ok after) ↔
      files.HasPlaceFor directory (arguments.fileName now) := by
  refine Iff.trans ?_ (FileTree.hasPlaceFor_iff
    (MigrationFile.isEntryName_ofScript arguments.description script now)
    (MigrationFile.ofScript arguments.description script now).render).symm
  rw [exists_comm]
  refine exists_congr fun after => ?_
  rw [MigrationFile.write_eq_ok_iff, MigrationFile.writing_eq_ok_iff]
  rfl

/-- A migration that could not be written left at most new directories. -/
theorem widens_of_writing_eq_error {file : MigrationFile} {directory : String}
    {error : MigrationError} (h : (file.writing files directory).result = .error error) :
    files.Widens (file.writing files directory).tree := by
  refine FileTree.widens_andThen (FileTree.widens_makeDirectories files directory) fun hlast => ?_
  rw [MigrationFile.writing, hlast] at h
  rw [Ending.tree_ofExcept_of_error h]
  exact .refl _

/-- A written migration is one more file. -/
theorem addsFile_of_write {file : MigrationFile} {directory : String}
    (h : file.write files directory = .ok after) :
    files.AddsFile after (file.pathIn directory) file.render := by
  obtain ⟨made, hmade, hfree, hwritten⟩ :=
    MigrationFile.writing_eq_ok_iff.1 (MigrationFile.write_eq_ok_iff.1 h)
  have hwidens := FileTree.widens_makeDirectories files directory
  rw [hmade] at hwidens
  exact FileTree.addsFile_of_write hwidens hfree hwritten

/-- Whether a run added one file, a migration with the script of the changes. -/
structure AddsMigration (settings : Settings) (arguments : GenerateArguments)
    (now : Time.Instant) (script : Script) (files after : FileTree) (migration : MigrationFile) :
    Prop where
  named : migration.fileName = arguments.fileName now
  adds : files.AddsFile after (migration.pathIn settings.migrationsDirectory) migration.render
  /-- Only a year of four digits can be read back. -/
  parses : MigrationFile.read migration.render = .ok migration ↔ now.HasPlainYear
  verifies : migration.verify = .ok ()
  body : migration.body = script.sql

theorem addsMigration_of_write {script : Script}
    (h : (MigrationFile.ofScript arguments.description script now).write files
      settings.migrationsDirectory = .ok after) :
    AddsMigration settings arguments now script files after
      (MigrationFile.ofScript arguments.description script now) where
  named := rfl
  adds := addsFile_of_write h
  parses := (MigrationFile.wellFormed_ofScript _ _ _).read_render_iff
  verifies := MigrationFile.verify_ofScript _ _ _
  body := rfl

/-! ## What is left -/

/-- Whether files are those that a command ended with, or have at most new directories if it
failed. -/
def AgreesWith (files : FileTree) : Except MigrationError FileTree → FileTree → Prop
  | .ok after, tree => tree = after
  | .error _, tree => files.Widens tree

theorem leaves_deliver (settings : Settings) (dryRun : Bool) (files : FileTree)
    (migration : MigrationFile) :
    (deliver settings dryRun files migration).Leaves files (AgreesWith files) := by
  unfold deliver
  split
  · exact Attempt.leaves_print_then (Attempt.leaves_print_then
      (Attempt.storesNothing_pure files files))
  · refine (Attempt.leaves_store _ files).bind ?_ ?_
    · rintro written tree ⟨hresult, rfl⟩
      rw [Ending.result_eq_ok_iff.1 hresult.symm]
      exact Attempt.leaves_notice_then (Attempt.leaves_notice_then
        (Attempt.storesNothing_pure written written))
    · rintro error tree ⟨hresult, rfl⟩
      exact widens_of_writing_eq_error hresult.symm

theorem leaves_deliverChanges (changes : ChangeSet) :
    (deliverChanges settings arguments files now changes).Leaves files (AgreesWith files) := by
  have hnone (error : MigrationError) : AgreesWith files (.error error) files := .refl files
  refine (Attempt.storesNothing_forM _ fun _ => Attempt.storesNothing_notice _).leaves
    (fun _ => ?_) hnone
  split
  · exact Attempt.leaves_notice_then (Attempt.storesNothing_pure files files)
  · exact (Attempt.storesNothing_ofExcept _).leaves (fun _ =>
      (Attempt.storesNothing_forM _ fun _ => Attempt.storesNothing_notice _).leaves (fun _ =>
        (Attempt.storesNothing_ofExcept _).leaves (fun _ => leaves_deliver _ _ _ _) hnone)
        hnone) hnone

theorem storesNothing_readSnapshot (schema : String) :
    (Catalog.readSnapshot schema).StoresNothing :=
  (Attempt.storesNothing_notice _).bind fun _ =>
    (Attempt.storesNothing_send _).bind fun _ => (Attempt.storesNothing_send _).bind fun _ =>
    (Attempt.storesNothing_send _).bind fun _ => (Attempt.storesNothing_send _).bind fun _ =>
    (Attempt.storesNothing_send _).bind fun _ => (Attempt.storesNothing_send _).bind fun _ =>
    (Attempt.storesNothing_send _).bind fun _ => (Attempt.storesNothing_send _).bind fun _ =>
    Attempt.storesNothing_pure _

theorem storesNothing_readGraph (schema : String) : (Catalog.readGraph schema).StoresNothing := by
  refine (storesNothing_readSnapshot schema).bind fun snapshot => ?_
  cases snapshot.graph with
  | ok graph => exact Attempt.storesNothing_pure graph
  | error cause =>
    cases cause <;> first
      | exact (Attempt.storesNothing_notice _).bind fun _ => Attempt.storesNothing_throw _
      | exact Attempt.storesNothing_throw _

theorem storesNothing_pending (existing : List MigrationFile) :
    (Executor.pending {} existing).StoresNothing := by
  have hrecords : (Executor.records {}).StoresNothing :=
    (Attempt.storesNothing_send .listRecords).bind fun _ => Attempt.storesNothing_pure _
  exact hrecords.bind fun _ => Attempt.storesNothing_pure _

theorem storesNothing_compare (options : DiffOptions) (declared live : SchemaGraph) :
    (compare options declared live).StoresNothing :=
  (Attempt.storesNothing_ofExcept _).bind fun _ => (Attempt.storesNothing_notice _).bind fun _ =>
    Attempt.storesNothing_pure _

theorem leaves_compareLive (declared : SchemaGraph) (schema : String) :
    (compareLive settings arguments files now declared schema).Leaves files
      (AgreesWith files) := by
  have hnone (error : MigrationError) : AgreesWith files (.error error) files := .refl files
  exact Attempt.leaves_notice_then ((storesNothing_readGraph schema).leaves (fun _ =>
    (storesNothing_compare _ _ _).leaves (fun _ => leaves_deliverChanges _) hnone) hnone)

/-- What a run leaves agrees with its result. -/
theorem leaves_checkHistory (declared : SchemaGraph) (schema : String) :
    (checkHistory settings arguments files now declared schema).Leaves files
      (AgreesWith files) := by
  have hnone (error : MigrationError) : AgreesWith files (.error error) files := .refl files
  refine (Attempt.storesNothing_send .createHistory).leaves (fun _ =>
    (Attempt.storesNothing_ofExcept _).leaves (fun existing =>
      (storesNothing_pending existing).leaves (fun pending => ?_) hnone) hnone) hnone
  split
  · exact Attempt.leaves_notice_then (leaves_compareLive declared schema)
  · exact leaves_compareLive declared schema

theorem leaves_generate (settings : Settings) (arguments : GenerateArguments) (files : FileTree)
    (now : Time.Instant) :
    (generate settings arguments files now).Leaves files (AgreesWith files) := by
  have hnone (error : MigrationError) : AgreesWith files (.error error) files := .refl files
  have hconnect : settings.connect.StoresNothing :=
    (Attempt.storesNothing_ofExcept _).bind fun _ => Attempt.storesNothing_connect _ _
  rw [generate_eq]
  exact (Attempt.storesNothing_ofExcept _).leaves (fun _ =>
    (Attempt.storesNothing_ofExcept _).leaves (fun declared =>
      hconnect.leaves (fun _ => leaves_checkHistory declared _) hnone) hnone) hnone

theorem report_files {σ : Type} (run : Session.Run σ (Except MigrationError FileTree)) :
    (report files run).files = Session.filesAfter files run.events := by
  rw [report]
  cases run.result <;> rfl

/-! ## A migration that is due -/

/-- Whether everything succeeds before a migration is written, with these results, and it is wanted:
there are changes, they may be made, and they are not only to be printed. -/
structure Generation.IsDue {σ : Type} (generation : Generation) (server : Server σ) (state : σ)
    (settings : Settings) (arguments : GenerateArguments) (files : FileTree) : Prop where
  course : generation.IsOf settings arguments files
  answered : ∃ url opened, settings.Opens server state opened url ∧
    server.Gives opened (generation.exchanges settings)
  nonempty : generation.changes.isEmpty = false
  allowed : generation.changes.isDestructive = true → arguments.allowDestructive = true
  writes : arguments.dryRun = false

theorem ends_readSnapshot (schema : String) (snapshot : Catalog.Snapshot) :
    Attempt.Ends (Catalog.answers schema snapshot) (Catalog.readSnapshot schema) (.ok snapshot) :=
  (Attempt.ends_notice _).then <|
    Attempt.ends_send_then <| Attempt.ends_send_then <| Attempt.ends_send_then <|
    Attempt.ends_send_then <| Attempt.ends_send_then <| Attempt.ends_send_then <|
    Attempt.ends_send_then <| Attempt.ends_send_then <| Attempt.ends_pure snapshot

theorem ends_readGraph (schema : String) {snapshot : Catalog.Snapshot} {live : SchemaGraph}
    (h : snapshot.graph = .ok live) :
    Attempt.Ends (Catalog.answers schema snapshot) (Catalog.readGraph schema) (.ok live) := by
  rw [← List.append_nil (Catalog.answers schema snapshot)]
  refine (ends_readSnapshot schema snapshot).bind ?_
  rw [h]
  exact Attempt.ends_pure live

theorem exists_ends_pending (records : List AppliedMigration) (existing : List MigrationFile) :
    ∃ pending, Attempt.Ends [⟨.listRecords, .ok records⟩] (Executor.pending {} existing)
      (.ok pending) := by
  have hrecords : Attempt.Ends [⟨.listRecords, .ok records⟩] (Executor.records {})
      (.ok (Order.ofList AppliedMigration.name records)) :=
    Attempt.ends_send_then (Attempt.ends_pure _)
  exact ⟨_, hrecords.bind (Attempt.ends_pure _)⟩

theorem ends_compare {options : DiffOptions} {declared live : SchemaGraph} {changes : ChangeSet}
    (h : diff options declared live = .ok changes) :
    Attempt.Ends [] (compare options declared live) (.ok changes) :=
  (Attempt.ends_ofSchema_of_ok h).then ((Attempt.ends_notice _).then (Attempt.ends_pure changes))

theorem ends_deliver (settings : Settings) (files : FileTree) (migration : MigrationFile) :
    Attempt.Ends [] (deliver settings false files migration)
      (migration.write files settings.migrationsDirectory) := by
  have hstored := Attempt.ends_store (migration.writing files settings.migrationsDirectory)
  change Attempt.Ends [] (Attempt.store _ >>= _) _
  rw [MigrationFile.write]
  cases hresult : (migration.writing files settings.migrationsDirectory).result with
  | error error =>
    rw [hresult] at hstored
    exact hstored.error
  | ok written =>
    rw [hresult] at hstored
    exact hstored.then ((Attempt.ends_notice _).then ((Attempt.ends_notice _).then
      (Attempt.ends_pure written)))

/-- Changes that may be written have a script, and the run ends as its writing does. -/
theorem ends_deliverChanges {changes : ChangeSet} {script : Script}
    (hnonempty : changes.isEmpty = false)
    (hallowed : changes.isDestructive = true → arguments.allowDestructive = true)
    (hwrites : arguments.dryRun = false)
    (hscript : Dialect.postgres.script changes.operations = .ok script) :
    Attempt.Ends [] (deliverChanges settings arguments files now changes)
      ((MigrationFile.ofScript arguments.description script now).write files
        settings.migrationsDirectory) := by
  rw [deliverChanges, hnonempty, hwrites]
  refine (Attempt.ends_notices _ _).then ?_
  rw [if_neg Bool.false_ne_true]
  refine (Attempt.ends_ofExcept_of_ok (refuseDestructive_eq_ok_iff.2 hallowed)).then ?_
  exact (Attempt.ends_notices _ _).then ((Attempt.ends_ofSchema_of_ok hscript).then
    (ends_deliver settings files _))

/-- Every change set has a script. -/
theorem exists_script {options : DiffOptions} {declared live : SchemaGraph} {changes : ChangeSet}
    (h : diff options declared live = .ok changes) :
    ∃ script, Dialect.postgres.script changes.operations = .ok script := by
  obtain ⟨all, hall, -⟩ := mapM_flatten fun operation hmem =>
    Dialect.statements_of_renderable (Dialect.renderable_of_diff h operation hmem)
  exact ⟨⟨all.flatten⟩, map_eq_ok_iff.2 ⟨all, hall, rfl⟩⟩

/-- A migration that is due is written, or the run ends with the error of that. -/
theorem ends_checkHistory {σ : Type} {server : Server σ} {state : σ} {generation : Generation}
    {script : Script} (h : generation.IsDue server state settings arguments files)
    (hscript : Dialect.postgres.script generation.changes.operations = .ok script) :
    Attempt.Ends (generation.exchanges settings)
      (checkHistory settings arguments files now generation.declared
        (generation.schema settings))
      ((MigrationFile.ofScript arguments.description script now).write files
        settings.migrationsDirectory) := by
  have hcompared : Attempt.Ends
      (Catalog.answers (generation.schema settings) generation.snapshot)
      (compareLive settings arguments files now generation.declared (generation.schema settings))
      ((MigrationFile.ofScript arguments.description script now).write files
        settings.migrationsDirectory) := by
    rw [← List.append_nil (Catalog.answers _ _)]
    exact (Attempt.ends_notice _).then ((ends_readGraph _ h.course.reads).bind
      ((ends_compare h.course.compares).then
        (ends_deliverChanges h.nonempty h.allowed h.writes hscript)))
  obtain ⟨pending, hpending⟩ := exists_ends_pending generation.records generation.existing
  refine Attempt.ends_send_then ((Attempt.ends_ofExcept_of_ok h.course.parses).then
    (hpending.bind ?_))
  split
  · exact (Attempt.ends_notice _).then hcompared
  · exact hcompared

/-- A run in which a migration is due ends as its writing does. -/
theorem result_of_isDue {σ : Type} {server : Server σ} {state : σ} {generation : Generation}
    {script : Script} (h : generation.IsDue server state settings arguments files)
    (hscript : Dialect.postgres.script generation.changes.operations = .ok script) :
    ((generate settings arguments files now).run.run server state).result =
      (MigrationFile.ofScript arguments.description script now).write files
        settings.migrationsDirectory := by
  obtain ⟨url, opened, hopens, hgives⟩ := h.answered
  obtain ⟨events, hrun⟩ := ends_checkHistory h hscript server opened hgives
  rw [run_generate_of_opens h.course.loads h.course.registers hopens]
  exact congrArg Session.Run.result hrun

/-- A run that succeeds went through all steps, with the answers that the server gives. -/
theorem exists_answered_generation {σ : Type} {server : Server σ} {state : σ}
    (h : ((generate settings arguments files now).run.run server state).result = .ok after) :
    ∃ generation : Generation, generation.IsOf settings arguments files ∧
      (∃ url opened, settings.Opens server state opened url ∧
        server.Gives opened (generation.exchanges settings)) ∧
      Delivers settings arguments files now generation.changes after := by
  rcases run_generate_cases settings arguments files now server state with
    ⟨error, events, reached, hrun, -⟩ |
      ⟨declaration, declared, url, opened, hloads, hregisters, hopens⟩
  · rw [hrun] at h
    cases h
  · rw [run_generate_of_opens hloads hregisters hopens] at h
    have hfollows : Attempt.Follows server opened
        ((checkHistory settings arguments files now declared
          (settings.targetSchema (some declaration.schema))).run.run server opened) :=
      (sends_checkHistory declared _).follows server opened
    have hcourse : (checkHistory settings arguments files now declared
        (settings.targetSchema (some declaration.schema))).Yields _ (.ok after) :=
      h ▸ Session.yields_run server _ opened
    obtain ⟨generation, hgeneration, hsent, hdelivers⟩ :=
      exists_generation hloads hregisters hcourse
    exact ⟨generation, hgeneration, ⟨url, opened, hopens, hsent ▸ hfollows.gives⟩, hdelivers⟩

/-! ## What a run leaves behind -/

section Run

variable {σ : Type} {server : Server σ} {state : σ}

/-- A migration that is due is added where there is place for its file. -/
theorem adds_of_isDue {generation : Generation}
    (hdue : generation.IsDue server state settings arguments files)
    (hplace : files.HasPlaceFor settings.migrationsDirectory (arguments.fileName now)) :
    ∃ after script migration,
      ((generate settings arguments files now).run.run server state).result = .ok after ∧
      Session.filesAfter files ((generate settings arguments files now).run.run server state).events =
        after ∧
      Dialect.postgres.script generation.changes.operations = .ok script ∧
      AddsMigration settings arguments now script files after migration := by
  obtain ⟨script, hscript⟩ := exists_script hdue.course.compares
  obtain ⟨after, hwritten⟩ := (exists_write_iff script).2 hplace
  have hresult := (result_of_isDue hdue hscript).trans hwritten
  have hleft := leaves_generate settings arguments files now server state
  rw [hresult] at hleft
  exact ⟨after, script, _, hresult, hleft, hscript, addsMigration_of_write hwritten⟩

/-- A run that fails leaves at most new directories. -/
theorem widens_of_error {error : MigrationError}
    (h : ((generate settings arguments files now).run.run server state).result = .error error) :
    files.Widens (Session.filesAfter files
      ((generate settings arguments files now).run.run server state).events) := by
  have hleft := leaves_generate settings arguments files now server state
  rwa [h] at hleft

/-- Where no migration is due, or there is no place for it, there are at most new directories. -/
theorem widens_of_not_isDue
    (h : ∀ generation : Generation, generation.IsDue server state settings arguments files →
      ¬ files.HasPlaceFor settings.migrationsDirectory (arguments.fileName now)) :
    files.Widens (Session.filesAfter files
      ((generate settings arguments files now).run.run server state).events) := by
  cases hresult : ((generate settings arguments files now).run.run server state).result with
  | error error => exact widens_of_error hresult
  | ok after =>
    have hleft := leaves_generate settings arguments files now server state
    rw [hresult] at hleft
    rw [show Session.filesAfter _ _ = after from hleft]
    obtain ⟨generation, hcourse, hanswered, hdelivers⟩ := exists_answered_generation hresult
    cases hdelivers with
    | nothing => exact .refl files
    | migration passes written =>
      exact absurd ((exists_write_iff _).1 ⟨after, written⟩)
        (h generation ⟨hcourse, hanswered, passes.nonempty, passes.allowed, passes.writes⟩)

/-- Of all statements of a run only the making of the history table can write. -/
theorem eq_createHistory_of_generate {exchange : Session.Exchange}
    (h : exchange ∈ ((generate settings arguments files now).run.run server state).exchanges)
    (hwrites : exchange.statement.mayWrite = true) : exchange.statement = .createHistory := by
  rcases run_generate_cases settings arguments files now server state with
    ⟨error, events, reached, hrun, hsent⟩ |
      ⟨declaration, declared, url, opened, hloads, hregisters, hopens⟩
  · rw [hrun, Session.Run.exchanges, hsent] at h
    cases h
  · rw [run_generate_of_opens hloads hregisters hopens] at h
    have hstart := (sends_checkHistory declared _).upTo (Session.yields_run server
      (checkHistory settings arguments files now declared
        (settings.targetSchema (some declaration.schema))).run opened)
    exact eq_createHistory_of_mayWrite (hstart.subset (List.mem_map_of_mem h)) hwrites

end Run

/-- What a run leaves behind in the files and in the database. -/
structure LeavesBehind {σ : Type} (server : Server σ) (state : σ) (settings : Settings)
    (arguments : GenerateArguments) (files : FileTree) (now : Time.Instant)
    (run : Session.Run σ (Except MigrationError FileTree)) : Prop where
  /-- Nothing but the making of the history table can write to the database. -/
  sent : ∀ exchange ∈ run.exchanges, exchange.statement.mayWrite = true →
    exchange.statement = .createHistory
  /-- Every file is as it was. -/
  kept : ∀ path text, files.read path = .ok text → (report files run).files.read path = .ok text
  /-- A migration that is due is added, if there is place for its file. -/
  added : ∀ generation : Generation, generation.IsDue server state settings arguments files →
    files.HasPlaceFor settings.migrationsDirectory (arguments.fileName now) →
    run.result = .ok (report files run).files ∧
      ∃ script migration, Dialect.postgres.script generation.changes.operations = .ok script ∧
        AddsMigration settings arguments now script files (report files run).files migration
  /-- In every other case there are at most new directories. -/
  otherwise : (∀ generation : Generation, generation.IsDue server state settings arguments files →
    ¬ files.HasPlaceFor settings.migrationsDirectory (arguments.fileName now)) →
    files.Widens (report files run).files

/-- **Generating adds one file when everything succeeded, and none in every other case.**  Whatever
the settings, the arguments, the files and the server are, every file stays as it was.  If a
migration is due and there is place for its file, the run succeeds and exactly this file is added: a
migration that verifies and holds the script of the changes.  Otherwise no file is added, whether
the run fails or not.  Only the making of the history table can write to the database. -/
theorem generate_adds_at_most_one {σ : Type} (server : Server σ) (state : σ) (settings : Settings)
    (arguments : GenerateArguments) (files : FileTree) (now : Time.Instant) :
    LeavesBehind server state settings arguments files now
      ((Request.generate arguments).run settings files now server state) := by
  refine ⟨fun exchange => eq_createHistory_of_generate, fun path text hread => ?_,
    fun generation hdue hplace => ?_, fun hnone => ?_⟩
  · rw [report_files]
    by_cases hany : ∃ generation : Generation,
        generation.IsDue server state settings arguments files ∧
          files.HasPlaceFor settings.migrationsDirectory (arguments.fileName now)
    · obtain ⟨generation, hdue, hplace⟩ := hany
      obtain ⟨after, script, migration, -, rfl, -, hadds⟩ := adds_of_isDue hdue hplace
      exact hadds.adds.kept path text hread
    · exact (widens_of_not_isDue fun generation hdue hplace =>
        hany ⟨generation, hdue, hplace⟩).read hread
  · rw [report_files]
    obtain ⟨after, script, migration, hresult, rfl, hscript, hadds⟩ := adds_of_isDue hdue hplace
    exact ⟨hresult, script, migration, hscript, hadds⟩
  · rw [report_files]
    exact widens_of_not_isDue hnone

/-! ## An extension that is missing -/

/-- A declaration of one extension, and a directory without migrations. -/
def citextFiles : FileTree where
  files := [(["schema.json"], Declaration.text { name := "app", extensions := ["citext"] })]
  directories := [["migrations"]]

/-- An empty database. -/
def emptyDatabase : Memory where
  address := some "db"
  now := Executor.newYear 2026

/-- A run that makes a migration for the extension. -/
def citextRun (description : String) (now : Time.Instant) :
    Session.Run Memory (Except MigrationError FileTree) :=
  (Request.generate { description := description }).run { databaseUrl := some "db" } citextFiles
    now Memory.server emptyDatabase

/-- The extension is declared, and it is not installed. -/
def citextGeneration : Generation where
  declaration := { name := "app", extensions := ["citext"] }
  declared := ⟨[⟨.extension ⟨"citext"⟩, []⟩], List.pairwise_singleton _ _⟩
  existing := []
  records := []
  snapshot := {}
  live := .empty
  changes := ⟨[.create (.extension ⟨"citext"⟩)], []⟩

/-- A migration is due, however it is described. -/
theorem isDue_citext (description : String) :
    citextGeneration.IsDue Memory.server emptyDatabase { databaseUrl := some "db" }
      { description := description } citextFiles where
  course :=
    { loads := by decide +kernel
      registers := by decide +kernel
      parses := by decide +kernel
      reads := by decide +kernel
      compares := by
        change diff {} citextGeneration.declared citextGeneration.live = .ok _
        simp only [diff, Change.plan, Change.orderSteps, Change.Step.mergeSort_before]
        decide +kernel }
  answered := by
    have hrecords : (Memory.server.answer (Memory.server.answer emptyDatabase .createHistory).2
        .listRecords).1 = .ok [] := by
      change Except.ok ((List.mergeSort [] AppliedMigration.before).map
        AppliedMigration.readBack) = _
      rw [List.mergeSort_nil]
      rfl
    exact ⟨"db", emptyDatabase, ⟨rfl, rfl⟩, rfl, hrecords, rfl, rfl, rfl, rfl, rfl, rfl, rfl, rfl,
      trivial⟩
  nonempty := rfl
  allowed h := absurd h (by decide)
  writes := rfl

/-- With a short description the migration is added. -/
theorem generate_adds_citext : ∃ migration,
    (citextRun "Add citext" emptyDatabase.now).result =
      .ok (report citextFiles (citextRun "Add citext" emptyDatabase.now)).files ∧
    AddsMigration { databaseUrl := some "db" } { description := "Add citext" } emptyDatabase.now
      ⟨["CREATE EXTENSION IF NOT EXISTS \"citext\""]⟩ citextFiles
      (report citextFiles (citextRun "Add citext" emptyDatabase.now)).files migration := by
  have hplace : citextFiles.HasPlaceFor "migrations"
      (GenerateArguments.fileName { description := "Add citext" } emptyDatabase.now) :=
    ⟨⟨citextFiles, rfl, by decide +kernel⟩, by decide +kernel, by decide +kernel⟩
  obtain ⟨hresult, script, migration, hscript, hadds⟩ :=
    (generate_adds_at_most_one Memory.server emptyDatabase { databaseUrl := some "db" }
      { description := "Add citext" } citextFiles emptyDatabase.now).added citextGeneration
      (isDue_citext _) hplace
  have hscript : Dialect.postgres.script citextGeneration.changes.operations = .ok script := hscript
  obtain rfl : script = ⟨["CREATE EXTENSION IF NOT EXISTS \"citext\""]⟩ := by
    rw [← Except.ok.injEq, ← hscript]
    decide +kernel
  exact ⟨migration, hresult, hadds⟩

/-- The run ends as the writing of its migration does. -/
theorem result_citextRun {script : Script} (description : String) (now : Time.Instant)
    (h : Dialect.postgres.script citextGeneration.changes.operations = .ok script) :
    (citextRun description now).result =
      (Draft.mk description script now).file.write citextFiles "migrations" :=
  result_of_isDue (isDue_citext description) h

theorem widens_of_citextRun {description : String} {now : Time.Instant} {error : MigrationError}
    (h : (citextRun description now).result = .error error) :
    citextFiles.Widens (report citextFiles (citextRun description now)).files := by
  rw [report_files]
  exact widens_of_error h

/-- With a description of too many letters there is no file of that name, but the run fails. -/
theorem citextRun_of_letters {n : Nat} (h : longestName < n) (now : Time.Instant) :
    citextFiles.has (join "migrations" (GenerateArguments.fileName
        { description := String.ofList (List.replicate n 'a') } now)) = false ∧
      (citextRun (String.ofList (List.replicate n 'a')) now).result =
        .error (.file .nameTooLong) ∧
      citextFiles.Widens
        (report citextFiles (citextRun (String.ofList (List.replicate n 'a')) now)).files := by
  obtain ⟨script, hscript⟩ := exists_script (isDue_citext "").course.compares
  have hdirectory : citextFiles.hasDirectory "migrations" = true := by decide
  have hlong := Draft.not_fitsInto_of_letters h script now "migrations"
  have hresult := (result_citextRun _ now hscript).trans (Draft.write_eq_error hdirectory hlong)
  exact ⟨(Draft.refused_of_not_fitsInto hdirectory hlong).1, hresult, widens_of_citextRun hresult⟩

/-- In the year 10000 the migration is added, but its time can not be read back. -/
theorem citextRun_of_late_year : ∃ script migration,
    AddsMigration { databaseUrl := some "db" } { description := "Add citext" }
      (Executor.newYear 10000) script citextFiles
      (report citextFiles (citextRun "Add citext" (Executor.newYear 10000))).files migration ∧
    MigrationFile.read migration.render ≠ .ok migration := by
  have hplace : citextFiles.HasPlaceFor "migrations"
      (GenerateArguments.fileName { description := "Add citext" } (Executor.newYear 10000)) :=
    ⟨⟨citextFiles, rfl, by decide +kernel⟩, by decide +kernel, by decide +kernel⟩
  obtain ⟨after, script, migration, -, rfl, -, hadds⟩ := adds_of_isDue (isDue_citext _) hplace
  rw [report_files]
  exact ⟨script, migration, hadds, fun hread => absurd (hadds.parses.1 hread) (by decide)⟩

/-- **A migration that is due need not be added, and one that is added need not be read back.**
With a description of 300 letters there is no file of its name, but the name is too long for the
file system.  In the year 10000 a file is added, but the year in its header has a sign. -/
theorem due_not_added_or_not_read :
    (citextGeneration.IsDue Memory.server emptyDatabase { databaseUrl := some "db" }
        { description := String.ofList (List.replicate 300 'a') } citextFiles ∧
      citextFiles.hasDirectory "migrations" = true ∧
      citextFiles.has (join "migrations" (GenerateArguments.fileName
        { description := String.ofList (List.replicate 300 'a') } emptyDatabase.now)) = false ∧
      (citextRun (String.ofList (List.replicate 300 'a')) emptyDatabase.now).result =
        .error (.file .nameTooLong) ∧
      citextFiles.Widens (report citextFiles
        (citextRun (String.ofList (List.replicate 300 'a')) emptyDatabase.now)).files) ∧
    ∃ script migration,
      AddsMigration { databaseUrl := some "db" } { description := "Add citext" }
        (Executor.newYear 10000) script citextFiles
        (report citextFiles (citextRun "Add citext" (Executor.newYear 10000))).files migration ∧
      MigrationFile.read migration.render ≠ .ok migration :=
  ⟨⟨isDue_citext _, by decide, citextRun_of_letters (by decide) _⟩, citextRun_of_late_year⟩

end SchemaPlan.Command
