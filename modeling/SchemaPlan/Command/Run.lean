import SchemaPlan.Command.Apply

/-!
# Running a command

A request becomes a session over the files of a directory.  What the session showed and stored and
how it ended is the report: text for the two output streams, the exit code and the files afterwards.
-/

set_option autoImplicit false

namespace SchemaPlan.Command

open Storage

/-- The session of a request; it ends with the files as they are then. -/
def Request.session (request : Request) (settings : Settings) (files : FileTree)
    (now : Time.Instant) : Attempt FileTree :=
  match request with
  | .generate arguments => Command.generate settings arguments files now
  | .apply dryRun => Command.apply settings dryRun files
  | .validate => Command.validate settings files
  | .status => Command.status settings files
  | .introspect output => Command.introspect settings output files

/-- How a command ended. -/
structure Report where
  exitCode : Nat
  standardOutput : String
  /-- The lines of the log, an error at the end. -/
  log : List String
  files : FileTree

/-- The text that a session printed. -/
def printed (events : List Session.Event) : String :=
  String.join (events.filterMap fun
    | .shown (.text text) => some text
    | _ => none)

/-- The notices that a session showed. -/
def noticed (events : List Session.Event) : List Notice :=
  events.filterMap fun
    | .shown (.notice notice) => some notice
    | _ => none

/-- An error as it stands at the end of the log. -/
def errorLine (error : MigrationError) : String :=
  "error[" ++ error.kind ++ "]: " ++ error.message

/-- The report about a run that started with some files. -/
def report {σ : Type} (files : FileTree)
    (run : Session.Run σ (Except MigrationError FileTree)) : Report :=
  let log := (noticed run.events).map Notice.line
  let after := Session.filesAfter files run.events
  match run.result with
  | .ok _ => ⟨0, printed run.events, log, after⟩
  | .error error => ⟨1, printed run.events, log ++ [errorLine error], after⟩

/-- Runs a request against a server. -/
def Request.run {σ : Type} (request : Request) (settings : Settings) (files : FileTree)
    (now : Time.Instant) (server : Server σ) (state : σ) :
    Session.Run σ (Except MigrationError FileTree) :=
  Session.run server state (request.session settings files now).run

end SchemaPlan.Command
