import SchemaPlan.Database.Statement
import SchemaPlan.Migration.Error
import SchemaPlan.Session.Notice
import SchemaPlan.Storage.FileTree

/-!
# Sessions

A session is a computation that talks to a database: it shows notices and text, stores files, opens
a connection and sends statements, and goes on according to the answers.  It is a tree, so what may
be sent after which answers can be read off it.

* `Server` is something that answers,
* `Session.run` lets a server answer and keeps what happened, in order,
* `Session.filesAfter` is what the files are then,
* `Attempt` is a session that may end with an error.
-/

set_option autoImplicit false

namespace SchemaPlan

open Database

/-- What a command puts out. -/
inductive Session.Output where
  | notice (notice : Notice)
  | text (text : String)
  /-- The files are now as in a tree. -/
  | files (tree : Storage.FileTree)

/-- A computation that talks to a database. -/
inductive Session (α : Type) where
  | done (result : α)
  | tell (output : Session.Output) (rest : Session α)
  /-- Opens a connection to the database at an address, at most so many at a time. -/
  | connect (url : String) (connections : Nat) (next : Except DatabaseError Unit → Session α)
  | send (statement : Statement) (next : Except DatabaseError statement.Reply → Session α)

namespace Session

variable {α β γ : Type}

/-- Goes on with the result of a session. -/
def bind (session : Session α) (next : α → Session β) : Session β :=
  match session with
  | done result => next result
  | tell output rest => tell output (rest.bind next)
  | connect url connections branch => connect url connections fun answer => (branch answer).bind next
  | send statement branch => send statement fun answer => (branch answer).bind next

instance : Monad Session where
  pure := done
  bind := bind

theorem bind_done (session : Session α) : session.bind done = session := by
  induction session with
  | done result => rfl
  | tell output rest ih => rw [bind, ih]
  | connect url connections branch ih => rw [bind]; exact congrArg _ (funext ih)
  | send statement branch ih => rw [bind]; exact congrArg _ (funext ih)

theorem bind_assoc (session : Session α) (f : α → Session β) (g : β → Session γ) :
    (session.bind f).bind g = session.bind fun a => (f a).bind g := by
  induction session with
  | done result => rfl
  | tell output rest ih => simp only [bind, ih]
  | connect url connections branch ih => simp only [bind, ih]
  | send statement branch ih => simp only [bind, ih]

end Session

/-! ## Running a session -/

/-- Something that answers, from a state. -/
structure Server (σ : Type) where
  connect : σ → String → Nat → Except DatabaseError Unit × σ
  answer : σ → (statement : Statement) → Except DatabaseError statement.Reply × σ

/-- Something that happened in a session. -/
inductive Session.Event where
  | shown (output : Session.Output)
  | connected (url : String) (answer : Except DatabaseError Unit)
  | sent (statement : Statement) (answer : Except DatabaseError statement.Reply)

/-- The end of a session: its result, what happened, and the state of the server. -/
structure Session.Run (σ α : Type) where
  result : α
  events : List Session.Event
  state : σ

/-- Puts an event before those of a run. -/
def Session.Run.after {σ α : Type} (event : Session.Event) (run : Session.Run σ α) : Session.Run σ α :=
  { run with events := event :: run.events }

/-- Lets a server answer. -/
def Session.run {σ α : Type} (server : Server σ) (state : σ) : Session α → Session.Run σ α
  | .done result => ⟨result, [], state⟩
  | .tell output rest => (rest.run server state).after (.shown output)
  | .connect url connections next =>
    let (answer, state) := server.connect state url connections
    ((next answer).run server state).after (.connected url answer)
  | .send statement next =>
    let (answer, state) := server.answer state statement
    ((next answer).run server state).after (.sent statement answer)

/-- The files after an event. -/
def Session.Event.filesAfter (files : Storage.FileTree) : Session.Event → Storage.FileTree
  | .shown (.files tree) => tree
  | .shown (.notice _) | .shown (.text _) | .connected _ _ | .sent _ _ => files

/-- The files after what happened in a session that found some. -/
def Session.filesAfter (files : Storage.FileTree) (events : List Session.Event) :
    Storage.FileTree :=
  events.foldl Session.Event.filesAfter files

/-! ## Attempts -/

/-- A session that may end with an error. -/
abbrev Attempt := ExceptT MigrationError Session

namespace Attempt

/-- Shows a notice. -/
def notice (notice : Notice) : Attempt Unit :=
  ExceptT.mk (.tell (.notice notice) (.done (.ok ())))

/-- Prints text. -/
def print (text : String) : Attempt Unit :=
  ExceptT.mk (.tell (.text text) (.done (.ok ())))

/-- Stores the tree that an operation left, also when the operation failed. -/
def store (ending : Storage.Ending MigrationError) : Attempt Storage.FileTree :=
  ExceptT.mk (.tell (.files ending.tree) (.done ending.result))

/-- Opens a connection. -/
def connect (url : String) (connections : Nat) : Attempt Unit :=
  ExceptT.mk (.connect url connections fun answer => .done (answer.mapError .database))

/-- Sends a statement. -/
def send (statement : Statement) : Attempt statement.Reply :=
  ExceptT.mk (.send statement fun answer => .done (answer.mapError .database))

/-- Goes on with a value that may be missing because of an error. -/
def ofExcept {α : Type} (value : Except MigrationError α) : Attempt α :=
  ExceptT.mk (.done value)

/-- Goes on with a value that may be missing because of an error of the schema. -/
def ofSchema {α : Type} (value : Except SchemaError α) : Attempt α :=
  ofExcept (value.mapError .schema)

end Attempt

end SchemaPlan
