import SchemaPlan.Session.Basic

/-!
# How a run goes on

A run of a chain is the run of its first part and, from the state that this left, the run of what
follows.

* `Session.run_bind`: the run of a chain,
* `Attempt.run_bind_of_ok` and `Attempt.run_bind_of_error`: a chain of attempts goes on with a value
  and ends with an error,
* `Attempt.run_send`: a statement is sent once, and answered by the server.
-/

set_option autoImplicit false

namespace SchemaPlan

open Database

variable {σ α β : Type} {server : Server σ} {state after : σ}

/-- Puts events before those of a run. -/
def Session.Run.behind (events : List Session.Event) (run : Session.Run σ α) : Session.Run σ α :=
  { run with events := events ++ run.events }

/-- The run of a chain. -/
theorem Session.run_bind (session : Session α) (next : α → Session β) :
    (session.bind next).run server state =
      ((next (session.run server state).result).run server
        (session.run server state).state).behind (session.run server state).events := by
  induction session generalizing state with
  | done value => rfl
  | tell output rest ih => exact congrArg (Session.Run.after _) ih
  | connect url connections branch ih => exact congrArg (Session.Run.after _) (ih _)
  | send statement branch ih => exact congrArg (Session.Run.after _) (ih _)

namespace Attempt

variable {attempt : Attempt α} {next : α → Attempt β} {events : List Session.Event}

/-- A chain goes on with the value of its first part. -/
theorem run_bind_of_ok {value : α} (h : attempt.run.run server state = ⟨.ok value, events, after⟩) :
    (attempt >>= next).run.run server state =
      ((next value).run.run server after).behind events := by
  refine (Session.run_bind attempt.run _).trans ?_
  rw [h]
  rfl

/-- A chain ends with the error of its first part. -/
theorem run_bind_of_error {error : MigrationError}
    (h : attempt.run.run server state = ⟨.error error, events, after⟩) :
    (attempt >>= next).run.run server state = ⟨.error error, events, after⟩ := by
  refine (Session.run_bind attempt.run _).trans ?_
  rw [h]
  exact congrArg (Session.Run.mk _ · _) (List.append_nil events)

/-- A value is there at once. -/
theorem run_ofExcept_of_ok {outcome : Except MigrationError α} {value : α}
    (h : outcome = .ok value) :
    (ofExcept outcome).run.run server state = ⟨.ok value, [], state⟩ := by
  rw [h]
  rfl

theorem run_ofSchema_of_ok {outcome : Except SchemaError α} {value : α}
    (h : outcome = .ok value) :
    (ofSchema outcome).run.run server state = ⟨.ok value, [], state⟩ := by
  rw [h]
  rfl

/-- What happened in the first part of a chain happened in the chain. -/
theorem prefix_events_bind (attempt : Attempt α) (next : α → Attempt β) :
    (attempt.run.run server state).events <+:
      ((attempt >>= next).run.run server state).events := by
  rw [show (attempt >>= next).run = attempt.run.bind _ from rfl, Session.run_bind]
  exact List.prefix_append _ _

/-- A notice is shown, and changes nothing. -/
theorem run_notice (shown : Notice) :
    (notice shown).run.run server state = ⟨.ok (), [.shown (.notice shown)], state⟩ :=
  rfl

/-- A statement is sent once, and answered by the server. -/
theorem run_send (statement : Statement) :
    (send statement).run.run server state =
      ⟨(server.answer state statement).1.mapError .database,
        [.sent statement (server.answer state statement).1],
        (server.answer state statement).2⟩ :=
  rfl

/-- A statement that is answered. -/
theorem run_send_of_ok {statement : Statement} {reply : statement.Reply}
    (h : server.answer state statement = (.ok reply, after)) :
    (send statement).run.run server state =
      ⟨.ok reply, [.sent statement (.ok reply)], after⟩ := by
  rw [run_send, h]
  rfl

/-- A statement stands among the events, whatever the answer is. -/
theorem exists_sent_mem_events (server : Server σ) (state : σ) (statement : Statement)
    (next : statement.Reply → Attempt β) :
    ∃ answer, .sent statement answer ∈ ((send statement >>= next).run.run server state).events :=
  ⟨(server.answer state statement).1, List.mem_cons_self⟩

/-- Notices are shown one after the other, and change nothing. -/
theorem run_notices (xs : List α) (noticeOf : α → Notice) :
    (xs.forM fun x => notice (noticeOf x)).run.run server state =
      ⟨.ok (), xs.map fun x => .shown (.notice (noticeOf x)), state⟩ := by
  induction xs with
  | nil => rfl
  | cons x xs ih =>
    rw [List.forM, run_bind_of_ok (run_notice (noticeOf x)), ih]
    rfl

end Attempt

end SchemaPlan
