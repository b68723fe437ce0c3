import SchemaPlan.Proofs.Session.Exchange
import SchemaPlan.Proofs.Session.Run

/-!
# Attempts that are answered

When it is known what a server answers, it is known how an attempt goes on.

* `Attempt.Ends`: how an attempt ends wherever a server gives the answers of some exchanges,
* `Attempt.Ends.bind`: a chain ends as its parts do, one after the other.
-/

set_option autoImplicit false

namespace SchemaPlan.Attempt

open Database
open Session (Exchange)

variable {α β : Type} {attempt : Attempt α} {next : α → Attempt β} {sent : List Exchange}
  {result : Except MigrationError β}

/-- Whether an attempt ends with a result, after just these exchanges, wherever a server gives the
answers. -/
def Ends (sent : List Exchange) (attempt : Attempt α) (result : Except MigrationError α) : Prop :=
  ∀ ⦃σ : Type⦄ (server : Server σ) (state : σ), server.Gives state sent →
    ∃ events, attempt.run.run server state = ⟨result, events, server.after state sent⟩

theorem ends_ofExcept_of_ok {outcome : Except MigrationError α} {value : α}
    (h : outcome = .ok value) : Ends [] (ofExcept outcome) (.ok value) :=
  fun _ _ _ _ => ⟨[], run_ofExcept_of_ok h⟩

theorem ends_ofSchema_of_ok {outcome : Except SchemaError α} {value : α} (h : outcome = .ok value) :
    Ends [] (ofSchema outcome) (.ok value) :=
  fun _ _ _ _ => ⟨[], run_ofSchema_of_ok h⟩

theorem ends_pure (value : α) : Ends [] (pure value) (.ok value) :=
  fun _ _ _ _ => ⟨[], rfl⟩

theorem ends_notice (shown : Notice) : Ends [] (notice shown) (.ok ()) :=
  fun _ _ _ _ => ⟨[.shown (.notice shown)], rfl⟩

theorem ends_store (ending : Storage.Ending MigrationError) :
    Ends [] (store ending) ending.result :=
  fun _ _ _ _ => ⟨[.shown (.files ending.tree)], rfl⟩

/-- A statement is answered. -/
theorem ends_send {statement : Statement} (reply : statement.Reply) :
    Ends [⟨statement, .ok reply⟩] (send statement) (.ok reply) :=
  fun _ _ _ hgives => ⟨_, run_send_of_ok (Prod.ext hgives.1 rfl)⟩

/-- A chain ends as its parts do. -/
theorem Ends.bind {first second : List Exchange} {value : α} (h : Ends first attempt (.ok value))
    (hnext : Ends second (next value) result) : Ends (first ++ second) (attempt >>= next) result := by
  intro σ server state hgives
  rw [Server.gives_append_iff] at hgives
  obtain ⟨events, hrun⟩ := h server state hgives.1
  obtain ⟨later, hlater⟩ := hnext server _ hgives.2
  refine ⟨events ++ later, ?_⟩
  rw [run_bind_of_ok hrun, hlater, Session.Run.behind, Server.after_append]

/-- A chain that begins with a step without exchanges. -/
theorem Ends.then {value : α} (h : Ends [] attempt (.ok value))
    (hnext : Ends sent (next value) result) : Ends sent (attempt >>= next) result :=
  h.bind hnext

/-- A chain that begins with a statement goes on with its answer. -/
theorem ends_send_then {statement : Statement} {reply : statement.Reply}
    {next : statement.Reply → Attempt β} (h : Ends sent (next reply) result) :
    Ends (⟨statement, .ok reply⟩ :: sent) (send statement >>= next) result :=
  (ends_send reply).bind h

/-- A chain ends with its first error. -/
theorem Ends.error {error : MigrationError} (h : Ends sent attempt (.error error)) :
    Ends sent (attempt >>= next) (.error error) := by
  intro σ server state hgives
  obtain ⟨events, hrun⟩ := h server state hgives
  exact ⟨events, run_bind_of_error hrun⟩

theorem ends_notices (xs : List α) (noticeOf : α → Notice) :
    Ends [] (xs.forM fun x => notice (noticeOf x)) (.ok ()) :=
  fun _ _ _ _ => ⟨_, run_notices xs noticeOf⟩

end SchemaPlan.Attempt
