import SchemaPlan.Proofs.Session.Exchange
import SchemaPlan.Proofs.Session.Run

/-!
# Straight attempts

Most commands send the same statements in the same order on every successful run, and stop at the
first failure.  What such an attempt sends can be read off its parts, and what a successful run
has seen can be read off step by step.

* `Attempt.Sends`: an attempt sends a list of statements, up to the first failure, and does nothing
  else to the server,
* `Attempt.Sends.bind`: a chain sends what its parts send,
* `Attempt.yields_ok_bind_iff` and its cases: how a successful chain went.
-/

set_option autoImplicit false

namespace SchemaPlan.Attempt

open Database Outcome
open Session (Exchange)

variable {α β : Type} {statements statements' : List Statement} {attempt : Attempt α}
  {next : α → Attempt β} {sent : List Exchange}

/-! ## What is sent -/

/-- Whether a run made its exchanges with a server, each in the state that the one before left. -/
structure Follows {σ : Type} (server : Server σ) (state : σ) (run : Session.Run σ α) : Prop where
  gives : server.Gives state run.exchanges
  state : run.state = server.after state run.exchanges

/-- A run that goes on where another one ended. -/
theorem Follows.behind {σ : Type} {server : Server σ} {state reached : σ} {value : α}
    {events : List Session.Event} {run : Session.Run σ β}
    (h : Follows server state ⟨value, events, reached⟩) (hrun : Follows server reached run) :
    Follows server state (run.behind events) := by
  obtain ⟨hgives, hreached⟩ := h
  obtain rfl : reached = server.after state (events.filterMap Session.Event.exchange?) := hreached
  constructor
  · rw [Session.Run.exchanges, Session.Run.behind, List.filterMap_append, Server.gives_append_iff]
    exact ⟨hgives, hrun.gives⟩
  · rw [Session.Run.exchanges, Session.Run.behind, List.filterMap_append, Server.after_append]
    exact hrun.state

/-- Whether an attempt sends the statements of a list in order, all of them if it succeeds. -/
structure Sends (statements : List Statement) (attempt : Attempt α) : Prop where
  upTo : ∀ {sent result}, attempt.Yields sent result → sent.map Exchange.statement <+: statements
  all : ∀ {sent value}, attempt.Yields sent (.ok value) →
    sent.map Exchange.statement = statements
  follows : ∀ {σ : Type} (server : Server σ) (state : σ),
    Follows server state (attempt.run.run server state)

theorem sends_nil (h : ∀ sent result, attempt.Yields sent result → sent = [])
    (hstate : ∀ {σ : Type} (server : Server σ) (state : σ),
      (attempt.run.run server state).state = state) : Sends [] attempt := by
  constructor
  · intro sent result hyields
    rw [h sent result hyields]
    exact List.nil_prefix
  · intro sent value hyields
    rw [h sent _ hyields]
    rfl
  · intro σ server state
    have hnone := h _ _ (Session.yields_run server attempt.run state)
    constructor
    · rw [hnone]
      trivial
    · rw [hnone]
      exact hstate server state

theorem sends_ofExcept (value : Except MigrationError α) : Sends [] (ofExcept value) :=
  sends_nil (fun _ _ h => (Session.yields_done_iff.1 h).1) fun _ _ => rfl

theorem sends_pure (value : α) : Sends [] (pure value : Attempt α) :=
  sends_ofExcept (.ok value)

/-- An attempt that fails at once may be said to send anything. -/
theorem sends_throw (error : MigrationError) (statements : List Statement) :
    Sends statements (throw error : Attempt α) := by
  constructor
  · intro sent result h
    rw [(yields_throw_iff.1 h).1]
    exact List.nil_prefix
  · intro sent value h
    cases (yields_throw_iff.1 h).2
  · exact (sends_ofExcept (.error error)).follows

theorem sends_notice (notice : Notice) : Sends [] (Attempt.notice notice) :=
  sends_nil (fun _ _ h => (Session.yields_done_iff.1 (Session.yields_tell_iff.1 h)).1)
    fun _ _ => rfl

theorem sends_print (text : String) : Sends [] (print text) :=
  sends_nil (fun _ _ h => (Session.yields_done_iff.1 (Session.yields_tell_iff.1 h)).1)
    fun _ _ => rfl

theorem sends_store (ending : Storage.Ending MigrationError) : Sends [] (store ending) :=
  sends_nil (fun _ _ h => (Session.yields_done_iff.1 (Session.yields_tell_iff.1 h)).1)
    fun _ _ => rfl

theorem sends_send (statement : Statement) : Sends [statement] (send statement) := by
  constructor
  · intro sent result h
    obtain ⟨answer, rfl, -⟩ := yields_send_iff.1 h
    exact List.prefix_rfl
  · intro sent reply h
    obtain ⟨answer, rfl, -⟩ := yields_send_iff.1 h
    rfl
  · exact fun server state => ⟨⟨rfl, trivial⟩, rfl⟩

/-- A chain sends what its parts send. -/
theorem Sends.bind (h : Sends statements attempt)
    (hnext : ∀ value, Sends statements' (next value)) :
    Sends (statements ++ statements') (attempt >>= next) := by
  constructor
  · intro sent result hyields
    rcases yields_bind_iff.1 hyields with
      ⟨error, hfirst, -⟩ | ⟨first, value, second, hfirst, hsecond, rfl⟩
    · exact (h.upTo hfirst).trans (List.prefix_append _ _)
    · rw [List.map_append, h.all hfirst]
      exact (List.prefix_append_right_inj _).2 ((hnext value).upTo hsecond)
  · intro sent value hyields
    rcases yields_bind_iff.1 hyields with
      ⟨error, -, hresult⟩ | ⟨first, a, second, hfirst, hsecond, rfl⟩
    · cases hresult
    · rw [List.map_append, h.all hfirst, (hnext a).all hsecond]
  · intro σ server state
    have hfollows := h.follows server state
    cases hrun : attempt.run.run server state with
    | mk result events reached =>
      rw [hrun] at hfollows
      cases result with
      | error error =>
        rw [run_bind_of_error hrun]
        exact ⟨hfollows.gives, hfollows.state⟩
      | ok value =>
        rw [run_bind_of_ok hrun]
        exact hfollows.behind ((hnext value).follows server reached)

/-- A chain that begins with a step without statements. -/
theorem Sends.then (h : Sends [] attempt) (hnext : ∀ value, Sends statements (next value)) :
    Sends statements (attempt >>= next) :=
  h.bind hnext

theorem Sends.ite {condition : Prop} [Decidable condition] {other : Attempt α}
    (h : Sends statements attempt) (hother : Sends statements other) :
    Sends statements (if condition then attempt else other) := by
  split
  · exact h
  · exact hother

theorem sends_forM (xs : List β) {f : β → Attempt Unit} (h : ∀ x, Sends [] (f x)) :
    Sends [] (xs.forM f) := by
  induction xs with
  | nil => exact sends_pure ()
  | cons x xs ih => exact (h x).then fun _ => ih

/-! ## Successful chains -/

theorem yields_ok_bind_iff {b : β} : (attempt >>= next).Yields sent (.ok b) ↔
    ∃ first value second, attempt.Yields first (.ok value) ∧ (next value).Yields second (.ok b) ∧
      sent = first ++ second := by
  simp [yields_bind_iff]

/-- A step without exchanges succeeded. -/
theorem yields_ok_ofExcept_then_iff {value : Except MigrationError α} {b : β} :
    (ofExcept value >>= next).Yields sent (.ok b) ↔
      ∃ a, value = .ok a ∧ (next a).Yields sent (.ok b) := by
  simp [yields_ofExcept_then_iff]

/-- An operation on the files succeeded. -/
theorem yields_ok_store_then_iff {ending : Storage.Ending MigrationError}
    {next : Storage.FileTree → Attempt β} {b : β} :
    (store ending >>= next).Yields sent (.ok b) ↔
      ∃ tree, ending.result = .ok tree ∧ (next tree).Yields sent (.ok b) := by
  simp [yields_store_then_iff]

/-- A statement was answered. -/
theorem yields_ok_send_then_iff {statement : Statement} {next : statement.Reply → Attempt β}
    {b : β} : (send statement >>= next).Yields sent (.ok b) ↔
      ∃ reply rest, sent = ⟨statement, .ok reply⟩ :: rest ∧ (next reply).Yields rest (.ok b) := by
  simp [yields_send_then_iff]

/-- A step that sends nothing succeeded. -/
theorem exists_of_yields_ok_then {b : β} (h : Sends [] attempt)
    (hyields : (attempt >>= next).Yields sent (.ok b)) :
    ∃ value, attempt.Yields [] (.ok value) ∧ (next value).Yields sent (.ok b) := by
  obtain ⟨first, value, second, hfirst, hsecond, rfl⟩ := yields_ok_bind_iff.1 hyields
  obtain rfl : first = [] := List.map_eq_nil_iff.1 (h.all hfirst)
  exact ⟨value, hfirst, hsecond⟩

end SchemaPlan.Attempt
