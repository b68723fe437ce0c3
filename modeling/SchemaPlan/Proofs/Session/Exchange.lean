import SchemaPlan.Proofs.Outcome
import SchemaPlan.Session.Basic

/-!
# What a session exchanges with a database

A server is a function of its state, but nothing that is true of every sequence of answers depends
on that state.  `Session.Yields` forgets it: a session yields a list of exchanges if these are the
statements it sends when they are answered so.

* `Session.yields_run`: what a run exchanged is what the session yields, whatever the server is,
* `Server.Gives`: a server gives the answers of some exchanges,
* `Session.yields_bind_iff` and `Attempt.yields_bind_iff`: a chain yields what its parts yield, one
  after the other, and a failed part ends it.
-/

set_option autoImplicit false

namespace SchemaPlan

open Database Outcome

/-- A statement and the answer to it. -/
structure Session.Exchange where
  statement : Statement
  answer : Except DatabaseError statement.Reply

/-- The exchange with the database that an event is, if it is one. -/
def Session.Event.exchange? : Session.Event → Option Session.Exchange
  | .sent statement answer => some ⟨statement, answer⟩
  | .shown _ | .connected _ _ => none

/-- What was sent in a run and how it was answered, in order. -/
def Session.Run.exchanges {σ α : Type} (run : Session.Run σ α) : List Session.Exchange :=
  run.events.filterMap Session.Event.exchange?

/-! ## Servers -/

namespace Server

variable {σ : Type}

/-- Whether a server gives the answers of some exchanges when they are made one after the other. -/
def Gives (server : Server σ) (state : σ) : List Session.Exchange → Prop
  | [] => True
  | exchange :: rest =>
    (server.answer state exchange.statement).1 = exchange.answer ∧
      server.Gives (server.answer state exchange.statement).2 rest

/-- The state of a server after some exchanges. -/
def after (server : Server σ) (state : σ) : List Session.Exchange → σ
  | [] => state
  | exchange :: rest => server.after (server.answer state exchange.statement).2 rest

theorem after_append (server : Server σ) (state : σ) (first second : List Session.Exchange) :
    server.after state (first ++ second) = server.after (server.after state first) second := by
  induction first generalizing state with
  | nil => rfl
  | cons exchange rest ih => exact ih _

theorem gives_append_iff {server : Server σ} {state : σ} {first second : List Session.Exchange} :
    server.Gives state (first ++ second) ↔
      server.Gives state first ∧ server.Gives (server.after state first) second := by
  induction first generalizing state with
  | nil => exact (iff_of_eq (true_and _)).symm
  | cons exchange rest ih => exact (and_congr_right fun _ => ih).trans and_assoc.symm

end Server

/-! ## Courses of a session -/

namespace Session

variable {σ α β : Type}

instance : LawfulMonad Session :=
  LawfulMonad.mk' Session bind_done (fun _ _ => rfl) bind_assoc

/-- Whether a session exchanges just that, and ends with that result, under some answers. -/
inductive Yields : Session α → List Exchange → α → Prop
  | done (result : α) : Yields (.done result) [] result
  | tell {output : Output} {rest : Session α} {sent : List Exchange} {result : α}
      (next : Yields rest sent result) : Yields (.tell output rest) sent result
  | connect {url : String} {connections : Nat} {next : Except DatabaseError Unit → Session α}
      {answer : Except DatabaseError Unit} {sent : List Exchange} {result : α}
      (after : Yields (next answer) sent result) :
      Yields (.connect url connections next) sent result
  | send {statement : Statement} {next : Except DatabaseError statement.Reply → Session α}
      {answer : Except DatabaseError statement.Reply} {sent : List Exchange} {result : α}
      (after : Yields (next answer) sent result) :
      Yields (.send statement next) (⟨statement, answer⟩ :: sent) result

/-- A run of a session is one of its possible courses. -/
theorem yields_run (server : Server σ) (session : Session α) (state : σ) :
    Yields session (session.run server state).exchanges (session.run server state).result := by
  induction session generalizing state with
  | done result => exact .done result
  | tell output rest ih => exact .tell (ih state)
  | connect url connections next ih => exact .connect (ih _ _)
  | send statement next ih => exact .send (ih _ _)

theorem yields_done_iff {value result : α} {sent : List Exchange} :
    Yields (.done value) sent result ↔ sent = [] ∧ result = value := by
  constructor
  · intro h
    cases h
    exact ⟨rfl, rfl⟩
  · rintro ⟨rfl, rfl⟩
    exact .done _

theorem yields_tell_iff {output : Output} {rest : Session α} {sent : List Exchange} {result : α} :
    Yields (.tell output rest) sent result ↔ Yields rest sent result := by
  constructor
  · intro h
    cases h with
    | tell h => exact h
  · exact .tell

/-- A chain of sessions yields what its parts yield. -/
theorem yields_bind_iff {session : Session α} {next : α → Session β} {sent : List Exchange}
    {result : β} :
    Yields (session.bind next) sent result ↔
      ∃ first value second, Yields session first value ∧ Yields (next value) second result ∧
        sent = first ++ second := by
  constructor
  · intro h
    induction session generalizing sent with
    | done value => exact ⟨[], value, sent, .done value, h, rfl⟩
    | tell output rest ih =>
      cases h with
      | tell h =>
        obtain ⟨first, value, second, hfirst, hsecond, rfl⟩ := ih h
        exact ⟨first, value, second, .tell hfirst, hsecond, rfl⟩
    | connect url connections branch ih =>
      cases h with
      | connect h =>
        obtain ⟨first, value, second, hfirst, hsecond, rfl⟩ := ih _ h
        exact ⟨first, value, second, .connect hfirst, hsecond, rfl⟩
    | send statement branch ih =>
      cases h with
      | send h =>
        obtain ⟨first, value, second, hfirst, hsecond, rfl⟩ := ih _ h
        exact ⟨_, value, second, .send hfirst, hsecond, rfl⟩
  · rintro ⟨first, value, second, hfirst, hsecond, rfl⟩
    induction hfirst with
    | done value => exact hsecond
    | tell _ ih => exact .tell (ih hsecond)
    | connect _ ih => exact .connect (ih hsecond)
    | send _ ih => exact .send (ih hsecond)

end Session

/-! ## Attempts -/

namespace Attempt

variable {α β : Type}

/-- What an attempt exchanges, and how it ends. -/
abbrev Yields (attempt : Attempt α) (sent : List Session.Exchange)
    (result : Except MigrationError α) : Prop :=
  Session.Yields attempt.run sent result

theorem yields_pure_iff {value : α} {sent : List Session.Exchange}
    {result : Except MigrationError α} :
    Yields (pure value) sent result ↔ sent = [] ∧ result = .ok value :=
  Session.yields_done_iff

theorem yields_throw_iff {error : MigrationError} {sent : List Session.Exchange}
    {result : Except MigrationError α} :
    Yields (throw error) sent result ↔ sent = [] ∧ result = .error error :=
  Session.yields_done_iff

/-- A step without exchanges before another. -/
theorem yields_ofExcept_then_iff {value : Except MigrationError α} {next : α → Attempt β}
    {sent : List Session.Exchange} {result : Except MigrationError β} :
    Yields (ofExcept value >>= next) sent result ↔
      (∃ error, value = .error error ∧ sent = [] ∧ result = .error error) ∨
        ∃ a, value = .ok a ∧ Yields (next a) sent result := by
  cases value with
  | error error =>
    refine (yields_throw_iff (α := β)).trans ?_
    simp
  | ok a =>
    change Yields (next a) sent result ↔ _
    simp

/-- What is stored is the end of an attempt if the operation failed. -/
theorem yields_store_then_iff {ending : Storage.Ending MigrationError}
    {next : Storage.FileTree → Attempt β} {sent : List Session.Exchange}
    {result : Except MigrationError β} :
    Yields (store ending >>= next) sent result ↔
      (∃ error, ending.result = .error error ∧ sent = [] ∧ result = .error error) ∨
        ∃ tree, ending.result = .ok tree ∧ Yields (next tree) sent result :=
  Session.yields_tell_iff.trans yields_ofExcept_then_iff

theorem yields_notice_then_iff {notice : Notice} {next : Unit → Attempt β}
    {sent : List Session.Exchange} {result : Except MigrationError β} :
    Yields (Attempt.notice notice >>= next) sent result ↔ Yields (next ()) sent result :=
  Session.yields_tell_iff

theorem yields_print_then_iff {text : String} {next : Unit → Attempt β}
    {sent : List Session.Exchange} {result : Except MigrationError β} :
    Yields (print text >>= next) sent result ↔ Yields (next ()) sent result :=
  Session.yields_tell_iff

/-- A statement that is sent may be answered in any way. -/
theorem yields_send_iff {statement : Statement} {sent : List Session.Exchange}
    {result : Except MigrationError statement.Reply} :
    Yields (send statement) sent result ↔
      ∃ answer, sent = [⟨statement, answer⟩] ∧ result = answer.mapError .database := by
  constructor
  · intro h
    cases h with
    | send h =>
      cases h
      exact ⟨_, rfl, rfl⟩
  · rintro ⟨answer, rfl, rfl⟩
    exact .send (.done _)

/-- A chain of attempts ends with its first error, and goes on after each success. -/
theorem yields_bind_iff {attempt : Attempt α} {next : α → Attempt β}
    {sent : List Session.Exchange} {result : Except MigrationError β} :
    Yields (attempt >>= next) sent result ↔
      (∃ error, Yields attempt sent (.error error) ∧ result = .error error) ∨
        ∃ first value second, Yields attempt first (.ok value) ∧
          Yields (next value) second result ∧ sent = first ++ second := by
  refine Session.yields_bind_iff.trans ?_
  constructor
  · rintro ⟨first, value, second, hfirst, hsecond, rfl⟩
    cases value with
    | error error =>
      cases hsecond
      exact .inl ⟨error, by rwa [List.append_nil], rfl⟩
    | ok value => exact .inr ⟨first, value, second, hfirst, hsecond, rfl⟩
  · rintro (⟨error, hfirst, rfl⟩ | ⟨first, value, second, hfirst, hsecond, rfl⟩)
    · exact ⟨sent, .error error, [], hfirst, .done _, (List.append_nil _).symm⟩
    · exact ⟨first, .ok value, second, hfirst, hsecond, rfl⟩

/-- A statement ends the attempt if it is refused. -/
theorem yields_send_then_iff {statement : Statement} {next : statement.Reply → Attempt β}
    {sent : List Session.Exchange} {result : Except MigrationError β} :
    Yields (send statement >>= next) sent result ↔
      (∃ cause, sent = [⟨statement, .error cause⟩] ∧ result = .error (.database cause)) ∨
        ∃ reply rest, sent = ⟨statement, .ok reply⟩ :: rest ∧ Yields (next reply) rest result := by
  rw [yields_bind_iff]
  constructor
  · rintro (⟨error, h, rfl⟩ | ⟨first, value, second, h, hsecond, rfl⟩)
    · obtain ⟨answer, rfl, hanswer⟩ := yields_send_iff.1 h
      obtain ⟨cause, rfl, rfl⟩ := mapError_eq_error_iff.1 hanswer.symm
      exact .inl ⟨cause, rfl, rfl⟩
    · obtain ⟨answer, rfl, hanswer⟩ := yields_send_iff.1 h
      cases mapError_eq_ok_iff.1 hanswer.symm
      exact .inr ⟨value, second, rfl, hsecond⟩
  · rintro (⟨cause, rfl, rfl⟩ | ⟨reply, rest, rfl, h⟩)
    · exact .inl ⟨_, yields_send_iff.2 ⟨_, rfl, rfl⟩, rfl⟩
    · exact .inr ⟨_, reply, rest, yields_send_iff.2 ⟨_, rfl, rfl⟩, h, rfl⟩

end Attempt

/-! ## Rules for what is sent -/

namespace Session

variable {rule rule' : List Exchange → Statement → Prop}

/-- Whether every statement is sent only where a rule permits it after what came before. -/
def Obeys (rule : List Exchange → Statement → Prop) (earlier sent : List Exchange) : Prop :=
  ∀ before exchange after, sent = before ++ exchange :: after →
    rule (earlier ++ before) exchange.statement

theorem obeys_nil (earlier : List Exchange) : Obeys rule earlier [] := by
  intro before exchange after h
  simp at h

theorem Obeys.cons {earlier sent : List Exchange} {exchange : Exchange}
    (hfirst : rule earlier exchange.statement) (hrest : Obeys rule (earlier ++ [exchange]) sent) :
    Obeys rule earlier (exchange :: sent) := by
  rintro (- | ⟨first, before⟩) other after h
  · cases h
    rwa [List.append_nil]
  · cases h
    simpa using hrest before other after rfl

theorem Obeys.append {earlier sent sent' : List Exchange} (h : Obeys rule earlier sent)
    (h' : Obeys rule (earlier ++ sent) sent') : Obeys rule earlier (sent ++ sent') := by
  intro before exchange after hsplit
  rcases List.append_eq_append_iff.1 hsplit with ⟨more, rfl, hafter⟩ | ⟨more, rfl, hafter⟩
  · simpa using h' more exchange after hafter
  · cases more with
    | nil => simpa using h' [] exchange after hafter.symm
    | cons first more =>
      cases hafter
      exact h before exchange more rfl

theorem Obeys.mono {earlier sent : List Exchange} (h : Obeys rule earlier sent)
    (hrule : ∀ earlier statement, rule earlier statement → rule' earlier statement) :
    Obeys rule' earlier sent :=
  fun before exchange after hsplit => hrule _ _ (h before exchange after hsplit)

/-- What is sent may as well be sent later, if what was exchanged long ago does not matter. -/
theorem Obeys.later {sent : List Exchange}
    (hrule : ∀ past earlier statement, rule earlier statement → rule (past ++ earlier) statement)
    (past : List Exchange) (h : Obeys rule [] sent) : Obeys rule past sent :=
  fun before exchange after hsplit => hrule past _ _ (h before exchange after hsplit)

end Session

/-- The rules along a statement that is sent: they permit it, and they are obeyed after any
success.  A refusal ends the attempt. -/
theorem Attempt.obeys_of_send {β : Type} {rule : List Session.Exchange → Statement → Prop}
    {statement : Statement} {earlier sent : List Session.Exchange}
    {next : statement.Reply → Attempt β} {result : Except MigrationError β}
    (h : (Attempt.send statement >>= next).Yields sent result) (hfirst : rule earlier statement)
    (hnext : ∀ reply rest, (next reply).Yields rest result →
      Session.Obeys rule (earlier ++ [⟨statement, .ok reply⟩]) rest) :
    Session.Obeys rule earlier sent := by
  rcases Attempt.yields_send_then_iff.1 h with ⟨cause, rfl, -⟩ | ⟨reply, rest, rfl, hrest⟩
  · exact .cons hfirst (Session.obeys_nil _)
  · exact .cons hfirst (hnext reply rest hrest)

end SchemaPlan
