import SchemaPlan.Proofs.Session.Run

/-!
# What a session stores

The files after a run are those that it stored last.  An attempt may store files and fail later on,
so what it leaves is said for every result.

* `Attempt.Leaves`: how the files after an attempt and its result belong together,
* `Attempt.Leaves.bind`: a chain goes on with what its first part left,
* `Attempt.StoresNothing`: an attempt leaves the files that it found.
-/

set_option autoImplicit false

namespace SchemaPlan

open Storage

theorem Session.filesAfter_append (files : FileTree) (first second : List Session.Event) :
    Session.filesAfter files (first ++ second) =
      Session.filesAfter (Session.filesAfter files first) second :=
  List.foldl_append

namespace Attempt

variable {α β : Type} {attempt : Attempt α} {next : α → Attempt β} {files : FileTree}

/-- Whether the result of an attempt and the files after it are related, whatever is answered. -/
def Leaves (attempt : Attempt α) (files : FileTree)
    (post : Except MigrationError α → FileTree → Prop) : Prop :=
  ∀ ⦃σ : Type⦄ (server : Server σ) (state : σ),
    post (attempt.run.run server state).result
      (Session.filesAfter files (attempt.run.run server state).events)

/-- A chain goes on with what its first part left, or ends with its error. -/
theorem Leaves.bind {mid : Except MigrationError α → FileTree → Prop}
    {post : Except MigrationError β → FileTree → Prop} (h : attempt.Leaves files mid)
    (hok : ∀ value tree, mid (.ok value) tree → (next value).Leaves tree post)
    (herror : ∀ error tree, mid (.error error) tree → post (.error error) tree) :
    (attempt >>= next).Leaves files post := by
  intro σ server state
  have hfirst := h server state
  cases hrun : attempt.run.run server state with
  | mk result events reached =>
    rw [hrun] at hfirst
    cases result with
    | error error =>
      rw [run_bind_of_error hrun]
      exact herror error _ hfirst
    | ok value =>
      rw [run_bind_of_ok hrun, Session.Run.behind, Session.filesAfter_append]
      exact hok value _ hfirst server reached

/-- What is stored is left, whether the operation behind it succeeded or not. -/
theorem leaves_store (ending : Ending MigrationError) (files : FileTree) :
    (store ending).Leaves files fun result tree => result = ending.result ∧ tree = ending.tree :=
  fun _ _ _ => ⟨rfl, rfl⟩

/-- Nothing can fail in showing a notice. -/
theorem leaves_notice_then {shown : Notice} {next : Unit → Attempt β}
    {post : Except MigrationError β → FileTree → Prop} (h : (next ()).Leaves files post) :
    (notice shown >>= next).Leaves files post :=
  fun _ server state => h server state

theorem leaves_print_then {text : String} {next : Unit → Attempt β}
    {post : Except MigrationError β → FileTree → Prop} (h : (next ()).Leaves files post) :
    (print text >>= next).Leaves files post :=
  fun _ server state => h server state

/-! ## Attempts that store nothing -/

/-- Whether an attempt leaves the files that it found. -/
def StoresNothing (attempt : Attempt α) : Prop :=
  ∀ files, attempt.Leaves files fun _ tree => tree = files

/-- A chain that begins with a part that stores nothing. -/
theorem StoresNothing.leaves {post : Except MigrationError β → FileTree → Prop}
    (h : attempt.StoresNothing) (hok : ∀ value, (next value).Leaves files post)
    (herror : ∀ error, post (.error error) files) : (attempt >>= next).Leaves files post :=
  (h files).bind (fun value _ htree => htree ▸ hok value) fun error _ htree => htree ▸ herror error

theorem StoresNothing.bind (h : attempt.StoresNothing)
    (hnext : ∀ value, (next value).StoresNothing) : (attempt >>= next).StoresNothing :=
  fun files => h.leaves (fun value => hnext value files) fun _ => rfl

theorem storesNothing_ofExcept (value : Except MigrationError α) :
    (ofExcept value).StoresNothing :=
  fun _ _ _ _ => rfl

theorem storesNothing_pure (value : α) : (pure value : Attempt α).StoresNothing :=
  fun _ _ _ _ => rfl

theorem storesNothing_throw (error : MigrationError) : (throw error : Attempt α).StoresNothing :=
  fun _ _ _ _ => rfl

theorem storesNothing_notice (shown : Notice) : (notice shown).StoresNothing :=
  fun _ _ _ _ => rfl

theorem storesNothing_send (statement : Database.Statement) : (send statement).StoresNothing :=
  fun _ _ _ _ => rfl

theorem storesNothing_connect (url : String) (connections : Nat) :
    (connect url connections).StoresNothing :=
  fun _ _ _ _ => rfl

theorem storesNothing_forM (xs : List β) {f : β → Attempt Unit}
    (h : ∀ x, (f x).StoresNothing) : (xs.forM f).StoresNothing := by
  induction xs with
  | nil => exact storesNothing_pure ()
  | cons x xs ih => exact (h x).bind fun _ => ih

end Attempt

end SchemaPlan
