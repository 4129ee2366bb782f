import ReviewRota.Gateway.Basic

/-!
# ReviewRota.Transact

Units of work.  A scope runs in a transaction of its own, which holds the
write lock from the start:

| the scope | the transaction | the caller gets |
|---|---|---|
| returns a value | commits | the value |
| returns a value, but the commit is refused | is undone | `Error.commitFailed` |
| fails | is undone | the error, unchanged |
| panics | is undone | the panic, unchanged |
| is cancelled | is undone | nothing |

While someone else holds the lock no transaction begins and no scope runs.
-/

namespace ReviewRota

/-- How a scope or the unit of work around it ends. -/
inductive Outcome (α : Type) where
  | returned (value : α)
  | failed (error : Error)
  | panicked (message : String)
  | cancelled
  deriving DecidableEq, Repr, Inhabited

namespace Outcome

variable {α : Type}

/-- The outcome of what returns or fails. -/
def ofExcept : Except Error α → Outcome α
  | .ok a => .returned a
  | .error e => .failed e

theorem ofExcept_inj {r other : Except Error α} (h : ofExcept r = ofExcept other) : r = other := by
  cases r <;> cases other <;> cases h <;> rfl

end Outcome

/-- An attempt on the database as a whole. -/
abbrev Service (α : Type) : Type := Attempt Database α

namespace Database

variable {α : Type}

/-- Ends the transaction of `operation`: commits when the scope returned,
and gives everything up otherwise. -/
def finish (operation : String) (outcome : Outcome α) (c : Connection) : Outcome α × Database :=
  match outcome with
  | .returned a =>
    match c.commit? with
    | some db => (.returned a, db)
    | none => (.failed (.commitFailed operation), c.rollback)
  | other => (other, c.rollback)

/-- Runs a scope as the unit of work `operation`. -/
def transact (operation : String) (scope : Connection → Outcome α × Connection) (db : Database) :
    Outcome α × Database :=
  match db.begin? with
  | none => (.failed (.storage operation "begin"), db)
  | some c =>
    let (outcome, c) := scope c
    finish operation outcome c

theorem transact_of_locked {db : Database} (hdb : db.locked = true) (operation : String)
    (scope : Connection → Outcome α × Connection) :
    db.transact operation scope = (.failed (.storage operation "begin"), db) := by
  rw [transact, begin?_of_locked hdb]

end Database

namespace Service

variable {α : Type}

/-- A gateway call on a connection of its own, outside a transaction. -/
def direct (call : Gateway α) : Service α := fun db =>
  let (result, c) := call db.connection
  (result, c.database)

/-- A scope of gateway calls as the unit of work `operation`. -/
def unitOfWork (operation : String) (scope : Gateway α) : Service α := fun db =>
  match db.begin? with
  | none => (.error (.storage operation "begin"), db)
  | some c =>
    match scope c with
    | (.error e, c) => (.error e, c.rollback)
    | (.ok a, c) =>
      match c.commit? with
      | some db => (.ok a, db)
      | none => (.error (.commitFailed operation), c.rollback)

/-- A unit of work of gateway calls is one whose scope neither panics nor
is cancelled. -/
theorem transact_ofExcept (operation : String) (scope : Gateway α) (db : Database) :
    db.transact operation (fun c => (Outcome.ofExcept (scope c).1, (scope c).2)) =
      (Outcome.ofExcept (unitOfWork operation scope db).1,
        (unitOfWork operation scope db).2) := by
  unfold Database.transact unitOfWork
  cases db.begin? with
  | none => rfl
  | some c =>
    simp only
    rcases scope c with ⟨_ | _, c'⟩
    · rfl
    · simp only [Outcome.ofExcept, Database.finish]
      cases c'.commit? <;> rfl

end Service

end ReviewRota
