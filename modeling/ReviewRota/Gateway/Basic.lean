import ReviewRota.Attempt
import ReviewRota.Connection.Basic

/-!
# ReviewRota.Gateway.Basic

What the gateway to the store is made of: statements whose failures have
become errors, and savepoints around several of them.  A gateway call works
on any connection, with a transaction or without.

A savepoint around a scope makes the scope all or nothing: an error undoes
what the scope wrote and is passed on unchanged.
-/

namespace ReviewRota

/-- An attempt on a connection. -/
abbrev Gateway (α : Type) : Type := Attempt Connection α

namespace Gateway

/-- Reads; a failure is one of the store. -/
def read {α : Type} (operation id : String) (q : Query α) : Gateway α := fun c =>
  match c.query q with
  | (.ok a, c) => (.ok a, c)
  | (.error _, c) => (.error (.storage operation id), c)

/-- Writes; `meaning` says what each violated constraint stands for, and
any other failure is one of the store. -/
def write {α : Type} (operation id : String) (meaning : Constraint → Option Error)
    (ch : Change α) : Gateway α := fun c =>
  match c.execute ch with
  | (.ok a, c) => (.ok a, c)
  | (.error fault, c) => (.error (fault.toError operation id meaning), c)

/-- The meaning of the constraints to a write that expects none to be
violated. -/
def noMeaning : Constraint → Option Error := fun _ => none

/-! ## Savepoints -/

/-- The answer of a statement with a savepoint's name in it that was carried
out: an error if the name is followed by anything but what changes nothing. -/
def unlessFollowed {α : Type} (name statement : String) (a : α) : Except Error α :=
  if isFollowed name then .error (.storage name statement) else .ok a

/-- Opens a savepoint. -/
def openSavepoint (name : String) : Gateway Unit := fun c =>
  match c.openSavepoint? name with
  | some c => (unlessFollowed name "savepoint" (), c)
  | none => (.error (.storage name "savepoint"), c)

/-- Closes a savepoint: keeps what was written if the result is a value,
and undoes it if the result is an error, which is passed on even if the
undoing fails. -/
def closeSavepoint {α : Type} (name : String) (result : Except Error α) : Gateway α := fun c =>
  match result with
  | .ok a =>
    match c.release? name with
    | some c => (unlessFollowed name "release savepoint" a, c)
    | none => (.error (.storage name "release savepoint"), c)
  | .error e =>
    let c := (c.rollbackTo? name).getD c
    (.error e, (c.release? name).getD c)

/-- Runs a scope inside a savepoint. -/
def withinSavepoint {α : Type} (name : String) (scope : Gateway α) : Gateway α := do
  openSavepoint name
  let result ← scope.result
  closeSavepoint name result

end Gateway

end ReviewRota
