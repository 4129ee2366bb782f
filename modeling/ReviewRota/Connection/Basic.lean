import ReviewRota.Store.Statement
import ReviewRota.Connection.SavepointName

/-!
# ReviewRota.Connection.Basic

Connections to one database.  The database holds the committed store and
one write lock.  Connections take turns: between the statements of one of
them, others may commit.

A statement outside a transaction sees the committed store and commits on
its own.  A transaction works on a store of its own:

* one that was *begun* holds the write lock from the start;
* one that a savepoint opened takes its store at its first statement and
  the lock at its first write, which fails when someone has committed in
  between.  It ends with that savepoint.

Savepoints form a stack.  Rolling back to one restores the store it was
opened with and closes those opened since; releasing it closes it as well.
-/

namespace ReviewRota

/-- What the connections share. -/
structure Database where
  committed : Store := {}
  /-- Counts the commits that wrote something. -/
  revision : Nat := 0
  /-- Whether some connection holds the write lock. -/
  locked : Bool := false
  deriving DecidableEq, Repr, Inhabited

/-- An open savepoint: its name and the store it was opened with. -/
structure Savepoint where
  key : String
  saved : Store
  deriving DecidableEq, Repr, Inhabited

/-- An open transaction. -/
structure Transaction where
  working : Store
  /-- The open savepoints, the innermost first. -/
  savepoints : List Savepoint
  foreignKeys : ForeignKeys
  /-- The revision that `working` started from; none before the first
  statement. -/
  snapshot : Option Nat
  /-- Whether the transaction holds the write lock. -/
  writing : Bool
  /-- Whether a row was written. -/
  changed : Bool
  /-- Whether the transaction was begun, and not opened by a
  savepoint. -/
  begun : Bool
  deriving DecidableEq, Repr, Inhabited

/-- A connection: the database behind it, and its transaction if one is
open. -/
structure Connection where
  database : Database
  transaction : Option Transaction
  deriving DecidableEq, Repr, Inhabited

namespace Database

/-- The database after a commit by the one who held the lock. -/
def commit (db : Database) (store : Store) (changed : Bool) : Database where
  committed := store
  revision := if changed then db.revision + 1 else db.revision
  locked := false

/-- A connection without a transaction. -/
def connection (db : Database) : Connection := ⟨db, none⟩

/-- A connection with a transaction that holds the write lock, unless
someone else has it. -/
def begin? (db : Database) : Option Connection :=
  if db.locked then none
  else some ⟨{ db with locked := true }, some ⟨db.committed, [], .immediate, some db.revision,
    true, false, true⟩⟩

theorem begin?_of_locked {db : Database} (h : db.locked = true) : db.begin? = none := if_pos h

end Database

namespace Transaction

/-- The transaction with its store taken, if it was not yet. -/
def settle (t : Transaction) (db : Database) : Transaction :=
  match t.snapshot with
  | some _ => t
  | none => { t with
      working := db.committed
      savepoints := t.savepoints.map fun sp => { sp with saved := db.committed }
      snapshot := some db.revision }

/-- Whether the transaction may write: it does so already, or nobody does
and nobody has committed since its store was taken. -/
def mayWrite (t : Transaction) (db : Database) : Bool :=
  t.writing || (!db.locked && t.snapshot = some db.revision)

/-- Whether a commit is accepted: references that were put off have to
hold now. -/
def canCommit (t : Transaction) : Bool :=
  t.foreignKeys = .immediate || t.working.referencesHold

/-- The database after the commit of a transaction. -/
def commitTo (t : Transaction) (db : Database) : Database :=
  if t.writing then db.commit t.working t.changed else db

/-- The database after a transaction is given up. -/
def undoIn (t : Transaction) (db : Database) : Database :=
  if t.writing then { db with locked := false } else db

end Transaction

namespace Connection

/-- The store that the next statement sees. -/
def view (c : Connection) : Store :=
  match c.transaction with
  | none => c.database.committed
  | some t => (t.settle c.database).working

/-! ## Statements -/

/-- Runs a statement that reads. -/
def query {α : Type} (q : Query α) (c : Connection) : Except Fault α × Connection :=
  if q.ready c.view then
    (.ok (q.answer c.view), { c with transaction := c.transaction.map (·.settle c.database) })
  else (.error .unclassified, c)

/-- Runs a statement that writes, outside a transaction. -/
def executeAlone {α : Type} (ch : Change α) (db : Database) : Except Fault α × Database :=
  if db.locked then (.error .unclassified, db)
  else
    match ch.apply .immediate db.committed with
    | .error fault => (.error fault, db)
    | .ok effect => (.ok effect.value, db.commit effect.store (0 < effect.rows))

/-- Runs a statement that writes, in a transaction that may write. -/
def executeWithin {α : Type} (ch : Change α) (t : Transaction) : Except Fault α × Transaction :=
  match ch.apply t.foreignKeys t.working with
  | .error fault => (.error fault, { t with
      writing := true
      changed := t.changed || ch.takesBack fault })
  | .ok effect => (.ok effect.value, { t with
      working := effect.store
      writing := true
      changed := t.changed || 0 < effect.rows })

/-- Runs a statement that writes. -/
def execute {α : Type} (ch : Change α) (c : Connection) : Except Fault α × Connection :=
  if !ch.ready c.view then (.error .unclassified, c)
  else
    match c.transaction with
    | none =>
      let (result, db) := executeAlone ch c.database
      (result, ⟨db, none⟩)
    | some t =>
      let settled := t.settle c.database
      if settled.mayWrite c.database then
        let (result, after) := executeWithin ch settled
        (result, ⟨{ c.database with locked := true }, some after⟩)
      else (.error .unclassified, c)

/-! ## Ending a transaction -/

/-- The database after a commit, if there is a transaction and its commit
is accepted. -/
def commit? (c : Connection) : Option Database :=
  match c.transaction with
  | none => none
  | some t => if t.canCommit then some (t.commitTo c.database) else none

/-- The database after the transaction, if any, is given up. -/
def rollback (c : Connection) : Database :=
  match c.transaction with
  | none => c.database
  | some t => t.undoIn c.database

/-- Looks at references only when the transaction commits. -/
def deferForeignKeys (c : Connection) : Connection :=
  { c with transaction := c.transaction.map fun t => { t with foreignKeys := .deferred } }

/-! ## Savepoints -/

/-- The transaction that a savepoint opens. -/
def openedBy (key : String) (db : Database) : Transaction :=
  ⟨db.committed, [⟨key, db.committed⟩], .immediate, none, false, false, false⟩

/-- Opens a savepoint, if its name is one. -/
def openSavepoint? (name : String) (c : Connection) : Option Connection :=
  (savepointKey? name).map fun key =>
    match c.transaction with
    | none => { c with transaction := some (openedBy key c.database) }
    | some t => { c with
        transaction := some { t with savepoints := ⟨key, t.working⟩ :: t.savepoints } }

/-- The savepoints from the innermost of that name outwards. -/
def savepointsFrom (key : String) (savepoints : List Savepoint) : List Savepoint :=
  savepoints.dropWhile (·.key ≠ key)

/-- Restores the store of a savepoint, which stays open. -/
def rollbackTo? (name : String) (c : Connection) : Option Connection := do
  let key ← savepointKey? name
  let t ← c.transaction
  match savepointsFrom key t.savepoints with
  | [] => none
  | sp :: outer =>
    return { c with transaction := some { t with
      working := sp.saved, savepoints := sp :: outer } }

/-- Closes a savepoint and keeps what was written.  With the savepoint
that opened it, a transaction ends. -/
def release? (name : String) (c : Connection) : Option Connection := do
  let key ← savepointKey? name
  let t ← c.transaction
  match savepointsFrom key t.savepoints with
  | [] => none
  | _ :: outer =>
    if outer = [] ∧ !t.begun then (c.commit?).map Database.connection
    else return { c with transaction := some { t with savepoints := outer } }

end Connection

end ReviewRota
