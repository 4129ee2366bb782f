import ReviewRota.Request
import ReviewRota.Store.Probe

/-!
# ReviewRota.Session

Sessions: sequences of steps on one connection, with scopes in them.

* An `Action` is a single step.  Gateway calls, probes and savepoints work
  on the connection of the scope they stand in; requests are answered on
  another connection, which sees the committed store only.
* A `Scope` is a sequence of steps, some of which are scopes themselves: in
  a savepoint on the same connection, or in a transaction, which gets a
  connection of its own.
* A step that fails does not end its scope, unless the scope depends on
  it.

Running a scope answers a `Transcript` of the same shape, up to where the
scope ended.
-/

namespace ReviewRota

/-! ## Steps -/

/-- A single step. -/
inductive Action where
  /-- A gateway call on the scope's connection. -/
  | call (c : Call)
  /-- A request on another connection. -/
  | request (r : Request)
  | openSavepoint (name : String)
  /-- Closes a savepoint that was opened before, with an error or
  without. -/
  | closeSavepoint (name : String) (error : Option Error)
  | deferForeignKeys
  | hideTable (name : String)
  | restoreTable (name : String)
  /-- Looks at all rows. -/
  | contents
  | probe (p : Probe) (id : String)
  | setClock (time : Int)
  /-- A step that could not be read; it does nothing. -/
  | unreadable

/-- How a scope in a transaction ends once its steps have run. -/
inductive Ending where
  | success
  | failure (e : Error)
  | panic (message : String)
  | cancellation
  deriving DecidableEq, Repr, Inhabited

/-- A sequence of steps.  `needed` says that the scope ends with the error
of that step. -/
inductive Scope where
  | done
  | step (a : Action) (needed : Bool) (rest : Scope)
  | savepoint (name : String) (body : Scope) (error : Option Error) (needed : Bool)
    (rest : Scope)
  | transaction (name : String) (body : Scope) (ending : Ending) (rest : Scope)
  deriving Inhabited

/-! ## Answers -/

/-- What a single step answers. -/
inductive Answer where
  | reply (r : Reply)
  | failed (e : Error)
  /-- A savepoint was closed and kept. -/
  | kept
  | contents (s : Store)
  | clock (time : Int)
  /-- A probe wrote that many rows. -/
  | rows (n : Nat)
  /-- A probe was refused: for a violated constraint, if it is one that is
  told apart, and what that means. -/
  | refused (violated : Option Constraint) (meaning : Error)
  | unreadable
  deriving DecidableEq, Repr, Inhabited

/-- The error of an answer that is one. -/
def Answer.error? : Answer → Option Error
  | .failed e => some e
  | _ => none

/-- The answers of a scope. -/
inductive Transcript where
  | done
  | answer (a : Answer) (rest : Transcript)
  | scope (inner : Transcript) (outcome : Outcome Unit) (rest : Transcript)
  deriving DecidableEq, Repr, Inhabited

/-! ## Running -/

/-- Where a session stands: its connection and the time. -/
structure Session where
  connection : Connection
  clock : Int
  deriving DecidableEq, Repr, Inhabited

namespace Session

/-- The session with its database replaced, its transaction kept. -/
def withDatabase (s : Session) (db : Database) : Session :=
  { s with connection := { s.connection with database := db } }

/-- Runs an attempt on the connection. -/
def onConnection {α : Type} (g : Gateway α) (s : Session) : Except Error α × Session :=
  let (r, c) := g s.connection
  (r, { s with connection := c })

/-- The answer to a result. -/
def answerOf {α : Type} (ok : α → Answer) : Except Error α → Answer
  | .ok a => ok a
  | .error e => .failed e

/-- The answer to a statement that belongs to no operation. -/
def plainAnswer {α : Type} (ok : α → Answer) : Except Fault α → Answer
  | .ok a => ok a
  | .error _ => .failed .storeFailed

/-- What a probe reports of a violated constraint. -/
def probeMeaning : Constraint → Option Error
  | .unique => some (.internal "unique" none)
  | _ => none

/-- All rows, as long as every table is in service. -/
def allRows : Query Store := ⟨[.teams, .users, .pullRequests, .links], id⟩

end Session

/-- Runs a single step. -/
def Action.run (a : Action) (s : Session) : Answer × Session :=
  match a with
  | .call c =>
    let (r, s) := s.onConnection c.run
    (Session.answerOf .reply r, s)
  | .request r =>
    let (result, db) := r.run s.clock s.connection.database
    (Session.answerOf .reply result, s.withDatabase db)
  | .openSavepoint name =>
    let (r, s) := s.onConnection (Gateway.openSavepoint name)
    (Session.answerOf (fun _ => .reply .nothing) r, s)
  | .closeSavepoint name error =>
    let result : Except Error Unit := match error with
      | some e => .error e
      | none => .ok ()
    let (r, s) := s.onConnection (Gateway.closeSavepoint name result)
    (Session.answerOf (fun _ => .kept) r, s)
  | .deferForeignKeys =>
    (.reply .nothing, { s with connection := s.connection.deferForeignKeys })
  | .hideTable name =>
    let (r, c) := s.connection.execute (Table.hide name)
    (Session.plainAnswer (fun _ => .reply .nothing) r, { s with connection := c })
  | .restoreTable name =>
    let (r, c) := s.connection.execute (Table.restore name)
    (Session.plainAnswer (fun _ => .reply .nothing) r, { s with connection := c })
  | .contents =>
    let (r, c) := s.connection.query Session.allRows
    (Session.plainAnswer .contents r, { s with connection := c })
  | .probe p id =>
    match s.connection.execute p.change with
    | (.ok rows, c) => (.rows rows, { s with connection := c })
    | (.error fault, c) =>
      (.refused fault.constraint? (fault.toError "probe" id Session.probeMeaning),
        { s with connection := c })
  | .setClock time => (.clock time, { s with clock := time })
  | .unreadable => (.unreadable, s)

/-- What has come of running a scope: the answers, the error that ended
it before its last step, and where the session stands. -/
structure Ran where
  transcript : Transcript
  stopped : Option Error
  session : Session

/-- The outcome of a scope whose steps have run. -/
def Ending.outcome (ending : Ending) (stopped : Option Error) : Outcome Unit :=
  match stopped, ending with
  | some e, _ => .failed e
  | none, .success => .returned ()
  | none, .failure e => .failed e
  | none, .panic message => .panicked message
  | none, .cancellation => .cancelled

/-- The result of a scope in a savepoint whose steps have run. -/
def scopeResult (stopped error : Option Error) : Except Error Unit :=
  match stopped, error with
  | some e, _ => .error e
  | none, some e => .error e
  | none, none => .ok ()

namespace Ran

/-- Puts an answer in front, and stops if the scope depends on it and it is
an error. -/
def behind (a : Answer) (needed : Bool) (s : Session) (rest : Session → Ran) : Ran :=
  match needed, a.error? with
  | true, some e => ⟨.answer a .done, some e, s⟩
  | _, _ =>
    let r := rest s
    { r with transcript := .answer a r.transcript }

/-- Puts the answers of an inner scope and its outcome in front. -/
def behindScope (inner : Transcript) (outcome : Outcome Unit) (s : Session)
    (rest : Session → Ran) : Ran :=
  let r := rest s
  { r with transcript := .scope inner outcome r.transcript }

/-- The same for a scope in a savepoint: an error of one that is needed
stands for all of it. -/
def behindSavepoint (inner : Transcript) (result : Except Error Unit) (needed : Bool)
    (s : Session) (rest : Session → Ran) : Ran :=
  match needed, result with
  | true, .error e => ⟨.answer (.failed e) .done, some e, s⟩
  | _, _ => behindScope inner (Outcome.ofExcept result) s rest

end Ran

/-- Runs a scope. -/
def Scope.run : Scope → Session → Ran
  | .done, s => ⟨.done, none, s⟩
  | .step a needed rest, s =>
    let (answer, s) := a.run s
    Ran.behind answer needed s rest.run
  | .savepoint name body error needed rest, s =>
    match s.onConnection (Gateway.openSavepoint name) with
    | (.error e, s) => Ran.behindSavepoint .done (.error e) needed s rest.run
    | (.ok _, s) =>
      let inner := body.run s
      let (result, s) := inner.session.onConnection
        (Gateway.closeSavepoint name (scopeResult inner.stopped error))
      Ran.behindSavepoint inner.transcript result needed s rest.run
  | .transaction name body ending rest, s =>
    match s.connection.database.begin? with
    | none => Ran.behindScope .done (.failed (.storage name "begin")) s rest.run
    | some c =>
      let inner := body.run { s with connection := c }
      let (outcome, db) :=
        Database.finish name (ending.outcome inner.stopped) inner.session.connection
      let s := { s with clock := inner.session.clock }
      Ran.behindScope inner.transcript outcome (s.withDatabase db) rest.run

end ReviewRota
