import ReviewRota.Proofs.Operations

/-!
# ReviewRota.Proofs.Isolation

What others see of an open transaction, and what they can do to it: nothing.

While a unit of work is open it holds the write lock, and the database
behind it is the one from before.  Others meanwhile

* read the store from before, whatever the scope has written, undone or
  hidden (`Request.answerMeanwhile_of_reads`);
* are refused when they write or want a transaction of their own, with an
  error that does not depend on the store, since nothing of what they want
  is begun (`Request.answerMeanwhile_of_writes`).

Either way nothing changes, neither the database nor the transaction.  The
steps of others that stand in a scope can thus be left out of it: `Scope.alone`
is the scope without them, and it answers the same and leaves the same behind
(`Scope.run_alone`).

* `Database.isolated_while_open` — all of this, at every point of every
  scope.
-/

namespace ReviewRota

/-! ## Refused operations -/

namespace Service

variable {α β : Type}

/-- While someone holds the write lock, the request answers this error and
changes nothing. -/
def Refuses (service : Service α) (e : Error) : Prop :=
  ∀ db : Database, db.locked = true → service db = (.error e, db)

theorem Refuses.map {service : Service α} {e : Error} (h : service.Refuses e) (f : α → β) :
    Refuses (do return f (← service)) e := by
  intro db hdb
  rw [Attempt.bind_run, h db hdb]

theorem refuses_unitOfWork (operation : String) (scope : Gateway α) :
    (unitOfWork operation scope).Refuses (.storage operation "begin") := by
  intro db hdb
  have hends := transact_ofExcept operation scope db
  rw [Database.transact_of_locked hdb] at hends
  obtain ⟨hanswer, hkept⟩ := Prod.mk.inj hends
  exact Prod.ext (Outcome.ofExcept_inj hanswer.symm) hkept.symm

/-- A guard refuses first, or lets pass to what refuses. -/
theorem exists_refuses_guarded {service : Int → Service α} {e : Error}
    (h : ∀ now, (service now).Refuses e) (guard : Except Error Unit) :
    ∃ e, ∀ now, (Desk.guarded guard (service now)).Refuses e := by
  cases guard with
  | error e => exact ⟨e, fun _ _ _ => rfl⟩
  | ok _ => exact ⟨e, fun now db hdb => h now db hdb⟩

theorem refuses_setActive (id : String) (active : Bool) :
    (Staffing.setActive id active).Refuses (.storage "users.set_is_active" id) := by
  intro db hdb
  have hexecute : db.connection.execute (Statement.Users.setActive id active) =
      (.error .unclassified, db.connection) := by
    obtain ⟨committed, revision, locked⟩ := db
    subst hdb
    unfold Connection.execute
    split
    · rfl
    · rfl
  unfold Staffing.setActive Service.direct Gateway.Users.setActive
  simp only [Attempt.bind_run, Gateway.write, hexecute]
  rfl

end Service

open Service

/-- An operation that writes is refused, at whatever time. -/
theorem Operation.exists_refuses {o : Operation} (h : o.writes = true) :
    ∃ e, ∀ now, (o.run now).Refuses e := by
  cases o with
  | create id title author draw => exact ⟨_, fun _ => (refuses_unitOfWork _ _).map _⟩
  | reassign id old draw => exact ⟨_, fun _ => (refuses_unitOfWork _ _).map _⟩
  | merge id => exact ⟨_, fun _ => (refuses_unitOfWork _ _).map _⟩
  | createTeam name members => exact ⟨_, fun _ => (refuses_unitOfWork _ _).map _⟩
  | setActive id active => exact ⟨_, fun _ => (refuses_setActive id active).map _⟩
  | pullRequest | team | user | reviewsOf | userLoads | reviewerCounts => exact nomatch h

/-- A submission that writes is refused by the desk, or by its operation. -/
theorem Submission.exists_refuses {s : Submission} (h : (Request.submission s).writes = true) :
    ∃ e, ∀ now, (s.run now).Refuses e := by
  have behind {α : Type} {service : Int → Service α} {e : Error} (f : α → Reply)
      (guard : Except Error Unit) (hrefuses : ∀ now, (service now).Refuses e) :
      ∃ e, ∀ now, Refuses (do return f (← Desk.guarded guard (service now))) e := by
    obtain ⟨e, he⟩ := exists_refuses_guarded hrefuses guard
    exact ⟨e, fun now => (he now).map f⟩
  cases s with
  | create caller r draw => exact behind _ _ fun _ => refuses_unitOfWork _ _
  | reassign caller r draw => exact behind _ _ fun _ => refuses_unitOfWork _ _
  | merge caller r => exact behind _ _ fun _ => refuses_unitOfWork _ _
  | addTeam r => exact behind _ _ fun _ => refuses_unitOfWork _ _
  | setActive caller r => exact behind _ _ fun _ => refuses_setActive r.user r.active
  | team | userReviews | workload => exact nomatch h

theorem Request.exists_refuses {r : Request} (h : r.writes = true) :
    ∃ e, ∀ now, (r.run now).Refuses e := by
  cases r with
  | operation o => exact Operation.exists_refuses h
  | submission s => exact Submission.exists_refuses h

/-! ## Answers in the meantime -/

namespace Request

/-- What a request answers on a store while someone holds the write lock. -/
def answerMeanwhile (r : Request) (s : Store) : Except Error Reply := (r.run 0 ⟨s, 0, true⟩).1

/-- What only reads does not look at the clock. -/
theorem run_of_reads {r : Request} (h : r.writes = false) (now : Int) : r.run now = r.run 0 := by
  cases r with
  | operation o =>
      cases o with
      | create | reassign | merge | createTeam | setActive => exact nomatch h
      | pullRequest | team | user | reviewsOf | userLoads | reviewerCounts => rfl
  | submission s =>
      cases s with
      | create | reassign | merge | addTeam | setActive => exact nomatch h
      | team | userReviews | workload => rfl

/-- What reads answers as if nobody held the lock. -/
theorem answerMeanwhile_of_reads {r : Request} (h : r.writes = false) (now : Int)
    (db : Database) : r.run now db = (r.answerMeanwhile db.committed, db) := by
  obtain ⟨answer, hrun⟩ := (Service.readOnly_composedRequest 0 h).run db.committed
  have hheld : r.run 0 ⟨db.committed, 0, true⟩ = (answer, ⟨db.committed, 0, true⟩) := hrun _ rfl
  rw [run_of_reads h, hrun db rfl, answerMeanwhile, hheld]

/-- What writes is refused, with an error that does not depend on the
store. -/
theorem answerMeanwhile_of_writes {r : Request} (h : r.writes = true) :
    ∃ e, (∀ s, r.answerMeanwhile s = .error e) ∧ ∀ now, (r.run now).Refuses e := by
  obtain ⟨e, hrefuses⟩ := exists_refuses h
  refine ⟨e, fun s => ?_, hrefuses⟩
  rw [answerMeanwhile, hrefuses 0 _ rfl]

/-- While someone holds the lock, the store tells what a request answers, and
no request changes anything. -/
theorem run_meanwhile (r : Request) (now : Int) {db : Database} (hdb : db.locked = true) :
    r.run now db = (r.answerMeanwhile db.committed, db) := by
  cases hwrites : r.writes with
  | false => exact answerMeanwhile_of_reads hwrites now db
  | true =>
      obtain ⟨e, hanswer, hrefuses⟩ := answerMeanwhile_of_writes hwrites
      rw [hanswer, hrefuses now db hdb]

end Request

/-! ## A scope without the steps of others -/

namespace Session

variable {db : Database} {s : Session}

/-- A request of others leaves a session with an open transaction as it
is. -/
theorem run_request (hs : Connection.Begun db s.connection) (r : Request) :
    (Action.request r).run s = (answerOf .reply (r.answerMeanwhile db.committed), s) := by
  have hstore : s.connection.database.committed = db.committed := by rw [hs.database]
  simp only [Action.run, r.run_meanwhile s.clock hs.locked, hstore]
  rfl

end Session

/-- No transaction begins behind an open one. -/
theorem Connection.Begun.begin?_eq_none {db : Database} {c : Connection}
    (hc : Connection.Begun db c) : c.database.begin? = none :=
  Database.begin?_of_locked hc.locked

/-- The step is one of others that the scope can do without: a request,
unless the scope ends with its error. -/
def Action.isAside (s : Store) (needed : Bool) : Action → Bool
  | .request r => !needed || (r.answerMeanwhile s).isOk
  | _ => false

namespace Scope

/-- The scope without the steps of others, when the store from before is
`s`. -/
def alone (s : Store) : Scope → Scope
  | .done => .done
  | .step a needed rest =>
    if a.isAside s needed then rest.alone s else .step a needed (rest.alone s)
  | .savepoint name body error needed rest =>
    .savepoint name (body.alone s) error needed (rest.alone s)
  | .transaction _ _ _ rest => rest.alone s

/-- The answers to the scope's own steps among all answers. -/
def ownAnswers (s : Store) : Scope → Transcript → Transcript
  | .step a needed rest, .answer answer others =>
    if a.isAside s needed then rest.ownAnswers s others
    else .answer answer (rest.ownAnswers s others)
  | .savepoint _ body _ _ rest, .scope inner outcome others =>
    .scope (body.ownAnswers s inner) outcome (rest.ownAnswers s others)
  | .transaction _ _ _ rest, .scope _ _ others => rest.ownAnswers s others
  | _, answers => answers

theorem ownAnswers_done (s : Store) (scope : Scope) : scope.ownAnswers s .done = .done := by
  cases scope <;> rfl

/-- A run with only the answers to the scope's own steps. -/
def ownRun (s : Store) (scope : Scope) (ran : Ran) : Ran :=
  { ran with transcript := scope.ownAnswers s ran.transcript }

variable {db : Database}

/-- Behind a step of the scope's own. -/
theorem run_alone_behind {a : Action} {needed : Bool} {rest : Scope} {s : Session}
    (haside : a.isAside db.committed needed = false) (answer : Answer)
    (hrest : (rest.alone db.committed).run s = rest.ownRun db.committed (rest.run s)) :
    Ran.behind answer needed s (rest.alone db.committed).run =
      (Scope.step a needed rest).ownRun db.committed (Ran.behind answer needed s rest.run) := by
  have hown (others : Transcript) :
      (Scope.step a needed rest).ownAnswers db.committed (.answer answer others) =
        .answer answer (rest.ownAnswers db.committed others) := by
    rw [ownAnswers, haside]
    rfl
  unfold Ran.behind
  split
  · rw [ownRun, hown, ownAnswers_done]
  · rw [hrest, ownRun, ownRun, hown]

/-- Behind a step of others. -/
theorem run_alone_behindAside {a : Action} {needed : Bool} {rest : Scope} {s : Session}
    (hs : Connection.Begun db s.connection) (haside : a.isAside db.committed needed = true)
    (hrest : (rest.alone db.committed).run s = rest.ownRun db.committed (rest.run s)) :
    (rest.alone db.committed).run s =
      (Scope.step a needed rest).ownRun db.committed ((Scope.step a needed rest).run s) := by
  have hown (answer : Answer) (others : Transcript) :
      (Scope.step a needed rest).ownAnswers db.committed (.answer answer others) =
        rest.ownAnswers db.committed others := by
    rw [ownAnswers, if_pos haside]
  cases a with
  | request r =>
      have hrun : (Scope.step (.request r) needed rest).run s =
          Ran.behind (Session.answerOf .reply (r.answerMeanwhile db.committed)) needed s
            rest.run := by
        rw [run, Session.run_request hs]
      simp only [Action.isAside, Bool.or_eq_true, Bool.not_eq_true'] at haside
      -- the scope goes on, since it does not need the answer or the answer is no error
      have hgoes : Ran.behind (Session.answerOf .reply (r.answerMeanwhile db.committed)) needed s
          rest.run = { rest.run s with
            transcript := .answer (Session.answerOf .reply (r.answerMeanwhile db.committed))
              (rest.run s).transcript } := by
        obtain rfl | hok := haside
        · rfl
        · cases hanswer : r.answerMeanwhile db.committed with
          | error e =>
              rw [hanswer] at hok
              exact absurd hok Bool.false_ne_true
          | ok reply => cases needed <;> rfl
      rw [hrun, hgoes, hrest, ownRun, ownRun, hown]
  | call | «openSavepoint» | closeSavepoint | deferForeignKeys | hideTable | restoreTable
    | contents | probe | setClock | unreadable => exact absurd haside Bool.false_ne_true

/-- Behind a scope in a savepoint. -/
theorem run_alone_behindSavepoint (name : String) (body : Scope) (error : Option Error)
    (needed : Bool) {rest : Scope} {s : Session} (inner : Transcript) (result : Except Error Unit)
    (hrest : (rest.alone db.committed).run s = rest.ownRun db.committed (rest.run s)) :
    Ran.behindSavepoint (body.ownAnswers db.committed inner) result needed s
        (rest.alone db.committed).run =
      (Scope.savepoint name body error needed rest).ownRun db.committed
        (Ran.behindSavepoint inner result needed s rest.run) := by
  have hown (outcome : Outcome Unit) (others : Transcript) :
      (Scope.savepoint name body error needed rest).ownAnswers db.committed
          (.scope inner outcome others) =
        .scope (body.ownAnswers db.committed inner) outcome
          (rest.ownAnswers db.committed others) := rfl
  unfold Ran.behindSavepoint
  split
  · rfl
  · rw [Ran.behindScope, Ran.behindScope, hrest, ownRun, ownRun, hown]

/-- **Isolation**: without the steps of others a scope answers the same to its
own steps, and ends the same. -/
theorem run_alone (scope : Scope) {s : Session} (hs : Connection.Begun db s.connection) :
    (scope.alone db.committed).run s = scope.ownRun db.committed (scope.run s) := by
  have hclosed := Connection.begun_closed db
  induction scope generalizing s with
  | done => rfl
  | step a needed rest ih =>
      rw [alone]
      cases haside : a.isAside db.committed needed with
      | true => exact run_alone_behindAside hs haside (ih hs)
      | false => exact run_alone_behind haside _ (ih (hclosed.action a hs))
  | «savepoint» name body error needed rest ihbody ihrest =>
      have hopened := (Gateway.keeps_openSavepoint hclosed.toStable name).onConnection hs
      rw [alone, run, run]
      cases hopen : s.onConnection (Gateway.openSavepoint name) with
      | mk result opened =>
          rw [hopen] at hopened
          cases result with
          | error e =>
              have hbehind := run_alone_behindSavepoint name body error needed .done (.error e)
                (ihrest hopened)
              rw [ownAnswers_done] at hbehind
              exact hbehind
          | ok _ =>
              have hbody : Connection.Begun db (body.run opened).session.connection :=
                hclosed.run body hopened
              have hclosing := (Gateway.keeps_closeSavepoint hclosed.toStable name
                (scopeResult (body.run opened).stopped error)).onConnection hbody
              simp only [ihbody hopened]
              exact run_alone_behindSavepoint name body error needed _ _ (ihrest hclosing)
  | transaction name body ending rest ihbody ihrest =>
      rw [alone, run, hs.begin?_eq_none, ihrest hs]
      rfl

end Scope

/-! ## Isolation -/

/-- What others see of a session whose transaction was begun on the database
`db`, and what they can do to it. -/
structure Session.Apart (db : Database) (s : Session) : Prop where
  /-- What reads answers from the store of before. -/
  reads : ∀ r : Request, r.writes = false →
    (Action.request r).run s = (answerOf .reply (r.run s.clock db).1, s)
  /-- What writes is refused, whatever the store. -/
  refuses : ∀ r : Request, r.writes = true →
    ∃ e, (∀ now, (r.run now).Refuses e) ∧ (Action.request r).run s = (.failed e, s)
  /-- No unit of work begins, whatever its scope. -/
  excludes : ∀ {α : Type} (operation : String) (scope : Connection → Outcome α × Connection),
    s.connection.database.transact operation scope =
      (.failed (.storage operation "begin"), s.connection.database)
  /-- The scope of a transaction within does not run. -/
  skips : ∀ (name : String) (inner : Scope) (ending : Ending) (rest : Scope),
    (Scope.transaction name inner ending rest).run s =
      Ran.behindScope .done (.failed (.storage name "begin")) s rest.run

theorem Connection.Begun.apart {db : Database} {s : Session}
    (hs : Connection.Begun db s.connection) : s.Apart db where
  reads r hreads := by
    rw [Session.run_request hs, Request.answerMeanwhile_of_reads hreads]
  refuses r hwrites := by
    obtain ⟨e, hanswer, hrefuses⟩ := Request.answerMeanwhile_of_writes hwrites
    refine ⟨e, hrefuses, ?_⟩
    rw [Session.run_request hs, hanswer]
    rfl
  excludes operation scope :=
    Database.transact_of_locked hs.locked operation scope
  skips name inner ending rest := by
    rw [Scope.run, hs.begin?_eq_none]

/-- **Isolation**: at every point of a scope others read the store from
before the unit of work, and whatever of theirs would write is refused and
changes nothing, neither what is committed nor what the scope works on.

Without the steps of others, apart from one whose error ends the scope, the
scope hence answers the same to its own steps, ends the same and leaves the
same behind, whatever the verdict on it. -/
theorem Database.isolated_while_open (store : Store) (revision : Nat) (body : Scope)
    (clock : Int) :
    let db : Database := ⟨store, revision, false⟩
    let start : Session := ⟨db.begun, clock⟩
    (∀ s ∈ body.visited start, s.Apart db) ∧
    (body.alone store).run start = body.ownRun store (body.run start) ∧
    ∀ {α : Type} (operation : String) (verdict : Ran → Outcome α),
      db.transact operation (body.within clock fun ran => verdict (body.ownRun store ran)) =
        db.transact operation ((body.alone store).within clock verdict) := by
  intro db start
  have hbegun : Connection.Begun db start.connection := Connection.begun_begun db
  have halone : (body.alone store).run start = body.ownRun store (body.run start) :=
    body.run_alone hbegun
  refine ⟨fun s hs => ?_, halone, fun operation verdict => ?_⟩
  · exact ((Connection.begun_closed db).visited body hbegun s hs).apart
  · have hbegin : db.begin? = some db.begun := begin?_of_unlocked rfl
    simp only [transact, hbegin, Scope.within]
    rw [halone]
    rfl

/-- A team is written and its table hidden.  Others still look for it among
the teams from before, and neither retire a user nor begin a transaction;
without them the scope ends the same. -/
theorem Database.isolated_while_open_hidden :
    let store : Store := { users := [⟨"ann", "Ann", none, true⟩] }
    let lookUp : Request := .operation (.team "core")
    let retire : Request := .operation (.setActive "ann" false)
    let others : Scope :=
      .step (.request lookUp) false <| .step (.request retire) false <|
        .transaction "nested" .done .success .done
    let body (rest : Scope) : Scope :=
      .step (.call (.createTeam "core" 5)) true <| .step (.hideTable "teams") true rest
    let start : Session := ⟨(Database.mk store 3 false).begun, 0⟩
    let last : Session := ((body others).run start).session
    last.connection.view.teams = [⟨"core", 5⟩] ∧ last.connection.view.offline = [.teams] ∧
    (Action.request lookUp).run last = (.failed (.notFound .team "core"), last) ∧
    (∃ e, (Action.request retire).run last = (.failed e, last)) ∧
    (body .done).run start = (body others).ownRun store ((body others).run start) := by
  intro store lookUp retire others body start last
  obtain ⟨hapart, halone, _⟩ := Database.isolated_while_open store 3 (body others) 0
  have hlast := hapart last (Scope.session_run_mem_visited _ _)
  have hlookUp := hlast.reads lookUp rfl
  obtain ⟨e, _, hretire⟩ := hlast.refuses retire rfl
  exact ⟨by decide +kernel, by decide +kernel, hlookUp, ⟨e, hretire⟩, halone⟩

end ReviewRota
