import ReviewRota.Proofs.Visited

/-!
# ReviewRota.Proofs.UnitOfWork

A unit of work is all or nothing, and nothing of it stays behind.

The scope of a unit of work is any `Scope`, with any `verdict` on what came
of running it: a value, an error, a panic or a cancellation.  While it runs,
its connection is `Begun`: it holds the write lock, the transaction cannot
end with a savepoint, and the database behind it is the one from before
(`Connection.begun_closed`).  The others meanwhile find the lock taken and
change nothing (`Request.run_of_locked`).

* `Database.transact_all_or_nothing` — the five ways in which a unit of
  work ends, each with what the caller gets and what is committed
  afterwards, and the next unit of work that starts from there.
-/

namespace ReviewRota

/-! ## Behind a taken lock -/

/-- A connection that has written nothing to a database that someone else
has locked. -/
structure Connection.Bystands (db : Database) (c : Connection) : Prop where
  database : c.database = db
  idle : ∀ t, c.transaction = some t → t.writing = false

/-- A connection with a transaction that has written nothing. -/
theorem Connection.Bystands.within {db : Database} {c : Connection} (hdb : c.database = db)
    {t : Transaction} (ht : t.writing = false) :
    Connection.Bystands db { c with transaction := some t } :=
  ⟨hdb, fun _ hu => Option.some.inj hu ▸ ht⟩

theorem Connection.bystands_stable {db : Database} (hdb : db.locked = true) :
    Database.Stable (· = db) (Connection.Bystands db) where
  query q c hc := by
    obtain h | h := Connection.query_cases q c
    · rw [h]
      exact hc
    · rw [h]
      refine ⟨hc.database, fun t ht => ?_⟩
      obtain ⟨u, hu, rfl⟩ := Option.map_eq_some_iff.mp ht
      rw [Transaction.settle_writing]
      exact hc.idle u hu
  execute {_ ch} _ c hc := by
    obtain h | ⟨_, hfree, _⟩ | ⟨t, u, ht, hmay, _⟩ := Connection.execute_cases ch c
    · rw [h]
      exact hc
    · rw [hc.database, hdb] at hfree
      exact nomatch hfree
    · -- nobody may write who does not do so already
      rw [Transaction.mayWrite, Transaction.settle_writing, hc.idle t ht, hc.database, hdb] at hmay
      exact nomatch hmay
  openSavepoint hc h := by
    obtain ⟨key, _, ⟨_, rfl⟩ | ⟨u, hu, rfl⟩⟩ := Connection.openSavepoint?_cases h
    · exact .within hc.database rfl
    · exact .within hc.database (hc.idle u hu)
  rollbackTo hc h := by
    obtain ⟨key, u, sp, outer, _, hu, _, rfl⟩ := Connection.rollbackTo?_cases h
    exact .within hc.database (hc.idle u hu)
  release hc h := by
    obtain ⟨key, u, sp, outer, _, hu, _, ⟨_, _, _, rfl⟩ | ⟨_, rfl⟩⟩ := Connection.release?_cases h
    · refine ⟨?_, fun t ht => nomatch ht⟩
      rw [Transaction.commitTo, hc.idle u hu]
      exact hc.database
    · exact .within hc.database (hc.idle u hu)
  connected h := ⟨h, fun t ht => nomatch ht⟩
  begun h hbegin := by
    rw [h, Database.begin?_of_locked hdb] at hbegin
    exact nomatch hbegin
  database hc := hc.database
  rolledBack {c} hc := by
    unfold Connection.rollback
    split
    · exact hc.database
    · next t ht =>
        rw [Transaction.undoIn, hc.idle t ht]
        exact hc.database
  committed hc h := by
    obtain ⟨t, ht, _, rfl⟩ := Connection.commit?_eq_some_iff.mp h
    rw [Transaction.commitTo, hc.idle t ht]
    exact hc.database

/-- While someone holds the write lock, no request changes anything. -/
theorem Request.run_of_locked (r : Request) (now : Int) {db : Database}
    (hdb : db.locked = true) : (r.run now db).2 = db :=
  (Service.composedRequest now r).keeps (Connection.bystands_stable hdb) db rfl

/-! ## In a transaction of one's own -/

/-- The connection with which a unit of work starts. -/
def Database.begun (db : Database) : Connection where
  database := { db with locked := true }
  transaction := some {
    working := db.committed
    savepoints := []
    foreignKeys := .immediate
    snapshot := some db.revision
    writing := true
    changed := false
    begun := true }

theorem Database.begin?_of_unlocked {db : Database} (h : db.locked = false) :
    db.begin? = some db.begun := by
  rw [begin?, h]
  rfl

theorem Database.begin?_eq_some_iff {db : Database} {c : Connection} :
    db.begin? = some c ↔ db.locked = false ∧ c = db.begun := by
  cases hlocked : db.locked with
  | true => simp [begin?, hlocked]
  | false =>
      rw [begin?_of_unlocked hlocked, Option.some.injEq]
      simp [eq_comm]

/-- A connection in a transaction that was begun on a database: it holds the
lock, and the database is otherwise as it was. -/
structure Connection.Begun (db : Database) (c : Connection) : Prop where
  database : c.database = { db with locked := true }
  transaction : ∃ t, c.transaction = some t ∧ t.snapshot = some db.revision ∧
    t.writing = true ∧ t.begun = true

theorem Connection.Begun.locked {db : Database} {c : Connection} (hc : Connection.Begun db c) :
    c.database.locked = true := by rw [hc.database]

theorem Connection.begun_begun (db : Database) : Connection.Begun db db.begun :=
  ⟨rfl, _, rfl, rfl, rfl, rfl⟩

/-- No step ends a transaction that was begun, nor does another connection
change anything behind it. -/
theorem Connection.begun_closed (db : Database) : Connection.Closed (Connection.Begun db) where
  query q c hc := by
    obtain ⟨t, ht, hsnapshot, hwriting, hbegun⟩ := hc.transaction
    obtain h | h := Connection.query_cases q c
    · rw [h]
      exact hc
    · rw [h, ht, Option.map_some, Transaction.settle_of_snapshot hsnapshot]
      exact ⟨hc.database, t, rfl, hsnapshot, hwriting, hbegun⟩
  execute {_ ch} _ c hc := by
    obtain ⟨t, ht, hsnapshot, hwriting, hbegun⟩ := hc.transaction
    obtain h | ⟨hnone, _⟩ | ⟨u, v, hu, _, ⟨working, changed, rfl, _⟩, h⟩ :=
      Connection.execute_cases ch c
    · rw [h]
      exact hc
    · rw [hnone] at ht
      exact nomatch ht
    · obtain rfl : u = t := Option.some.inj (hu.symm.trans ht)
      rw [h, hc.database, Transaction.settle_of_snapshot hsnapshot]
      exact ⟨rfl, _, rfl, hsnapshot, rfl, hbegun⟩
  openSavepoint hc h := by
    obtain ⟨t, ht, hsnapshot, hwriting, hbegun⟩ := hc.transaction
    obtain ⟨key, _, ⟨hnone, _⟩ | ⟨u, hu, rfl⟩⟩ := Connection.openSavepoint?_cases h
    · rw [hnone] at ht
      exact nomatch ht
    · obtain rfl : u = t := Option.some.inj (hu.symm.trans ht)
      exact ⟨hc.database, _, rfl, hsnapshot, hwriting, hbegun⟩
  rollbackTo hc h := by
    obtain ⟨t, ht, hsnapshot, hwriting, hbegun⟩ := hc.transaction
    obtain ⟨key, u, sp, outer, _, hu, _, rfl⟩ := Connection.rollbackTo?_cases h
    obtain rfl : u = t := Option.some.inj (hu.symm.trans ht)
    exact ⟨hc.database, _, rfl, hsnapshot, hwriting, hbegun⟩
  release hc h := by
    obtain ⟨t, ht, hsnapshot, hwriting, hbegun⟩ := hc.transaction
    obtain ⟨key, u, sp, outer, _, hu, _, hends⟩ := Connection.release?_cases h
    obtain rfl : u = t := Option.some.inj (hu.symm.trans ht)
    -- a transaction that was begun does not end with a savepoint
    obtain ⟨_, hopened, _⟩ | ⟨_, rfl⟩ := hends
    · rw [hbegun] at hopened
      exact nomatch hopened
    · exact ⟨hc.database, _, rfl, hsnapshot, hwriting, hbegun⟩
  request r now c hc := by
    rw [r.run_of_locked now hc.locked]
    exact hc
  deferForeignKeys {c} hc := by
    obtain ⟨t, ht, hsnapshot, hwriting, hbegun⟩ := hc.transaction
    rw [Connection.deferForeignKeys, ht]
    exact ⟨hc.database, _, rfl, hsnapshot, hwriting, hbegun⟩
  nested hc hbegin := by
    rw [Database.begin?_of_locked hc.locked] at hbegin
    exact nomatch hbegin

namespace Connection.Begun

variable {db : Database} {c : Connection}

/-- Giving up a transaction leaves the database as it was before. -/
theorem rollback_eq (hc : Connection.Begun db c) (hdb : db.locked = false) : c.rollback = db := by
  obtain ⟨t, ht, _, hwriting, _⟩ := hc.transaction
  unfold Connection.rollback
  rw [ht]
  simp only [Transaction.undoIn, hwriting, if_true, hc.database]
  rw [← hdb]

/-- A commit makes the working state the committed one and frees the
lock. -/
theorem of_commit? (hc : Connection.Begun db c) {after : Database} (h : c.commit? = some after) :
    after.committed = c.view ∧ after.locked = false := by
  obtain ⟨t, ht, hsnapshot, hwriting, _⟩ := hc.transaction
  obtain ⟨u, hu, _, rfl⟩ := Connection.commit?_eq_some_iff.mp h
  obtain rfl : u = t := Option.some.inj (hu.symm.trans ht)
  rw [Transaction.commitTo, hwriting, if_pos rfl, Connection.view, ht]
  exact ⟨congrArg Transaction.working (Transaction.settle_of_snapshot hsnapshot).symm, rfl⟩

end Connection.Begun

/-! ## How units of work end -/

/-- A scope as what a unit of work runs: its steps, and a verdict on what
came of them. -/
def Scope.within {α : Type} (body : Scope) (clock : Int) (verdict : Ran → Outcome α)
    (c : Connection) : Outcome α × Connection :=
  let ran := body.run ⟨c, clock⟩
  (verdict ran, ran.session.connection)

/-- A transaction of a session is such a unit of work. -/
theorem Scope.run_transaction (name : String) (body : Scope) (ending : Ending) (rest : Scope)
    {s : Session} (hs : s.connection.database.locked = false) :
    let db := s.connection.database
    let inner := body.run ⟨db.begun, s.clock⟩
    let ended := db.transact name (body.within s.clock fun ran => ending.outcome ran.stopped)
    (Scope.transaction name body ending rest).run s =
      Ran.behindScope inner.transcript ended.1
        (({ s with clock := inner.session.clock } : Session).withDatabase ended.2) rest.run := by
  simp only [Scope.run, Database.transact, Database.begin?_of_unlocked hs, Scope.within]

/-- A commit of this connection is accepted: references were looked at all
along, or they hold now. -/
def Connection.Accepted (c : Connection) : Prop :=
  ∃ t, c.transaction = some t ∧ (t.foreignKeys = .immediate ∨ t.working.References)

theorem Connection.isSome_commit?_iff {c : Connection} : c.commit?.isSome ↔ c.Accepted := by
  rw [Option.isSome_iff_exists]
  constructor
  · rintro ⟨db, h⟩
    obtain ⟨t, ht, hcan, _⟩ := Connection.commit?_eq_some_iff.mp h
    rw [Transaction.canCommit_iff, Store.referencesHold_iff] at hcan
    exact ⟨t, ht, hcan⟩
  · rintro ⟨t, ht, hcan⟩
    rw [← Store.referencesHold_iff, ← Transaction.canCommit_iff] at hcan
    exact ⟨_, Connection.commit?_eq_some_iff.mpr ⟨t, ht, hcan, rfl⟩⟩

namespace Database

/-- How the unit of work `operation` ends on a store when its scope has
ended on the connection `last`: from the outcome of the scope to what the
caller gets and what is committed afterwards. -/
inductive Ends {α : Type} (operation : String) (before : Store) (last : Connection) :
    Outcome α → Outcome α → Store → Prop where
  | committed (value : α) (accepted : last.Accepted) :
    Ends operation before last (.returned value) (.returned value) last.view
  | refused (value : α) (refused : ¬last.Accepted) :
    Ends operation before last (.returned value)
      (.failed (.internal "transaction commit failed" (some operation))) before
  | failed (e : Error) : Ends operation before last (.failed e) (.failed e) before
  | panicked (message : String) :
    Ends operation before last (.panicked message) (.panicked message) before
  | cancelled : Ends operation before last .cancelled .cancelled before

/-- Nothing of an earlier transaction is left: the next one begins on the
committed store, with no savepoint open and with references looked at
immediately, and it can commit. -/
structure StartsAnew (db : Database) : Prop where
  unlocked : db.locked = false
  begins : db.begin? = some db.begun
  commits : ∀ {β : Type} (operation : String) (value : β),
    db.transact operation (fun c => (.returned value, c)) = (.returned value, db)

theorem startsAnew_of_unlocked {db : Database} (h : db.locked = false) : db.StartsAnew where
  unlocked := h
  begins := begin?_of_unlocked h
  commits operation value := by
    rw [transact, begin?_of_unlocked h]
    cases db
    cases h
    rfl

/-- The end of a unit of work, by the outcome of its scope. -/
theorem finish_ends {α : Type} {db : Database} {last : Connection} (operation : String)
    (outcome : Outcome α) (hlast : Connection.Begun db last) (hdb : db.locked = false) :
    let ended := finish operation outcome last
    Ends operation db.committed last outcome ended.1 ended.2.committed ∧
      ended.2.locked = false := by
  have hback := hlast.rollback_eq hdb
  cases outcome with
  | returned value =>
      cases hcommit : last.commit? with
      | some after =>
          obtain ⟨hstore, hlocked⟩ := hlast.of_commit? hcommit
          have haccepted : last.Accepted := by
            rw [← Connection.isSome_commit?_iff, hcommit]
            rfl
          simp only [finish, hcommit, hstore]
          exact ⟨.committed value haccepted, hlocked⟩
      | none =>
          have hrefused : ¬last.Accepted := by
            rw [← Connection.isSome_commit?_iff, hcommit]
            exact Bool.false_ne_true
          simp only [finish, hcommit, hback]
          exact ⟨.refused value hrefused, hdb⟩
  | failed e =>
      simp only [finish, hback]
      exact ⟨.failed e, hdb⟩
  | panicked message =>
      simp only [finish, hback]
      exact ⟨.panicked message, hdb⟩
  | cancelled =>
      simp only [finish, hback]
      exact ⟨.cancelled, hdb⟩

/-- **All or nothing**: a unit of work commits what its scope has worked
out, or leaves the store from before; the caller gets the scope's own
outcome, or an error that names the operation if the commit is refused; and
in no case anything is left behind. -/
theorem transact_all_or_nothing {α : Type} (store : Store) (revision : Nat) (operation : String)
    (body : Scope) (clock : Int) (verdict : Ran → Outcome α) :
    let db : Database := ⟨store, revision, false⟩
    let ran := body.run ⟨db.begun, clock⟩
    let ended := db.transact operation (body.within clock verdict)
    Ends operation store ran.session.connection (verdict ran) ended.1 ended.2.committed ∧
      ended.2.StartsAnew := by
  intro db ran ended
  have hlast : Connection.Begun db ran.session.connection :=
    (Connection.begun_closed db).run body (Connection.begun_begun db)
  have hbegin : db.begin? = some db.begun := begin?_of_unlocked rfl
  have hended : ended = finish operation (verdict ran) ran.session.connection := by
    simp only [ended, transact, hbegin]
    rfl
  obtain ⟨hends, hlocked⟩ := finish_ends operation (verdict ran) hlast rfl
  rw [hended]
  exact ⟨hends, startsAnew_of_unlocked hlocked⟩

end Database

end ReviewRota
