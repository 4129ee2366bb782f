import ReviewRota.Proofs.Operations

/-!
# ReviewRota.Proofs.Failures

Storage failures.  A table that is out of service, a lock in other hands and
a violated constraint are part of every run already; beyond that any single
statement may fail at any time, and so may opening, rolling back and
releasing a savepoint, taking a connection, and beginning and committing a
transaction.

`Gateway.Composed.Runs` and `Service.Composed.Runs` are all runs of an
attempt in which any of its statements may fail.  The run in which none does
is one of them (`Service.Composed.runs_self`).  Whatever fails, a
transaction stays what it is until it ends (`Gateway.Composed.Runs.keeps`), so
that the end of the unit of work around it decides alone:

* `Request.error_reverts` — a request that answers an error has changed
  nothing, and one that only reads never does.
-/

namespace ReviewRota

/-! ## Runs with failures -/

/-- A statement on a connection that is carried out, or fails and leaves the
connection as it is. -/
def Connection.Tries (statement : Connection → Option Connection) (c after : Connection) : Prop :=
  after = c ∨ statement c = some after

namespace Gateway

/-- Closing a savepoint in which a scope has ended with a result: from the
connection to what is answered and the connection afterwards. -/
inductive Closes {α : Type} (name : String) :
    Except Error α → Connection → Except Error α → Connection → Prop where
  | released {a : α} {c after : Connection} (h : c.release? name = some after) :
    Closes name (.ok a) c (unlessFollowed name "release savepoint" a) after
  | notReleased {a : α} {c : Connection} :
    Closes name (.ok a) c (.error (.storage name "release savepoint")) c
  | undone {e : Error} {c middle after : Connection} (hback : c.Tries (·.rollbackTo? name) middle)
      (hrelease : middle.Tries (·.release? name) after) :
    Closes name (.error e) c (.error e) after

/-- The runs of an attempt in which any of its statements may fail: from the
connection to what is answered and the connection afterwards. -/
def Composed.Runs : {α : Type} → {g : Gateway α} → Composed g → Connection → Except Error α →
    Connection → Prop
  | _, _, .pure a, c, r, after => r = .ok a ∧ after = c
  | _, _, .fail e, c, r, after => r = .error e ∧ after = c
  | _, _, .read operation id q, c, r, after =>
    (r, after) = Gateway.read operation id q c ∨ r = .error (.storage operation id) ∧ after = c
  | _, _, @Composed.write _ operation id meaning ch _, c, r, after =>
    (r, after) = Gateway.write operation id meaning ch c ∨
      ∃ fault : Fault, r = .error (fault.toError operation id meaning) ∧ after = c
  | _, _, .bind hg hnext, c, r, after =>
    (∃ e, hg.Runs c (.error e) after ∧ r = .error e) ∨
      ∃ a middle, hg.Runs c (.ok a) middle ∧ (hnext a).Runs middle r after
  | _, _, @Composed.withinSavepoint _ name _ _ _ hscope, c, r, after =>
    r = .error (.storage name "savepoint") ∧ after = c ∨
      ∃ opened result last, c.openSavepoint? name = some opened ∧
        hscope.Runs opened result last ∧ Closes name result last r after

section Runs

variable {α : Type} {g : Gateway α}

theorem closes_closeSavepoint (name : String) (result : Except Error α) (c : Connection) :
    Closes name result c (closeSavepoint name result c).1 (closeSavepoint name result c).2 := by
  cases result with
  | ok a =>
      unfold closeSavepoint
      cases hrelease : c.release? name with
      | none => exact .notReleased
      | some after => exact .released hrelease
  | error e =>
      have htries (statement : Connection → Option Connection) (d : Connection) :
          d.Tries statement ((statement d).getD d) := by
        unfold Connection.Tries
        cases statement d with
        | none => exact Or.inl rfl
        | some after => exact Or.inr rfl
      exact .undone (htries _ c) (htries _ _)

/-- The run in which nothing fails beyond what the connection makes fail is
one of the runs. -/
theorem Composed.runs_self (hg : Composed g) (c : Connection) : hg.Runs c (g c).1 (g c).2 := by
  induction hg generalizing c with
  | pure a => exact ⟨rfl, rfl⟩
  | fail e => exact ⟨rfl, rfl⟩
  | read operation id q => exact Or.inl rfl
  | write operation id meaning hch => exact Or.inl rfl
  | @bind _ _ g next hg hnext ihg ihnext =>
      have hfirst := ihg c
      rw [Attempt.bind_run]
      cases hrun : g c with
      | mk result middle =>
          rw [hrun] at hfirst
          cases result with
          | error e => exact Or.inl ⟨e, hfirst, rfl⟩
          | ok a => exact Or.inr ⟨a, middle, hfirst, ihnext a middle⟩
  | @withinSavepoint _ name key scope hname hscope ih =>
      have hkey := savepointKey?_of_read hname
      obtain ⟨opened, hopen⟩ : ∃ opened, c.openSavepoint? name = some opened := by
        rw [Connection.openSavepoint?, hkey]
        exact ⟨_, rfl⟩
      have hopened : openSavepoint name c = (.ok (), opened) := by
        simp only [openSavepoint, hopen, unlessFollowed_of_read hname]
      have hrun : Gateway.withinSavepoint name scope c =
          closeSavepoint name (scope opened).1 (scope opened).2 := by
        rw [Gateway.withinSavepoint, Attempt.bind_run, hopened]
        simp only [Attempt.bind_run, Attempt.result]
      rw [hrun]
      exact Or.inr ⟨opened, _, _, hopen, ih opened, closes_closeSavepoint name _ _⟩

section Keeps

variable {I : Connection → Prop} (hI : Connection.Stable I)

include hI

theorem Closes.keeps {name : String} {result r : Except Error α} {c after : Connection}
    (h : Closes name result c r after) (hc : I c) : I after := by
  cases h with
  | released hrelease => exact hI.release hc hrelease
  | notReleased => exact hc
  | @undone _ _ middle _ hback hrelease =>
      have hmiddle : I middle := by
        obtain rfl | hback := hback
        · exact hc
        · exact hI.rollbackTo hc hback
      obtain rfl | hrelease := hrelease
      · exact hmiddle
      · exact hI.release hmiddle hrelease

/-- **Invariants**: whatever fails, what no statement ends no run ends. -/
theorem Composed.Runs.keeps {hg : Composed g} {c after : Connection} {r : Except Error α}
    (h : hg.Runs c r after) (hc : I c) : I after := by
  induction hg generalizing c after with
  | pure a => exact h.2 ▸ hc
  | fail e => exact h.2 ▸ hc
  | read operation id q =>
      obtain h | ⟨_, rfl⟩ := h
      · have hkept := (Composed.read operation id q).keeps hI c hc
        rw [← h] at hkept
        exact hkept
      · exact hc
  | write operation id meaning hch =>
      obtain h | ⟨_, _, rfl⟩ := h
      · have hkept := (Composed.write operation id meaning hch).keeps hI c hc
        rw [← h] at hkept
        exact hkept
      · exact hc
  | bind hg hnext ihg ihnext =>
      obtain ⟨e, hfirst, _⟩ | ⟨a, middle, hfirst, hrest⟩ := h
      · exact ihg hfirst hc
      · exact ihnext a hrest (ihg hfirst hc)
  | withinSavepoint hname hscope ih =>
      obtain ⟨_, rfl⟩ | ⟨opened, result, last, hopen, hinside, hcloses⟩ := h
      · exact hc
      · have hopened := hI.openSavepoint hc hopen
        exact hcloses.keeps hI (ih hinside hopened)

end Keeps

/-- What only reads changes nothing on a connection without a transaction,
whatever fails. -/
theorem Composed.ReadOnly.unchanged {hg : Composed g} (hread : hg.ReadOnly) {db : Database}
    {c : Connection} {r : Except Error α} (h : hg.Runs db.connection r c) :
    c = db.connection := by
  induction hg generalizing c with
  | pure a => exact h.2
  | fail e => exact h.2
  | read operation id q =>
      obtain h | ⟨_, rfl⟩ := h
      · obtain ⟨answer, hrun⟩ := hread.run db.committed
        rw [hrun db rfl] at h
        exact congrArg Prod.snd h
      · rfl
  | write operation id meaning hch => exact hread.elim
  | bind hg hnext ihg ihnext =>
      obtain ⟨e, hfirst, _⟩ | ⟨a, middle, hfirst, hrest⟩ := h
      · exact ihg hread.1 hfirst
      · rw [ihg hread.1 hfirst] at hrest
        exact ihnext a (hread.2 a) hrest
  | withinSavepoint hname hscope ih => exact hread.elim

/-- A write on a connection of its own fails and changes nothing, or
commits, whatever fails. -/
theorem Composed.runs_write_connection_cases {operation id : String}
    {meaning : Constraint → Option Error} {ch : Change α} (hch : ch.Sound) {db : Database}
    {r : Except Error α} {c : Connection}
    (h : (Composed.write operation id meaning hch).Runs db.connection r c) :
    (∃ e, r = .error e ∧ c = db.connection) ∨
      ∃ effect, db.locked = false ∧ ch.apply .immediate db.committed = .ok effect ∧
        r = .ok effect.value ∧ c = (db.commit effect.store (0 < effect.rows)).connection := by
  obtain h | ⟨_, rfl, rfl⟩ := h
  · obtain ⟨e, hrun⟩ | ⟨effect, hfree, happly, hrun⟩ :=
      write_connection_cases operation id meaning ch db
    · obtain ⟨rfl, rfl⟩ := Prod.mk.inj (h.trans hrun)
      exact Or.inl ⟨e, rfl, rfl⟩
    · obtain ⟨rfl, rfl⟩ := Prod.mk.inj (h.trans hrun)
      exact Or.inr ⟨effect, hfree, happly, rfl, rfl⟩
  · exact Or.inl ⟨_, rfl, rfl⟩

end Runs

end Gateway

namespace Service

/-- The end of the transaction of `operation` when its scope has ended with a
result: from the connection to what is answered and the database afterwards.
A transaction that cannot be rolled back is given up with its
connection. -/
inductive Finishes {α : Type} (operation : String) :
    Except Error α → Connection → Except Error α → Database → Prop where
  | committed {a : α} {c : Connection} {after : Database} (h : c.commit? = some after) :
    Finishes operation (.ok a) c (.ok a) after
  | refused {a : α} {c : Connection} :
    Finishes operation (.ok a) c (.error (.commitFailed operation)) c.rollback
  | undone {e : Error} {c : Connection} : Finishes operation (.error e) c (.error e) c.rollback

/-- The runs of a request in which any of its statements may fail: from the
database to what is answered and the database afterwards. -/
def Composed.Runs : {α : Type} → {service : Service α} → Composed service → Database →
    Except Error α → Database → Prop
  | _, _, .pure a, db, r, after => r = .ok a ∧ after = db
  | _, _, .ofExcept known, db, r, after => r = known ∧ after = db
  | _, _, .direct hcall, db, r, after =>
    r = .error .storeFailed ∧ after = db ∨
      ∃ c, hcall.Runs db.connection r c ∧ after = c.database
  | _, _, .unitOfWork operation hscope, db, r, after =>
    (∃ step, r = .error (.storage operation step) ∧ after = db) ∨
      ∃ begun result last, db.begin? = some begun ∧ hscope.Runs begun result last ∧
        Finishes operation result last r after
  | _, _, .bind hs hnext, db, r, after =>
    (∃ e, hs.Runs db (.error e) after ∧ r = .error e) ∨
      ∃ a middle, hs.Runs db (.ok a) middle ∧ (hnext a).Runs middle r after

variable {α β : Type} {service : Service α}

/-- The run in which nothing fails beyond what the database makes fail is one
of the runs. -/
theorem Composed.runs_self (hs : Composed service) (db : Database) :
    hs.Runs db (service db).1 (service db).2 := by
  induction hs generalizing db with
  | pure a => exact ⟨rfl, rfl⟩
  | ofExcept r => exact ⟨rfl, rfl⟩
  | direct hcall => exact Or.inr ⟨_, hcall.runs_self db.connection, rfl⟩
  | @unitOfWork _ operation scope hscope =>
      unfold Service.unitOfWork
      cases hbegin : db.begin? with
      | none => exact Or.inl ⟨"begin", rfl, rfl⟩
      | some begun =>
          have hinside := hscope.runs_self begun
          cases hrun : scope begun with
          | mk result last =>
              rw [hrun] at hinside
              refine Or.inr ⟨begun, result, last, hbegin, hinside, ?_⟩
              simp only [hrun]
              cases result with
              | error e => exact .undone
              | ok a =>
                  cases hcommit : last.commit? with
                  | none =>
                      simp only [hcommit]
                      exact .refused
                  | some after =>
                      simp only [hcommit]
                      exact .committed hcommit
  | @bind _ _ first next hs hnext ihs ihnext =>
      have hfirst := ihs db
      rw [Attempt.bind_run]
      cases hrun : first db with
      | mk result middle =>
          rw [hrun] at hfirst
          cases result with
          | error e => exact Or.inl ⟨e, hfirst, rfl⟩
          | ok a => exact Or.inr ⟨a, middle, hfirst, ihnext a middle⟩

/-- What only reads changes nothing, whatever fails. -/
theorem Composed.ReadOnly.unchanged {hs : Composed service} (hread : hs.ReadOnly)
    {db after : Database} {r : Except Error α} (h : hs.Runs db r after) : after = db := by
  induction hs generalizing db after with
  | pure a => exact h.2
  | ofExcept known => exact h.2
  | direct hcall =>
      obtain ⟨_, rfl⟩ | ⟨c, hcalled, rfl⟩ := h
      · rfl
      · rw [Gateway.Composed.ReadOnly.unchanged hread hcalled]
        rfl
  | unitOfWork operation hscope => exact hread.elim
  | bind hs hnext ihs ihnext =>
      obtain ⟨e, hfirst, _⟩ | ⟨a, middle, hfirst, hrest⟩ := h
      · exact ihs hread.1 hfirst
      · rw [ihs hread.1 hfirst] at hrest
        exact ihnext a (hread.2 a) hrest

/-! ## Errors that leave no trace -/

/-- Whatever fails, a run that ends with an error has changed nothing. -/
def Composed.Reverts (hs : Composed service) : Prop :=
  ∀ (db after : Database) (e : Error), hs.Runs db (.error e) after → after = db

theorem Composed.ReadOnly.reverts {hs : Composed service} (hread : hs.ReadOnly) : hs.Reverts :=
  fun _ _ _ h => hread.unchanged h

/-- Giving the answer another form cannot fail. -/
theorem Composed.Reverts.map {hs : Composed service} (h : hs.Reverts) (f : α → β) :
    (Composed.bind hs fun a => .pure (f a)).Reverts := by
  rintro db after e (⟨_, hfirst, _⟩ | ⟨a, middle, _, hanswer, _⟩)
  · exact h _ _ _ hfirst
  · exact nomatch hanswer

/-- A guard changes nothing. -/
theorem Composed.Reverts.guarded {hs : Composed service} (h : hs.Reverts)
    (guard : Except Error Unit) : (Composed.guarded guard hs).Reverts := by
  rintro db after e (⟨_, ⟨_, rfl⟩, _⟩ | ⟨_, middle, ⟨_, rfl⟩, hrest⟩)
  · rfl
  · exact h _ _ _ hrest

/-- A unit of work that ends with an error is rolled back, wherever in its
scope the error came from. -/
theorem Composed.reverts_unitOfWork (operation : String) {scope : Gateway α}
    (hscope : Gateway.Composed scope) : (Composed.unitOfWork operation hscope).Reverts := by
  rintro db after e (⟨_, _, rfl⟩ | ⟨begun, result, last, hbegin, hinside, hfinish⟩)
  · rfl
  · obtain ⟨hfree, rfl⟩ := Database.begin?_eq_some_iff.mp hbegin
    have hlast : Connection.Begun db last :=
      hinside.keeps (Connection.begun_closed db).toStable (Connection.begun_begun db)
    have hback : last.rollback = db := hlast.rollback_eq hfree
    cases hfinish with
    | refused => exact hback
    | undone => exact hback

/-- Setting the active flag is a single statement: nobody is found by it, or
it commits on its own. -/
theorem reverts_composedSetActive (id : String) (active : Bool) :
    (composedSetActive id active).Reverts := by
  rintro db after e (⟨_, rfl⟩ | ⟨c, hcalled, rfl⟩)
  · rfl
  · obtain ⟨_, hwrite, _⟩ | ⟨found, middle, hwrite, hfound⟩ := hcalled
    · obtain ⟨_, _, rfl⟩ | ⟨_, _, _, hvalue, _⟩ :=
        Gateway.Composed.runs_write_connection_cases _ hwrite
      · rfl
      · exact nomatch hvalue
    · cases found with
      | some u => exact nomatch hfound.1
      | none =>
          obtain ⟨_, hvalue, _⟩ | ⟨effect, hfree, happly, hvalue, rfl⟩ :=
            Gateway.Composed.runs_write_connection_cases _ hwrite
          · exact nomatch hvalue
          · -- nobody was found, so nothing was written
            obtain ⟨_, rfl⟩ | ⟨u, _, rfl⟩ :=
              Statement.Users.setActive_apply_eq_ok_iff.mp happly
            · rw [hfound.2]
              exact Database.commit_nothing hfree
            · exact nomatch hvalue

theorem reverts_composedOperation (now : Int) (o : Operation) :
    (composedOperation now o).Reverts := by
  have reads (h : o.writes = false) : (composedOperation now o).Reverts :=
    (readOnly_composedOperation now h).reverts
  cases o with
  | create id title author draw => exact (Composed.reverts_unitOfWork _ _).map _
  | reassign id old draw => exact (Composed.reverts_unitOfWork _ _).map _
  | merge id => exact (Composed.reverts_unitOfWork _ _).map _
  | createTeam name members => exact (Composed.reverts_unitOfWork _ _).map _
  | setActive id active => exact (reverts_composedSetActive id active).map _
  | pullRequest id => exact reads rfl
  | team name => exact reads rfl
  | user id => exact reads rfl
  | reviewsOf id => exact reads rfl
  | userLoads => exact reads rfl
  | reviewerCounts => exact reads rfl

theorem reverts_composedSubmission (now : Int) (s : Submission) :
    (composedSubmission now s).Reverts := by
  have reads (h : (Request.submission s).writes = false) : (composedSubmission now s).Reverts :=
    (readOnly_composedRequest now h).reverts
  cases s with
  | create caller r draw => exact ((Composed.reverts_unitOfWork _ _).guarded _).map _
  | reassign caller r draw => exact ((Composed.reverts_unitOfWork _ _).guarded _).map _
  | merge caller r => exact ((Composed.reverts_unitOfWork _ _).guarded _).map _
  | addTeam r => exact ((Composed.reverts_unitOfWork _ _).guarded _).map _
  | setActive caller r => exact ((reverts_composedSetActive r.user r.active).guarded _).map _
  | team name => exact reads rfl
  | userReviews caller user => exact reads rfl
  | workload => exact reads rfl

/-- Whatever fails, a request that ends with an error has changed nothing. -/
theorem reverts_composedRequest (now : Int) (r : Request) : (composedRequest now r).Reverts := by
  cases r with
  | operation o => exact reverts_composedOperation now o
  | submission s => exact reverts_composedSubmission now s

end Service

/-- **All or nothing**: a request that answers an error has left the database
as it was, and one that only reads does so whatever it answers.  This holds
of what the request does on any database, with any tables out of service and
the lock free or taken, and of every run in which any of its statements
fails besides. -/
theorem Request.error_reverts (now : Int) (r : Request) (db : Database) :
    (Service.composedRequest now r).Runs db (r.run now db).1 (r.run now db).2 ∧
    ∀ result after, (Service.composedRequest now r).Runs db result after →
      ((∃ e, result = .error e) → after = db) ∧ (r.writes = false → after = db) := by
  refine ⟨Service.Composed.runs_self _ db, fun result after hrun => ⟨?_, fun hreads => ?_⟩⟩
  · rintro ⟨e, rfl⟩
    exact Service.reverts_composedRequest now r _ _ _ hrun
  · exact (Service.readOnly_composedRequest now hreads).unchanged hrun

/-- The commit of a new team is refused when the whole team is written, and
everything is given up; a lookup whose first statement fails leaves the
database alone. -/
theorem Request.error_reverts_refused :
    let db : Database := ⟨{ users := [⟨"ann", "Ann", none, true⟩] }, 3, false⟩
    let create : Request := .operation (.createTeam "core" [⟨"ann", "Ann", true⟩])
    let written : Connection := (Staffing.createTeamScope "core" [⟨"ann", "Ann", true⟩] 5 db.begun).2
    let look : Request := .operation (.team "core")
    (written.view.users = [⟨"ann", "Ann", some "core", true⟩] ∧
      (Service.composedRequest 5 create).Runs db (.error (.commitFailed "create_team"))
        written.rollback ∧ written.rollback = db) ∧
    ((Service.composedRequest 5 look).Runs db (.error (.storage "teams.get_by_name" "core"))
        db.connection.database ∧ look.writes = false ∧ db.connection.database = db) := by
  intro db create written look
  have hcreate : (Service.composedRequest 5 create).Runs db (.error (.commitFailed "create_team"))
      written.rollback := by
    let team : Team := ⟨"core", [⟨"ann", "Ann", some "core", true⟩]⟩
    have hscope : (Staffing.createTeamScope "core" [⟨"ann", "Ann", true⟩] 5 db.begun).1 =
        .ok team := rfl
    have hinside := (Gateway.composedCreateTeamScope "core" [⟨"ann", "Ann", true⟩] 5).runs_self
      db.begun
    rw [hscope] at hinside
    exact Or.inl ⟨_, Or.inr ⟨db.begun, .ok team, written, rfl, hinside, .refused⟩, rfl⟩
  have hlook : (Service.composedRequest 5 look).Runs db
      (.error (.storage "teams.get_by_name" "core")) db.connection.database := by
    -- the lookup fails at its first statement
    have hstatement : (Gateway.Teams.composedGet "core").Runs db.connection
        (.error (.storage "teams.get_by_name" "core")) db.connection :=
      Or.inl ⟨_, Or.inr ⟨rfl, rfl⟩, rfl⟩
    exact Or.inl ⟨_, Or.inl ⟨_, Or.inr ⟨db.connection, hstatement, rfl⟩, rfl⟩, rfl⟩
  have hrefused := ((Request.error_reverts 5 create db).2 _ _ hcreate).1 ⟨_, rfl⟩
  have hfailed := ((Request.error_reverts 5 look db).2 _ _ hlook).2 rfl
  exact ⟨⟨rfl, hcreate, hrefused⟩, hlook, rfl, hfailed⟩

end ReviewRota
