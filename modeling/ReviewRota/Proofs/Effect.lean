import ReviewRota.Proofs.Savepoints

/-!
# ReviewRota.Proofs.Effect

What gateway attempts do to the store that they see, said without
connections.

The place where nothing gets in their way is a connection that may write and
that looks at references immediately (`Connection.Unhindered`): one without a
transaction while the lock is free, or one with a transaction that holds the
lock or can still take it.  There a gateway attempt does what an attempt on
stores says (`Gateway.Does`), wherever its transaction, if any, begins and
ends.

* `Connection.unhindered_stable` — no statement puts anything in the way;
* `Gateway.Does.bind`, `Gateway.Does.result`, `Gateway.Does.withinSavepoint` —
  what an attempt does is told by what its parts do;
* `Gateway.Composed.does` — what the attempts of the gateway do is their
  `Gateway.Composed.effect`.
-/

namespace ReviewRota

/-! ## Connections that may write -/

namespace Transaction

/-- The transaction has written nothing, nobody else has, and what it keeps
is the committed store. -/
structure Untouched (t : Transaction) (db : Database) : Prop where
  unlocked : db.locked = false
  current : ∀ revision, t.snapshot = some revision → revision = db.revision
  working : t.standsFor db t.working = db.committed
  saved : ∀ sp ∈ t.savepoints, t.standsFor db sp.saved = db.committed

/-- The next write of the transaction is accepted, and references are looked
at immediately. -/
structure Unhindered (t : Transaction) (db : Database) : Prop where
  held : t.begun = true ∨ t.savepoints ≠ []
  immediate : t.foreignKeys = .immediate
  writing : t.writing = true → t.snapshot.isSome
  untouched : t.writing = false → t.Untouched db

variable {t : Transaction} {db : Database}

namespace Unhindered

theorem mayWrite (h : t.Unhindered db) : (t.settle db).mayWrite db = true := by
  rw [Transaction.mayWrite, settle_writing]
  cases hwriting : t.writing with
  | true => rfl
  | false =>
      have huntouched := h.untouched hwriting
      have hcurrent : (t.settle db).snapshot = some db.revision := by
        unfold settle
        split
        · next revision hsnapshot => rw [hsnapshot, huntouched.current revision hsnapshot]
        · rfl
      simp [huntouched.unlocked, hcurrent]

/-- Taking the store changes nothing that counts. -/
theorem settle (h : t.Unhindered db) : (t.settle db).Unhindered db := by
  unfold Transaction.settle
  split
  · exact h
  · next hsnapshot =>
      refine ⟨h.held.imp_right (by simp), h.immediate, fun _ => rfl, fun hwriting => ?_⟩
      refine ⟨(h.untouched hwriting).unlocked, ?_, rfl, ?_⟩
      · simp
      · simp [standsFor]

/-- Whoever has written may go on. -/
theorem wrote (h : t.Unhindered db) (working : Store) (changed : Bool) (after : Database) :
    ({ t.settle db with
      working, changed, writing := true, foreignKeys := .immediate } : Transaction).Unhindered
        after := by
  obtain ⟨revision, hsnapshot⟩ := t.settle_snapshot db
  exact ⟨h.settle.held, rfl, fun _ => by simp [hsnapshot], fun hno => nomatch hno⟩

theorem opened (h : t.Unhindered db) (key : String) :
    ({ t with savepoints := ⟨key, t.working⟩ :: t.savepoints } : Transaction).Unhindered db where
  held := Or.inr (List.cons_ne_nil _ _)
  immediate := h.immediate
  writing := h.writing
  untouched hwriting := by
    have huntouched := h.untouched hwriting
    refine { huntouched with saved := fun sp hsp => ?_ }
    obtain rfl | hsp := List.mem_cons.mp hsp
    · exact huntouched.working
    · exact huntouched.saved sp hsp

theorem rolledBack (h : t.Unhindered db) {sp : Savepoint} (hsp : sp ∈ t.savepoints)
    {savepoints : List Savepoint} (hsub : ∀ other ∈ savepoints, other ∈ t.savepoints)
    (hheld : t.begun = true ∨ savepoints ≠ []) :
    ({ t with working := sp.saved, savepoints } : Transaction).Unhindered db where
  held := hheld
  immediate := h.immediate
  writing := h.writing
  untouched hwriting := by
    have huntouched := h.untouched hwriting
    exact { huntouched with
      working := huntouched.saved sp hsp
      saved := fun other hother => huntouched.saved other (hsub other hother) }

theorem released (h : t.Unhindered db) {savepoints : List Savepoint}
    (hsub : ∀ other ∈ savepoints, other ∈ t.savepoints)
    (hheld : t.begun = true ∨ savepoints ≠ []) :
    ({ t with savepoints } : Transaction).Unhindered db where
  held := hheld
  immediate := h.immediate
  writing := h.writing
  untouched hwriting := by
    have huntouched := h.untouched hwriting
    exact { huntouched with
      saved := fun other hother => huntouched.saved other (hsub other hother) }

theorem canCommit (h : t.Unhindered db) : t.canCommit = true :=
  canCommit_iff.mpr (Or.inl h.immediate)

/-- A commit makes permanent what the transaction sees. -/
theorem commitTo (h : t.Unhindered db) :
    (t.commitTo db).committed = t.standsFor db t.working ∧ (t.commitTo db).locked = false := by
  unfold Transaction.commitTo
  cases hwriting : t.writing with
  | true =>
      obtain ⟨revision, hsnapshot⟩ := Option.isSome_iff_exists.mp (h.writing hwriting)
      simp [Database.commit, standsFor, hsnapshot]
  | false =>
      have huntouched := h.untouched hwriting
      simp [huntouched.working, huntouched.unlocked]

/-- What is given up leaves the database free. -/
theorem undoIn_eq (h : t.Unhindered db) : t.undoIn db = { db with locked := false } := by
  unfold undoIn
  cases hwriting : t.writing with
  | true => rfl
  | false =>
      have hfree := (h.untouched hwriting).unlocked
      obtain ⟨committed, revision, locked⟩ := db
      subst hfree
      rfl

end Unhindered

end Transaction

namespace Connection

/-- Nothing keeps the connection from writing, and references are looked at
immediately. -/
inductive Unhindered : Connection → Prop where
  | alone {db : Database} (hfree : db.locked = false) : Unhindered db.connection
  | within {db : Database} {t : Transaction} (ht : t.Unhindered db) : Unhindered ⟨db, some t⟩

variable {c : Connection} {db : Database}

theorem Unhindered.transaction (hc : c.Unhindered) {t : Transaction}
    (ht : c.transaction = some t) : t.Unhindered c.database := by
  cases hc with
  | alone hfree => exact nomatch ht
  | within h => exact Option.some.inj ht ▸ h

theorem Unhindered.unlocked (hc : c.Unhindered) (hnone : c.transaction = none) :
    c.database.locked = false := by
  cases hc with
  | alone hfree => exact hfree
  | within h => exact nomatch hnone

theorem unhindered_begun (db : Database) : db.begun.Unhindered :=
  .within ⟨Or.inl rfl, rfl, fun _ => rfl, fun hno => nomatch hno⟩

/-- A statement that writes is carried out on its own. -/
theorem execute_alone {α : Type} (ch : Change α) (hfree : db.locked = false) :
    ∃ after : Database,
      db.connection.execute ch = ((ch.on .immediate db.committed).1, after.connection) ∧
        after.committed = (ch.on .immediate db.committed).2 ∧ after.locked = false := by
  have hrun : db.connection.execute ch =
      if !ch.ready db.committed then (.error .unclassified, db.connection)
      else ((executeAlone ch db).1, (executeAlone ch db).2.connection) := rfl
  rw [hrun, Change.on, executeAlone, hfree]
  cases hready : ch.ready db.committed with
  | false => exact ⟨db, rfl, rfl, hfree⟩
  | true =>
      cases happly : ch.apply .immediate db.committed with
      | error fault => exact ⟨db, rfl, rfl, hfree⟩
      | ok e => exact ⟨_, rfl, rfl, rfl⟩

/-- A statement that writes is carried out within a transaction. -/
theorem execute_within {α : Type} (ch : Change α) {t : Transaction} (ht : t.Unhindered db) :
    ∃ (after : Database) (u : Transaction),
      execute ch ⟨db, some t⟩ =
          ((ch.on .immediate (view ⟨db, some t⟩)).1, ⟨after, some u⟩) ∧
        view ⟨after, some u⟩ = (ch.on .immediate (view ⟨db, some t⟩)).2 ∧
        u.Unhindered after := by
  have hrun : execute ch ⟨db, some t⟩ =
      if !ch.ready (view ⟨db, some t⟩) then (.error .unclassified, ⟨db, some t⟩)
      else if (t.settle db).mayWrite db then
        ((executeWithin ch (t.settle db)).1,
          ⟨{ db with locked := true }, some (executeWithin ch (t.settle db)).2⟩)
      else (.error .unclassified, ⟨db, some t⟩) := rfl
  obtain ⟨revision, hsnapshot⟩ := t.settle_snapshot db
  have hview : (t.settle db).working = view ⟨db, some t⟩ := rfl
  rw [hrun, Change.on, ht.mayWrite, executeWithin, ht.settle.immediate, hview]
  cases hready : ch.ready (view ⟨db, some t⟩) with
  | false => exact ⟨db, t, rfl, rfl, ht⟩
  | true =>
      cases happly : ch.apply .immediate (view ⟨db, some t⟩) with
      | error fault =>
          refine ⟨_, _, rfl, ?_, ht.wrote _ _ _⟩
          rw [view_some, Transaction.standsFor, hsnapshot]
          rfl
      | ok e =>
          refine ⟨_, _, rfl, ?_, ht.wrote _ _ _⟩
          rw [view_some, Transaction.standsFor, hsnapshot]
          rfl

/-- Either way it does what it does to the store that is seen. -/
theorem Unhindered.execute {α : Type} (hc : c.Unhindered) (ch : Change α) :
    ∃ after, c.execute ch = ((ch.on .immediate c.view).1, after) ∧
      after.view = (ch.on .immediate c.view).2 ∧ after.Unhindered ∧
      (c.transaction = none → after.transaction = none) := by
  cases hc with
  | alone hfree =>
      obtain ⟨after, hrun, hstore, hafter⟩ := execute_alone ch hfree
      exact ⟨_, hrun, hstore, .alone hafter, fun _ => rfl⟩
  | within ht =>
      obtain ⟨after, u, hrun, hview, hu⟩ := execute_within ch ht
      exact ⟨_, hrun, hview, .within hu, fun hno => nomatch hno⟩

/-- No statement puts anything in the way. -/
theorem unhindered_stable : Stable Unhindered where
  query q c hc := by
    obtain h | h := query_cases q c
    · rw [h]
      exact hc
    · rw [h]
      cases hc with
      | alone hfree => exact .alone hfree
      | within ht => exact .within ht.settle
  execute {_ ch} _ c hc := by
    obtain ⟨after, hrun, _, hafter, _⟩ := hc.execute ch
    rw [hrun]
    exact hafter
  openSavepoint {name c after} hc h := by
    obtain ⟨key, _, ⟨hnone, rfl⟩ | ⟨t, ht, rfl⟩⟩ := openSavepoint?_cases h
    · have hfree := hc.unlocked hnone
      refine .within ⟨Or.inr (List.cons_ne_nil _ _), rfl, (fun hno => nomatch hno), fun _ => ?_⟩
      exact ⟨hfree, (fun _ hno => nomatch hno), rfl, fun _ _ => rfl⟩
    · exact .within ((hc.transaction ht).opened key)
  rollbackTo hc h := by
    obtain ⟨key, t, sp, outer, _, ht, hfrom, rfl⟩ := rollbackTo?_cases h
    have hsub : ∀ other ∈ sp :: outer, other ∈ t.savepoints := fun other hother =>
      mem_of_mem_savepointsFrom (hfrom ▸ hother)
    exact .within ((hc.transaction ht).rolledBack (hsub sp List.mem_cons_self) hsub
      (Or.inr (List.cons_ne_nil _ _)))
  release hc h := by
    obtain ⟨key, t, sp, outer, _, ht, hfrom, ⟨_, _, _, rfl⟩ | ⟨hstays, rfl⟩⟩ := release?_cases h
    · exact .alone (hc.transaction ht).commitTo.2
    · refine .within ((hc.transaction ht).released (fun other hother => ?_) ?_)
      · exact mem_of_mem_savepointsFrom (hfrom ▸ List.mem_cons_of_mem sp hother)
      · exact begun_or_of_stays hstays

/-- What reads changes nothing that is seen. -/
theorem view_query {α : Type} (q : Query α) (c : Connection) : (c.query q).2.view = c.view := by
  obtain h | h := query_cases q c
  · rw [h]
  · rw [h]
    obtain ⟨db, _ | t⟩ := c
    · rfl
    · obtain ⟨revision, hsnapshot⟩ := t.settle_snapshot db
      exact congrArg Transaction.working (Transaction.settle_of_snapshot hsnapshot)

/-- What nothing keeps from writing can commit what it sees. -/
theorem Unhindered.commit? (hc : c.Unhindered) (hopen : c.transaction.isSome) :
    ∃ after, c.commit? = some after ∧ after.committed = c.view ∧ after.locked = false := by
  cases hc with
  | alone hfree => exact nomatch hopen
  | within ht =>
      refine ⟨_, commit?_eq_some_iff.mpr ⟨_, rfl, ht.canCommit, rfl⟩, ?_, ht.commitTo.2⟩
      rw [view_some]
      exact ht.commitTo.1

/-- A transaction that a savepoint opened ends with it, and what is seen is
committed. -/
theorem Unhindered.release?_last (hc : c.Unhindered) {name : String} {sp : Savepoint}
    (hkey : savepointKey? name = some sp.key) (hstack : c.stack = [sp])
    (hbegun : c.transaction.map Transaction.begun = some false) :
    ∃ after, c.release? name = some (Database.connection after) ∧ after.committed = c.view ∧
      after.locked = false := by
  obtain ⟨t, rest, ht, _, hrelease⟩ := release?_of_stack hkey hstack
  have hopened : t.begun = false := by simpa [ht] using hbegun
  obtain ⟨after, hcommit, hview, hfree⟩ := hc.commit? (by simp [ht])
  rw [if_pos ⟨rfl, hopened⟩, hcommit] at hrelease
  exact ⟨after, hrelease, hview, hfree⟩

end Connection

namespace Connection.Unhindered

/-! ### Around a scope -/

variable {c opened last : Connection} {name key : String}

/-- Giving up a transaction that was begun leads back to the database from
before. -/
theorem rollback_eq {db : Database} (hlast : last.Unhindered) (h : db.begun.Continues last)
    (hfree : db.locked = false) : last.rollback = db := by
  cases hlast with
  | alone _ => exact nomatch h.begun
  | @within ended t ht =>
      have hended : ended = { db with locked := ended.locked } := h.database
      have hback : rollback ⟨ended, some t⟩ = { ended with locked := false } := ht.undoIn_eq
      rw [hback, hended]
      obtain ⟨committed, revision, locked⟩ := db
      subst hfree
      rfl

theorem openSavepoint?_of_key (hc : c.Unhindered) (hkey : savepointKey? name = some key) :
    ∃ opened, c.openSavepoint? name = some opened ∧ opened.view = c.view ∧ opened.Held := by
  cases hc with
  | @alone db hfree =>
      refine ⟨⟨db, some (openedBy key db)⟩, ?_, rfl, Stands.within ?_ rfl⟩
      · rw [openSavepoint?, hkey]
        rfl
      · exact Or.inr (List.cons_ne_nil _ _)
  | @within db t ht =>
      have hheld : Held ⟨db, some t⟩ := Stands.within ht.held rfl
      obtain ⟨opened, hopen, hview, _⟩ :=
        Connection.openSavepoint?_of_key (c := ⟨db, some t⟩) hkey rfl
      exact ⟨opened, hopen, hview, held_of_openSavepoint? hkey hheld hopen⟩

/-- Where a savepoint opened the transaction, closing it ends the
transaction. -/
theorem closeSavepoint_alone {db : Database} (hname : readSavepoint? name = some (key, false))
    (hopen : db.connection.openSavepoint? name = some opened) (hlast : opened.Continues last)
    (hfree : last.Unhindered) {α : Type} (r : Except Error α) :
    ∃ after : Database, Gateway.closeSavepoint name r last = (r, after.connection) ∧
      after.committed = Gateway.viewAfter db.connection r last := by
  have hkey := Gateway.savepointKey?_of_read hname
  obtain rfl : ⟨db, some (openedBy key db)⟩ = opened := by
    rw [openSavepoint?, hkey] at hopen
    exact Option.some.inj hopen
  have hstack : last.stack = [⟨key, db.committed⟩] := hlast.stack
  have hbegun : last.transaction.map Transaction.begun = some false := hlast.begun
  cases r with
  | ok a =>
      obtain ⟨after, hrelease, hview, _⟩ := hfree.release?_last hkey hstack hbegun
      refine ⟨after, ?_, hview⟩
      simp only [Gateway.closeSavepoint, hrelease, Gateway.unlessFollowed_of_read hname]
  | error e =>
      obtain ⟨t, saved, ht, hsaved, hback⟩ := rollbackTo?_of_stack hkey hstack
      have hmiddle := unhindered_stable.rollbackTo hfree hback
      obtain ⟨database, _⟩ := last
      subst ht
      obtain ⟨after, hrelease, hview, _⟩ := hmiddle.release?_last hkey hstack hbegun
      refine ⟨after, ?_, hview.trans ?_⟩
      · simp only [Gateway.closeSavepoint, hback, hrelease, Option.getD_some]
      · exact view_some.trans hsaved

/-- Closing the savepoint of a scope passes its answer on, and undoes what a
scope has written that failed. -/
theorem closeSavepoint (hc : c.Unhindered) (hname : readSavepoint? name = some (key, false))
    (hopen : c.openSavepoint? name = some opened) (hlast : opened.Continues last)
    (hfree : last.Unhindered) {α : Type} (r : Except Error α) :
    ∃ after, Gateway.closeSavepoint name r last = (r, after) ∧
      after.view = Gateway.viewAfter c r last ∧
      (c.transaction = none → after.transaction = none) := by
  cases hc with
  | alone _ =>
      obtain ⟨after, hclose, hstore⟩ := closeSavepoint_alone hname hopen hlast hfree r
      exact ⟨after.connection, hclose, hstore, fun _ => rfl⟩
  | @within db t ht =>
      have hheld : Held ⟨db, some t⟩ := Stands.within ht.held rfl
      obtain ⟨after, hclose, _, hview⟩ :=
        Gateway.closeSavepoint_of_continues hname hheld hopen hlast r
      exact ⟨after, hclose, hview, fun hno => nomatch hno⟩

end Connection.Unhindered

/-! ## Attempts on stores -/

namespace Attempt

variable {σ α : Type}

/-- The attempt with what it did undone if it fails. -/
def reverting (f : Attempt σ α) : Attempt σ α := fun s =>
  match f s with
  | (.ok a, after) => (.ok a, after)
  | (.error e, _) => (.error e, s)

end Attempt

namespace Store

/-- What a statement that reads is on stores. -/
def reading {α : Type} (operation id : String) (q : Query α) : Attempt Store α := fun s =>
  (if q.ready s then .ok (q.answer s) else .error (.storage operation id), s)

/-- What a statement that writes is on stores. -/
def writing {α : Type} (operation id : String) (meaning : Constraint → Option Error)
    (ch : Change α) : Attempt Store α := fun s =>
  ((ch.on .immediate s).1.mapError (·.toError operation id meaning), (ch.on .immediate s).2)

end Store

namespace Gateway

open Connection

variable {α β : Type}

/-- Where nothing is in the way, the attempt does to the store that is seen
what `f` says; it ends what it opens, and a connection without a transaction
is left without one. -/
structure Does (g : Gateway α) (f : Attempt Store α) : Prop where
  balanced : Balanced g
  run : ∀ {c : Connection}, c.Unhindered → ∃ after, g c = ((f c.view).1, after) ∧
    after.view = (f c.view).2 ∧ after.Unhindered ∧
    (c.transaction = none → after.transaction = none)

namespace Does

theorem ofExcept (r : Except Error α) : Does (Attempt.ofExcept r) (Attempt.ofExcept r) where
  balanced := .ofExcept r
  run hc := ⟨_, rfl, rfl, hc, fun hnone => hnone⟩

theorem read (operation id : String) (q : Query α) :
    Does (read operation id q) (Store.reading operation id q) where
  balanced := .read operation id q
  run {c} hc := by
    refine ⟨(c.query q).2, ?_, view_query q c, unhindered_stable.query q hc, fun hnone => ?_⟩
    · unfold Gateway.read Store.reading query
      by_cases hready : q.ready c.view = true
      · rw [if_pos hready, if_pos hready]
      · rw [if_neg hready, if_neg hready]
    · obtain h | h := query_cases q c
      · rw [h]
        exact hnone
      · rw [h, hnone]
        rfl

theorem write (operation id : String) (meaning : Constraint → Option Error) (ch : Change α) :
    Does (write operation id meaning ch) (Store.writing operation id meaning ch) where
  balanced := .write operation id meaning ch
  run {c} hc := by
    obtain ⟨after, hrun, hrest⟩ := hc.execute ch
    refine ⟨after, ?_, hrest⟩
    rw [Gateway.write, hrun, Store.writing]
    cases (ch.on .immediate c.view).1 <;> rfl

theorem bind {g : Gateway α} {f : Attempt Store α} {next : α → Gateway β}
    {fnext : α → Attempt Store β} (hg : Does g f) (hnext : ∀ a, Does (next a) (fnext a)) :
    Does (g >>= next) (f >>= fnext) where
  balanced := hg.balanced.bind fun a => (hnext a).balanced
  run {c} hc := by
    obtain ⟨middle, hrun, hview, hmiddle, halone⟩ := hg.run hc
    rw [Attempt.bind_run, Attempt.bind_run, hrun]
    cases hfirst : f c.view with
    | mk result store =>
        rw [hfirst] at hview
        cases result with
        | error e => exact ⟨middle, rfl, hview, hmiddle, halone⟩
        | ok a =>
            obtain ⟨after, hrest, hlast, hafter, halone'⟩ := (hnext a).run hmiddle
            rw [hview] at hrest hlast
            exact ⟨after, hrest, hlast, hafter, fun hnone => halone' (halone hnone)⟩

theorem result {g : Gateway α} {f : Attempt Store α} (hg : Does g f) :
    Does g.result f.result where
  balanced := hg.balanced.result
  run {c} hc := by
    obtain ⟨after, hrun, hrest⟩ := hg.run hc
    refine ⟨after, ?_, hrest⟩
    rw [Attempt.result, hrun]
    rfl

/-- A savepoint makes an attempt all or nothing, whether it opens a
transaction or joins one. -/
theorem withinSavepoint {name key : String} (hname : readSavepoint? name = some (key, false))
    {g : Gateway α} {f : Attempt Store α} (hg : Does g f) :
    Does (withinSavepoint name g) f.reverting where
  balanced := hg.balanced.withinSavepoint (by rw [isFollowed, hname, Option.any_some])
  run {c} hc := by
    have hkey := savepointKey?_of_read hname
    obtain ⟨opened, hopen, hview, hheld⟩ := hc.openSavepoint?_of_key hkey
    have hopened := unhindered_stable.openSavepoint hc hopen
    obtain ⟨last, hrun, hlast, hfree, _⟩ := hg.run hopened
    have hcontinues := hg.balanced opened hheld
    rw [hrun] at hcontinues
    rw [hview] at hrun hlast
    obtain ⟨after, hclose, hafter, halone⟩ :=
      hc.closeSavepoint hname hopen hcontinues hfree (f c.view).1
    refine ⟨after, ?_, ?_, ?_, halone⟩
    · rw [withinSavepoint_of_open hname hopen, hrun, hclose, Attempt.reverting]
      cases f c.view with
      | mk result store => cases result <;> rfl
    · rw [hafter, Attempt.reverting]
      cases hresult : f c.view with
      | mk result store =>
          rw [hresult] at hlast
          cases result with
          | ok a => exact hlast
          | error e => rfl
    · have hkept := keeps_closeSavepoint unhindered_stable name (f c.view).1 last hfree
      rwa [hclose] at hkept

end Does

/-- What an attempt is on stores. -/
def Composed.effect : {α : Type} → {g : Gateway α} → Composed g → Attempt Store α
  | _, _, .pure a => Pure.pure a
  | _, _, .fail e => Attempt.fail e
  | _, _, .read operation id q => Store.reading operation id q
  | _, _, @write _ operation id meaning ch _ => Store.writing operation id meaning ch
  | _, _, .bind hg hnext => hg.effect >>= fun a => (hnext a).effect
  | _, _, .withinSavepoint _ hscope => hscope.effect.reverting

/-- **The gateway on stores**: where nothing is in the way, a gateway attempt
does what it does on stores, on whatever connection it runs. -/
theorem Composed.does {g : Gateway α} (hg : Composed g) : Does g hg.effect := by
  induction hg with
  | pure a => exact .ofExcept (.ok a)
  | fail e => exact .ofExcept (.error e)
  | read operation id q => exact .read operation id q
  | write operation id meaning hch => exact .write operation id meaning _
  | bind hg hnext ihg ihnext => exact ihg.bind ihnext
  | withinSavepoint hname hscope ih => exact ih.withinSavepoint hname

end Gateway

end ReviewRota
