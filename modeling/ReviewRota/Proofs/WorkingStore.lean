import ReviewRota.Proofs.UnitOfWork

/-!
# ReviewRota.Proofs.WorkingStore

Gateway attempts inside a transaction that was begun, seen as what they do
to its working store.

Such a transaction keeps its lock, its database and its savepoints while an
attempt runs (`Gateway.Composed.run_working`), so an attempt can be spoken
of by three things: the working store it starts from, its result, and the
working store it leaves behind.  This is `Gateway.Leads`.  What a scope does
when it succeeds is read off its text with one lemma for each kind of step:

* `Gateway.leads_read_iff`, `Gateway.leads_write_iff` — single statements;
* `Gateway.Composed.of_leads_bind` — steps in sequence;
* `Gateway.Composed.of_leads_withinSavepoint` — a savepoint around a scope;
* `Service.unitOfWork_cases` — the unit of work around all of them.
-/

namespace ReviewRota

/-! ## Connections at a working store -/

/-- A connection in a transaction that was begun on a database. -/
def Connection.working (db : Database) (fks : ForeignKeys) (savepoints : List Savepoint)
    (changed : Bool) (s : Store) : Connection where
  database := { db with locked := true }
  transaction := some {
    working := s
    savepoints := savepoints
    foreignKeys := fks
    snapshot := some db.revision
    writing := true
    changed := changed
    begun := true }

/-- What a statement that writes does to a store. -/
def Change.on {α : Type} (ch : Change α) (fks : ForeignKeys) (s : Store) :
    Except Fault α × Store :=
  if ch.ready s then
    match ch.apply fks s with
    | .ok e => (.ok e.value, e.store)
    | .error fault => (.error fault, s)
  else (.error .unclassified, s)

theorem Change.on_eq_ok_iff {α : Type} {ch : Change α} {fks : ForeignKeys} {s after : Store}
    {a : α} :
    ch.on fks s = (.ok a, after) ↔ ch.ready s = true ∧
      ∃ e, ch.apply fks s = .ok e ∧ a = e.value ∧ after = e.store := by
  unfold Change.on
  by_cases hready : ch.ready s = true
  · rw [if_pos hready]
    cases happly : ch.apply fks s with
    | error fault => simp
    | ok e =>
        simp only [Prod.mk.injEq, Except.ok.injEq, hready, exists_eq_left', true_and]
        exact and_congr eq_comm eq_comm
  · rw [if_neg hready]
    simp [hready]

namespace Connection

variable {db : Database} {fks : ForeignKeys} {savepoints : List Savepoint} {changed : Bool}
  {s : Store}

theorem begun_eq_working : db.begun = working db .immediate [] false db.committed := rfl

theorem query_working {α : Type} (q : Query α) :
    (working db fks savepoints changed s).query q =
      (if q.ready s then .ok (q.answer s) else .error .unclassified,
        working db fks savepoints changed s) := by
  have hview : (working db fks savepoints changed s).view = s := rfl
  unfold query
  rw [hview]
  split <;> rfl

theorem execute_working {α : Type} (db : Database) (fks : ForeignKeys)
    (savepoints : List Savepoint) (changed : Bool) (s : Store) (ch : Change α) :
    ∃ changed', (working db fks savepoints changed s).execute ch =
      ((ch.on fks s).1, working db fks savepoints changed' (ch.on fks s).2) := by
  have hview : (working db fks savepoints changed s).view = s := rfl
  unfold execute Change.on
  rw [hview]
  by_cases hready : ch.ready s = true
  · rw [hready]
    simp only [working, Transaction.settle, Transaction.mayWrite, executeWithin, Bool.not_true,
      Bool.false_eq_true, if_false, Bool.true_or, if_true]
    cases ch.apply fks s with
    | error fault => exact ⟨_, rfl⟩
    | ok e => exact ⟨_, rfl⟩
  · rw [Bool.not_eq_true] at hready
    rw [hready]
    exact ⟨changed, rfl⟩

end Connection

namespace Gateway

open Connection

/-! ## Savepoints of one's own -/

theorem savepointsFrom_self (key : String) (saved : Store) (savepoints : List Savepoint) :
    savepointsFrom key (⟨key, saved⟩ :: savepoints) = ⟨key, saved⟩ :: savepoints := by
  simp [savepointsFrom]

section Savepoints

variable {name key : String} (hname : readSavepoint? name = some (key, false))
  {db : Database} {fks : ForeignKeys} {savepoints : List Savepoint} {changed : Bool}
  {s saved : Store}

include hname

theorem savepointKey?_of_read : savepointKey? name = some key := by
  rw [savepointKey?, hname]
  rfl

theorem unlessFollowed_of_read {α : Type} (statement : String) (a : α) :
    unlessFollowed name statement a = .ok a := by
  rw [unlessFollowed, isFollowed, hname]
  rfl

theorem openSavepoint_working :
    openSavepoint name (working db fks savepoints changed s) =
      (.ok (), working db fks (⟨key, s⟩ :: savepoints) changed s) := by
  have hkey := savepointKey?_of_read hname
  simp only [openSavepoint, openSavepoint?, hkey, Option.map_some, unlessFollowed_of_read hname]
  rfl

theorem release?_working :
    (working db fks (⟨key, saved⟩ :: savepoints) changed s).release? name =
      some (working db fks savepoints changed s) := by
  have hkey := savepointKey?_of_read hname
  simp only [release?, hkey, working, Option.bind_eq_bind, Option.bind_some,
    savepointsFrom_self, Bool.not_true, Bool.false_eq_true, and_false, if_false]
  rfl

theorem closeSavepoint_working_ok {α : Type} (a : α) :
    closeSavepoint name (.ok a) (working db fks (⟨key, saved⟩ :: savepoints) changed s) =
      (.ok a, working db fks savepoints changed s) := by
  simp only [closeSavepoint, release?_working hname, unlessFollowed_of_read hname]

theorem closeSavepoint_working_error {α : Type} (e : Error) :
    closeSavepoint name (.error e : Except Error α)
        (working db fks (⟨key, saved⟩ :: savepoints) changed s) =
      (.error e, working db fks savepoints changed saved) := by
  have hkey := savepointKey?_of_read hname
  have hback : (working db fks (⟨key, saved⟩ :: savepoints) changed s).rollbackTo? name =
      some (working db fks (⟨key, saved⟩ :: savepoints) changed saved) := by
    simp only [rollbackTo?, hkey, working, Option.bind_eq_bind, Option.bind_some,
      savepointsFrom_self]
    rfl
  simp only [closeSavepoint, hback, Option.getD_some, release?_working hname]

variable {α : Type} {scope : Gateway α} {changed' : Bool} {after : Store}

/-- A scope in a savepoint that succeeds keeps what it wrote. -/
theorem withinSavepoint_working_ok {a : α}
    (h : scope (working db fks (⟨key, s⟩ :: savepoints) changed s) =
      (.ok a, working db fks (⟨key, s⟩ :: savepoints) changed' after)) :
    withinSavepoint name scope (working db fks savepoints changed s) =
      (.ok a, working db fks savepoints changed' after) := by
  rw [withinSavepoint, Attempt.bind_run, openSavepoint_working hname]
  simp only [Attempt.bind_run, Attempt.result, h]
  exact closeSavepoint_working_ok hname a

/-- A scope in a savepoint that fails leaves nothing behind. -/
theorem withinSavepoint_working_error {e : Error}
    (h : scope (working db fks (⟨key, s⟩ :: savepoints) changed s) =
      (.error e, working db fks (⟨key, s⟩ :: savepoints) changed' after)) :
    withinSavepoint name scope (working db fks savepoints changed s) =
      (.error e, working db fks savepoints changed' s) := by
  rw [withinSavepoint, Attempt.bind_run, openSavepoint_working hname]
  simp only [Attempt.bind_run, Attempt.result, h]
  exact closeSavepoint_working_error hname e

end Savepoints

/-! ## What attempts lead to -/

/-- Inside a transaction that was begun, the attempt answers `r` at the
working store `s` and leaves the working store `after` behind. -/
def Leads {α : Type} (fks : ForeignKeys) (g : Gateway α) (s : Store) (r : Except Error α)
    (after : Store) : Prop :=
  ∃ db savepoints changed changed', g (working db fks savepoints changed s) =
    (r, working db fks savepoints changed' after)

variable {α β : Type} {fks : ForeignKeys} {s after : Store}

theorem of_leads_pure {a b : α} (h : Leads fks (pure a) s (.ok b) after) :
    b = a ∧ after = s := by
  obtain ⟨db, savepoints, changed, changed', h⟩ := h
  have hvalue : Except.ok a = Except.ok b := congrArg Prod.fst h
  have hstore : s = after := congrArg (fun p => p.2.view) h
  exact ⟨(Except.ok.inj hvalue).symm, hstore.symm⟩

theorem not_leads_fail {e : Error} {a : α} : ¬Leads fks (Attempt.fail e) s (.ok a) after := by
  rintro ⟨db, savepoints, changed, changed', h⟩
  exact nomatch congrArg Prod.fst h

/-- What was looked up and had to be found was found. -/
theorem of_leads_orFail {found : Option α} {e : Error} {a : α}
    (h : Leads fks (Attempt.orFail found e) s (.ok a) after) : found = some a ∧ after = s := by
  cases found with
  | none => exact absurd h not_leads_fail
  | some b =>
      obtain ⟨rfl, hstore⟩ := of_leads_pure h
      exact ⟨rfl, hstore⟩

theorem of_leads_read {operation id : String} {q : Query α} {a : α}
    (h : Leads fks (read operation id q) s (.ok a) after) : a = q.answer s ∧ after = s := by
  obtain ⟨db, savepoints, changed, changed', h⟩ := h
  rw [read, query_working] at h
  by_cases hready : q.ready s = true
  · rw [if_pos hready] at h
    exact of_leads_pure ⟨db, savepoints, changed, changed', h⟩
  · rw [if_neg hready] at h
    exact nomatch congrArg Prod.fst h

theorem of_leads_write {operation id : String} {meaning : Constraint → Option Error}
    {ch : Change α} {a : α} (h : Leads fks (write operation id meaning ch) s (.ok a) after) :
    ∃ e, ch.apply fks s = .ok e ∧ a = e.value ∧ after = e.store := by
  obtain ⟨db, savepoints, changed, changed', h⟩ := h
  obtain ⟨changed'', hexecute⟩ := execute_working db fks savepoints changed s ch
  rw [write, hexecute] at h
  have hon : ch.on fks s = (.ok a, after) := by
    cases hrun : ch.on fks s with
    | mk result store =>
        rw [hrun] at h
        cases result with
        | error fault => exact nomatch congrArg Prod.fst h
        | ok b =>
            have hvalue : (.ok b : Except Error α) = .ok a := congrArg Prod.fst h
            have hstore : store = after := congrArg (fun p => p.2.view) h
            rw [Except.ok.inj hvalue, hstore]
  exact (Change.on_eq_ok_iff.mp hon).2

/-- An attempt runs through in its transaction, which stays open with its
lock and its savepoints. -/
theorem Composed.run_working {g : Gateway α} (hg : Composed g) (db : Database)
    (fks : ForeignKeys) (savepoints : List Savepoint) (changed : Bool) (s : Store) :
    ∃ r changed' after, g (working db fks savepoints changed s) =
      (r, working db fks savepoints changed' after) := by
  induction hg generalizing savepoints changed s with
  | pure a => exact ⟨_, changed, s, rfl⟩
  | fail e => exact ⟨_, changed, s, rfl⟩
  | read operation id q =>
      rw [Gateway.read, query_working]
      by_cases hready : q.ready s = true
      · rw [if_pos hready]
        exact ⟨_, changed, s, rfl⟩
      · rw [if_neg hready]
        exact ⟨_, changed, s, rfl⟩
  | @write _ operation id meaning ch hch =>
      obtain ⟨changed', hexecute⟩ := execute_working db fks savepoints changed s ch
      rw [Gateway.write, hexecute]
      cases (ch.on fks s).1 with
      | ok a => exact ⟨_, changed', _, rfl⟩
      | error fault => exact ⟨_, changed', _, rfl⟩
  | bind hg hnext ihg ihnext =>
      obtain ⟨r, changed', middle, hrun⟩ := ihg savepoints changed s
      rw [Attempt.bind_run, hrun]
      cases r with
      | ok a => exact ihnext a savepoints changed' middle
      | error e => exact ⟨_, changed', middle, rfl⟩
  | @withinSavepoint _ name key scope hname hscope ih =>
      obtain ⟨r, changed', after, hrun⟩ := ih (⟨key, s⟩ :: savepoints) changed s
      cases r with
      | ok a => exact ⟨_, changed', after, withinSavepoint_working_ok hname hrun⟩
      | error e => exact ⟨_, changed', s, withinSavepoint_working_error hname hrun⟩

theorem Composed.of_leads_bind {g : Gateway α} {next : α → Gateway β} {b : β} (hg : Composed g)
    (h : Leads fks (g >>= next) s (.ok b) after) :
    ∃ a middle, Leads fks g s (.ok a) middle ∧ Leads fks (next a) middle (.ok b) after := by
  obtain ⟨db, savepoints, changed, changed', h⟩ := h
  obtain ⟨r, changed'', middle, hrun⟩ := hg.run_working db fks savepoints changed s
  rw [Attempt.bind_run, hrun] at h
  cases r with
  | error e => exact nomatch congrArg Prod.fst h
  | ok a =>
      exact ⟨a, middle, ⟨db, savepoints, changed, changed'', hrun⟩,
        ⟨db, savepoints, changed'', changed', h⟩⟩

/-- What succeeds in a savepoint has the same effect as without. -/
theorem Composed.of_leads_withinSavepoint {name key : String} {scope : Gateway α} {a : α}
    (hname : readSavepoint? name = some (key, false)) (hscope : Composed scope)
    (h : Leads fks (Gateway.withinSavepoint name scope) s (.ok a) after) :
    Leads fks scope s (.ok a) after := by
  obtain ⟨db, savepoints, changed, changed', h⟩ := h
  obtain ⟨r, changed'', middle, hrun⟩ :=
    hscope.run_working db fks (⟨key, s⟩ :: savepoints) changed s
  cases r with
  | error e =>
      rw [withinSavepoint_working_error hname hrun] at h
      exact nomatch congrArg Prod.fst h
  | ok b =>
      rw [withinSavepoint_working_ok hname hrun] at h
      have hvalue : Except.ok b = Except.ok a := congrArg Prod.fst h
      have hstore : middle = after := congrArg (fun p => p.2.view) h
      rw [hvalue, hstore] at hrun
      exact ⟨db, _, changed, changed'', hrun⟩

end Gateway

/-! ## Units of work -/

namespace Service

open Connection Gateway

/-- A unit of work fails and changes nothing, or its scope succeeds on the
committed store and what it leaves behind is committed. -/
theorem unitOfWork_cases {α : Type} {scope : Gateway α} (hscope : Gateway.Composed scope)
    (operation : String) (db : Database) :
    (∃ e, unitOfWork operation scope db = (.error e, db)) ∨
      ∃ a after changed, Leads .immediate scope db.committed (.ok a) after ∧
        unitOfWork operation scope db = (.ok a, db.commit after changed) := by
  cases hlocked : db.locked with
  | true =>
      rw [unitOfWork, Database.begin?_of_locked hlocked]
      exact Or.inl ⟨_, rfl⟩
  | false =>
      rw [unitOfWork, Database.begin?_of_unlocked hlocked, begun_eq_working]
      obtain ⟨r, changed, after, hrun⟩ :=
        hscope.run_working db .immediate [] false db.committed
      simp only [hrun]
      cases r with
      | error e =>
          have hback : (working db .immediate [] changed after).rollback = db :=
            Connection.Begun.rollback_eq ⟨rfl, _, rfl, rfl, rfl, rfl⟩ hlocked
          exact Or.inl ⟨e, congrArg (Prod.mk _) hback⟩
      | ok a => exact Or.inr ⟨a, after, changed, ⟨db, [], false, changed, hrun⟩, rfl⟩

end Service

end ReviewRota
