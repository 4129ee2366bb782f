import ReviewRota.Connection.Basic

/-!
# ReviewRota.Proofs.Connection

What a statement can do to a connection, said once for each kind of
statement: every later invariant of connections is a case analysis over
these lemmas, and the definitions of the connection are not opened again.
-/

namespace ReviewRota

namespace Transaction

variable {t : Transaction} {db : Database}

/-- A transaction that has taken its store keeps it. -/
theorem settle_of_snapshot {revision : Nat} (h : t.snapshot = some revision) :
    t.settle db = t := by
  unfold settle
  rw [h]

@[simp] theorem settle_writing : (t.settle db).writing = t.writing := by
  unfold settle
  split <;> rfl

theorem canCommit_iff :
    t.canCommit = true ↔ t.foreignKeys = .immediate ∨ t.working.referencesHold = true := by
  simp [canCommit]

end Transaction

/-- A commit that has nothing to write leaves a free database as it is. -/
theorem Database.commit_nothing {db : Database} (h : db.locked = false) :
    db.commit db.committed false = db := by
  obtain ⟨committed, revision, locked⟩ := db
  subst h
  rfl

namespace Connection

variable {c after : Connection} {name : String}

/-- A statement that reads at most takes the store of its transaction. -/
theorem query_cases {α : Type} (q : Query α) (c : Connection) :
    (c.query q).2 = c ∨
      (c.query q).2 = { c with transaction := c.transaction.map (·.settle c.database) } := by
  unfold query
  split
  · exact Or.inr rfl
  · exact Or.inl rfl

/-- A transaction after a statement that writes: the statement was refused,
or has left its store behind. -/
def Wrote {α : Type} (ch : Change α) (t u : Transaction) : Prop :=
  ∃ (working : Store) (changed : Bool), u = { t with working, writing := true, changed } ∧
    (working = t.working ∨
      ∃ e, ch.apply t.foreignKeys t.working = .ok e ∧ working = e.store)

/-- A statement that writes leaves a connection as it is, or commits on its
own, or writes in the open transaction, which then holds the lock. -/
theorem execute_cases {α : Type} (ch : Change α) (c : Connection) :
    (c.execute ch).2 = c ∨
      (c.transaction = none ∧ c.database.locked = false ∧
        ∃ e, ch.apply .immediate c.database.committed = .ok e ∧
          (c.execute ch).2 = (c.database.commit e.store (0 < e.rows)).connection) ∨
      ∃ t u, c.transaction = some t ∧ (t.settle c.database).mayWrite c.database = true ∧
        Wrote ch (t.settle c.database) u ∧
        (c.execute ch).2 = ⟨{ c.database with locked := true }, some u⟩ := by
  obtain ⟨db, transaction⟩ := c
  unfold execute
  split
  · exact Or.inl rfl
  · cases transaction with
    | none =>
        simp only [executeAlone]
        cases hlocked : db.locked with
        | true => exact Or.inl rfl
        | false =>
            cases happly : ch.apply .immediate db.committed with
            | error fault => exact Or.inl rfl
            | ok e => exact Or.inr (Or.inl ⟨trivial, rfl, e, rfl, rfl⟩)
    | some t =>
        simp only
        split
        · next hmay =>
            refine Or.inr (Or.inr ⟨t, _, rfl, hmay, ?_, rfl⟩)
            unfold executeWithin
            cases happly : ch.apply (t.settle db).foreignKeys (t.settle db).working with
            | error fault => exact ⟨_, _, rfl, Or.inl rfl⟩
            | ok e => exact ⟨_, _, rfl, Or.inr ⟨e, happly, rfl⟩⟩
        · exact Or.inl rfl

/-- A statement that writes on a connection of its own fails and changes
nothing, or commits. -/
theorem execute_connection_cases {α : Type} (ch : Change α) (db : Database) :
    (∃ fault, db.connection.execute ch = (.error fault, db.connection)) ∨
      ∃ e, db.locked = false ∧ ch.apply .immediate db.committed = .ok e ∧
        db.connection.execute ch =
          (.ok e.value, (db.commit e.store (0 < e.rows)).connection) := by
  have hrun : db.connection.execute ch =
      if !ch.ready db.committed then (.error .unclassified, db.connection)
      else ((executeAlone ch db).1, (executeAlone ch db).2.connection) := rfl
  rw [hrun]
  split
  · exact Or.inl ⟨_, rfl⟩
  · unfold executeAlone
    by_cases hlocked : db.locked = true
    · rw [if_pos hlocked]
      exact Or.inl ⟨_, rfl⟩
    · rw [if_neg hlocked]
      cases happly : ch.apply .immediate db.committed with
      | error fault => exact Or.inl ⟨fault, rfl⟩
      | ok e => exact Or.inr ⟨e, by simpa using hlocked, rfl, rfl⟩

/-- Opening a savepoint opens a transaction, or adds to the savepoints of
the one that is open. -/
theorem openSavepoint?_cases (h : c.openSavepoint? name = some after) :
    ∃ key, savepointKey? name = some key ∧
      ((c.transaction = none ∧
          after = { c with transaction := some (openedBy key c.database) }) ∨
        ∃ t, c.transaction = some t ∧ after = { c with
          transaction := some { t with savepoints := ⟨key, t.working⟩ :: t.savepoints } }) := by
  obtain ⟨key, hkey, rfl⟩ := Option.map_eq_some_iff.mp h
  refine ⟨key, hkey, ?_⟩
  cases htx : c.transaction with
  | none => exact Or.inl ⟨rfl, rfl⟩
  | some t => exact Or.inr ⟨t, rfl, rfl⟩

/-- Rolling back restores the store of the innermost savepoint of that
name. -/
theorem rollbackTo?_cases (h : c.rollbackTo? name = some after) :
    ∃ key t sp outer, savepointKey? name = some key ∧ c.transaction = some t ∧
      savepointsFrom key t.savepoints = sp :: outer ∧
      after = { c with transaction := some { t with
        working := sp.saved, savepoints := sp :: outer } } := by
  unfold rollbackTo? at h
  obtain ⟨key, hkey, h⟩ := Option.bind_eq_some_iff.mp h
  obtain ⟨t, ht, h⟩ := Option.bind_eq_some_iff.mp h
  split at h
  · exact nomatch h
  · next sp outer hfrom => exact ⟨key, t, sp, outer, hkey, ht, hfrom, (Option.some.inj h).symm⟩

/-- Releasing closes the innermost savepoint of that name, and with the one
that opened it, the transaction. -/
theorem release?_cases (h : c.release? name = some after) :
    ∃ key t sp outer, savepointKey? name = some key ∧ c.transaction = some t ∧
      savepointsFrom key t.savepoints = sp :: outer ∧
      ((outer = [] ∧ t.begun = false ∧ t.canCommit = true ∧
          after = (t.commitTo c.database).connection) ∨
        (¬(outer = [] ∧ t.begun = false) ∧
          after = { c with transaction := some { t with savepoints := outer } })) := by
  unfold release? at h
  obtain ⟨key, hkey, h⟩ := Option.bind_eq_some_iff.mp h
  obtain ⟨t, ht, h⟩ := Option.bind_eq_some_iff.mp h
  split at h
  · exact nomatch h
  · next sp outer hfrom =>
      refine ⟨key, t, sp, outer, hkey, ht, hfrom, ?_⟩
      simp only [Bool.not_eq_true'] at h
      split at h
      · next hlast =>
          obtain ⟨db, hdb, rfl⟩ := Option.map_eq_some_iff.mp h
          simp only [commit?, ht, Option.ite_none_right_eq_some] at hdb
          exact Or.inl ⟨hlast.1, hlast.2, hdb.1, by rw [Option.some.inj hdb.2]⟩
      · next hlast => exact Or.inr ⟨hlast, (Option.some.inj h).symm⟩

/-- A commit is that of an open transaction whose references hold or have
been looked at all along. -/
theorem commit?_eq_some_iff {db : Database} :
    c.commit? = some db ↔
      ∃ t, c.transaction = some t ∧ t.canCommit = true ∧ db = t.commitTo c.database := by
  unfold commit?
  cases c.transaction with
  | none => simp
  | some t =>
      simp only [Option.ite_none_right_eq_some, Option.some.injEq, exists_eq_left']
      exact and_congr_right fun _ => eq_comm

/-- The savepoints from one of that name outwards are among all of them. -/
theorem mem_of_mem_savepointsFrom {key : String} {savepoints : List Savepoint} {sp : Savepoint}
    (h : sp ∈ savepointsFrom key savepoints) : sp ∈ savepoints :=
  (List.dropWhile_sublist _).subset h

end Connection

end ReviewRota
