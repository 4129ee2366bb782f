import ReviewRota.Proofs.Composed

/-!
# ReviewRota.Proofs.Reading

Requests that only read.  They are composed of statements that read, on
connections without a transaction, and so their answer is told by the
committed store alone: neither the lock nor the number of commits matters,
and nothing changes.

* `Service.Composed.ReadOnly.run` — such a request answers the same on every
  database with that store, and leaves it as it is;
* `Service.readOnly_composedRequest` — the requests that do not write are
  such requests.
-/

namespace ReviewRota

/-! ## What writes -/

/-- Whether an operation can change something. -/
def Operation.writes : Operation → Bool
  | .create .. | .reassign .. | .merge _ | .createTeam .. | .setActive .. => true
  | .pullRequest _ | .team _ | .user _ | .reviewsOf _ | .userLoads | .reviewerCounts => false

/-- The operation behind a submission, if there is one. -/
def Submission.operation? : Submission → Option Operation
  | .create _ r draw => some (.create r.id r.title r.author draw)
  | .reassign _ r draw => some (.reassign r.pullRequest r.old draw)
  | .merge _ r => some (.merge r.pullRequest)
  | .addTeam r => some (.createTeam r.name r.members)
  | .team name => some (.team name)
  | .setActive _ r => some (.setActive r.user r.active)
  | .userReviews .. => none
  | .workload => none

/-- The operation behind a request, if there is one. -/
def Request.operation? : Request → Option Operation
  | .operation o => some o
  | .submission s => s.operation?

/-- Whether a request can change something. -/
def Request.writes (r : Request) : Bool := r.operation?.any Operation.writes

/-! ## Statements that read -/

/-- Tables are in service if more are. -/
theorem Store.inService_of_subset {s : Store} {tables more : List Table} (h : tables ⊆ more)
    (hserves : s.inService more = true) : s.inService tables = true :=
  List.all_eq_true.mpr fun t ht => List.all_eq_true.mp hserves t (h ht)

namespace Gateway

/-- The attempt has no statement that writes. -/
def Composed.ReadOnly : {α : Type} → {g : Gateway α} → Composed g → Prop
  | _, _, .pure _ => True
  | _, _, .fail _ => True
  | _, _, .read _ _ _ => True
  | _, _, .write _ _ _ _ => False
  | _, _, .bind hg hnext => hg.ReadOnly ∧ ∀ a, (hnext a).ReadOnly
  | _, _, .withinSavepoint _ _ => False

theorem Composed.readOnly_orFail {α : Type} (value : Option α) (e : Error) :
    (Composed.orFail value e).ReadOnly := by
  cases value with
  | none => trivial
  | some a => trivial

theorem query_connection {α : Type} (q : Query α) (db : Database) :
    db.connection.query q =
      (if q.ready db.committed then .ok (q.answer db.committed) else .error .unclassified,
        db.connection) := by
  have hview : db.connection.view = db.committed := rfl
  rw [Connection.query, hview]
  by_cases hready : q.ready db.committed = true
  · rw [if_pos hready, if_pos hready]
    rfl
  · rw [if_neg hready, if_neg hready]

/-- A statement that reads answers if its tables are in service. -/
theorem read_connection {α : Type} (operation id : String) {q : Query α} {db : Database}
    (hserves : db.committed.inService q.tables = true) :
    read operation id q db.connection = (.ok (q.answer db.committed), db.connection) := by
  have hready : q.ready db.committed = true := hserves
  rw [read, query_connection, if_pos hready]

/-- On a connection without a transaction, what only reads is told by the
committed store. -/
theorem Composed.ReadOnly.run {α : Type} {g : Gateway α} {hg : Composed g} (h : hg.ReadOnly)
    (s : Store) :
    ∃ r, ∀ db : Database, db.committed = s → g db.connection = (r, db.connection) := by
  induction hg with
  | pure a => exact ⟨.ok a, fun db _ => rfl⟩
  | fail e => exact ⟨.error e, fun db _ => rfl⟩
  | read operation id q =>
      by_cases hready : q.ready s = true
      · refine ⟨.ok (q.answer s), fun db hdb => ?_⟩
        rw [Gateway.read, query_connection, hdb, if_pos hready]
      · refine ⟨.error (.storage operation id), fun db hdb => ?_⟩
        rw [Gateway.read, query_connection, hdb, if_neg hready]
  | write operation id meaning hch => exact h.elim
  | bind hg hnext ihg ihnext =>
      obtain ⟨r, hfirst⟩ := ihg h.1
      cases r with
      | error e =>
          refine ⟨.error e, fun db hdb => ?_⟩
          rw [Attempt.bind_run, hfirst db hdb]
      | ok a =>
          obtain ⟨r, hrest⟩ := ihnext a (h.2 a)
          refine ⟨r, fun db hdb => ?_⟩
          rw [Attempt.bind_run, hfirst db hdb]
          exact hrest db hdb
  | withinSavepoint hname hscope ih => exact h.elim

end Gateway

/-! ## Requests that read -/

namespace Service

/-- The request has no statement that writes, and opens no transaction. -/
def Composed.ReadOnly : {α : Type} → {service : Service α} → Composed service → Prop
  | _, _, .pure _ => True
  | _, _, .ofExcept _ => True
  | _, _, .direct hcall => hcall.ReadOnly
  | _, _, .unitOfWork _ _ => False
  | _, _, .bind hs hnext => hs.ReadOnly ∧ ∀ a, (hnext a).ReadOnly

/-- The answer of a request that only reads is told by the committed store,
and it changes nothing. -/
theorem Composed.ReadOnly.run {α : Type} {service : Service α} {hs : Composed service}
    (h : hs.ReadOnly) (s : Store) :
    ∃ r, ∀ db : Database, db.committed = s → service db = (r, db) := by
  induction hs with
  | pure a => exact ⟨.ok a, fun db _ => rfl⟩
  | ofExcept r => exact ⟨r, fun db _ => rfl⟩
  | direct hcall =>
      obtain ⟨r, hrun⟩ := Gateway.Composed.ReadOnly.run h s
      refine ⟨r, fun db hdb => ?_⟩
      rw [Service.direct, hrun db hdb]
      rfl
  | unitOfWork operation hscope => exact h.elim
  | bind hs hnext ihs ihnext =>
      obtain ⟨r, hfirst⟩ := ihs h.1
      cases r with
      | error e =>
          refine ⟨.error e, fun db hdb => ?_⟩
          rw [Attempt.bind_run, hfirst db hdb]
      | ok a =>
          obtain ⟨r, hrest⟩ := ihnext a (h.2 a)
          refine ⟨r, fun db hdb => ?_⟩
          rw [Attempt.bind_run, hfirst db hdb]
          exact hrest db hdb

theorem Composed.readOnly_ite {α : Type} {p : Prop} [d : Decidable p] {service other : Service α}
    {hs : Composed service} {ho : Composed other} (h : hs.ReadOnly) (h' : ho.ReadOnly) :
    (Composed.ite (p := p) hs ho).ReadOnly := by
  cases d with
  | isTrue _ => exact h
  | isFalse _ => exact h'

/-- A lookup that has to find something. -/
theorem readOnly_lookup {α : Type} (operation id : String) (q : Query (Option α)) (e : Error) :
    (Composed.direct (.bind (.read operation id q) fun found => .orFail found e)).ReadOnly :=
  ⟨trivial, fun found => Gateway.Composed.readOnly_orFail found e⟩

theorem readOnly_composedTeam (name : String) : (composedTeam name).ReadOnly :=
  ⟨readOnly_lookup _ _ _ _, fun _ => ⟨trivial, fun _ => trivial⟩⟩

theorem readOnly_composedReviewsOf (user : String) : (composedReviewsOf user).ReadOnly :=
  ⟨trivial, fun _ => trivial⟩

theorem readOnly_composedUserReviews (caller : Caller) (user : String) :
    (composedUserReviews caller user).ReadOnly :=
  ⟨trivial, fun _ => Composed.readOnly_ite
    ⟨readOnly_composedReviewsOf user, fun _ => trivial⟩ ⟨trivial, fun _ => trivial⟩⟩

theorem readOnly_composedWorkload : composedWorkload.ReadOnly :=
  ⟨⟨trivial, fun _ => trivial⟩, fun _ => ⟨⟨trivial, fun _ => trivial⟩, fun _ => trivial⟩⟩

theorem readOnly_composedOperation (now : Int) {o : Operation} (h : o.writes = false) :
    (composedOperation now o).ReadOnly := by
  cases o with
  | create => exact nomatch h
  | reassign => exact nomatch h
  | merge => exact nomatch h
  | createTeam => exact nomatch h
  | setActive => exact nomatch h
  | pullRequest id => exact ⟨readOnly_lookup _ _ _ _, fun _ => trivial⟩
  | team name => exact ⟨readOnly_composedTeam name, fun _ => trivial⟩
  | user id => exact ⟨readOnly_lookup _ _ _ _, fun _ => trivial⟩
  | reviewsOf id => exact ⟨readOnly_composedReviewsOf id, fun _ => trivial⟩
  | userLoads => exact ⟨⟨trivial, fun _ => trivial⟩, fun _ => trivial⟩
  | reviewerCounts => exact ⟨⟨trivial, fun _ => trivial⟩, fun _ => trivial⟩

/-- A request that does not write only reads. -/
theorem readOnly_composedRequest (now : Int) {r : Request} (h : r.writes = false) :
    (composedRequest now r).ReadOnly := by
  cases r with
  | operation o => exact readOnly_composedOperation now h
  | submission s =>
      cases s with
      | create => exact nomatch h
      | reassign => exact nomatch h
      | merge => exact nomatch h
      | addTeam => exact nomatch h
      | setActive => exact nomatch h
      | team name => exact ⟨⟨trivial, fun _ => readOnly_composedTeam name⟩, fun _ => trivial⟩
      | userReviews caller user =>
          exact ⟨readOnly_composedUserReviews caller user, fun _ => trivial⟩
      | workload => exact ⟨readOnly_composedWorkload, fun _ => trivial⟩

end Service

end ReviewRota
