import ReviewRota.Proofs.Effect

/-!
# ReviewRota.Proofs.Contexts

Gateway calls do not depend on where they run: on a connection of their own,
inside a transaction, or inside a savepoint that opens the transaction.  In
all three places nothing gets in their way, so that they do what they do on
stores.

* `Service.leaves_direct`, `Service.leaves_unitOfWork` — an attempt on a
  connection of its own and as a unit of work;
* `Service.runs_anywhere` — calls in a row answer the same and leave the same
  store, one by one, in one transaction or in one savepoint.
-/

namespace ReviewRota

/-! ## Three ways to run -/

namespace Service

open Gateway

variable {α : Type} {g : Gateway α} {f : Attempt Store α} {db : Database}

/-- The service answers `r`, leaves that store committed, and does not keep
the lock. -/
def Leaves (service : Service α) (db : Database) (r : Except Error α) (store : Store) : Prop :=
  ∃ after, service db = (r, after) ∧ after.committed = store ∧ after.locked = false

/-- On a connection of its own an attempt does what it does on stores. -/
theorem leaves_direct (hg : Does g f) (hfree : db.locked = false) :
    Leaves (direct g) db (f db.committed).1 (f db.committed).2 := by
  obtain ⟨⟨after, transaction⟩, hrun, hview, hafter, halone⟩ := hg.run (.alone hfree)
  obtain rfl : transaction = none := halone rfl
  refine ⟨after, ?_, hview, hafter.unlocked rfl⟩
  rw [direct, hrun]
  rfl

/-- A unit of work does what its scope does on stores, all or nothing. -/
theorem leaves_unitOfWork (hg : Does g f) (hfree : db.locked = false) (operation : String) :
    Leaves (unitOfWork operation g) db (f db.committed).1 (f.reverting db.committed).2 := by
  have hview : db.begun.view = db.committed := rfl
  have hheld : db.begun.Held := ⟨_, rfl, Or.inl rfl⟩
  obtain ⟨last, hrun, hstore, hlast, _⟩ := hg.run (Connection.unhindered_begun db)
  have hcontinues := hg.balanced db.begun hheld
  rw [hrun] at hcontinues
  rw [hview] at hrun hstore
  rw [Leaves, unitOfWork, Database.begin?_of_unlocked hfree, Attempt.reverting]
  simp only [hrun]
  cases hresult : f db.committed with
  | mk result store =>
      rw [hresult] at hstore
      cases result with
      | error e =>
          have hback := hlast.rollback_eq hcontinues hfree
          exact ⟨db, congrArg (Prod.mk _) hback, rfl, hfree⟩
      | ok a =>
          obtain ⟨after, hcommit, hcommitted, hunlocked⟩ :=
            hlast.commit? (hcontinues.isSome_transaction.trans rfl)
          simp only [hcommit]
          exact ⟨after, rfl, hcommitted.trans hstore, hunlocked⟩

end Service

/-! ## Calls in a row -/

/-- Calls in a row on one connection.  An error is an answer like others. -/
def Gateway.runAll : List Call → Gateway (List (Except Error Reply))
  | [] => pure []
  | call :: rest => do
    let answer ← call.run.result
    let answers ← runAll rest
    return answer :: answers

/-- Calls in a row, each on a connection of its own. -/
def Service.runEach : List Call → Service (List (Except Error Reply))
  | [] => pure []
  | call :: rest => do
    let answer ← (direct call.run).result
    let answers ← runEach rest
    return answer :: answers

/-- What calls in a row are on stores. -/
def Store.runAll : List Call → Attempt Store (List (Except Error Reply))
  | [] => pure []
  | call :: rest => do
    let answer ← (Gateway.composedCall call).effect.result
    let answers ← runAll rest
    return answer :: answers

theorem Gateway.does_runAll (calls : List Call) : Does (runAll calls) (Store.runAll calls) := by
  induction calls with
  | nil => exact .ofExcept (.ok [])
  | cons call rest ih =>
      exact (composedCall call).does.result.bind fun answer =>
        ih.bind fun answers => .ofExcept (.ok (answer :: answers))

/-- Every call is answered. -/
theorem Store.runAll_eq_ok (calls : List Call) (s : Store) :
    ∃ answers after, runAll calls s = (.ok answers, after) ∧ answers.length = calls.length := by
  induction calls generalizing s with
  | nil => exact ⟨[], s, rfl, rfl⟩
  | cons call rest ih =>
      obtain ⟨answers, after, hrest, hlength⟩ := ih ((Gateway.composedCall call).effect s).2
      refine ⟨((Gateway.composedCall call).effect s).1 :: answers, after, ?_, ?_⟩
      · simp only [runAll, Attempt.bind_run, Attempt.result, hrest]
        rfl
      · simp [hlength]

namespace Service

theorem leaves_runEach (calls : List Call) {db : Database} (hfree : db.locked = false) :
    Leaves (runEach calls) db (Store.runAll calls db.committed).1
      (Store.runAll calls db.committed).2 := by
  induction calls generalizing db with
  | nil => exact ⟨db, rfl, rfl, hfree⟩
  | cons call rest ih =>
      obtain ⟨middle, hrun, hstore, hmiddle⟩ :=
        leaves_direct (Gateway.composedCall call).does hfree
      obtain ⟨after, hrest, hlast, hafter⟩ := ih hmiddle
      obtain ⟨answers, store, hall, _⟩ := Store.runAll_eq_ok rest middle.committed
      rw [hall] at hrest hlast
      rw [hstore] at hall
      refine ⟨after, ?_, ?_, hafter⟩
      · simp only [runEach, Store.runAll, Attempt.bind_run, Attempt.result, hrun, hrest, hall]
        rfl
      · simp only [Store.runAll, Attempt.bind_run, Attempt.result, hall]
        exact hlast

/-- **Anywhere**: calls in a row answer the same and leave the same store,
each on a connection of its own, all in one transaction, or all in one
savepoint, of whatever name. -/
theorem runs_anywhere (store : Store) (revision : Nat) (calls : List Call) (operation : String)
    {name key : String} (hname : readSavepoint? name = some (key, false)) :
    let db : Database := ⟨store, revision, false⟩
    ∃ answers after, answers.length = calls.length ∧
      Leaves (runEach calls) db (.ok answers) after ∧
      Leaves (unitOfWork operation (Gateway.runAll calls)) db (.ok answers) after ∧
      Leaves (direct (Gateway.withinSavepoint name (Gateway.runAll calls))) db (.ok answers)
        after := by
  intro db
  have hfree : db.locked = false := rfl
  have hall := Gateway.does_runAll calls
  obtain ⟨answers, after, hrun, hlength⟩ := Store.runAll_eq_ok calls db.committed
  have hkept : (Store.runAll calls).reverting db.committed = (.ok answers, after) := by
    rw [Attempt.reverting, hrun]
  have heach := leaves_runEach calls hfree
  have htogether := leaves_unitOfWork hall hfree operation
  have hwithin := leaves_direct (hall.withinSavepoint hname) hfree
  rw [hrun] at heach htogether
  rw [hkept] at htogether hwithin
  exact ⟨answers, after, hlength, heach, htogether, hwithin⟩

/-- A pull request with a reviewer who does not exist, and a replacement by
one, leave nothing behind, also under the name of the gateway's own
savepoint. -/
theorem runs_anywhere_ownName :
    let users : List User := [⟨"u1", "Ann", some "core", true⟩, ⟨"u2", "Bob", some "core", true⟩]
    let store : Store := { teams := [⟨"core", 1⟩], users }
    let db : Database := ⟨store, 0, false⟩
    let new : NewPullRequest := ⟨"p1", "Fix", "u1", 5⟩
    let calls : List Call := [.createPullRequest new ["u2", "nobody"],
      .createPullRequest new ["u2"], .replaceReviewer "p1" "u2" "nobody" 6, .pullRequest "p1"]
    let answers : List (Except Error Reply) := [.error (.notFound .user "nobody"), .ok .nothing,
      .error (.notFound .user "nobody"), .ok (.pullRequest (new.opened ["u2"]))]
    let after : Store := { store with
      pullRequests := [new.record], links := [⟨"p1", "u2", 5⟩] }
    runEach calls db = (.ok answers, ⟨after, 3, false⟩) ∧
      Leaves (unitOfWork "batch" (Gateway.runAll calls)) db (.ok answers) after ∧
      Leaves (direct (Gateway.withinSavepoint "CREATE_pull_request" (Gateway.runAll calls))) db
        (.ok answers) after := by
  intro users store db new calls answers after
  have hname : readSavepoint? "CREATE_pull_request" = some ("create_pull_request", false) := by
    decide
  have hrun : runEach calls db = (.ok answers, ⟨after, 3, false⟩) := by decide +kernel
  obtain ⟨others, last, _, ⟨_, heach, hlast, _⟩, htogether, hwithin⟩ :=
    runs_anywhere store 0 calls "batch" hname
  rw [hrun] at heach
  obtain rfl : answers = others := Except.ok.inj (congrArg Prod.fst heach)
  obtain rfl : after = last := (congrArg (fun p => p.2.committed) heach).trans hlast
  exact ⟨hrun, htogether, hwithin⟩

end Service

end ReviewRota
