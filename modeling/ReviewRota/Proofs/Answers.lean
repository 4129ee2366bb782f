import ReviewRota.Proofs.Changes
import ReviewRota.Proofs.WorkingStore

/-!
# ReviewRota.Proofs.Answers

What operations answer when no storage failure is in their way, where
nothing is to be written: the lock is free and the tables they look into are
in service (`Database.Serves`).

Such a unit of work ends with the transaction it began with, so that its
commit and its rollback come to the same (`Service.unitOfWork_of_looked`).
-/

namespace ReviewRota

/-- No storage failure keeps a unit of work from these tables. -/
structure Database.Serves (db : Database) (tables : List Table) : Prop where
  unlocked : db.locked = false
  inService : db.committed.inService tables = true

variable {db : Database}

/-- A unit of work whose scope leaves its transaction as it found it answers
the result of the scope and changes nothing. -/
theorem Service.unitOfWork_of_looked {α : Type} {scope : Gateway α} {r : Except Error α}
    (operation : String) (hfree : db.locked = false) (h : scope db.begun = (r, db.begun)) :
    unitOfWork operation scope db = (r, db) := by
  have hback : db.begun.rollback = db := (Connection.begun_begun db).rollback_eq hfree
  have hcommit : db.begun.commit? = some db := congrArg some (Database.commit_nothing hfree)
  rw [unitOfWork, Database.begin?_of_unlocked hfree]
  simp only [h]
  cases r with
  | error e => exact congrArg (Prod.mk _) hback
  | ok a => simp only [hcommit]

namespace Gateway

theorem read_begun {α : Type} (operation id : String) {q : Query α}
    (hserves : db.committed.inService q.tables = true) :
    read operation id q db.begun = (.ok (q.answer db.committed), db.begun) := by
  have hready : q.ready db.committed = true := hserves
  rw [read, Connection.begun_eq_working, Connection.query_working, if_pos hready]

theorem PullRequests.get_begun {id : String} {r : PullRequestRecord}
    (hserves : db.committed.inService [.pullRequests, .links] = true)
    (hthere : db.committed.record? id = some r) :
    get id db.begun = (.ok (db.committed.assemble r), db.begun) := by
  have hfound : (Statement.PullRequests.byId id).answer db.committed =
      some (db.committed.assemble r) := by
    show (db.committed.record? id).map db.committed.assemble = _
    rw [hthere, Option.map_some]
  rw [get, Attempt.bind_run, read_begun _ _ hserves, hfound]
  rfl

end Gateway

namespace Reviewing

open Gateway

variable {id : String} {r : PullRequestRecord} (hserves : db.Serves [.pullRequests, .links])
  (hthere : db.committed.record? id = some r)

include hserves hthere

/-- No reviewer of a merged pull request is replaced. -/
theorem reassign_of_merged (hmerged : r.status = .merged) (old : String) (now : Int)
    (draw : Draw) : reassign id old now draw db = (.error (.isMerged id), db) := by
  obtain ⟨_, rfl⟩ := Store.mem_of_record?_eq_some hthere
  have hclosed : (!(db.committed.assemble r).canBeModified) = true := by
    rw [PullRequest.canBeModified, Bool.not_not, Store.isMerged_assemble]
    exact hmerged
  have hscope : reassignScope r.id old now draw db.begun = (.error (.isMerged r.id), db.begun) := by
    rw [reassignScope, Attempt.bind_run, PullRequests.get_begun hserves.inService hthere]
    simp only [if_pos hclosed]
    rfl
  exact Service.unitOfWork_of_looked _ hserves.unlocked hscope

/-- Nobody is replaced who does not review the pull request. -/
theorem reassign_of_not_mem (hopen : r.status = .opened) {old : String}
    (hnot : old ∉ db.committed.reviewersOf id) (now : Int) (draw : Draw) :
    reassign id old now draw db = (.error (.notAssigned old id), db) := by
  obtain ⟨_, rfl⟩ := Store.mem_of_record?_eq_some hthere
  have hmodifiable : ¬(!(db.committed.assemble r).canBeModified) = true := by simp [hopen]
  have hother : (!(db.committed.assemble r).hasReviewer old) = true := by
    rw [Bool.not_eq_true', ← Bool.not_eq_true, Store.hasReviewer_assemble]
    exact hnot
  have hscope : reassignScope r.id old now draw db.begun =
      (.error (.notAssigned old r.id), db.begun) := by
    rw [reassignScope, Attempt.bind_run, PullRequests.get_begun hserves.inService hthere]
    simp only [if_neg hmodifiable, if_pos hother]
    rfl
  exact Service.unitOfWork_of_looked _ hserves.unlocked hscope

/-- Merging once more answers what is there. -/
theorem merge_of_merged (hmerged : r.status = .merged) (now : Int) :
    merge id now db = (.ok (db.committed.assemble r), db) := by
  have hclosed : (db.committed.assemble r).isMerged = true := Store.isMerged_assemble.mpr hmerged
  have hscope : mergeScope id now db.begun = (.ok (db.committed.assemble r), db.begun) := by
    rw [mergeScope, Attempt.bind_run, PullRequests.get_begun hserves.inService hthere]
    simp only [if_pos hclosed]
    rfl
  exact Service.unitOfWork_of_looked _ hserves.unlocked hscope

end Reviewing

end ReviewRota
