import ReviewRota.Request
import ReviewRota.Proofs.Integrity
import ReviewRota.Proofs.Connection

/-!
# ReviewRota.Proofs.Composed

What the gateway and the requests are made of.  A `Gateway.Composed` takes a
gateway attempt apart: statements in sequence, with savepoints around some of
them; a `Service.Composed` takes a request apart: gateway calls on
connections of their own, and units of work.

What holds of all of them is then proved once, by induction over how they
are composed.  Both are data and not only facts, so that other ways to run
the same statements can be defined by recursion over them.  The first fact
is about invariants:

* `Gateway.Composed.keeps` — an invariant that no statement ends
  (`Connection.Stable`) is kept by every gateway attempt, at whatever point
  it fails;
* `Gateway.composedCall`, `Service.composedRequest` — how the calls and the
  requests are composed.
-/

namespace ReviewRota

/-! ## Invariants of attempts -/

namespace Attempt

variable {σ α β : Type} {I : σ → Prop}

/-- The attempt leads from states with `I` to states with `I`, whether it
succeeds or fails. -/
def Keeps (I : σ → Prop) (a : Attempt σ α) : Prop := ∀ s, I s → I (a s).2

theorem Keeps.pure (a : α) : Keeps I (Pure.pure a : Attempt σ α) := fun _ h => h

theorem Keeps.ofExcept (r : Except Error α) : Keeps I (Attempt.ofExcept r : Attempt σ α) :=
  fun _ h => h

theorem Keeps.bind {a : Attempt σ α} {next : α → Attempt σ β} (ha : Keeps I a)
    (hnext : ∀ x, Keeps I (next x)) : Keeps I (a >>= next) := by
  intro s hs
  have hmiddle := ha s hs
  rw [bind_run]
  cases hrun : a s with
  | mk result middle =>
      rw [hrun] at hmiddle
      cases result with
      | ok x => exact hnext x middle hmiddle
      | error e => exact hmiddle

end Attempt

/-! ## Gateway attempts -/

/-- A property of connections that no statement ends. -/
structure Connection.Stable (I : Connection → Prop) : Prop where
  query : ∀ {α : Type} (q : Query α) {c : Connection}, I c → I (c.query q).2
  execute : ∀ {α : Type} {ch : Change α}, ch.Sound → ∀ {c : Connection}, I c → I (c.execute ch).2
  openSavepoint : ∀ {name : String} {c after : Connection}, I c →
    c.openSavepoint? name = some after → I after
  rollbackTo : ∀ {name : String} {c after : Connection}, I c →
    c.rollbackTo? name = some after → I after
  release : ∀ {name : String} {c after : Connection}, I c → c.release? name = some after → I after

namespace Gateway

/-- How an attempt is composed: statements in sequence, with savepoints
around some of them. -/
inductive Composed : {α : Type} → Gateway α → Type 1 where
  | pure {α : Type} (a : α) : Composed (Pure.pure a)
  | fail {α : Type} (e : Error) : Composed (Attempt.fail e : Gateway α)
  | read {α : Type} (operation id : String) (q : Query α) : Composed (read operation id q)
  | write {α : Type} (operation id : String) (meaning : Constraint → Option Error)
      {ch : Change α} (hch : ch.Sound) : Composed (write operation id meaning ch)
  | bind {α β : Type} {g : Gateway α} {next : α → Gateway β} (hg : Composed g)
      (hnext : ∀ a, Composed (next a)) : Composed (g >>= next)
  | withinSavepoint {α : Type} {name key : String} {scope : Gateway α}
      (hname : readSavepoint? name = some (key, false)) (hscope : Composed scope) :
      Composed (withinSavepoint name scope)

def Composed.orFail {α : Type} (value : Option α) (e : Error) :
    Composed (Attempt.orFail value e) :=
  match value with
  | none => .fail e
  | some a => .pure a

def Composed.ite {α : Type} {p : Prop} [d : Decidable p] {g h : Gateway α} (hg : Composed g)
    (hh : Composed h) : Composed (if p then g else h) :=
  match d with
  | .isTrue _ => hg
  | .isFalse _ => hh

section Keeps

variable {I : Connection → Prop} (hI : Connection.Stable I)

include hI

theorem keeps_openSavepoint (name : String) : Attempt.Keeps I (openSavepoint name) := by
  intro c hc
  unfold openSavepoint
  cases hopen : c.openSavepoint? name with
  | none => exact hc
  | some after => exact hI.openSavepoint hc hopen

theorem keeps_closeSavepoint {α : Type} (name : String) (result : Except Error α) :
    Attempt.Keeps I (closeSavepoint name result) := by
  intro c hc
  have hrelease : ∀ d, I d → I ((d.release? name).getD d) := by
    intro d hd
    cases hrel : d.release? name with
    | none => exact hd
    | some after => exact hI.release hd hrel
  cases result with
  | ok a =>
      have hkept := hrelease c hc
      unfold closeSavepoint
      cases hrel : c.release? name with
      | none => exact hc
      | some after =>
          rw [hrel] at hkept
          exact hkept
  | error e =>
      apply hrelease
      cases hback : c.rollbackTo? name with
      | none => exact hc
      | some after => exact hI.rollbackTo hc hback

/-- **Invariants**: what no statement ends, no gateway attempt ends. -/
theorem Composed.keeps {α : Type} {g : Gateway α} (hg : Composed g) : Attempt.Keeps I g := by
  induction hg with
  | pure a => exact .pure a
  | fail e => exact fun _ h => h
  | read operation id q =>
      intro c hc
      have hquery := hI.query q hc
      unfold Gateway.read
      cases hrun : c.query q with
      | mk result after =>
          rw [hrun] at hquery
          cases result <;> exact hquery
  | write operation id meaning hch =>
      intro c hc
      have hexecute := hI.execute hch hc
      unfold Gateway.write
      cases hrun : c.execute _ with
      | mk result after =>
          rw [hrun] at hexecute
          cases result <;> exact hexecute
  | bind hg hnext ihg ihnext => exact ihg.bind ihnext
  | @withinSavepoint _ name _ scope hname hscope ih =>
      have hresult : Attempt.Keeps I scope.result := fun c hc => ih c hc
      exact (keeps_openSavepoint hI name).bind fun _ =>
        hresult.bind fun result => keeps_closeSavepoint hI name result

end Keeps

/-! ### The calls -/

namespace Teams

def composedCreate (name : String) (time : Int) : Composed (create name time) :=
  .bind (.write _ _ _ (Statement.Teams.sound_insert _)) fun _ => .pure _

def composedGet (name : String) : Composed (get name) :=
  .bind (.read _ _ _) fun found => .orFail found _

def composedIsThere (name : String) : Composed (isThere name) :=
  .bind (.read _ _ _) fun _ => .pure _

end Teams

def composedReadListed {α : Type} (operation team : String) (ids : List String) (q : Query α) :
    Composed (readListed operation team ids q) := .ite (.fail _) (.read _ _ _)

namespace Users

def composedCreate (u : User) : Composed (create u) :=
  .write _ _ _ (Statement.Users.sound_insert u)

def composedUpdate (u : User) : Composed (update u) :=
  .bind (.write _ _ _ (Statement.Users.sound_overwrite u)) fun _ => .ite (.fail _) (.pure _)

def composedIsThere (id : String) : Composed (isThere id) :=
  .bind (.read _ _ _) fun _ => .pure _

def composedGet (id : String) : Composed (get id) :=
  .bind (.read _ _ _) fun found => .orFail found _

def composedOfTeam (team : String) : Composed (ofTeam team) := .read _ _ _

def composedSetActive (id : String) (active : Bool) : Composed (setActive id active) :=
  .bind (.write _ _ _ (Statement.Users.sound_setActive id active)) fun found => .orFail found _

def composedActiveExcept (team : String) (excluded : List String) :
    Composed (activeExcept team excluded) := composedReadListed _ _ _ _

def composedChooseActive (team : String) (excluded : List String) (count : Nat)
    (draw : Draw) : Composed (chooseActive team excluded count draw) :=
  .bind (composedActiveExcept team excluded) fun _ => .pure _

def composedActiveElsewhere (ids : List String) (team : String) :
    Composed (activeElsewhere ids team) := .ite (.pure _) (composedReadListed _ _ _ _)

end Users

namespace PullRequests

/-- The names of the gateway's own savepoints are names, and nothing
follows them. -/
theorem readSavepoint?_own :
    readSavepoint? "create_pull_request" = some ("create_pull_request", false) ∧
      readSavepoint? "replace_reviewer" = some ("replace_reviewer", false) := by decide

def composedAddReviewers (p : NewPullRequest) :
    (reviewers : List String) → Composed (addReviewers p reviewers)
  | [] => .pure _
  | _ :: rest =>
    .bind (.write _ _ _ (Statement.PullRequests.sound_insertLink _)) fun _ =>
      composedAddReviewers p rest

def composedCreateRecord (p : NewPullRequest) : Composed (createRecord p) :=
  .write _ _ _ (Statement.PullRequests.sound_insert_new p)

def composedCreate (p : NewPullRequest) (reviewers : List String) :
    Composed (create p reviewers) :=
  .withinSavepoint readSavepoint?_own.1 <|
    .bind (composedCreateRecord p) fun _ => composedAddReviewers p reviewers

def composedSetStatus (id : String) (status : Status) (time : Int) :
    Composed (setStatus id status time) :=
  .bind (.write _ _ _ (Statement.PullRequests.sound_setStatus id status time)) fun _ =>
    .ite (.fail _) (.pure _)

def composedRemoveReviewer (id reviewer : String) : Composed (removeReviewer id reviewer) :=
  .bind (.write _ _ _ (Statement.PullRequests.sound_deleteLink id reviewer)) fun _ =>
    .ite (.fail _) (.pure _)

def composedAddReplacement (id reviewer : String) (time : Int) :
    Composed (addReplacement id reviewer time) :=
  .write _ _ _ (Statement.PullRequests.sound_insertLink _)

def composedReplaceReviewer (id old new : String) (time : Int) :
    Composed (replaceReviewer id old new time) :=
  .withinSavepoint readSavepoint?_own.2 <|
    .bind (composedRemoveReviewer id old) fun _ => composedAddReplacement id new time

def composedGet (id : String) : Composed (get id) :=
  .bind (.read _ _ _) fun found => .orFail found _

def composedIsThere (id : String) : Composed (isThere id) := .read _ _ _

def composedOfReviewer (user : String) : Composed (ofReviewer user) := .read _ _ _

def composedAll : Composed all := .read _ _ _

def composedCountByReviewer : Composed countByReviewer := .read _ _ _

end PullRequests

/-- How the calls of the gateway are composed. -/
def composedCall : (c : Call) → Composed c.run
  | .createUser u => .bind (Users.composedCreate u) fun _ => .pure _
  | .updateUser u => .bind (Users.composedUpdate u) fun _ => .pure _
  | .userThere id => .bind (Users.composedIsThere id) fun _ => .pure _
  | .user id => .bind (Users.composedGet id) fun _ => .pure _
  | .setActive id active => .bind (Users.composedSetActive id active) fun _ => .pure _
  | .roster team => .bind (Users.composedOfTeam team) fun _ => .pure _
  | .activeExcept team excluded =>
    .bind (Users.composedActiveExcept team excluded) fun _ => .pure _
  | .chooseActive team excluded count draw =>
    .bind (Users.composedChooseActive team excluded count draw) fun _ => .pure _
  | .activeElsewhere ids team => .bind (Users.composedActiveElsewhere ids team) fun _ => .pure _
  | .createTeam name time => .bind (Teams.composedCreate name time) fun _ => .pure _
  | .team name => .bind (Teams.composedGet name) fun _ => .pure _
  | .teamThere name => .bind (Teams.composedIsThere name) fun _ => .pure _
  | .createPullRequest new reviewers =>
    .bind (PullRequests.composedCreate new reviewers) fun _ => .pure _
  | .pullRequest id => .bind (PullRequests.composedGet id) fun _ => .pure _
  | .pullRequestThere id => .bind (PullRequests.composedIsThere id) fun _ => .pure _
  | .setStatus id _ time =>
    .bind (.orFail _ _) fun read =>
      .bind (PullRequests.composedSetStatus id read time) fun _ => .pure _
  | .replaceReviewer id old new time =>
    .bind (PullRequests.composedReplaceReviewer id old new time) fun _ => .pure _
  | .pullRequestsOf reviewer => .bind (PullRequests.composedOfReviewer reviewer) fun _ => .pure _
  | .allPullRequests => .bind PullRequests.composedAll fun _ => .pure _
  | .countByReviewer => .bind PullRequests.composedCountByReviewer fun _ => .pure _

/-! ### The scopes of the operations -/

/-- A choice within a team, if there is one. -/
def composedChoice (excluded : List String) (count : Nat) (draw : Draw) :
    (team : Option String) → Composed (match team with
      | some team => Users.chooseActive team excluded count draw
      | none => pure [])
  | some team => Users.composedChooseActive team excluded count draw
  | none => .pure []

def composedChooseReviewers (author : User) (draw : Draw) :
    Composed (Reviewing.chooseReviewers author draw) :=
  composedChoice [author.id] Reviewing.maxReviewers draw author.team

def composedChooseReplacement (old : User) (excluded : List String) (draw : Draw) :
    Composed (Reviewing.chooseReplacement old excluded draw) :=
  composedChoice excluded 1 draw old.team

def composedEnrol (u : User) : Composed (Staffing.enrol u) :=
  .bind (Users.composedIsThere _) fun _ =>
    .ite (Users.composedUpdate _) (Users.composedCreate _)

def composedEnrolAll (team : String) :
    (members : List NewMember) → Composed (Staffing.enrolAll team members)
  | [] => .pure _
  | _ :: rest => .bind (composedEnrol _) fun _ => composedEnrolAll team rest

def composedCreateScope (id title author : String) (now : Int) (draw : Draw) :
    Composed (Reviewing.createScope id title author now draw) :=
  .bind (PullRequests.composedIsThere id) fun _ => .ite (.fail _) <|
    .bind (Users.composedGet author) fun writer =>
      .bind (composedChooseReviewers writer draw) fun _ =>
        .bind (PullRequests.composedCreate _ _) fun _ => .pure _

/-- What is done with the candidates for a reviewer's place. -/
def composedReplacement (id old : String) (now : Int) : (candidates : List User) →
    Composed (match candidates with
      | [] => (Attempt.fail .noCandidate : Gateway Reassignment)
      | new :: _ => do
        PullRequests.replaceReviewer id old new.id now
        let updated ← PullRequests.get id
        return ⟨updated, new.id⟩)
  | [] => .fail _
  | _ :: _ =>
    .bind (PullRequests.composedReplaceReviewer _ _ _ _) fun _ =>
      .bind (PullRequests.composedGet _) fun _ => .pure _

def composedReassignScope (id old : String) (now : Int) (draw : Draw) :
    Composed (Reviewing.reassignScope id old now draw) :=
  .bind (PullRequests.composedGet id) fun p => .ite (.fail _) <| .ite (.fail _) <|
    .bind (Users.composedGet old) fun reviewer =>
      .bind (composedChooseReplacement reviewer _ draw) fun candidates =>
        composedReplacement p.id old now candidates

def composedMergeScope (id : String) (now : Int) :
    Composed (Reviewing.mergeScope id now) :=
  .bind (PullRequests.composedGet id) fun _ =>
    .ite (.pure _) (.bind (PullRequests.composedSetStatus _ _ _) fun _ => .pure _)

/-- What is done when it is known who may not be moved. -/
def composedFounding (name : String) (members : List NewMember) (now : Int) :
    (blocked : List String) → Composed (match blocked with
      | [] => do
        let _ ← Teams.create name now
        Staffing.enrolAll name members
        let roster ← Users.ofTeam name
        return ⟨name, roster⟩
      | blocked => (Attempt.fail (.crossTeamActive blocked) : Gateway Team))
  | [] =>
    .bind (Teams.composedCreate name now) fun _ =>
      .bind (composedEnrolAll name members) fun _ =>
        .bind (Users.composedOfTeam name) fun _ => .pure _
  | _ :: _ => .fail _

def composedCreateTeamScope (name : String) (members : List NewMember) (now : Int) :
    Composed (Staffing.createTeamScope name members now) :=
  .bind (Teams.composedIsThere name) fun _ => .ite (.fail _) <|
    .bind (Users.composedActiveElsewhere _ name) (composedFounding name members now)

end Gateway

/-! ## Requests -/

/-- A property of databases, and what it means for a connection to one. -/
structure Database.Stable (J : Database → Prop) (I : Connection → Prop) : Prop
    extends Connection.Stable I where
  connected : ∀ {db : Database}, J db → I db.connection
  begun : ∀ {db : Database} {c : Connection}, J db → db.begin? = some c → I c
  database : ∀ {c : Connection}, I c → J c.database
  rolledBack : ∀ {c : Connection}, I c → J c.rollback
  committed : ∀ {c : Connection} {db : Database}, I c → c.commit? = some db → J db

namespace Service

/-- How a request is composed: gateway calls on connections of their own and
units of work, in sequence. -/
inductive Composed : {α : Type} → Service α → Type 1 where
  | pure {α : Type} (a : α) : Composed (Pure.pure a)
  | ofExcept {α : Type} (r : Except Error α) : Composed (Attempt.ofExcept r : Service α)
  | direct {α : Type} {call : Gateway α} (hcall : Gateway.Composed call) : Composed (direct call)
  | unitOfWork {α : Type} (operation : String) {scope : Gateway α}
      (hscope : Gateway.Composed scope) : Composed (unitOfWork operation scope)
  | bind {α β : Type} {service : Service α} {next : α → Service β} (hs : Composed service)
      (hnext : ∀ a, Composed (next a)) : Composed (service >>= next)

/-- **Invariants**: what no statement and no end of a transaction ends, no
request ends. -/
theorem Composed.keeps {J : Database → Prop} {I : Connection → Prop} (hJ : Database.Stable J I)
    {α : Type} {service : Service α} (hs : Composed service) : Attempt.Keeps J service := by
  induction hs with
  | pure a => exact .pure a
  | ofExcept r => exact .ofExcept r
  | direct hcall => exact fun db hdb => hJ.database (hcall.keeps hJ.toStable _ (hJ.connected hdb))
  | @unitOfWork _ operation scope hscope =>
      intro db hdb
      unfold Service.unitOfWork
      cases hbegin : db.begin? with
      | none => exact hdb
      | some c =>
          have hc := hscope.keeps hJ.toStable c (hJ.begun hdb hbegin)
          cases hrun : scope c with
          | mk result after =>
              rw [hrun] at hc
              simp only [hrun]
              cases result with
              | error e => exact hJ.rolledBack hc
              | ok a =>
                  cases hcommit : after.commit? with
                  | none =>
                      simp only [hcommit]
                      exact hJ.rolledBack hc
                  | some db =>
                      simp only [hcommit]
                      exact hJ.committed hc hcommit
  | bind hs hnext ihs ihnext => exact ihs.bind ihnext

def Composed.ite {α : Type} {p : Prop} [d : Decidable p] {service other : Service α}
    (hs : Composed service) (ho : Composed other) : Composed (if p then service else other) :=
  match d with
  | .isTrue _ => hs
  | .isFalse _ => ho

/-- What passes a guard is still composed. -/
def Composed.guarded {α : Type} (guard : Except Error Unit) {service : Service α}
    (hs : Composed service) : Composed (Desk.guarded guard service) :=
  .bind (.ofExcept guard) fun _ => hs

/-! ### The operations -/

open Gateway

def composedCreate (id title author : String) (now : Int) (draw : Draw) :
    Composed (Reviewing.create id title author now draw) :=
  .unitOfWork _ (composedCreateScope id title author now draw)

def composedReassign (id old : String) (now : Int) (draw : Draw) :
    Composed (Reviewing.reassign id old now draw) :=
  .unitOfWork _ (composedReassignScope id old now draw)

def composedMerge (id : String) (now : Int) : Composed (Reviewing.merge id now) :=
  .unitOfWork _ (composedMergeScope id now)

def composedCreateTeam (name : String) (members : List NewMember) (now : Int) :
    Composed (Staffing.createTeam name members now) :=
  .unitOfWork _ (composedCreateTeamScope name members now)

def composedTeam (name : String) : Composed (Staffing.team name) :=
  .bind (.direct (Teams.composedGet name)) fun _ =>
    .bind (.direct (Users.composedOfTeam _)) fun _ => .pure _

def composedReviewsOf (user : String) : Composed (Reporting.reviewsOf user) :=
  .bind (.direct (PullRequests.composedOfReviewer user)) fun _ => .pure _

def composedSetActive (id : String) (active : Bool) : Composed (Staffing.setActive id active) :=
  .direct (Users.composedSetActive id active)

def composedUserLoads : Composed Reporting.userLoads :=
  .bind (.direct PullRequests.composedCountByReviewer) fun _ => .pure _

def composedReviewerCounts : Composed Reporting.reviewerCounts :=
  .bind (.direct PullRequests.composedAll) fun _ => .pure _

def composedWorkload : Composed Reporting.workload :=
  .bind composedUserLoads fun _ => .bind composedReviewerCounts fun _ => .pure _

def composedOperation (now : Int) : (o : Operation) → Composed (o.run now)
  | .create id title author draw => .bind (composedCreate id title author now draw) fun _ => .pure _
  | .reassign id old draw => .bind (composedReassign id old now draw) fun _ => .pure _
  | .merge id => .bind (composedMerge id now) fun _ => .pure _
  | .pullRequest id => .bind (.direct (PullRequests.composedGet id)) fun _ => .pure _
  | .createTeam name members => .bind (composedCreateTeam name members now) fun _ => .pure _
  | .team name => .bind (composedTeam name) fun _ => .pure _
  | .setActive id active => .bind (composedSetActive id active) fun _ => .pure _
  | .user id => .bind (.direct (Users.composedGet id)) fun _ => .pure _
  | .reviewsOf id => .bind (composedReviewsOf id) fun _ => .pure _
  | .userLoads => .bind composedUserLoads fun _ => .pure _
  | .reviewerCounts => .bind composedReviewerCounts fun _ => .pure _

/-- What a caller gets to see of a user's reviews. -/
def composedUserReviews (caller : Caller) (user : String) :
    Composed (Desk.userReviews caller user) :=
  .guarded _ (.ite (.bind (composedReviewsOf user) fun _ => .pure _)
    (.bind (.pure _) fun _ => .pure _))

def composedSubmission (now : Int) : (s : Submission) → Composed (s.run now)
  | .create _ r draw =>
    .bind (.guarded _ (composedCreate r.id r.title r.author now draw)) fun _ => .pure _
  | .reassign _ r draw =>
    .bind (.guarded _ (composedReassign r.pullRequest r.old now draw)) fun _ => .pure _
  | .merge _ r => .bind (.guarded _ (composedMerge r.pullRequest now)) fun _ => .pure _
  | .addTeam r => .bind (.guarded _ (composedCreateTeam r.name r.members now)) fun _ => .pure _
  | .team name => .bind (.guarded _ (composedTeam name)) fun _ => .pure _
  | .setActive _ r => .bind (.guarded _ (composedSetActive r.user r.active)) fun _ => .pure _
  | .userReviews caller user => .bind (composedUserReviews caller user) fun _ => .pure _
  | .workload => .bind composedWorkload fun _ => .pure _

/-- How the requests are composed of gateway calls and units of work. -/
def composedRequest (now : Int) : (r : Request) → Composed (r.run now)
  | .operation o => composedOperation now o
  | .submission s => composedSubmission now s

end Service

end ReviewRota
