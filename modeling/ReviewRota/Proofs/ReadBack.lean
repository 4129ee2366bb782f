import ReviewRota.Proofs.CommittedStore
import ReviewRota.Proofs.Operations
import ReviewRota.Proofs.RowReading
import ReviewRota.Proofs.Workload

/-!
# ReviewRota.Proofs.ReadBack

What an operation answers is what is stored.

Two operations build their answer in memory, out of what they have just
written; the others look it up.  Either way somebody who looks right afterwards
finds the same (`Operation.ReadsBack`).

A stored pull request is joined with its reviewers as a row in which status and
reviewers are text.  Reading that row gives the pull request of the record and
its links (`Store.read_row`), since an array of texts is read back from its
written form (`Json.text_print_texts`).

* `Operation.reads_back` — after every operation that succeeds.
-/

namespace ReviewRota

/-! ## Rows -/

namespace Store

/-- The row of a stored pull request, joined with its reviewers. -/
def row (s : Store) (r : PullRequestRecord) : PullRequestRow :=
  ⟨r.id, r.title, r.author, r.status.text, r.createdAt, r.mergedAt,
    (toJson (s.reviewersOf r.id)).print⟩

/-- A row is read as the pull request that it was written for. -/
theorem read_row (s : Store) (r : PullRequestRecord) : (s.row r).read = .ok (s.assemble r) :=
  PullRequestRow.read_eq_ok_iff.mpr ⟨rfl, Json.text_print_texts (s.reviewersOf r.id)⟩

end Store

/-! ## Looking right afterwards -/

/-- The service answers this and changes nothing, unless one of these tables is
out of service. -/
def Service.Finds {α : Type} (service : Service α) (db : Database) (tables : List Table) (a : α) :
    Prop :=
  db.committed.inService tables = true → service db = (.ok a, db)

/-- The same pull request but for the order of the reviewers. -/
structure PullRequest.SameAs (p q : PullRequest) : Prop where
  reviewers : p.reviewers.Perm q.reviewers
  others : { p with reviewers := q.reviewers } = q

theorem PullRequest.SameAs.refl (p : PullRequest) : p.SameAs p := ⟨.refl _, rfl⟩

/-- Who looks for the pull request of that identifier finds `p`, and its row is
read as what they find. -/
def PullRequest.ReadBack (p : PullRequest) (id : String) (db : Database) : Prop :=
  ∃ r q, p.SameAs q ∧ (Reviewing.get id).Finds db [.pullRequests, .links] q ∧
    db.committed.record? id = some r ∧ (db.committed.row r).read = .ok q

/-- Who looks for the team of that name finds `t`, and who looks for its members
finds each as listed there. -/
structure Team.ReadBack (t : Team) (name : String) (db : Database) : Prop where
  team : (Staffing.team name).Finds db [.teams, .users] t
  members : ∀ u ∈ t.members, (Staffing.user u.id).Finds db [.users] u

/-- What the operation answers is found by who looks for it.  An operation that
writes nothing is itself one that looks. -/
def Operation.ReadsBack (db : Database) : Operation → Reply → Prop
  | .create id .., .created p => p.ReadBack id db
  | .reassign id .., .reassignment done => done.pullRequest.ReadBack id db
  | .merge id, .pullRequest p => p.ReadBack id db
  | .createTeam name _, .team t => t.ReadBack name db
  | .setActive id _, .user u => (Staffing.user id).Finds db [.users] u
  | o, _ => o.writes = false

section Lookups

variable {db : Database}

/-- What is stored is what is found. -/
theorem PullRequest.ReadBack.of_record? (hs : db.committed.Sound .immediate) {id : String}
    {r : PullRequestRecord} (hthere : db.committed.record? id = some r) {p : PullRequest}
    (hsame : p.SameAs (db.committed.assemble r)) : p.ReadBack id db := by
  obtain ⟨hr, hid⟩ := Store.mem_of_record?_eq_some hthere
  exact ⟨r, _, hsame, fun hserves => (Reviewing.get_eq_ok_iff hserves hs).mpr ⟨r, hr, hid, rfl⟩,
    hthere, db.committed.read_row r⟩

theorem Staffing.finds_user {id : String} {u : User} (hthere : db.committed.user? id = some u) :
    (user id).Finds db [.users] u := by
  intro hserves
  have hanswer : (Statement.Users.byId id).answer db.committed = some u := hthere
  rw [user, Service.direct, Gateway.Users.get, Attempt.bind_run,
    Gateway.read_connection _ _ hserves, hanswer]
  rfl

theorem Staffing.finds_team {name : String} {t : TeamRecord}
    (hthere : db.committed.team? name = some t) :
    (team name).Finds db [.teams, .users]
      ⟨t.name, (Statement.Users.ofTeam t.name).answer db.committed⟩ := by
  intro hserves
  have hteams : db.committed.inService [.teams] = true :=
    Store.inService_of_subset (by simp) hserves
  have husers : db.committed.inService [.users] = true :=
    Store.inService_of_subset (by simp) hserves
  have hanswer : (Statement.Teams.byName name).answer db.committed = some t := hthere
  have hrecord : Service.direct (Gateway.Teams.get name) db = (.ok t, db) := by
    rw [Service.direct, Gateway.Teams.get, Attempt.bind_run, Gateway.read_connection _ _ hteams,
      hanswer]
    rfl
  have hroster : Service.direct (Gateway.Users.ofTeam t.name) db =
      (.ok ((Statement.Users.ofTeam t.name).answer db.committed), db) :=
    Service.direct_read _ _ husers
  rw [team, Attempt.bind_run, hrecord]
  simp only [Attempt.bind_run, hroster]
  rfl

end Lookups

/-! ## The operations -/

theorem Store.mem_ofTeam {s : Store} {team : String} {u : User} :
    u ∈ (Statement.Users.ofTeam team).answer s ↔ u ∈ s.users ∧ u.team = some team := by
  simp [Statement.Users.ofTeam]

theorem Operation.readsBack_of_reads {o : Operation} (h : o.writes = false) {db : Database}
    {reply : Reply} : o.ReadsBack db reply := by
  cases o with
  | create | reassign | merge | createTeam | setActive => cases h
  | pullRequest | team | user | reviewsOf | userLoads | reviewerCounts => rfl

/-- What an operation has done can be read back. -/
theorem Operation.Done.readsBack {now : Int} {s : Store} {o : Operation} {reply : Reply}
    {after : Database} (h : o.Done now s reply after.committed) (hbefore : s.Sound .immediate)
    (hafter : after.committed.Sound .immediate) : o.ReadsBack after reply := by
  generalize hstore : after.committed = store at h
  cases h with
  | @created id title author draw u reviewers hauthor hnew hreviewers =>
      have hnone := hbefore.reviewersOf_eq_nil hnew
      refine .of_record? hafter (r := NewPullRequest.record ⟨id, title, author, now⟩) ?_ ⟨?_, rfl⟩
      · rw [hstore]
        exact Store.record?_withPullRequest_self reviewers hnew
      · rw [hstore]
        exact (Store.reviewersOf_withPullRequest_self (p := ⟨id, title, author, now⟩) reviewers
          hnone).symm
  | @reassigned id old draw r u new rest hthere hopen hreviews hold hdrawn _ hchange =>
      subst hchange
      rw [← hstore]
      exact .of_record? hafter (by rw [hstore]; exact hthere) (.refl _)
  | @merged id r hthere hopen =>
      refine .of_record? hafter ?_ (r := { r with status := .merged, mergedAt := some now }) ?_
      · rw [hstore]
        exact Store.record?_withMerged_self now hthere hopen
      · -- the links are those from before
        have hanswer : (s.assemble r).mergedBy now = (s.withMerged id now).assemble
            { r with status := .merged, mergedAt := some now } := by
          rw [PullRequest.mergedBy, if_neg (by simp [hopen])]
          rfl
        rw [hstore, hanswer]
        exact .refl _
  | mergedBefore hthere hmerged =>
      rw [← hstore] at hthere ⊢
      exact .of_record? hafter hthere (.refl _)
  | @teamCreated name members hnew hfree _ hchange =>
      have hteam : after.committed.team? name = some ⟨name, now⟩ := by
        rw [hstore, hchange, Store.team?, Store.teams_withMembers]
        exact Store.team?_withTeam_self now hnew
      rw [← hstore]
      refine ⟨Staffing.finds_team hteam, fun u hu => Staffing.finds_user ?_⟩
      exact hafter.user?_eq_some (Store.mem_ofTeam.mp hu).1
  | @activitySet id active u hthere =>
      apply Staffing.finds_user
      rw [hstore, Store.user?_withUser, if_pos (Store.mem_of_user?_eq_some hthere).2.symm]
  | looked hlooks => exact readsBack_of_reads hlooks

/-- **Answers agree with the store**: what an operation that succeeds answers is
what whoever looks right afterwards finds.  The reviewers of a pull request may
come in another order; everything else is the same. -/
theorem Operation.reads_back {db after : Database} (hs : db.committed.Sound .immediate)
    {o : Operation} {now : Int} {reply : Reply} (h : o.run now db = (.ok reply, after)) :
    o.ReadsBack after reply := by
  have hafter : after.committed.Sound .immediate := by
    have hsound := (Request.operation o).committed_sound now hs
    rwa [Request.run, h] at hsound
  exact ((o.allOrNothing db now).of_ok h).readsBack hs hafter

/-- A creation whose reviewers are drawn in another order than they are stored
in. -/
theorem Operation.reads_back_created :
    let user (id : String) : User := ⟨id, id, some "core", true⟩
    let store : Store := {
      teams := [⟨"core", 1⟩]
      users := [user "u1", user "u2", user "u3"] }
    let db : Database := ⟨store, 3, false⟩
    let o : Operation := .create "p0" "New" "u3" fun _ => 0
    let p : PullRequest := ⟨"p0", "New", "u3", .opened, ["u2", "u1"], 9, none⟩
    let after := (o.run 9 db).2
    store.Sound .immediate ∧ o.run 9 db = (.ok (.created p), after) ∧ p.ReadBack "p0" after := by
  intro user store db o p after
  have hs : store.Sound .immediate := by decide +kernel
  have hrun : o.run 9 db = (.ok (.created p), after) := by decide +kernel
  exact ⟨hs, hrun, reads_back hs hrun⟩

end ReviewRota
