import ReviewRota.Proofs.Reading
import ReviewRota.Proofs.Scopes

/-!
# ReviewRota.Proofs.Operations

What the operations have done when they succeed, said once: every later
fact about them is a case analysis over `Operation.Done`, and no proof looks
at their text again.

* `Operation.Done` — the store before, the answer and the store afterwards,
  one constructor for each way to succeed;
* `Request.allOrNothing` — a request that fails changes nothing, and one
  that succeeds has done its operation, if there is one behind it.
-/

namespace ReviewRota

/-! ## All or nothing -/

/-- The service fails and leaves the database as it is, or it succeeds, and
then `P` holds of its answer and of what is committed afterwards. -/
def Service.AllOrNothing {α : Type} (service : Service α) (db : Database)
    (P : α → Store → Prop) : Prop :=
  (∃ e, service db = (.error e, db)) ∨
    ∃ a after, service db = (.ok a, after) ∧ P a after.committed

namespace Service.AllOrNothing

variable {α β : Type} {service : Service α} {db : Database} {P : α → Store → Prop}

/-- What holds of every value that is answered holds of this one. -/
theorem of_ok (h : AllOrNothing service db P) {a : α} {after : Database}
    (hrun : service db = (.ok a, after)) : P a after.committed := by
  obtain ⟨e, hfailed⟩ | ⟨b, last, hdone, hP⟩ := h
  · exact nomatch hrun.symm.trans hfailed
  · obtain ⟨hanswer, rfl⟩ := Prod.mk.inj (hrun.symm.trans hdone)
    obtain rfl := Except.ok.inj hanswer
    exact hP

/-- Giving the answer another form changes nothing else. -/
theorem map {Q : β → Store → Prop} {f : α → β}
    (h : AllOrNothing service db fun a after => Q (f a) after) :
    AllOrNothing (do return f (← service)) db Q := by
  obtain ⟨e, hrun⟩ | ⟨a, after, hrun, hQ⟩ := h
  · exact Or.inl ⟨e, by rw [Attempt.bind_run, hrun]⟩
  · exact Or.inr ⟨f a, after, by rw [Attempt.bind_run, hrun]; rfl, hQ⟩

/-- A guard in front fails, or lets pass. -/
theorem guarded (guard : Except Error Unit) (h : AllOrNothing service db P) :
    AllOrNothing (Desk.guarded guard service) db P := by
  cases guard with
  | error e => exact Or.inl ⟨e, rfl⟩
  | ok _ => exact h

/-- What only reads changes nothing. -/
theorem of_readOnly {hs : Service.Composed service} (h : hs.ReadOnly)
    (hP : ∀ a, P a db.committed) : AllOrNothing service db P := by
  obtain ⟨r, hrun⟩ := h.run db.committed
  cases r with
  | error e => exact Or.inl ⟨e, hrun db rfl⟩
  | ok a => exact Or.inr ⟨a, db, hrun db rfl, hP a⟩

/-- A unit of work is all or nothing. -/
theorem unitOfWork {scope : Gateway α} (hscope : Gateway.Composed scope) (operation : String)
    (hP : ∀ a after, Gateway.Leads .immediate scope db.committed (.ok a) after → P a after) :
    AllOrNothing (Service.unitOfWork operation scope) db P := by
  obtain ⟨e, hrun⟩ | ⟨a, after, changed, hleads, hrun⟩ := unitOfWork_cases hscope operation db
  · exact Or.inl ⟨e, hrun⟩
  · exact Or.inr ⟨a, _, hrun, hP a after hleads⟩

end Service.AllOrNothing

/-! ## What operations have done -/

/-- What a successful operation has done at a time to the store `s`: its
answer, and the store that it leaves behind. -/
inductive Operation.Done (now : Int) (s : Store) : Operation → Reply → Store → Prop where
  /-- A pull request was stored with reviewers drawn from the team of its
  author. -/
  | created {id title author : String} {draw : Draw} {u : User} {reviewers : List String}
      (hauthor : s.user? author = some u) (hnew : s.record? id = none)
      (hreviewers : reviewers =
        (Reviewing.drawn s u.team [author] Reviewing.maxReviewers draw).map User.id) :
      Done now s (.create id title author draw)
        (.created (NewPullRequest.opened ⟨id, title, author, now⟩ reviewers))
        (s.withPullRequest ⟨id, title, author, now⟩ reviewers)
  /-- A reviewer of an open pull request was replaced by the one drawn from
  the reviewer's own team. -/
  | reassigned {id old : String} {draw : Draw} {r : PullRequestRecord} {u new : User}
      {rest : List User} (hthere : s.record? id = some r) (hopen : r.status = .opened)
      (hreviews : old ∈ s.reviewersOf id) (hold : s.user? old = some u)
      (hdrawn :
        Reviewing.drawn s u.team (s.reviewersOf id ++ [r.author]) 1 draw = new :: rest)
      {after : Store} (hafter : after = s.withReplacement id old new.id now) :
      Done now s (.reassign id old draw) (.reassignment ⟨after.assemble r, new.id⟩) after
  /-- An open pull request was merged. -/
  | merged {id : String} {r : PullRequestRecord} (hthere : s.record? id = some r)
      (hopen : r.status = .opened) :
      Done now s (.merge id) (.pullRequest ((s.assemble r).mergedBy now)) (s.withMerged id now)
  /-- A merged pull request was answered as it is. -/
  | mergedBefore {id : String} {r : PullRequestRecord} (hthere : s.record? id = some r)
      (hmerged : r.status = .merged) :
      Done now s (.merge id) (.pullRequest (s.assemble r)) s
  /-- A team was stored, and its members were taken into it; none of them
  was blocked. -/
  | teamCreated {name : String} {members : List NewMember} (hnew : s.team? name = none)
      (hfree :
        (Statement.Users.activeElsewhere (members.map NewMember.id) name).answer s = [])
      {after : Store} (hafter : after = Store.withMembers name members (s.withTeam ⟨name, now⟩)) :
      Done now s (.createTeam name members)
        (.team ⟨name, (Statement.Users.ofTeam name).answer after⟩) after
  /-- The active flag of a user was set. -/
  | activitySet {id : String} {active : Bool} {u : User} (hthere : s.user? id = some u) :
      Done now s (.setActive id active) (.user { u with active := active })
        (s.withUser { u with active := active })
  /-- Something was looked up. -/
  | looked {o : Operation} (hlooks : o.writes = false) (reply : Reply) : Done now s o reply s

/-- A write on a connection of its own fails and changes nothing, or
commits. -/
theorem Gateway.write_connection_cases {α : Type} (operation id : String)
    (meaning : Constraint → Option Error) (ch : Change α) (db : Database) :
    (∃ e, write operation id meaning ch db.connection = (.error e, db.connection)) ∨
      ∃ effect, db.locked = false ∧ ch.apply .immediate db.committed = .ok effect ∧
        write operation id meaning ch db.connection =
          (.ok effect.value, (db.commit effect.store (0 < effect.rows)).connection) := by
  unfold write
  obtain ⟨fault, h⟩ | ⟨effect, hfree, happly, h⟩ := Connection.execute_connection_cases ch db
  · rw [h]
    exact Or.inl ⟨_, rfl⟩
  · rw [h]
    exact Or.inr ⟨effect, hfree, happly, rfl⟩

/-! ## The operations -/

section Operations

variable (db : Database)

theorem Reviewing.create_allOrNothing (id title author : String) (now : Int) (draw : Draw) :
    (Reviewing.create id title author now draw).AllOrNothing db fun p after =>
      Operation.Done now db.committed (.create id title author draw) (.created p) after := by
  apply Service.AllOrNothing.unitOfWork (Gateway.composedCreateScope id title author now draw)
  intro p after h
  obtain ⟨u, hu, hnew, rfl, rfl⟩ := Gateway.of_leads_createScope h
  exact .created hu hnew rfl

theorem Reviewing.reassign_allOrNothing (id old : String) (now : Int) (draw : Draw) :
    (Reviewing.reassign id old now draw).AllOrNothing db fun done after =>
      Operation.Done now db.committed (.reassign id old draw) (.reassignment done) after := by
  apply Service.AllOrNothing.unitOfWork (Gateway.composedReassignScope id old now draw)
  intro done after h
  obtain ⟨r, u, new, rest, hr, hopen, hreviews, hu, hdrawn, rfl, rfl⟩ :=
    Gateway.of_leads_reassignScope h
  exact .reassigned hr hopen hreviews hu hdrawn rfl

theorem Reviewing.merge_allOrNothing (id : String) (now : Int) :
    (Reviewing.merge id now).AllOrNothing db fun p after =>
      Operation.Done now db.committed (.merge id) (.pullRequest p) after := by
  apply Service.AllOrNothing.unitOfWork (Gateway.composedMergeScope id now)
  intro p after h
  obtain ⟨r, hr, ⟨hmerged, rfl, rfl⟩ | ⟨hopen, rfl, rfl⟩⟩ := Gateway.of_leads_mergeScope h
  · exact .mergedBefore hr hmerged
  · exact .merged hr hopen

theorem Staffing.createTeam_allOrNothing (name : String) (members : List NewMember)
    (now : Int) :
    (Staffing.createTeam name members now).AllOrNothing db fun team after =>
      Operation.Done now db.committed (.createTeam name members) (.team team) after := by
  apply Service.AllOrNothing.unitOfWork (Gateway.composedCreateTeamScope name members now)
  intro team after h
  obtain ⟨hnew, hfree, rfl, rfl⟩ := Gateway.of_leads_createTeamScope h
  exact .teamCreated hnew hfree rfl

/-- Setting the active flag is a single statement, which commits on its
own. -/
theorem Staffing.setActive_allOrNothing (id : String) (active : Bool) (now : Int) :
    (Staffing.setActive id active).AllOrNothing db fun u after =>
      Operation.Done now db.committed (.setActive id active) (.user u) after := by
  unfold Staffing.setActive Service.AllOrNothing Service.direct Gateway.Users.setActive
  simp only [Attempt.bind_run]
  obtain ⟨e, h⟩ | ⟨effect, hfree, happly, h⟩ := Gateway.write_connection_cases
    "users.set_is_active" id Gateway.noMeaning (Statement.Users.setActive id active) db
  · rw [h]
    exact Or.inl ⟨e, rfl⟩
  · rw [h]
    obtain ⟨_, rfl⟩ | ⟨u, hu, rfl⟩ := Statement.Users.setActive_apply_eq_ok_iff.mp happly
    · -- nobody was found
      exact Or.inl ⟨_, congrArg (Prod.mk _) (Database.commit_nothing hfree)⟩
    · obtain ⟨_, hid⟩ := Store.mem_of_user?_eq_some hu
      have hthere : (db.committed.user? u.id).isSome := by
        rw [hid, hu]
        rfl
      let updated : User := { u with active := active }
      have hstore : db.committed.withUser updated =
          { db.committed with
            users := Statement.Users.replaceIn updated db.committed.users } :=
        Store.withUser_of_there hthere
      refine Or.inr ⟨_, _, rfl, ?_⟩
      simp only [Database.commit]
      rw [← hstore]
      exact .activitySet hu

theorem Operation.allOrNothing (now : Int) (o : Operation) :
    (o.run now).AllOrNothing db (Done now db.committed o) := by
  have looks (hlooks : o.writes = false) : (o.run now).AllOrNothing db (Done now db.committed o) :=
    .of_readOnly (Service.readOnly_composedOperation now hlooks) (.looked hlooks)
  cases o with
  | create id title author draw =>
      exact .map (Reviewing.create_allOrNothing db id title author now draw)
  | reassign id old draw => exact .map (Reviewing.reassign_allOrNothing db id old now draw)
  | merge id => exact .map (Reviewing.merge_allOrNothing db id now)
  | createTeam name members =>
      exact .map (Staffing.createTeam_allOrNothing db name members now)
  | setActive id active => exact .map (Staffing.setActive_allOrNothing db id active now)
  | pullRequest id => exact looks rfl
  | team name => exact looks rfl
  | user id => exact looks rfl
  | reviewsOf id => exact looks rfl
  | userLoads => exact looks rfl
  | reviewerCounts => exact looks rfl

/-! ## The requests -/

/-- What a successful request has done: its operation, or nothing. -/
def Request.Done (now : Int) (s : Store) (r : Request) (reply : Reply) (after : Store) : Prop :=
  match r.operation? with
  | some o => o.Done now s reply after
  | none => after = s

/-- What passes the guards of the desk goes to the operation. -/
theorem Submission.allOrNothing (now : Int) (s : Submission) :
    (s.run now).AllOrNothing db (Request.Done now db.committed (.submission s)) := by
  have looks (hlooks : (Request.submission s).writes = false)
      (hdone : ∀ reply, Request.Done now db.committed (.submission s) reply db.committed) :
      (s.run now).AllOrNothing db (Request.Done now db.committed (.submission s)) :=
    .of_readOnly (Service.readOnly_composedRequest now hlooks) hdone
  cases s with
  | create caller r draw =>
      exact .map (.guarded _ (Reviewing.create_allOrNothing db r.id r.title r.author now draw))
  | reassign caller r draw =>
      exact .map (.guarded _ (Reviewing.reassign_allOrNothing db r.pullRequest r.old now draw))
  | merge caller r => exact .map (.guarded _ (Reviewing.merge_allOrNothing db r.pullRequest now))
  | addTeam r =>
      exact .map (.guarded _ (Staffing.createTeam_allOrNothing db r.name r.members now))
  | team name => exact looks rfl fun reply => .looked rfl reply
  | setActive caller r =>
      exact .map (.guarded _ (Staffing.setActive_allOrNothing db r.user r.active now))
  | userReviews caller user => exact looks rfl fun _ => rfl
  | workload => exact looks rfl fun _ => rfl

/-- **All or nothing**: a request fails and changes nothing, or it succeeds
and has done its operation, if there is one behind it. -/
theorem Request.allOrNothing (now : Int) (r : Request) :
    (r.run now).AllOrNothing db (Done now db.committed r) := by
  cases r with
  | operation o => exact o.allOrNothing db now
  | submission s => exact s.allOrNothing db now

end Operations

end ReviewRota
