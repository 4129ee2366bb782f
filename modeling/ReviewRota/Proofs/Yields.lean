import ReviewRota.Proofs.Scopes
import ReviewRota.Proofs.Workload

/-!
# ReviewRota.Proofs.Yields

What gateway attempts come to inside a transaction, forwards: given what the
working store holds, the result and the store that is left behind.  This is
`Gateway.Yields`.  Where `Gateway.Leads` says what has happened if an attempt
succeeded, a theorem about `Yields` says that it does succeed, or with which
error it does not.

The first half has one lemma for each way to compose attempts, the second one
for each function of the gateway.  They say that the function succeeds if the
tables it needs are in service and the constraints on what it writes hold.

* `Service.unitOfWork_of_yields_ok`, `Service.unitOfWork_of_yields_error` — the
  unit of work around an attempt.
-/

namespace ReviewRota

namespace Gateway

open Connection

variable {α β : Type} {s middle after : Store}

/-- Inside every transaction that was begun and that looks at references
immediately, the attempt answers `r` at the working store `s` and leaves the
working store `after` behind. -/
def Yields (g : Gateway α) (s : Store) (r : Except Error α) (after : Store) : Prop :=
  ∀ (db : Database) (savepoints : List Savepoint) (changed : Bool), ∃ changed',
    g (working db .immediate savepoints changed s) =
      (r, working db .immediate savepoints changed' after)

/-! ## Composition -/

namespace Yields

theorem pure (a : α) : Yields (Pure.pure a) s (.ok a) s := fun _ _ changed => ⟨changed, rfl⟩

theorem fail (e : Error) : Yields (Attempt.fail e : Gateway α) s (.error e) s :=
  fun _ _ changed => ⟨changed, rfl⟩

theorem read (operation id : String) {q : Query α} (hready : s.inService q.tables = true) :
    Yields (read operation id q) s (.ok (q.answer s)) s := by
  intro db savepoints changed
  have hquery : q.ready s = true := hready
  refine ⟨changed, ?_⟩
  rw [Gateway.read, query_working, if_pos hquery]

theorem readListed (operation team : String) {ids : List String} {q : Query α}
    (hready : s.inService q.tables = true) (hfits : ids.length ≤ maxListed) :
    Yields (readListed operation team ids q) s (.ok (q.answer s)) s := by
  rw [readListed_of_le _ _ _ hfits]
  exact .read operation team hready

theorem write (operation id : String) (meaning : Constraint → Option Error) {ch : Change α}
    {e : Effect α} (hready : ch.ready s = true) (happly : ch.apply .immediate s = .ok e) :
    Yields (write operation id meaning ch) s (.ok e.value) e.store := by
  intro db savepoints changed
  obtain ⟨changed', hexecute⟩ := execute_working db .immediate savepoints changed s ch
  have hon : ch.on .immediate s = (.ok e.value, e.store) :=
    Change.on_eq_ok_iff.mpr ⟨hready, e, happly, rfl, rfl⟩
  refine ⟨changed', ?_⟩
  rw [Gateway.write, hexecute, hon]

/-- A statement that is refused answers what the fault means and changes nothing. -/
theorem write_error (operation id : String) (meaning : Constraint → Option Error) {ch : Change α}
    {fault : Fault} (hready : ch.ready s = true) (happly : ch.apply .immediate s = .error fault) :
    Yields (Gateway.write operation id meaning ch) s
      (.error (fault.toError operation id meaning)) s := by
  intro db savepoints changed
  obtain ⟨changed', hexecute⟩ := execute_working db .immediate savepoints changed s ch
  have hon : ch.on .immediate s = (.error fault, s) := by
    rw [Change.on, if_pos hready, happly]
  refine ⟨changed', ?_⟩
  rw [Gateway.write, hexecute, hon]

theorem bind {g : Gateway α} {next : α → Gateway β} {a : α} {r : Except Error β}
    (hg : Yields g s (.ok a) middle) (hnext : Yields (next a) middle r after) :
    Yields (g >>= next) s r after := by
  intro db savepoints changed
  obtain ⟨changed', hrun⟩ := hg db savepoints changed
  obtain ⟨changed'', hrest⟩ := hnext db savepoints changed'
  exact ⟨changed'', by rw [Attempt.bind_run, hrun]; exact hrest⟩

/-- What fails first fails as a whole. -/
theorem bind_error {g : Gateway α} (next : α → Gateway β) {e : Error}
    (hg : Yields g s (.error e) after) : Yields (g >>= next) s (.error e) after := by
  intro db savepoints changed
  obtain ⟨changed', hrun⟩ := hg db savepoints changed
  exact ⟨changed', by rw [Attempt.bind_run, hrun]⟩

/-- A savepoint of a name of its own does not matter to what succeeds. -/
theorem withinSavepoint {name key : String} (hname : readSavepoint? name = some (key, false))
    {scope : Gateway α} {a : α} (h : Yields scope s (.ok a) after) :
    Yields (withinSavepoint name scope) s (.ok a) after := by
  intro db savepoints changed
  obtain ⟨changed', hrun⟩ := h db (⟨key, s⟩ :: savepoints) changed
  exact ⟨changed', withinSavepoint_working_ok hname hrun⟩

/-- What fails in a savepoint leaves nothing behind. -/
theorem withinSavepoint_error {name key : String} (hname : readSavepoint? name = some (key, false))
    {scope : Gateway α} {e : Error} (h : Yields scope s (.error e) after) :
    Yields (Gateway.withinSavepoint name scope) s (.error e) s := by
  intro db savepoints changed
  obtain ⟨changed', hrun⟩ := h db (⟨key, s⟩ :: savepoints) changed
  exact ⟨changed', withinSavepoint_working_error hname hrun⟩

end Yields

end Gateway

namespace Service

open Connection Gateway

variable {α : Type} {scope : Gateway α} {db : Database} {after : Store}

/-- A unit of work whose scope fails answers the error and changes nothing. -/
theorem unitOfWork_of_yields_error (operation : String) (hfree : db.locked = false) {e : Error}
    (h : Yields scope db.committed (.error e) after) :
    unitOfWork operation scope db = (.error e, db) := by
  obtain ⟨changed, hrun⟩ := h db [] false
  have hback : (working db .immediate [] changed after).rollback = db :=
    Connection.Begun.rollback_eq ⟨rfl, _, rfl, rfl, rfl, rfl⟩ hfree
  rw [unitOfWork, Database.begin?_of_unlocked hfree, begun_eq_working]
  simp only [hrun, hback]

/-- A unit of work whose scope succeeds answers its value and commits what it
leaves behind. -/
theorem unitOfWork_of_yields_ok (operation : String) (hfree : db.locked = false) {a : α}
    (h : Yields scope db.committed (.ok a) after) :
    ∃ changed, unitOfWork operation scope db = (.ok a, db.commit after changed) := by
  obtain ⟨changed, hrun⟩ := h db [] false
  refine ⟨changed, ?_⟩
  rw [unitOfWork, Database.begin?_of_unlocked hfree, begun_eq_working]
  simp only [hrun]
  rfl

end Service

/-! ## Users and teams -/

namespace Gateway

open Statement Store

variable {s : Store}

theorem Teams.yields_isThere (name : String) (hserves : s.inService [.teams] = true) :
    Yields (Teams.isThere name) s (.ok (s.team? name).isSome) s :=
  .bind (.read _ _ hserves) (.pure _)

theorem Teams.yields_create {name : String} (time : Int) (hserves : s.inService [.teams] = true)
    (hnew : s.team? name = none) :
    Yields (Teams.create name time) s (.ok ⟨name, time⟩) (s.withTeam ⟨name, time⟩) :=
  .bind (.write _ _ _ hserves (Teams.insert_apply_eq_ok_iff.mpr ⟨hnew, rfl⟩)) (.pure _)

namespace Users

variable (hserves : s.inService [.users] = true)

include hserves

theorem yields_isThere (id : String) :
    Yields (isThere id) s (.ok (s.user? id).isSome) s :=
  .bind (.read _ _ hserves) (.pure _)

theorem yields_get {id : String} {u : User} (hthere : s.user? id = some u) :
    Yields (get id) s (.ok u) s := by
  have hfound : (Statement.Users.byId id).answer s = some u := hthere
  refine .bind (.read _ _ hserves) ?_
  rw [hfound]
  exact .pure u

theorem yields_get_of_none {id : String} (hnone : s.user? id = none) :
    Yields (get id) s (.error (.notFound .user id)) s := by
  have hfound : (Statement.Users.byId id).answer s = none := hnone
  refine .bind (.read _ _ hserves) ?_
  rw [hfound]
  exact .fail _

theorem yields_ofTeam (team : String) :
    Yields (ofTeam team) s (.ok ((Statement.Users.ofTeam team).answer s)) s := .read _ _ hserves

/-- A choice within a team, if there is one.  Only then has the list of the
excluded to fit into a statement. -/
theorem yields_choice (team : Option String) {excluded : List String} (count : Nat)
    (draw : Draw) (hfits : team.isSome → excluded.length ≤ maxListed) :
    Yields (match team with
      | some team => chooseActive team excluded count draw
      | none => Pure.pure []) s (.ok (Reviewing.drawn s team excluded count draw)) s := by
  cases team with
  | none =>
      rw [Reviewing.drawn_none]
      exact Yields.pure []
  | some team => exact .bind (.readListed _ _ hserves (hfits rfl)) (.pure _)

theorem yields_create {u : User} (hnew : s.user? u.id = none) (hteam : s.knowsTeamOf u = true) :
    Yields (create u) s (.ok ()) { s with users := insertRow User.before u s.users } :=
  .write _ _ _ hserves (Statement.Users.insert_apply_eq_ok_iff.mpr ⟨hnew, fun _ => hteam, rfl⟩)

theorem yields_update {u : User} (hthere : (s.user? u.id).isSome)
    (hteam : s.knowsTeamOf u = true) :
    Yields (update u) s (.ok ()) { s with users := Statement.Users.replaceIn u s.users } :=
  .bind
    (.write _ _ _ hserves
      (Statement.Users.overwrite_apply_eq_ok_iff.mpr (Or.inr ⟨hthere, fun _ => hteam, rfl⟩)))
    (.pure ())

/-- Whether they are there or not, a user of a known team is enrolled. -/
theorem yields_enrol {u : User} (hteam : s.knowsTeamOf u = true) :
    Yields (Staffing.enrol u) s (.ok ()) (s.withUser u) := by
  refine .bind (yields_isThere hserves u.id) ?_
  by_cases hthere : (s.user? u.id).isSome
  · rw [if_pos hthere, withUser_of_there hthere]
    exact yields_update hserves hthere hteam
  · have hnew : s.user? u.id = none := Option.not_isSome_iff_eq_none.mp hthere
    rw [if_neg hthere, withUser_of_none hnew]
    exact yields_create hserves hnew hteam

end Users

/-- Everybody is enrolled in a team that is there: enrolling one of them takes
neither the team away nor a table out of service. -/
theorem yields_enrolAll {team : String} (members : List NewMember)
    (hserves : s.inService [.users] = true) (hteam : (s.team? team).isSome) :
    Yields (Staffing.enrolAll team members) s (.ok ()) (withMembers team members s) := by
  induction members generalizing s with
  | nil => exact .pure ()
  | cons m rest ih =>
      exact .bind (Users.yields_enrol hserves hteam) (ih hserves hteam)

/-- Nobody asks the store about nobody. -/
theorem Users.yields_activeElsewhere {ids : List String} (team : String)
    (hfits : ids.length ≤ maxListed)
    (hserves : s.inService [.users, .links, .pullRequests] = true) :
    Yields (Users.activeElsewhere ids team) s
      (.ok ((Statement.Users.activeElsewhere ids team).answer s)) s := by
  unfold Users.activeElsewhere
  by_cases hids : ids = []
  · rw [if_pos hids, hids, Statement.Users.answer_activeElsewhere_nil]
    exact .pure []
  · rw [if_neg hids]
    exact .readListed _ _ hserves hfits

theorem Users.yields_activeElsewhere_of_lt {ids : List String} (team : String)
    (hlong : maxListed < ids.length) :
    Yields (Users.activeElsewhere ids team) s
      (.error (.storage "users.find_cross_team_active" team)) s := by
  rw [Users.activeElsewhere_of_lt hlong]
  exact .fail _

/-! ## Pull requests -/

namespace PullRequests

theorem yields_isThere (id : String) (hserves : s.inService [.pullRequests] = true) :
    Yields (isThere id) s (.ok (s.record? id).isSome) s := .read _ _ hserves

theorem yields_get {id : String} {r : PullRequestRecord}
    (hserves : s.inService [.pullRequests, .links] = true) (hthere : s.record? id = some r) :
    Yields (get id) s (.ok (s.assemble r)) s := by
  have hfound : (Statement.PullRequests.byId id).answer s = some (s.assemble r) := by
    show (s.record? id).map s.assemble = _
    rw [hthere, Option.map_some]
  refine .bind (.read _ _ hserves) ?_
  rw [hfound]
  exact .pure _

theorem yields_get_of_none {id : String}
    (hserves : s.inService [.pullRequests, .links] = true) (hnone : s.record? id = none) :
    Yields (get id) s (.error (.notFound .pullRequest id)) s := by
  have hfound : (Statement.PullRequests.byId id).answer s = none := by
    show (s.record? id).map s.assemble = _
    rw [hnone, Option.map_none]
  refine .bind (.read _ _ hserves) ?_
  rw [hfound]
  exact .fail _

theorem yields_createRecord {p : NewPullRequest} (hserves : s.inService [.pullRequests] = true)
    (hnew : s.record? p.id = none) (hauthor : (s.user? p.author).isSome) :
    Yields (createRecord p) s (.ok ()) { s with
      pullRequests := insertRow PullRequestRecord.before p.record s.pullRequests } := by
  have hknown : s.knowsAuthorOf p.record = true := hauthor
  exact .write _ _ _ hserves
    (Statement.PullRequests.insert_apply_eq_ok_iff.mpr ⟨hnew, fun _ => hknown, rfl⟩)

/-- Known users who are listed once and do not review the pull request yet are
added, one after the other. -/
theorem yields_addReviewers {p : NewPullRequest} {reviewers : List String}
    (hserves : s.inService [.links] = true) (hthere : (s.record? p.id).isSome)
    (hknown : ∀ reviewer ∈ reviewers, (s.user? reviewer).isSome)
    (hfree : ∀ reviewer ∈ reviewers, s.link? p.id reviewer = none)
    (honce : reviewers.Nodup) :
    Yields (addReviewers p reviewers) s (.ok ())
      { s with links := insertRows Link.before (reviewers.map p.link) s.links } := by
  induction reviewers generalizing s with
  | nil => exact .pure ()
  | cons reviewer rest ih =>
      obtain ⟨hother, honce⟩ := List.nodup_cons.mp honce
      have hends : s.knowsEndsOf (p.link reviewer) = true := by
        rw [knowsEndsOf, Bool.and_eq_true]
        exact ⟨hthere, hknown reviewer List.mem_cons_self⟩
      have hnew : s.link? p.id reviewer = none := hfree reviewer List.mem_cons_self
      refine .bind
        (.write _ _ _ hserves
          (Statement.PullRequests.insertLink_apply_eq_ok_iff.mpr ⟨hnew, fun _ => hends, rfl⟩))
        (ih hserves hthere ?_ ?_ honce)
      · exact fun u hu => hknown u (List.mem_cons_of_mem reviewer hu)
      · -- the link that was added is not that of anyone who comes later
        intro u hu
        have hne : reviewer ≠ u := fun h => hother (h ▸ hu)
        rw [link?, find?_insertRow_of_not (by simp [hne])]
        exact hfree u (List.mem_cons_of_mem reviewer hu)

theorem yields_create {p : NewPullRequest} {reviewers : List String} (hs : s.Sound .immediate)
    (hserves : s.inService [.pullRequests, .links] = true) (hnew : s.record? p.id = none)
    (hauthor : (s.user? p.author).isSome)
    (hknown : ∀ reviewer ∈ reviewers, (s.user? reviewer).isSome) (honce : reviewers.Nodup) :
    Yields (create p reviewers) s (.ok ()) (s.withPullRequest p reviewers) := by
  have hrecord : s.inService [.pullRequests] = true := inService_of_subset (by simp) hserves
  have hlinks : s.inService [.links] = true := inService_of_subset (by simp) hserves
  have hthere : ((s.withPullRequest p []).record? p.id).isSome := by
    rw [record?_withPullRequest_self [] hnew]
    rfl
  exact .withinSavepoint readSavepoint?_own.1
    (.bind (yields_createRecord hrecord hnew hauthor)
      (yields_addReviewers hlinks hthere hknown
        (fun reviewer _ => hs.link?_of_record?_eq_none hnew reviewer) honce))

theorem yields_removeReviewer {id reviewer : String} (hserves : s.inService [.links] = true)
    (hreviews : reviewer ∈ s.reviewersOf id) :
    Yields (removeReviewer id reviewer) s (.ok ()) { s with
      links := s.links.filter fun l => !Statement.PullRequests.isLinkOf id reviewer l } := by
  have hrows : s.links.countP (Statement.PullRequests.isLinkOf id reviewer) ≠ 0 := by
    obtain ⟨l, hl, hid, hreviewer⟩ := mem_reviewersOf.mp hreviews
    exact Nat.ne_of_gt (List.countP_pos_iff.mpr
      ⟨l, hl, by simp [Statement.PullRequests.isLinkOf, hid, hreviewer]⟩)
  refine .bind
    (.write _ _ _ hserves (Statement.PullRequests.deleteLink_apply_eq_ok_iff.mpr rfl)) ?_
  rw [if_neg hrows]
  exact .pure ()

theorem yields_addReplacement {id reviewer : String} (time : Int)
    (hserves : s.inService [.links] = true) (hthere : (s.record? id).isSome)
    (hknown : (s.user? reviewer).isSome) (hfree : reviewer ∉ s.reviewersOf id) :
    Yields (addReplacement id reviewer time) s (.ok ())
      { s with links := insertRow Link.before ⟨id, reviewer, time⟩ s.links } := by
  have hends : s.knowsEndsOf ⟨id, reviewer, time⟩ = true := by
    rw [knowsEndsOf, Bool.and_eq_true]
    exact ⟨hthere, hknown⟩
  have hnew : s.link? id reviewer = none := by
    rwa [← Option.not_isSome_iff_eq_none, isSome_link?]
  exact .write _ _ _ hserves
    (Statement.PullRequests.insertLink_apply_eq_ok_iff.mpr ⟨hnew, fun _ => hends, rfl⟩)

/-- A reviewer is replaced by a known user who does not review the pull request
yet, or by themselves. -/
theorem yields_replaceReviewer {id old new : String} (time : Int)
    (hserves : s.inService [.links] = true) (hthere : (s.record? id).isSome)
    (hreviews : old ∈ s.reviewersOf id) (hknown : (s.user? new).isSome)
    (hfree : new ∈ s.reviewersOf id → new = old) :
    Yields (replaceReviewer id old new time) s (.ok ()) (s.withReplacement id old new time) := by
  refine .withinSavepoint readSavepoint?_own.2
    (.bind (yields_removeReviewer hserves hreviews)
      (yields_addReplacement time hserves hthere hknown ?_))
  intro hstill
  obtain ⟨l, hl, hid, hreviewer⟩ := mem_reviewersOf.mp hstill
  obtain ⟨hl, hother⟩ := List.mem_filter.mp hl
  obtain rfl : new = old := hfree (mem_reviewersOf.mpr ⟨l, hl, hid, hreviewer⟩)
  simp [Statement.PullRequests.isLinkOf, hid, hreviewer] at hother

end PullRequests

end Gateway

end ReviewRota
