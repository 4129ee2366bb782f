import ReviewRota.Proofs.WorkingStore
import ReviewRota.Proofs.Changes

/-!
# ReviewRota.Proofs.Scopes

What the gateway's functions and the scopes of the operations have done
when they succeed: what they found, and the store that they leave behind.
The functions come first, then the scopes are taken apart along their text.

* `Gateway.of_leads_createScope`, `Gateway.of_leads_reassignScope`,
  `Gateway.of_leads_mergeScope`, `Gateway.of_leads_createTeamScope`.
-/

namespace ReviewRota

namespace Reviewing

/-- The candidates that a draw chooses: active members of a team who are
not excluded, if there is a team. -/
def drawn (s : Store) (team : Option String) (excluded : List String) (count : Nat)
    (draw : Draw) : List User :=
  choose draw (s.users.filter (isCandidate team excluded)) count

/-- Without a team nobody is drawn. -/
theorem drawn_none (s : Store) (excluded : List String) (count : Nat) (draw : Draw) :
    drawn s none excluded count draw = [] := by
  have hnobody : s.users.filter (isCandidate none excluded) = [] := by simp [isCandidate]
  rw [drawn, hnobody]
  simp [choose, shuffle, shuffleFrom]

end Reviewing

/-- Of nobody nobody is blocked. -/
theorem Statement.Users.answer_activeElsewhere_nil (s : Store) (team : String) :
    (activeElsewhere [] team).answer s = [] := by
  simp [activeElsewhere]

namespace Gateway

open Statement

variable {s after : Store}

/-! ## Users and teams -/

namespace Teams

theorem of_leads_isThere {name : String} {b : Bool}
    (h : Leads .immediate (isThere name) s (.ok b) after) :
    b = (s.team? name).isSome ∧ after = s := by
  obtain ⟨found, middle, hread, h⟩ := (Composed.read _ _ _).of_leads_bind h
  obtain ⟨rfl, rfl⟩ := of_leads_read hread
  exact of_leads_pure h

theorem of_leads_create {name : String} {time : Int} {t : TeamRecord}
    (h : Leads .immediate (create name time) s (.ok t) after) :
    after = s.withTeam ⟨name, time⟩ := by
  obtain ⟨_, middle, hwrite, h⟩ :=
    (Composed.write _ _ _ (Statement.Teams.sound_insert _)).of_leads_bind h
  obtain ⟨e, happly, _, rfl⟩ := of_leads_write hwrite
  obtain ⟨_, rfl⟩ := of_leads_pure h
  rw [(Statement.Teams.insert_apply_eq_ok_iff.mp happly).2]
  rfl

end Teams

namespace Users

theorem of_leads_isThere {id : String} {b : Bool}
    (h : Leads .immediate (isThere id) s (.ok b) after) :
    b = (s.user? id).isSome ∧ after = s := by
  obtain ⟨found, middle, hread, h⟩ := (Composed.read _ _ _).of_leads_bind h
  obtain ⟨rfl, rfl⟩ := of_leads_read hread
  exact of_leads_pure h

theorem of_leads_get {id : String} {u : User} (h : Leads .immediate (get id) s (.ok u) after) :
    s.user? id = some u ∧ after = s := by
  obtain ⟨found, middle, hread, h⟩ := (Composed.read _ _ _).of_leads_bind h
  obtain ⟨rfl, rfl⟩ := of_leads_read hread
  exact of_leads_orFail h

theorem of_leads_create {u : User} {x : Unit} (h : Leads .immediate (create u) s (.ok x) after) :
    s.user? u.id = none ∧ after = { s with users := insertRow User.before u s.users } := by
  obtain ⟨e, happly, _, rfl⟩ := of_leads_write h
  obtain ⟨hnew, _, rfl⟩ := Statement.Users.insert_apply_eq_ok_iff.mp happly
  exact ⟨hnew, rfl⟩

theorem of_leads_update {u : User} {x : Unit} (h : Leads .immediate (update u) s (.ok x) after) :
    (s.user? u.id).isSome ∧ after = { s with users := Statement.Users.replaceIn u s.users } := by
  obtain ⟨rows, middle, hwrite, h⟩ :=
    (Composed.write _ _ _ (Statement.Users.sound_overwrite u)).of_leads_bind h
  obtain ⟨e, happly, rfl, rfl⟩ := of_leads_write hwrite
  obtain ⟨_, rfl⟩ | ⟨hthere, _, rfl⟩ := Statement.Users.overwrite_apply_eq_ok_iff.mp happly
  · exact absurd h not_leads_fail
  · exact ⟨hthere, (of_leads_pure h).2⟩

theorem of_leads_ofTeam {team : String} {roster : List User}
    (h : Leads .immediate (ofTeam team) s (.ok roster) after) :
    roster = (Statement.Users.ofTeam team).answer s ∧ after = s := of_leads_read h

theorem of_leads_readListed {α : Type} {operation team : String} {ids : List String}
    {q : Query α} {a : α} (h : Leads .immediate (readListed operation team ids q) s (.ok a) after) :
    a = q.answer s ∧ after = s := by
  unfold readListed at h
  split at h
  · exact absurd h not_leads_fail
  · exact of_leads_read h

/-- A choice within a team, if there is one. -/
theorem of_leads_chooseActive {team : Option String} {excluded : List String} {count : Nat}
    {draw : Draw} {chosen : List User}
    (h : Leads .immediate (match team with
      | some team => chooseActive team excluded count draw
      | none => pure []) s (.ok chosen) after) :
    chosen = Reviewing.drawn s team excluded count draw ∧ after = s := by
  cases team with
  | none =>
      obtain ⟨rfl, rfl⟩ := of_leads_pure h
      exact ⟨(Reviewing.drawn_none _ _ _ _).symm, rfl⟩
  | some team =>
      obtain ⟨found, middle, hread, h⟩ := (composedActiveExcept team excluded).of_leads_bind h
      obtain ⟨rfl, rfl⟩ := of_leads_readListed hread
      obtain ⟨rfl, rfl⟩ := of_leads_pure h
      exact ⟨rfl, rfl⟩

/-- That nobody is listed who is blocked is found out without asking, or by
the statement for it. -/
theorem of_leads_activeElsewhere {ids : List String} {team : String} {blocked : List String}
    (h : Leads .immediate (activeElsewhere ids team) s (.ok blocked) after) :
    blocked = (Statement.Users.activeElsewhere ids team).answer s ∧ after = s := by
  unfold activeElsewhere at h
  split at h
  · next hids =>
      obtain ⟨rfl, rfl⟩ := of_leads_pure h
      subst hids
      exact ⟨(Statement.Users.answer_activeElsewhere_nil _ _).symm, rfl⟩
  · exact of_leads_readListed h

end Users

theorem of_leads_enrol {u : User} {x : Unit}
    (h : Leads .immediate (Staffing.enrol u) s (.ok x) after) : after = s.withUser u := by
  obtain ⟨there, middle, hread, h⟩ := (Users.composedIsThere u.id).of_leads_bind h
  obtain ⟨rfl, rfl⟩ := Users.of_leads_isThere hread
  unfold Store.withUser
  split at h
  · next hthere =>
      rw [if_pos hthere]
      exact (Users.of_leads_update h).2
  · next hthere =>
      rw [if_neg hthere]
      exact (Users.of_leads_create h).2

theorem of_leads_enrolAll {team : String} {members : List NewMember} {x : Unit}
    (h : Leads .immediate (Staffing.enrolAll team members) s (.ok x) after) :
    after = Store.withMembers team members s := by
  induction members generalizing s with
  | nil => exact (of_leads_pure h).2
  | cons m rest ih =>
      obtain ⟨_, middle, hfirst, h⟩ := (composedEnrol (m.toUser team)).of_leads_bind h
      rw [of_leads_enrol hfirst] at h
      exact ih h

/-! ## Pull requests -/

namespace PullRequests

theorem of_leads_isThere {id : String} {b : Bool}
    (h : Leads .immediate (isThere id) s (.ok b) after) :
    b = (s.record? id).isSome ∧ after = s := of_leads_read h

theorem of_leads_get {id : String} {p : PullRequest}
    (h : Leads .immediate (get id) s (.ok p) after) :
    ∃ r, s.record? id = some r ∧ p = s.assemble r ∧ after = s := by
  obtain ⟨found, middle, hread, h⟩ := (Composed.read _ _ _).of_leads_bind h
  obtain ⟨rfl, rfl⟩ := of_leads_read hread
  obtain ⟨hfound, rfl⟩ := of_leads_orFail h
  obtain ⟨r, hr, rfl⟩ := Option.map_eq_some_iff.mp hfound
  exact ⟨r, hr, rfl, rfl⟩

theorem of_leads_addReviewers {p : NewPullRequest} {reviewers : List String} {x : Unit}
    (h : Leads .immediate (addReviewers p reviewers) s (.ok x) after) :
    after = { s with links := insertRows Link.before (reviewers.map p.link) s.links } := by
  induction reviewers generalizing s with
  | nil => exact (of_leads_pure h).2
  | cons reviewer rest ih =>
      obtain ⟨_, middle, hwrite, h⟩ :=
        (Composed.write _ _ _ (Statement.PullRequests.sound_insertLink _)).of_leads_bind h
      obtain ⟨e, happly, _, rfl⟩ := of_leads_write hwrite
      obtain ⟨_, _, rfl⟩ := Statement.PullRequests.insertLink_apply_eq_ok_iff.mp happly
      exact ih h

theorem of_leads_createRecord {p : NewPullRequest} {x : Unit}
    (h : Leads .immediate (createRecord p) s (.ok x) after) :
    s.record? p.id = none ∧ after = { s with
      pullRequests := insertRow PullRequestRecord.before p.record s.pullRequests } := by
  obtain ⟨e, happly, _, rfl⟩ := of_leads_write h
  obtain ⟨hnew, _, rfl⟩ := Statement.PullRequests.insert_apply_eq_ok_iff.mp happly
  exact ⟨hnew, rfl⟩

theorem of_leads_create {p : NewPullRequest} {reviewers : List String} {x : Unit}
    (h : Leads .immediate (create p reviewers) s (.ok x) after) :
    s.record? p.id = none ∧ after = s.withPullRequest p reviewers := by
  have hrecord := composedCreateRecord p
  have hscope := hrecord.bind fun _ => composedAddReviewers p reviewers
  have hinside := hscope.of_leads_withinSavepoint readSavepoint?_own.1 h
  obtain ⟨_, middle, hcreated, hadded⟩ := hrecord.of_leads_bind hinside
  obtain ⟨hnew, rfl⟩ := of_leads_createRecord hcreated
  exact ⟨hnew, of_leads_addReviewers hadded⟩

theorem of_leads_setStatus {id : String} {time : Int} {x : Unit}
    (h : Leads .immediate (setStatus id .merged time) s (.ok x) after) :
    after = s.withMerged id time := by
  obtain ⟨rows, middle, hwrite, h⟩ :=
    (Composed.write _ _ _ (Statement.PullRequests.sound_setStatus id .merged time)).of_leads_bind h
  obtain ⟨e, happly, rfl, rfl⟩ := of_leads_write hwrite
  rw [Statement.PullRequests.setStatus_apply_eq_ok_iff.mp happly] at h
  split at h
  · exact absurd h not_leads_fail
  · exact (of_leads_pure h).2

theorem of_leads_removeReviewer {id reviewer : String} {x : Unit}
    (h : Leads .immediate (removeReviewer id reviewer) s (.ok x) after) :
    after = { s with
      links := s.links.filter fun l => !Statement.PullRequests.isLinkOf id reviewer l } := by
  obtain ⟨rows, middle, hwrite, h⟩ :=
    (Composed.write _ _ _ (Statement.PullRequests.sound_deleteLink id reviewer)).of_leads_bind h
  obtain ⟨e, happly, rfl, rfl⟩ := of_leads_write hwrite
  rw [Statement.PullRequests.deleteLink_apply_eq_ok_iff.mp happly] at h
  split at h
  · exact absurd h not_leads_fail
  · exact (of_leads_pure h).2

theorem of_leads_addReplacement {id reviewer : String} {time : Int} {x : Unit}
    (h : Leads .immediate (addReplacement id reviewer time) s (.ok x) after) :
    after = { s with links := insertRow Link.before ⟨id, reviewer, time⟩ s.links } := by
  obtain ⟨e, happly, _, rfl⟩ := of_leads_write h
  obtain ⟨_, _, rfl⟩ := Statement.PullRequests.insertLink_apply_eq_ok_iff.mp happly
  rfl

theorem of_leads_replaceReviewer {id old new : String} {time : Int} {x : Unit}
    (h : Leads .immediate (replaceReviewer id old new time) s (.ok x) after) :
    after = s.withReplacement id old new time := by
  have hremove := composedRemoveReviewer id old
  have hscope := hremove.bind fun _ => composedAddReplacement id new time
  have hinside := hscope.of_leads_withinSavepoint readSavepoint?_own.2 h
  obtain ⟨_, middle, hremoved, hadded⟩ := hremove.of_leads_bind hinside
  rw [of_leads_addReplacement hadded, of_leads_removeReviewer hremoved]
  rfl

end PullRequests

/-! ## Scopes -/

theorem of_leads_createScope {id title author : String} {now : Int} {draw : Draw}
    {p : PullRequest}
    (h : Leads .immediate (Reviewing.createScope id title author now draw) s (.ok p) after) :
    ∃ u, s.user? author = some u ∧ s.record? id = none ∧
      let new : NewPullRequest := ⟨id, title, author, now⟩
      let reviewers :=
        (Reviewing.drawn s u.team [author] Reviewing.maxReviewers draw).map User.id
      p = new.opened reviewers ∧ after = s.withPullRequest new reviewers := by
  obtain ⟨there, s₁, hread, h₁⟩ := (PullRequests.composedIsThere id).of_leads_bind h
  obtain ⟨_, rfl⟩ := PullRequests.of_leads_isThere hread
  split at h₁
  · exact absurd h₁ not_leads_fail
  · obtain ⟨u, s₂, hget, h₂⟩ := (Users.composedGet author).of_leads_bind h₁
    obtain ⟨hu, rfl⟩ := Users.of_leads_get hget
    obtain ⟨chosen, s₃, hchoose, h₃⟩ := (composedChooseReviewers u draw).of_leads_bind h₂
    obtain ⟨rfl, rfl⟩ := Users.of_leads_chooseActive hchoose
    obtain ⟨_, s₄, hcreate, h₄⟩ := (PullRequests.composedCreate _ _).of_leads_bind h₃
    obtain ⟨hnew, rfl⟩ := PullRequests.of_leads_create hcreate
    obtain ⟨rfl, rfl⟩ := of_leads_pure h₄
    rw [(Store.mem_of_user?_eq_some hu).2]
    exact ⟨u, hu, hnew, rfl, rfl⟩

theorem of_leads_reassignScope {id old : String} {now : Int} {draw : Draw} {done : Reassignment}
    (h : Leads .immediate (Reviewing.reassignScope id old now draw) s (.ok done) after) :
    ∃ r u new rest, s.record? id = some r ∧ r.status = .opened ∧ old ∈ s.reviewersOf id ∧
      s.user? old = some u ∧
      Reviewing.drawn s u.team (s.reviewersOf id ++ [r.author]) 1 draw = new :: rest ∧
      after = s.withReplacement id old new.id now ∧
      done = ⟨after.assemble r, new.id⟩ := by
  obtain ⟨p, s₁, hget, h₁⟩ := (PullRequests.composedGet id).of_leads_bind h
  obtain ⟨r, hr, rfl, rfl⟩ := PullRequests.of_leads_get hget
  obtain ⟨_, rfl⟩ := Store.mem_of_record?_eq_some hr
  split at h₁
  · exact absurd h₁ not_leads_fail
  · next hopen =>
      split at h₁
      · exact absurd h₁ not_leads_fail
      · next hreviews =>
          obtain ⟨u, s₂, hold, h₂⟩ := (Users.composedGet old).of_leads_bind h₁
          obtain ⟨hu, rfl⟩ := Users.of_leads_get hold
          obtain ⟨chosen, s₃, hchoose, h₃⟩ :=
            (composedChooseReplacement u _ draw).of_leads_bind h₂
          obtain ⟨hchosen, rfl⟩ := Users.of_leads_chooseActive hchoose
          cases chosen with
          | nil => exact absurd h₃ not_leads_fail
          | cons new rest =>
              obtain ⟨_, s₄, hreplace, h₄⟩ :=
                (PullRequests.composedReplaceReviewer _ _ _ _).of_leads_bind h₃
              obtain rfl := PullRequests.of_leads_replaceReviewer hreplace
              obtain ⟨updated, s₅, hupdated, h₅⟩ :=
                (PullRequests.composedGet _).of_leads_bind h₄
              obtain ⟨r', hr', rfl, rfl⟩ := PullRequests.of_leads_get hupdated
              obtain ⟨rfl, rfl⟩ := of_leads_pure h₅
              -- the record is the one found before, since only links were written
              obtain rfl : r' = r := Option.some.inj (hr'.symm.trans hr)
              exact ⟨r', u, new, rest, hr, by simpa using hopen, by simpa using hreviews, hu,
                hchosen.symm, rfl, rfl⟩

theorem of_leads_mergeScope {id : String} {now : Int} {p : PullRequest}
    (h : Leads .immediate (Reviewing.mergeScope id now) s (.ok p) after) :
    ∃ r, s.record? id = some r ∧
      (r.status = .merged ∧ p = s.assemble r ∧ after = s ∨
        r.status = .opened ∧ p = (s.assemble r).mergedBy now ∧ after = s.withMerged id now) := by
  obtain ⟨found, s₁, hget, h₁⟩ := (PullRequests.composedGet id).of_leads_bind h
  obtain ⟨r, hr, rfl, rfl⟩ := PullRequests.of_leads_get hget
  obtain ⟨_, rfl⟩ := Store.mem_of_record?_eq_some hr
  refine ⟨r, hr, ?_⟩
  split at h₁
  · next hmerged =>
      obtain ⟨rfl, rfl⟩ := of_leads_pure h₁
      exact Or.inl ⟨by simpa using hmerged, rfl, rfl⟩
  · next hopen =>
      obtain ⟨_, s₂, hmoved, h₂⟩ := (PullRequests.composedSetStatus _ _ _).of_leads_bind h₁
      obtain rfl := PullRequests.of_leads_setStatus hmoved
      obtain ⟨rfl, rfl⟩ := of_leads_pure h₂
      rw [Store.isMerged_assemble, Status.ne_merged_iff] at hopen
      exact Or.inr ⟨hopen, rfl, rfl⟩

theorem of_leads_createTeamScope {name : String} {members : List NewMember} {now : Int}
    {team : Team}
    (h : Leads .immediate (Staffing.createTeamScope name members now) s (.ok team) after) :
    s.team? name = none ∧
      (Statement.Users.activeElsewhere (members.map NewMember.id) name).answer s = [] ∧
      after = Store.withMembers name members (s.withTeam ⟨name, now⟩) ∧
      team = ⟨name, (Statement.Users.ofTeam name).answer after⟩ := by
  obtain ⟨there, s₁, hread, h₁⟩ := (Teams.composedIsThere name).of_leads_bind h
  obtain ⟨rfl, rfl⟩ := Teams.of_leads_isThere hread
  split at h₁
  · exact absurd h₁ not_leads_fail
  · next hnew =>
      obtain ⟨blocked, s₂, hask, h₂⟩ := (Users.composedActiveElsewhere _ name).of_leads_bind h₁
      obtain ⟨hblocked, rfl⟩ := Users.of_leads_activeElsewhere hask
      cases blocked with
      | cons id rest => exact absurd h₂ not_leads_fail
      | nil =>
          obtain ⟨t, s₃, hcreate, h₃⟩ := (Teams.composedCreate name now).of_leads_bind h₂
          rw [Teams.of_leads_create hcreate] at h₃
          obtain ⟨_, s₄, henrol, h₄⟩ := (composedEnrolAll name members).of_leads_bind h₃
          obtain rfl := of_leads_enrolAll henrol
          obtain ⟨roster, s₅, hroster, h₅⟩ := (Users.composedOfTeam name).of_leads_bind h₄
          obtain ⟨rfl, rfl⟩ := Users.of_leads_ofTeam hroster
          obtain ⟨rfl, rfl⟩ := of_leads_pure h₅
          exact ⟨by simpa using hnew, hblocked.symm, rfl, rfl⟩

end Gateway

end ReviewRota
