import ReviewRota.Proofs.Yields

/-!
# ReviewRota.Proofs.Refusals

What the functions of the gateway that write come to when a constraint on what
they write does not hold: with which error they fail, and that nothing is left
behind.

Several constraints can be broken at once, and then the first one that the
store looks at is reported.  Each lemma about a function therefore says what it
takes for the earlier checks to be passed.  A pull request is stored with one
statement for each reviewer, so the reviewers are looked at in the order of the
list (`Store.Assignable`, `Store.assignable_or_first`); the row and the links
that were added before one of them is refused are taken back.
-/

namespace ReviewRota

/-! ## Reviewers of a new pull request -/

namespace Store

variable {s : Store}

/-- The listed users are there, and none is listed twice. -/
structure Assignable (s : Store) (reviewers : List String) : Prop where
  known : ∀ reviewer ∈ reviewers, (s.user? reviewer).isSome
  once : reviewers.Nodup

/-- Where not all reviewers can be assigned, there is a first one who cannot. -/
theorem assignable_or_first (s : Store) (reviewers : List String) :
    s.Assignable reviewers ∨
      ∃ front reviewer back, reviewers = front ++ reviewer :: back ∧ s.Assignable front ∧
        (s.user? reviewer = none ∨ reviewer ∈ front) := by
  induction reviewers using List.reverseRecOn with
  | nil => exact Or.inl ⟨nofun, List.nodup_nil⟩
  | append_singleton front reviewer ih =>
      obtain hfront | ⟨earlier, first, back, rfl, hearlier, hfirst⟩ := ih
      · by_cases hbad : s.user? reviewer = none ∨ reviewer ∈ front
        · exact Or.inr ⟨front, reviewer, [], rfl, hfront, hbad⟩
        · obtain ⟨hknown, hnew⟩ := not_or.mp hbad
          refine Or.inl ⟨fun other hother => ?_, ?_⟩
          · obtain hother | hother := List.mem_append.mp hother
            · exact hfront.known other hother
            · obtain rfl := List.mem_singleton.mp hother
              exact Option.isSome_iff_ne_none.mpr hknown
          · exact hfront.once.append (List.nodup_singleton reviewer) (by simpa using hnew)
      · exact Or.inr ⟨earlier, first, back ++ [reviewer], by simp, hearlier, hfirst⟩

/-- The team of a user is missing if there is one to miss. -/
theorem knowsTeamOf_eq_false_iff {u : User} :
    s.knowsTeamOf u = false ↔ ∃ team, u.team = some team ∧ s.team? team = none := by
  unfold knowsTeamOf
  cases u.team with
  | none => simp
  | some team => simp

/-! ## Stores left behind -/

/-- The store with a pull request moved to a status.  `withMerged` is the case of a
merge. -/
def withStatus (s : Store) (id : String) (status : Status) (time : Int) : Store :=
  { s with
    pullRequests := s.pullRequests.map fun r =>
      if Statement.PullRequests.isToMove id status r then
        Statement.PullRequests.moved status time r
      else r }

end Store

namespace Gateway

open Store

variable {s : Store}

/-! ## Teams and users -/

theorem Teams.yields_create_of_there {name : String} (time : Int)
    (hserves : s.inService [.teams] = true) (hthere : (s.team? name).isSome) :
    Yields (Teams.create name time) s (.error (.alreadyExists .team name)) s :=
  .bind_error _ (.write_error _ _ _ hserves (Statement.Teams.insert_apply_of_there hthere))

namespace Users

theorem teamMissing_of_some {u : User} {team : String} (hteam : u.team = some team) :
    teamMissing u = .notFound .team team := by
  rw [teamMissing, hteam, Option.getD_some]

variable (hserves : s.inService [.users] = true)

include hserves

theorem yields_create_of_there {u : User} (hthere : (s.user? u.id).isSome) :
    Yields (create u) s (.error (.alreadyExists .user u.id)) s :=
  .write_error _ _ _ hserves (Statement.Users.insert_apply_of_there hthere)

theorem yields_create_of_dangling {u : User} {team : String} (hnew : s.user? u.id = none)
    (hteam : u.team = some team) (hnone : s.team? team = none) :
    Yields (create u) s (.error (.notFound .team team)) s := by
  have hdangling := knowsTeamOf_eq_false_iff.mpr ⟨team, hteam, hnone⟩
  rw [← teamMissing_of_some hteam]
  exact .write_error _ _ _ hserves (Statement.Users.insert_apply_of_dangling hnew hdangling)

theorem yields_update_of_none {u : User} (hnone : s.user? u.id = none) :
    Yields (update u) s (.error (.notFound .user u.id)) s :=
  .bind (.write _ _ _ hserves
    (Statement.Users.overwrite_apply_eq_ok_iff.mpr (Or.inl ⟨hnone, rfl⟩))) (.fail _)

theorem yields_update_of_dangling {u : User} {team : String} (hthere : (s.user? u.id).isSome)
    (hteam : u.team = some team) (hnone : s.team? team = none) :
    Yields (update u) s (.error (.notFound .team team)) s := by
  have hdangling := knowsTeamOf_eq_false_iff.mpr ⟨team, hteam, hnone⟩
  rw [← teamMissing_of_some hteam]
  exact .bind_error _
    (.write_error _ _ _ hserves (Statement.Users.overwrite_apply_of_dangling hthere hdangling))

theorem yields_setActive {id : String} {u : User} (active : Bool) (hthere : s.user? id = some u) :
    Yields (setActive id active) s (.ok { u with active := active })
      (s.withUser { u with active := active }) := by
  obtain ⟨_, rfl⟩ := mem_of_user?_eq_some hthere
  have hsome : (s.user? u.id).isSome := by rw [hthere, Option.isSome_some]
  have hstore := withUser_of_there (u := { u with active := active }) hsome
  rw [hstore]
  exact .bind (.write _ _ _ hserves
    (Statement.Users.setActive_apply_eq_ok_iff.mpr (Or.inr ⟨u, hthere, rfl⟩))) (.pure _)

theorem yields_setActive_of_none {id : String} (active : Bool) (hnone : s.user? id = none) :
    Yields (setActive id active) s (.error (.notFound .user id)) s :=
  .bind (.write _ _ _ hserves
    (Statement.Users.setActive_apply_eq_ok_iff.mpr (Or.inl ⟨hnone, rfl⟩))) (.fail _)

end Users

/-! ## New pull requests -/

namespace PullRequests

theorem yields_createRecord_of_there {p : NewPullRequest}
    (hserves : s.inService [.pullRequests] = true) (hthere : (s.record? p.id).isSome) :
    Yields (createRecord p) s (.error (.alreadyExists .pullRequest p.id)) s :=
  .write_error _ _ _ hserves (Statement.PullRequests.insert_apply_of_there hthere)

theorem yields_createRecord_of_dangling {p : NewPullRequest}
    (hserves : s.inService [.pullRequests] = true) (hnew : s.record? p.id = none)
    (hnone : s.user? p.author = none) :
    Yields (createRecord p) s (.error (.notFound .user p.author)) s := by
  have hdangling : s.knowsAuthorOf p.record = false := by
    rw [knowsAuthorOf, NewPullRequest.record, hnone, Option.isSome_none]
  exact .write_error _ _ _ hserves (Statement.PullRequests.insert_apply_of_dangling hnew hdangling)

theorem addReviewers_append (p : NewPullRequest) (front back : List String) :
    addReviewers p (front ++ back) = addReviewers p front >>= fun _ => addReviewers p back := by
  induction front with
  | nil => rfl
  | cons reviewer rest ih => simp only [List.cons_append, addReviewers, ih, bind_assoc]

/-- Somebody who is not there cannot be added. -/
theorem yields_addReviewers_of_missing {p : NewPullRequest} {reviewer : String} (back : List String)
    (hserves : s.inService [.links] = true) (hnone : s.user? reviewer = none)
    (hfree : s.link? p.id reviewer = none) :
    Yields (addReviewers p (reviewer :: back)) s (.error (.notFound .user reviewer)) s := by
  have hdangling : s.knowsEndsOf (p.link reviewer) = false := by
    simp [knowsEndsOf, NewPullRequest.link, hnone]
  exact .bind_error _ (.write_error _ _ _ hserves
    (Statement.PullRequests.insertLink_apply_of_dangling hfree hdangling))

/-- Nor can somebody who reviews the pull request already. -/
theorem yields_addReviewers_of_there {p : NewPullRequest} {reviewer : String} (back : List String)
    (hserves : s.inService [.links] = true) (hthere : (s.link? p.id reviewer).isSome) :
    Yields (addReviewers p (reviewer :: back)) s
      (.error (.storage "pull_requests.add_reviewer" p.id)) s :=
  .bind_error _ (.write_error _ _ _ hserves
    (Statement.PullRequests.insertLink_apply_of_there hthere))

/-- The reviewers who were added are those who review the pull request. -/
theorem isSome_link?_withPullRequest {p : NewPullRequest} (hs : s.Sound .immediate)
    (hnew : s.record? p.id = none) {front : List String} {reviewer : String} :
    ((s.withPullRequest p front).link? p.id reviewer).isSome ↔ reviewer ∈ front := by
  rw [isSome_link?]
  exact (reviewersOf_withPullRequest_self front (hs.reviewersOf_eq_nil hnew)).mem_iff

/-- What goes wrong with the row goes wrong with the whole. -/
theorem yields_create_of_createRecord {p : NewPullRequest} (reviewers : List String) {e : Error}
    (hrecord : Yields (createRecord p) s (.error e) s) :
    Yields (create p reviewers) s (.error e) s :=
  .withinSavepoint_error readSavepoint?_own.1 (.bind_error _ hrecord)

section Create

variable {p : NewPullRequest} {front : List String} (hs : s.Sound .immediate)
  (hserves : s.inService [.pullRequests, .links] = true) (hnew : s.record? p.id = none)
  (hauthor : (s.user? p.author).isSome) (hfront : s.Assignable front)

include hs hserves hnew hauthor hfront

/-- What goes wrong behind reviewers who were added goes wrong with the whole:
the row and their links are taken back. -/
theorem yields_create_of_addReviewers {back : List String} {e : Error}
    (hback : Yields (addReviewers p back) (s.withPullRequest p front) (.error e)
      (s.withPullRequest p front)) :
    Yields (create p (front ++ back)) s (.error e) s := by
  have hrecord : s.inService [.pullRequests] = true := inService_of_subset (by simp) hserves
  have hlinks : s.inService [.links] = true := inService_of_subset (by simp) hserves
  have hthere : ((s.withPullRequest p []).record? p.id).isSome := by
    rw [record?_withPullRequest_self [] hnew]
    rfl
  have hreviewers : Yields (addReviewers p (front ++ back)) (s.withPullRequest p []) (.error e)
      (s.withPullRequest p front) := by
    rw [addReviewers_append]
    exact .bind (yields_addReviewers hlinks hthere hfront.known
      (fun reviewer _ => hs.link?_of_record?_eq_none hnew reviewer) hfront.once) hback
  exact .withinSavepoint_error readSavepoint?_own.1
    (.bind (yields_createRecord hrecord hnew hauthor) hreviewers)

theorem yields_create_of_missing {reviewer : String} (back : List String)
    (hnone : s.user? reviewer = none) :
    Yields (create p (front ++ reviewer :: back)) s (.error (.notFound .user reviewer)) s := by
  have hlinks : s.inService [.links] = true := inService_of_subset (by simp) hserves
  refine yields_create_of_addReviewers hs hserves hnew hauthor hfront
    (yields_addReviewers_of_missing back hlinks hnone ?_)
  rw [← Option.not_isSome_iff_eq_none, isSome_link?_withPullRequest hs hnew]
  intro hadded
  simpa [hnone] using hfront.known reviewer hadded

theorem yields_create_of_repeated {reviewer : String} (back : List String)
    (hagain : reviewer ∈ front) :
    Yields (create p (front ++ reviewer :: back)) s
      (.error (.storage "pull_requests.add_reviewer" p.id)) s := by
  have hlinks : s.inService [.links] = true := inService_of_subset (by simp) hserves
  exact yields_create_of_addReviewers hs hserves hnew hauthor hfront
    (yields_addReviewers_of_there back hlinks
      ((isSome_link?_withPullRequest hs hnew).mpr hagain))

end Create

/-! ## Changed pull requests -/

theorem yields_setStatus {id : String} {status : Status} {r : PullRequestRecord} (time : Int)
    (hserves : s.inService [.pullRequests] = true) (hthere : s.record? id = some r)
    (hmoves : r.status ≠ status) :
    Yields (setStatus id status time) s (.ok ()) (s.withStatus id status time) := by
  have hrows : s.pullRequests.countP (Statement.PullRequests.isToMove id status) ≠ 0 := by
    obtain ⟨hr, hid⟩ := mem_of_record?_eq_some hthere
    exact Nat.ne_of_gt (List.countP_pos_iff.mpr
      ⟨r, hr, by simp [Statement.PullRequests.isToMove, hid, hmoves]⟩)
  refine .bind
    (.write _ _ _ hserves (Statement.PullRequests.setStatus_apply_eq_ok_iff.mpr rfl)) ?_
  rw [if_neg hrows]
  exact .pure ()

/-- Where nothing is to be moved, nothing is. -/
theorem yields_setStatus_of_kept {id : String} {status : Status} (time : Int)
    (hs : s.Sound .immediate) (hserves : s.inService [.pullRequests] = true)
    (hkept : ∀ r, s.record? id = some r → r.status = status) :
    Yields (setStatus id status time) s (.error (.notFound .pullRequest id)) s := by
  have hstays : ∀ r ∈ s.pullRequests, ¬Statement.PullRequests.isToMove id status r = true := by
    intro r hr hmove
    obtain ⟨rfl, hstatus⟩ : r.id = id ∧ r.status ≠ status := by
      simpa [Statement.PullRequests.isToMove] using hmove
    exact hstatus (hkept r (hs.record?_eq_some hr))
  have hrows : s.pullRequests.countP (Statement.PullRequests.isToMove id status) = 0 :=
    List.countP_eq_zero.mpr hstays
  have hmap : (s.pullRequests.map fun r =>
      if Statement.PullRequests.isToMove id status r then
        Statement.PullRequests.moved status time r
      else r) = s.pullRequests :=
    (List.map_congr_left fun r hr => if_neg (hstays r hr)).trans (List.map_id _)
  have happly : (Statement.PullRequests.setStatus id status time).apply .immediate s =
      .ok ⟨0, 0, s⟩ := by
    rw [Statement.PullRequests.setStatus_apply_eq_ok_iff, hrows, hmap]
  exact .bind (.write _ _ _ hserves happly) (.fail _)

/-- Nobody is taken off who is not there. -/
theorem yields_removeReviewer_of_none {id reviewer : String}
    (hserves : s.inService [.links] = true) (hnone : s.link? id reviewer = none) :
    Yields (removeReviewer id reviewer) s (.error (.notAssigned reviewer id)) s := by
  have hothers : ∀ l ∈ s.links, ¬Statement.PullRequests.isLinkOf id reviewer l = true :=
    List.find?_eq_none.mp hnone
  have hrows : s.links.countP (Statement.PullRequests.isLinkOf id reviewer) = 0 :=
    List.countP_eq_zero.mpr hothers
  have hfilter : (s.links.filter fun l => !Statement.PullRequests.isLinkOf id reviewer l) =
      s.links :=
    List.filter_eq_self.mpr fun l hl => by simpa using hothers l hl
  have happly : (Statement.PullRequests.deleteLink id reviewer).apply .immediate s =
      .ok ⟨0, 0, s⟩ := by
    rw [Statement.PullRequests.deleteLink_apply_eq_ok_iff, hrows, hfilter]
  exact .bind (.write _ _ _ hserves happly) (.fail _)

theorem yields_addReplacement_of_there {id reviewer : String} (time : Int)
    (hserves : s.inService [.links] = true) (hthere : reviewer ∈ s.reviewersOf id) :
    Yields (addReplacement id reviewer time) s (.error .noCandidate) s :=
  .write_error _ _ _ hserves
    (Statement.PullRequests.insertLink_apply_of_there (isSome_link?.mpr hthere))

theorem yields_addReplacement_of_missing {id reviewer : String} (time : Int)
    (hserves : s.inService [.links] = true) (hfree : reviewer ∉ s.reviewersOf id)
    (hnone : s.user? reviewer = none) :
    Yields (addReplacement id reviewer time) s (.error (.notFound .user reviewer)) s := by
  have hnew : s.link? id reviewer = none := by
    rwa [← Option.not_isSome_iff_eq_none, isSome_link?]
  have hdangling : s.knowsEndsOf ⟨id, reviewer, time⟩ = false := by simp [knowsEndsOf, hnone]
  exact .write_error _ _ _ hserves
    (Statement.PullRequests.insertLink_apply_of_dangling hnew hdangling)

theorem yields_replaceReviewer_of_none {id old : String} (new : String) (time : Int)
    (hserves : s.inService [.links] = true) (hnone : s.link? id old = none) :
    Yields (replaceReviewer id old new time) s (.error (.notAssigned old id)) s :=
  .withinSavepoint_error readSavepoint?_own.2
    (.bind_error _ (yields_removeReviewer_of_none hserves hnone))

section Replace

variable {id old new : String} (time : Int) (hserves : s.inService [.links] = true)
  (hold : (s.link? id old).isSome)

include hserves hold

/-- Somebody who reviews the pull request already cannot be added, and the old
reviewer is back. -/
theorem yields_replaceReviewer_of_there (hother : new ≠ old) (hthere : (s.link? id new).isSome) :
    Yields (replaceReviewer id old new time) s (.error .noCandidate) s := by
  refine .withinSavepoint_error readSavepoint?_own.2
    (.bind (yields_removeReviewer hserves (isSome_link?.mp hold))
      (yields_addReplacement_of_there time hserves ?_))
  obtain ⟨l, hl, hid, rfl⟩ := mem_reviewersOf.mp (isSome_link?.mp hthere)
  exact mem_reviewersOf.mpr ⟨l, List.mem_filter.mpr
    ⟨hl, by simp [Statement.PullRequests.isLinkOf, hother]⟩, hid, rfl⟩

/-- Nor can somebody who is not there. -/
theorem yields_replaceReviewer_of_missing (hs : s.Sound .immediate) (hnone : s.user? new = none) :
    Yields (replaceReviewer id old new time) s (.error (.notFound .user new)) s := by
  refine .withinSavepoint_error readSavepoint?_own.2
    (.bind (yields_removeReviewer hserves (isSome_link?.mp hold))
      (yields_addReplacement_of_missing time hserves ?_ hnone))
  intro hstill
  obtain ⟨l, hl, hid, hreviewer⟩ := mem_reviewersOf.mp hstill
  have hreviews : new ∈ s.reviewersOf id :=
    mem_reviewersOf.mpr ⟨l, List.mem_of_mem_filter hl, hid, hreviewer⟩
  rw [← isSome_link?, hs.link?_of_user?_eq_none id hnone] at hreviews
  exact nomatch hreviews

end Replace

end PullRequests

end Gateway

end ReviewRota
