import ReviewRota.Proofs.Effect
import ReviewRota.Proofs.Refusals

/-!
# ReviewRota.Proofs.ExactWrites

The calls of the gateway that write, exactly: with which error a call is
refused, and what it leaves behind if it is not.

`Store.Refused` lists the refusals, `Store.Written` what is done otherwise.  A
call comes to one or the other (`Store.settles`), whatever its arguments are.

* `Gateway.Does.run_of_yields` — what an attempt comes to inside a transaction
  it comes to on every connection that nothing keeps from writing;
* `Store.Refused.yields` — a call that is refused;
* `Gateway.writes_exactly` — on every such connection a call answers an error
  exactly if it is refused, and then it has changed nothing.
-/

namespace ReviewRota

/-! ## Attempts on connections -/

namespace Gateway

open Connection

variable {α : Type} {g : Gateway α} {f : Attempt Store α} {s after : Store}
  {r : Except Error α}

/-- A begun transaction is one of the places where an attempt does what it does
on stores. -/
theorem Does.eq_of_yields (hg : Does g f) (h : Yields g s r after) : f s = (r, after) := by
  have hc : (working default .immediate [] false s).Unhindered :=
    .within ⟨Or.inl rfl, rfl, fun _ => rfl, fun hno => nomatch hno⟩
  obtain ⟨last, hrun, hview, _⟩ := hg.run hc
  obtain ⟨changed, hyields⟩ := h default [] false
  rw [hyields] at hrun
  obtain ⟨hresult, hlast⟩ := Prod.mk.inj hrun
  rw [← hlast] at hview
  exact Prod.ext hresult.symm hview.symm

/-- What an attempt comes to inside a transaction it comes to wherever nothing
is in the way. -/
theorem Does.run_of_yields (hg : Does g f) {c : Connection} (hc : c.Unhindered)
    (h : Yields g c.view r after) :
    ∃ last, g c = (r, last) ∧ last.view = after ∧ last.Unhindered ∧
      (c.transaction = none → last.transaction = none) := by
  have hstores := hg.eq_of_yields h
  obtain ⟨last, hrun, hview, hrest⟩ := hg.run hc
  rw [hstores] at hrun hview
  exact ⟨last, hrun, hview, hrest⟩

end Gateway

/-! ## Calls -/

/-- The calls that write. -/
def Call.writes : Call → Bool
  | .createUser _ | .updateUser _ | .setActive .. | .createTeam .. | .createPullRequest ..
  | .setStatus .. | .replaceReviewer .. => true
  | _ => false

namespace Store

variable {s : Store}

/-- The store refuses a call that writes, with this error. -/
inductive Refused (s : Store) : Call → Error → Prop where
  | userTaken {u : User} (hthere : (s.user? u.id).isSome) :
      Refused s (.createUser u) (.alreadyExists .user u.id)
  | teamOfNewUser {u : User} {team : String} (hnew : s.user? u.id = none)
      (hteam : u.team = some team) (hnone : s.team? team = none) :
      Refused s (.createUser u) (.notFound .team team)
  | userMissing {u : User} (hnone : s.user? u.id = none) :
      Refused s (.updateUser u) (.notFound .user u.id)
  | teamOfUser {u : User} {team : String} (hthere : (s.user? u.id).isSome)
      (hteam : u.team = some team) (hnone : s.team? team = none) :
      Refused s (.updateUser u) (.notFound .team team)
  | nobody {id : String} {active : Bool} (hnone : s.user? id = none) :
      Refused s (.setActive id active) (.notFound .user id)
  | teamTaken {name : String} {time : Int} (hthere : (s.team? name).isSome) :
      Refused s (.createTeam name time) (.alreadyExists .team name)
  | pullRequestTaken {p : NewPullRequest} {reviewers : List String}
      (hthere : (s.record? p.id).isSome) :
      Refused s (.createPullRequest p reviewers) (.alreadyExists .pullRequest p.id)
  | authorMissing {p : NewPullRequest} {reviewers : List String} (hnew : s.record? p.id = none)
      (hnone : s.user? p.author = none) :
      Refused s (.createPullRequest p reviewers) (.notFound .user p.author)
  /-- The first reviewer who cannot be assigned is not there. -/
  | reviewerMissing {p : NewPullRequest} {front back : List String} {reviewer : String}
      (hnew : s.record? p.id = none) (hauthor : (s.user? p.author).isSome)
      (hfront : s.Assignable front) (hnone : s.user? reviewer = none) :
      Refused s (.createPullRequest p (front ++ reviewer :: back)) (.notFound .user reviewer)
  /-- The first reviewer who cannot be assigned has been listed before. -/
  | reviewerRepeated {p : NewPullRequest} {front back : List String} {reviewer : String}
      (hnew : s.record? p.id = none) (hauthor : (s.user? p.author).isSome)
      (hfront : s.Assignable front) (hagain : reviewer ∈ front) :
      Refused s (.createPullRequest p (front ++ reviewer :: back))
        (.storage "pull_requests.add_reviewer" p.id)
  | statusUnknown {id text : String} {time : Int} (hnone : Status.ofText? text = none) :
      Refused s (.setStatus id text time) (.unknownStatus text)
  /-- The pull request is not there, or it has the status already. -/
  | statusKept {id : String} {status : Status} {time : Int}
      (hkept : ∀ r, s.record? id = some r → r.status = status) :
      Refused s (.setStatus id status.text time) (.notFound .pullRequest id)
  | notAssigned {id old new : String} {time : Int} (hnone : s.link? id old = none) :
      Refused s (.replaceReviewer id old new time) (.notAssigned old id)
  | alreadyAssigned {id old new : String} {time : Int} (hold : (s.link? id old).isSome)
      (hother : new ≠ old) (hthere : (s.link? id new).isSome) :
      Refused s (.replaceReviewer id old new time) .noCandidate
  | replacementMissing {id old new : String} {time : Int} (hold : (s.link? id old).isSome)
      (hnone : s.user? new = none) :
      Refused s (.replaceReviewer id old new time) (.notFound .user new)

/-- What a call that writes answers and leaves behind if it is not refused. -/
inductive Written (s : Store) : Call → Reply → Store → Prop where
  | createUser (u : User) : Written s (.createUser u) .nothing (s.withUser u)
  | updateUser (u : User) : Written s (.updateUser u) .nothing (s.withUser u)
  | setActive {id : String} {u : User} (active : Bool) (hthere : s.user? id = some u) :
      Written s (.setActive id active) (.user { u with active := active })
        (s.withUser { u with active := active })
  | createTeam (name : String) (time : Int) :
      Written s (.createTeam name time) (.teamRecord ⟨name, time⟩) (s.withTeam ⟨name, time⟩)
  | createPullRequest (p : NewPullRequest) (reviewers : List String) :
      Written s (.createPullRequest p reviewers) .nothing (s.withPullRequest p reviewers)
  | setStatus (id : String) (status : Status) (time : Int) :
      Written s (.setStatus id status.text time) .nothing (s.withStatus id status time)
  | replaceReviewer (id old new : String) (time : Int) :
      Written s (.replaceReviewer id old new time) .nothing (s.withReplacement id old new time)

end Store

namespace Store

open Gateway

variable {s : Store}

/-- The stored form of a status is read back. -/
theorem yields_status (s : Store) (status : Status) :
    Yields (Attempt.orFail (Status.ofText? status.text) (.unknownStatus status.text)) s
      (.ok status) s := by
  rw [Status.ofText?_text]
  exact .pure _

/-- A refused call answers its error and changes nothing. -/
theorem Refused.yields (hs : s.Sound .immediate)
    (hserves : s.inService [.teams, .users, .pullRequests, .links] = true) {call : Call}
    {e : Error} (h : s.Refused call e) : Yields call.run s (.error e) s := by
  have hteams : s.inService [.teams] = true := inService_of_subset (by simp) hserves
  have husers : s.inService [.users] = true := inService_of_subset (by simp) hserves
  have hrecords : s.inService [.pullRequests] = true := inService_of_subset (by simp) hserves
  have hlinks : s.inService [.links] = true := inService_of_subset (by simp) hserves
  have hboth : s.inService [.pullRequests, .links] = true := inService_of_subset (by simp) hserves
  cases h with
  | userTaken hthere => exact .bind_error _ (Users.yields_create_of_there husers hthere)
  | teamOfNewUser hnew hteam hnone =>
      exact .bind_error _ (Users.yields_create_of_dangling husers hnew hteam hnone)
  | userMissing hnone => exact .bind_error _ (Users.yields_update_of_none husers hnone)
  | teamOfUser hthere hteam hnone =>
      exact .bind_error _ (Users.yields_update_of_dangling husers hthere hteam hnone)
  | nobody hnone => exact .bind_error _ (Users.yields_setActive_of_none husers _ hnone)
  | teamTaken hthere => exact .bind_error _ (Teams.yields_create_of_there _ hteams hthere)
  | pullRequestTaken hthere =>
      exact .bind_error _ (PullRequests.yields_create_of_createRecord _
        (PullRequests.yields_createRecord_of_there hrecords hthere))
  | authorMissing hnew hnone =>
      exact .bind_error _ (PullRequests.yields_create_of_createRecord _
        (PullRequests.yields_createRecord_of_dangling hrecords hnew hnone))
  | reviewerMissing hnew hauthor hfront hnone =>
      exact .bind_error _
        (PullRequests.yields_create_of_missing hs hboth hnew hauthor hfront _ hnone)
  | reviewerRepeated hnew hauthor hfront hagain =>
      exact .bind_error _
        (PullRequests.yields_create_of_repeated hs hboth hnew hauthor hfront _ hagain)
  | @statusUnknown id text time hnone =>
      have hread : Yields (Attempt.orFail (Status.ofText? text) (.unknownStatus text)) s
          (.error (.unknownStatus text)) s := by
        rw [hnone]
        exact .fail _
      exact .bind_error _ hread
  | @statusKept id status time hkept =>
      exact .bind (yields_status s status)
        (.bind_error _ (PullRequests.yields_setStatus_of_kept time hs hrecords hkept))
  | notAssigned hnone =>
      exact .bind_error _ (PullRequests.yields_replaceReviewer_of_none _ _ hlinks hnone)
  | alreadyAssigned hold hother hthere =>
      exact .bind_error _
        (PullRequests.yields_replaceReviewer_of_there _ hlinks hold hother hthere)
  | replacementMissing hold hnone =>
      exact .bind_error _ (PullRequests.yields_replaceReviewer_of_missing _ hlinks hold hs hnone)

/-- The call is refused, or it succeeds and does what it is there for. -/
def Settles (s : Store) (call : Call) : Prop :=
  (∃ e, s.Refused call e) ∨
    ∃ reply after, s.Written call reply after ∧ Yields call.run s (.ok reply) after

section Settles

variable (hserves : s.inService [.teams, .users, .pullRequests, .links] = true)

include hserves

theorem settles_createUser (u : User) : s.Settles (.createUser u) := by
  have husers : s.inService [.users] = true := inService_of_subset (by simp) hserves
  cases hthere : s.user? u.id with
  | some other => exact Or.inl ⟨_, .userTaken (by rw [hthere, Option.isSome_some])⟩
  | none =>
      cases hteam : s.knowsTeamOf u with
      | false =>
          obtain ⟨team, hname, hnone⟩ := knowsTeamOf_eq_false_iff.mp hteam
          exact Or.inl ⟨_, .teamOfNewUser hthere hname hnone⟩
      | true =>
          refine Or.inr ⟨_, _, .createUser u, ?_⟩
          rw [withUser_of_none hthere]
          exact .bind (Users.yields_create husers hthere hteam) (.pure _)

theorem settles_updateUser (u : User) : s.Settles (.updateUser u) := by
  have husers : s.inService [.users] = true := inService_of_subset (by simp) hserves
  by_cases hthere : (s.user? u.id).isSome
  · cases hteam : s.knowsTeamOf u with
    | false =>
        obtain ⟨team, hname, hnone⟩ := knowsTeamOf_eq_false_iff.mp hteam
        exact Or.inl ⟨_, .teamOfUser hthere hname hnone⟩
    | true =>
        refine Or.inr ⟨_, _, .updateUser u, ?_⟩
        rw [withUser_of_there hthere]
        exact .bind (Users.yields_update husers hthere hteam) (.pure _)
  · exact Or.inl ⟨_, .userMissing (Option.not_isSome_iff_eq_none.mp hthere)⟩

theorem settles_setActive (id : String) (active : Bool) : s.Settles (.setActive id active) := by
  have husers : s.inService [.users] = true := inService_of_subset (by simp) hserves
  cases hthere : s.user? id with
  | none => exact Or.inl ⟨_, .nobody hthere⟩
  | some u =>
      exact Or.inr ⟨_, _, .setActive active hthere,
        .bind (Users.yields_setActive husers active hthere) (.pure _)⟩

theorem settles_createTeam (name : String) (time : Int) : s.Settles (.createTeam name time) := by
  have hteams : s.inService [.teams] = true := inService_of_subset (by simp) hserves
  cases hthere : s.team? name with
  | some other => exact Or.inl ⟨_, .teamTaken (by rw [hthere, Option.isSome_some])⟩
  | none =>
      exact Or.inr ⟨_, _, .createTeam name time,
        .bind (Teams.yields_create time hteams hthere) (.pure _)⟩

theorem settles_createPullRequest (hs : s.Sound .immediate) (p : NewPullRequest)
    (reviewers : List String) : s.Settles (.createPullRequest p reviewers) := by
  have hboth : s.inService [.pullRequests, .links] = true := inService_of_subset (by simp) hserves
  cases hthere : s.record? p.id with
  | some other => exact Or.inl ⟨_, .pullRequestTaken (by rw [hthere, Option.isSome_some])⟩
  | none =>
      by_cases hauthor : (s.user? p.author).isSome
      · obtain hall | ⟨front, first, back, rfl, hfront, hnone | hagain⟩ :=
          s.assignable_or_first reviewers
        · exact Or.inr ⟨_, _, .createPullRequest p reviewers,
            .bind (PullRequests.yields_create hs hboth hthere hauthor hall.known hall.once)
              (.pure _)⟩
        · exact Or.inl ⟨_, .reviewerMissing hthere hauthor hfront hnone⟩
        · exact Or.inl ⟨_, .reviewerRepeated hthere hauthor hfront hagain⟩
      · exact Or.inl ⟨_, .authorMissing hthere (Option.not_isSome_iff_eq_none.mp hauthor)⟩

theorem settles_setStatus (id text : String) (time : Int) :
    s.Settles (.setStatus id text time) := by
  have hrecords : s.inService [.pullRequests] = true := inService_of_subset (by simp) hserves
  cases htext : Status.ofText? text with
  | none => exact Or.inl ⟨_, .statusUnknown htext⟩
  | some status =>
      obtain rfl := Status.ofText?_eq_some_iff.mp htext
      by_cases hkept : ∀ r, s.record? id = some r → r.status = status
      · exact Or.inl ⟨_, .statusKept hkept⟩
      · push Not at hkept
        obtain ⟨r, hthere, hmoves⟩ := hkept
        exact Or.inr ⟨_, _, .setStatus id status time, .bind (yields_status s status)
          (.bind (PullRequests.yields_setStatus time hrecords hthere hmoves) (.pure _))⟩

theorem settles_replaceReviewer (hs : s.Sound .immediate) (id old new : String) (time : Int) :
    s.Settles (.replaceReviewer id old new time) := by
  have hlinks : s.inService [.links] = true := inService_of_subset (by simp) hserves
  by_cases hold : (s.link? id old).isSome
  · by_cases hthere : new ≠ old ∧ (s.link? id new).isSome
    · exact Or.inl ⟨_, .alreadyAssigned hold hthere.1 hthere.2⟩
    · by_cases hknown : (s.user? new).isSome
      · -- a link leads to a pull request, so that of the new reviewer does
        have hrecord : (s.record? id).isSome := by
          obtain ⟨l, hl, rfl, _⟩ := mem_reviewersOf.mp (isSome_link?.mp hold)
          exact isSome_record?.mpr ((hs.references rfl).pullRequest l hl)
        have hfree : new ∈ s.reviewersOf id → new = old := fun hreviews =>
          not_not.mp fun hne => hthere ⟨hne, isSome_link?.mpr hreviews⟩
        exact Or.inr ⟨_, _, .replaceReviewer id old new time,
          .bind (PullRequests.yields_replaceReviewer time hlinks hrecord (isSome_link?.mp hold)
            hknown hfree) (.pure _)⟩
      · exact Or.inl ⟨_, .replacementMissing hold (Option.not_isSome_iff_eq_none.mp hknown)⟩
  · exact Or.inl ⟨_, .notAssigned (Option.not_isSome_iff_eq_none.mp hold)⟩

theorem settles (hs : s.Sound .immediate) {call : Call} (hcall : call.writes = true) :
    s.Settles call := by
  cases call with
  | createUser u => exact settles_createUser hserves u
  | updateUser u => exact settles_updateUser hserves u
  | setActive id active => exact settles_setActive hserves id active
  | createTeam name time => exact settles_createTeam hserves name time
  | createPullRequest p reviewers => exact settles_createPullRequest hserves hs p reviewers
  | setStatus id text time => exact settles_setStatus hserves id text time
  | replaceReviewer id old new time => exact settles_replaceReviewer hserves hs id old new time
  | _ => exact nomatch hcall

end Settles

end Store

namespace Gateway

open Connection

/-- What a call that writes answers on a connection, and what is seen on the
connection then. -/
structure WritesExactly (c : Connection) (call : Call) : Prop where
  /-- An error is answered exactly if the call is refused with it. -/
  refused : ∀ e, (call.run c).1 = .error e ↔ c.view.Refused call e
  /-- Then nothing has changed, whatever was written before. -/
  unchanged : ∀ e, (call.run c).1 = .error e → (call.run c).2.view = c.view
  written : ∀ reply, (call.run c).1 = .ok reply →
    c.view.Written call reply (call.run c).2.view
  /-- The next call finds nothing in its way either. -/
  unhindered : (call.run c).2.Unhindered
  /-- Outside a transaction, what is seen is committed at once. -/
  alone : c.transaction = none → (call.run c).2.transaction = none

/-- **Exact writes**: on a connection that nothing keeps from writing, with the
constraints satisfied and the tables in service, a call that writes answers an
error exactly if it is refused, and then it has changed nothing; otherwise it
does what it is there for, and nothing else. -/
theorem writes_exactly {c : Connection} (hc : c.Unhindered) (hs : c.view.Sound .immediate)
    (hserves : c.view.inService [.teams, .users, .pullRequests, .links] = true) {call : Call}
    (hcall : call.writes = true) : WritesExactly c call := by
  have hdoes := (composedCall call).does
  have hanswer (e : Error) (hrefused : c.view.Refused call e) : (call.run c).1 = .error e := by
    obtain ⟨last, hrun, _⟩ := hdoes.run_of_yields hc (hrefused.yields hs hserves)
    rw [hrun]
  obtain ⟨e, hrefused⟩ | ⟨reply, after, hwritten, hyields⟩ := Store.settles hserves hs hcall
  · obtain ⟨last, hrun, hview, hlast, halone⟩ :=
      hdoes.run_of_yields hc (hrefused.yields hs hserves)
    rw [hrun] at hanswer
    refine ⟨fun other => ?_, ?_, ?_, ?_, ?_⟩
    all_goals rw [hrun]
    · refine ⟨fun h => ?_, hanswer other⟩
      obtain rfl : e = other := Except.error.inj h
      exact hrefused
    · exact fun _ _ => hview
    · exact fun _ h => nomatch h
    · exact hlast
    · exact halone
  · obtain ⟨last, hrun, hview, hlast, halone⟩ := hdoes.run_of_yields hc hyields
    rw [hrun] at hanswer
    refine ⟨fun e => ?_, ?_, fun other h => ?_, ?_, ?_⟩
    all_goals rw [hrun]
    · exact ⟨nofun, hanswer e⟩
    · exact fun _ h => nomatch h
    · rw [hrun] at h
      obtain rfl : reply = other := Except.ok.inj h
      rwa [hview]
    · exact hlast
    · exact halone

/-- The third reviewer is the first who cannot be assigned, in a transaction
that was begun; nothing remains of the two before. -/
theorem writes_exactly_reviewers :
    let user (id : String) : User := ⟨id, id, some "core", true⟩
    let store : Store := {
      teams := [⟨"core", 1⟩]
      users := [user "u1", user "u2", user "u3"] }
    let c := (⟨store, 4, false⟩ : Database).begun
    let call : Call := .createPullRequest ⟨"p1", "Search", "u1", 7⟩ ["u2", "u3", "u2", "ghost"]
    c.view.Sound .immediate ∧
      (call.run c).1 = .error (.storage "pull_requests.add_reviewer" "p1") ∧
      WritesExactly c call := by
  intro user store c call
  have hs : c.view.Sound .immediate := by decide +kernel
  have hexact : WritesExactly c call :=
    writes_exactly (unhindered_begun _) hs (by decide) rfl
  exact ⟨hs, by decide +kernel, hexact⟩

end Gateway

end ReviewRota
