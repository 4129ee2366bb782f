import ReviewRota.Proofs.Availability
import ReviewRota.Proofs.History

/-!
# ReviewRota.Proofs.TeamConsistency

The reviewers of an open pull request all belong to one team: the one that
its author belonged to when it was created.  The author may have been moved
to another team since; the reviewers stay until it is merged.

No operation alone gives this.  A creation draws from the author's team, a
reassignment from the team of the reviewer who goes, and a new team takes
nobody who reviews an open pull request for another one.  A reviewer whom
the guard lets pass would have to belong to the new team already, but nobody
can belong to a team that is not there (`Store.not_listed`).

* `Store.Becomes.team_kept` — a reviewer of an open pull request stays in
  their team;
* `History.team_consistent` — the law, after every history.
-/

namespace ReviewRota

open Reviewing Statement

namespace Store

variable {s after : Store}

/-- Who a user is is told by the users alone. -/
theorem user?_congr {t : Store} (h : t.users = s.users) (id : String) :
    t.user? id = s.user? id := by
  rw [user?, user?, h]

/-- A listed user who belongs to a team and reviews an open pull request. -/
structure Blocked (s : Store) (members : List NewMember) (id : String) : Prop where
  listed : id ∈ members.map NewMember.id
  belongs : ∃ u team, s.user? id = some u ∧ u.team = some team
  reviews : ∃ r ∈ s.pullRequests, r.status = .opened ∧ id ∈ s.reviewersOf r.id

/-- The statement that asks for them finds exactly the blocked ones: whoever
belongs to a team belongs to another one, as the new one is not there. -/
theorem Sound.mem_activeElsewhere_iff (hs : s.Sound .immediate) {name : String}
    (hnew : s.team? name = none) {members : List NewMember} {id : String} :
    id ∈ (Users.activeElsewhere (members.map NewMember.id) name).answer s ↔
      s.Blocked members id := by
  rw [mem_activeElsewhere]
  constructor
  · rintro ⟨hlisted, ⟨u, hu, rfl, team, hteam, _⟩, hreviews⟩
    exact ⟨hlisted, ⟨u, team, hs.user?_eq_some hu, hteam⟩, hreviews⟩
  · rintro ⟨hlisted, ⟨u, team, hfound, hteam⟩, hreviews⟩
    obtain ⟨hu, rfl⟩ := mem_of_user?_eq_some hfound
    obtain ⟨t, ht, rfl⟩ := (hs.references rfl).team u hu team hteam
    exact ⟨hlisted, ⟨u, hu, rfl, t.name, hteam, team?_eq_none_iff.mp hnew t ht⟩, hreviews⟩

/-- No member of a team who reviews something that is open can be listed for
a new team. -/
theorem not_listed (hs : s.Sound .immediate) {name : String} {members : List NewMember}
    (hnew : s.team? name = none)
    (hfree : (Users.activeElsewhere (members.map NewMember.id) name).answer s = [])
    {id team : String} {u : User} (hreviews : Users.reviewsOpen s id = true)
    (huser : s.user? id = some u) (hteam : u.team = some team) :
    id ∉ members.map NewMember.id := by
  intro hlisted
  have hblocked : s.Blocked members id :=
    ⟨hlisted, ⟨u, team, huser, hteam⟩, reviewsOpen_iff.mp hreviews⟩
  have hfound := (hs.mem_activeElsewhere_iff hnew).mpr hblocked
  rw [hfree] at hfound
  exact nomatch hfound

/-- **No move**: who belongs to a team and reviews an open pull request
stays in the team, whatever happens next. -/
theorem Becomes.team_kept (h : s.Becomes after) (hs : s.Sound .immediate) {id team : String}
    {u : User} (hreviews : Users.reviewsOpen s id = true) (huser : s.user? id = some u)
    (hteam : u.team = some team) : ∃ v, after.user? id = some v ∧ v.team = some team := by
  cases h with
  | outage tables => exact ⟨u, huser, hteam⟩
  | done h =>
      cases h with
      | created hauthor hnew hreviewers => exact ⟨u, huser, hteam⟩
      | reassigned hthere hopen hold holder hdrawn hafter =>
          subst hafter
          exact ⟨u, huser, hteam⟩
      | merged hthere hopen => exact ⟨u, huser, hteam⟩
      | mergedBefore hthere hmerged => exact ⟨u, huser, hteam⟩
      | teamCreated hnew hfree hafter =>
          subst hafter
          have hunlisted := not_listed hs hnew hfree hreviews huser hteam
          rw [user?_withMembers_of_not_mem hunlisted]
          exact ⟨u, huser, hteam⟩
      | @activitySet other active w hthere =>
          rw [user?_withUser]
          obtain ⟨_, rfl⟩ := mem_of_user?_eq_some hthere
          by_cases hid : id = w.id
          · -- the row is written anew, with the team it had
            obtain rfl : u = w := Option.some.inj (huser.symm.trans (hid ▸ hthere))
            exact ⟨_, if_pos hid, hteam⟩
          · exact ⟨u, (if_neg hid).trans huser, hteam⟩
      | looked hlooks => exact ⟨u, huser, hteam⟩

/-- The reviewers of a pull request that came about by `c` belong to the
team that its author belonged to then. -/
def OfOneTeam (s : Store) (author id : String) (c : Creation id) : Prop :=
  ∃ writer, c.before.user? author = some writer ∧
    ∀ reviewer ∈ s.reviewersOf id,
      ∃ u team, s.user? reviewer = some u ∧ u.team = some team ∧ writer.team = some team

end Store

namespace History

/-- The reviewers of every open pull request belong to one team. -/
def HasOneTeams (h : History) : Prop :=
  ∀ r ∈ h.store.pullRequests, r.status = .opened →
    ∃ c, h.creation? r.id = some c ∧ h.store.OfOneTeam r.author r.id c

/-- No event moves a reviewer out of that team, nor takes on one of another
team. -/
theorem HasOneTeams.andThen {h : History} (hteams : h.HasOneTeams) (e : Event) :
    (h.andThen e).HasOneTeams := by
  intro r hr hopen
  have hs := h.sound
  cases (h.becomes e).reviewed hs r hr with
  | @created writer draw hnew hauthor hreviewers husers =>
      refine ⟨_, creation?_of_new hnew hr, writer, hauthor, ?_⟩
      intro reviewer hreviewer
      rw [hreviewers.mem_iff] at hreviewer
      obtain ⟨u, hu, rfl⟩ := List.mem_map.mp hreviewer
      obtain ⟨hmem, ⟨team, hwriter, hteam⟩, _⟩ := mem_drawn hu
      rw [Store.user?_congr husers]
      exact ⟨u, team, hs.user?_eq_some hmem, hteam, hwriter⟩
  | kept hr₀ hreviewers =>
      obtain ⟨c, hc, writer, hwriter, hone⟩ := hteams r hr₀ hopen
      rw [← creation?_of_mem hr₀] at hc
      refine ⟨c, hc, writer, hwriter, fun reviewer hreviewer => ?_⟩
      rw [hreviewers] at hreviewer
      obtain ⟨u, team, hu, hteam, hsame⟩ := hone reviewer hreviewer
      have hreviews := Store.reviewsOpen_iff.mpr ⟨r, hr₀, hopen, hreviewer⟩
      obtain ⟨v, hv, hkept⟩ := (h.becomes e).team_kept hs hreviews hu hteam
      exact ⟨v, team, hv, hkept, hsame⟩
  | merged hr₀ hid hauthor hmerged hreviewers =>
      rw [hmerged] at hopen
      exact nomatch hopen
  | @reassigned old u new hr₀ _ hold huser hnew hteam hfree hreviewers husers =>
      obtain ⟨c, hc, writer, hwriter, hone⟩ := hteams r hr₀ hopen
      rw [← creation?_of_mem hr₀] at hc
      refine ⟨c, hc, writer, hwriter, fun reviewer hreviewer => ?_⟩
      rw [Store.user?_congr husers]
      rw [hreviewers.mem_iff] at hreviewer
      obtain rfl | hreviewer := List.mem_cons.mp hreviewer
      · -- the new reviewer is of the team of the old one
        obtain ⟨name, hname, hnewname⟩ := hteam
        obtain ⟨v, team, hv, hteam, hsame⟩ := hone old hold
        obtain rfl : v = u := Option.some.inj (hv.symm.trans huser)
        obtain rfl : team = name := Option.some.inj (hteam.symm.trans hname)
        exact ⟨new, team, hs.user?_eq_some hnew, hnewname, hsame⟩
      · exact hone reviewer (List.mem_of_mem_filter hreviewer)

theorem hasOneTeams (h : History) : h.HasOneTeams := by
  induction h with
  | fresh => exact fun r hr => nomatch hr
  | andThen earlier e ih => exact ih.andThen e

/-- **Team consistency**: the reviewers of every open pull request belong to
the team that its author belonged to when it was created, and nothing that
happens next changes the team of one of them. -/
theorem team_consistent (h : History) :
    (∀ r ∈ h.store.pullRequests, r.status = .opened →
      ∃ c, h.creation? r.id = some c ∧ h.store.OfOneTeam r.author r.id c) ∧
    ∀ (e : Event) (id : String) (u : User), Users.reviewsOpen h.store id = true →
      h.store.user? id = some u → ∃ v, (h.andThen e).store.user? id = some v ∧ v.team = u.team := by
  refine ⟨h.hasOneTeams, fun e id u hreviews huser => ?_⟩
  obtain ⟨r, hr, hopen, hreviewer⟩ := Store.reviewsOpen_iff.mp hreviews
  obtain ⟨c, _, writer, _, hone⟩ := h.hasOneTeams r hr hopen
  obtain ⟨w, team, hw, hteam, _⟩ := hone id hreviewer
  obtain rfl : w = u := Option.some.inj (hw.symm.trans huser)
  rw [hteam]
  exact (h.becomes e).team_kept h.sound hreviews huser hteam

/-- The author has left for another team, and the reviewers stay in the old
one even when a new team lists one of them. -/
theorem team_consistent_authorLeft :
    let ask (now : Int) (o : Operation) : Event := .request now (.operation o)
    let team : List NewMember := [⟨"ann", "Ann", true⟩, ⟨"bob", "Bob", true⟩, ⟨"cid", "Cid", true⟩]
    let h := ofEvents [ask 10 (.createTeam "core" team), ask 20 (.create "p" "Fix" "ann" .still),
      ask 30 (.createTeam "tools" [⟨"ann", "Ann", true⟩])]
    let e := ask 40 (.createTeam "docs" [⟨"bob", "Bob", true⟩])
    let r : PullRequestRecord := ⟨"p", "Fix", "ann", .opened, 20, none⟩
    let bob : User := ⟨"bob", "Bob", some "core", true⟩
    h.store.user? "ann" = some ⟨"ann", "Ann", some "tools", true⟩ ∧
      h.store.reviewersOf r.id = ["bob", "cid"] ∧
      (r ∈ h.store.pullRequests ∧ r.status = .opened ∧
        ∃ c, h.creation? r.id = some c ∧ h.store.OfOneTeam r.author r.id c) ∧
      (Users.reviewsOpen h.store bob.id = true ∧ h.store.user? bob.id = some bob ∧
        ∃ v, (h.andThen e).store.user? bob.id = some v ∧ v.team = bob.team) :=
  ⟨by decide +kernel, by decide +kernel,
    ⟨by decide +kernel, rfl, (team_consistent _).1 _ (by decide +kernel) rfl⟩,
    ⟨by decide +kernel, by decide +kernel,
      (team_consistent _).2 _ _ _ (by decide +kernel) (by decide +kernel)⟩⟩

end History

end ReviewRota
