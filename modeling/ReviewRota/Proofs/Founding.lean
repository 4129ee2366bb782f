import ReviewRota.Proofs.Answers
import ReviewRota.Proofs.ReadBack
import ReviewRota.Proofs.TeamConsistency
import ReviewRota.Proofs.Yields

/-!
# ReviewRota.Proofs.Founding

Creating a team, exactly: for every sound store and no storage failure, which
answer is given when, and what is left behind.

| if | then |
|---|---|
| the name is taken | `alreadyExists` |
| more are listed than a statement can list (`Gateway.maxListed`) | a storage failure |
| a listed user of another team reviews an open pull request (`Store.Blocked`) | `crossTeamActive` |
| otherwise | the team is stored, and the listed ones belong to it |

Members are taken in one after the other, so that of several entries for one user
the last one counts (`user?_withMembers`).  Nobody can belong to a team before it
is there, so that the roster is made of the listed ones (`Sound.mem_roster_iff`).  A
store is told by what is found in it (`Sound.users_eq`), and therefore the order of
the entries does not matter if no user is listed twice.

* `Staffing.Founded` — what is left behind, and the roster that is answered;
* `Staffing.createTeam_exact` — the table above.
-/

namespace ReviewRota

open Statement

namespace Store

variable {s : Store}

/-! ## The users of a new team -/

theorem Sound.mem_users_iff (hs : s.Sound .immediate) {u : User} :
    u ∈ s.users ↔ s.user? u.id = some u :=
  ⟨hs.user?_eq_some, fun h => (mem_of_user?_eq_some h).1⟩

/-- The users are told by whom one finds. -/
theorem Sound.users_eq {t : Store} (hs : s.Sound .immediate) (ht : t.Sound .immediate)
    (h : ∀ id, s.user? id = t.user? id) : s.users = t.users := by
  refine hs.users.eq_of_perm User.ordersBy ht.users ?_
  refine (List.perm_ext_iff_of_nodup ?_ ?_).mpr fun u => ?_
  · exact (hs.users.nodup_keys User.ordersBy).of_map
  · exact (ht.users.nodup_keys User.ordersBy).of_map
  · rw [hs.mem_users_iff, ht.mem_users_iff, h]

/-- The order in which members are taken in does not matter if nobody is listed
twice. -/
theorem Sound.withMembers_of_perm (hs : s.Sound .immediate) {team : String}
    (hteam : (s.team? team).isSome) {members others : List NewMember}
    (honce : (members.map NewMember.id).Nodup) (hperm : others.Perm members) :
    Store.withMembers team others s = Store.withMembers team members s := by
  have husers : (Store.withMembers team others s).users =
      (Store.withMembers team members s).users := by
    refine (hs.withMembers others hteam).users_eq (hs.withMembers members hteam) fun id => ?_
    rw [user?_withMembers, user?_withMembers, lastListed?_of_perm honce hperm]
  rw [withMembers_eq, husers, ← withMembers_eq]

/-! ## The roster -/

theorem rosterBefore_iff {a b : User} :
    Users.rosterBefore a b = true ↔ a.name < b.name ∨ a.name = b.name ∧ a.id < b.id := by
  simp [Users.rosterBefore]

/-- A roster is in the order of names and identifiers. -/
theorem ordersBy_roster : OrdersBy Users.rosterBefore fun u : User => (u.name, u.id) :=
  ordersBy_lex (· < ·) User.name User.id rosterBefore_iff

theorem Sound.nodup_roster (hs : s.Sound .immediate) (team : String) :
    (((Users.ofTeam team).answer s).map User.id).Nodup := by
  have hperm : ((Users.ofTeam team).answer s).Perm (s.users.filter (·.team = some team)) :=
    sortRows_perm _ _
  rw [(hperm.map User.id).nodup_iff]
  exact InOrder.nodup_keys User.ordersBy (hs.users.filter _)

theorem Sound.inOrder_roster (hs : s.Sound .immediate) (team : String) :
    InOrder Users.rosterBefore ((Users.ofTeam team).answer s) := by
  have hids : ((s.users.filter (·.team = some team)).map User.id).Nodup :=
    InOrder.nodup_keys User.ordersBy (hs.users.filter _)
  refine inOrder_sortRows ordersBy_roster (List.Nodup.of_map Prod.snd ?_)
  rwa [List.map_map]

/-- The roster of a new team is made of the listed users: nobody can have belonged
to it before. -/
theorem Sound.mem_roster_iff (hs : s.Sound .immediate) {name : String}
    (hnew : s.team? name = none) (members : List NewMember) (now : Int) {u : User} :
    u ∈ (Users.ofTeam name).answer (Store.withMembers name members (s.withTeam ⟨name, now⟩)) ↔
      ∃ m, lastListed? members m.id = some m ∧ u = m.toUser name := by
  have hteam := hs.withTeam (t := ⟨name, now⟩) hnew
  have hafter := hteam.withMembers members (isSome_team?_withTeam now hnew)
  rw [mem_ofTeam, hafter.mem_users_iff, user?_withMembers]
  constructor
  · rintro ⟨hfound, hbelongs⟩
    cases hlast : lastListed? members u.id with
    | none =>
        -- who is not listed would have belonged to a team that was not there
        rw [hlast] at hfound
        obtain ⟨hu, _⟩ := mem_of_user?_eq_some (s := s) hfound
        obtain ⟨t, ht, hname⟩ := (hs.references rfl).team u hu name hbelongs
        exact absurd hname (team?_eq_none_iff.mp hnew t ht)
    | some m =>
        rw [hlast] at hfound
        exact ⟨m, id_of_lastListed? hlast ▸ hlast, (Option.some.inj hfound).symm⟩
  · rintro ⟨m, hlast, rfl⟩
    have hid : (m.toUser name).id = m.id := rfl
    rw [hid, hlast]
    exact ⟨rfl, rfl⟩

end Store

/-! ## The scope -/

namespace Gateway

variable {s : Store} {name : String} {members : List NewMember}

theorem yields_createTeamScope_of_some (hserves : s.inService [.teams] = true)
    (hthere : (s.team? name).isSome) (members : List NewMember) (now : Int) :
    Yields (Staffing.createTeamScope name members now) s
      (.error (.alreadyExists .team name)) s := by
  refine .bind (Teams.yields_isThere name hserves) ?_
  rw [if_pos hthere]
  exact .fail _

variable (hserves : s.inService [.teams, .users, .pullRequests, .links] = true)
  (hnew : s.team? name = none)

include hserves hnew

omit hserves in
/-- Too many users cannot be asked for. -/
theorem yields_createTeamScope_of_lt (hteams : s.inService [.teams] = true) (now : Int)
    (hlong : maxListed < members.length) :
    Yields (Staffing.createTeamScope name members now) s
      (.error (.storage "users.find_cross_team_active" name)) s := by
  have hunused : ¬(s.team? name).isSome = true := by simp [hnew]
  refine .bind (Teams.yields_isThere name hteams) ?_
  rw [if_neg hunused]
  exact .bind_error _ (Users.yields_activeElsewhere_of_lt name (by rwa [List.length_map]))

variable (hfits : members.length ≤ maxListed)

include hfits

/-- Who is found blocked stands against the team. -/
theorem yields_createTeamScope_of_ne_nil {blocked : List String} (now : Int)
    (hblocked : (Statement.Users.activeElsewhere (members.map NewMember.id) name).answer s =
      blocked) (hsome : blocked ≠ []) :
    Yields (Staffing.createTeamScope name members now) s (.error (.crossTeamActive blocked)) s := by
  have hteams : s.inService [.teams] = true := Store.inService_of_subset (by simp) hserves
  have hreviews : s.inService [.users, .links, .pullRequests] = true :=
    Store.inService_of_subset (by simp) hserves
  have hunused : ¬(s.team? name).isSome = true := by simp [hnew]
  have hlist : (members.map NewMember.id).length ≤ maxListed := by rwa [List.length_map]
  refine .bind (Teams.yields_isThere name hteams) ?_
  rw [if_neg hunused]
  refine .bind (Users.yields_activeElsewhere name hlist hreviews) ?_
  rw [hblocked]
  cases blocked with
  | nil => exact absurd rfl hsome
  | cons id rest => exact .fail _

/-- If nobody is, the team is stored and takes its members in. -/
theorem yields_createTeamScope (now : Int)
    (hfree : (Statement.Users.activeElsewhere (members.map NewMember.id) name).answer s = []) :
    let after := Store.withMembers name members (s.withTeam ⟨name, now⟩)
    Yields (Staffing.createTeamScope name members now) s
      (.ok ⟨name, (Statement.Users.ofTeam name).answer after⟩) after := by
  intro after
  have hteams : s.inService [.teams] = true := Store.inService_of_subset (by simp) hserves
  have husers : s.inService [.users] = true := Store.inService_of_subset (by simp) hserves
  have hreviews : s.inService [.users, .links, .pullRequests] = true :=
    Store.inService_of_subset (by simp) hserves
  have hunused : ¬(s.team? name).isSome = true := by simp [hnew]
  have hlist : (members.map NewMember.id).length ≤ maxListed := by rwa [List.length_map]
  have hthere := Store.isSome_team?_withTeam now hnew
  have hafter : after.inService [.users] = true := by
    rw [Store.inService, Store.offline_withMembers]
    exact husers
  refine .bind (Teams.yields_isThere name hteams) ?_
  rw [if_neg hunused]
  refine .bind (Users.yields_activeElsewhere name hlist hreviews) ?_
  rw [hfree]
  exact .bind (Teams.yields_create now hteams hnew)
    (.bind (yields_enrolAll members husers hthere)
      (.bind (Users.yields_ofTeam hafter name) (.pure _)))

end Gateway

/-! ## The operation -/

namespace Staffing

open Gateway Store

variable {s : Store} {db : Database} {name : String} {members : List NewMember}

/-- What creating a team leaves behind, and the roster that is answered: each
listed user as the last entry has it, and everything else as it was. -/
structure Founded (s : Store) (t : TeamRecord) (members : List NewMember) (answer : Team)
    (after : Store) : Prop where
  teams : after.teams.Perm (t :: s.teams)
  listed : ∀ id m, lastListed? members id = some m → after.user? id = some (m.toUser t.name)
  unlisted : ∀ id, id ∉ members.map NewMember.id → after.user? id = s.user? id
  others : after = { s with teams := after.teams, users := after.users }
  sound : after.Sound .immediate
  name : answer.name = t.name
  roster : ∀ u, u ∈ answer.members ↔ ∃ m, lastListed? members m.id = some m ∧ u = m.toUser t.name
  once : (answer.members.map User.id).Nodup
  sorted : answer.members.Pairwise fun a b => a.name < b.name ∨ a.name = b.name ∧ a.id < b.id

theorem founded_withMembers (hs : s.Sound .immediate) (hnew : s.team? name = none)
    (members : List NewMember) (now : Int) :
    let after := withMembers name members (s.withTeam ⟨name, now⟩)
    Founded s ⟨name, now⟩ members ⟨name, (Statement.Users.ofTeam name).answer after⟩ after := by
  intro after
  have hafter : after.Sound .immediate :=
    (hs.withTeam (t := ⟨name, now⟩) hnew).withMembers members (isSome_team?_withTeam now hnew)
  constructor
  case teams =>
    rw [teams_withMembers]
    exact insertRow_perm _ _ _
  case listed =>
    intro id m hlast
    rw [user?_withMembers, hlast]
    rfl
  case unlisted => exact fun id hnot => user?_withMembers_of_not_mem hnot
  case others =>
    rw [teams_withMembers]
    exact withMembers_eq name members _
  case sound => exact hafter
  case name => rfl
  case roster => exact fun u => hs.mem_roster_iff hnew members now
  case once => exact hafter.nodup_roster name
  case sorted => exact (hafter.inOrder_roster name).imp rosterBefore_iff.mp

/-- What creating a team comes to: which answer is given when. -/
structure FoundsExactly (db : Database) (name : String) (members : List NewMember) (now : Int) :
    Prop where
  taken : (db.committed.team? name).isSome →
    createTeam name members now db = (.error (.alreadyExists .team name), db)
  /-- More users are listed than a statement can list. -/
  tooMany : db.committed.team? name = none → maxListed < members.length →
    createTeam name members now db = (.error (.storage "users.find_cross_team_active" name), db)
  blocked : db.committed.team? name = none → members.length ≤ maxListed →
    (∃ id, db.committed.Blocked members id) → ∃ ids : List String, ids.Pairwise (· < ·) ∧
      (∀ id, id ∈ ids ↔ db.committed.Blocked members id) ∧
      createTeam name members now db =
        (.error (.conflict .crossTeamActive (some (String.intercalate ", " ids))), db)
  founds : db.committed.team? name = none → members.length ≤ maxListed →
    (∀ id, ¬db.committed.Blocked members id) →
      ∃ team after, createTeam name members now db = (.ok team, after) ∧
        Founded db.committed ⟨name, now⟩ members team after.committed
  /-- The order of the entries does not matter if nobody is listed twice. -/
  anyOrder : (members.map NewMember.id).Nodup → ∀ others, others.Perm members →
    (createTeam name others now db).1 = (createTeam name members now db).1 ∧
      (createTeam name others now db).2.committed = (createTeam name members now db).2.committed

section Serves

variable (hs : db.committed.Sound .immediate)
  (hserves : db.Serves [.teams, .users, .pullRequests, .links])

include hserves

theorem createTeam_of_some (hthere : (db.committed.team? name).isSome) (members : List NewMember)
    (now : Int) : createTeam name members now db = (.error (.alreadyExists .team name), db) := by
  have hteams : db.committed.inService [.teams] = true :=
    inService_of_subset (by simp) hserves.inService
  exact Service.unitOfWork_of_yields_error _ hserves.unlocked
    (yields_createTeamScope_of_some hteams hthere members now)

variable (hnew : db.committed.team? name = none)

include hnew

theorem createTeam_of_lt (now : Int) (hlong : maxListed < members.length) :
    createTeam name members now db =
      (.error (.storage "users.find_cross_team_active" name), db) := by
  have hteams : db.committed.inService [.teams] = true :=
    inService_of_subset (by simp) hserves.inService
  exact Service.unitOfWork_of_yields_error _ hserves.unlocked
    (yields_createTeamScope_of_lt hnew hteams now hlong)

variable (hfits : members.length ≤ maxListed)

include hfits

theorem createTeam_of_ne_nil (now : Int) {blocked : List String}
    (hblocked :
      (Statement.Users.activeElsewhere (members.map NewMember.id) name).answer db.committed =
        blocked) (hsome : blocked ≠ []) :
    createTeam name members now db = (.error (.crossTeamActive blocked), db) :=
  Service.unitOfWork_of_yields_error _ hserves.unlocked
    (yields_createTeamScope_of_ne_nil hserves.inService hnew hfits now hblocked hsome)

theorem createTeam_of_nil (now : Int)
    (hfree :
      (Statement.Users.activeElsewhere (members.map NewMember.id) name).answer db.committed = []) :
    let store := withMembers name members (db.committed.withTeam ⟨name, now⟩)
    ∃ after, createTeam name members now db =
        (.ok ⟨name, (Statement.Users.ofTeam name).answer store⟩, after) ∧
      after.committed = store := by
  obtain ⟨changed, hrun⟩ := Service.unitOfWork_of_yields_ok "create_team" hserves.unlocked
    (yields_createTeamScope hserves.inService hnew hfits now hfree)
  exact ⟨_, hrun, rfl⟩

omit hnew hfits

include hs

/-- The same entries in another order come to the same if nobody is listed
twice. -/
theorem createTeam_of_perm (honce : (members.map NewMember.id).Nodup)
    {others : List NewMember} (hperm : others.Perm members) (now : Int) :
    (createTeam name others now db).1 = (createTeam name members now db).1 ∧
      (createTeam name others now db).2.committed =
        (createTeam name members now db).2.committed := by
  cases hthere : db.committed.team? name with
  | some t =>
      have hknown : (db.committed.team? name).isSome := by simp [hthere]
      rw [createTeam_of_some hserves hknown others, createTeam_of_some hserves hknown members]
      exact ⟨rfl, rfl⟩
  | none =>
      have hlength := hperm.length_eq
      by_cases hfits : members.length ≤ maxListed
      swap
      · have hlong := Nat.lt_of_not_le hfits
        rw [createTeam_of_lt hserves hthere now (hlength ▸ hlong),
          createTeam_of_lt hserves hthere now hlong]
        exact ⟨rfl, rfl⟩
      have hfits' : others.length ≤ maxListed := hlength ▸ hfits
      -- both lists have the same users, so that the same ones are found blocked
      have hsame :
          (Statement.Users.activeElsewhere (others.map NewMember.id) name).answer db.committed =
            (Statement.Users.activeElsewhere (members.map NewMember.id) name).answer
              db.committed := by
        rw [activeElsewhere_congr fun id => (hperm.map NewMember.id).mem_iff (a := id)]
      by_cases hfree :
          (Statement.Users.activeElsewhere (members.map NewMember.id) name).answer db.committed = []
      · obtain ⟨left, hleft, hcommitted⟩ :=
          createTeam_of_nil hserves hthere hfits' now (hsame.trans hfree)
        obtain ⟨right, hright, hcommitted'⟩ := createTeam_of_nil hserves hthere hfits now hfree
        have hstores := (hs.withTeam (t := ⟨name, now⟩) hthere).withMembers_of_perm
          (isSome_team?_withTeam now hthere) honce hperm
        rw [hleft, hright, hcommitted, hcommitted', hstores]
        exact ⟨rfl, rfl⟩
      · rw [createTeam_of_ne_nil hserves hthere hfits' now hsame hfree,
          createTeam_of_ne_nil hserves hthere hfits now rfl hfree]
        exact ⟨rfl, rfl⟩

/-- **Founding, exactly**: the first answer of the table that applies is given and
changes nothing, and if none applies the team is stored with the listed users. -/
theorem createTeam_exact (name : String) (members : List NewMember) (now : Int) :
    FoundsExactly db name members now := by
  have hfound (hnew : db.committed.team? name = none) (id : String) :
      id ∈ (Statement.Users.activeElsewhere (members.map NewMember.id) name).answer
        db.committed ↔ db.committed.Blocked members id := hs.mem_activeElsewhere_iff hnew
  constructor
  case taken => exact fun hthere => createTeam_of_some hserves hthere members now
  case tooMany => exact fun hnew hlong => createTeam_of_lt hserves hnew now hlong
  case blocked =>
    rintro hnew hfits ⟨id, hblocked⟩
    exact ⟨_, hs.pairwise_activeElsewhere _ name, hfound hnew,
      createTeam_of_ne_nil hserves hnew hfits now rfl
        (List.ne_nil_of_mem ((hfound hnew id).mpr hblocked))⟩
  case founds =>
    intro hnew hfits hnobody
    have hfree := List.eq_nil_iff_forall_not_mem.mpr fun id hid =>
      hnobody id ((hfound hnew id).mp hid)
    obtain ⟨after, hrun, hcommitted⟩ := createTeam_of_nil hserves hnew hfits now hfree
    refine ⟨_, after, hrun, ?_⟩
    rw [hcommitted]
    exact founded_withMembers hs hnew members now
  case anyOrder =>
    exact fun honce others hperm => createTeam_of_perm hs hserves honce hperm now

end Serves

/-- The second entry for a user counts.  What the user reviews is merged and stands
against nothing. -/
theorem createTeam_exact_listedTwice :
    let user (id : String) : User := ⟨id, id, some "core", true⟩
    let store : Store := {
      teams := [⟨"core", 1⟩]
      users := [user "u1", user "u2", user "u3"]
      pullRequests :=
        [⟨"p1", "Fix", "u1", .merged, 5, some 6⟩, ⟨"p2", "New", "u1", .opened, 7, none⟩]
      links := [⟨"p1", "u2", 5⟩, ⟨"p2", "u3", 7⟩] }
    let db : Database := ⟨store, 3, false⟩
    let members : List NewMember := [⟨"u2", "Bob", false⟩, ⟨"u9", "Zoe", true⟩, ⟨"u2", "Ben", true⟩]
    store.Sound .immediate ∧ db.Serves [.teams, .users, .pullRequests, .links] ∧
      FoundsExactly db "tools" members 9 ∧
      ∃ team after, createTeam "tools" members 9 db = (.ok team, after) ∧
        after.committed.user? "u2" = some ⟨"u2", "Ben", some "tools", true⟩ := by
  intro user store db members
  have hs : store.Sound .immediate := by decide +kernel
  have hserves : db.Serves [.teams, .users, .pullRequests, .links] := ⟨rfl, by decide⟩
  have hnew : store.team? "tools" = none := by decide
  have hnobody (id : String) : ¬store.Blocked members id := by
    have hnone : (Statement.Users.activeElsewhere (members.map NewMember.id) "tools").answer store =
        [] := by decide +kernel
    rw [← hs.mem_activeElsewhere_iff hnew, hnone]
    exact List.not_mem_nil
  have hexact := createTeam_exact hs hserves "tools" members 9
  obtain ⟨team, after, hrun, hfounded⟩ := hexact.founds hnew (by decide) hnobody
  exact ⟨hs, hserves, hexact, team, after, hrun,
    hfounded.listed "u2" ⟨"u2", "Ben", true⟩ (by decide)⟩

end Staffing

end ReviewRota
