import ReviewRota.Proofs.Integrity

/-!
# ReviewRota.Proofs.Changes

The stores that the operations leave behind, and what is looked up in them.
Each is the store before with one thing done to it:

| | what is new | who reviews |
|---|---|---|
| `withPullRequest` | a record and its links | as before but for the new one |
| `withReplacement` | one link for another | as before but for this one |
| `withMerged` | a status and a time | as before |
| `withTeam` | a team | as before |
| `withUser`, `withMembers` | users, added or overwritten | as before |
-/

namespace ReviewRota

open Statement Users PullRequests

/-- There are only two states. -/
theorem Status.ne_merged_iff {status : Status} : ¬status = .merged ↔ status = .opened := by
  cases status <;> simp

/-- The link of a reviewer to a new pull request. -/
def NewPullRequest.link (p : NewPullRequest) (reviewer : String) : Link :=
  ⟨p.id, reviewer, p.createdAt⟩

/-! ## Listed members -/

/-- The last entry for a user in a list of members. -/
def lastListed? (members : List NewMember) (id : String) : Option NewMember :=
  members.reverse.find? (·.id = id)

theorem lastListed?_cons (m : NewMember) (rest : List NewMember) (id : String) :
    lastListed? (m :: rest) id =
      (lastListed? rest id).or (if m.id = id then some m else none) := by
  rw [lastListed?, List.reverse_cons, List.find?_append, lastListed?]
  by_cases hid : m.id = id <;> simp [hid]

theorem id_of_lastListed? {members : List NewMember} {id : String} {m : NewMember}
    (h : lastListed? members id = some m) : m.id = id := by
  simpa using List.find?_some h

theorem lastListed?_eq_none_iff {members : List NewMember} {id : String} :
    lastListed? members id = none ↔ id ∉ members.map NewMember.id := by
  simp [lastListed?]

/-- The last entry for a user who is listed once is the only one. -/
theorem lastListed?_eq_some_iff {members : List NewMember}
    (honce : (members.map NewMember.id).Nodup) {id : String} {m : NewMember} :
    lastListed? members id = some m ↔ m ∈ members ∧ m.id = id := by
  constructor
  · intro h
    exact ⟨List.mem_reverse.mp (List.mem_of_find?_eq_some h), id_of_lastListed? h⟩
  · rintro ⟨hm, rfl⟩
    cases h : lastListed? members m.id with
    | none => exact absurd (List.mem_map_of_mem hm) (lastListed?_eq_none_iff.mp h)
    | some n =>
        have hn := List.mem_reverse.mp (List.mem_of_find?_eq_some h)
        rw [List.inj_on_of_nodup_map honce hn hm (id_of_lastListed? h)]

/-- Where nobody is listed twice, the order of the entries does not matter. -/
theorem lastListed?_of_perm {members others : List NewMember}
    (honce : (members.map NewMember.id).Nodup) (hperm : others.Perm members) (id : String) :
    lastListed? others id = lastListed? members id := by
  have honce' : (others.map NewMember.id).Nodup := (hperm.map NewMember.id).nodup_iff.mpr honce
  refine Option.ext fun m => ?_
  rw [lastListed?_eq_some_iff honce', lastListed?_eq_some_iff honce, hperm.mem_iff]

namespace Store

variable {s : Store}

/-! ## Stores left behind -/

/-- The store with a new pull request and its reviewers. -/
def withPullRequest (s : Store) (p : NewPullRequest) (reviewers : List String) : Store :=
  { s with
    pullRequests := insertRow PullRequestRecord.before p.record s.pullRequests
    links := insertRows Link.before (reviewers.map p.link) s.links }

/-- The store with a reviewer in another one's place. -/
def withReplacement (s : Store) (id old new : String) (time : Int) : Store :=
  { s with
    links := insertRow Link.before ⟨id, new, time⟩
      (s.links.filter fun l => !isLinkOf id old l) }

/-- The store with a pull request merged. -/
def withMerged (s : Store) (id : String) (time : Int) : Store :=
  { s with
    pullRequests := s.pullRequests.map fun r =>
      if isToMove id .merged r then moved .merged time r else r }

/-- The store with a new team. -/
def withTeam (s : Store) (t : TeamRecord) : Store :=
  { s with teams := insertRow TeamRecord.before t s.teams }

/-- The store with a user, in the place of the one of that identifier if
there is one. -/
def withUser (s : Store) (u : User) : Store :=
  { s with
    users :=
      if (s.user? u.id).isSome then replaceIn u s.users
      else insertRow User.before u s.users }

/-- The store with listed members in a team, one after the other. -/
def withMembers (team : String) : List NewMember → Store → Store
  | [], s => s
  | m :: rest, s => withMembers team rest (s.withUser (m.toUser team))

/-! ## Pull requests with their reviewers -/

variable {r : PullRequestRecord}

@[simp] theorem assemble_reviewers : (s.assemble r).reviewers = s.reviewersOf r.id := rfl

@[simp] theorem isMerged_assemble : (s.assemble r).isMerged = true ↔ r.status = .merged :=
  decide_eq_true_iff

@[simp] theorem canBeModified_assemble :
    (s.assemble r).canBeModified = true ↔ r.status = .opened := by
  rw [PullRequest.canBeModified, Bool.not_eq_true', ← Bool.not_eq_true, isMerged_assemble,
    Status.ne_merged_iff]

@[simp] theorem hasReviewer_assemble {user : String} :
    (s.assemble r).hasReviewer user = true ↔ user ∈ s.reviewersOf r.id := by
  simp [PullRequest.hasReviewer]

/-! ## Records -/

theorem record?_withPullRequest_self {p : NewPullRequest} (reviewers : List String)
    (hnew : s.record? p.id = none) :
    (s.withPullRequest p reviewers).record? p.id = some p.record :=
  find?_insertRow_self (by simp [NewPullRequest.record]) hnew

theorem record?_withPullRequest_of_ne {p : NewPullRequest} (reviewers : List String)
    {id : String} (h : id ≠ p.id) :
    (s.withPullRequest p reviewers).record? id = s.record? id :=
  find?_insertRow_of_not (decide_eq_false h.symm)

/-- Merging keeps every identifier. -/
theorem record?_withMerged (s : Store) (id : String) (time : Int) (other : String) :
    (s.withMerged id time).record? other = (s.record? other).map fun r =>
      if isToMove id .merged r then moved .merged time r else r := by
  have hid (r : PullRequestRecord) :
      (if isToMove id .merged r then moved .merged time r else r).id = r.id := by
    split
    · exact moved_id _ _ _
    · rfl
  rw [record?, withMerged, List.find?_map, record?]
  simp only [Function.comp_def, hid]

theorem record?_withMerged_self {id : String} (time : Int) {r : PullRequestRecord}
    (hthere : s.record? id = some r) (hopen : r.status = .opened) :
    (s.withMerged id time).record? id = some { r with status := .merged, mergedAt := some time } := by
  obtain ⟨_, rfl⟩ := mem_of_record?_eq_some hthere
  have hmove : isToMove r.id .merged r = true := by simp [isToMove, hopen]
  rw [record?_withMerged, hthere, Option.map_some, if_pos hmove]
  rfl

theorem record?_withMerged_of_ne (s : Store) {id : String} (time : Int) {other : String}
    (h : other ≠ id) : (s.withMerged id time).record? other = s.record? other := by
  rw [record?_withMerged]
  cases hthere : s.record? other with
  | none => rfl
  | some r =>
      obtain ⟨_, rfl⟩ := mem_of_record?_eq_some hthere
      rw [Option.map_some, if_neg (by simp [isToMove, h])]

/-- The records tell which pull requests are there. -/
theorem record?_congr {t : Store} (h : t.pullRequests = s.pullRequests) (id : String) :
    t.record? id = s.record? id := by
  rw [record?, record?, h]

/-! ## Users -/

theorem withUser_of_none {u : User} (hnew : s.user? u.id = none) :
    s.withUser u = { s with users := insertRow User.before u s.users } := by
  rw [withUser, if_neg (by simp [hnew])]

theorem withUser_of_there {u : User} (hthere : (s.user? u.id).isSome) :
    s.withUser u = { s with users := replaceIn u s.users } := by
  rw [withUser, if_pos hthere]

/-- Overwriting a user changes what is found under one identifier. -/
theorem find?_replaceIn (u : User) (users : List User) (id : String) :
    (replaceIn u users).find? (·.id = id) =
      if id = u.id then (users.find? (·.id = id)).map fun _ => u
      else users.find? (·.id = id) := by
  induction users with
  | nil => simp [replaceIn]
  | cons v rest ih =>
      rw [replaceIn, List.map_cons, List.find?_cons, List.find?_cons, ← replaceIn, ih]
      by_cases hv : v.id = u.id
      · by_cases hid : id = u.id
        · simp [hv, hid]
        · simp [hv, hid, Ne.symm hid]
      · by_cases hid : id = u.id
        · simp [hv, hid]
        · simp [hv, hid]

theorem user?_withUser (s : Store) (u : User) (id : String) :
    (s.withUser u).user? id = if id = u.id then some u else s.user? id := by
  unfold withUser
  by_cases hthere : (s.user? u.id).isSome
  · obtain ⟨v, hv⟩ := Option.isSome_iff_exists.mp hthere
    rw [if_pos hthere, user?, find?_replaceIn]
    by_cases hid : id = u.id
    · rw [if_pos hid, if_pos hid, hid, ← user?, hv, Option.map_some]
    · rw [if_neg hid, if_neg hid, ← user?]
  · rw [if_neg hthere]
    have hnone : s.user? u.id = none := by simpa using hthere
    by_cases hid : id = u.id
    · rw [if_pos hid, hid]
      exact find?_insertRow_self (by simp) hnone
    · rw [if_neg hid]
      exact find?_insertRow_of_not (by simpa using Ne.symm hid)

/-- Who is listed is found as the last entry has it, and who is not as before. -/
theorem user?_withMembers (team : String) (members : List NewMember) (s : Store) (id : String) :
    (withMembers team members s).user? id =
      ((lastListed? members id).map (·.toUser team)).or (s.user? id) := by
  induction members generalizing s with
  | nil => rfl
  | cons m rest ih =>
      rw [withMembers, ih, user?_withUser, lastListed?_cons]
      cases lastListed? rest id with
      | some n => rfl
      | none =>
          by_cases hid : m.id = id
          · subst hid
            simp [NewMember.toUser]
          · simp [NewMember.toUser, hid, Ne.symm hid]

/-- Taking members into a team does not touch those who are not listed. -/
theorem user?_withMembers_of_not_mem {team : String} {members : List NewMember} {id : String}
    (h : id ∉ members.map NewMember.id) :
    (withMembers team members s).user? id = s.user? id := by
  rw [user?_withMembers, lastListed?_eq_none_iff.mpr h, Option.map_none, Option.none_or]

/-- Taking members into a team loses nobody. -/
theorem isSome_user?_withMembers {team : String} {members : List NewMember} {id : String}
    (hthere : (s.user? id).isSome) : ((withMembers team members s).user? id).isSome := by
  rw [user?_withMembers, Option.isSome_or, hthere, Bool.or_true]

/-! ## Teams -/

theorem team?_withTeam_of_ne {t : TeamRecord} {name : String} (h : name ≠ t.name) :
    (s.withTeam t).team? name = s.team? name := find?_insertRow_of_not (decide_eq_false h.symm)

theorem team?_withTeam_self {name : String} (time : Int) (hnew : s.team? name = none) :
    (s.withTeam ⟨name, time⟩).team? name = some ⟨name, time⟩ :=
  find?_insertRow_self (decide_eq_true rfl) hnew

/-- A new team is known. -/
theorem isSome_team?_withTeam {name : String} (time : Int) (hnew : s.team? name = none) :
    ((s.withTeam ⟨name, time⟩).team? name).isSome := by
  rw [team?_withTeam_self time hnew, Option.isSome_some]

/-! ## Soundness -/

theorem Sound.withTeam (hs : s.Sound .immediate) {t : TeamRecord} (hnew : s.team? t.name = none) :
    (s.withTeam t).Sound .immediate :=
  Teams.sound_insert t hs (Teams.insert_apply_eq_ok_iff.mpr ⟨hnew, rfl⟩)

theorem Sound.withUser (hs : s.Sound .immediate) {u : User} (hteam : s.knowsTeamOf u = true) :
    (s.withUser u).Sound .immediate := by
  unfold Store.withUser
  by_cases hthere : (s.user? u.id).isSome
  · rw [if_pos hthere]
    exact Users.sound_replaceIn hs u fun _ => hteam
  · rw [if_neg hthere]
    have hnew : s.user? u.id = none := by simpa using hthere
    exact Users.sound_insert u hs
      (Users.insert_apply_eq_ok_iff.mpr ⟨hnew, fun _ => hteam, rfl⟩)

theorem Sound.withMembers (hs : s.Sound .immediate) {team : String} (members : List NewMember)
    (hteam : (s.team? team).isSome) : (withMembers team members s).Sound .immediate := by
  induction members generalizing s with
  | nil => exact hs
  | cons m rest ih =>
      have hknown : s.knowsTeamOf (m.toUser team) = true := hteam
      exact ih (hs.withUser hknown) hteam

/-! ## Reviewers -/

/-- The links of a pull request. -/
def linksOf (s : Store) (id : String) : List Link := s.links.filter (·.pullRequest = id)

theorem mem_linksOf {id : String} {l : Link} :
    l ∈ s.linksOf id ↔ l ∈ s.links ∧ l.pullRequest = id := by
  simp [linksOf]

/-- The links tell who the reviewers are. -/
theorem reviewersOf_of_linksOf {t : Store} {id : String} (h : t.linksOf id = s.linksOf id) :
    t.reviewersOf id = s.reviewersOf id := congrArg (List.map Link.reviewer) h

theorem mem_reviewersOf {id user : String} :
    user ∈ s.reviewersOf id ↔ ∃ l ∈ s.links, l.pullRequest = id ∧ l.reviewer = user := by
  simp [reviewersOf, and_assoc]

/-- Nobody reviews a pull request twice. -/
theorem Sound.nodup_reviewersOf {fks : ForeignKeys} (h : s.Sound fks) (id : String) :
    (s.reviewersOf id).Nodup := by
  have hordered : (s.links.filter (·.pullRequest = id)).Pairwise fun a b => a.before b :=
    h.links.filter _
  rw [reviewersOf, List.Nodup, List.pairwise_map]
  refine hordered.imp_of_mem fun {a b} ha hb hab hreviewer => ?_
  have hpa : a.pullRequest = id := by simpa using (List.mem_filter.mp ha).2
  have hpb : b.pullRequest = id := by simpa using (List.mem_filter.mp hb).2
  have hkey : a.key = b.key := Prod.ext (hpa.trans hpb.symm) hreviewer
  exact Link.ordersBy.key_ne hab hkey

/-- A pull request that is not there has no reviewers. -/
theorem Sound.reviewersOf_eq_nil (hs : s.Sound .immediate) {id : String}
    (hnone : s.record? id = none) : s.reviewersOf id = [] := by
  have hlinks : ∀ l ∈ s.links, ¬l.pullRequest = id := by
    intro l hl hid
    obtain ⟨r, hr, hrid⟩ := (hs.references rfl).pullRequest l hl
    exact record?_eq_none_iff.mp hnone r hr (hrid.trans hid)
  rw [reviewersOf, List.filter_eq_nil_iff.mpr (by simpa using hlinks), List.map_nil]

/-- A new pull request has the reviewers that it was created with. -/
theorem reviewersOf_withPullRequest_self {p : NewPullRequest} (reviewers : List String)
    (hnew : s.reviewersOf p.id = []) :
    ((s.withPullRequest p reviewers).reviewersOf p.id).Perm reviewers := by
  have hlinks : ((reviewers.map p.link).filter (·.pullRequest = p.id)).map Link.reviewer =
      reviewers := by
    rw [List.filter_eq_self.mpr (by simp [NewPullRequest.link]), List.map_map]
    exact List.map_id reviewers
  have hperm := ((insertRows_perm Link.before (reviewers.map p.link) s.links).filter
    (·.pullRequest = p.id)).map Link.reviewer
  rw [List.filter_append, List.map_append, hlinks] at hperm
  rw [reviewersOf] at hnew
  rw [hnew, List.append_nil] at hperm
  exact hperm

theorem linksOf_withPullRequest_of_ne {p : NewPullRequest} (reviewers : List String)
    {id : String} (h : id ≠ p.id) :
    (s.withPullRequest p reviewers).linksOf id = s.linksOf id := by
  have hlinks : ∀ l ∈ reviewers.map p.link, decide (l.pullRequest = id) = false := by
    simp [NewPullRequest.link, h.symm]
  rw [linksOf, withPullRequest, filter_insertRows_of_not hlinks, linksOf]

/-- Taking a reviewer off leaves the others. -/
theorem map_filter_isLinkOf (s : Store) (id old : String) :
    ((s.links.filter fun l => !isLinkOf id old l).filter (·.pullRequest = id)).map Link.reviewer =
      (s.reviewersOf id).filter (· ≠ old) := by
  rw [reviewersOf, List.filter_map, List.filter_filter, List.filter_filter]
  apply congrArg
  apply List.filter_congr
  intro l _
  by_cases hl : l.pullRequest = id
  · simp [isLinkOf, hl]
  · simp [hl]

/-- A replacement takes the old reviewer off and puts the new one on. -/
theorem reviewersOf_withReplacement_self (s : Store) (id old new : String) (time : Int) :
    ((s.withReplacement id old new time).reviewersOf id).Perm
      (new :: (s.reviewersOf id).filter (· ≠ old)) := by
  have hperm := ((insertRow_perm Link.before ⟨id, new, time⟩
    (s.links.filter fun l => !isLinkOf id old l)).filter (·.pullRequest = id)).map Link.reviewer
  rw [List.filter_cons_of_pos (by simp), List.map_cons, map_filter_isLinkOf] at hperm
  exact hperm

theorem linksOf_withReplacement_of_ne {id old new : String} {time : Int} {other : String}
    (h : other ≠ id) :
    (s.withReplacement id old new time).linksOf other = s.linksOf other := by
  rw [linksOf, withReplacement, filter_insertRow_of_not (by simpa using h.symm),
    List.filter_filter, linksOf]
  apply List.filter_congr
  intro l _
  by_cases hl : l.pullRequest = other
  · simp [isLinkOf, hl, h]
  · simp [hl]

/-- Without one of them there is one reviewer less. -/
theorem Sound.length_filter_ne {fks : ForeignKeys} (h : s.Sound fks) {id old : String}
    (hold : old ∈ s.reviewersOf id) :
    ((s.reviewersOf id).filter (· ≠ old)).length + 1 = (s.reviewersOf id).length := by
  have hothers : (s.reviewersOf id).filter (· ≠ old) = (s.reviewersOf id).erase old := by
    rw [(h.nodup_reviewersOf id).erase_eq_filter]
    exact List.filter_congr fun u _ => by simp [bne, beq_eq_decide]
  have hpos := List.length_pos_of_mem hold
  rw [hothers, List.length_erase_of_mem hold]
  omega

/-! ## Tables left alone -/

/-- Taking members into a team writes the users alone. -/
theorem withMembers_eq (team : String) (members : List NewMember) (s : Store) :
    withMembers team members s = { s with users := (withMembers team members s).users } := by
  induction members generalizing s with
  | nil => rfl
  | cons m rest ih => exact ih (s.withUser (m.toUser team))

@[simp] theorem teams_withMembers (team : String) (members : List NewMember) (s : Store) :
    (withMembers team members s).teams = s.teams := by
  rw [withMembers_eq]

@[simp] theorem pullRequests_withMembers (team : String) (members : List NewMember) (s : Store) :
    (withMembers team members s).pullRequests = s.pullRequests := by
  rw [withMembers_eq]

@[simp] theorem links_withMembers (team : String) (members : List NewMember) (s : Store) :
    (withMembers team members s).links = s.links := by
  rw [withMembers_eq]

@[simp] theorem offline_withMembers (team : String) (members : List NewMember) (s : Store) :
    (withMembers team members s).offline = s.offline := by
  rw [withMembers_eq]

/-- The links of a pull request are among all of them. -/
theorem linksOf_congr {t : Store} (h : t.links = s.links) (id : String) :
    t.linksOf id = s.linksOf id := by
  rw [linksOf, linksOf, h]

end Store

end ReviewRota
