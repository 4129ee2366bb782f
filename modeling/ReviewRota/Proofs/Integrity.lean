import ReviewRota.Proofs.Rows
import ReviewRota.Proofs.Statement

/-!
# ReviewRota.Proofs.Integrity

The constraints of the schema as a predicate on stores, and the fact that no
statement breaks them.

`Store.Lawful` says what a committed store has to satisfy.  Inside a
transaction references may be broken for as long as they are put off; what
is left then is `Store.Sound .deferred`, and `Store.Sound .immediate` is a
lawful store whose tables are in the order of their keys.

* `Change.Sound` — a statement that succeeds on a sound store leaves a
  sound store;
* one lemma per statement says that it is `Sound`, the probes and the
  statements that hide tables included.
-/

namespace ReviewRota

/-! ## Looking up -/

namespace Store

variable {s : Store}

theorem isSome_team? {name : String} : (s.team? name).isSome ↔ ∃ t ∈ s.teams, t.name = name := by
  simp [team?, List.find?_isSome]

theorem isSome_user? {id : String} : (s.user? id).isSome ↔ ∃ u ∈ s.users, u.id = id := by
  simp [user?, List.find?_isSome]

theorem isSome_record? {id : String} :
    (s.record? id).isSome ↔ ∃ r ∈ s.pullRequests, r.id = id := by
  simp [record?, List.find?_isSome]

theorem team?_eq_none_iff {name : String} : s.team? name = none ↔ ∀ t ∈ s.teams, t.name ≠ name := by
  simp [team?]

theorem user?_eq_none_iff {id : String} : s.user? id = none ↔ ∀ u ∈ s.users, u.id ≠ id := by
  simp [user?]

theorem record?_eq_none_iff {id : String} :
    s.record? id = none ↔ ∀ r ∈ s.pullRequests, r.id ≠ id := by
  simp [record?]

theorem link?_eq_none_iff {pullRequest reviewer : String} :
    s.link? pullRequest reviewer = none ↔ ∀ l ∈ s.links, l.key ≠ (pullRequest, reviewer) := by
  simp [link?, Link.key]

theorem mem_of_user?_eq_some {id : String} {u : User} (h : s.user? id = some u) :
    u ∈ s.users ∧ u.id = id :=
  ⟨List.mem_of_find?_eq_some h, by simpa using List.find?_some h⟩

theorem mem_of_record?_eq_some {id : String} {r : PullRequestRecord} (h : s.record? id = some r) :
    r ∈ s.pullRequests ∧ r.id = id :=
  ⟨List.mem_of_find?_eq_some h, by simpa using List.find?_some h⟩

/-! ## The constraints -/

/-- Every reference leads to a row. -/
structure References (s : Store) : Prop where
  team : ∀ u ∈ s.users, ∀ name, u.team = some name → ∃ t ∈ s.teams, t.name = name
  author : ∀ r ∈ s.pullRequests, ∃ u ∈ s.users, u.id = r.author
  pullRequest : ∀ l ∈ s.links, ∃ r ∈ s.pullRequests, r.id = l.pullRequest
  reviewer : ∀ l ∈ s.links, ∃ u ∈ s.users, u.id = l.reviewer

theorem knowsTeamOf_iff {u : User} :
    s.knowsTeamOf u = true ↔ ∀ name, u.team = some name → ∃ t ∈ s.teams, t.name = name := by
  unfold knowsTeamOf
  cases u.team with
  | none => simp
  | some team => simp [isSome_team?]

theorem knowsAuthorOf_iff {r : PullRequestRecord} :
    s.knowsAuthorOf r = true ↔ ∃ u ∈ s.users, u.id = r.author := isSome_user?

theorem knowsEndsOf_iff {l : Link} :
    s.knowsEndsOf l = true ↔
      (∃ r ∈ s.pullRequests, r.id = l.pullRequest) ∧ ∃ u ∈ s.users, u.id = l.reviewer := by
  rw [knowsEndsOf, Bool.and_eq_true, isSome_record?, isSome_user?]

/-- The check that a commit makes is that of the references. -/
theorem referencesHold_iff : s.referencesHold = true ↔ s.References := by
  simp only [referencesHold, Bool.and_eq_true, List.all_eq_true, knowsTeamOf_iff,
    knowsAuthorOf_iff, knowsEndsOf_iff]
  constructor
  · rintro ⟨⟨hteam, hauthor⟩, hends⟩
    exact ⟨hteam, hauthor, fun l hl => (hends l hl).1, fun l hl => (hends l hl).2⟩
  · intro h
    exact ⟨⟨h.team, h.author⟩, fun l hl => ⟨h.pullRequest l hl, h.reviewer l hl⟩⟩

/-- What holds of a store all the time: the tables are in order, the times
of merges are where they belong, and references lead to rows unless they
have been put off. -/
structure Sound (fks : ForeignKeys) (s : Store) : Prop where
  teams : InOrder TeamRecord.before s.teams
  users : InOrder User.before s.users
  pullRequests : InOrder PullRequestRecord.before s.pullRequests
  links : InOrder Link.before s.links
  mergeTimes : ∀ r ∈ s.pullRequests, r.mergedAt.isSome ↔ r.status = .merged
  references : fks = .immediate → s.References

/-- The constraints of the schema. -/
structure Lawful (s : Store) : Prop where
  teamNames : (s.teams.map TeamRecord.name).Nodup
  userIds : (s.users.map User.id).Nodup
  pullRequestIds : (s.pullRequests.map PullRequestRecord.id).Nodup
  linkKeys : (s.links.map Link.key).Nodup
  references : s.References
  statuses : ∀ r ∈ s.pullRequests, r.status.text = "OPEN" ∨ r.status.text = "MERGED"
  mergeTimes : ∀ r ∈ s.pullRequests, r.mergedAt.isSome ↔ r.status.text = "MERGED"

theorem Sound.lawful (h : s.Sound .immediate) : s.Lawful where
  teamNames := h.teams.nodup_keys TeamRecord.ordersBy
  userIds := h.users.nodup_keys User.ordersBy
  pullRequestIds := h.pullRequests.nodup_keys PullRequestRecord.ordersBy
  linkKeys := h.links.nodup_keys Link.ordersBy
  references := h.references rfl
  statuses r _ := by
    cases r.status with
    | opened => exact Or.inl rfl
    | merged => exact Or.inr rfl
  mergeTimes r hr := by
    rw [h.mergeTimes r hr]
    cases r.status with
    | opened => decide
    | merged => decide

/-- A fresh store is sound. -/
theorem sound_empty (fks : ForeignKeys) : ({} : Store).Sound fks where
  teams := List.Pairwise.nil
  users := List.Pairwise.nil
  pullRequests := List.Pairwise.nil
  links := List.Pairwise.nil
  mergeTimes := fun _ hr => nomatch hr
  references := fun _ => by
    constructor
    all_goals
      intro _ h
      cases h

/-- Putting references off forgets about them. -/
theorem Sound.deferred {fks : ForeignKeys} (h : s.Sound fks) : s.Sound .deferred :=
  { h with references := fun hfks => nomatch hfks }

/-- A store whose references are found to hold when it is committed is
sound from there on. -/
theorem Sound.immediate {fks : ForeignKeys} (h : s.Sound fks)
    (hrefs : fks = .immediate ∨ s.referencesHold = true) : s.Sound .immediate := by
  refine { h with references := fun _ => ?_ }
  obtain hfks | hrefs := hrefs
  · exact h.references hfks
  · exact referencesHold_iff.mp hrefs

/-- Soundness is checked table by table. -/
theorem sound_immediate_iff :
    s.Sound .immediate ↔ InOrder TeamRecord.before s.teams ∧ InOrder User.before s.users ∧
      InOrder PullRequestRecord.before s.pullRequests ∧ InOrder Link.before s.links ∧
      (∀ r ∈ s.pullRequests, r.mergedAt.isSome ↔ r.status = .merged) ∧
      s.referencesHold = true := by
  rw [referencesHold_iff]
  constructor
  · intro h
    exact ⟨h.teams, h.users, h.pullRequests, h.links, h.mergeTimes, h.references rfl⟩
  · rintro ⟨hteams, husers, hpullRequests, hlinks, htimes, hrefs⟩
    exact ⟨hteams, husers, hpullRequests, hlinks, htimes, fun _ => hrefs⟩

instance (s : Store) : Decidable (s.Sound .immediate) := decidable_of_iff' _ sound_immediate_iff

/-- What is there is found. -/
theorem Sound.record?_eq_some {fks : ForeignKeys} (hs : s.Sound fks) {r : PullRequestRecord}
    (hr : r ∈ s.pullRequests) : s.record? r.id = some r :=
  (hs.pullRequests.find?_eq_some_iff PullRequestRecord.ordersBy fun _ => decide_eq_true_iff).mpr
    ⟨hr, rfl⟩

theorem Sound.user?_eq_some {fks : ForeignKeys} (hs : s.Sound fks) {u : User}
    (hu : u ∈ s.users) : s.user? u.id = some u :=
  (hs.users.find?_eq_some_iff User.ordersBy fun _ => decide_eq_true_iff).mpr ⟨hu, rfl⟩

/-- A pull request that is not there is reviewed by nobody. -/
theorem Sound.link?_of_record?_eq_none (hs : s.Sound .immediate) {id : String}
    (hnone : s.record? id = none) (user : String) : s.link? id user = none := by
  refine link?_eq_none_iff.mpr fun l hl hkey => ?_
  obtain ⟨r, hr, hid⟩ := (hs.references rfl).pullRequest l hl
  exact record?_eq_none_iff.mp hnone r hr (hid.trans (congrArg Prod.fst hkey))

/-- Somebody who is not there reviews nothing. -/
theorem Sound.link?_of_user?_eq_none (hs : s.Sound .immediate) (id : String) {user : String}
    (hnone : s.user? user = none) : s.link? id user = none := by
  refine link?_eq_none_iff.mpr fun l hl hkey => ?_
  obtain ⟨u, hu, hid⟩ := (hs.references rfl).reviewer l hl
  exact user?_eq_none_iff.mp hnone u hu (hid.trans (congrArg Prod.snd hkey))

end Store

/-! ## Statements -/

/-- A statement that succeeds on a sound store leaves a sound store. -/
def Change.Sound {α : Type} (ch : Change α) : Prop :=
  ∀ {fks : ForeignKeys} {s : Store} {e : Effect α},
    s.Sound fks → ch.apply fks s = .ok e → e.store.Sound fks

namespace Statement

namespace Teams

theorem sound_insert (t : TeamRecord) : (insert t).Sound := by
  intro fks s e hs h
  obtain ⟨hnew, rfl⟩ := insert_apply_eq_ok_iff.mp h
  refine { hs with teams := ?_, references := fun hfks => ?_ }
  · exact inOrder_insertRow TeamRecord.ordersBy hs.teams (Store.team?_eq_none_iff.mp hnew)
  · have hrefs := hs.references hfks
    refine { hrefs with team := fun u hu name hname => ?_ }
    obtain ⟨other, hother, hn⟩ := hrefs.team u hu name hname
    exact ⟨other, mem_insertRow.mpr (Or.inr hother), hn⟩

end Teams

namespace Users

theorem sound_insert (u : User) : (insert u).Sound := by
  intro fks s e hs h
  obtain ⟨hnew, hteam, rfl⟩ := insert_apply_eq_ok_iff.mp h
  refine { hs with users := ?_, references := fun hfks => ?_ }
  · exact inOrder_insertRow User.ordersBy hs.users (Store.user?_eq_none_iff.mp hnew)
  · have hrefs := hs.references hfks
    have hmore : ∀ id, (∃ v ∈ s.users, v.id = id) →
        ∃ v ∈ insertRow User.before u s.users, v.id = id := by
      rintro id ⟨v, hv, hid⟩
      exact ⟨v, mem_insertRow.mpr (Or.inr hv), hid⟩
    refine ⟨?_, ?_, hrefs.pullRequest, ?_⟩
    · intro v hv name hname
      obtain rfl | hv := mem_insertRow.mp hv
      · exact Store.knowsTeamOf_iff.mp (hteam hfks) name hname
      · exact hrefs.team v hv name hname
    · intro r hr
      exact hmore r.author (hrefs.author r hr)
    · intro l hl
      exact hmore l.reviewer (hrefs.reviewer l hl)

theorem mem_replaceIn {u v : User} {users : List User} :
    v ∈ replaceIn u users ↔ (v = u ∧ ∃ w ∈ users, w.id = u.id) ∨ v ∈ users ∧ v.id ≠ u.id := by
  rw [replaceIn, List.mem_map]
  constructor
  · rintro ⟨w, hw, hv⟩
    by_cases hid : w.id = u.id
    · rw [if_pos hid] at hv
      exact Or.inl ⟨hv.symm, w, hw, hid⟩
    · rw [if_neg hid] at hv
      exact Or.inr (hv ▸ ⟨hw, hid⟩)
  · rintro (⟨rfl, w, hw, hid⟩ | ⟨hv, hid⟩)
    · exact ⟨w, hw, if_pos hid⟩
    · exact ⟨v, hv, if_neg hid⟩

/-- Replacing a user leaves every identifier in its place. -/
theorem map_id_replaceIn (u : User) (users : List User) :
    (replaceIn u users).map User.id = users.map User.id := by
  rw [replaceIn, List.map_map]
  apply List.map_congr_left
  intro v _
  by_cases hid : v.id = u.id
  · simp [hid]
  · simp [hid]

theorem exists_mem_replaceIn {u : User} {users : List User} {id : String} :
    (∃ v ∈ replaceIn u users, v.id = id) ↔ ∃ v ∈ users, v.id = id := by
  rw [← List.mem_map, ← List.mem_map, map_id_replaceIn]

/-- Overwriting a user is sound if the new team is known. -/
theorem sound_replaceIn {fks : ForeignKeys} {s : Store} (hs : s.Sound fks) (u : User)
    (hteam : fks = .immediate → s.knowsTeamOf u = true) :
    ({ s with users := replaceIn u s.users } : Store).Sound fks := by
  refine { hs with users := ?_, references := fun hfks => ?_ }
  · have hids : ((replaceIn u s.users).map User.id).Pairwise (· < ·) := by
      rw [map_id_replaceIn, List.pairwise_map]
      exact hs.users.imp fun hab => by simpa [User.before] using hab
    rw [List.pairwise_map] at hids
    exact hids.imp fun hab => by simpa [User.before] using hab
  · have hrefs := hs.references hfks
    refine ⟨?_, ?_, hrefs.pullRequest, ?_⟩
    · intro v hv name hname
      obtain ⟨rfl, _⟩ | ⟨hv, _⟩ := mem_replaceIn.mp hv
      · exact Store.knowsTeamOf_iff.mp (hteam hfks) name hname
      · exact hrefs.team v hv name hname
    · intro r hr
      exact exists_mem_replaceIn.mpr (hrefs.author r hr)
    · intro l hl
      exact exists_mem_replaceIn.mpr (hrefs.reviewer l hl)

theorem sound_overwrite (u : User) : (overwrite u).Sound := by
  intro fks s e hs h
  obtain ⟨_, rfl⟩ | ⟨_, hteam, rfl⟩ := overwrite_apply_eq_ok_iff.mp h
  · exact hs
  · exact sound_replaceIn hs u hteam

theorem sound_setActive (id : String) (active : Bool) : (setActive id active).Sound := by
  intro fks s e hs h
  obtain ⟨_, rfl⟩ | ⟨u, hu, rfl⟩ := setActive_apply_eq_ok_iff.mp h
  · exact hs
  · apply sound_replaceIn hs
    intro hfks
    have hmem := (Store.mem_of_user?_eq_some hu).1
    exact Store.knowsTeamOf_iff.mpr fun name hname =>
      (hs.references hfks).team u hmem name hname

end Users

namespace PullRequests

/-- Adding a record is sound if its own merge time is. -/
theorem sound_insert (r : PullRequestRecord) (hr : r.mergedAt.isSome ↔ r.status = .merged) :
    (insert r).Sound := by
  intro fks s e hs h
  obtain ⟨hnew, hauthor, rfl⟩ := insert_apply_eq_ok_iff.mp h
  refine { hs with pullRequests := ?_, mergeTimes := ?_, references := fun hfks => ?_ }
  · exact inOrder_insertRow PullRequestRecord.ordersBy hs.pullRequests
      (Store.record?_eq_none_iff.mp hnew)
  · intro other hother
    obtain rfl | hother := mem_insertRow.mp hother
    · exact hr
    · exact hs.mergeTimes other hother
  · have hrefs := hs.references hfks
    refine { hrefs with author := ?_, pullRequest := ?_ }
    · intro other hother
      obtain rfl | hother := mem_insertRow.mp hother
      · exact Store.knowsAuthorOf_iff.mp (hauthor hfks)
      · exact hrefs.author other hother
    · intro l hl
      obtain ⟨other, hother, hid⟩ := hrefs.pullRequest l hl
      exact ⟨other, mem_insertRow.mpr (Or.inr hother), hid⟩

/-- A new pull request is open and has no time of a merge. -/
theorem sound_insert_new (p : NewPullRequest) : (insert p.record).Sound :=
  sound_insert p.record (by simp [NewPullRequest.record])

@[simp] theorem moved_id (status : Status) (time : Int) (r : PullRequestRecord) :
    (moved status time r).id = r.id := by
  cases status <;> rfl

@[simp] theorem moved_author (status : Status) (time : Int) (r : PullRequestRecord) :
    (moved status time r).author = r.author := by
  cases status <;> rfl

/-- A moved record has a time of its merge exactly if it was merged. -/
theorem mergedAt_moved (status : Status) (time : Int) (r : PullRequestRecord) :
    (moved status time r).mergedAt.isSome ↔ (moved status time r).status = .merged := by
  cases status <;> simp [moved]

/-- Changing records in place is sound if identifiers and authors stay and
the merge times fit. -/
theorem sound_mapRecords {fks : ForeignKeys} {s : Store} (hs : s.Sound fks)
    {f : PullRequestRecord → PullRequestRecord} (hid : ∀ r, (f r).id = r.id)
    (hauthor : ∀ r, (f r).author = r.author)
    (htime : ∀ r ∈ s.pullRequests, (f r).mergedAt.isSome ↔ (f r).status = .merged) :
    ({ s with pullRequests := s.pullRequests.map f } : Store).Sound fks := by
  refine { hs with pullRequests := ?_, mergeTimes := ?_, references := fun hfks => ?_ }
  · rw [InOrder, List.pairwise_map]
    exact hs.pullRequests.imp fun hab => by
      simpa [PullRequestRecord.before, hid] using hab
  · intro moved hmoved
    obtain ⟨r, hr, rfl⟩ := List.mem_map.mp hmoved
    exact htime r hr
  · have hrefs := hs.references hfks
    refine { hrefs with author := ?_, pullRequest := ?_ }
    · intro moved hmoved
      obtain ⟨r, hr, rfl⟩ := List.mem_map.mp hmoved
      rw [hauthor]
      exact hrefs.author r hr
    · intro l hl
      obtain ⟨r, hr, hrid⟩ := hrefs.pullRequest l hl
      exact ⟨f r, List.mem_map_of_mem hr, (hid r).trans hrid⟩

theorem sound_setStatus (id : String) (status : Status) (time : Int) :
    (setStatus id status time).Sound := by
  intro fks s e hs h
  rw [setStatus_apply_eq_ok_iff.mp h]
  apply sound_mapRecords hs
  · intro r
    split <;> simp
  · intro r
    split <;> simp
  · intro r hr
    split
    · exact mergedAt_moved status time r
    · exact hs.mergeTimes r hr

theorem sound_insertLink (l : Link) : (insertLink l).Sound := by
  intro fks s e hs h
  obtain ⟨hnew, hends, rfl⟩ := insertLink_apply_eq_ok_iff.mp h
  refine { hs with links := ?_, references := fun hfks => ?_ }
  · exact inOrder_insertRow Link.ordersBy hs.links (Store.link?_eq_none_iff.mp hnew)
  · have hrefs := hs.references hfks
    have hknown := Store.knowsEndsOf_iff.mp (hends hfks)
    refine { hrefs with pullRequest := ?_, reviewer := ?_ }
    · intro other hother
      obtain rfl | hother := mem_insertRow.mp hother
      · exact hknown.1
      · exact hrefs.pullRequest other hother
    · intro other hother
      obtain rfl | hother := mem_insertRow.mp hother
      · exact hknown.2
      · exact hrefs.reviewer other hother

/-- Removing links is sound. -/
theorem sound_filterLinks {fks : ForeignKeys} {s : Store} (hs : s.Sound fks) (p : Link → Bool) :
    ({ s with links := s.links.filter p } : Store).Sound fks := by
  refine { hs with links := hs.links.filter p, references := fun hfks => ?_ }
  have hrefs := hs.references hfks
  refine { hrefs with pullRequest := ?_, reviewer := ?_ }
  · intro l hl
    exact hrefs.pullRequest l (List.mem_of_mem_filter hl)
  · intro l hl
    exact hrefs.reviewer l (List.mem_of_mem_filter hl)

theorem sound_deleteLink (pullRequest reviewer : String) :
    (deleteLink pullRequest reviewer).Sound := by
  intro fks s e hs h
  rw [deleteLink_apply_eq_ok_iff.mp h]
  exact sound_filterLinks hs _

end PullRequests

end Statement

/-! ## Hidden tables and probes -/

/-- Whether a table is in service matters to no constraint. -/
theorem Store.Sound.withOffline {fks : ForeignKeys} {s : Store} (hs : s.Sound fks)
    (tables : List Table) : ({ s with offline := tables } : Store).Sound fks :=
  { hs with references := fun hfks => { hs.references hfks with } }

theorem Table.sound_hide (name : String) : (Table.hide name).Sound := by
  intro fks s e hs h
  rw [ok_eq_ok_iff.mp h]
  cases Table.ofName? name with
  | none => exact hs
  | some t => exact hs.withOffline _

theorem Table.sound_restore (name : String) : (Table.restore name).Sound := by
  intro fks s e hs h
  rw [ok_eq_ok_iff.mp h]
  cases Table.ofName? name with
  | none => exact hs
  | some t => exact hs.withOffline _

namespace Probe

/-- A probe that is refused by the rows writes nothing. -/
theorem refusedByRows_eq_ok_iff {rows : Nat} {c : Constraint} {s : Store} {e : Effect Nat} :
    refusedByRows rows c s = .ok e ↔ rows = 0 ∧ e = ⟨0, 0, s⟩ := by
  unfold refusedByRows
  split
  · next hrows => simp only [hrows, true_and, ok_eq_ok_iff]
  · next hrows => simp [hrows]

/-- Dropping the teams is sound, since it is refused while a user refers to
one. -/
theorem sound_dropTeams : (change .dropTeams).Sound := by
  intro fks s e hs h
  obtain ⟨_, hfree, heffect⟩ := bind_eq_ok_iff.mp h
  rw [ok_eq_ok_iff.mp heffect]
  refine { hs with teams := List.Pairwise.nil, references := fun hfks => ?_ }
  have hrefs := hs.references hfks
  have hnone := requireReference_eq_ok_iff.mp hfree hfks
  simp only [List.all_eq_true, Bool.not_eq_true', List.any_eq_false, decide_eq_true_eq] at hnone
  refine { hrefs with team := fun u hu name hname => ?_ }
  obtain ⟨t, ht, hn⟩ := hrefs.team u hu name hname
  exact absurd (hname.trans (congrArg some hn.symm)) (hnone u hu t ht)

/-- Dropping the pull requests is sound, since their links go with them. -/
theorem sound_dropPullRequests : (change .dropPullRequests).Sound := by
  intro fks s e hs h
  rw [ok_eq_ok_iff.mp h]
  have hlinks := Statement.PullRequests.sound_filterLinks hs
    fun l => (s.record? l.pullRequest).isNone
  refine { hlinks with pullRequests := ?_, mergeTimes := ?_, references := fun hfks => ?_ }
  · exact List.Pairwise.nil
  · intro r hr
    cases hr
  · have hrefs := hlinks.references hfks
    refine { hrefs with author := ?_, pullRequest := ?_ }
    · intro r hr
      cases hr
    · intro l hl
      have hthere : (s.record? l.pullRequest).isSome :=
        Store.isSome_record?.mpr (hrefs.pullRequest l hl)
      have hgone := (List.mem_filter.mp hl).2
      rw [Option.isNone_iff_eq_none] at hgone
      rw [hgone] at hthere
      exact nomatch hthere

theorem sound_change (p : Probe) : p.change.Sound := by
  cases p with
  | dropTeams => exact sound_dropTeams
  | dropPullRequests => exact sound_dropPullRequests
  | strayUser =>
      intro fks s e hs h
      obtain ⟨inserted, hinsert, heffect⟩ := bind_eq_ok_iff.mp h
      rw [ok_eq_ok_iff.mp heffect]
      exact Statement.Users.sound_insert stray hs hinsert
  | repeatTeams | badStatus | openWithTime | mergedWithoutTime =>
      intro fks s e hs h
      rw [(refusedByRows_eq_ok_iff.mp h).2]
      exact hs
  | badFlag | namelessUser | missingTable =>
      intro fks s e hs h
      exact nomatch h

end Probe

end ReviewRota
