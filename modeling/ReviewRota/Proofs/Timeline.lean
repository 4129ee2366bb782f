import ReviewRota.Proofs.History

/-!
# ReviewRota.Proofs.Timeline

The times that are stored, on a clock that does not run backwards.

Times are written in three places: a creation stamps the pull request and its
first reviewers with one time, a replacement stamps the new reviewer, and a
merge stamps the pull request.  What a step can write is said by
`Store.RecordOrigin` and `Store.LinkOrigin`, one for the records and one for the
links; from there on it is arithmetic.  Only open pull requests get new
reviewers, and so a merge is never followed by an assignment.

* `Store.OnTime` — the order of the times of one pull request;
* `History.written?` — the event that wrote a link;
* `History.timeline` — every pull request is on time, and a link that is later
  than its pull request was written by a replacement.
-/

namespace ReviewRota

/-! ## What an operation writes -/

namespace Store

/-- Where a record comes from when an operation is done at a time. -/
inductive RecordOrigin (now : Int) (s : Store) (r : PullRequestRecord) : Prop where
  | kept (h : r ∈ s.pullRequests)
  /-- It is new. -/
  | created (hnew : s.record? r.id = none) (hopen : r.status = .opened) (hat : r.createdAt = now)
  /-- It was open and has been merged. -/
  | merged {r₀ : PullRequestRecord} (hthere : r₀ ∈ s.pullRequests)
      (hrecord : r = { r₀ with status := .merged, mergedAt := some now })

/-- Where a link comes from when an operation is done at a time. -/
inductive LinkOrigin (now : Int) (s : Store) (o : Operation) (reply : Reply) (l : Link) : Prop where
  | kept (h : l ∈ s.links)
  /-- It came with a new pull request. -/
  | created (hnew : s.record? l.pullRequest = none) (hat : l.assignedAt = now)
  /-- It took the place of another link of an open pull request. -/
  | reassigned {r : PullRequestRecord} {old : String} {draw : Draw} {done : Reassignment}
      (hthere : s.record? l.pullRequest = some r) (hopen : r.status = .opened)
      (ho : o = .reassign l.pullRequest old draw) (hreply : reply = .reassignment done)
      (hby : done.replacedBy = l.reviewer) (hat : l.assignedAt = now)

end Store

namespace Operation.Done

open Store Statement

variable {now : Int} {s after : Store} {o : Operation} {reply : Reply}

theorem recordOrigin (h : o.Done now s reply after) {r : PullRequestRecord}
    (hr : r ∈ after.pullRequests) : s.RecordOrigin now r := by
  cases h with
  | created hauthor hnew hreviewers =>
      obtain rfl | hr := mem_insertRow.mp hr
      · exact .created hnew rfl rfl
      · exact .kept hr
  | reassigned _ _ _ _ _ hafter =>
      subst hafter
      exact .kept hr
  | @merged id _ _ _ =>
      obtain ⟨r₀, hr₀, rfl⟩ := List.mem_map.mp hr
      by_cases hmove : PullRequests.isToMove id .merged r₀ = true
      · exact .merged hr₀ (if_pos hmove)
      · rw [if_neg hmove]
        exact .kept hr₀
  | mergedBefore hthere hmerged => exact .kept hr
  | teamCreated hnew hfree hafter =>
      subst hafter
      rw [pullRequests_withMembers] at hr
      exact .kept hr
  | activitySet hthere => exact .kept hr
  | looked hlooks => exact .kept hr

theorem linkOrigin (h : o.Done now s reply after) {l : Link} (hl : l ∈ after.links) :
    s.LinkOrigin now o reply l := by
  cases h with
  | created hauthor hnew hreviewers =>
      obtain hl | hl := List.mem_append.mp ((insertRows_perm _ _ _).mem_iff.mp hl)
      · obtain ⟨_, _, rfl⟩ := List.mem_map.mp hl
        exact .created hnew rfl
      · exact .kept hl
  | reassigned hthere hopen _ _ _ hafter =>
      subst hafter
      obtain rfl | hl := mem_insertRow.mp hl
      · exact .reassigned hthere hopen rfl rfl rfl rfl
      · exact .kept (List.mem_filter.mp hl).1
  | merged hthere hopen => exact .kept hl
  | mergedBefore hthere hmerged => exact .kept hl
  | teamCreated hnew hfree hafter =>
      subst hafter
      rw [links_withMembers] at hl
      exact .kept hl
  | activitySet hthere => exact .kept hl
  | looked hlooks => exact .kept hl

end Operation.Done

/-! ## Times -/

namespace Store

/-- The times of a pull request and its links are in order, and none is later
than the clock. -/
structure OnTime (s : Store) (clock : Int) (r : PullRequestRecord) : Prop where
  created : r.createdAt ≤ clock
  assigned : ∀ l ∈ s.linksOf r.id, r.createdAt ≤ l.assignedAt ∧ l.assignedAt ≤ clock
  merged : r.status = .merged → ∃ time, r.mergedAt = some time ∧
    r.createdAt ≤ time ∧ time ≤ clock ∧ ∀ l ∈ s.linksOf r.id, l.assignedAt ≤ time

/-- A clock that goes on makes nobody late. -/
theorem OnTime.mono {s : Store} {clock later : Int} {r : PullRequestRecord}
    (h : s.OnTime clock r) (hlater : clock ≤ later) : s.OnTime later r where
  created := h.created.trans hlater
  assigned l hl := ⟨(h.assigned l hl).1, (h.assigned l hl).2.trans hlater⟩
  merged hmerged := by
    obtain ⟨time, hat, hcreated, htime, hlinks⟩ := h.merged hmerged
    exact ⟨time, hat, hcreated, htime.trans hlater, hlinks⟩

/-- Nothing but the links matters. -/
theorem OnTime.congr {s t : Store} {clock : Int} {r : PullRequestRecord} (h : s.OnTime clock r)
    (hlinks : t.links = s.links) : t.OnTime clock r := by
  have hsame : t.linksOf r.id = s.linksOf r.id := linksOf_congr hlinks r.id
  exact ⟨h.created, hsame ▸ h.assigned, hsame ▸ h.merged⟩

end Store

namespace Operation.Done

variable {now : Int} {s after : Store} {o : Operation} {reply : Reply}

/-- A link that is added to a pull request from before is added now, and only
if that is open. -/
theorem link_of_mem (h : o.Done now s reply after) (hs : s.Sound .immediate)
    {r : PullRequestRecord} (hr : r ∈ s.pullRequests) {l : Link} (hl : l ∈ after.linksOf r.id) :
    l ∈ s.linksOf r.id ∨ l.assignedAt = now ∧ r.status = .opened := by
  obtain ⟨hl, hof⟩ := Store.mem_linksOf.mp hl
  have hrecord : s.record? l.pullRequest = some r := hof ▸ hs.record?_eq_some hr
  cases h.linkOrigin hl with
  | kept hl => exact Or.inl (Store.mem_linksOf.mpr ⟨hl, hof⟩)
  | created hnew => exact nomatch hnew.symm.trans hrecord
  | reassigned hthere hopen _ _ _ hat =>
      obtain rfl := Option.some.inj (hthere.symm.trans hrecord)
      exact Or.inr ⟨hat, hopen⟩

/-- The links of a pull request that was not there before are of the time of
the operation. -/
theorem link_of_new (h : o.Done now s reply after) (hs : s.Sound .immediate) {id : String}
    (hnew : s.record? id = none) {l : Link} (hl : l ∈ after.linksOf id) : l.assignedAt = now := by
  obtain ⟨hthere, rfl⟩ := Store.mem_linksOf.mp hl
  cases h.linkOrigin hthere with
  | kept hl =>
      obtain ⟨r, hr, hid⟩ := (hs.references rfl).pullRequest l hl
      exact absurd hid (Store.record?_eq_none_iff.mp hnew r hr)
  | created _ hat => exact hat
  | reassigned hthere => exact nomatch hnew.symm.trans hthere

/-- An operation leaves every pull request on time. -/
theorem onTime (h : o.Done now s reply after) (hs : s.Sound .immediate)
    (hbefore : ∀ r ∈ s.pullRequests, s.OnTime now r) :
    ∀ r ∈ after.pullRequests, after.OnTime now r := by
  have assigned {r : PullRequestRecord} (hr : r ∈ s.pullRequests) :
      ∀ l ∈ after.linksOf r.id, r.createdAt ≤ l.assignedAt ∧ l.assignedAt ≤ now := by
    intro l hl
    have htimes := hbefore r hr
    obtain hl | ⟨hat, _⟩ := h.link_of_mem hs hr hl
    · exact htimes.assigned l hl
    · exact ⟨hat ▸ htimes.created, hat.le⟩
  intro r hr
  cases h.recordOrigin hr with
  | kept hthere =>
      have htimes := hbefore r hthere
      refine ⟨htimes.created, assigned hthere, fun hmerged => ?_⟩
      obtain ⟨time, hat, hcreated, htime, hlinks⟩ := htimes.merged hmerged
      refine ⟨time, hat, hcreated, htime, fun l hl => ?_⟩
      obtain hl | ⟨_, hopen⟩ := h.link_of_mem hs hthere hl
      · exact hlinks l hl
      · -- what is merged gets no new links
        exact absurd (hmerged.symm.trans hopen) (by decide)
  | created hnew hopen hat =>
      refine ⟨hat.le, fun l hl => ?_, fun hmerged => absurd (hmerged.symm.trans hopen) (by decide)⟩
      have hassigned := h.link_of_new hs hnew hl
      exact ⟨(hat.trans hassigned.symm).le, hassigned.le⟩
  | @merged r₀ hthere hrecord =>
      subst hrecord
      have hcreated := (hbefore r₀ hthere).created
      have hlinks := assigned hthere
      exact ⟨hcreated, hlinks, fun _ => ⟨now, rfl, hcreated, le_rfl, fun l hl => (hlinks l hl).2⟩⟩

/-- A pull request with a link from before was there before, with the same
time. -/
theorem record_of_link (h : o.Done now s reply after) (hs : s.Sound .immediate) {l : Link}
    (hl : l ∈ s.links) {r : PullRequestRecord} (hr : r ∈ after.pullRequests)
    (hof : r.id = l.pullRequest) :
    ∃ r₀ ∈ s.pullRequests, r₀.id = r.id ∧ r₀.createdAt = r.createdAt := by
  cases h.recordOrigin hr with
  | kept hthere => exact ⟨r, hthere, rfl, rfl⟩
  | created hnew =>
      obtain ⟨r₀, hr₀, hid⟩ := (hs.references rfl).pullRequest l hl
      exact absurd (hid.trans hof.symm) (Store.record?_eq_none_iff.mp hnew r₀ hr₀)
  | @merged r₀ hthere hrecord =>
      subst hrecord
      exact ⟨r₀, hthere, rfl, rfl⟩

/-- A pull request that was not there before is of the time of the
operation. -/
theorem createdAt_of_new (h : o.Done now s reply after) {r : PullRequestRecord}
    (hr : r ∈ after.pullRequests) (hnew : s.record? r.id = none) : r.createdAt = now := by
  cases h.recordOrigin hr with
  | kept hthere => exact absurd rfl (Store.record?_eq_none_iff.mp hnew r hthere)
  | created _ _ hat => exact hat
  | @merged r₀ hthere hrecord =>
      subst hrecord
      exact absurd rfl (Store.record?_eq_none_iff.mp hnew r₀ hthere)

end Operation.Done

/-! ## Histories -/

namespace History

/-- The clock has not run backwards, and it shows `clock` now. -/
def Forward : History → Int → Prop
  | fresh, _ => True
  | andThen earlier (.request time _), clock => time ≤ clock ∧ earlier.Forward time
  | andThen earlier (.outage _), clock | andThen earlier (.lock _), clock => earlier.Forward clock

/-- The event that wrote a link that is there now, and what was before. -/
def written? (h : History) (l : Link) : Option (History × Event) :=
  match h with
  | fresh => none
  | andThen earlier e =>
    if l ∈ earlier.store.links then earlier.written? l
    else if l ∈ (andThen earlier e).store.links then some (earlier, e)
    else none

/-- What happens at last happens at a time up to which the clock has run
forward. -/
theorem Forward.time {h : History} {e : Event} {clock : Int}
    (hforward : (h.andThen e).Forward clock) :
    ∃ time ≤ clock, h.Forward time ∧ ∀ now req, e = .request now req → now = time := by
  cases e with
  | request time req =>
      refine ⟨time, hforward.1, hforward.2, ?_⟩
      rintro _ _ ⟨⟩
      rfl
  | outage tables => exact ⟨clock, le_rfl, hforward, fun _ _ he => nomatch he⟩
  | lock held => exact ⟨clock, le_rfl, hforward, fun _ _ he => nomatch he⟩

/-- As long as the clock does not run backwards every pull request is on
time. -/
theorem onTime {h : History} {clock : Int} (hforward : h.Forward clock) :
    ∀ r ∈ h.store.pullRequests, h.store.OnTime clock r := by
  induction h generalizing clock with
  | fresh => exact fun r hr => nomatch hr
  | andThen earlier e ih =>
      intro r hr
      obtain ⟨time, hclock, hearlier, htime⟩ := hforward.time
      have hbefore := ih hearlier
      apply Store.OnTime.mono _ hclock
      obtain ⟨tables, hstore⟩ | ⟨now, req, o, reply, he, _, _, hdone⟩ :=
        e.occur_cases earlier.database
      · have hrecords := congrArg Store.pullRequests hstore
        have hlinks := congrArg Store.links hstore
        exact (hbefore r (hrecords ▸ hr)).congr hlinks
      · obtain rfl := htime now req he
        exact hdone.onTime earlier.sound hbefore r hr

/-- A replacement wrote the link, at the time that the link carries. -/
def Replaced (h : History) (l : Link) : Prop :=
  ∃ earlier req old draw done,
    h.written? l = some (earlier, .request l.assignedAt req) ∧
    req.operation? = some (.reassign l.pullRequest old draw) ∧
    (req.run l.assignedAt earlier.database).1 = .ok (.reassignment done) ∧
    done.replacedBy = l.reviewer

/-- What was there before was written then. -/
theorem Replaced.andThen {h : History} {l : Link} (hreplaced : h.Replaced l) (e : Event)
    (hl : l ∈ h.store.links) : (h.andThen e).Replaced l := by
  obtain ⟨earlier, req, old, draw, done, hwritten, hrest⟩ := hreplaced
  exact ⟨earlier, req, old, draw, done, by rw [written?, if_pos hl, hwritten], hrest⟩

/-- A link that is not of the time of its pull request was written by a
replacement. -/
theorem replaced {h : History} {r : PullRequestRecord} (hr : r ∈ h.store.pullRequests) {l : Link}
    (hl : l ∈ h.store.linksOf r.id) (hlater : l.assignedAt ≠ r.createdAt) : h.Replaced l := by
  induction h generalizing r with
  | fresh => exact nomatch hr
  | andThen earlier e ih =>
      obtain ⟨hl, hof⟩ := Store.mem_linksOf.mp hl
      obtain ⟨tables, hstore⟩ | ⟨now, req, o, reply, rfl, ho, hrun, hdone⟩ :=
        e.occur_cases earlier.database
      · have hrecords := congrArg Store.pullRequests hstore
        have hlinks := congrArg Store.links hstore
        have hthere : l ∈ earlier.store.links := hlinks ▸ hl
        exact (ih (hrecords ▸ hr) (Store.mem_linksOf.mpr ⟨hthere, hof⟩) hlater).andThen e hthere
      · by_cases hthere : l ∈ earlier.store.links
        · obtain ⟨r₀, hr₀, hid, htime⟩ := hdone.record_of_link earlier.sound hthere hr hof.symm
          refine (ih hr₀ (Store.mem_linksOf.mpr ⟨hthere, hof.trans hid.symm⟩) ?_).andThen _ hthere
          rwa [htime]
        · cases hdone.linkOrigin hl with
          | kept h => exact absurd h hthere
          | created hnew hat =>
              -- the pull request is new too, and of the same time
              have htime := hdone.createdAt_of_new hr (hof ▸ hnew)
              exact absurd (hat.trans htime.symm) hlater
          | reassigned _ _ hoperation hreply hby hat =>
              subst hat hoperation hreply
              refine ⟨earlier, req, _, _, _, ?_, ho, hrun, hby⟩
              rw [written?, if_neg hthere, if_pos hl]

/-- **Timeline**: on a clock that does not run backwards every pull request is
created before its reviewers are assigned, they are assigned before it is
merged, and nothing of this is later than now.  A reviewer who was not assigned
when the pull request was created came by a replacement, at that time. -/
theorem timeline (h : History) :
    (∀ clock, h.Forward clock → ∀ r ∈ h.store.pullRequests, h.store.OnTime clock r) ∧
      ∀ r ∈ h.store.pullRequests, ∀ l ∈ h.store.linksOf r.id, l.assignedAt ≠ r.createdAt →
        h.Replaced l :=
  ⟨fun _ => onTime, fun _ hr _ => replaced hr⟩

/-- A pull request of which a reviewer is replaced before it is merged. -/
theorem timeline_replaced :
    let core : List NewMember :=
      [⟨"u1", "Ann", true⟩, ⟨"u2", "Bob", true⟩, ⟨"u3", "Cid", true⟩, ⟨"u4", "Dan", true⟩]
    let h := ofEvents [.request 1 (.operation (.createTeam "core" core)),
      .request 5 (.operation (.create "p1" "Fix" "u1" Draw.still)),
      .outage [.links], .request 6 (.operation (.reassign "p1" "u3" Draw.still)), .outage [],
      .request 7 (.operation (.reassign "p1" "u3" Draw.still)),
      .request 7 (.operation (.merge "p1"))]
    let r : PullRequestRecord := ⟨"p1", "Fix", "u1", .merged, 5, some 7⟩
    h.Forward 9 ∧ h.store.pullRequests = [r] ∧
      h.store.links = [⟨"p1", "u2", 5⟩, ⟨"p1", "u4", 7⟩] ∧ h.store.OnTime 9 r ∧
      h.Replaced ⟨"p1", "u4", 7⟩ := by
  intro core h r
  have hforward : h.Forward 9 :=
    ⟨by decide, by decide, by decide, by decide, by decide, trivial⟩
  have hrecords : h.store.pullRequests = [r] := by decide +kernel
  have hlinks : h.store.links = [⟨"p1", "u2", 5⟩, ⟨"p1", "u4", 7⟩] := by decide +kernel
  have hr : r ∈ h.store.pullRequests := by simp [hrecords]
  have hl : ⟨"p1", "u4", 7⟩ ∈ h.store.linksOf r.id := by
    rw [Store.mem_linksOf, hlinks]
    simp [r]
  exact ⟨hforward, hrecords, hlinks, (timeline h).1 9 hforward r hr,
    (timeline h).2 r hr _ hl (by decide)⟩

end History

end ReviewRota
