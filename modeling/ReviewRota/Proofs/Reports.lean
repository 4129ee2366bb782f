import ReviewRota.Proofs.History

/-!
# ReviewRota.Proofs.Reports

What the callers of a history were told about pull requests, in the order in
which it was committed.

A report is read off a request and its answer alone, and not off the store:
that a pull request was created, and how; who was replaced by whom; that it
is merged, and when that was asked for.  What a report says is what has
happened to the store between the answers before and this one.

* `Store.Tells` — what becomes of one pull request in a step, and which
  report goes with it: every later fact that compares the reports with the
  store is a case analysis over it;
* `History.tells` — the steps of a history.
-/

namespace ReviewRota

/-! ## Reports -/

/-- What the caller of a successful operation knows of a pull request. -/
inductive Report where
  | created (p : PullRequest)
  /-- One reviewer was replaced by another. -/
  | swapped (id old new : String)
  /-- It is merged; that was asked for at `time`. -/
  | merged (id : String) (time : Int)
  deriving DecidableEq, Repr

/-- The pull request that a report is about. -/
def Report.id : Report → String
  | created p => p.id
  | swapped id _ _ => id
  | merged id _ => id

/-- What the caller of an operation concludes from the answer to it. -/
def Operation.report? (now : Int) : Operation → Reply → Option Report
  | .create _ _ _ _, .created p => some (.created p)
  | .reassign id old _, .reassignment done => some (.swapped id old done.replacedBy)
  | .merge id, .pullRequest _ => some (.merged id now)
  | _, _ => none

/-- What the caller concludes when an event is an answered request. -/
def Event.report? (e : Event) (db : Database) : Option Report :=
  match e with
  | .request now r =>
    match r.operation?, (r.run now db).1 with
    | some o, .ok reply => o.report? now reply
    | _, _ => none
  | .outage _ | .lock _ => none

/-- What was reported, the earliest first. -/
def History.reports : History → List Report
  | fresh => []
  | andThen earlier e => earlier.reports ++ (e.report? earlier.database).toList

/-! ## What reports tell -/

/-- What has become of the pull request `id` when a store becomes another
one, and what was reported. -/
inductive Store.Tells (s after : Store) (id : String) : Option Report → Prop where
  /-- It is new. -/
  | created {p : PullRequest} (hid : p.id = id) (hnew : s.record? id = none)
      (hrecord : after.record? id = some ⟨id, p.title, p.author, .opened, p.createdAt, none⟩)
      (hreviewers : (after.reviewersOf id).Perm p.reviewers) :
      Tells s after id (some (.created p))
  /-- One of its reviewers was replaced by someone else. -/
  | swapped {r : PullRequestRecord} {old new : String} (hthere : s.record? id = some r)
      (hopen : r.status = .opened) (hrecord : after.record? id = s.record? id)
      (hold : old ∈ s.reviewersOf id) (hnew : new ∉ s.reviewersOf id)
      (hreviewers : (after.reviewersOf id).Perm (new :: (s.reviewersOf id).filter (· ≠ old))) :
      Tells s after id (some (.swapped id old new))
  /-- It was open and has been merged. -/
  | merged {r : PullRequestRecord} {time : Int} (hthere : s.record? id = some r)
      (hopen : r.status = .opened)
      (hrecord : after.record? id = some { r with status := .merged, mergedAt := some time })
      (hlinks : after.linksOf id = s.linksOf id) : Tells s after id (some (.merged id time))
  /-- It was merged and stays so. -/
  | mergedBefore {r : PullRequestRecord} {time : Int} (hthere : s.record? id = some r)
      (hmerged : r.status = .merged) (hrecord : after.record? id = s.record? id)
      (hlinks : after.linksOf id = s.linksOf id) : Tells s after id (some (.merged id time))
  /-- It was left alone, and nothing was reported of it. -/
  | apart {report : Option Report} (hid : ∀ x ∈ report, x.id ≠ id)
      (hrecord : after.record? id = s.record? id) (hlinks : after.linksOf id = s.linksOf id) :
      Tells s after id report

/-- Another pull request was reported on. -/
theorem Store.Tells.other {s after : Store} {id : String} {x : Report} (hid : id ≠ x.id)
    (hrecord : after.record? id = s.record? id) (hlinks : after.linksOf id = s.linksOf id) :
    s.Tells after id (some x) :=
  .apart (fun _ hx => Option.some.inj hx ▸ hid.symm) hrecord hlinks

/-- Nothing was reported. -/
theorem Store.Tells.nothing {s after : Store} {id : String}
    (hrecord : after.record? id = s.record? id) (hlinks : after.linksOf id = s.linksOf id) :
    s.Tells after id none := .apart (fun _ hx => nomatch hx) hrecord hlinks

/-- What is reported of an operation has been done. -/
theorem Operation.Done.tells {now : Int} {s after : Store} {o : Operation} {reply : Reply}
    (hs : s.Sound .immediate) (h : o.Done now s reply after) (id : String) :
    s.Tells after id (o.report? now reply) := by
  cases h with
  | @created new title author draw u reviewers hauthor hnew hreviewers =>
      by_cases hid : id = new
      · subst hid
        have hnone := hs.reviewersOf_eq_nil hnew
        exact .created rfl hnew (Store.record?_withPullRequest_self reviewers hnew)
          (Store.reviewersOf_withPullRequest_self reviewers hnone)
      · exact .other hid (Store.record?_withPullRequest_of_ne reviewers hid)
          (Store.linksOf_withPullRequest_of_ne reviewers hid)
  | @reassigned other old draw r u new rest hthere hopen hreviews hold hdrawn _ hafter =>
      subst hafter
      by_cases hid : id = other
      · subst hid
        obtain ⟨_, _, hfree⟩ := Reviewing.mem_drawn (hdrawn ▸ List.mem_cons_self)
        rw [List.mem_append, not_or] at hfree
        exact .swapped hthere hopen rfl hreviews hfree.1
          (Store.reviewersOf_withReplacement_self s id old new.id now)
      · exact .other hid rfl (Store.linksOf_withReplacement_of_ne hid)
  | @merged other r hthere hopen =>
      by_cases hid : id = other
      · subst hid
        exact .merged hthere hopen (Store.record?_withMerged_self now hthere hopen) rfl
      · exact .other hid (Store.record?_withMerged_of_ne s now hid) rfl
  | @mergedBefore other r hthere hmerged =>
      by_cases hid : id = other
      · subst hid
        exact .mergedBefore hthere hmerged rfl rfl
      · exact .other hid rfl rfl
  | teamCreated hnew hfree hafter =>
      subst hafter
      exact .nothing
        (Store.record?_congr (Store.pullRequests_withMembers _ _ _) id)
        (Store.linksOf_congr (Store.links_withMembers _ _ _) id)
  | activitySet hthere => exact .nothing rfl rfl
  | looked hlooks =>
      have hnone : o.report? now reply = none := by
        cases o with
        | create | reassign | merge => exact nomatch hlooks
        | createTeam | setActive | pullRequest | team | user | reviewsOf | userLoads
          | reviewerCounts => rfl
      rw [hnone]
      exact .nothing rfl rfl

namespace History

/-- **Honesty**: what is reported of an event has happened. -/
theorem tells (h : History) (e : Event) (id : String) :
    h.store.Tells (h.andThen e).store id (e.report? h.database) := by
  cases e with
  | outage tables => exact .nothing rfl rfl
  | lock held => exact .nothing rfl rfl
  | request now r =>
      have hstore : (h.andThen (.request now r)).store = (r.run now h.database).2.committed := rfl
      rw [hstore, Event.report?]
      obtain ⟨e, hrun⟩ | ⟨reply, after, hrun, hdone⟩ := r.allOrNothing h.database now
      · rw [hrun]
        cases r.operation? <;> exact .nothing rfl rfl
      · rw [hrun]
        unfold Request.Done at hdone
        cases hoperation : r.operation? with
        | none =>
            rw [hoperation] at hdone
            simp only [hdone]
            exact .nothing rfl rfl
        | some o =>
            rw [hoperation] at hdone
            exact hdone.tells h.sound id

/-- Nothing was ever reported of a pull request that is not there. -/
theorem reports_of_absent {h : History} {id : String} (hnone : h.store.record? id = none) :
    ∀ x ∈ h.reports, x.id ≠ id := by
  induction h with
  | fresh => exact fun x hx => nomatch hx
  | andThen earlier e ih =>
      intro x hx
      have hstep := earlier.tells e id
      rw [reports, List.mem_append, Option.mem_toList] at hx
      generalize e.report? earlier.database = report at hstep hx
      cases hstep with
      | created hid hnew hrecord => exact nomatch hnone.symm.trans hrecord
      | swapped hthere hopen hrecord => exact nomatch hnone.symm.trans (hrecord.trans hthere)
      | merged hthere hopen hrecord => exact nomatch hnone.symm.trans hrecord
      | mergedBefore hthere hmerged hrecord =>
          exact nomatch hnone.symm.trans (hrecord.trans hthere)
      | apart hid hrecord =>
          obtain hx | hx := hx
          · exact ih (hrecord.symm.trans hnone) x hx
          · exact hid x hx

/-- What was reported on is there. -/
theorem isSome_record?_of_report {h : History} {x : Report} (hx : x ∈ h.reports) :
    (h.store.record? x.id).isSome := by
  by_contra hnone
  exact reports_of_absent (by simpa using hnone) x hx rfl

end History

end ReviewRota
