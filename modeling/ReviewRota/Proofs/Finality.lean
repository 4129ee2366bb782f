import ReviewRota.Proofs.Answers
import ReviewRota.Proofs.Reports

/-!
# ReviewRota.Proofs.Finality

Merging is final.

The gateway alone does not see to it: one of its calls opens a merged pull
request again, and another one replaces its reviewers.  It holds because
every operation looks at the status inside of its own transaction, so that
no step of a history changes the record of a merged pull request or one of
its links (`Store.Tells.merged_kept`).

* `History.firstMerge?_eq` — the stored time of a merge is the one of the
  first that succeeded;
* `History.merged_final` — what stays of a merged pull request after
  anything that happens later, and what is answered about it.
-/

namespace ReviewRota

/-- The time for which a report says that the pull request `id` was to be
merged. -/
def Report.mergeTime? (id : String) : Report → Option Int
  | .merged other time => if other = id then some time else none
  | .created _ | .swapped _ _ _ => none

theorem Report.mergeTime?_of_ne {id : String} {x : Report} (h : x.id ≠ id) :
    x.mergeTime? id = none := by
  cases x with
  | merged other time => exact if_neg h
  | created | swapped => rfl

/-- In a step a merged pull request keeps its record and its links. -/
theorem Store.Tells.merged_kept {s after : Store} {id : String} {report : Option Report}
    (h : s.Tells after id report) {r : PullRequestRecord} (hr : s.record? id = some r)
    (hmerged : r.status = .merged) :
    after.record? id = some r ∧ after.linksOf id = s.linksOf id := by
  have notOpen {r' : PullRequestRecord} (hthere : s.record? id = some r') :
      r'.status ≠ .opened := by
    obtain rfl : r = r' := Option.some.inj (hr.symm.trans hthere)
    simp [hmerged]
  cases h with
  | created hid hnew => exact nomatch hnew.symm.trans hr
  | swapped hthere hopen => exact absurd hopen (notOpen hthere)
  | merged hthere hopen => exact absurd hopen (notOpen hthere)
  | mergedBefore _ _ hrecord hlinks => exact ⟨hrecord.trans hr, hlinks⟩
  | apart _ hrecord hlinks => exact ⟨hrecord.trans hr, hlinks⟩

namespace History

/-- The time of the first merge of a pull request that succeeded. -/
def firstMerge? (h : History) (id : String) : Option Int :=
  h.reports.findSome? (Report.mergeTime? id)

theorem firstMerge?_andThen (h : History) (e : Event) (id : String) :
    (h.andThen e).firstMerge? id =
      (h.firstMerge? id).or ((e.report? h.database).bind (Report.mergeTime? id)) := by
  rw [firstMerge?, reports, List.findSome?_append]
  cases e.report? h.database <;> simp [firstMerge?]

/-- The stored time of a merge is the one of the first that succeeded. -/
theorem firstMerge?_eq (h : History) (id : String) :
    h.firstMerge? id = (h.store.record? id).bind PullRequestRecord.mergedAt := by
  induction h with
  | fresh => rfl
  | andThen earlier e ih =>
      have hstep := earlier.tells e id
      rw [firstMerge?_andThen, ih]
      generalize e.report? earlier.database = report at hstep
      cases hstep with
      | created hid hnew hrecord =>
          rw [hnew, hrecord]
          rfl
      | swapped hthere _ hrecord =>
          rw [hrecord]
          exact Option.or_none
      | @merged r time hthere hopen hrecord =>
          have hnone : r.mergedAt = none := by
            have htimes := earlier.sound.mergeTimes r (Store.mem_of_record?_eq_some hthere).1
            simpa [hopen] using htimes
          rw [hthere, hrecord]
          simp [hnone, Report.mergeTime?]
      | @mergedBefore r time hthere hmerged hrecord =>
          obtain ⟨first, hfirst⟩ : ∃ first, r.mergedAt = some first := by
            have htimes := earlier.sound.mergeTimes r (Store.mem_of_record?_eq_some hthere).1
            exact Option.isSome_iff_exists.mp (htimes.mpr hmerged)
          rw [hrecord, hthere]
          simp [hfirst]
      | apart hid hrecord =>
          have hnone : report.bind (Report.mergeTime? id) = none := by
            cases report with
            | none => rfl
            | some x => exact Report.mergeTime?_of_ne (hid x rfl)
          rw [hrecord, hnone, Option.or_none]

/-- What is merged keeps its record and its links, whatever happens. -/
theorem merged_kept {h : History} {r : PullRequestRecord} (hr : h.store.record? r.id = some r)
    (hmerged : r.status = .merged) (events : List Event) :
    (events.foldl andThen h).store.record? r.id = some r ∧
      (events.foldl andThen h).store.linksOf r.id = h.store.linksOf r.id := by
  induction events generalizing h with
  | nil => exact ⟨hr, rfl⟩
  | cons e rest ih =>
      obtain ⟨hrecord, hlinks⟩ := (h.tells e r.id).merged_kept hr hmerged
      obtain ⟨hlast, hlastLinks⟩ := ih hrecord
      exact ⟨hlast, hlastLinks.trans hlinks⟩

/-- What holds later of a record that was merged in `h`. -/
structure Final (h later : History) (r : PullRequestRecord) : Prop where
  kept : r ∈ later.store.pullRequests
  links : later.store.linksOf r.id = h.store.linksOf r.id
  /-- Its time is the one of the first merge. -/
  mergeTime : ∃ time, r.mergedAt = some time ∧ later.firstMerge? r.id = some time
  /-- Merging it once more answers it as it is and writes nothing. -/
  merge : later.database.Serves [.pullRequests, .links] → ∀ now : Int,
    Reviewing.merge r.id now later.database = (.ok (h.store.assemble r), later.database)
  /-- None of its reviewers is replaced. -/
  reassign : later.database.Serves [.pullRequests, .links] →
    ∀ (old : String) (now : Int) (draw : Draw),
      Reviewing.reassign r.id old now draw later.database =
        (.error (.isMerged r.id), later.database)

/-- **Finality**: whatever happens to a merged pull request, it stays as it
is. -/
theorem merged_final (h : History) (r : PullRequestRecord) (hr : r ∈ h.store.pullRequests)
    (hmerged : r.status = .merged) (events : List Event) :
    h.Final (events.foldl andThen h) r := by
  obtain ⟨hrecord, hlinks⟩ := merged_kept (h.sound.record?_eq_some hr) hmerged events
  obtain ⟨hkept, _⟩ := Store.mem_of_record?_eq_some hrecord
  have hsame : (events.foldl andThen h).store.assemble r = h.store.assemble r :=
    congrArg r.withReviewers (Store.reviewersOf_of_linksOf hlinks)
  obtain ⟨time, htime⟩ := Option.isSome_iff_exists.mp ((h.sound.mergeTimes r hr).mpr hmerged)
  refine ⟨hkept, hlinks, ⟨time, htime, ?_⟩, fun hserves now => ?_, fun hserves old now draw => ?_⟩
  · rw [firstMerge?_eq, hrecord]
    exact htime
  · rw [← hsame]
    exact Reviewing.merge_of_merged hserves hrecord hmerged now
  · exact Reviewing.reassign_of_merged hserves hrecord hmerged old now draw

/-- A pull request is merged, its author and a reviewer move on to another
team, and everybody tries to change it; an outage comes and goes. -/
theorem merged_final_moved :
    let ask (now : Int) (o : Operation) : Event := .request now (.operation o)
    let team : List NewMember := [⟨"ann", "Ann", true⟩, ⟨"bob", "Bob", true⟩, ⟨"cid", "Cid", true⟩]
    let h := ofEvents [ask 10 (.createTeam "core" team), ask 20 (.create "p" "Fix" "ann" .still),
      ask 30 (.merge "p")]
    let events := [ask 40 (.merge "p"), .outage [.links], ask 25 (.reassign "p" "bob" .still),
      .outage [], ask 50 (.createTeam "tools" [⟨"ann", "Ann", true⟩, ⟨"bob", "Bob", false⟩])]
    let later := events.foldl andThen h
    let r : PullRequestRecord := ⟨"p", "Fix", "ann", .merged, 20, some 30⟩
    r ∈ h.store.pullRequests ∧ r.status = .merged ∧
      later.store.linksOf r.id = [⟨"p", "bob", 20⟩, ⟨"p", "cid", 20⟩] ∧
      later.database.Serves [.pullRequests, .links] ∧ h.Final later r := by
  intro ask team h events later r
  have hr : r ∈ h.store.pullRequests := by decide +kernel
  have hserves : later.database.Serves [.pullRequests, .links] :=
    ⟨by decide +kernel, by decide +kernel⟩
  exact ⟨hr, rfl, by decide +kernel, hserves, merged_final h r hr rfl events⟩

end History

end ReviewRota
