import ReviewRota.Proofs.Effect
import ReviewRota.Proofs.Changes

/-!
# ReviewRota.Proofs.Confined

Attempts that are about one pull request only.  A store falls into what is
about a pull request (`Store.about`: the teams and users, its record and its
links) and what is apart from it (`Store.apart`: everything but these rows).
An attempt is `Confined` to the pull request if its answer and what becomes
of the first part are told by the first part alone, and the second part
stays.

* `Confined.bind`, `Confined.reverting` — confined attempts compose;
* `Statement.PullRequests.confined_insert` and its like — a statement that
  names the pull request is confined to it;
* `Confined.answer_after`, `Confined.commute` — two attempts confined to
  different pull requests do not see each other.
-/

namespace ReviewRota

namespace Store

variable {s t : Store} {id other : String}

/-! ## Two parts of a store -/

/-- The store with no other pull request than this one. -/
def about (id : String) (s : Store) : Store :=
  { s with
    pullRequests := s.pullRequests.filter fun r => decide (r.id = id)
    links := s.links.filter fun l => decide (l.pullRequest = id) }

/-- The store without this pull request. -/
def apart (id : String) (s : Store) : Store :=
  { s with
    pullRequests := s.pullRequests.filter fun r => !decide (r.id = id)
    links := s.links.filter fun l => !decide (l.pullRequest = id) }

@[simp] theorem record?_about : (s.about id).record? id = s.record? id := by
  simp [record?, about, List.find?_filter]

@[simp] theorem user?_about (user : String) : (s.about id).user? user = s.user? user := rfl

@[simp] theorem link?_about (user : String) : (s.about id).link? id user = s.link? id user := by
  rw [link?, link?, about, List.find?_filter]
  congr 1
  funext l
  by_cases hl : l.pullRequest = id
  · simp [hl]
  · simp [hl]

@[simp] theorem reviewersOf_about : (s.about id).reviewersOf id = s.reviewersOf id := by
  rw [reviewersOf, reviewersOf, about, List.filter_filter]
  simp

/-- A pull request that is not the one apart is still there. -/
theorem about_apart (h : other ≠ id) : (s.apart id).about other = s.about other := by
  have hrecords : (s.pullRequests.filter fun r => !decide (r.id = id)).filter
      (fun r => decide (r.id = other)) = s.pullRequests.filter fun r => decide (r.id = other) := by
    rw [List.filter_filter]
    apply List.filter_congr
    intro r _
    by_cases hr : r.id = other
    · simp [hr, h]
    · simp [hr]
  have hlinks : (s.links.filter fun l => !decide (l.pullRequest = id)).filter
      (fun l => decide (l.pullRequest = other)) =
        s.links.filter fun l => decide (l.pullRequest = other) := by
    rw [List.filter_filter]
    apply List.filter_congr
    intro l _
    by_cases hl : l.pullRequest = other
    · simp [hl, h]
    · simp [hl]
  simp only [about, apart, hrecords, hlinks]

theorem apart_comm : (s.apart id).apart other = (s.apart other).apart id := by
  simp only [apart, List.filter_comm]

theorem Sound.apart (hs : s.Sound .immediate) (id : String) : (s.apart id).Sound .immediate where
  teams := hs.teams
  users := hs.users
  pullRequests := hs.pullRequests.filter _
  links := hs.links.filter _
  mergeTimes r hr := hs.mergeTimes r (List.mem_of_mem_filter hr)
  references hfks := by
    have hrefs := hs.references hfks
    refine ⟨hrefs.team, ?_, ?_, ?_⟩
    · intro r hr
      exact hrefs.author r (List.mem_of_mem_filter hr)
    · intro l hl
      obtain ⟨hl, hother⟩ := List.mem_filter.mp hl
      obtain ⟨r, hr, hid⟩ := hrefs.pullRequest l hl
      exact ⟨r, List.mem_filter.mpr ⟨hr, by rwa [hid]⟩, hid⟩
    · intro l hl
      exact hrefs.reviewer l (List.mem_of_mem_filter hl)

/-- A sound store is told by its two parts. -/
theorem Sound.eq_of_parts (hs : s.Sound .immediate) (ht : t.Sound .immediate) (id : String)
    (habout : s.about id = t.about id) (hapart : s.apart id = t.apart id) : s = t := by
  have hrecords : s.pullRequests = t.pullRequests :=
    hs.pullRequests.eq_of_filter_eq PullRequestRecord.ordersBy ht.pullRequests _
      (congrArg Store.pullRequests habout) (congrArg Store.pullRequests hapart)
  have hlinks : s.links = t.links :=
    hs.links.eq_of_filter_eq Link.ordersBy ht.links _
      (congrArg Store.links habout) (congrArg Store.links hapart)
  obtain ⟨teams, users, _, _, offline, renewed⟩ := s
  obtain ⟨teams', users', _, _, offline', renewed'⟩ := t
  simp only [Store.apart, mk.injEq] at hapart hrecords hlinks ⊢
  exact ⟨hapart.1, hapart.2.1, hrecords, hlinks, hapart.2.2.2.2⟩

end Store

/-! ## Confined attempts -/

/-- On sound stores, the answer of `f` and what it does to the pull request
depend on nothing that is apart from it, and what is apart stays. -/
structure Confined {β : Type} (id : String) (f : Store → β × Store) : Prop where
  sound : ∀ {s : Store}, s.Sound .immediate → (f s).2.Sound .immediate
  answer : ∀ {s : Store}, s.Sound .immediate → (f s).1 = (f (s.about id)).1
  about : ∀ {s : Store}, s.Sound .immediate → (f s).2.about id = (f (s.about id)).2
  apart : ∀ {s : Store}, s.Sound .immediate → (f s).2.apart id = s.apart id

namespace Confined

variable {α β : Type} {id : String}

/-- What does not touch the store is confined if its answer is. -/
theorem of_answer {answer : Store → β}
    (h : ∀ {s : Store}, s.Sound .immediate → answer s = answer (s.about id)) :
    Confined id fun s => (answer s, s) where
  sound hs := hs
  answer hs := h hs
  about _ := rfl
  apart _ := rfl

theorem ofExcept (r : Except Error α) :
    Confined id (Attempt.ofExcept r : Attempt Store α) := of_answer fun _ => rfl

/-- On what is about the pull request, a confined attempt runs as on the whole
store. -/
theorem run_about {f : Store → β × Store} (hf : Confined id f) {s : Store}
    (hs : s.Sound .immediate) : f (s.about id) = ((f s).1, (f s).2.about id) := by
  rw [hf.answer hs, hf.about hs]

/-- It is enough to look at each store. -/
theorem of_forall {f : Store → β × Store}
    (h : ∀ s : Store, s.Sound .immediate → ∃ (answer : β) (after : Store), f s = (answer, after) ∧
      f (s.about id) = (answer, after.about id) ∧ after.Sound .immediate ∧
      after.apart id = s.apart id) : Confined id f where
  sound hs := by
    obtain ⟨_, _, hrun, _, hafter, _⟩ := h _ hs
    rwa [hrun]
  answer hs := by
    obtain ⟨_, _, hrun, habout, _⟩ := h _ hs
    rw [hrun, habout]
  about hs := by
    obtain ⟨_, _, hrun, habout, _⟩ := h _ hs
    rw [hrun, habout]
  apart hs := by
    obtain ⟨_, _, hrun, _, _, hapart⟩ := h _ hs
    rwa [hrun]

theorem bind {f : Attempt Store α} {next : α → Attempt Store β} (hf : Confined id f)
    (hnext : ∀ a s, (f s).1 = .ok a → Confined id (next a)) : Confined id (f >>= next) := by
  refine of_forall fun s hs => ?_
  have habout := hf.run_about hs
  have hmiddle := hf.sound hs
  have hapart := hf.apart hs
  rw [Attempt.bind_run, Attempt.bind_run, habout]
  cases hrun : f s with
  | mk result middle =>
      rw [hrun] at hmiddle hapart
      cases result with
      | error e => exact ⟨.error e, middle, rfl, rfl, hmiddle, hapart⟩
      | ok a =>
          have ha := hnext a s (congrArg Prod.fst hrun)
          exact ⟨_, _, rfl, ha.run_about hmiddle, ha.sound hmiddle,
            (ha.apart hmiddle).trans hapart⟩

theorem reverting {f : Attempt Store α} (hf : Confined id f) : Confined id f.reverting := by
  refine of_forall fun s hs => ?_
  have habout := hf.run_about hs
  have hafter := hf.sound hs
  have hapart := hf.apart hs
  rw [Attempt.reverting, Attempt.reverting, habout]
  cases hrun : f s with
  | mk result after =>
      rw [hrun] at hafter hapart
      cases result with
      | error e => exact ⟨.error e, s, rfl, rfl, hs, rfl⟩
      | ok a => exact ⟨.ok a, after, rfl, rfl, hafter, hapart⟩

/-- A statement that reads is confined if its answer is. -/
theorem reading {q : Query α} (operation name : String)
    (h : ∀ s : Store, q.answer (s.about id) = q.answer s) :
    Confined id (Store.reading operation name q) := by
  refine of_answer fun {s} _ => ?_
  have hready : q.ready (s.about id) = q.ready s := rfl
  rw [hready, h]

/-- A statement that writes is confined if what it does is. -/
theorem writing {ch : Change α} (operation name : String)
    (meaning : Constraint → Option Error) (h : Confined id (ch.on .immediate)) :
    Confined id (Store.writing operation name meaning ch) := by
  refine of_forall fun s hs => ?_
  rw [Store.writing, Store.writing, h.run_about hs]
  exact ⟨_, _, rfl, rfl, h.sound hs, h.apart hs⟩

/-- What a statement does is confined if it is done alike to what is about the
pull request, and leaves what is apart from it. -/
theorem on {ch : Change α} (hready : ∀ s : Store, ch.ready (s.about id) = ch.ready s)
    (hch : ch.Sound)
    (habout : ∀ {s : Store}, s.Sound .immediate → ch.apply .immediate (s.about id) =
      (ch.apply .immediate s).map fun e => { e with store := e.store.about id })
    (hapart : ∀ {s : Store} {e : Effect α}, ch.apply .immediate s = .ok e →
      e.store.apart id = s.apart id) :
    Confined id (ch.on .immediate) := by
  refine of_forall fun s hs => ?_
  rw [Change.on, Change.on, hready, habout hs]
  cases ch.ready s with
  | false => exact ⟨_, s, rfl, rfl, hs, rfl⟩
  | true =>
      cases happly : ch.apply .immediate s with
      | error fault => exact ⟨_, s, rfl, rfl, hs, rfl⟩
      | ok e => exact ⟨_, e.store, rfl, rfl, hch hs happly, hapart happly⟩

/-! ### Side by side -/

section Commute

variable {other : String} (hne : other ≠ id) {f : Store → α × Store} {g : Store → β × Store}
  (hf : Confined id f) (hg : Confined other g) {s : Store} (hs : s.Sound .immediate)

include hne hf hs

/-- What is about another pull request stays. -/
theorem about_after : (f s).2.about other = s.about other := by
  rw [← Store.about_apart hne, hf.apart hs, Store.about_apart hne]

include hg

/-- Whoever is confined to another pull request answers the same before and
after. -/
theorem answer_after : (g (f s).2).1 = (g s).1 := by
  rw [hg.answer (hf.sound hs), hf.about_after hne hs, ← hg.answer hs]

/-- The order of two attempts that are confined to different pull requests
does not matter. -/
theorem commute : (g (f s).2).2 = (f (g s).2).2 := by
  have hfs := hf.sound hs
  have hgs := hg.sound hs
  refine (hg.sound hfs).eq_of_parts (hf.sound hgs) id ?_ ?_
  · -- about the pull request of `f`, which `g` leaves alone
    rw [hg.about_after hne.symm hfs, hf.about hgs, hg.about_after hne.symm hs, hf.about hs]
  · have hleft := (hg.sound hfs).apart id
    have hright := (hf.sound hgs).apart id
    refine hleft.eq_of_parts hright other ?_ ?_
    · -- about the pull request of `g`, which `f` leaves alone
      rw [Store.about_apart hne, Store.about_apart hne, hf.about_after hne hgs, hg.about hfs,
        hf.about_after hne hs, hg.about hs]
    · -- apart from both nothing happens
      calc
        ((g (f s).2).2.apart id).apart other
          = ((f s).2.apart other).apart id := by rw [Store.apart_comm, hg.apart hfs]
        _ = (s.apart id).apart other := by rw [Store.apart_comm, hf.apart hs]
        _ = ((g s).2.apart other).apart id := by rw [Store.apart_comm, hg.apart hs]
        _ = ((f (g s).2).2.apart id).apart other := by rw [Store.apart_comm, hf.apart hgs]

end Commute

end Confined

/-! ## Statements about one pull request -/

namespace Statement.PullRequests

open Store

theorem confined_insert (p : NewPullRequest) :
    Confined p.id ((insert p.record).on .immediate) := by
  have hid : p.record.id = p.id := rfl
  refine .on (fun _ => rfl) (sound_insert_new p) (fun {s} hs => ?_) (fun {s e} h => ?_)
  · have hrows : (insertRow PullRequestRecord.before p.record s.pullRequests).filter
        (fun r => decide (r.id = p.id)) =
          insertRow PullRequestRecord.before p.record (s.about p.id).pullRequests :=
      hs.pullRequests.filter_insertRow PullRequestRecord.ordersBy (decide_eq_true hid)
    simp only [insert, hid, record?_about, knowsAuthorOf, user?_about, ← hrows]
    cases (s.record? p.id).isSome with
    | true => rfl
    | false => cases requireReference .immediate (s.user? p.record.author).isSome <;> rfl
  · obtain ⟨_, _, rfl⟩ := insert_apply_eq_ok_iff.mp h
    simp only [Store.apart]
    rw [filter_insertRow_of_not (by simp [hid])]

theorem confined_insertLink (id reviewer : String) (time : Int) :
    Confined id ((insertLink ⟨id, reviewer, time⟩).on .immediate) := by
  refine .on (fun _ => rfl) (sound_insertLink _) (fun {s} hs => ?_) (fun {s e} h => ?_)
  · have hrows : (insertRow Link.before ⟨id, reviewer, time⟩ s.links).filter
        (fun l => decide (l.pullRequest = id)) =
          insertRow Link.before ⟨id, reviewer, time⟩ (s.about id).links :=
      hs.links.filter_insertRow Link.ordersBy (decide_eq_true rfl)
    simp only [insertLink, link?_about, knowsEndsOf, record?_about, user?_about, ← hrows]
    cases (s.link? id reviewer).isSome with
    | true => rfl
    | false =>
        cases requireReference .immediate
          ((s.record? id).isSome && (s.user? reviewer).isSome) <;> rfl
  · obtain ⟨_, _, rfl⟩ := insertLink_apply_eq_ok_iff.mp h
    simp only [Store.apart]
    rw [filter_insertRow_of_not (by simp)]

theorem confined_deleteLink (id reviewer : String) :
    Confined id ((deleteLink id reviewer).on .immediate) := by
  refine .on (fun _ => rfl) (sound_deleteLink id reviewer) (fun {s} _ => ?_) (fun {s e} h => ?_)
  · have hcount : (s.about id).links.countP (isLinkOf id reviewer) =
        s.links.countP (isLinkOf id reviewer) :=
      countP_filter_of_imp (by simp_all [isLinkOf])
    have hrows : (s.about id).links.filter (fun l => !isLinkOf id reviewer l) =
        (s.links.filter fun l => !isLinkOf id reviewer l).filter
          fun l => decide (l.pullRequest = id) := List.filter_comm _ _ _
    simp only [deleteLink, hcount, hrows]
    rfl
  · have hrows : (s.links.filter fun l => !isLinkOf id reviewer l).filter
        (fun l => !decide (l.pullRequest = id)) =
          s.links.filter fun l => !decide (l.pullRequest = id) := by
      rw [List.filter_filter]
      apply List.filter_congr
      intro l _
      by_cases hl : l.pullRequest = id
      · simp [hl]
      · simp [isLinkOf, hl]
    rw [deleteLink_apply_eq_ok_iff.mp h]
    simp only [Store.apart, hrows]

theorem confined_setStatus (id : String) (status : Status) (time : Int) :
    Confined id ((setStatus id status time).on .immediate) := by
  have hid (r : PullRequestRecord) :
      (if isToMove id status r then moved status time r else r).id = r.id := by
    split <;> simp
  refine .on (fun _ => rfl) (sound_setStatus id status time) (fun {s} _ => ?_)
    (fun {s e} h => ?_)
  · have hcount : (s.about id).pullRequests.countP (isToMove id status) =
        s.pullRequests.countP (isToMove id status) :=
      countP_filter_of_imp (by simp_all [isToMove])
    have hrows : ((s.pullRequests.map fun r =>
        if isToMove id status r then moved status time r else r).filter
          fun r => decide (r.id = id)) =
        (s.about id).pullRequests.map fun r =>
          if isToMove id status r then moved status time r else r := by
      rw [List.filter_map]
      simp only [Function.comp_def, hid, about]
    simp only [setStatus, hcount, ← hrows]
    rfl
  · have hrows : ((s.pullRequests.map fun r =>
        if isToMove id status r then moved status time r else r).filter
          fun r => !decide (r.id = id)) = s.pullRequests.filter fun r => !decide (r.id = id) := by
      rw [List.filter_map]
      simp only [Function.comp_def, hid]
      have hkept : ∀ r ∈ s.pullRequests.filter fun r => !decide (r.id = id),
          (if isToMove id status r then moved status time r else r) = r := by
        intro r hr
        have hother : ¬r.id = id := by simpa using (List.mem_filter.mp hr).2
        exact if_neg (by simp [isToMove, hother])
      exact (List.map_congr_left hkept).trans (List.map_id _)
    rw [setStatus_apply_eq_ok_iff.mp h]
    simp only [Store.apart, hrows]

end Statement.PullRequests

end ReviewRota
