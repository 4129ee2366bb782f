import Mathlib.Data.Finset.Basic
import ReviewRota.Proofs.Answers
import ReviewRota.Proofs.Reports

/-!
# ReviewRota.Proofs.Ledger

The ledger of a pull request: who was replaced by whom, as the callers of
the reassignments were told, in the order in which these were committed.

It accounts for the stored reviewers: starting from those that the creation
answered, each swap takes off a member and puts on somebody who is none, and
in the end there are those that are stored (`History.replays`).  No
reassignment is lost, none counts twice, and whoever was replaced has to be
put on again before being replaced once more.

* `Replays` — swaps applied in turn;
* `Store.Tells.replays` — one step of a history;
* `History.reassignments_accounted` — the account, and what follows for a
  second attempt to replace the same reviewer.
-/

namespace ReviewRota

/-! ## Swaps -/

/-- One reviewer in the place of another. -/
structure Swap where
  old : String
  new : String
  deriving DecidableEq, Repr

/-- The reviewers after a swap. -/
def Swap.apply (x : Swap) (reviewers : Finset String) : Finset String :=
  insert x.new (reviewers.erase x.old)

/-- The swaps apply in turn, from these reviewers to those: each takes off a
member and puts on somebody who is none. -/
inductive Replays : Finset String → List Swap → Finset String → Prop where
  | done (reviewers : Finset String) : Replays reviewers [] reviewers
  | swap {x : Swap} {rest : List Swap} {reviewers last : Finset String}
      (hold : x.old ∈ reviewers) (hnew : x.new ∉ reviewers)
      (hrest : Replays (x.apply reviewers) rest last) : Replays reviewers (x :: rest) last

/-- Whoever is replaced is no reviewer any more. -/
theorem Swap.old_notMem_apply {x : Swap} {reviewers : Finset String} (hold : x.old ∈ reviewers)
    (hnew : x.new ∉ reviewers) : x.old ∉ x.apply reviewers := by
  have hne : x.old ≠ x.new := fun h => hnew (h ▸ hold)
  simp [apply, hne]

section Replays

variable {reviewers last : Finset String} {swaps more : List Swap} {user : String}

@[simp] theorem replays_nil : Replays reviewers [] last ↔ reviewers = last := by
  constructor
  · intro h
    cases h
    rfl
  · rintro rfl
    exact .done reviewers

@[simp] theorem replays_cons {x : Swap} :
    Replays reviewers (x :: swaps) last ↔
      x.old ∈ reviewers ∧ x.new ∉ reviewers ∧ Replays (x.apply reviewers) swaps last := by
  constructor
  · intro h
    cases h with
    | swap hold hnew hrest => exact ⟨hold, hnew, hrest⟩
  · rintro ⟨hold, hnew, hrest⟩
    exact .swap hold hnew hrest

theorem replays_append :
    Replays reviewers (swaps ++ more) last ↔
      ∃ middle, Replays reviewers swaps middle ∧ Replays middle more last := by
  induction swaps generalizing reviewers with
  | nil => simp
  | cons x rest ih => simp only [List.cons_append, replays_cons, ih, and_assoc, exists_and_left]

/-- Nobody becomes a reviewer but by a swap. -/
theorem Replays.notMem (h : Replays reviewers swaps last) (huser : user ∉ reviewers)
    (hnone : ∀ x ∈ swaps, x.new ≠ user) : user ∉ last := by
  induction h with
  | done reviewers => exact huser
  | @swap x rest reviewers last hold hnew hrest ih =>
      have hother : user ∉ x.apply reviewers := by
        have hne : x.new ≠ user := hnone x List.mem_cons_self
        simp [Swap.apply, huser, hne.symm]
      exact ih hother fun y hy => hnone y (List.mem_cons_of_mem x hy)

/-- Whoever was replaced and not put on again is no reviewer. -/
theorem Replays.old_notMem {x : Swap} (h : Replays reviewers (swaps ++ x :: more) last)
    (hnone : ∀ y ∈ more, y.new ≠ x.old) : x.old ∉ last := by
  obtain ⟨middle, _, h⟩ := replays_append.mp h
  obtain ⟨hold, hnew, hrest⟩ := replays_cons.mp h
  exact hrest.notMem (Swap.old_notMem_apply hold hnew) hnone

/-- Whoever is replaced twice was put on in between. -/
theorem Replays.exists_between {x y : Swap} {between : List Swap}
    (h : Replays reviewers (swaps ++ x :: (between ++ y :: more)) last) (hsame : x.old = y.old) :
    ∃ z ∈ between, z.new = x.old := by
  rw [← List.cons_append, ← List.append_assoc] at h
  obtain ⟨middle, hbefore, h⟩ := replays_append.mp h
  obtain ⟨hold, _, _⟩ := replays_cons.mp h
  by_contra hnone
  have hgone : x.old ∉ middle := hbefore.old_notMem fun z hz hnew => hnone ⟨z, hz, hnew⟩
  exact hgone (hsame ▸ hold)

end Replays

/-! ## The ledger -/

/-- The swap that a report tells of the pull request `id`. -/
def Report.swap? (id : String) : Report → Option Swap
  | .swapped other old new => if other = id then some ⟨old, new⟩ else none
  | .created _ | .merged _ _ => none

theorem Report.swap?_of_ne {id : String} {x : Report} (h : x.id ≠ id) : x.swap? id = none := by
  cases x with
  | swapped other old new => exact if_neg h
  | created | merged => rfl

/-- The swaps of a pull request that were reported, the earliest first. -/
def History.ledger (h : History) (id : String) : List Swap := h.reports.filterMap (Report.swap? id)

/-- The swap of a pull request that was reported last, if any. -/
def swapsOf (id : String) (report : Option Report) : List Swap :=
  report.toList.filterMap (Report.swap? id)

/-- In a step the reviewers of a pull request that is there change as
reported. -/
theorem Store.Tells.replays {s after : Store} {id : String} {report : Option Report}
    (h : s.Tells after id report) (hthere : (s.record? id).isSome) :
    Replays (s.reviewersOf id).toFinset (swapsOf id report) (after.reviewersOf id).toFinset := by
  have unchanged (hlinks : after.linksOf id = s.linksOf id) :
      Replays (s.reviewersOf id).toFinset [] (after.reviewersOf id).toFinset := by
    rw [Store.reviewersOf_of_linksOf hlinks]
    exact .done _
  cases h with
  | created hid hnew =>
      rw [hnew] at hthere
      exact nomatch hthere
  | @swapped r old new _ _ _ hold hnew hreviewers =>
      have hswaps : swapsOf id (some (.swapped id old new)) = [⟨old, new⟩] := by
        simp [swapsOf, Report.swap?]
      have hafter : (⟨old, new⟩ : Swap).apply (s.reviewersOf id).toFinset =
          (after.reviewersOf id).toFinset := by
        rw [List.toFinset_eq_of_perm _ _ hreviewers, List.toFinset_cons, List.toFinset_filter]
        ext user
        simp [Swap.apply, and_comm]
      rw [hswaps, ← hafter]
      exact .swap (List.mem_toFinset.mpr hold) (mt List.mem_toFinset.mp hnew) (.done _)
  | merged _ _ _ hlinks => exact unchanged hlinks
  | mergedBefore _ _ _ hlinks => exact unchanged hlinks
  | apart hid _ hlinks =>
      have hswaps : swapsOf id report = [] := by
        cases report with
        | none => rfl
        | some x => simp [swapsOf, Report.swap?_of_ne (hid x rfl)]
      rw [hswaps]
      exact unchanged hlinks

namespace History

variable {h : History}

theorem ledger_andThen (h : History) (e : Event) (id : String) :
    (h.andThen e).ledger id = h.ledger id ++ swapsOf id (e.report? h.database) :=
  List.filterMap_append

theorem ledger_of_absent {id : String} (hnone : h.store.record? id = none) : h.ledger id = [] :=
  List.filterMap_eq_nil_iff.mpr fun x hx => Report.swap?_of_ne (reports_of_absent hnone x hx)

/-- The ledger leads from the reviewers that the creation answered to those
that are stored. -/
theorem replays {p : PullRequest} (hp : Report.created p ∈ h.reports) :
    Replays p.reviewers.toFinset (h.ledger p.id) (h.store.reviewersOf p.id).toFinset := by
  induction h with
  | fresh => exact nomatch hp
  | andThen earlier e ih =>
      have hstep := earlier.tells e p.id
      rw [ledger_andThen]
      rw [reports, List.mem_append, Option.mem_toList] at hp
      obtain hp | hp := hp
      · have hthere := isSome_record?_of_report hp
        exact replays_append.mpr ⟨_, ih hp, hstep.replays hthere⟩
      · rw [Option.mem_def.mp hp] at hstep ⊢
        cases hstep with
        | created _ hnew _ hreviewers =>
            rw [ledger_of_absent hnew, List.toFinset_eq_of_perm _ _ hreviewers]
            exact .done _
        | apart hid => exact absurd rfl (hid _ rfl)

/-! ## The account -/

/-- The account of a pull request that was created as `p`. -/
structure Accounts (h : History) (p : PullRequest) : Prop where
  /-- The stored reviewers are those from the creation, with the ledger
  applied in turn. -/
  replays : Replays p.reviewers.toFinset (h.ledger p.id) (h.store.reviewersOf p.id).toFinset
  /-- Whoever was replaced twice was put on in between. -/
  putBack : ∀ {before between later : List Swap} {user new newer : String},
    h.ledger p.id = before ++ ⟨user, new⟩ :: (between ++ ⟨user, newer⟩ :: later) →
      ∃ x ∈ between, x.new = user
  /-- Whoever was replaced and not put on again is not replaced once more. -/
  onlyOnce : ∀ {before later : List Swap} {user new : String},
    h.ledger p.id = before ++ ⟨user, new⟩ :: later → (∀ x ∈ later, x.new ≠ user) →
      h.database.Serves [.pullRequests, .links] → ∀ (now : Int) (draw : Draw),
        ∃ e ∈ [Error.notAssigned user p.id, Error.isMerged p.id],
          Reviewing.reassign p.id user now draw h.database = (.error e, h.database)

/-- **No reassignment is lost or counts twice**: every pull request that was
created has its account, after every history. -/
theorem reassignments_accounted (h : History) (p : PullRequest)
    (hp : Report.created p ∈ h.reports) : h.Accounts p where
  replays := replays hp
  putBack {before between later user new newer} hledger := by
    have hreplays := replays hp
    rw [hledger] at hreplays
    exact hreplays.exists_between rfl
  onlyOnce {before later user new} hledger hnone hserves now draw := by
    have hreplays := replays hp
    rw [hledger] at hreplays
    have hgone : user ∉ h.store.reviewersOf p.id := fun hmem =>
      hreplays.old_notMem hnone (List.mem_toFinset.mpr hmem)
    obtain ⟨r, hr⟩ := Option.isSome_iff_exists.mp (isSome_record?_of_report hp)
    cases hstatus : r.status with
    | opened =>
        exact ⟨_, List.mem_cons_self,
          Reviewing.reassign_of_not_mem hserves hr hstatus hgone now draw⟩
    | merged =>
        exact ⟨_, List.mem_cons_of_mem _ (List.mem_singleton_self _),
          Reviewing.reassign_of_merged hserves hr hstatus user now draw⟩

/-- A reviewer is replaced, comes back and is replaced again, while one more
reassignment fails; the next attempt is refused. -/
theorem reassignments_accounted_back :
    let ask (now : Int) (o : Operation) : Event := .request now (.operation o)
    let team : List NewMember :=
      [⟨"ann", "Ann", true⟩, ⟨"bob", "Bob", true⟩, ⟨"cid", "Cid", true⟩, ⟨"dan", "Dan", true⟩]
    let h := ofEvents [ask 10 (.createTeam "core" team), ask 20 (.create "p" "Fix" "ann" .still),
      ask 30 (.reassign "p" "bob" .still), .outage [.users], ask 40 (.reassign "p" "cid" .still),
      .outage [], ask 50 (.reassign "p" "dan" .still), ask 60 (.reassign "p" "bob" .still)]
    let p : PullRequest := ⟨"p", "Fix", "ann", .opened, ["bob", "cid"], 20, none⟩
    let before : List Swap := [⟨"bob", "dan"⟩, ⟨"dan", "bob"⟩]
    Report.created p ∈ h.reports ∧ h.ledger p.id = before ++ [⟨"bob", "dan"⟩] ∧
      Replays p.reviewers.toFinset (h.ledger p.id) (h.store.reviewersOf p.id).toFinset ∧
      h.database.Serves [.pullRequests, .links] ∧
      ∃ e ∈ [Error.notAssigned "bob" p.id, Error.isMerged p.id],
        Reviewing.reassign p.id "bob" 70 .still h.database = (.error e, h.database) := by
  intro ask team h p before
  have hreported : Report.created p ∈ h.reports := by decide +kernel
  have hledger : h.ledger p.id = before ++ [⟨"bob", "dan"⟩] := by decide +kernel
  have hserves : h.database.Serves [.pullRequests, .links] :=
    ⟨by decide +kernel, by decide +kernel⟩
  have haccount := reassignments_accounted h p hreported
  have hrefused := haccount.onlyOnce hledger (fun _ hx => nomatch hx) hserves 70 .still
  exact ⟨hreported, hledger, haccount.replays, hserves, hrefused⟩

end History

end ReviewRota
