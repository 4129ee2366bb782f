import ReviewRota.Reporting
import ReviewRota.Reviewing
import ReviewRota.Proofs.Changes
import ReviewRota.Proofs.Reading
import Mathlib.Algebra.BigOperators.Ring.Finset

/-!
# ReviewRota.Proofs.Workload

The views of who reviews what agree.  There are four of them, each answered
by a statement of its own: the loads of the users, the reviewers of the pull
requests, the reviews of one user, and a single pull request.

All of them look at one relation, the links, from one side or the other.
What makes them agree is that a link is told by its ends (the key) and that
both ends are there (the references): so the pull requests that a user
reviews are as many as the links of the user
(`Store.Sound.length_reviewedBy`), and both sums count every link once
(`sum_count_eq_length`).

* `Reporting.Listed` — what the reviews of one user are;
* `Reporting.Agree` — how the views fit together;
* `Reporting.views_agree` — they do, on every store that satisfies the
  constraints.
-/

namespace ReviewRota

/-! ## Counting -/

/-- Every item is counted under one key. -/
theorem sum_count_eq_length {keys : List String} (hkeys : keys.Nodup) {items : List String}
    (hknown : ∀ item ∈ items, item ∈ keys) :
    (keys.map fun key => items.count key).sum = items.length := by
  have hmem : ∀ item ∈ (items : Multiset String), item ∈ keys.toFinset := by
    simpa using hknown
  have hsum := Multiset.sum_count_eq_card hmem
  rw [List.sum_toFinset _ hkeys] at hsum
  simpa using hsum

/-- The rows with a value are those whose value is counted. -/
theorem count_map_eq_length_filter {α : Type} (f : α → String) (rows : List α) (x : String) :
    (rows.map f).count x = (rows.filter fun row => f row = x).length := by
  rw [List.count_eq_countP, List.countP_map, List.countP_eq_length_filter]
  apply congrArg List.length
  exact List.filter_congr fun row _ => by simp [beq_eq_decide]

namespace Statement.PullRequests

/-! ## The statements -/

@[simp] theorem mem_distinct {x : String} {items : List String} :
    x ∈ distinct items ↔ x ∈ items := by
  induction items with
  | nil => simp [distinct]
  | cons item rest ih =>
      rw [distinct]
      by_cases hrest : item ∈ rest
      · have hmore : x = item → x ∈ rest := fun h => h ▸ hrest
        simpa [hrest, ih] using hmore
      · simp [hrest, ih]

/-- Each item is there once, in increasing order. -/
theorem inOrder_distinct (items : List String) :
    InOrder (fun a b => decide (a < b)) (distinct items) := by
  induction items with
  | nil => exact List.Pairwise.nil
  | cons item rest ih =>
      rw [distinct]
      by_cases hrest : item ∈ rest
      · simpa [hrest] using ih
      · have hnew : ∀ other ∈ distinct rest, other ≠ item := by
          rintro other hother rfl
          exact hrest (mem_distinct.mp hother)
        simpa [hrest] using inOrder_insertRow (ordersBy_text id) ih hnew

/-- The order of a user's reviews is that by time, backwards, and identifier. -/
theorem newestBefore_iff {a b : PullRequest} :
    newestBefore a b = true ↔
      b.createdAt < a.createdAt ∨ a.createdAt = b.createdAt ∧ a.id < b.id := by
  simp [newestBefore]

theorem ordersBy_newest :
    OrdersBy newestBefore fun p : PullRequest => (p.createdAt, p.id) :=
  ordersBy_lex (· > ·) PullRequest.createdAt PullRequest.id newestBefore_iff

end Statement.PullRequests

/-! ## Links seen from both ends -/

namespace Store

variable {s : Store}

theorem isSome_link? {id user : String} : (s.link? id user).isSome ↔ user ∈ s.reviewersOf id := by
  simp [link?, mem_reviewersOf, List.find?_isSome]

/-- The pull requests that a user reviews. -/
def reviewedBy (s : Store) (user : String) : List PullRequestRecord :=
  s.pullRequests.filter fun r => (s.link? r.id user).isSome

/-- The same with their reviewers, the newest first. -/
def reviewsOf (s : Store) (user : String) : List PullRequest :=
  sortRows Statement.PullRequests.newestBefore ((s.reviewedBy user).map s.assemble)

/-- How many links a user has. -/
def load (s : Store) (user : String) : Nat := (s.links.map Link.reviewer).count user

/-- The users who have links. -/
def reviewing (s : Store) : List String :=
  Statement.PullRequests.distinct (s.links.map Link.reviewer)

theorem mem_reviewing {user : String} :
    user ∈ s.reviewing ↔ ∃ l ∈ s.links, l.reviewer = user := by
  rw [reviewing, Statement.PullRequests.mem_distinct, List.mem_map]

theorem Sound.nodup_reviewedBy {fks : ForeignKeys} (hs : s.Sound fks) (user : String) :
    ((s.reviewedBy user).map PullRequestRecord.id).Nodup := by
  have hall := hs.pullRequests.nodup_keys PullRequestRecord.ordersBy
  exact hall.sublist (List.filter_sublist.map _)

/-- A user reviews as many pull requests as they have links. -/
theorem Sound.length_reviewedBy (hs : s.Sound .immediate) (user : String) :
    (s.reviewedBy user).length = s.load user := by
  have hids := hs.nodup_reviewedBy user
  have hlinks : ((s.links.filter (·.reviewer = user)).map Link.pullRequest).Nodup := by
    have hall := (hs.links.nodup_keys Link.ordersBy).of_map
    refine (hall.filter _).map_on fun a ha b hb hid => ?_
    have ha' := List.mem_filter.mp ha
    have hb' := List.mem_filter.mp hb
    have hreviewer : a.reviewer = b.reviewer := by
      have hleft : a.reviewer = user := by simpa using ha'.2
      have hright : b.reviewer = user := by simpa using hb'.2
      rw [hleft, hright]
    exact hs.links.eq_of_key_eq Link.ordersBy ha'.1 hb'.1 (Prod.ext hid hreviewer)
  have hperm : ((s.reviewedBy user).map PullRequestRecord.id).Perm
      ((s.links.filter (·.reviewer = user)).map Link.pullRequest) := by
    rw [List.perm_ext_iff_of_nodup hids hlinks]
    intro id
    simp only [reviewedBy, List.mem_map, List.mem_filter, isSome_link?, mem_reviewersOf,
      decide_eq_true_eq]
    constructor
    · rintro ⟨r, ⟨_, l, hl, hid, hreviewer⟩, rfl⟩
      exact ⟨l, ⟨hl, hreviewer⟩, hid⟩
    · rintro ⟨l, ⟨hl, hreviewer⟩, rfl⟩
      obtain ⟨r, hr, hid⟩ := (hs.references rfl).pullRequest l hl
      exact ⟨r, ⟨hr, l, hl, hid.symm, hreviewer⟩, hid⟩
  have hlength := hperm.length_eq
  rw [List.length_map, List.length_map] at hlength
  rw [hlength, load, count_map_eq_length_filter]

theorem Sound.length_reviewsOf (hs : s.Sound .immediate) (user : String) :
    (s.reviewsOf user).length = s.load user := by
  have hlength := (sortRows_perm Statement.PullRequests.newestBefore
    ((s.reviewedBy user).map s.assemble)).length_eq
  rw [List.length_map, hs.length_reviewedBy] at hlength
  exact hlength

/-- The loads of all users who review something come to the number of
links. -/
theorem sum_load (s : Store) : (s.reviewing.map s.load).sum = s.links.length := by
  have hnodup := (Statement.PullRequests.inOrder_distinct (s.links.map Link.reviewer)).nodup_keys
    (ordersBy_text id)
  rw [List.map_id] at hnodup
  have hsum := sum_count_eq_length hnodup fun _ => Statement.PullRequests.mem_distinct.mpr
  rwa [List.length_map] at hsum

/-- So do the reviewers of all pull requests. -/
theorem Sound.sum_reviewersOf (hs : s.Sound .immediate) :
    (s.pullRequests.map fun r => (s.reviewersOf r.id).length).sum = s.links.length := by
  have hids := hs.pullRequests.nodup_keys PullRequestRecord.ordersBy
  have hknown : ∀ id ∈ s.links.map Link.pullRequest,
      id ∈ s.pullRequests.map PullRequestRecord.id := by
    intro id hid
    obtain ⟨l, hl, rfl⟩ := List.mem_map.mp hid
    obtain ⟨r, hr, hrid⟩ := (hs.references rfl).pullRequest l hl
    exact hrid ▸ List.mem_map_of_mem hr
  have hsum := sum_count_eq_length hids hknown
  rw [List.map_map, List.length_map] at hsum
  rw [← hsum]
  apply congrArg List.sum
  apply List.map_congr_left
  intro r _
  rw [reviewersOf, List.length_map, Function.comp_apply, count_map_eq_length_filter]

end Store

/-! ## The services -/

section Services

variable {db : Database}

/-- A statement that reads on a connection of its own. -/
theorem Service.direct_read {α : Type} (operation id : String) {q : Query α}
    (hserves : db.committed.inService q.tables = true) :
    direct (Gateway.read operation id q) db = (.ok (q.answer db.committed), db) := by
  rw [direct, Gateway.read_connection operation id hserves]
  rfl

variable (hserves : db.committed.inService [.pullRequests, .links] = true)

include hserves

/-- A pull request is found under its identifier. -/
theorem Reviewing.get_eq_ok_iff (hs : db.committed.Sound .immediate) {id : String}
    {p : PullRequest} :
    get id db = (.ok p, db) ↔
      ∃ r ∈ db.committed.pullRequests, r.id = id ∧ p = db.committed.assemble r := by
  have hanswer : (Statement.PullRequests.byId id).answer db.committed =
      (db.committed.record? id).map db.committed.assemble := rfl
  rw [get, Service.direct, Gateway.PullRequests.get, Attempt.bind_run,
    Gateway.read_connection _ _ hserves, hanswer]
  cases hthere : db.committed.record? id with
  | none =>
      have hnone := Store.record?_eq_none_iff.mp hthere
      constructor
      · intro h
        have herror : (.error (.notFound .pullRequest id) : Except Error PullRequest) = .ok p :=
          congrArg Prod.fst h
        simp at herror
      · rintro ⟨r, hr, hid, _⟩
        exact absurd hid (hnone r hr)
  | some r =>
      obtain ⟨hr, hid⟩ := Store.mem_of_record?_eq_some hthere
      constructor
      · intro h
        exact ⟨r, hr, hid, (Except.ok.inj (congrArg Prod.fst h)).symm⟩
      · rintro ⟨other, hother, rfl, rfl⟩
        obtain rfl : r = other :=
          Option.some.inj (hthere.symm.trans (hs.record?_eq_some hother))
        rfl

theorem Reporting.userLoads_eq :
    userLoads db =
      (.ok (db.committed.reviewing.map fun user => ⟨user, db.committed.load user⟩), db) := by
  have hlinks : db.committed.inService [.links] = true :=
    Store.inService_of_subset (by simp) hserves
  rw [userLoads, Attempt.bind_run, Gateway.PullRequests.countByReviewer,
    Service.direct_read _ _ hlinks]
  simp only [Statement.PullRequests.countByReviewer, Attempt.pure_run, List.map_map]
  rfl

theorem Reporting.reviewerCounts_eq :
    reviewerCounts db = (.ok (db.committed.pullRequests.map fun r =>
      (db.committed.assemble r).reviewerCount), db) := by
  rw [reviewerCounts, Attempt.bind_run, Gateway.PullRequests.all, Service.direct_read _ _ hserves]
  simp only [Statement.PullRequests.all, Attempt.pure_run, List.map_map]
  rfl

theorem Reporting.reviewsOf_eq (user : String) :
    reviewsOf user db = (.ok ((db.committed.reviewsOf user).map PullRequest.summary), db) := by
  rw [reviewsOf, Attempt.bind_run, Gateway.PullRequests.ofReviewer,
    Service.direct_read _ _ hserves]
  rfl

end Services

/-! ## How the views fit together -/

namespace Reporting

/-- How many pull requests a user has in a list of loads; who is not in it
has none. -/
def assignedIn (loads : List UserLoad) (user : String) : Int :=
  ((loads.find? (·.user = user)).map UserLoad.assigned).getD 0

/-- The pull requests `assigned` are what a user reviews: those that have the
user as a reviewer, each once, the newest first and then by identifier. -/
structure Listed (db : Database) (user : String) (assigned : List PullRequest) : Prop where
  found : ∀ p ∈ assigned, Reviewing.get p.id db = (.ok p, db)
  complete : ∀ id p, Reviewing.get id db = (.ok p, db) → (p ∈ assigned ↔ user ∈ p.reviewers)
  once : (assigned.map PullRequest.id).Nodup
  ordered : assigned.Pairwise fun a b =>
    b.createdAt < a.createdAt ∨ a.createdAt = b.createdAt ∧ a.id < b.id

/-- The loads and the counts agree with each other, with the reviews of every
user and with every pull request. -/
structure Agree (db : Database) (loads : List UserLoad) (counts : List ReviewerCount) : Prop where
  /-- Exactly the users who review something have a load. -/
  loads_users : ∀ user, (∃ load ∈ loads, load.user = user) ↔
    (db.committed.user? user).isSome ∧ ∃ l ∈ db.committed.links, l.reviewer = user
  loads_ordered : loads.Pairwise fun a b => a.user < b.user
  /-- A load is the number of the user's reviews, and of the pull requests
  that count the user among their reviewers. -/
  loads_assigned : ∀ user, ∃ assigned, Listed db user assigned ∧
    reviewsOf user db = (.ok (assigned.map PullRequest.summary), db) ∧
    assignedIn loads user = assigned.length ∧
    assignedIn loads user = (counts.filter (·.reviewers.contains user)).length
  /-- Every pull request is counted once. -/
  counts_pullRequests :
    counts.map ReviewerCount.pullRequest = db.committed.pullRequests.map PullRequestRecord.id
  counts_ordered : counts.Pairwise fun a b => a.pullRequest < b.pullRequest
  /-- It is counted with the reviewers that it has. -/
  counts_reviewers : ∀ entry ∈ counts, ∃ p,
    Reviewing.get entry.pullRequest db = (.ok p, db) ∧ entry.count = p.reviewers.length ∧
      entry.reviewers.Perm p.reviewers
  total : (loads.map UserLoad.assigned).sum = (counts.map fun entry => (entry.count : Int)).sum

variable {db : Database}

theorem assignedIn_loads (s : Store) (user : String) :
    assignedIn (s.reviewing.map fun user => ⟨user, s.load user⟩) user = s.load user := by
  rw [assignedIn, List.find?_map, Option.map_map]
  by_cases huser : user ∈ s.reviewing
  · have hsome : (s.reviewing.find? fun other => decide (other = user)).isSome := by
      rw [List.find?_isSome]
      exact ⟨user, huser, by simp⟩
    obtain ⟨other, hfind⟩ := Option.isSome_iff_exists.mp hsome
    obtain rfl : other = user := by simpa using List.find?_some hfind
    simp [Function.comp_def, hfind]
  · have hnone : s.reviewing.find? (fun other => decide (other = user)) = none := by
      rw [List.find?_eq_none]
      intro other hother
      have hne : other ≠ user := fun h => huser (h ▸ hother)
      simpa using hne
    have hzero : s.load user = 0 := by
      rw [Store.reviewing, Statement.PullRequests.mem_distinct] at huser
      exact List.count_eq_zero_of_not_mem huser
    simp [Function.comp_def, hnone, hzero]

/-- The pull requests that count a user are those that the user reviews. -/
theorem length_filter_counts (s : Store) (user : String) :
    ((s.pullRequests.map fun r => (s.assemble r).reviewerCount).filter
      (·.reviewers.contains user)).length = (s.reviewedBy user).length := by
  rw [List.filter_map, List.length_map, Store.reviewedBy]
  apply congrArg List.length
  apply List.filter_congr
  intro r _
  rw [Bool.eq_iff_iff, Store.isSome_link?]
  simp [PullRequest.reviewerCount]

section Agree

variable (hs : db.committed.Sound .immediate)
  (hserves : db.committed.inService [.pullRequests, .links] = true)

include hs hserves

theorem listed_reviewsOf (user : String) : Listed db user (db.committed.reviewsOf user) where
  found p hp := by
    obtain ⟨r, hr, rfl⟩ := List.mem_map.mp (mem_sortRows.mp hp)
    rw [Reviewing.get_eq_ok_iff hserves hs]
    exact ⟨r, List.mem_of_mem_filter hr, rfl, rfl⟩
  complete id p hp := by
    obtain ⟨r, hr, rfl, rfl⟩ := (Reviewing.get_eq_ok_iff hserves hs).mp hp
    rw [Store.reviewsOf, mem_sortRows, List.mem_map, Store.assemble_reviewers,
      ← Store.isSome_link?]
    constructor
    · rintro ⟨other, hother, hsame⟩
      have hid : other.id = r.id := congrArg PullRequest.id hsame
      rw [← hid]
      exact (List.mem_filter.mp hother).2
    · intro hlink
      exact ⟨r, List.mem_filter.mpr ⟨hr, hlink⟩, rfl⟩
  once := by
    have hperm := (sortRows_perm Statement.PullRequests.newestBefore
      ((db.committed.reviewedBy user).map db.committed.assemble)).map PullRequest.id
    rw [Store.reviewsOf, hperm.nodup_iff, List.map_map]
    exact hs.nodup_reviewedBy user
  ordered := by
    have hids := hs.nodup_reviewedBy user
    have hkeys : (((db.committed.reviewedBy user).map db.committed.assemble).map
        fun p => (p.createdAt, p.id)).Nodup := by
      refine List.Nodup.of_map Prod.snd ?_
      rw [List.map_map, List.map_map]
      exact hids
    have hordered := inOrder_sortRows Statement.PullRequests.ordersBy_newest hkeys
    exact hordered.imp Statement.PullRequests.newestBefore_iff.mp

theorem agree : Agree db
    (db.committed.reviewing.map fun user => ⟨user, db.committed.load user⟩)
    (db.committed.pullRequests.map fun r => (db.committed.assemble r).reviewerCount) where
  loads_users user := by
    have hmem : (∃ load ∈ db.committed.reviewing.map fun user =>
        (⟨user, db.committed.load user⟩ : UserLoad), load.user = user) ↔
          user ∈ db.committed.reviewing := by
      simp
    rw [hmem, Store.mem_reviewing]
    constructor
    · rintro ⟨l, hl, rfl⟩
      exact ⟨Store.isSome_user?.mpr ((hs.references rfl).reviewer l hl), l, hl, rfl⟩
    · exact And.right
  loads_ordered := by
    have hordered := Statement.PullRequests.inOrder_distinct
      (db.committed.links.map Link.reviewer)
    rw [List.pairwise_map]
    exact hordered.imp decide_eq_true_iff.mp
  loads_assigned user := by
    refine ⟨_, listed_reviewsOf hs hserves user, reviewsOf_eq hserves user, ?_, ?_⟩
    · rw [assignedIn_loads, hs.length_reviewsOf]
    · rw [assignedIn_loads, length_filter_counts, hs.length_reviewedBy]
  counts_pullRequests := by
    rw [List.map_map]
    rfl
  counts_ordered := by
    rw [List.pairwise_map]
    exact hs.pullRequests.imp decide_eq_true_iff.mp
  counts_reviewers entry hentry := by
    obtain ⟨r, hr, rfl⟩ := List.mem_map.mp hentry
    exact ⟨_, (Reviewing.get_eq_ok_iff hserves hs).mpr ⟨r, hr, rfl, rfl⟩, rfl, .refl _⟩
  total := by
    have hloads : (db.committed.reviewing.map fun user => (db.committed.load user : Int)).sum =
        db.committed.links.length := by
      rw [← Store.sum_load, Nat.cast_list_sum, List.map_map]
      rfl
    have hcounts : (db.committed.pullRequests.map fun r =>
        ((db.committed.reviewersOf r.id).length : Int)).sum = db.committed.links.length := by
      rw [← hs.sum_reviewersOf, Nat.cast_list_sum, List.map_map]
      rfl
    rw [List.map_map, List.map_map]
    exact hloads.trans hcounts.symm

/-- **The views agree** on every store that satisfies the constraints. -/
theorem views_agree :
    ∃ loads counts, userLoads db = (.ok loads, db) ∧ reviewerCounts db = (.ok counts, db) ∧
      Agree db loads counts :=
  ⟨_, _, userLoads_eq hserves, reviewerCounts_eq hserves, agree hs hserves⟩

end Agree

/-- Two reviewers of three pull requests, two of them of the same time. -/
theorem views_agree_tie :
    let user (id : String) : User := ⟨id, id, some "core", true⟩
    let record (id : String) (time : Int) : PullRequestRecord :=
      ⟨id, id, "u1", .opened, time, none⟩
    let store : Store := {
      teams := [⟨"core", 1⟩]
      users := [user "u1", user "u2", user "u3"]
      pullRequests := [record "p1" 5, record "p2" 7, record "p3" 7]
      links := [⟨"p1", "u2", 5⟩, ⟨"p2", "u2", 7⟩, ⟨"p2", "u3", 7⟩, ⟨"p3", "u2", 7⟩] }
    let db : Database := ⟨store, 4, false⟩
    store.Sound .immediate ∧
      (userLoads db).1 = .ok [⟨"u2", 3⟩, ⟨"u3", 1⟩] ∧
      (reviewsOf "u2" db).1 = .ok (["p2", "p3", "p1"].map fun id => ⟨id, id, "u1", .opened⟩) ∧
      ∃ loads counts, userLoads db = (.ok loads, db) ∧ reviewerCounts db = (.ok counts, db) ∧
        Agree db loads counts := by
  intro user record store db
  have hs : store.Sound .immediate := by decide +kernel
  exact ⟨hs, by decide +kernel, by decide +kernel, views_agree hs (by decide)⟩

end Reporting

end ReviewRota
