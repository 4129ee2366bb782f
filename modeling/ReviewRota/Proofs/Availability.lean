import ReviewRota.Proofs.Effect
import ReviewRota.Proofs.Operations

/-!
# ReviewRota.Proofs.Availability

Two questions about a team and listed users.

| who of those listed is held elsewhere? | who is free but for those listed? |
|---|---|
| asked before a team takes them in | asked before reviewers are drawn |
| members of another team with an open review | active members of the team |

Both are answered in the order of the identifiers.  A list counts as the set of
its items, and each answer goes one way with it: the more are listed, the more
are held and the fewer are free.  A merge can only let go of somebody who is
held.  All this holds of lists that a statement can list (`maxListed`); a longer
one is refused, even if few users are listed in it.

* `Store.mem_activeElsewhere`, `Store.mem_activeOfTeam` — who is found;
* `Store.activeElsewhere_sublist`, `Store.activeOfTeam_sublist` — what a longer
  list and fewer open pull requests come to;
* `Merging.exists_records` — what a merge changes, as a call of the gateway or as
  a request on another connection;
* `Gateway.Users.availability_exact` — all of it, on every connection.
-/

namespace ReviewRota

open Statement

theorem contains_congr {ids others : List String} (h : ∀ id, id ∈ ids ↔ id ∈ others)
    (id : String) : ids.contains id = others.contains id := by
  rw [Bool.eq_iff_iff, List.contains_iff_mem, List.contains_iff_mem, h]

/-! ## The answers on a store -/

namespace Store

variable {s t : Store} {team : String}

/-- Who reviews something that is open is a reviewer of an open pull
request. -/
theorem reviewsOpen_iff {id : String} :
    Users.reviewsOpen s id = true ↔
      ∃ r ∈ s.pullRequests, r.status = .opened ∧ id ∈ s.reviewersOf r.id := by
  simp only [Users.reviewsOpen, List.any_eq_true, Bool.and_eq_true, decide_eq_true_eq,
    mem_reviewersOf]
  constructor
  · rintro ⟨l, hl, hreviewer, r, hr, hid, hopen⟩
    exact ⟨r, hr, hopen, l, hl, hid.symm, hreviewer⟩
  · rintro ⟨r, hr, hopen, l, hl, hid, hreviewer⟩
    exact ⟨l, hl, hreviewer, r, hr, hid.symm, hopen⟩

/-- Who belongs to no team is not elsewhere. -/
theorem isElsewhere_iff {u : User} :
    Users.isElsewhere team u = true ↔ ∃ other, u.team = some other ∧ other ≠ team := by
  unfold Users.isElsewhere
  cases u.team with
  | none => simp
  | some other => simp

/-- The user belongs to another team than this one and reviews an open pull
request. -/
structure HeldElsewhere (s : Store) (team id : String) : Prop where
  belongs : ∃ u ∈ s.users, u.id = id ∧ ∃ other, u.team = some other ∧ other ≠ team
  reviews : ∃ r ∈ s.pullRequests, r.status = .opened ∧ id ∈ s.reviewersOf r.id

/-- The statement finds those listed who are held, however often they are listed
and whatever they review. -/
theorem mem_activeElsewhere {ids : List String} {id : String} :
    id ∈ (Users.activeElsewhere ids team).answer s ↔ id ∈ ids ∧ s.HeldElsewhere team id := by
  simp only [Users.activeElsewhere, List.mem_map, List.mem_filter, Bool.and_eq_true,
    List.contains_iff_mem, isElsewhere_iff, reviewsOpen_iff]
  constructor
  · rintro ⟨u, ⟨hu, ⟨hlisted, helsewhere⟩, hreviews⟩, rfl⟩
    exact ⟨hlisted, ⟨u, hu, rfl, helsewhere⟩, hreviews⟩
  · rintro ⟨hlisted, ⟨u, hu, rfl, helsewhere⟩, hreviews⟩
    exact ⟨u, ⟨hu, ⟨hlisted, helsewhere⟩, hreviews⟩, rfl⟩

theorem mem_activeOfTeam {excluded : List String} {u : User} :
    u ∈ (Users.activeOfTeam team excluded).answer s ↔
      u ∈ s.users ∧ u.team = some team ∧ u.active = true ∧ u.id ∉ excluded := by
  simp [Users.activeOfTeam, and_assoc]

/-- Selected users are in the order of their identifiers. -/
theorem Sound.pairwise_filter {fks : ForeignKeys} (hs : s.Sound fks) (p : User → Bool) :
    (s.users.filter p).Pairwise fun u v => u.id < v.id :=
  (hs.users.filter p).imp fun huv => by simpa [User.before] using huv

/-- Who is held is found in increasing order. -/
theorem Sound.pairwise_activeElsewhere {fks : ForeignKeys} (hs : s.Sound fks) (ids : List String)
    (team : String) : ((Users.activeElsewhere ids team).answer s).Pairwise (· < ·) :=
  List.pairwise_map.mpr (hs.pairwise_filter _)

/-- Who is free is told by the users alone. -/
theorem answer_activeOfTeam_congr (husers : t.users = s.users) (excluded : List String) :
    (Users.activeOfTeam team excluded).answer t = (Users.activeOfTeam team excluded).answer s := by
  simp only [Users.activeOfTeam, husers]

/-! ### Lists as sets -/

/-- The statement looks at the listed users, and not at the order of the list. -/
theorem activeElsewhere_congr {ids others : List String} (h : ∀ id, id ∈ ids ↔ id ∈ others)
    (team : String) : Users.activeElsewhere ids team = Users.activeElsewhere others team := by
  simp only [Users.activeElsewhere, contains_congr h]

theorem activeOfTeam_congr {excluded others : List String}
    (h : ∀ id, id ∈ excluded ↔ id ∈ others) (team : String) :
    Users.activeOfTeam team excluded = Users.activeOfTeam team others := by
  simp only [Users.activeOfTeam, contains_congr h]

/-! ### More listed users, fewer open pull requests -/

/-- Of more listed users more are found, and so they are where more is open. -/
theorem activeElsewhere_sublist {ids more : List String} (husers : t.users = s.users)
    (hids : ids ⊆ more)
    (hopen : ∀ id, Users.reviewsOpen t id = true → Users.reviewsOpen s id = true) :
    ((Users.activeElsewhere ids team).answer t).Sublist
      ((Users.activeElsewhere more team).answer s) := by
  simp only [Users.activeElsewhere, husers]
  refine (List.monotone_filter_right s.users fun u hu => ?_).map User.id
  simp only [Bool.and_eq_true, List.contains_iff_mem] at hu ⊢
  obtain ⟨⟨hlisted, helsewhere⟩, hreviews⟩ := hu
  exact ⟨⟨hids hlisted, helsewhere⟩, hopen u.id hreviews⟩

/-- Whoever is left when more are excluded was there before. -/
theorem activeOfTeam_sublist {excluded more : List String} (h : excluded ⊆ more) :
    ((Users.activeOfTeam team more).answer s).Sublist
      ((Users.activeOfTeam team excluded).answer s) := by
  refine List.monotone_filter_right s.users fun u hu => ?_
  simp only [Bool.and_eq_true, Bool.not_eq_true', List.contains_eq_mem, decide_eq_true_eq,
    decide_eq_false_iff_not] at hu ⊢
  exact ⟨hu.1, fun hlisted => hu.2 (h hlisted)⟩

/-- Who reviews something open after a merge did so before. -/
theorem reviewsOpen_of_withMerged {id user : String} {time : Int}
    (h : Users.reviewsOpen (s.withMerged id time) user = true) :
    Users.reviewsOpen s user = true := by
  obtain ⟨after, hafter, hopen, hreviewer⟩ := reviewsOpen_iff.mp h
  obtain ⟨r, hr, rfl⟩ := List.mem_map.mp hafter
  by_cases hmove : PullRequests.isToMove id .merged r = true
  · rw [if_pos hmove] at hopen
    exact nomatch hopen
  · rw [if_neg hmove] at hopen hreviewer
    exact reviewsOpen_iff.mpr ⟨r, hr, hopen, hreviewer⟩

end Store

/-! ## Merges -/

namespace Connection

/-- What a statement that writes leaves to be seen: what was seen before, or
what the statement has made of it. -/
theorem view_execute {α : Type} (ch : Change α) (c : Connection) :
    (c.execute ch).2.view = c.view ∨
      ∃ fks e, ch.apply fks c.view = .ok e ∧ (c.execute ch).2.view = e.store := by
  obtain h | ⟨hnone, _, e, happly, h⟩ | ⟨t, u, ht, _, ⟨working, changed, rfl, hstore⟩, h⟩ :=
    execute_cases ch c
  · exact Or.inl (by rw [h])
  · have hview : c.view = c.database.committed := by rw [view, hnone]
    exact Or.inr ⟨.immediate, e, hview ▸ happly, by rw [h]; rfl⟩
  · have hview : c.view = (t.settle c.database).working := by rw [view, ht]
    -- a transaction that writes has taken its store, which is seen as it is
    obtain ⟨revision, hsnapshot⟩ := t.settle_snapshot c.database
    have hafter : (c.execute ch).2.view = working := by
      rw [h, view_some, Transaction.standsFor, hsnapshot]
    rw [hafter, hview]
    obtain hkept | ⟨e, happly, hwritten⟩ := hstore
    · exact Or.inl hkept
    · exact Or.inr ⟨_, e, happly, hwritten⟩

/-- What others commit is seen unless a transaction has taken its store. -/
theorem view_of_database (c : Connection) (db : Database) :
    view { c with database := db } = c.view ∨
      c.view = c.database.committed ∧ view { c with database := db } = db.committed := by
  obtain ⟨old, _ | t⟩ := c
  · exact Or.inr ⟨rfl, rfl⟩
  · rw [view_some, view_some, Transaction.standsFor, Transaction.standsFor]
    cases t.snapshot with
    | none => exact Or.inr ⟨rfl, rfl⟩
    | some revision => exact Or.inl rfl

end Connection

/-- A merge, and what it makes of a connection, whatever it answers: by a call of
the gateway on the connection, or by a request on another one. -/
inductive Merging (c : Connection) : Connection → Prop where
  | call (id : String) (time : Int) :
      Merging c (Gateway.PullRequests.setStatus id .merged time c).2
  | request (now : Int) {r : Request} {id : String} (hr : r.operation? = some (.merge id)) :
      Merging c { c with database := (r.run now c.database).2 }

namespace Merging

variable {c after : Connection}

theorem view_call (c : Connection) (id : String) (time : Int) :
    (Gateway.PullRequests.setStatus id .merged time c).2.view = c.view ∨
      (Gateway.PullRequests.setStatus id .merged time c).2.view = c.view.withMerged id time := by
  -- counting the rows changes nothing any more
  have hlast : (Gateway.PullRequests.setStatus id .merged time c).2 =
      (c.execute (PullRequests.setStatus id .merged time)).2 := by
    rw [Gateway.PullRequests.setStatus, Attempt.bind_run, Gateway.write]
    rcases c.execute (PullRequests.setStatus id .merged time) with ⟨_ | rows, last⟩
    · rfl
    · by_cases hrows : rows = 0
      · simp only [if_pos hrows]
        rfl
      · simp only [if_neg hrows]
        rfl
  rw [hlast]
  refine (Connection.view_execute _ c).imp_right ?_
  rintro ⟨fks, e, happly, hstore⟩
  rw [hstore, PullRequests.setStatus_apply_eq_ok_iff.mp happly]
  rfl

theorem committed_request (db : Database) (now : Int) {r : Request} {id : String}
    (hr : r.operation? = some (.merge id)) :
    (r.run now db).2.committed = db.committed ∨
      (r.run now db).2.committed = db.committed.withMerged id now := by
  obtain ⟨e, hrun⟩ | ⟨reply, last, hrun, hdone⟩ := r.allOrNothing db now
  · rw [hrun]
    exact Or.inl rfl
  · rw [hrun]
    rw [Request.Done, hr] at hdone
    generalize last.committed = store at hdone
    cases hdone with
    | merged hthere hopen => exact Or.inr rfl
    | mergedBefore hthere hmerged => exact Or.inl rfl
    | looked hlooks => exact nomatch hlooks

/-- A merge changes nothing that is seen, or it merges a pull request. -/
theorem view_cases (h : Merging c after) :
    after.view = c.view ∨ ∃ id time, after.view = c.view.withMerged id time := by
  cases h with
  | call id time => exact (view_call c id time).imp_right fun h => ⟨id, time, h⟩
  | @request now r id hr =>
      obtain hkept | ⟨hbefore, hafter⟩ := c.view_of_database (r.run now c.database).2
      · exact Or.inl hkept
      · rw [hbefore, hafter]
        exact (committed_request c.database now hr).imp_right fun h => ⟨id, now, h⟩

/-- A merge changes the pull requests alone, and lets nobody review something
open who did not before. -/
theorem exists_records (h : Merging c after) :
    ∃ records, after.view = { c.view with pullRequests := records } ∧
      ∀ user, Users.reviewsOpen after.view user = true →
        Users.reviewsOpen c.view user = true := by
  obtain hview | ⟨id, time, hview⟩ := h.view_cases
  · exact ⟨c.view.pullRequests, hview, fun user hopen => hview ▸ hopen⟩
  · refine ⟨_, hview, fun user hopen => ?_⟩
    rw [hview] at hopen
    exact Store.reviewsOpen_of_withMerged hopen

end Merging

/-! ## The questions on a connection -/

namespace Gateway

/-- The attempt answers `a` on the connection.  Nothing is written, and the same
is seen there afterwards. -/
def Finds {α : Type} (g : Gateway α) (c : Connection) (a : α) : Prop :=
  ∃ last, g c = (.ok a, last) ∧ last.database = c.database ∧ last.view = c.view

theorem finds_pure {α : Type} (a : α) (c : Connection) : Finds (pure a) c a := ⟨c, rfl, rfl, rfl⟩

/-- A statement that reads answers if its tables are in service. -/
theorem finds_read {α : Type} (operation id : String) {q : Query α} {c : Connection}
    (hserves : c.view.inService q.tables = true) :
    Finds (read operation id q) c (q.answer c.view) := by
  refine ⟨(c.query q).2, ?_, ?_, Connection.view_query q c⟩
  · have hready : q.ready c.view = true := hserves
    rw [read, Connection.query, if_pos hready]
  · obtain h | h := Connection.query_cases q c
    · rw [h]
    · rw [h]

namespace Users

variable {c : Connection}

/-- For no users the answer is the same though the store is not asked. -/
theorem finds_activeElsewhere (hserves : c.view.inService [.users, .links, .pullRequests] = true)
    {ids : List String} (hfits : ids.length ≤ maxListed) (team : String) :
    Finds (activeElsewhere ids team) c
      ((Statement.Users.activeElsewhere ids team).answer c.view) := by
  unfold activeElsewhere
  by_cases hids : ids = []
  · rw [if_pos hids, hids, Statement.Users.answer_activeElsewhere_nil]
    exact finds_pure [] c
  · rw [if_neg hids, readListed_of_le _ _ _ hfits]
    exact finds_read _ _ hserves

theorem finds_activeExcept (hserves : c.view.inService [.users] = true) (team : String)
    {excluded : List String} (hfits : excluded.length ≤ maxListed) :
    Finds (activeExcept team excluded) c
      ((Statement.Users.activeOfTeam team excluded).answer c.view) := by
  rw [activeExcept, readListed_of_le _ _ _ hfits]
  exact finds_read _ _ hserves

section Sets

variable {ids others : List String} (hids : ids.length ≤ maxListed)
  (hothers : others.length ≤ maxListed) (h : ∀ id, id ∈ ids ↔ id ∈ others) (team : String)

include hids hothers h

/-- A list counts as a set, also where it decides whether the store is asked. -/
theorem activeElsewhere_congr : activeElsewhere ids team = activeElsewhere others team := by
  have hnil : ids = [] ↔ others = [] := by simp only [List.eq_nil_iff_forall_not_mem, h]
  simp only [activeElsewhere, hnil, readListed_of_le _ _ _ hids, readListed_of_le _ _ _ hothers,
    Store.activeElsewhere_congr h]

theorem activeExcept_congr : activeExcept team ids = activeExcept team others := by
  simp only [activeExcept, readListed_of_le _ _ _ hids, readListed_of_le _ _ _ hothers,
    Store.activeOfTeam_congr h]

end Sets

/-- What the two questions about a team are answered on a connection. -/
structure Availability (c : Connection) (team : String) : Prop where
  /-- Exactly those listed who are held elsewhere, in increasing order. -/
  held : ∀ ids : List String, ids.length ≤ maxListed →
    ∃ found, Finds (activeElsewhere ids team) c found ∧ found.Pairwise (· < ·) ∧
      ∀ id, id ∈ found ↔ id ∈ ids ∧ c.view.HeldElsewhere team id
  /-- Exactly the active members who are not listed, in increasing order. -/
  free : ∀ ids : List String, ids.length ≤ maxListed →
    ∃ found, Finds (activeExcept team ids) c found ∧
      (found.Pairwise fun u v => u.id < v.id) ∧
      ∀ u, u ∈ found ↔ u ∈ c.view.users ∧ u.team = some team ∧ u.active = true ∧ u.id ∉ ids
  /-- How often and in which order users are listed does not matter. -/
  asSets : ∀ ids others : List String, ids.length ≤ maxListed → others.length ≤ maxListed →
    (∀ id, id ∈ ids ↔ id ∈ others) →
      activeElsewhere ids team c = activeElsewhere others team c ∧
        activeExcept team ids c = activeExcept team others c
  /-- Of more listed users more are held, and fewer are free. -/
  more : ∀ ids others : List String, ids.length ≤ maxListed → others.length ≤ maxListed →
    ids ⊆ others →
      (∃ found more, Finds (activeElsewhere ids team) c found ∧
        Finds (activeElsewhere others team) c more ∧ found.Sublist more) ∧
      ∃ found fewer, Finds (activeExcept team ids) c found ∧
        Finds (activeExcept team others) c fewer ∧ fewer.Sublist found
  /-- A merge can only take from those who are held, and leaves those who are
  free. -/
  merging : ∀ after, Merging c after → ∀ ids : List String, ids.length ≤ maxListed →
    (∃ found fewer, Finds (activeElsewhere ids team) c found ∧
      Finds (activeElsewhere ids team) after fewer ∧ fewer.Sublist found) ∧
    ∃ found, Finds (activeExcept team ids) c found ∧ Finds (activeExcept team ids) after found
  /-- A list that is too long is refused, and nothing changes. -/
  tooLong : ∀ ids : List String, maxListed < ids.length →
    activeElsewhere ids team c = (.error (.storage "users.find_cross_team_active" team), c) ∧
      activeExcept team ids c = (.error (.storage "users.get_active_excluding" team), c)

/-- **Availability, exactly**: on a connection on which the constraints hold,
save for references that are put off, both questions are answered from the sets
that they are about; what moves with the list and with a merge moves one way.  What a
statement cannot list is refused. -/
theorem availability_exact {fks : ForeignKeys} (hs : c.view.Sound fks)
    (hserves : c.view.inService [.users, .pullRequests, .links] = true) (team : String) :
    Availability c team := by
  have hreviews : c.view.inService [.users, .links, .pullRequests] = true :=
    Store.inService_of_subset (by simp) hserves
  have husers : c.view.inService [.users] = true := Store.inService_of_subset (by simp) hserves
  constructor
  case held =>
    exact fun ids hfits => ⟨_, finds_activeElsewhere hreviews hfits team,
      hs.pairwise_activeElsewhere ids team, fun id => Store.mem_activeElsewhere⟩
  case free =>
    exact fun ids hfits => ⟨_, finds_activeExcept husers team hfits, hs.pairwise_filter _,
      fun u => Store.mem_activeOfTeam⟩
  case asSets =>
    intro ids others hids hothers h
    rw [activeElsewhere_congr hids hothers h, activeExcept_congr hids hothers h]
    exact ⟨rfl, rfl⟩
  case more =>
    intro ids others hids hothers h
    constructor
    · exact ⟨_, _, finds_activeElsewhere hreviews hids team,
        finds_activeElsewhere hreviews hothers team,
        Store.activeElsewhere_sublist rfl h fun _ hopen => hopen⟩
    · exact ⟨_, _, finds_activeExcept husers team hids, finds_activeExcept husers team hothers,
        Store.activeOfTeam_sublist h⟩
  case merging =>
    intro after hmerging ids hfits
    obtain ⟨records, hview, hopen⟩ := hmerging.exists_records
    have hsame : after.view.users = c.view.users := by rw [hview]
    have hserving (tables : List Table) :
        after.view.inService tables = c.view.inService tables := by
      rw [hview]
      rfl
    constructor
    · exact ⟨_, _, finds_activeElsewhere hreviews hfits team,
        finds_activeElsewhere ((hserving _).trans hreviews) hfits team,
        Store.activeElsewhere_sublist hsame (List.Subset.refl ids) hopen⟩
    · have hfree := finds_activeExcept ((hserving _).trans husers) team hfits
      rw [Store.answer_activeOfTeam_congr hsame] at hfree
      exact ⟨_, finds_activeExcept husers team hfits, hfree⟩
  case tooLong =>
    intro ids hlong
    rw [activeElsewhere_of_lt hlong, activeExcept_of_lt team hlong]
    exact ⟨rfl, rfl⟩

/-- In a transaction that was begun.  Of those listed, `u1` is in the team, `u3` is in
none, `u6` reviews nothing that is open, and one is unknown; the merge of `p2` lets
`u2` go, while `u5` reviews `p3` as well. -/
theorem availability_exact_merged :
    let store : Store := {
      teams := [⟨"core", 1⟩, ⟨"tools", 2⟩]
      users := [⟨"u1", "Ann", some "tools", true⟩, ⟨"u2", "Bob", some "core", true⟩,
        ⟨"u3", "Cyd", none, true⟩, ⟨"u4", "Dee", some "tools", false⟩,
        ⟨"u5", "Eve", some "core", false⟩, ⟨"u6", "Fay", some "core", true⟩,
        ⟨"u7", "Gil", some "tools", true⟩]
      pullRequests := [⟨"p1", "Fix", "u1", .merged, 5, some 6⟩,
        ⟨"p2", "New", "u1", .opened, 7, none⟩, ⟨"p3", "Old", "u6", .opened, 8, none⟩]
      links := [⟨"p1", "u6", 5⟩, ⟨"p2", "u2", 7⟩, ⟨"p2", "u3", 7⟩, ⟨"p2", "u5", 7⟩,
        ⟨"p3", "u1", 8⟩, ⟨"p3", "u5", 8⟩] }
    let c := (⟨store, 4, false⟩ : Database).begun
    let after := (PullRequests.setStatus "p2" .merged 9 c).2
    let ids := ["u5", "u1", "ghost", "u2", "u5", "u6", "u3"]
    c.view.Sound .immediate ∧ Availability c "tools" ∧
      Finds (activeElsewhere ids "tools") c ["u2", "u5"] ∧
      Finds (activeElsewhere ids "tools") after ["u5"] := by
  intro store c after ids
  have hs : c.view.Sound .immediate := by decide +kernel
  have hserves : c.view.inService [.users, .pullRequests, .links] = true := by decide
  have hreviews : c.view.inService [.users, .links, .pullRequests] = true := by decide
  have hafter : after.view.inService [.users, .links, .pullRequests] = true := by decide +kernel
  have hheld : (Statement.Users.activeElsewhere ids "tools").answer c.view = ["u2", "u5"] := by
    decide +kernel
  have hleft : (Statement.Users.activeElsewhere ids "tools").answer after.view = ["u5"] := by
    decide +kernel
  have hexact : Availability c "tools" := availability_exact hs hserves "tools"
  have hfits : ids.length ≤ maxListed := by decide
  exact ⟨hs, hexact, hheld ▸ finds_activeElsewhere hreviews hfits "tools",
    hleft ▸ finds_activeElsewhere hafter hfits "tools"⟩

/-- A long list is no set: the same user can be asked for once, and not 32766
times. -/
theorem activeElsewhere_of_repeated :
    let c := (⟨{}, 0, false⟩ : Database).begun
    let ids := List.replicate 32766 "u1"
    c.view.Sound .immediate ∧ (∀ id, id ∈ ids ↔ id ∈ ["u1"]) ∧
      (activeElsewhere ["u1"] "tools" c).1 = .ok [] ∧
      (activeElsewhere ids "tools" c).1 =
        .error (.internal "store failure for 'tools'" (some "users.find_cross_team_active")) := by
  intro c ids
  have hlong : maxListed < ids.length := by
    rw [List.length_replicate]
    decide
  refine ⟨by decide +kernel, fun id => ?_, by decide +kernel, ?_⟩
  · rw [List.mem_replicate, List.mem_singleton]
    exact and_iff_right (by decide)
  · rw [activeElsewhere_of_lt hlong]
    rfl

end Users

end Gateway

end ReviewRota
