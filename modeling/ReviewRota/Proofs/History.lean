import ReviewRota.Proofs.Candidates
import ReviewRota.Proofs.CommittedStore
import ReviewRota.Proofs.Operations

/-!
# ReviewRota.Proofs.History

Histories: what has happened to a database since it was fresh.  There are
requests in any order, with any arguments, callers, draws and times.  In
between tables go out of service and come back, and others take the write
lock and give it back, so that any request can fail.

A history knows more than the database: `History.creation?` tells between
which two stores a pull request came about.

* `Event.becomes` — what an event can do to the committed store;
* `Store.Becomes.reviewed` — what it can do to a pull request and its
  reviewers: every later fact about reviewers is a case analysis over
  `Store.Reviewed`;
* `History.sound` — the constraints of the schema hold all the time.
-/

namespace ReviewRota

/-! ## Events -/

/-- What can happen to a database. -/
inductive Event where
  | request (now : Int) (r : Request)
  /-- From now on exactly these tables are out of service. -/
  | outage (tables : List Table)
  /-- Someone else takes the write lock, or gives it back. -/
  | lock (held : Bool)

/-- The database after an event. -/
def Event.occur (e : Event) (db : Database) : Database :=
  match e with
  | .request now r => (r.run now db).2
  | .outage tables => { db with committed := { db.committed with offline := tables } }
  | .lock held => { db with locked := held }

/-- The database after these events, one after the other. -/
def Database.afterEvents (db : Database) (events : List Event) : Database :=
  events.foldl (fun db e => e.occur db) db

/-- What an event can make of a store: the tables stay as they are, or an
operation is done. -/
inductive Store.Becomes (s : Store) : Store → Prop where
  | outage (tables : List Table) : Becomes s { s with offline := tables }
  | done {now : Int} {o : Operation} {reply : Reply} {after : Store}
      (h : o.Done now s reply after) : Becomes s after

/-- An event leaves the tables alone, or it is an operation that succeeded, on
its own or behind the desk. -/
theorem Event.occur_cases (e : Event) (db : Database) :
    (∃ tables, (e.occur db).committed = { db.committed with offline := tables }) ∨
      ∃ now req o reply, e = .request now req ∧ req.operation? = some o ∧
        (req.run now db).1 = .ok reply ∧ o.Done now db.committed reply (e.occur db).committed := by
  cases e with
  | outage tables => exact Or.inl ⟨tables, rfl⟩
  | lock held => exact Or.inl ⟨db.committed.offline, rfl⟩
  | request now req =>
      rw [occur]
      obtain ⟨e, hrun⟩ | ⟨reply, after, hrun, hdone⟩ := req.allOrNothing db now
      · rw [hrun]
        exact Or.inl ⟨db.committed.offline, rfl⟩
      · rw [hrun]
        unfold Request.Done at hdone
        split at hdone
        · next o ho => exact Or.inr ⟨now, req, o, reply, rfl, ho, by rw [hrun], hdone⟩
        · exact Or.inl ⟨db.committed.offline, hdone⟩

theorem Event.becomes (e : Event) (db : Database) :
    db.committed.Becomes (e.occur db).committed := by
  obtain ⟨tables, hstore⟩ | ⟨_, _, _, _, _, _, _, hdone⟩ := e.occur_cases db
  · rw [hstore]
    exact .outage tables
  · exact .done hdone

/-! ## Histories -/

/-- What has happened to a fresh database, event after event. -/
inductive History where
  | fresh
  | andThen (earlier : History) (e : Event)

/-- The stores between which a pull request came about. -/
structure Creation (id : String) where
  before : Store
  after : Store
  absent : before.record? id = none
  present : (after.record? id).isSome

namespace History

/-- The database as it is now. -/
def database : History → Database
  | fresh => {}
  | andThen earlier e => e.occur earlier.database

/-- The store that is committed now. -/
def store (h : History) : Store := h.database.committed

/-- How a pull request came about that is there now. -/
def creation? (h : History) (id : String) : Option (Creation id) :=
  match h with
  | fresh => none
  | andThen earlier e =>
    if hbefore : (earlier.store.record? id).isSome then earlier.creation? id
    else if hafter : ((andThen earlier e).store.record? id).isSome then
      some ⟨earlier.store, (andThen earlier e).store, by simpa using hbefore, hafter⟩
    else none

/-- The history of these events, one after the other. -/
def ofEvents (events : List Event) : History := events.foldl andThen fresh

theorem becomes (h : History) (e : Event) : h.store.Becomes (h.andThen e).store :=
  e.becomes h.database

/-- The constraints of the schema hold all the time. -/
theorem sound (h : History) : h.store.Sound .immediate := by
  induction h with
  | fresh => exact Store.sound_empty .immediate
  | andThen earlier e ih =>
      cases e with
      | request now r => exact r.committed_sound now ih
      | outage tables => exact ih.withOffline tables
      | lock held => exact ih

variable {h : History} {e : Event} {r : PullRequestRecord}

/-- What was there keeps its creation. -/
theorem creation?_of_mem (hr : r ∈ h.store.pullRequests) :
    (h.andThen e).creation? r.id = h.creation? r.id := by
  rw [creation?, dif_pos (Store.isSome_record?.mpr ⟨r, hr, rfl⟩)]

/-- What is there now and was not before has come about between. -/
theorem creation?_of_new (hnew : h.store.record? r.id = none)
    (hr : r ∈ (h.andThen e).store.pullRequests) :
    (h.andThen e).creation? r.id = some ⟨h.store, (h.andThen e).store, hnew,
      Store.isSome_record?.mpr ⟨r, hr, rfl⟩⟩ := by
  have hbefore : ¬(h.store.record? r.id).isSome := by simp [hnew]
  rw [creation?, dif_neg hbefore, dif_pos (Store.isSome_record?.mpr ⟨r, hr, rfl⟩)]

end History

/-! ## Pull requests and their reviewers -/

open Reviewing Statement

/-- Where a pull request of the store `after` comes from when the store
before was `s`, and what has become of its reviewers. -/
inductive Store.Reviewed (s after : Store) (r : PullRequestRecord) : Prop where
  /-- It is new, and its reviewers were drawn. -/
  | created {u : User} {draw : Draw} (hnew : s.record? r.id = none)
      (hauthor : s.user? r.author = some u)
      (hreviewers : (after.reviewersOf r.id).Perm
        ((drawn s u.team [r.author] maxReviewers draw).map User.id))
      (husers : after.users = s.users)
  /-- Nothing has happened to it. -/
  | kept (hthere : r ∈ s.pullRequests)
      (hreviewers : after.reviewersOf r.id = s.reviewersOf r.id)
  /-- It was open and has been merged. -/
  | merged {r₀ : PullRequestRecord} (hthere : r₀ ∈ s.pullRequests) (hid : r₀.id = r.id)
      (hauthor : r₀.author = r.author) (hmerged : r.status = .merged)
      (hreviewers : after.reviewersOf r.id = s.reviewersOf r.id)
  /-- One of its reviewers was replaced by someone of the same team. -/
  | reassigned {old : String} {u new : User} (hthere : r ∈ s.pullRequests)
      (hopen : r.status = .opened) (hold : old ∈ s.reviewersOf r.id)
      (huser : s.user? old = some u) (hnew : new ∈ s.users)
      (hteam : ∃ name, u.team = some name ∧ new.team = some name)
      (hfree : new.id ∉ s.reviewersOf r.id ++ [r.author])
      (hreviewers : (after.reviewersOf r.id).Perm
        (new.id :: (s.reviewersOf r.id).filter (· ≠ old)))
      (husers : after.users = s.users)

namespace Store

variable {s after : Store}

/-- What becomes of the pull requests when a store becomes another one. -/
theorem Becomes.reviewed (hs : s.Sound .immediate) (h : s.Becomes after) :
    ∀ r ∈ after.pullRequests, s.Reviewed after r := by
  intro r hr
  cases h with
  | outage tables => exact .kept hr rfl
  | done h =>
      cases h with
      | created hauthor hnew hreviewers =>
          subst hreviewers
          obtain rfl | hr := mem_insertRow.mp hr
          · have hnone := hs.reviewersOf_eq_nil hnew
            exact .created hnew hauthor (reviewersOf_withPullRequest_self _ hnone) rfl
          · have hne := record?_eq_none_iff.mp hnew r hr
            exact .kept hr (reviewersOf_of_linksOf (linksOf_withPullRequest_of_ne _ hne))
      | @reassigned id old _ r₀ u new rest hthere hopen hreviews hold hdrawn _ hafter =>
          subst hafter
          by_cases hid : r.id = id
          · subst hid
            obtain rfl : r = r₀ := Option.some.inj ((hs.record?_eq_some hr).symm.trans hthere)
            obtain ⟨hmem, hteam, hfree⟩ := mem_drawn (hdrawn ▸ List.mem_cons_self)
            exact .reassigned hr hopen hreviews hold hmem hteam hfree
              (reviewersOf_withReplacement_self s _ old new.id _) rfl
          · exact .kept hr (reviewersOf_of_linksOf (linksOf_withReplacement_of_ne hid))
      | @merged id _ _ _ =>
          obtain ⟨r₀, hr₀, rfl⟩ := List.mem_map.mp hr
          by_cases hmove : PullRequests.isToMove id .merged r₀ = true
          · rw [if_pos hmove]
            exact .merged hr₀ rfl rfl rfl rfl
          · rw [if_neg hmove]
            exact .kept hr₀ rfl
      | mergedBefore hthere hmerged => exact .kept hr rfl
      | teamCreated hnew hfree hafter =>
          subst hafter
          rw [pullRequests_withMembers] at hr
          exact .kept hr (reviewersOf_of_linksOf (linksOf_congr (links_withMembers _ _ _) r.id))
      | activitySet hthere => exact .kept hr rfl
      | looked hlooks => exact .kept hr rfl

end Store

end ReviewRota
