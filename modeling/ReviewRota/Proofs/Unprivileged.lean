import ReviewRota.Proofs.Failures
import ReviewRota.Proofs.Guards
import ReviewRota.Proofs.History

/-!
# ReviewRota.Proofs.Unprivileged

What callers at the desk who are no administrators can see, and what they can
do.

* Of the reviews of somebody else they see nothing: the answer is the same
  whatever is stored and whatever fails (`Service.Composed.TellsNothing`).
* They leave pull requests and reviewers alone, however often and with whatever
  they come.  Users change by being taken into a new team, and by nothing else
  (`Database.OnlyEnlists`).

`Event.harmless_of_unprivileged` says what one event can do, and what many can
do follows by induction.

* `Desk.unprivileged_callers` — both.
-/

namespace ReviewRota

/-! ## What is seen -/

namespace Service

variable {α : Type} {service : Service α}

/-- Whatever is stored and whatever fails, the answer is the same. -/
def Composed.TellsNothing (hs : Composed service) : Prop :=
  ∀ (db other after otherAfter : Database) (r otherR : Except Error α),
    hs.Runs db r after → hs.Runs other otherR otherAfter → r = otherR

theorem Composed.TellsNothing.of_answer {hs : Composed service} {answer : Except Error α}
    (h : ∀ {db after : Database} {r : Except Error α}, hs.Runs db r after → r = answer) :
    hs.TellsNothing :=
  fun _ _ _ _ _ _ hrun hother => (h hrun).trans (h hother).symm

/-- In particular the answer does not depend on the database. -/
theorem Composed.TellsNothing.answer_eq {hs : Composed service} (h : hs.TellsNothing)
    (db other : Database) : (service db).1 = (service other).1 :=
  h _ _ _ _ _ _ (hs.runs_self db) (hs.runs_self other)

/-- A condition that does not hold leaves the runs of the other branch. -/
theorem Composed.Runs.of_ite {p : Prop} [d : Decidable p] {other : Service α}
    {hs : Composed service} {ho : Composed other} {db after : Database} {r : Except Error α}
    (h : (Composed.ite (p := p) hs ho).Runs db r after) (hp : ¬p) : ho.Runs db r after := by
  cases d with
  | isTrue hd => exact absurd hd hp
  | isFalse _ => exact h

/-- Who may not see a user's reviews is told that there are none, or that the
user is blank. -/
theorem Composed.tellsNothing_userReviews {caller : Caller} {user : String}
    (hhidden : caller.maySee user = false) : (composedUserReviews caller user).TellsNothing := by
  by_cases hblank : BlankText user
  · have hguard := Desk.requireTexts_cons_of_blank hblank "user_id" []
    refine .of_answer (fun {db after r} h => (?_ : r = .error (.blankField "user_id")))
    obtain ⟨e, ⟨hknown, _⟩, rfl⟩ | ⟨_, _, ⟨hknown, _⟩, _⟩ := h
    · exact congrArg _ (Except.error.inj (hknown.trans hguard))
    · exact nomatch hknown.trans hguard
  · have hguard := Desk.requireTexts_cons_of_not_blank hblank "user_id" []
    refine .of_answer (fun {db after r} h => (?_ : r = .ok ⟨user, []⟩))
    obtain ⟨e, ⟨hknown, _⟩, rfl⟩ | ⟨_, _, _, hrest⟩ := h
    · exact nomatch hknown.trans hguard
    · obtain ⟨e, ⟨hpure, _⟩, _⟩ | ⟨reviews, _, ⟨hpure, _⟩, hanswer, _⟩ :=
        Composed.Runs.of_ite hrest (by simp [hhidden])
      · exact nomatch hpure
      · rw [hanswer, Except.ok.inj hpure]

end Service

/-! ## What is done -/

/-- Who submits it, where that matters. -/
def Submission.caller? : Submission → Option Caller
  | .create caller .. | .reassign caller .. | .merge caller _ => some caller
  | .setActive caller _ | .userReviews caller _ => some caller
  | .addTeam _ | .team _ | .workload => none

/-- Nobody with the rights of an administrator submits it. -/
def Submission.Unprivileged (s : Submission) : Prop := ∀ c ∈ s.caller?, c.admin = false

/-- What can happen to a database that no administrator comes to, and that is
reached through the desk alone. -/
inductive Event.Unprivileged : Event → Prop where
  | submission (now : Int) {s : Submission} (h : s.Unprivileged) :
    Unprivileged (.request now (.submission s))
  | outage (tables : List Table) : Unprivileged (.outage tables)
  | lock (held : Bool) : Unprivileged (.lock held)

/-- The event is the creation of a team with that user among its members, and
it succeeds. -/
def Event.Enlists (e : Event) (db : Database) (id : String) : Prop :=
  ∃ now r team after, e = .request now (.submission (.addTeam r)) ∧
    id ∈ r.members.map NewMember.id ∧ Desk.addTeam r now db = (.ok team, after)

/-- The event leaves pull requests and reviewers alone, and it changes only
users whom it takes into a team. -/
structure Event.Harmless (e : Event) (db : Database) : Prop where
  pullRequests : (e.occur db).committed.pullRequests = db.committed.pullRequests
  links : (e.occur db).committed.links = db.committed.links
  users : ∀ id, (e.occur db).committed.user? id ≠ db.committed.user? id → e.Enlists db id

/-- What is for administrators is refused to others, in whatever form it is
answered. -/
theorem Desk.AdminOnly.refused {α β : Type} {caller : Caller} {fields : List (String × String)}
    {submission service : Service α} (h : AdminOnly caller fields submission service)
    (hadmin : caller.admin = false) (f : α → β) (db : Database) :
    ((do return f (← submission)) : Service β) db = (.error .adminRequired, db) := by
  rw [Attempt.bind_run, h.unauthorized hadmin db]

/-- A request for a team is refused and changes nothing, or the team is stored
and its members are taken into it. -/
theorem Desk.addTeam_cases (r : TeamRequest) (now : Int) (db : Database) :
    (∃ e, addTeam r now db = (.error e, db)) ∨
      ∃ team after, addTeam r now db = (.ok team, after) ∧
        after.committed =
          Store.withMembers r.name r.members (db.committed.withTeam ⟨r.name, now⟩) := by
  have hservice := Staffing.createTeam_allOrNothing db r.name r.members now
  obtain ⟨e, hrun⟩ | ⟨created, after, hrun, hdone⟩ := hservice.guarded (mayCreateTeam r)
  · exact Or.inl ⟨e, hrun⟩
  · refine Or.inr ⟨created, after, hrun, ?_⟩
    generalize after.committed = store at hdone
    cases hdone with
    | teamCreated _ _ hafter => exact hafter
    | looked hlooks => exact nomatch hlooks

namespace Event

/-- What leaves the database as it is does no harm. -/
theorem harmless_of_occur_eq {e : Event} {db : Database} (h : e.occur db = db) :
    e.Harmless db := by
  refine ⟨?_, ?_, fun id hid => ?_⟩
  · rw [h]
  · rw [h]
  · exact absurd (by rw [h]) hid

theorem harmless_addTeam (r : TeamRequest) (now : Int) (db : Database) :
    (request now (.submission (.addTeam r))).Harmless db := by
  obtain ⟨e, hrun⟩ | ⟨team, after, hrun, hafter⟩ := Desk.addTeam_cases r now db
  · apply harmless_of_occur_eq
    simp only [occur, Request.run, Submission.run, Attempt.bind_run, hrun]
  · have hoccur : (request now (.submission (.addTeam r))).occur db = after := by
      simp only [occur, Request.run, Submission.run, Attempt.bind_run, hrun]
      rfl
    refine ⟨?_, ?_, fun id hid => ⟨now, r, team, after, rfl, ?_, hrun⟩⟩
    · rw [hoccur, hafter, Store.pullRequests_withMembers]
      rfl
    · rw [hoccur, hafter, Store.links_withMembers]
      rfl
    · by_contra hnot
      rw [hoccur, hafter, Store.user?_withMembers_of_not_mem hnot] at hid
      exact hid rfl

/-- A submission that no administrator makes does no harm. -/
theorem harmless_submission {s : Submission} (h : s.Unprivileged) (now : Int) (db : Database) :
    (request now (.submission s)).Harmless db := by
  have reads (hreads : (Request.submission s).writes = false) :
      (request now (.submission s)).Harmless db := by
    obtain ⟨r, hrun⟩ := (Service.readOnly_composedRequest now hreads).run db.committed
    exact harmless_of_occur_eq (congrArg Prod.snd (hrun db rfl))
  have refused {α : Type} {caller : Caller} {fields : List (String × String)}
      {submission service : Service α} {f : α → Reply}
      (hguarded : Desk.AdminOnly caller fields submission service) (hcaller : caller ∈ s.caller?)
      (hrun : s.run now = do return f (← submission)) :
      (request now (.submission s)).Harmless db := by
    apply harmless_of_occur_eq
    rw [occur, Request.run, hrun, hguarded.refused (h caller hcaller)]
  cases s with
  | create caller r draw => exact refused (Desk.adminOnly_guarded ..) rfl rfl
  | reassign caller r draw => exact refused (Desk.adminOnly_guarded ..) rfl rfl
  | merge caller r => exact refused (Desk.adminOnly_guarded ..) rfl rfl
  | setActive caller r => exact refused (Desk.adminOnly_guarded ..) rfl rfl
  | addTeam r => exact harmless_addTeam r now db
  | team name => exact reads rfl
  | userReviews caller user => exact reads rfl
  | workload => exact reads rfl

/-- One event without an administrator does no harm. -/
theorem harmless_of_unprivileged {e : Event} (h : e.Unprivileged) (db : Database) :
    e.Harmless db := by
  cases h with
  | submission now h => exact harmless_submission h now db
  | outage tables => exact ⟨rfl, rfl, fun _ hid => absurd rfl hid⟩
  | lock held => exact ⟨rfl, rfl, fun _ hid => absurd rfl hid⟩

end Event

/-- After these events pull requests and reviewers are what they were, and
every user who is not was taken into a team by one of the events. -/
structure Database.OnlyEnlists (db : Database) (events : List Event) : Prop where
  pullRequests : (db.afterEvents events).committed.pullRequests = db.committed.pullRequests
  links : (db.afterEvents events).committed.links = db.committed.links
  users : ∀ id, (db.afterEvents events).committed.user? id ≠ db.committed.user? id →
    ∃ earlier e later, events = earlier ++ e :: later ∧ e.Enlists (db.afterEvents earlier) id

/-- A run without administrators does nothing but take users into teams. -/
theorem Database.onlyEnlists_of_unprivileged (db : Database) {events : List Event}
    (h : ∀ e ∈ events, e.Unprivileged) : db.OnlyEnlists events := by
  induction events generalizing db with
  | nil => exact ⟨rfl, rfl, fun _ hid => absurd rfl hid⟩
  | cons e rest ih =>
      have hstep := Event.harmless_of_unprivileged (h e List.mem_cons_self) db
      have hrest := ih (e.occur db) fun e he => h e (List.mem_cons_of_mem _ he)
      refine ⟨hrest.pullRequests.trans hstep.pullRequests, hrest.links.trans hstep.links,
        fun id hid => ?_⟩
      by_cases hfirst : (e.occur db).committed.user? id = db.committed.user? id
      · -- the first event does not change the user, so a later one does
        obtain ⟨earlier, x, later, rfl, hx⟩ := hrest.users id (hfirst ▸ hid)
        exact ⟨e :: earlier, x, later, rfl, hx⟩
      · exact ⟨[], e, rest, rfl, hstep.users id hfirst⟩

/-! ## Both -/

/-- **Callers without the rights of an administrator** see nothing of the
reviews of others, and at no point of any run of theirs, from whatever
database, have they done more than take users into new teams. -/
theorem Desk.unprivileged_callers :
    (∀ (caller : Caller) (user : String), caller.admin = false → caller.id ≠ user →
      (∀ db other, (userReviews caller user db).1 = (userReviews caller user other).1) ∧
        (Service.composedUserReviews caller user).TellsNothing) ∧
    ∀ (db : Database) (events : List Event), (∀ e ∈ events, e.Unprivileged) →
      ∀ sofar, sofar <+: events → db.OnlyEnlists sofar := by
  constructor
  · intro caller user hadmin hother
    have hhidden : caller.maySee user = false := by
      rw [← Bool.not_eq_true, Caller.maySee_iff]
      simp [hadmin, hother]
    have htells := Service.Composed.tellsNothing_userReviews hhidden
    exact ⟨htells.answer_eq, htells⟩
  · intro db events hevents sofar hsofar
    exact db.onlyEnlists_of_unprivileged fun e he => hevents e (hsofar.subset he)

/-- Ann asks for what Bob reviews and may not know, tries to make Bob inactive,
and takes him into a team of hers. -/
theorem Desk.unprivileged_callers_ann :
    let ann : Caller := ⟨"ann", false⟩
    let user (id : String) (team : Option String) : User := ⟨id, id, team, true⟩
    let store : Store := {
      teams := [⟨"core", 1⟩]
      users := [user "ann" (some "core"), user "bob" (some "core")]
      pullRequests := [⟨"p1", "Fix", "ann", .merged, 5, some 6⟩]
      links := [⟨"p1", "bob", 5⟩] }
    let db : Database := ⟨store, 3, false⟩
    let events : List Event := [.request 7 (.submission (.setActive ann ⟨"bob", false⟩)),
      .request 8 (.submission (.addTeam ⟨"new", [⟨"bob", "Bob", true⟩]⟩))]
    ann.admin = false ∧ ann.id ≠ "bob" ∧
      (userReviews ann "bob" db).1 = (userReviews ann "bob" {}).1 ∧
      (userReviews ⟨"bob", false⟩ "bob" db).1 ≠ (userReviews ⟨"bob", false⟩ "bob" {}).1 ∧
      (∀ e ∈ events, e.Unprivileged) ∧
      (db.afterEvents events).committed.user? "bob" = some ⟨"bob", "Bob", some "new", true⟩ ∧
      db.OnlyEnlists events := by
  intro ann user store db events
  have hadmin : ann.admin = false := rfl
  have hother : ann.id ≠ "bob" := by decide
  have hevents : ∀ e ∈ events, e.Unprivileged := by
    simp only [events, List.mem_cons, List.not_mem_nil, or_false, forall_eq_or_imp, forall_eq]
    refine ⟨.submission 7 fun c hc => ?_, .submission 8 fun c hc => ?_⟩
    · exact Option.some.inj hc ▸ hadmin
    · exact nomatch hc
  exact ⟨hadmin, hother, (unprivileged_callers.1 ann "bob" hadmin hother).1 db {},
    by decide +kernel, hevents, by decide +kernel,
    unprivileged_callers.2 db events hevents events (List.prefix_refl events)⟩

end ReviewRota
