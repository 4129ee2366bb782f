import ReviewRota.Proofs.Confined
import ReviewRota.Proofs.Contexts

/-!
# ReviewRota.Proofs.Commuting

Operations on different pull requests commute.  Each operation that is about
a pull request is one unit of work, whose scope is confined to it: the
candidates for its reviewers are told by the users, the checks and the
writes by its own rows.

* `Gateway.Composed.ConfinedTo` — scopes that are about one pull request;
* `Operation.subject?` — the pull request that an operation is about;
* `Operation.runs_confined` — what such an operation answers and commits is
  that of a confined attempt on the committed store;
* `Operation.run_commute` — two of them, in either order.
-/

namespace ReviewRota

namespace Gateway

/-! ## Scopes about one pull request -/

variable {α β : Type} {id : String}

/-- What the attempt does on stores is confined to a pull request. -/
def Composed.ConfinedTo (id : String) {g : Gateway α} (hg : Composed g) : Prop :=
  Confined id hg.effect

namespace Composed

theorem confinedTo_pure (a : α) : (Composed.pure a).ConfinedTo id := .ofExcept (.ok a)

theorem confinedTo_fail (e : Error) :
    (Composed.fail e : Composed (Attempt.fail e : Gateway α)).ConfinedTo id :=
  .ofExcept (.error e)

theorem confinedTo_bind {g : Gateway α} {next : α → Gateway β} {hg : Composed g}
    {hnext : ∀ a, Composed (next a)} (h : hg.ConfinedTo id)
    (h' : ∀ a s, (hg.effect s).1 = .ok a → (hnext a).ConfinedTo id) :
    (Composed.bind hg hnext).ConfinedTo id := Confined.bind h h'

theorem confinedTo_withinSavepoint {name key : String} {scope : Gateway α}
    (hname : readSavepoint? name = some (key, false)) {hscope : Composed scope}
    (h : hscope.ConfinedTo id) : (Composed.withinSavepoint hname hscope).ConfinedTo id :=
  Confined.reverting h

theorem confinedTo_ite {p : Prop} [d : Decidable p] {g h : Gateway α} {hg : Composed g}
    {hh : Composed h} (hyes : hg.ConfinedTo id) (hno : hh.ConfinedTo id) :
    (Composed.ite (p := p) hg hh).ConfinedTo id := by
  cases d with
  | isTrue _ => exact hyes
  | isFalse _ => exact hno

theorem confinedTo_orFail (value : Option α) (e : Error) :
    (Composed.orFail value e).ConfinedTo id := by
  cases value with
  | none => exact confinedTo_fail e
  | some a => exact confinedTo_pure a

end Composed

open Composed

/-! ### Users -/

/-- Users are looked up apart from all pull requests. -/
theorem Users.confined_get (user : String) : (composedGet user).ConfinedTo id :=
  confinedTo_bind (.reading _ _ fun _ => rfl) fun found _ _ => confinedTo_orFail found _

/-- The candidates are told by the users alone. -/
theorem confined_choice (team : Option String) (excluded : List String) (count : Nat)
    (draw : Draw) : (composedChoice excluded count draw team).ConfinedTo id := by
  cases team with
  | none => exact confinedTo_pure []
  | some team =>
      have hask : (Users.composedActiveExcept team excluded).ConfinedTo id :=
        confinedTo_ite (confinedTo_fail _) (.reading _ _ fun _ => rfl)
      exact confinedTo_bind hask fun _ _ _ => confinedTo_pure _

/-! ### The pull request -/

namespace PullRequests

theorem confined_isThere (id : String) : (composedIsThere id).ConfinedTo id :=
  Confined.reading _ _ fun s => by
    show ((s.about id).record? id).isSome = (s.record? id).isSome
    rw [Store.record?_about]

theorem confined_get (id : String) : (composedGet id).ConfinedTo id := by
  refine confinedTo_bind (.reading _ _ fun s => ?_) fun found _ _ => confinedTo_orFail found _
  show ((s.about id).record? id).map (s.about id).assemble = (s.record? id).map s.assemble
  rw [Store.record?_about]
  cases hthere : s.record? id with
  | none => rfl
  | some r =>
      obtain ⟨_, rfl⟩ := Store.mem_of_record?_eq_some hthere
      simp [Store.assemble]

/-- What is found under an identifier has it. -/
theorem id_of_effect_get {s : Store} {p : PullRequest}
    (h : ((composedGet id).effect s).1 = .ok p) : p.id = id := by
  have hrun : (composedGet id).effect s =
      (Store.reading "pull_requests.get_by_id" id (Statement.PullRequests.byId id) >>=
        fun found => (Composed.orFail found (.notFound .pullRequest id)).effect) s := rfl
  have hanswer : (Statement.PullRequests.byId id).answer s = (s.record? id).map s.assemble := rfl
  rw [hrun, Attempt.bind_run, Store.reading, hanswer] at h
  cases hready : (Statement.PullRequests.byId id).ready s with
  | false =>
      rw [hready] at h
      exact nomatch h
  | true =>
      rw [hready] at h
      cases hthere : s.record? id with
      | none =>
          rw [hthere] at h
          exact nomatch h
      | some r =>
          rw [hthere] at h
          obtain rfl : s.assemble r = p := Except.ok.inj h
          exact (Store.mem_of_record?_eq_some hthere).2

theorem confined_create (p : NewPullRequest) (reviewers : List String) :
    (composedCreate p reviewers).ConfinedTo p.id := by
  refine confinedTo_withinSavepoint _ (confinedTo_bind ?_ fun _ _ _ => ?_)
  · exact Confined.writing _ _ _ (Statement.PullRequests.confined_insert p)
  · induction reviewers with
    | nil => exact confinedTo_pure ()
    | cons reviewer rest ih =>
        have hlink := Statement.PullRequests.confined_insertLink p.id reviewer p.createdAt
        exact confinedTo_bind (.writing _ _ _ hlink) fun _ _ _ => ih

theorem confined_setStatus (id : String) (status : Status) (time : Int) :
    (composedSetStatus id status time).ConfinedTo id := by
  have hstatus := Statement.PullRequests.confined_setStatus id status time
  exact confinedTo_bind (.writing _ _ _ hstatus) fun _ _ _ =>
    confinedTo_ite (confinedTo_fail _) (confinedTo_pure _)

theorem confined_replaceReviewer (id old new : String) (time : Int) :
    (composedReplaceReviewer id old new time).ConfinedTo id := by
  have hdelete := Statement.PullRequests.confined_deleteLink id old
  have hinsert := Statement.PullRequests.confined_insertLink id new time
  have hremove : (composedRemoveReviewer id old).ConfinedTo id :=
    confinedTo_bind (.writing _ _ _ hdelete) fun _ _ _ =>
      confinedTo_ite (confinedTo_fail _) (confinedTo_pure _)
  exact confinedTo_withinSavepoint _ <|
    confinedTo_bind hremove fun _ _ _ => .writing _ _ _ hinsert

end PullRequests

/-! ### The scopes -/

theorem confined_createScope (id title author : String) (now : Int) (draw : Draw) :
    (composedCreateScope id title author now draw).ConfinedTo id := by
  refine confinedTo_bind (PullRequests.confined_isThere id) fun _ _ _ =>
    confinedTo_ite (confinedTo_fail _) ?_
  refine confinedTo_bind (Users.confined_get author) fun writer _ _ => ?_
  refine confinedTo_bind (confined_choice writer.team _ _ draw) fun reviewers _ _ => ?_
  have hcreate := PullRequests.confined_create ⟨id, title, author, now⟩ (reviewers.map User.id)
  exact confinedTo_bind hcreate fun _ _ _ => confinedTo_pure _

theorem confined_reassignScope (id old : String) (now : Int) (draw : Draw) :
    (composedReassignScope id old now draw).ConfinedTo id := by
  refine confinedTo_bind (PullRequests.confined_get id) fun p _ hfound => ?_
  obtain rfl := PullRequests.id_of_effect_get hfound
  refine confinedTo_ite (confinedTo_fail _) (confinedTo_ite (confinedTo_fail _) ?_)
  refine confinedTo_bind (Users.confined_get old) fun reviewer _ _ => ?_
  refine confinedTo_bind (confined_choice reviewer.team _ _ draw) fun candidates _ _ => ?_
  cases candidates with
  | nil => exact confinedTo_fail _
  | cons new _ =>
      exact confinedTo_bind (PullRequests.confined_replaceReviewer _ _ _ _) fun _ _ _ =>
        confinedTo_bind (PullRequests.confined_get _) fun _ _ _ => confinedTo_pure _

theorem confined_mergeScope (id : String) (now : Int) :
    (composedMergeScope id now).ConfinedTo id := by
  refine confinedTo_bind (PullRequests.confined_get id) fun p _ hfound => ?_
  obtain rfl := PullRequests.id_of_effect_get hfound
  exact confinedTo_ite (confinedTo_pure _) <|
    confinedTo_bind (PullRequests.confined_setStatus _ _ _) fun _ _ _ => confinedTo_pure _

end Gateway

/-! ## Operations about one pull request -/

/-- The pull request that an operation creates, reassigns or merges. -/
def Operation.subject? : Operation → Option String
  | .create id .. | .reassign id .. | .merge id => some id
  | _ => none

namespace Service

variable {α β : Type}

/-- On every database whose lock is free, the service answers and commits
what an attempt confined to the pull request does to the committed store. -/
def RunsConfined (id : String) (service : Service α) : Prop :=
  ∃ f : Attempt Store α, Confined id f ∧ ∀ db : Database, db.locked = false →
    Leaves service db (f db.committed).1 (f db.committed).2

theorem RunsConfined.unitOfWork {id : String} {scope : Gateway α}
    {hscope : Gateway.Composed scope} (h : hscope.ConfinedTo id) (operation : String) :
    RunsConfined id (unitOfWork operation scope) := by
  refine ⟨hscope.effect.reverting, h.reverting, fun db hfree => ?_⟩
  have hleaves := leaves_unitOfWork hscope.does hfree operation
  have hanswer : (hscope.effect.reverting db.committed).1 = (hscope.effect db.committed).1 := by
    rw [Attempt.reverting]
    cases hscope.effect db.committed with
    | mk result after => cases result <;> rfl
  rwa [hanswer]

theorem RunsConfined.map {id : String} {service : Service α} (h : RunsConfined id service)
    (k : α → β) : RunsConfined id (do return k (← service)) := by
  obtain ⟨f, hf, hruns⟩ := h
  refine ⟨do return k (← f), hf.bind fun a _ _ => .ofExcept (.ok (k a)), fun db hfree => ?_⟩
  obtain ⟨after, hrun, hstore, hunlocked⟩ := hruns db hfree
  rw [Leaves, Attempt.bind_run, Attempt.bind_run, hrun]
  cases hresult : f db.committed with
  | mk result store =>
      rw [hresult] at hstore
      cases result with
      | error e => exact ⟨after, rfl, hstore, hunlocked⟩
      | ok a => exact ⟨after, rfl, hstore, hunlocked⟩

end Service

namespace Operation

open Service

/-- An operation about a pull request is a unit of work confined to it. -/
theorem runs_confined {o : Operation} {id : String} (h : o.subject? = some id) (now : Int) :
    RunsConfined id (o.run now) := by
  cases o with
  | create id title author draw =>
      obtain rfl := Option.some.inj h
      exact (RunsConfined.unitOfWork
        (Gateway.confined_createScope id title author now draw) _).map _
  | reassign id old draw =>
      obtain rfl := Option.some.inj h
      exact (RunsConfined.unitOfWork (Gateway.confined_reassignScope id old now draw) _).map _
  | merge id =>
      obtain rfl := Option.some.inj h
      exact (RunsConfined.unitOfWork (Gateway.confined_mergeScope id now) _).map _
  | _ => exact nomatch h

/-- **Operations on different pull requests commute**: each answers the same,
whichever of the two runs first, and the committed store is the same in the
end. -/
theorem run_commute {db : Database} (hs : db.committed.Sound .immediate) {a b : Operation}
    {p q : String} (ha : a.subject? = some p) (hb : b.subject? = some q) (hne : p ≠ q)
    (now : Int) :
    (a.run now db).1 = (a.run now (b.run now db).2).1 ∧
      (b.run now (a.run now db).2).1 = (b.run now db).1 ∧
      (b.run now (a.run now db).2).2.committed = (a.run now (b.run now db).2).2.committed := by
  cases hfree : db.locked with
  | true =>
      -- nothing is written at all
      have hleft : (a.run now db).2 = db := (Request.operation a).run_of_locked now hfree
      have hright : (b.run now db).2 = db := (Request.operation b).run_of_locked now hfree
      rw [hleft, hright]
      exact ⟨rfl, rfl, congrArg Database.committed hleft.symm⟩
  | false =>
      obtain ⟨f, hf, hrunA⟩ := runs_confined ha now
      obtain ⟨g, hg, hrunB⟩ := runs_confined hb now
      obtain ⟨first, ha₁, hfirst, hfree₁⟩ := hrunA db hfree
      obtain ⟨other, hb₁, hother, hfree₂⟩ := hrunB db hfree
      obtain ⟨left, hb₂, hleft, _⟩ := hrunB first hfree₁
      obtain ⟨right, ha₂, hright, _⟩ := hrunA other hfree₂
      rw [ha₁, hb₁, ha₂, hb₂, hfirst, hother]
      refine ⟨?_, ?_, ?_⟩
      · exact (hg.answer_after hne hf hs).symm
      · exact hf.answer_after hne.symm hg hs
      · rw [hleft, hright, hfirst, hother]
        exact hf.commute hne.symm hg hs

/-- A reassignment and a creation that choose from one team. -/
theorem run_commute_oneTeam :
    let user (id : String) : User := ⟨id, id, some "core", true⟩
    let store : Store := {
      teams := [⟨"core", 1⟩]
      users := [user "u1", user "u2", user "u3"]
      pullRequests := [⟨"p1", "Fix", "u1", .opened, 5, none⟩]
      links := [⟨"p1", "u2", 5⟩] }
    let db : Database := ⟨store, 3, false⟩
    let a : Operation := .reassign "p1" "u2" Draw.still
    let b : Operation := .create "p0" "New" "u3" Draw.still
    let after := (b.run 9 (a.run 9 db).2).2.committed
    store.Sound .immediate ∧
      after.links = [⟨"p0", "u1", 9⟩, ⟨"p0", "u2", 9⟩, ⟨"p1", "u3", 9⟩] ∧
      (a.run 9 db).1 = (a.run 9 (b.run 9 db).2).1 ∧
      (b.run 9 (a.run 9 db).2).1 = (b.run 9 db).1 ∧
      after = (a.run 9 (b.run 9 db).2).2.committed := by
  intro user store db a b after
  have hs : store.Sound .immediate := by decide +kernel
  have hne : "p1" ≠ "p0" := by decide
  exact ⟨hs, by decide +kernel, run_commute hs rfl rfl hne 9⟩

end Operation

end ReviewRota
