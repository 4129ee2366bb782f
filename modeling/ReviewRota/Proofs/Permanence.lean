import ReviewRota.Proofs.History

/-!
# ReviewRota.Proofs.Permanence

What is stored stays stored, and only the operation for it changes it: a new
team changes the users that it lists, setting an active flag changes that flag,
and a replacement changes the reviewers of its pull request.  Teams, and the
titles, authors and creation times of pull requests, never change.

* `Store.Keeps` — what a later store keeps of an earlier one, given the
  operations that succeeded in between;
* `Operation.Done.keeps` — after one operation;
* `Database.nothing_lost` — after anything that happens.
-/

namespace ReviewRota

/-! ## What operations are for -/

namespace Operation

/-- The operation takes that user into a new team. -/
def Enlists (id : String) : Operation → Prop
  | .createTeam _ members => id ∈ members.map NewMember.id
  | _ => False

/-- The operation sets the active flag of that user. -/
def SetsActive (id : String) : Operation → Prop
  | .setActive other _ => other = id
  | _ => False

/-- The operation replaces a reviewer of that pull request. -/
def Reassigns (id : String) : Operation → Prop
  | .reassign other _ _ => other = id
  | _ => False

end Operation

/-! ## What is kept -/

namespace Store

/-- Nothing of `s` is lost in `after`, and what none of the operations `done` is
for is the same there. -/
structure Keeps (s after : Store) (done : List Operation) : Prop where
  teams : ∀ {name : String} {t : TeamRecord}, s.team? name = some t → after.team? name = some t
  users : ∀ {id : String} {u : User}, s.user? id = some u → ∃ v, after.user? id = some v ∧
    ((∀ o ∈ done, ¬o.Enlists id) → v.name = u.name ∧ v.team = u.team ∧
      ((∀ o ∈ done, ¬o.SetsActive id) → v.active = u.active))
  pullRequests : ∀ {id : String} {r : PullRequestRecord}, s.record? id = some r →
    ∃ r', after.record? id = some r' ∧
      r'.title = r.title ∧ r'.author = r.author ∧ r'.createdAt = r.createdAt
  links : ∀ {id : String}, (s.record? id).isSome → (∀ o ∈ done, ¬o.Reassigns id) →
    after.linksOf id = s.linksOf id

variable {s middle after : Store} {done more : List Operation}

namespace Keeps

/-- A store keeps what is in its tables. -/
theorem of_tables (hteams : after.teams = s.teams) (husers : after.users = s.users)
    (hrecords : after.pullRequests = s.pullRequests) (hlinks : after.links = s.links) :
    s.Keeps after done where
  teams {name t} ht := by
    rw [team?, hteams]
    exact ht
  users {id u} hu := by
    refine ⟨u, ?_, fun _ => ⟨rfl, rfl, fun _ => rfl⟩⟩
    rw [user?, husers]
    exact hu
  pullRequests {id r} hr := ⟨r, (record?_congr hrecords id).trans hr, rfl, rfl, rfl⟩
  links {id} _ _ := linksOf_congr hlinks id

/-- What is kept twice in a row is kept. -/
theorem trans (h : s.Keeps middle done) (h' : middle.Keeps after more) :
    s.Keeps after (done ++ more) where
  teams ht := h'.teams (h.teams ht)
  users {id u} hu := by
    obtain ⟨v, hv, hfirst⟩ := h.users hu
    obtain ⟨w, hw, hthen⟩ := h'.users hv
    refine ⟨w, hw, fun hnone => ?_⟩
    rw [List.forall_mem_append] at hnone
    obtain ⟨hname, hteam, hactive⟩ := hfirst hnone.1
    obtain ⟨hname', hteam', hactive'⟩ := hthen hnone.2
    refine ⟨hname'.trans hname, hteam'.trans hteam, fun hset => ?_⟩
    rw [List.forall_mem_append] at hset
    exact (hactive' hset.2).trans (hactive hset.1)
  pullRequests hr := by
    obtain ⟨r', hr', htitle, hauthor, htime⟩ := h.pullRequests hr
    obtain ⟨r'', hr'', htitle', hauthor', htime'⟩ := h'.pullRequests hr'
    exact ⟨r'', hr'', htitle'.trans htitle, hauthor'.trans hauthor, htime'.trans htime⟩
  links {id} hthere hnone := by
    rw [List.forall_mem_append] at hnone
    obtain ⟨r, hr⟩ := Option.isSome_iff_exists.mp hthere
    obtain ⟨r', hr', _⟩ := h.pullRequests hr
    exact (h'.links (by simp [hr']) hnone.2).trans (h.links hthere hnone.1)

end Keeps

/-! ## One operation -/

theorem keeps_withPullRequest {p : NewPullRequest} (reviewers : List String)
    (hnew : s.record? p.id = none) : s.Keeps (s.withPullRequest p reviewers) done := by
  have hother {id : String} {r : PullRequestRecord} (hr : s.record? id = some r) : id ≠ p.id := by
    rintro rfl
    exact nomatch hnew.symm.trans hr
  constructor
  case teams => exact fun ht => ht
  case users => exact fun hu => ⟨_, hu, fun _ => ⟨rfl, rfl, fun _ => rfl⟩⟩
  case pullRequests =>
    intro id r hr
    exact ⟨r, (record?_withPullRequest_of_ne reviewers (hother hr)).trans hr, rfl, rfl, rfl⟩
  case links =>
    intro id hthere _
    obtain ⟨r, hr⟩ := Option.isSome_iff_exists.mp hthere
    exact linksOf_withPullRequest_of_ne reviewers (hother hr)

/-- A replacement is for the reviewers of its pull request. -/
theorem keeps_withReplacement (id old new : String) (time : Int) (draw : Draw) :
    s.Keeps (s.withReplacement id old new time) [.reassign id old draw] where
  teams ht := ht
  users hu := ⟨_, hu, fun _ => ⟨rfl, rfl, fun _ => rfl⟩⟩
  pullRequests hr := ⟨_, hr, rfl, rfl, rfl⟩
  links {other} _ hnone := by
    have hother : ¬id = other := hnone _ (List.mem_singleton_self _)
    exact linksOf_withReplacement_of_ne (Ne.symm hother)

theorem keeps_withMerged (id : String) (time : Int) : s.Keeps (s.withMerged id time) done where
  teams ht := ht
  users hu := ⟨_, hu, fun _ => ⟨rfl, rfl, fun _ => rfl⟩⟩
  pullRequests {other r} hr := by
    refine ⟨_, (record?_withMerged s id time other).trans (congrArg _ hr), ?_⟩
    dsimp only
    split <;> exact ⟨rfl, rfl, rfl⟩
  links _ _ := rfl

/-- A new team is for the users that it lists. -/
theorem keeps_withMembers {name : String} (hnew : s.team? name = none) (members : List NewMember)
    (time : Int) :
    s.Keeps (withMembers name members (s.withTeam ⟨name, time⟩)) [.createTeam name members] where
  teams {other t} ht := by
    have hother : other ≠ name := by
      rintro rfl
      exact nomatch hnew.symm.trans ht
    rw [team?, teams_withMembers]
    exact (team?_withTeam_of_ne hother).trans ht
  users {id u} hu := by
    have hbefore : (s.withTeam ⟨name, time⟩).user? id = some u := hu
    have hthere : ((s.withTeam ⟨name, time⟩).user? id).isSome := by rw [hbefore, Option.isSome_some]
    obtain ⟨v, hv⟩ := Option.isSome_iff_exists.mp (isSome_user?_withMembers hthere)
    refine ⟨v, hv, fun hnone => ?_⟩
    have hunlisted : id ∉ members.map NewMember.id := hnone _ (List.mem_singleton_self _)
    rw [user?_withMembers_of_not_mem hunlisted, hbefore] at hv
    obtain rfl := Option.some.inj hv
    exact ⟨rfl, rfl, fun _ => rfl⟩
  pullRequests {id r} hr :=
    ⟨r, (record?_congr (pullRequests_withMembers _ _ _) id).trans hr, rfl, rfl, rfl⟩
  links {id} _ _ := linksOf_congr (links_withMembers _ _ _) id

/-- Setting an active flag is for this flag alone. -/
theorem keeps_withActivity {id : String} {u : User} (hthere : s.user? id = some u)
    (active : Bool) :
    s.Keeps (s.withUser { u with active := active }) [.setActive id active] where
  teams ht := ht
  users {other v} hv := by
    obtain ⟨_, rfl⟩ := mem_of_user?_eq_some hthere
    by_cases hother : other = u.id
    · subst hother
      obtain rfl := Option.some.inj (hthere.symm.trans hv)
      refine ⟨_, (user?_withUser s _ u.id).trans (if_pos rfl), fun _ => ⟨rfl, rfl, fun hset => ?_⟩⟩
      exact absurd rfl (hset _ (List.mem_singleton_self _))
    · exact ⟨v, (user?_withUser s _ other).trans ((if_neg hother).trans hv),
        fun _ => ⟨rfl, rfl, fun _ => rfl⟩⟩
  pullRequests hr := ⟨_, hr, rfl, rfl, rfl⟩
  links _ _ := rfl

end Store

/-- An operation that is done keeps everything that it is not for. -/
theorem Operation.Done.keeps {now : Int} {s after : Store} {o : Operation} {reply : Reply}
    (h : o.Done now s reply after) : s.Keeps after [o] := by
  cases h with
  | created hauthor hnew hreviewers => exact Store.keeps_withPullRequest _ hnew
  | reassigned hthere hopen hreviews hold hdrawn hafter =>
      subst hafter
      exact Store.keeps_withReplacement _ _ _ _ _
  | merged hthere hopen => exact Store.keeps_withMerged _ _
  | mergedBefore hthere hmerged => exact .of_tables rfl rfl rfl rfl
  | teamCreated hnew hfree hafter =>
      subst hafter
      exact Store.keeps_withMembers hnew _ _
  | activitySet hthere => exact Store.keeps_withActivity hthere _
  | looked hlooks => exact .of_tables rfl rfl rfl rfl

/-! ## Anything that happens -/

/-- The operation that an event has done, if it is a request that
succeeds. -/
def Event.done? (e : Event) (db : Database) : Option Operation :=
  match e with
  | .request now r =>
    match (r.run now db).1 with
    | .ok _ => r.operation?
    | .error _ => none
  | .outage _ | .lock _ => none

/-- The operations that have been done when these events have occurred, the
earliest first. -/
def Database.doneBy (db : Database) : List Event → List Operation
  | [] => []
  | e :: rest => (e.done? db).toList ++ (e.occur db).doneBy rest

theorem Event.keeps (e : Event) (db : Database) :
    db.committed.Keeps (e.occur db).committed (e.done? db).toList := by
  obtain ⟨tables, hstore⟩ | ⟨now, req, o, reply, rfl, ho, hrun, hdone⟩ := e.occur_cases db
  · rw [hstore]
    exact .of_tables rfl rfl rfl rfl
  · have hthis : (Event.request now req).done? db = some o := by
      rw [done?, hrun]
      exact ho
    rw [hthis]
    exact hdone.keeps

/-- **Permanence**: whatever happens, nothing that is stored is lost, and what is
different afterwards goes back to an operation for it that succeeded in
between. -/
theorem Database.nothing_lost (db : Database) (events : List Event) :
    db.committed.Keeps (db.afterEvents events).committed (db.doneBy events) := by
  induction events generalizing db with
  | nil => exact .of_tables rfl rfl rfl rfl
  | cons e rest ih => exact (e.keeps db).trans (ih (e.occur db))

end ReviewRota
