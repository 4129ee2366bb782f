import Mathlib.Data.List.Nodup
import ReviewRota.Desk

/-!
# ReviewRota.Proofs.Guards

The guards of the desk, said without their text, and what stands behind them.

A guard looks at the caller and at the request and never at the store.  So a
submission that it refuses is refused with the same error on every database
and leaves it alone; any other is the operation behind it, and nothing else
(`Desk.Filled`, `Desk.AdminOnly`, `Desk.Enrols`).

Which error it is is the first one in the order in which the request is read:

* `Desk.requireTexts_of_firstBlank` — the first blank field;
* `Desk.requireMembers_eq_error_iff` — the first flaw of a list of members,
  where a member has its flaw behind those listed before it.

That the desk refuses exactly the flawed requests for a team needs one more
fact: the operation behind it never calls its input invalid
(`Staffing.accepts_createTeam`).

* `Desk.behind_guards` — all of this together.
-/

namespace ReviewRota

/-! ## Blank text -/

/-- A text of white space only; the empty text is one. -/
def BlankText (s : String) : Prop := ∀ c ∈ s.toList, isBlank c = true

theorem isBlankText_iff {s : String} : isBlankText s = true ↔ BlankText s := List.all_eq_true

instance (s : String) : Decidable (BlankText s) := decidable_of_iff _ isBlankText_iff

/-- A field of that name is the first blank one; each field is its value with
its name. -/
def FirstBlank (fields : List (String × String)) (name : String) : Prop :=
  ∃ before value after, fields = before ++ (value, name) :: after ∧
    (∀ f ∈ before, ¬BlankText f.1) ∧ BlankText value

/-! ## Lists of members -/

/-- What is wrong with a member who is listed behind others with these
identifiers. -/
inductive NewMember.Flaw (m : NewMember) (earlier : List String) : Error → Prop where
  | blankId (h : BlankText m.id) : Flaw m earlier (.blankField "user_id")
  | blankName (hid : ¬BlankText m.id) (h : BlankText m.name) :
      Flaw m earlier (.blankField "username")
  | repeated (hid : ¬BlankText m.id) (hname : ¬BlankText m.name) (h : m.id ∈ earlier) :
      Flaw m earlier (.duplicateMember m.id)

/-- No member has a flaw, listed behind others with these identifiers. -/
structure Flawless (earlier : List String) (members : List NewMember) : Prop where
  named : ∀ m ∈ members, ¬BlankText m.id ∧ ¬BlankText m.name
  fresh : ∀ m ∈ members, m.id ∉ earlier
  distinct : (members.map NewMember.id).Nodup

theorem flawless_nil (earlier : List String) : Flawless earlier [] :=
  ⟨by simp, by simp, List.nodup_nil⟩

theorem flawless_cons {earlier : List String} {m : NewMember} {rest : List NewMember} :
    Flawless earlier (m :: rest) ↔
      (¬BlankText m.id ∧ ¬BlankText m.name ∧ m.id ∉ earlier) ∧ Flawless (m.id :: earlier) rest := by
  constructor
  · intro h
    have hfirst := h.named m List.mem_cons_self
    have hdistinct := List.nodup_cons.mp h.distinct
    refine ⟨⟨hfirst.1, hfirst.2, h.fresh m List.mem_cons_self⟩, ?_, fun n hn => ?_, hdistinct.2⟩
    · exact fun n hn => h.named n (List.mem_cons_of_mem m hn)
    · rw [List.mem_cons, not_or]
      refine ⟨fun hid => hdistinct.1 ?_, h.fresh n (List.mem_cons_of_mem m hn)⟩
      exact hid ▸ List.mem_map_of_mem hn
  · rintro ⟨⟨hid, hname, hfresh⟩, h⟩
    refine ⟨fun n hn => ?_, fun n hn => ?_, List.nodup_cons.mpr ⟨fun hmem => ?_, h.distinct⟩⟩
    · obtain rfl | hn := List.mem_cons.mp hn
      · exact ⟨hid, hname⟩
      · exact h.named n hn
    · obtain rfl | hn := List.mem_cons.mp hn
      · exact hfresh
      · exact fun hmem => h.fresh n hn (List.mem_cons_of_mem _ hmem)
    · obtain ⟨n, hn, hsame⟩ := List.mem_map.mp hmem
      exact h.fresh n hn (hsame ▸ List.mem_cons_self)

/-- The first flaw in a list of members, read behind others with these
identifiers. -/
def FirstFlaw (earlier : List String) (members : List NewMember) (e : Error) : Prop :=
  ∃ before m after, members = before ++ m :: after ∧ Flawless earlier before ∧
    m.Flaw (earlier ++ before.map NewMember.id) e

/-- What is wrong with a request for a team. -/
inductive TeamRequest.Flaw (r : TeamRequest) : Error → Prop where
  | blankName (h : BlankText r.name) : Flaw r (.blankField "team_name")
  | members {e : Error} (hname : ¬BlankText r.name) (h : FirstFlaw [] r.members e) : Flaw r e

/-- Nothing is wrong with a request for a team. -/
structure TeamRequest.Proper (r : TeamRequest) : Prop where
  named : ¬BlankText r.name
  flawless : Flawless [] r.members

/-- A request is not proper if something is blank or somebody is listed
twice. -/
theorem TeamRequest.not_proper_iff {r : TeamRequest} :
    ¬r.Proper ↔ BlankText r.name ∨ (∃ m ∈ r.members, BlankText m.id ∨ BlankText m.name) ∨
      ¬(r.members.map NewMember.id).Nodup := by
  constructor
  · intro h
    by_contra hnone
    simp only [not_or, not_exists, not_and, not_not] at hnone
    exact h ⟨hnone.1, hnone.2.1, by simp, hnone.2.2⟩
  · rintro (h | ⟨m, hm, h⟩ | h) hproper
    · exact hproper.named h
    · exact h.elim (hproper.flawless.named m hm).1 (hproper.flawless.named m hm).2
    · exact h hproper.flawless.distinct

theorem NewMember.flaw_iff {m : NewMember} {earlier : List String} {e : Error} :
    m.Flaw earlier e ↔
      BlankText m.id ∧ e = .blankField "user_id" ∨
      ¬BlankText m.id ∧ BlankText m.name ∧ e = .blankField "username" ∨
      ¬BlankText m.id ∧ ¬BlankText m.name ∧ m.id ∈ earlier ∧ e = .duplicateMember m.id := by
  constructor
  · intro h
    cases h with
    | blankId h => exact Or.inl ⟨h, rfl⟩
    | blankName hid h => exact Or.inr (Or.inl ⟨hid, h, rfl⟩)
    | repeated hid hname h => exact Or.inr (Or.inr ⟨hid, hname, h, rfl⟩)
  · rintro (⟨h, rfl⟩ | ⟨hid, h, rfl⟩ | ⟨hid, hname, h, rfl⟩)
    · exact .blankId h
    · exact .blankName hid h
    · exact .repeated hid hname h

/-- Of those listed before only the identifiers matter, in whatever order. -/
theorem NewMember.Flaw.congr {m : NewMember} {earlier others : List String} {e : Error}
    (h : m.Flaw earlier e) (hsame : m.id ∈ earlier → m.id ∈ others) : m.Flaw others e := by
  cases h with
  | blankId h => exact .blankId h
  | blankName hid h => exact .blankName hid h
  | repeated hid hname h => exact .repeated hid hname (hsame h)

/-- The first flaw is that of the first member, or else the first one behind
it. -/
theorem firstFlaw_cons {earlier : List String} {m : NewMember} {rest : List NewMember} {e : Error} :
    FirstFlaw earlier (m :: rest) e ↔
      m.Flaw earlier e ∨
        (¬BlankText m.id ∧ ¬BlankText m.name ∧ m.id ∉ earlier) ∧
          FirstFlaw (m.id :: earlier) rest e := by
  constructor
  · rintro ⟨before, n, after, hsplit, hbefore, hflaw⟩
    cases before with
    | nil =>
        obtain ⟨rfl, rfl⟩ := List.cons.inj hsplit
        exact Or.inl (hflaw.congr (by simp))
    | cons first before =>
        obtain ⟨rfl, rfl⟩ := List.cons.inj hsplit
        obtain ⟨hfirst, hbefore⟩ := flawless_cons.mp hbefore
        exact Or.inr ⟨hfirst, before, n, after, rfl, hbefore, hflaw.congr (by simp; tauto)⟩
  · rintro (hflaw | ⟨hfirst, before, n, after, rfl, hbefore, hflaw⟩)
    · exact ⟨[], m, rest, rfl, flawless_nil earlier, hflaw.congr (by simp)⟩
    · exact ⟨m :: before, n, after, rfl, flawless_cons.mpr ⟨hfirst, hbefore⟩,
        hflaw.congr (by simp; tauto)⟩

theorem not_firstFlaw_nil {earlier : List String} {e : Error} : ¬FirstFlaw earlier [] e := by
  rintro ⟨before, m, after, hsplit, _⟩
  simp at hsplit

/-! ## Errors of operations -/

/-- Whether the error says that the request itself is wrong, whatever is
stored. -/
def Error.isInvalidInput : Error → Bool
  | .invalidInput _ _ => true
  | _ => false

/-- Whatever fails, the attempt does not call its input invalid. -/
def Attempt.Accepts {σ α : Type} (a : Attempt σ α) : Prop :=
  ∀ s e after, a s = (.error e, after) → e.isInvalidInput = false

namespace Attempt

variable {σ α β : Type}

theorem accepts_pure (a : α) : Accepts (pure a : Attempt σ α) := by
  intro s e after h
  exact nomatch congrArg Prod.fst h

theorem accepts_fail {e : Error} (h : e.isInvalidInput = false) : Accepts (fail e : Attempt σ α) := by
  intro s other after hrun
  obtain rfl : e = other := Except.error.inj (congrArg Prod.fst hrun)
  exact h

theorem Accepts.bind {a : Attempt σ α} {next : α → Attempt σ β} (ha : a.Accepts)
    (hnext : ∀ x, (next x).Accepts) : (a >>= next).Accepts := by
  intro s e after h
  rw [bind_run] at h
  cases hrun : a s with
  | mk result middle =>
      rw [hrun] at h
      cases result with
      | ok x => exact hnext x middle e after h
      | error other =>
          obtain rfl : other = e := Except.error.inj (congrArg Prod.fst h)
          exact ha s other middle hrun

end Attempt

namespace Gateway

variable {α : Type}

theorem accepts_read (operation id : String) (q : Query α) :
    Attempt.Accepts (read operation id q) := by
  intro c e after h
  unfold read at h
  split at h
  · exact nomatch congrArg Prod.fst h
  · obtain rfl := Except.error.inj (congrArg Prod.fst h)
    rfl

theorem accepts_readListed (operation team : String) (ids : List String) (q : Query α) :
    Attempt.Accepts (readListed operation team ids q) := by
  unfold readListed
  split
  · exact Attempt.accepts_fail rfl
  · exact accepts_read operation team q

/-- A write calls its input invalid only if a violated constraint stands for
that. -/
theorem accepts_write (operation id : String) {meaning : Constraint → Option Error}
    (h : ∀ c, ∀ e ∈ meaning c, e.isInvalidInput = false) (ch : Change α) :
    Attempt.Accepts (write operation id meaning ch) := by
  intro c e after hrun
  unfold write at hrun
  split at hrun
  · exact nomatch congrArg Prod.fst hrun
  · next fault _ _ =>
      obtain rfl := Except.error.inj (congrArg Prod.fst hrun)
      unfold Fault.toError
      cases hmeaning : fault.constraint?.bind meaning with
      | none => rfl
      | some e =>
          obtain ⟨c, _, hc⟩ := Option.bind_eq_some_iff.mp hmeaning
          exact h c e hc

end Gateway

/-- A unit of work adds errors of its own, but they are the store's. -/
theorem Service.accepts_unitOfWork {α : Type} (operation : String) {scope : Gateway α}
    (h : Attempt.Accepts scope) : Attempt.Accepts (Service.unitOfWork operation scope) := by
  intro db e after hrun
  unfold Service.unitOfWork at hrun
  split at hrun
  · obtain rfl := Except.error.inj (congrArg Prod.fst hrun)
    rfl
  · split at hrun
    · next scopeError _ hscope =>
        obtain rfl := Except.error.inj (congrArg Prod.fst hrun)
        exact h _ _ _ hscope
    · split at hrun
      · exact nomatch congrArg Prod.fst hrun
      · obtain rfl := Except.error.inj (congrArg Prod.fst hrun)
        rfl

namespace Gateway

open Attempt

theorem Teams.accepts_isThere (name : String) : Accepts (Teams.isThere name) :=
  (accepts_read _ _ _).bind fun found => accepts_pure found.isSome

theorem Teams.accepts_create (name : String) (time : Int) : Accepts (Teams.create name time) := by
  refine (accepts_write _ _ (fun c e he => ?_) _).bind fun _ => accepts_pure _
  cases c <;> cases he
  rfl

theorem Users.accepts_isThere (id : String) : Accepts (Users.isThere id) :=
  (accepts_read _ _ _).bind fun found => accepts_pure found.isSome

theorem Users.accepts_create (u : User) : Accepts (Users.create u) := by
  refine accepts_write _ _ (fun c e he => ?_) _
  cases c <;> cases he <;> rfl

theorem Users.accepts_update (u : User) : Accepts (Users.update u) := by
  refine (accepts_write _ _ (fun c e he => ?_) _).bind fun rows => ?_
  · cases c <;> cases he
    rfl
  · split
    · exact accepts_fail rfl
    · exact accepts_pure ()

theorem Users.accepts_activeElsewhere (ids : List String) (team : String) :
    Accepts (Users.activeElsewhere ids team) := by
  unfold Users.activeElsewhere
  split
  · exact accepts_pure []
  · exact accepts_readListed _ _ _ _

end Gateway

namespace Staffing

open Attempt Gateway

theorem accepts_enrol (u : User) : Accepts (enrol u) := by
  refine (Users.accepts_isThere u.id).bind fun there => ?_
  cases there with
  | true => exact Users.accepts_update u
  | false => exact Users.accepts_create u

theorem accepts_enrolAll (team : String) (members : List NewMember) :
    Accepts (enrolAll team members) := by
  induction members with
  | nil => exact accepts_pure ()
  | cons m rest ih => exact (accepts_enrol (m.toUser team)).bind fun _ => ih

theorem accepts_createTeamScope (name : String) (members : List NewMember) (now : Int) :
    Accepts (createTeamScope name members now) := by
  refine (Teams.accepts_isThere name).bind fun there => ?_
  split
  · exact accepts_fail rfl
  refine (Users.accepts_activeElsewhere _ name).bind fun blocked => ?_
  split
  · refine (Teams.accepts_create name now).bind fun _ => ?_
    refine (accepts_enrolAll name members).bind fun _ => ?_
    exact (accepts_read _ _ _).bind fun roster => accepts_pure _
  · exact accepts_fail rfl

/-- Nothing in a request for a team is invalid to the operation itself. -/
theorem accepts_createTeam (name : String) (members : List NewMember) (now : Int) :
    Accepts (createTeam name members now) :=
  Service.accepts_unitOfWork "create_team" (accepts_createTeamScope name members now)

end Staffing

namespace Desk

/-! ## The guards -/

theorem requireText_of_blank {value : String} (h : BlankText value) (field : String) :
    requireText value field = .error (.blankField field) := if_pos (isBlankText_iff.mpr h)

theorem requireText_of_not_blank {value : String} (h : ¬BlankText value) (field : String) :
    requireText value field = .ok () := if_neg (mt isBlankText_iff.mp h)

/-- The fields behind a blank one are not looked at. -/
theorem requireTexts_cons_of_blank {value : String} (h : BlankText value) (field : String)
    (rest : List (String × String)) :
    requireTexts ((value, field) :: rest) = .error (.blankField field) := by
  rw [requireTexts, requireText_of_blank h]
  rfl

theorem requireTexts_cons_of_not_blank {value : String} (h : ¬BlankText value) (field : String)
    (rest : List (String × String)) :
    requireTexts ((value, field) :: rest) = requireTexts rest := by
  rw [requireTexts, requireText_of_not_blank h]
  rfl

theorem requireTexts_of_firstBlank {fields : List (String × String)} {name : String}
    (h : FirstBlank fields name) : requireTexts fields = .error (.blankField name) := by
  obtain ⟨before, value, after, rfl, hbefore, hblank⟩ := h
  induction before with
  | nil => exact requireTexts_cons_of_blank hblank name after
  | cons f before ih =>
      rw [List.cons_append, requireTexts_cons_of_not_blank (hbefore f List.mem_cons_self)]
      exact ih fun g hg => hbefore g (List.mem_cons_of_mem f hg)

theorem requireTexts_of_not_blank {fields : List (String × String)}
    (h : ∀ f ∈ fields, ¬BlankText f.1) : requireTexts fields = .ok () := by
  induction fields with
  | nil => rfl
  | cons f rest ih =>
      rw [requireTexts_cons_of_not_blank (h f List.mem_cons_self)]
      exact ih fun g hg => h g (List.mem_cons_of_mem f hg)

/-- What is asked of a listed member, first things first. -/
theorem requireMembers_cons (earlier : List String) (m : NewMember) (rest : List NewMember) :
    requireMembers earlier (m :: rest) =
      if BlankText m.id then .error (.blankField "user_id")
      else if BlankText m.name then .error (.blankField "username")
      else if m.id ∈ earlier then .error (.duplicateMember m.id)
      else requireMembers (m.id :: earlier) rest := by
  rw [requireMembers]
  by_cases hid : BlankText m.id
  · rw [requireTexts_cons_of_blank hid, if_pos hid]
    rfl
  · rw [requireTexts_cons_of_not_blank hid, if_neg hid]
    by_cases hname : BlankText m.name
    · rw [requireTexts_cons_of_blank hname, if_pos hname]
      rfl
    · rw [requireTexts_cons_of_not_blank hname, if_neg hname, requireTexts]
      by_cases hseen : m.id ∈ earlier
      · rw [if_pos (List.contains_iff_mem.mpr hseen), if_pos hseen]
        rfl
      · rw [if_neg (mt List.contains_iff_mem.mp hseen), if_neg hseen]
        rfl

/-- A list of members is refused for its first flaw. -/
theorem requireMembers_eq_error_iff {earlier : List String} {members : List NewMember}
    {e : Error} :
    requireMembers earlier members = .error e ↔ FirstFlaw earlier members e := by
  induction members generalizing earlier with
  | nil => simp [requireMembers, not_firstFlaw_nil]
  | cons m rest ih =>
      rw [requireMembers_cons, firstFlaw_cons, NewMember.flaw_iff, ← ih]
      by_cases hid : BlankText m.id
      · simp [hid, eq_comm]
      · by_cases hname : BlankText m.name
        · simp [hid, hname, eq_comm]
        · by_cases hseen : m.id ∈ earlier
          · simp [hid, hname, hseen, eq_comm]
          · simp [hid, hname, hseen]

theorem requireMembers_eq_ok_iff {earlier : List String} {members : List NewMember} :
    requireMembers earlier members = .ok () ↔ Flawless earlier members := by
  induction members generalizing earlier with
  | nil => simp [requireMembers, flawless_nil]
  | cons m rest ih =>
      rw [requireMembers_cons, flawless_cons, ← ih]
      by_cases hid : BlankText m.id
      · simp [hid]
      · by_cases hname : BlankText m.name
        · simp [hid, hname]
        · by_cases hseen : m.id ∈ earlier
          · simp [hid, hname, hseen]
          · simp [hid, hname, hseen]

/-- A request for a team is refused for the first thing wrong with it. -/
theorem mayCreateTeam_eq_error_iff {r : TeamRequest} {e : Error} :
    mayCreateTeam r = .error e ↔ r.Flaw e := by
  rw [mayCreateTeam]
  by_cases hname : BlankText r.name
  · rw [requireTexts_cons_of_blank hname]
    constructor
    · rintro ⟨⟩
      exact .blankName hname
    · intro h
      cases h with
      | blankName _ => rfl
      | members hnot _ => exact absurd hname hnot
  · rw [requireTexts_cons_of_not_blank hname]
    constructor
    · exact fun h => .members hname (requireMembers_eq_error_iff.mp h)
    · intro h
      cases h with
      | blankName h => exact absurd h hname
      | members _ h => exact requireMembers_eq_error_iff.mpr h

theorem mayCreateTeam_eq_ok_iff {r : TeamRequest} : mayCreateTeam r = .ok () ↔ r.Proper := by
  rw [mayCreateTeam]
  by_cases hname : BlankText r.name
  · rw [requireTexts_cons_of_blank hname]
    constructor
    · rintro ⟨⟩
    · exact fun h => absurd hname h.named
  · rw [requireTexts_cons_of_not_blank hname]
    constructor
    · exact fun h => ⟨hname, requireMembers_eq_ok_iff.mp h⟩
    · exact fun h => requireMembers_eq_ok_iff.mpr h.flawless

/-! ## Behind the guards -/

variable {α : Type}

/-- What a guard refuses never gets to the database. -/
theorem guarded_of_error {guard : Except Error Unit} {e : Error} (h : guard = .error e)
    (service : Service α) (db : Database) : guarded guard service db = (.error e, db) := by
  subst h
  rfl

/-- What a guard lets pass is the service itself. -/
theorem guarded_of_ok {guard : Except Error Unit} (h : guard = .ok ()) (service : Service α) :
    guarded guard service = service := by
  subst h
  rfl

/-- A submission whose fields, each a value with its name, must be filled in.
Behind the guard is the service. -/
structure Filled (fields : List (String × String)) (submission service : Service α) : Prop where
  invalid : (∃ f ∈ fields, BlankText f.1) →
    ∃ name, FirstBlank fields name ∧ ∀ db, submission db = (.error (.blankField name), db)
  passed : (∀ f ∈ fields, ¬BlankText f.1) → submission = service

/-- A submission that is for administrators only, who must fill in its
fields. -/
structure AdminOnly (caller : Caller) (fields : List (String × String))
    (submission service : Service α) : Prop where
  unauthorized : caller.admin = false → ∀ db, submission db = (.error .adminRequired, db)
  filled : caller.admin = true → Filled fields submission service

/-- Where there is a blank field there is a first one. -/
theorem exists_firstBlank {fields : List (String × String)} (h : ∃ f ∈ fields, BlankText f.1) :
    ∃ name, FirstBlank fields name := by
  induction fields with
  | nil => exact absurd h (by simp)
  | cons f rest ih =>
      by_cases hf : BlankText f.1
      · exact ⟨f.2, [], f.1, rest, rfl, by simp, hf⟩
      · obtain ⟨g, hg, hblank⟩ := h
        obtain rfl | hg := List.mem_cons.mp hg
        · exact absurd hblank hf
        · obtain ⟨name, before, value, after, rfl, hbefore, hvalue⟩ := ih ⟨g, hg, hblank⟩
          refine ⟨name, f :: before, value, after, rfl, fun x hx => ?_, hvalue⟩
          obtain rfl | hx := List.mem_cons.mp hx
          · exact hf
          · exact hbefore x hx

theorem filled_guarded (fields : List (String × String)) (service : Service α) :
    Filled fields (guarded (requireTexts fields) service) service where
  invalid hblank := by
    obtain ⟨name, hname⟩ := exists_firstBlank hblank
    exact ⟨name, hname, guarded_of_error (requireTexts_of_firstBlank hname) service⟩
  passed hfields := guarded_of_ok (requireTexts_of_not_blank hfields) service

/-- The guards for administrators have one form. -/
theorem adminOnly_guarded (caller : Caller) (fields : List (String × String))
    (service : Service α) :
    AdminOnly caller fields
      (guarded (do requireAdmin caller; requireTexts fields) service) service where
  unauthorized hadmin := guarded_of_error (by rw [requireAdmin, hadmin]; rfl) service
  filled hadmin := by
    rw [requireAdmin, if_pos hadmin]
    exact filled_guarded fields service

/-- The submission of a request for a team.  Behind the guard is the service,
and only the guard calls a request invalid. -/
structure Enrols (r : TeamRequest) (submission service : Service Team) : Prop where
  invalid : ¬r.Proper → ∃ e, r.Flaw e ∧ ∀ db, submission db = (.error e, db)
  passed : r.Proper → submission = service
  exactly : ∀ db, (∃ e, (submission db).1 = .error e ∧ e.isInvalidInput = true) ↔
    BlankText r.name ∨ (∃ m ∈ r.members, BlankText m.id ∨ BlankText m.name) ∨
      ¬(r.members.map NewMember.id).Nodup

/-- The flaws of a request for a team are what is invalid about it. -/
theorem isInvalidInput_of_flaw {r : TeamRequest} {e : Error} (h : r.Flaw e) :
    e.isInvalidInput = true := by
  cases h with
  | blankName _ => rfl
  | members _ h =>
      obtain ⟨_, _, _, _, _, hflaw⟩ := h
      cases hflaw <;> rfl

theorem enrols_addTeam (r : TeamRequest) (now : Int) :
    Enrols r (addTeam r now) (Staffing.createTeam r.name r.members now) where
  invalid h := by
    cases hguard : mayCreateTeam r with
    | ok u => exact absurd (mayCreateTeam_eq_ok_iff.mp hguard) h
    | error e => exact ⟨e, mayCreateTeam_eq_error_iff.mp hguard, guarded_of_error hguard _⟩
  passed h := guarded_of_ok (mayCreateTeam_eq_ok_iff.mpr h) _
  exactly db := by
    rw [← TeamRequest.not_proper_iff]
    cases hguard : mayCreateTeam r with
    | ok u =>
        have hrun : addTeam r now = Staffing.createTeam r.name r.members now :=
          guarded_of_ok hguard _
        refine iff_of_false ?_ (not_not_intro (mayCreateTeam_eq_ok_iff.mp hguard))
        rintro ⟨e, hanswer, he⟩
        rw [hrun] at hanswer
        have hvalid := Staffing.accepts_createTeam r.name r.members now db e _ (Prod.ext hanswer rfl)
        exact absurd (he.symm.trans hvalid) (by decide)
    | error e =>
        have hflaw := mayCreateTeam_eq_error_iff.mp hguard
        refine iff_of_true ⟨e, ?_, isInvalidInput_of_flaw hflaw⟩ fun hproper => ?_
        · exact congrArg Prod.fst (guarded_of_error hguard _ db)
        · rw [mayCreateTeam_eq_ok_iff.mpr hproper] at hguard
          exact nomatch hguard

/-- The submission of a question about what a user reviews.  A blank user is
refused, whoever asks.  Behind the guard is the service for those who may see it,
and nothing for all others. -/
structure Shows (caller : Caller) (user : String) (submission service : Service UserReviews) :
    Prop where
  invalid : BlankText user → ∀ db, submission db = (.error (.blankField "user_id"), db)
  passed : ¬BlankText user → caller.admin = true ∨ caller.id = user → submission = service
  hidden : ¬BlankText user → ¬(caller.admin = true ∨ caller.id = user) →
    ∀ db, submission db = (.ok ⟨user, []⟩, db)

theorem shows_userReviews (caller : Caller) (user : String) :
    Shows caller user (userReviews caller user)
      (do return ⟨user, ← Reporting.reviewsOf user⟩) where
  invalid hblank := guarded_of_error (requireTexts_cons_of_blank hblank _ _) _
  passed hnamed hsee := by
    rw [userReviews, if_pos (Caller.maySee_iff.mpr hsee)]
    exact guarded_of_ok (requireTexts_cons_of_not_blank hnamed _ _) _
  hidden hnamed hsee db := by
    rw [userReviews, if_neg (mt Caller.maySee_iff.mp hsee)]
    exact congrFun (guarded_of_ok (requireTexts_cons_of_not_blank hnamed _ _) _) db

/-- The desk is the operations behind their guards, and a guard never looks
at the database. -/
theorem behind_guards (caller : Caller) (now : Int) (draw : Draw) :
    (∀ r : CreateRequest,
      AdminOnly caller
        [(r.id, "pull_request_id"), (r.title, "pull_request_name"), (r.author, "author_id")]
        (createPullRequest caller r now draw) (Reviewing.create r.id r.title r.author now draw)) ∧
    (∀ r : ReassignRequest,
      AdminOnly caller [(r.pullRequest, "pull_request_id"), (r.old, "old_user_id")]
        (reassignReviewer caller r now draw) (Reviewing.reassign r.pullRequest r.old now draw)) ∧
    (∀ r : MergeRequest,
      AdminOnly caller [(r.pullRequest, "pull_request_id")]
        (mergePullRequest caller r now) (Reviewing.merge r.pullRequest now)) ∧
    (∀ r : ActivityRequest,
      AdminOnly caller [(r.user, "user_id")]
        (setUserActive caller r) (Staffing.setActive r.user r.active)) ∧
    (∀ r : TeamRequest,
      Enrols r (addTeam r now) (Staffing.createTeam r.name r.members now)) ∧
    (∀ name : String, Filled [(name, "team_name")] (team name) (Staffing.team name)) ∧
    (∀ user : String,
      Shows caller user (userReviews caller user)
        (do return ⟨user, ← Reporting.reviewsOf user⟩)) :=
  ⟨fun _ => adminOnly_guarded _ _ _, fun _ => adminOnly_guarded _ _ _,
    fun _ => adminOnly_guarded _ _ _, fun _ => adminOnly_guarded _ _ _,
    fun r => enrols_addTeam r now, fun _ => filled_guarded _ _, shows_userReviews caller⟩

/-- An administrator leaves out a title and an author, and then asks for a user's
reviews. -/
theorem behind_guards_root :
    let root : Caller := ⟨"root", true⟩
    let r : CreateRequest := ⟨"p1", "\t", ""⟩
    root.admin = true ∧ BlankText r.title ∧ ¬BlankText "ann" ∧
      (∃ name, FirstBlank
        [(r.id, "pull_request_id"), (r.title, "pull_request_name"), (r.author, "author_id")] name ∧
        ∀ db, createPullRequest root r 1 Draw.still db = (.error (.blankField name), db)) ∧
      userReviews root "ann" = (do return ⟨"ann", ← Reporting.reviewsOf "ann"⟩) := by
  intro root r
  have hadmin : root.admin = true := rfl
  have hblank : BlankText r.title := by decide
  have hnamed : ¬BlankText "ann" := by decide
  obtain ⟨hcreate, _, _, _, _, _, hreviews⟩ := behind_guards root 1 Draw.still
  have htitle : (r.title, "pull_request_name") ∈ [(r.id, "pull_request_id"),
      (r.title, "pull_request_name"), (r.author, "author_id")] := by simp
  refine ⟨hadmin, hblank, hnamed, ((hcreate r).filled hadmin).invalid ⟨_, htitle, hblank⟩, ?_⟩
  exact (hreviews "ann").passed hnamed (Or.inl hadmin)

/-- Not every administrator's question about a user's reviews is answered: a
blank user is refused, as everywhere. -/
theorem reviews_of_blank_refused :
    ¬∀ (caller : Caller) (user : String), caller.admin = true ∨ caller.id = user →
      userReviews caller user = (do return ⟨user, ← Reporting.reviewsOf user⟩) := by
  intro h
  have hrun := congrArg Prod.fst (congrFun (h ⟨"root", true⟩ " " (Or.inl rfl)) {})
  exact absurd hrun (by decide +kernel)

end Desk

end ReviewRota
