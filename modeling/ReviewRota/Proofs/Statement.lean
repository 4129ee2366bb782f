import ReviewRota.Store.Probe

/-!
# ReviewRota.Proofs.Statement

What each statement that writes does when it succeeds: the checks that were
passed, and the store it leaves behind.  Everything later about writing is
derived from these equivalences; the definitions of the statements are not
opened again.

The last section is about the statements that can be refused: the key is looked
at before the references.
-/

namespace ReviewRota

/-- A sequence succeeds when both of its halves do. -/
theorem bind_eq_ok_iff {ε α β : Type} {x : Except ε α} {f : α → Except ε β} {b : β} :
    (x >>= f) = .ok b ↔ ∃ a, x = .ok a ∧ f a = .ok b := by
  cases x with
  | error e => simp [bind, Except.bind]
  | ok a => simp [bind, Except.bind]

theorem ok_eq_ok_iff {ε α : Type} {a b : α} : (.ok a : Except ε α) = .ok b ↔ b = a :=
  ⟨fun h => (Except.ok.inj h).symm, fun h => h ▸ rfl⟩

variable {fks : ForeignKeys} {s : Store}

/-- A reference is accepted when it holds or is put off. -/
theorem requireReference_eq_ok_iff {holds : Bool} {x : Unit} :
    requireReference fks holds = .ok x ↔ (fks = .immediate → holds = true) := by
  unfold requireReference
  split <;> simp_all

/-- A statement that first refuses what is there already and then looks at
a reference. -/
private theorem guarded_eq_ok_iff {α : Type} {there holds : Bool} {fault : Fault}
    {effect e : Effect α} :
    (do
      if there then throw fault
      requireReference fks holds
      return effect : Except Fault (Effect α)) = .ok e ↔
      there = false ∧ (fks = .immediate → holds = true) ∧ e = effect := by
  cases there with
  | true => simp [throw, throwThe, MonadExceptOf.throw, bind, Except.bind]
  | false =>
      simp only [Bool.false_eq_true, if_false, bind_eq_ok_iff, requireReference_eq_ok_iff,
        exists_const, true_and, pure, Except.pure, ok_eq_ok_iff]

namespace Statement

namespace Teams

theorem insert_apply_eq_ok_iff {t : TeamRecord} {e : Effect Unit} :
    (insert t).apply fks s = .ok e ↔ s.team? t.name = none ∧
      e = ⟨(), 1, { s with teams := insertRow TeamRecord.before t s.teams }⟩ := by
  simp only [insert]
  cases s.team? t.name with
  | some other => simp
  | none => simp only [Option.isSome_none, Bool.false_eq_true, if_false, true_and, ok_eq_ok_iff]

end Teams

namespace Users

theorem insert_apply_eq_ok_iff {u : User} {e : Effect Unit} :
    (insert u).apply fks s = .ok e ↔ s.user? u.id = none ∧
      (fks = .immediate → s.knowsTeamOf u = true) ∧
      e = ⟨(), 1, { s with users := insertRow User.before u s.users }⟩ := by
  rw [← Option.isSome_eq_false_iff.trans Option.isNone_iff_eq_none]
  exact guarded_eq_ok_iff

theorem overwrite_apply_eq_ok_iff {u : User} {e : Effect Nat} :
    (overwrite u).apply fks s = .ok e ↔
      s.user? u.id = none ∧ e = ⟨0, 0, s⟩ ∨
      (s.user? u.id).isSome ∧ (fks = .immediate → s.knowsTeamOf u = true) ∧
        e = ⟨1, 1, { s with users := replaceIn u s.users }⟩ := by
  simp only [overwrite]
  cases s.user? u.id with
  | none =>
      simp only [pure, Except.pure, ok_eq_ok_iff, Option.isSome_none, Bool.false_eq_true, true_and,
        false_and, or_false]
  | some other =>
      simp only [bind_eq_ok_iff, requireReference_eq_ok_iff, exists_const, pure, Except.pure,
        ok_eq_ok_iff, reduceCtorEq, false_and, Option.isSome_some, true_and, false_or]

theorem setActive_apply_eq_ok_iff {id : String} {active : Bool} {e : Effect (Option User)} :
    (setActive id active).apply fks s = .ok e ↔
      s.user? id = none ∧ e = ⟨none, 0, s⟩ ∨
      ∃ u, s.user? id = some u ∧ e = ⟨some { u with active := active }, 1,
        { s with users := replaceIn { u with active := active } s.users }⟩ := by
  simp only [setActive]
  cases s.user? id with
  | none => simp only [ok_eq_ok_iff, true_and, reduceCtorEq, false_and, exists_const, or_false]
  | some u =>
      simp only [ok_eq_ok_iff, reduceCtorEq, false_and, false_or, Option.some.injEq,
        exists_eq_left']

end Users

namespace PullRequests

theorem insert_apply_eq_ok_iff {r : PullRequestRecord} {e : Effect Unit} :
    (insert r).apply fks s = .ok e ↔ s.record? r.id = none ∧
      (fks = .immediate → s.knowsAuthorOf r = true) ∧
      e = ⟨(), 1, { s with
        pullRequests := insertRow PullRequestRecord.before r s.pullRequests }⟩ := by
  rw [← Option.isSome_eq_false_iff.trans Option.isNone_iff_eq_none]
  exact guarded_eq_ok_iff

theorem setStatus_apply_eq_ok_iff {id : String} {status : Status} {time : Int} {e : Effect Nat} :
    (setStatus id status time).apply fks s = .ok e ↔
      e = ⟨s.pullRequests.countP (isToMove id status), s.pullRequests.countP (isToMove id status),
        { s with pullRequests := s.pullRequests.map fun r =>
            if isToMove id status r then moved status time r else r }⟩ := by
  exact ok_eq_ok_iff

theorem insertLink_apply_eq_ok_iff {l : Link} {e : Effect Unit} :
    (insertLink l).apply fks s = .ok e ↔ s.link? l.pullRequest l.reviewer = none ∧
      (fks = .immediate → s.knowsEndsOf l = true) ∧
      e = ⟨(), 1, { s with links := insertRow Link.before l s.links }⟩ := by
  rw [← Option.isSome_eq_false_iff.trans Option.isNone_iff_eq_none]
  exact guarded_eq_ok_iff

theorem deleteLink_apply_eq_ok_iff {pullRequest reviewer : String} {e : Effect Nat} :
    (deleteLink pullRequest reviewer).apply fks s = .ok e ↔
      e = ⟨s.links.countP (isLinkOf pullRequest reviewer),
        s.links.countP (isLinkOf pullRequest reviewer),
        { s with links := s.links.filter fun l => !isLinkOf pullRequest reviewer l }⟩ := by
  exact ok_eq_ok_iff

end PullRequests

/-! ## Refused statements -/

/-- A statement that looks at its key first is refused for it whatever it refers
to. -/
private theorem guarded_of_there {α : Type} {there holds : Bool} {fault : Fault}
    {effect : Effect α} (h : there = true) :
    (do
      if there then throw fault
      requireReference fks holds
      return effect : Except Fault (Effect α)) = .error fault := by
  subst h
  rfl

/-- A key that is free leaves the reference to look at. -/
private theorem guarded_of_dangling {α : Type} {there holds : Bool} {fault : Fault}
    {effect : Effect α} (h : there = false) (hdangling : holds = false) :
    (do
      if there then throw fault
      requireReference .immediate holds
      return effect : Except Fault (Effect α)) = .error (.violated .foreignKey) := by
  subst h hdangling
  rfl

theorem Teams.insert_apply_of_there {t : TeamRecord} (h : (s.team? t.name).isSome) :
    (Teams.insert t).apply fks s = .error (.violated .unique) := if_pos h

namespace Users

theorem insert_apply_of_there {u : User} (h : (s.user? u.id).isSome) :
    (insert u).apply fks s = .error (.violated .unique) := guarded_of_there h

theorem insert_apply_of_dangling {u : User} (hnew : s.user? u.id = none)
    (hdangling : s.knowsTeamOf u = false) :
    (insert u).apply .immediate s = .error (.violated .foreignKey) :=
  guarded_of_dangling (by rw [hnew, Option.isSome_none]) hdangling

theorem overwrite_apply_of_dangling {u : User} (hthere : (s.user? u.id).isSome)
    (hdangling : s.knowsTeamOf u = false) :
    (overwrite u).apply .immediate s = .error (.violated .foreignKey) := by
  obtain ⟨v, hv⟩ := Option.isSome_iff_exists.mp hthere
  simp only [overwrite, hv, hdangling]
  rfl

end Users

namespace PullRequests

theorem insert_apply_of_there {r : PullRequestRecord} (h : (s.record? r.id).isSome) :
    (insert r).apply fks s = .error (.violated .unique) := guarded_of_there h

theorem insert_apply_of_dangling {r : PullRequestRecord} (hnew : s.record? r.id = none)
    (hdangling : s.knowsAuthorOf r = false) :
    (insert r).apply .immediate s = .error (.violated .foreignKey) :=
  guarded_of_dangling (by rw [hnew, Option.isSome_none]) hdangling

theorem insertLink_apply_of_there {l : Link} (h : (s.link? l.pullRequest l.reviewer).isSome) :
    (insertLink l).apply fks s = .error (.violated .unique) := guarded_of_there h

theorem insertLink_apply_of_dangling {l : Link} (hnew : s.link? l.pullRequest l.reviewer = none)
    (hdangling : s.knowsEndsOf l = false) :
    (insertLink l).apply .immediate s = .error (.violated .foreignKey) :=
  guarded_of_dangling (by rw [hnew, Option.isSome_none]) hdangling

end PullRequests

end Statement

end ReviewRota
