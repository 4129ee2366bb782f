import ReviewRota.Proofs.Answers
import ReviewRota.Proofs.Candidates
import ReviewRota.Proofs.Yields

/-!
# ReviewRota.Proofs.Reassigning

Replacing a reviewer, exactly: for every sound store and no storage failure,
which answer is given when, and what is left behind.

| if | then |
|---|---|
| there is no such pull request | `notFound` |
| it is merged | `isMerged` |
| the old one does not review it | `notAssigned` |
| the old one has a team, and a statement cannot list the reviewers and the author | a storage failure |
| nobody can take the place (`replacements`) | `noCandidate` |
| otherwise | one of them takes it, whom the draw decides |

Who is not found is the pull request and never the old reviewer: reviewers are
known, and what the swap refuses cannot happen.

* `Reviewing.mem_replacements` — who can take the place;
* `Reviewing.Replacement` — what a replacement answers and leaves behind;
* `Reviewing.reassign_exact` — the table above.
-/

namespace ReviewRota

open Gateway Statement Store

namespace Reviewing

variable {s : Store}

/-! ## The place of a reviewer -/

/-- Who can take the place of a reviewer: the active members of that reviewer's
team, but for the author and the reviewers. -/
def replacements (s : Store) (r : PullRequestRecord) (old : String) : List String :=
  candidateIds s ((s.user? old).bind User.team) (s.reviewersOf r.id ++ [r.author])

theorem mem_replacements {r : PullRequestRecord} {old id : String} :
    id ∈ replacements s r old ↔ ∃ u ∈ s.users, u.id = id ∧ u.active = true ∧
      (∃ reviewer team, s.user? old = some reviewer ∧ reviewer.team = some team ∧
        u.team = some team) ∧ id ≠ r.author ∧ id ∉ s.reviewersOf r.id := by
  simp only [replacements, mem_candidateIds_bind, List.mem_append, List.mem_singleton, not_or,
    and_comm (a := id ∉ s.reviewersOf r.id), ne_eq]

/-- What a replacement answers and leaves behind: the new reviewer in the place
of the old one, and everything else as it was. -/
structure Replacement (s : Store) (r : PullRequestRecord) (old new : String) (now : Int)
    (done : Reassignment) (after : Store) : Prop where
  replacedBy : done.replacedBy = new
  pullRequest : done.pullRequest = after.assemble r
  reviewers : (after.reviewersOf r.id).Perm (new :: (s.reviewersOf r.id).filter (· ≠ old))
  length : (after.reviewersOf r.id).length = (s.reviewersOf r.id).length
  links : after.links.Perm (⟨r.id, new, now⟩ :: s.links.filter fun l => l.key ≠ (r.id, old))
  others : after = { s with links := after.links }

theorem replacement_withReplacement (hs : s.Sound .immediate) {r : PullRequestRecord}
    {old : String} (hreviews : old ∈ s.reviewersOf r.id) (new : String) (now : Int) :
    Replacement s r old new now
      ⟨(s.withReplacement r.id old new now).assemble r, new⟩
      (s.withReplacement r.id old new now) := by
  have hreviewers := reviewersOf_withReplacement_self s r.id old new now
  refine ⟨rfl, rfl, hreviewers, ?_, ?_, rfl⟩
  · rw [hreviewers.length_eq, List.length_cons, hs.length_filter_ne hreviews]
  · have hkept : (s.links.filter fun l => !PullRequests.isLinkOf r.id old l) =
        s.links.filter fun l => l.key ≠ (r.id, old) := by
      refine List.filter_congr fun l _ => ?_
      simp [PullRequests.isLinkOf, Link.key]
    rw [← hkept]
    exact insertRow_perm Link.before _ _

/-- The reviewer `old` of the open pull request `r` is the one to be replaced. -/
structure Replaceable (s : Store) (id old : String) (r : PullRequestRecord) : Prop where
  there : s.record? id = some r
  isOpen : r.status = .opened
  reviews : old ∈ s.reviewersOf id

/-- The candidates for the place can be asked for: a statement can list the
reviewers and the author, or there is no team to ask for. -/
def Askable (s : Store) (id old : String) : Prop :=
  ((s.user? old).bind User.team).isSome → (s.reviewersOf id).length < maxListed

theorem Askable.length_le {id old author : String} (h : Askable s id old) {u : User}
    (hold : s.user? old = some u) (hteam : u.team.isSome) :
    (s.reviewersOf id ++ [author]).length ≤ maxListed := by
  have hlt := h (by rwa [hold, Option.bind_some])
  rw [List.length_append, List.length_singleton]
  omega

theorem Replaceable.exists_user (hs : s.Sound .immediate) {id old : String}
    {r : PullRequestRecord} (h : Replaceable s id old r) : ∃ u, s.user? old = some u := by
  obtain ⟨l, hl, _, rfl⟩ := mem_reviewersOf.mp h.reviews
  exact Option.isSome_iff_exists.mp (isSome_user?.mpr ((hs.references rfl).reviewer l hl))

end Reviewing

/-! ## The scope -/

namespace Gateway

variable {s : Store} {id old : String} {r : PullRequestRecord}

theorem yields_reassignScope_of_none (hserves : s.inService [.pullRequests, .links] = true)
    (hnone : s.record? id = none) (old : String) (now : Int) (draw : Draw) :
    Yields (Reviewing.reassignScope id old now draw) s (.error (.notFound .pullRequest id)) s :=
  .bind_error _ (PullRequests.yields_get_of_none hserves hnone)

variable (hserves : s.inService [.users, .pullRequests, .links] = true)
  (h : Reviewing.Replaceable s id old r) {u : User} (hold : s.user? old = some u) (now : Int)
  {draw : Draw}

include hserves h hold

/-- What comes of a reassignment is decided from the choice on. -/
theorem yields_reassignScope_of_choice {result : Except Error Reassignment} {after : Store}
    (hchoice : Yields
      (do
        match ← Reviewing.chooseReplacement u (s.reviewersOf id ++ [r.author]) draw with
        | [] => Attempt.fail .noCandidate
        | new :: _ =>
          PullRequests.replaceReviewer id old new.id now
          let updated ← PullRequests.get id
          return ⟨updated, new.id⟩) s result after) :
    Yields (Reviewing.reassignScope id old now draw) s result after := by
  obtain ⟨hthere, hopen, hreviews⟩ := h
  obtain ⟨_, rfl⟩ := mem_of_record?_eq_some hthere
  have husers : s.inService [.users] = true := inService_of_subset (by simp) hserves
  have hboth : s.inService [.pullRequests, .links] = true := inService_of_subset (by simp) hserves
  have hmodifiable : ¬(!(s.assemble r).canBeModified) = true := by simp [hopen]
  have hassigned : ¬(!(s.assemble r).hasReviewer old) = true := by simpa using hreviews
  refine .bind (PullRequests.yields_get hboth hthere) ?_
  rw [if_neg hmodifiable, if_neg hassigned]
  exact .bind (Users.yields_get husers hold) hchoice

/-- Too many who are excluded cannot be asked for. -/
theorem yields_reassignScope_of_le {team : String} (hteam : u.team = some team)
    (hlong : maxListed ≤ (s.reviewersOf id).length) :
    Yields (Reviewing.reassignScope id old now draw) s
      (.error (.storage "users.get_active_excluding" team)) s := by
  have hlist : maxListed < (s.reviewersOf id ++ [r.author]).length := by
    rw [List.length_append, List.length_singleton]
    omega
  refine yields_reassignScope_of_choice hserves h hold now (.bind_error _ ?_)
  simp only [Reviewing.chooseReplacement, hteam, Users.chooseActive,
    Users.activeExcept_of_lt team hlist]
  exact .bind_error _ (.fail _)

variable (hask : Reviewing.Askable s id old)

include hask

/-- What comes of a reassignment is decided behind the draw. -/
theorem yields_reassignScope_of_drawn {result : Except Error Reassignment} {after : Store}
    (hdrawn : Yields
      (match Reviewing.drawn s u.team (s.reviewersOf id ++ [r.author]) 1 draw with
        | [] => Attempt.fail .noCandidate
        | new :: _ => do
          PullRequests.replaceReviewer id old new.id now
          let updated ← PullRequests.get id
          return ⟨updated, new.id⟩) s result after) :
    Yields (Reviewing.reassignScope id old now draw) s result after := by
  have husers : s.inService [.users] = true := inService_of_subset (by simp) hserves
  exact yields_reassignScope_of_choice hserves h hold now
    (.bind (Users.yields_choice husers _ _ _ (hask.length_le hold)) hdrawn)

theorem yields_reassignScope_of_nil
    (hdrawn : Reviewing.drawn s u.team (s.reviewersOf id ++ [r.author]) 1 draw = []) :
    Yields (Reviewing.reassignScope id old now draw) s (.error .noCandidate) s := by
  refine yields_reassignScope_of_drawn hserves h hold now hask ?_
  rw [hdrawn]
  exact .fail _

/-- The first one drawn takes the place. -/
theorem yields_reassignScope {new : User} {rest : List User}
    (hdrawn : Reviewing.drawn s u.team (s.reviewersOf id ++ [r.author]) 1 draw = new :: rest) :
    Yields (Reviewing.reassignScope id old now draw) s
      (.ok ⟨(s.withReplacement id old new.id now).assemble r, new.id⟩)
      (s.withReplacement id old new.id now) := by
  have hlinks : s.inService [.links] = true := inService_of_subset (by simp) hserves
  have hboth : s.inService [.pullRequests, .links] = true := inService_of_subset (by simp) hserves
  -- the new reviewer is a candidate, so that no constraint refuses the swap
  have hnew : new.id ∈ Reviewing.candidateIds s u.team (s.reviewersOf id ++ [r.author]) := by
    have hsubset := Reviewing.drawn_subset (s := s) u.team (s.reviewersOf id ++ [r.author]) 1 draw
    rw [hdrawn] at hsubset
    exact hsubset List.mem_cons_self
  have hknown := Reviewing.isSome_user?_of_mem_candidateIds hnew
  have hfree : new.id ∈ s.reviewersOf id → new.id = old := by
    obtain ⟨_, _, _, _, _, hexcluded⟩ := Reviewing.mem_candidateIds.mp hnew
    exact fun hreviews => absurd (List.mem_append_left _ hreviews) hexcluded
  have hrecord : (s.record? id).isSome := by simp [h.there]
  refine yields_reassignScope_of_drawn hserves h hold now hask ?_
  rw [hdrawn]
  exact .bind (PullRequests.yields_replaceReviewer now hlinks hrecord h.reviews hknown hfree)
    (.bind (PullRequests.yields_get hboth h.there) (.pure _))

end Gateway

/-! ## The operation -/

namespace Reviewing

variable {db : Database} {id old : String} {r : PullRequestRecord}

/-- What replacing a reviewer comes to: which answer is given when, whatever is
drawn. -/
structure ReassignsExactly (db : Database) (id old : String) (now : Int) : Prop where
  missing : db.committed.record? id = none → ∀ draw,
    reassign id old now draw db = (.error (.notFound .pullRequest id), db)
  merged : ∀ r, db.committed.record? id = some r → r.status = .merged → ∀ draw,
    reassign id old now draw db = (.error (.isMerged id), db)
  notAssigned : ∀ r, db.committed.record? id = some r → r.status = .opened →
    old ∉ db.committed.reviewersOf id → ∀ draw,
      reassign id old now draw db = (.error (.notAssigned old id), db)
  /-- More are excluded than a statement can list. -/
  tooMany : ∀ r team, Replaceable db.committed id old r →
    (db.committed.user? old).bind User.team = some team →
      maxListed ≤ (db.committed.reviewersOf id).length → ∀ draw,
        reassign id old now draw db = (.error (.storage "users.get_active_excluding" team), db)
  noCandidate : ∀ r, Replaceable db.committed id old r → Askable db.committed id old →
    replacements db.committed r old = [] →
      ∀ draw, reassign id old now draw db = (.error .noCandidate, db)
  replaces : ∀ r, Replaceable db.committed id old r → Askable db.committed id old →
    replacements db.committed r old ≠ [] →
      ∀ draw, ∃ new ∈ replacements db.committed r old, ∃ done after,
        reassign id old now draw db = (.ok done, after) ∧
          Replacement db.committed r old new now done after.committed
  /-- Everybody who can take the place does so for some draw. -/
  anyone : ∀ r, Replaceable db.committed id old r → Askable db.committed id old →
    ∀ new ∈ replacements db.committed r old, ∃ draw done after,
      reassign id old now draw db = (.ok done, after) ∧ done.replacedBy = new

/-- In none of the cases a user is missing, since reviewers are known. -/
theorem ReassignsExactly.user_found {now : Int} (h : ReassignsExactly db id old now) (draw : Draw)
    (user : String) : (reassign id old now draw db).1 ≠ .error (.notFound .user user) := by
  cases hthere : db.committed.record? id with
  | none =>
      rw [h.missing hthere draw]
      exact nofun
  | some r =>
      cases hstatus : r.status with
      | merged =>
          rw [h.merged r hthere hstatus draw]
          exact nofun
      | opened =>
          by_cases hreviews : old ∈ db.committed.reviewersOf id
          · have hreplaceable : Replaceable db.committed id old r := ⟨hthere, hstatus, hreviews⟩
            by_cases hask : Askable db.committed id old
            · by_cases hnone : replacements db.committed r old = []
              · rw [h.noCandidate r hreplaceable hask hnone draw]
                exact nofun
              · obtain ⟨_, _, _, _, hrun, _⟩ := h.replaces r hreplaceable hask hnone draw
                rw [hrun]
                exact nofun
            · obtain ⟨hteam, hlong⟩ := Classical.not_imp.mp hask
              obtain ⟨team, hteam⟩ := Option.isSome_iff_exists.mp hteam
              rw [h.tooMany r team hreplaceable hteam (Nat.le_of_not_lt hlong) draw]
              exact nofun
          · rw [h.notAssigned r hthere hstatus hreviews draw]
            exact nofun

/-- What is drawn is drawn from those who can take the place. -/
theorem Replaceable.exists_replacements_eq (hs : db.committed.Sound .immediate)
    (h : Replaceable db.committed id old r) :
    ∃ u, db.committed.user? old = some u ∧ replacements db.committed r old =
      candidateIds db.committed u.team (db.committed.reviewersOf id ++ [r.author]) := by
  obtain ⟨u, hold⟩ := h.exists_user hs
  obtain ⟨_, rfl⟩ := mem_of_record?_eq_some h.there
  exact ⟨u, hold, by rw [replacements, hold, Option.bind_some]⟩

section Serves

variable (hs : db.committed.Sound .immediate)
  (hserves : db.Serves [.users, .pullRequests, .links])

include hserves

theorem reassign_of_missing (hnone : db.committed.record? id = none) (old : String) (now : Int)
    (draw : Draw) : reassign id old now draw db = (.error (.notFound .pullRequest id), db) := by
  have hboth : db.committed.inService [.pullRequests, .links] = true :=
    inService_of_subset (by simp) hserves.inService
  exact Service.unitOfWork_of_yields_error _ hserves.unlocked
    (yields_reassignScope_of_none hboth hnone old now draw)

theorem reassign_of_le (h : Replaceable db.committed id old r) {team : String}
    (hteam : (db.committed.user? old).bind User.team = some team)
    (hlong : maxListed ≤ (db.committed.reviewersOf id).length) (now : Int) (draw : Draw) :
    reassign id old now draw db = (.error (.storage "users.get_active_excluding" team), db) := by
  obtain ⟨u, hold, hteam⟩ := Option.bind_eq_some_iff.mp hteam
  exact Service.unitOfWork_of_yields_error _ hserves.unlocked
    (yields_reassignScope_of_le hserves.inService h hold now hteam hlong)

include hs

variable (hask : Askable db.committed id old)

include hask

theorem reassign_of_none_left (h : Replaceable db.committed id old r)
    (hnone : replacements db.committed r old = []) (now : Int) (draw : Draw) :
    reassign id old now draw db = (.error .noCandidate, db) := by
  obtain ⟨u, hold, heq⟩ := h.exists_replacements_eq hs
  have hdrawn : drawn db.committed u.team (db.committed.reviewersOf id ++ [r.author]) 1 draw =
      [] := by
    rw [← List.length_eq_zero_iff, length_drawn, ← heq, hnone]
    rfl
  exact Service.unitOfWork_of_yields_error _ hserves.unlocked
    (yields_reassignScope_of_nil hserves.inService h hold now hask hdrawn)

/-- The one drawn takes the place. -/
theorem reassign_of_drawn (h : Replaceable db.committed id old r) (now : Int) {draw : Draw}
    {u : User} (hold : db.committed.user? old = some u) {new : String}
    (hdrawn : (drawn db.committed u.team (db.committed.reviewersOf id ++ [r.author]) 1
      draw).map User.id = [new]) :
    ∃ done after, reassign id old now draw db = (.ok done, after) ∧
      Replacement db.committed r old new now done after.committed := by
  obtain ⟨v, hchosen, rfl⟩ := List.map_eq_singleton_iff.mp hdrawn
  obtain ⟨changed, hrun⟩ := Service.unitOfWork_of_yields_ok "reassign_reviewer" hserves.unlocked
    (yields_reassignScope hserves.inService h hold now hask hchosen)
  have hreviews := h.reviews
  obtain ⟨_, rfl⟩ := mem_of_record?_eq_some h.there
  exact ⟨_, _, hrun, replacement_withReplacement hs hreviews v.id now⟩

/-- Somebody takes the place if anybody can. -/
theorem reassign_of_replacements (h : Replaceable db.committed id old r)
    (hsome : replacements db.committed r old ≠ []) (now : Int) (draw : Draw) :
    ∃ new ∈ replacements db.committed r old, ∃ done after,
      reassign id old now draw db = (.ok done, after) ∧
        Replacement db.committed r old new now done after.committed := by
  obtain ⟨u, hold, heq⟩ := h.exists_replacements_eq hs
  let chosen :=
    (drawn db.committed u.team (db.committed.reviewersOf id ++ [r.author]) 1 draw).map User.id
  have hone : chosen.length = 1 := by
    have hpos := List.length_pos_iff.mpr hsome
    rw [List.length_map, length_drawn, ← heq]
    omega
  obtain ⟨new, hnew⟩ := List.length_eq_one_iff.mp hone
  have hmem : new ∈ replacements db.committed r old := by
    rw [heq]
    exact drawn_subset _ _ _ draw (hnew ▸ List.mem_singleton_self new)
  exact ⟨new, hmem, reassign_of_drawn hs hserves hask h now hold hnew⟩

/-- Anybody who can takes the place for some draw. -/
theorem exists_reassign_of_mem (h : Replaceable db.committed id old r) {new : String}
    (hnew : new ∈ replacements db.committed r old) (now : Int) :
    ∃ draw done after, reassign id old now draw db = (.ok done, after) ∧ done.replacedBy = new := by
  obtain ⟨u, hold, heq⟩ := h.exists_replacements_eq hs
  rw [heq] at hnew
  have hone : [new].length = min 1 (candidateIds db.committed u.team
      (db.committed.reviewersOf id ++ [r.author])).length :=
    (Nat.min_eq_left (List.length_pos_of_mem hnew)).symm
  obtain ⟨draw, hdraw⟩ := exists_drawn_eq (List.nodup_singleton new) (by simpa using hnew) hone
  obtain ⟨done, after, hrun, hdone⟩ := reassign_of_drawn hs hserves hask h now hold hdraw
  exact ⟨draw, done, after, hrun, hdone.replacedBy⟩

omit hask in
theorem reassignsExactly (id old : String) (now : Int) : ReassignsExactly db id old now := by
  have hboth : db.Serves [.pullRequests, .links] :=
    ⟨hserves.unlocked, inService_of_subset (by simp) hserves.inService⟩
  constructor
  case missing => exact fun hnone => reassign_of_missing hserves hnone old now
  case merged => exact fun r hthere hmerged => reassign_of_merged hboth hthere hmerged old now
  case notAssigned =>
    exact fun r hthere hopen hnot => reassign_of_not_mem hboth hthere hopen hnot now
  case tooMany => exact fun r team h hteam hlong => reassign_of_le hserves h hteam hlong now
  case noCandidate => exact fun r h hask hnone => reassign_of_none_left hs hserves hask h hnone now
  case replaces =>
    exact fun r h hask hsome => reassign_of_replacements hs hserves hask h hsome now
  case anyone => exact fun r h hask new hnew => exists_reassign_of_mem hs hserves hask h hnew now

omit hask in
/-- **Reassigning, exactly**: the first answer of the table that applies is given
and changes nothing, and if none applies a reviewer is replaced. -/
theorem reassign_exact (id old : String) (now : Int) :
    ReassignsExactly db id old now ∧
      ∀ draw user, (reassign id old now draw db).1 ≠ .error (.notFound .user user) := by
  have hexact := reassignsExactly hs hserves id old now
  exact ⟨hexact, hexact.user_found⟩

end Serves

/-- Of five members one is the author, two review and one is not active, so that
the fifth takes the place whatever is drawn. -/
theorem reassign_exact_oneLeft :
    let user (id : String) (active : Bool) : User := ⟨id, id, some "core", active⟩
    let r : PullRequestRecord := ⟨"p1", "Fix", "u1", .opened, 5, none⟩
    let store : Store := {
      teams := [⟨"core", 1⟩]
      users := [user "u1" true, user "u2" true, user "u3" true, user "u4" false, user "u5" true]
      pullRequests := [r]
      links := [⟨"p1", "u2", 5⟩, ⟨"p1", "u3", 5⟩] }
    let db : Database := ⟨store, 3, false⟩
    store.Sound .immediate ∧ db.Serves [.users, .pullRequests, .links] ∧
      ReassignsExactly db "p1" "u3" 9 ∧
      ∀ draw, ∃ done after, reassign "p1" "u3" 9 draw db = (.ok done, after) ∧
        done.replacedBy = "u5" := by
  intro user r store db
  have hs : store.Sound .immediate := by decide +kernel
  have hserves : db.Serves [.users, .pullRequests, .links] := ⟨rfl, by decide⟩
  have hreplaceable : Replaceable store "p1" "u3" r := ⟨by decide, rfl, by decide⟩
  have hask : Askable store "p1" "u3" := fun _ => by decide
  have hone : replacements db.committed r "u3" = ["u5"] := by decide +kernel
  obtain ⟨hexact, _⟩ := reassign_exact hs hserves "p1" "u3" 9
  refine ⟨hs, hserves, hexact, fun draw => ?_⟩
  obtain ⟨new, hnew, done, after, hrun, hdone⟩ :=
    hexact.replaces r hreplaceable hask (hone ▸ List.cons_ne_nil _ _) draw
  obtain rfl : new = "u5" := by simpa [hone] using hnew
  exact ⟨done, after, hrun, hdone.replacedBy⟩

end Reviewing

end ReviewRota
