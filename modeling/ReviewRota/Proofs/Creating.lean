import ReviewRota.Proofs.Answers
import ReviewRota.Proofs.Candidates
import ReviewRota.Proofs.Yields

/-!
# ReviewRota.Proofs.Creating

Creating a pull request, exactly: for every sound store and no storage failure,
which answer is given when, and what is left behind.

| if | then |
|---|---|
| the identifier is taken | `alreadyExists` |
| the author is not known | `notFound` |
| otherwise | it is stored with reviewers, whom the draw decides |

The reviewers are two of the author's active colleagues (`colleagues`), or all of
them if there are fewer.

* `Reviewing.mem_colleagues` — who can review;
* `Reviewing.Added` — what is left behind;
* `Reviewing.create_exact` — the table above.
-/

namespace ReviewRota

open Gateway Statement Store

namespace Reviewing

variable {s : Store}

/-! ## The reviewers of a new pull request -/

/-- Who can review what an author writes: the other active members of the
author's team. -/
def colleagues (s : Store) (author : String) : List String :=
  candidateIds s ((s.user? author).bind User.team) [author]

theorem mem_colleagues {author id : String} :
    id ∈ colleagues s author ↔ ∃ u ∈ s.users, u.id = id ∧ u.active = true ∧
      (∃ writer team, s.user? author = some writer ∧ writer.team = some team ∧
        u.team = some team) ∧ id ≠ author := by
  rw [colleagues, mem_candidateIds_bind, List.mem_singleton]

theorem colleagues_eq {author : String} {writer : User} (hauthor : s.user? author = some writer) :
    colleagues s author = candidateIds s writer.team [author] := by
  rw [colleagues, hauthor, Option.bind_some]

/-- Reviewers as they are to be: two colleagues of the author, or all of them if
there are fewer. -/
structure Fits (s : Store) (author : String) (reviewers : List String) : Prop where
  once : reviewers.Nodup
  colleagues : reviewers ⊆ colleagues s author
  length : reviewers.length = min 2 (Reviewing.colleagues s author).length

/-- What is drawn fits. -/
theorem fits_drawn (hs : s.Sound .immediate) {author : String} {writer : User}
    (hauthor : s.user? author = some writer) (draw : Draw) :
    Fits s author ((drawn s writer.team [author] 2 draw).map User.id) where
  once := nodup_drawn hs _ _ _ draw
  colleagues := colleagues_eq hauthor ▸ drawn_subset _ _ _ draw
  length := by rw [List.length_map, length_drawn, colleagues_eq hauthor]

/-- Whatever fits is drawn by some draw. -/
theorem Fits.exists_drawn_eq {author : String} {writer : User}
    (hauthor : s.user? author = some writer) {reviewers : List String}
    (h : Fits s author reviewers) :
    ∃ draw, (drawn s writer.team [author] 2 draw).map User.id = reviewers := by
  obtain ⟨honce, hcolleagues, hlength⟩ := h
  rw [colleagues_eq hauthor] at hcolleagues hlength
  exact Reviewing.exists_drawn_eq honce hcolleagues hlength

/-- What creating a pull request leaves behind: its row and a link for each of
its reviewers, and everything else as it was. -/
structure Added (s : Store) (p : NewPullRequest) (reviewers : List String) (after : Store) :
    Prop where
  pullRequests : after.pullRequests.Perm (p.record :: s.pullRequests)
  links : after.links.Perm
    (reviewers.map (fun reviewer => ⟨p.id, reviewer, p.createdAt⟩) ++ s.links)
  others : after = { s with pullRequests := after.pullRequests, links := after.links }

theorem added_withPullRequest (s : Store) (p : NewPullRequest) (reviewers : List String) :
    Added s p reviewers (s.withPullRequest p reviewers) :=
  ⟨insertRow_perm _ _ _, insertRows_perm _ _ _, rfl⟩

end Reviewing

/-! ## The scope -/

namespace Gateway

variable {s : Store} {id author : String}

theorem yields_createScope_of_some (hserves : s.inService [.users, .pullRequests, .links] = true)
    (hthere : (s.record? id).isSome) (title author : String) (now : Int) (draw : Draw) :
    Yields (Reviewing.createScope id title author now draw) s
      (.error (.alreadyExists .pullRequest id)) s := by
  have hrecords : s.inService [.pullRequests] = true := inService_of_subset (by simp) hserves
  refine .bind (PullRequests.yields_isThere id hrecords) ?_
  rw [if_pos hthere]
  exact .fail _

theorem yields_createScope_of_none (hserves : s.inService [.users, .pullRequests, .links] = true)
    (hnew : s.record? id = none) (hnone : s.user? author = none) (title : String) (now : Int)
    (draw : Draw) :
    Yields (Reviewing.createScope id title author now draw) s
      (.error (.notFound .user author)) s := by
  have hrecords : s.inService [.pullRequests] = true := inService_of_subset (by simp) hserves
  have husers : s.inService [.users] = true := inService_of_subset (by simp) hserves
  have hfree : ¬(s.record? id).isSome = true := by simp [hnew]
  refine .bind (PullRequests.yields_isThere id hrecords) ?_
  rw [if_neg hfree]
  exact .bind_error _ (Users.yields_get_of_none husers hnone)

/-- Whoever is drawn reviews. -/
theorem yields_createScope (hs : s.Sound .immediate)
    (hserves : s.inService [.users, .pullRequests, .links] = true) (hnew : s.record? id = none)
    {writer : User} (hauthor : s.user? author = some writer) (title : String) (now : Int)
    (draw : Draw) :
    let p : NewPullRequest := ⟨id, title, author, now⟩
    let reviewers := (Reviewing.drawn s writer.team [author] 2 draw).map User.id
    Yields (Reviewing.createScope id title author now draw) s (.ok (p.opened reviewers))
      (s.withPullRequest p reviewers) := by
  intro p reviewers
  obtain ⟨_, rfl⟩ := mem_of_user?_eq_some hauthor
  have hrecords : s.inService [.pullRequests] = true := inService_of_subset (by simp) hserves
  have husers : s.inService [.users] = true := inService_of_subset (by simp) hserves
  have hboth : s.inService [.pullRequests, .links] = true := inService_of_subset (by simp) hserves
  have hfree : ¬(s.record? id).isSome = true := by simp [hnew]
  have hknown : ∀ reviewer ∈ reviewers, (s.user? reviewer).isSome := fun reviewer hreviewer =>
    Reviewing.isSome_user?_of_mem_candidateIds (Reviewing.drawn_subset _ _ _ draw hreviewer)
  have honce : reviewers.Nodup := Reviewing.nodup_drawn hs _ _ _ draw
  have hwriter : (s.user? p.author).isSome := by simp [p, hauthor]
  have hfits : writer.team.isSome → [writer.id].length ≤ maxListed := fun _ => by simp [maxListed]
  refine .bind (PullRequests.yields_isThere id hrecords) ?_
  rw [if_neg hfree]
  exact .bind (Users.yields_get husers hauthor) (.bind (Users.yields_choice husers _ _ _ hfits)
    (.bind (PullRequests.yields_create hs hboth hnew hwriter hknown honce) (.pure _)))

end Gateway

/-! ## The operation -/

namespace Reviewing

variable {db : Database} {id author : String}

/-- What creating a pull request comes to: which answer is given when, whatever
is drawn. -/
structure CreatesExactly (db : Database) (id title author : String) (now : Int) : Prop where
  taken : (db.committed.record? id).isSome → ∀ draw,
    create id title author now draw db = (.error (.alreadyExists .pullRequest id), db)
  unknown : db.committed.record? id = none → db.committed.user? author = none → ∀ draw,
    create id title author now draw db = (.error (.notFound .user author), db)
  creates : db.committed.record? id = none → (db.committed.user? author).isSome → ∀ draw,
    ∃ reviewers after, Fits db.committed author reviewers ∧
      create id title author now draw db =
        (.ok ⟨id, title, author, .opened, reviewers, now, none⟩, after) ∧
      Added db.committed ⟨id, title, author, now⟩ reviewers after.committed
  /-- All reviewers that fit are drawn by some draw. -/
  anyone : db.committed.record? id = none → (db.committed.user? author).isSome →
    ∀ reviewers, Fits db.committed author reviewers → ∃ draw after,
      create id title author now draw db =
        (.ok ⟨id, title, author, .opened, reviewers, now, none⟩, after)

section Serves

variable (hs : db.committed.Sound .immediate)
  (hserves : db.Serves [.users, .pullRequests, .links])

include hs hserves

/-- The drawn ones review. -/
theorem create_of_drawn (hnew : db.committed.record? id = none) {writer : User}
    (hauthor : db.committed.user? author = some writer) (title : String) (now : Int)
    {draw : Draw} {reviewers : List String}
    (hdrawn : (drawn db.committed writer.team [author] 2 draw).map User.id = reviewers) :
    ∃ after, create id title author now draw db =
        (.ok ⟨id, title, author, .opened, reviewers, now, none⟩, after) ∧
      Added db.committed ⟨id, title, author, now⟩ reviewers after.committed := by
  have hscope := yields_createScope hs hserves.inService hnew hauthor title now draw
  rw [hdrawn] at hscope
  obtain ⟨changed, hrun⟩ := Service.unitOfWork_of_yields_ok "create_pull_request"
    hserves.unlocked hscope
  exact ⟨_, hrun, added_withPullRequest _ _ _⟩

/-- **Creating, exactly**: the first answer of the table that applies is given
and changes nothing, and if none applies the pull request is stored with
reviewers that fit, any of them for some draw. -/
theorem create_exact (id title author : String) (now : Int) :
    CreatesExactly db id title author now := by
  constructor
  case taken =>
    exact fun hthere draw => Service.unitOfWork_of_yields_error _ hserves.unlocked
      (yields_createScope_of_some hserves.inService hthere title author now draw)
  case unknown =>
    exact fun hnew hnone draw => Service.unitOfWork_of_yields_error _ hserves.unlocked
      (yields_createScope_of_none hserves.inService hnew hnone title now draw)
  case creates =>
    intro hnew hknown draw
    obtain ⟨writer, hauthor⟩ := Option.isSome_iff_exists.mp hknown
    obtain ⟨after, hrun, hadded⟩ := create_of_drawn hs hserves hnew hauthor title now rfl
    exact ⟨_, after, fits_drawn hs hauthor draw, hrun, hadded⟩
  case anyone =>
    intro hnew hknown reviewers hfits
    obtain ⟨writer, hauthor⟩ := Option.isSome_iff_exists.mp hknown
    obtain ⟨draw, hdrawn⟩ := hfits.exists_drawn_eq hauthor
    obtain ⟨after, hrun, _⟩ := create_of_drawn hs hserves hnew hauthor title now hdrawn
    exact ⟨draw, after, hrun⟩

end Serves

/-- Of five members one is the author and one is not active.  Any two of the other
three review, if the draw is right. -/
theorem create_exact_anyTwo :
    let user (id : String) (active : Bool) : User := ⟨id, id, some "core", active⟩
    let store : Store := {
      teams := [⟨"core", 1⟩]
      users := [user "u1" true, user "u2" true, user "u3" false, user "u4" true, user "u5" true] }
    let db : Database := ⟨store, 3, false⟩
    store.Sound .immediate ∧ db.Serves [.users, .pullRequests, .links] ∧
      colleagues store "u1" = ["u2", "u4", "u5"] ∧ CreatesExactly db "p1" "Fix" "u1" 9 ∧
      ∃ draw after, create "p1" "Fix" "u1" 9 draw db =
        (.ok ⟨"p1", "Fix", "u1", .opened, ["u5", "u2"], 9, none⟩, after) := by
  intro user store db
  have hs : store.Sound .immediate := by decide +kernel
  have hserves : db.Serves [.users, .pullRequests, .links] := ⟨rfl, by decide⟩
  have hcolleagues : colleagues store "u1" = ["u2", "u4", "u5"] := by decide +kernel
  have hfits : Fits store "u1" ["u5", "u2"] :=
    ⟨by decide, by rw [hcolleagues]; decide, by rw [hcolleagues]; rfl⟩
  have hexact := create_exact hs hserves "p1" "Fix" "u1" 9
  exact ⟨hs, hserves, hcolleagues, hexact, hexact.anyone rfl (by decide) _ hfits⟩

end Reviewing

end ReviewRota
