import ReviewRota.Proofs.History

/-!
# ReviewRota.Proofs.Assignment

The rules of assigning reviewers, for every pull request after every
history: nobody reviews what they wrote, there are at most two reviewers,
nobody twice, and always as many as at the beginning.

The schema does not ask for these rules, and gateway calls can break them;
they hold because every request follows them.  The inductive part is
`Store.Follows`: a creation establishes it, and a reassignment keeps it,
since it takes one reviewer off and puts on one who is neither the author
nor a reviewer already.

* `History.assigned_since_creation` — all rules together, with those of the schema.
-/

namespace ReviewRota

open Reviewing

/-- The rules that only the requests follow, for a pull request of an author
that came about by `c`. -/
structure Store.Follows (s : Store) (author id : String) (c : Creation id) : Prop where
  authorApart : author ∉ s.reviewersOf id
  bounded : (s.reviewersOf id).length ≤ maxReviewers
  constant : (s.reviewersOf id).length = (c.after.reviewersOf id).length

/-- The rules that the assignment of a pull request satisfies which came
about by `c`. -/
structure Store.Assigned (s : Store) (r : PullRequestRecord) (c : Creation r.id) : Prop
    extends s.Follows r.author r.id c where
  distinct : (s.reviewersOf r.id).Nodup
  reviewersThere : ∀ id ∈ s.reviewersOf r.id, (s.user? id).isSome
  authorThere : (s.user? r.author).isSome
  mergeTime : r.mergedAt.isSome ↔ r.status = .merged

/-- The schema asks for the other rules. -/
theorem Store.Follows.assigned {s : Store} {r : PullRequestRecord} {c : Creation r.id}
    (h : s.Follows r.author r.id c) (hs : s.Sound .immediate) (hr : r ∈ s.pullRequests) :
    s.Assigned r c := by
  have hrefs := hs.references rfl
  refine { h with
    distinct := hs.nodup_reviewersOf r.id
    reviewersThere := fun id hid => ?_
    authorThere := Store.isSome_user?.mpr (hrefs.author r hr)
    mergeTime := hs.mergeTimes r hr }
  obtain ⟨l, hl, _, rfl⟩ := Store.mem_reviewersOf.mp hid
  exact Store.isSome_user?.mpr (hrefs.reviewer l hl)

/-- The rules do not depend on anything but the reviewers. -/
theorem Store.Follows.congr {s after : Store} {author id : String} {c : Creation id}
    (h : s.Follows author id c) (hreviewers : after.reviewersOf id = s.reviewersOf id) :
    after.Follows author id c where
  authorApart := hreviewers ▸ h.authorApart
  bounded := hreviewers ▸ h.bounded
  constant := hreviewers ▸ h.constant

namespace History

/-- Every pull request follows the rules. -/
def FollowsRules (h : History) : Prop :=
  ∀ r ∈ h.store.pullRequests,
    ∃ c, h.creation? r.id = some c ∧ h.store.Follows r.author r.id c

/-- No event breaks the rules. -/
theorem FollowsRules.andThen {h : History} (hrules : h.FollowsRules) (e : Event) :
    (h.andThen e).FollowsRules := by
  intro r hr
  have hbefore : ∀ r₀ ∈ h.store.pullRequests,
      ∃ c, (h.andThen e).creation? r₀.id = some c ∧ h.store.Follows r₀.author r₀.id c := by
    intro r₀ hr₀
    rw [creation?_of_mem hr₀]
    exact hrules r₀ hr₀
  cases (h.becomes e).reviewed h.sound r hr with
  | created hnew hauthor hreviewers husers =>
      refine ⟨_, creation?_of_new hnew hr, ?_, ?_, rfl⟩
      · rw [hreviewers.mem_iff, List.mem_map]
        rintro ⟨u, hu, hid⟩
        exact (mem_drawn hu).2.2 (hid ▸ List.mem_singleton_self _)
      · rw [hreviewers.length_eq, List.length_map]
        exact length_drawn_le _ _ _ _ _
  | kept hr₀ hreviewers =>
      obtain ⟨c, hc, hfollows⟩ := hbefore r hr₀
      exact ⟨c, hc, hfollows.congr hreviewers⟩
  | merged hr₀ hid hauthor hmerged hreviewers =>
      have hr₀ := hbefore _ hr₀
      rw [hid, hauthor] at hr₀
      obtain ⟨c, hc, hfollows⟩ := hr₀
      exact ⟨c, hc, hfollows.congr hreviewers⟩
  | @reassigned old u new hr₀ hopen hold huser hnew hteam hfree hreviewers husers =>
      obtain ⟨c, hc, hfollows⟩ := hbefore r hr₀
      -- one reviewer goes and one comes
      have hlength : ((h.andThen e).store.reviewersOf r.id).length =
          (h.store.reviewersOf r.id).length := by
        rw [hreviewers.length_eq, List.length_cons, h.sound.length_filter_ne hold]
      refine ⟨c, hc, ?_, ?_, ?_⟩
      · rw [hreviewers.mem_iff, List.mem_cons]
        rintro (hauthor | hmem)
        · exact hfree (by simp [hauthor])
        · exact hfollows.authorApart (List.mem_of_mem_filter hmem)
      · rw [hlength]
        exact hfollows.bounded
      · rw [hlength]
        exact hfollows.constant

theorem followsRules (h : History) : h.FollowsRules := by
  induction h with
  | fresh => exact fun r hr => nomatch hr
  | andThen earlier e ih => exact ih.andThen e

/-- **Assignment**: after every history every pull request satisfies the
rules of assigning reviewers. -/
theorem assigned_since_creation (h : History) :
    ∀ r ∈ h.store.pullRequests, ∃ c, h.creation? r.id = some c ∧ h.store.Assigned r c := by
  intro r hr
  obtain ⟨c, hc, hfollows⟩ := h.followsRules r hr
  exact ⟨c, hc, hfollows.assigned h.sound hr⟩

/-- A pull request that could not be merged while the links were out of
service, and whose first reviewer was replaced then. -/
theorem assigned_since_creation_replaced :
    let ask (now : Int) (o : Operation) : Event := .request now (.operation o)
    let team : List NewMember :=
      [⟨"ann", "Ann", true⟩, ⟨"bob", "Bob", true⟩, ⟨"cid", "Cid", true⟩, ⟨"dan", "Dan", true⟩]
    let h := ofEvents [ask 10 (.createTeam "core" team), ask 20 (.create "p" "Fix" "ann" .still),
      .outage [.links], ask 30 (.merge "p"), .outage [], ask 40 (.reassign "p" "bob" .still)]
    let r : PullRequestRecord := ⟨"p", "Fix", "ann", .opened, 20, none⟩
    h.store.reviewersOf r.id = ["cid", "dan"] ∧ r ∈ h.store.pullRequests ∧
      ∃ c, h.creation? r.id = some c ∧ h.store.Assigned r c :=
  ⟨by decide +kernel, by decide +kernel, assigned_since_creation _ _ (by decide +kernel)⟩

end History

end ReviewRota
