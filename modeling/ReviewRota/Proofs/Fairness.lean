import ReviewRota.Proofs.Creating
import ReviewRota.Proofs.Operations
import ReviewRota.Proofs.Reassigning

/-!
# ReviewRota.Proofs.Fairness

What is left to chance is left to it within limits, and `Reviewing` has a check
for each place where it decides.  On a store on which the constraints hold every
answer passes the check, whatever is drawn:

| answer | check |
|---|---|
| a new pull request | `Reviewing.isFairCreation` |
| a replacement | `Reviewing.isFairReassignment` |
| users chosen on a connection | `Reviewing.isFairChoice` |

The checks look at the answer and at the store before, and know of no draw.
-/

namespace ReviewRota

open Store

namespace Reviewing

variable {s : Store}

/-! ## The checks -/

/-- The check of a new pull request asks for reviewers that fit. -/
theorem isFairCreation_iff {p : PullRequest} :
    isFairCreation s p = true ↔ Fits s p.author p.reviewers := by
  simp only [isFairCreation, Bool.and_eq_true, decide_eq_true_eq, List.all_eq_true,
    List.contains_iff_mem]
  exact ⟨fun h => ⟨h.1.1, fun _ hu => h.1.2 _ hu, h.2⟩,
    fun h => ⟨⟨h.once, fun _ hu => h.colleagues hu⟩, h.length⟩⟩

/-- The check of a choice asks for candidates, each of them once. -/
theorem isFairChoice_iff {team : String} {excluded : List String} {chosen : List User} :
    isFairChoice s team excluded chosen = true ↔ (chosen.map User.id).Nodup ∧
      chosen.map User.id ⊆ candidateIds s (some team) excluded := by
  simp only [isFairChoice, Bool.and_eq_true, decide_eq_true_eq, List.all_eq_true,
    List.contains_iff_mem]
  rfl

/-- A replacement by somebody who can take the place passes its check. -/
theorem Replacement.isFair {r : PullRequestRecord} {old new : String} {now : Int}
    {done : Reassignment} {after : Store} (h : Replacement s r old new now done after)
    (hreviews : old ∈ s.reviewersOf r.id) (hnew : new ∈ replacements s r old) :
    isFairReassignment s old done = true := by
  obtain ⟨_, _, _, _, _, _, hother⟩ := mem_replacements.mp hnew
  -- of those who review now, the new one alone did not before
  have hadded : (after.reviewersOf r.id).filter (fun u => !(s.reviewersOf r.id).contains u) =
      [new] := by
    refine List.perm_singleton.mp ((h.reviewers.filter _).trans ?_)
    rw [List.filter_cons_of_pos (by simpa using hother), List.filter_eq_nil_iff.mpr]
    intro u hu
    simpa using List.mem_of_mem_filter hu
  have hgone : old ∉ after.reviewersOf r.id := by
    rw [h.reviewers.mem_iff, List.mem_cons, not_or]
    exact ⟨fun hsame => hother (hsame ▸ hreviews), by simp⟩
  have hcandidate : (replacements s r old).contains new = true := List.contains_iff_mem.mpr hnew
  rw [isFairReassignment, h.pullRequest, h.replacedBy, Bool.and_eq_true, Bool.and_eq_true]
  exact ⟨⟨decide_eq_true hadded, hcandidate⟩, by simpa using hgone⟩

/-! ## What the operations answer -/

section Operations

variable {db after : Database} (hs : db.committed.Sound .immediate)

include hs

/-- Whatever is drawn, the reviewers of a new pull request fit. -/
theorem isFairCreation_of_create {id title author : String} {now : Int} {draw : Draw}
    {p : PullRequest} (h : create id title author now draw db = (.ok p, after)) :
    isFairCreation db.committed p = true := by
  have hdone := (create_allOrNothing db id title author now draw).of_ok h
  generalize after.committed = store at hdone
  cases hdone with
  | created hauthor _ hreviewers =>
      subst hreviewers
      exact isFairCreation_iff.mpr (fits_drawn hs hauthor draw)
  | looked hlooks => cases hlooks

/-- Whatever is drawn, somebody who can takes the place of the old reviewer. -/
theorem isFairReassignment_of_reassign {id old : String} {now : Int} {draw : Draw}
    {done : Reassignment} (h : reassign id old now draw db = (.ok done, after)) :
    isFairReassignment db.committed old done = true := by
  have hdone := (reassign_allOrNothing db id old now draw).of_ok h
  generalize after.committed = store at hdone
  cases hdone with
  | @reassigned _ _ _ r u new rest hthere _ hreviews hold hdrawn _ hafter =>
      subst hafter
      obtain ⟨_, rfl⟩ := mem_of_record?_eq_some hthere
      have hnew : new.id ∈ replacements db.committed r old := by
        have hsubset := drawn_subset (s := db.committed) u.team
          (db.committed.reviewersOf r.id ++ [r.author]) 1 draw
        rw [hdrawn] at hsubset
        rw [replacements, hold, Option.bind_some]
        exact hsubset List.mem_cons_self
      exact (replacement_withReplacement hs hreviews new.id now).isFair hreviews hnew
  | looked hlooks => cases hlooks

end Operations

end Reviewing

namespace Gateway

variable {α : Type} {q : Query α} {c last : Connection} {a : α}

/-- What is read is told by what is seen. -/
theorem eq_answer_of_read {operation id : String} (h : read operation id q c = (.ok a, last)) :
    a = q.answer c.view := by
  rw [read, Connection.query] at h
  by_cases hready : q.ready c.view = true
  · rw [if_pos hready] at h
    exact (Except.ok.inj (congrArg Prod.fst h)).symm
  · rw [if_neg hready] at h
    cases congrArg Prod.fst h

theorem eq_answer_of_readListed {operation team : String} {ids : List String}
    (h : readListed operation team ids q c = (.ok a, last)) : a = q.answer c.view := by
  obtain hlong | hfits := Nat.lt_or_ge maxListed ids.length
  · rw [readListed_of_lt _ _ _ hlong] at h
    cases congrArg Prod.fst h
  · rw [readListed_of_le _ _ _ hfits] at h
    exact eq_answer_of_read h

end Gateway

namespace Reviewing

/-- On every connection those chosen are candidates among the users that are seen
there. -/
theorem isFairChoice_of_chooseActive {c last : Connection} {fks : ForeignKeys}
    (hs : c.view.Sound fks) {team : String} {excluded : List String} {count : Nat} {draw : Draw}
    {chosen : List User}
    (h : Gateway.Users.chooseActive team excluded count draw c = (.ok chosen, last)) :
    isFairChoice c.view team excluded chosen = true := by
  obtain ⟨found, middle, hfound, hchosen⟩ := Attempt.exists_of_bind_run h
  obtain rfl := Gateway.eq_answer_of_readListed hfound
  obtain rfl : drawn c.view (some team) excluded count draw = chosen :=
    Except.ok.inj (congrArg Prod.fst hchosen)
  exact isFairChoice_iff.mpr ⟨nodup_drawn hs _ _ _ draw, drawn_subset _ _ _ draw⟩

end Reviewing

end ReviewRota
