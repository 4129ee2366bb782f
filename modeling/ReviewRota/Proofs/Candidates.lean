import ReviewRota.Proofs.Choice
import ReviewRota.Proofs.Scopes

/-!
# ReviewRota.Proofs.Candidates

Who may be chosen as a reviewer, and what is drawn from them.

`Reviewing.candidateIds` says it of the store: the active members of a team who
are not excluded (`mem_candidateIds`).  What is drawn are distinct candidates
(`drawn_subset`, `nodup_drawn`), as many as asked for if there are
(`length_drawn`), and any such are drawn by some draw (`exists_drawn_eq`).
-/

namespace ReviewRota

open Store

namespace Reviewing

variable {s : Store}

/-- A candidate is an active member of the team who is not excluded; without a
team there is none. -/
theorem isCandidate_iff {team : Option String} {excluded : List String} {u : User} :
    isCandidate team excluded u = true ↔ u.active = true ∧
      (∃ name, team = some name ∧ u.team = some name) ∧ u.id ∉ excluded := by
  cases team with
  | none => simp [isCandidate]
  | some name => simp [isCandidate, and_assoc, and_left_comm]

theorem mem_candidateIds {team : Option String} {excluded : List String} {id : String} :
    id ∈ candidateIds s team excluded ↔ ∃ u ∈ s.users, u.id = id ∧ u.active = true ∧
      (∃ name, team = some name ∧ u.team = some name) ∧ id ∉ excluded := by
  simp only [candidateIds, List.mem_map, List.mem_filter, isCandidate_iff]
  constructor
  · rintro ⟨u, ⟨hu, hcandidate⟩, rfl⟩
    exact ⟨u, hu, rfl, hcandidate⟩
  · rintro ⟨u, hu, rfl, hcandidate⟩
    exact ⟨u, ⟨hu, hcandidate⟩, rfl⟩

/-- The candidates of the team that a user belongs to. -/
theorem mem_candidateIds_bind {user : String} {excluded : List String} {id : String} :
    id ∈ candidateIds s ((s.user? user).bind User.team) excluded ↔ ∃ u ∈ s.users, u.id = id ∧
      u.active = true ∧
      (∃ member name, s.user? user = some member ∧ member.team = some name ∧
        u.team = some name) ∧ id ∉ excluded := by
  rw [mem_candidateIds]
  refine exists_congr fun u => and_congr_right fun _ => and_congr_right fun _ =>
    and_congr_right fun _ => and_congr_left fun _ => ?_
  simp only [Option.bind_eq_some_iff]
  constructor
  · rintro ⟨name, ⟨member, huser, hmember⟩, hteam⟩
    exact ⟨member, name, huser, hmember, hteam⟩
  · rintro ⟨member, name, huser, hmember, hteam⟩
    exact ⟨name, ⟨member, huser, hmember⟩, hteam⟩

theorem nodup_candidateIds {fks : ForeignKeys} (hs : s.Sound fks) (team : Option String)
    (excluded : List String) : (candidateIds s team excluded).Nodup :=
  (hs.users.nodup_keys User.ordersBy).sublist ((List.filter_sublist).map User.id)

/-- Candidates are known. -/
theorem isSome_user?_of_mem_candidateIds {team : Option String} {excluded : List String}
    {id : String} (h : id ∈ candidateIds s team excluded) : (s.user? id).isSome := by
  obtain ⟨u, hu, hid, _⟩ := mem_candidateIds.mp h
  exact isSome_user?.mpr ⟨u, hu, hid⟩

/-! ## What is drawn -/

theorem mem_drawn {team : Option String} {excluded : List String} {count : Nat} {draw : Draw}
    {u : User} (h : u ∈ drawn s team excluded count draw) :
    u ∈ s.users ∧ (∃ name, team = some name ∧ u.team = some name) ∧ u.id ∉ excluded := by
  obtain ⟨hmem, hcandidate⟩ := List.mem_filter.mp (mem_of_mem_choose h)
  exact ⟨hmem, (isCandidate_iff.mp hcandidate).2⟩

/-- What is drawn are candidates. -/
theorem drawn_subset (team : Option String) (excluded : List String) (count : Nat)
    (draw : Draw) :
    (drawn s team excluded count draw).map User.id ⊆ candidateIds s team excluded :=
  List.map_subset User.id fun _ h => mem_of_mem_choose h

theorem length_drawn (team : Option String) (excluded : List String) (count : Nat)
    (draw : Draw) :
    (drawn s team excluded count draw).length =
      min count (candidateIds s team excluded).length := by
  rw [drawn, length_choose, candidateIds, List.length_map]

theorem length_drawn_le (s : Store) (team : Option String) (excluded : List String) (count : Nat)
    (draw : Draw) : (drawn s team excluded count draw).length ≤ count := by
  rw [length_drawn]
  exact Nat.min_le_left _ _

theorem nodup_drawn {fks : ForeignKeys} (hs : s.Sound fks) (team : Option String)
    (excluded : List String) (count : Nat) (draw : Draw) :
    ((drawn s team excluded count draw).map User.id).Nodup :=
  nodup_map_choose (nodup_candidateIds hs team excluded)

/-- Any distinct candidates are drawn by some draw, if they are as many as are
drawn. -/
theorem exists_drawn_eq {team : Option String} {excluded : List String} {count : Nat}
    {ids : List String} (honce : ids.Nodup) (hids : ids ⊆ candidateIds s team excluded)
    (hlength : ids.length = min count (candidateIds s team excluded).length) :
    ∃ draw, (drawn s team excluded count draw).map User.id = ids := by
  obtain ⟨draw, hdraw⟩ := exists_choose_eq (List.subperm_of_subset honce hids) hlength
  exact ⟨draw, by rw [drawn, map_choose]; exact hdraw⟩

end Reviewing

end ReviewRota
