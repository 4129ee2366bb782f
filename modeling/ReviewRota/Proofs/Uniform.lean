import ReviewRota.Proofs.Choice
import Mathlib.Data.Fintype.BigOperators
import Mathlib.Data.List.FinRange
import Mathlib.Combinatorics.Enumerative.DoubleCounting
import Mathlib.Data.List.Permutation
import Mathlib.Data.Nat.Factorial.BigOperators

/-!
# ReviewRota.Proofs.Uniform

A choice is uniform: of all ways to draw its indices, each ordered selection of
places is what the same number comes to.

A choice from `n` candidates needs one index for each of `n` places, and there are
`n!` ways to draw them (`card_indices`), which is also the number of orders of `n`
places.  Every order is drawn (`exists_shuffleFrom_eq`), so that each is drawn once
(`order_injective`), and whatever is said of the order that was drawn can be counted
among all orders (`card_filter_order`).

* `card_filter_take_eq` — the orders that start with a selection;
* `card_filter_mem_take` — the orders with a place among the first ones;
* `choose_uniformly` — the selections, and the candidates, are equally likely.
-/

namespace ReviewRota

variable {α : Type} {n : Nat}

/-! ## Indices -/

/-- The indices of a choice from `n` candidates: for each place one that is not
behind it. -/
abbrev Indices (n : Nat) : Type := (place : Fin n) → Fin (place.val + 1)

/-- The draw with these indices; places that are not there stay as they are. -/
def Indices.draw (v : Indices n) : Draw := fun place =>
  if h : place < n then v ⟨place, h⟩ else Fin.last place

/-- The indices of a draw. -/
def Draw.indices (draw : Draw) (n : Nat) : Indices n := fun place => draw place

theorem card_indices (n : Nat) : Fintype.card (Indices n) = n.factorial := by
  rw [Fintype.card_pi]
  simp only [Fintype.card_fin]
  rw [Fin.prod_univ_eq_prod_range fun place => place + 1, Finset.prod_range_add_one_eq_factorial]

/-- A draw is told by its indices for the places that are there. -/
theorem shuffle_indices (draw : Draw) {xs : List α} (hlength : xs.length = n) :
    shuffle (draw.indices n).draw xs = shuffle draw xs := by
  cases xs with
  | nil => rfl
  | cons x rest =>
      refine shuffleFrom_congr (fun place hplace => ?_) _
      have hthere : place < n := by
        rw [List.length_cons] at hplace hlength
        omega
      rw [Indices.draw, dif_pos hthere, Draw.indices]

/-! ## Orders -/

/-- The order in which indices put the places. -/
def Indices.order (v : Indices n) : List (Fin n) := shuffle v.draw (List.finRange n)

theorem Indices.order_perm (v : Indices n) : v.order.Perm (List.finRange n) :=
  perm_shuffle v.draw _

theorem Indices.nodup_order (v : Indices n) : v.order.Nodup :=
  v.order_perm.nodup_iff.mpr (List.nodup_finRange n)

theorem Indices.length_order (v : Indices n) : v.order.length = n :=
  v.order_perm.length_eq.trans List.length_finRange

/-- All orders of the places. -/
def orders (n : Nat) : Finset (List (Fin n)) := (List.finRange n).permutations.toFinset

@[simp] theorem mem_orders {l : List (Fin n)} : l ∈ orders n ↔ l.Perm (List.finRange n) := by
  rw [orders, List.mem_toFinset, List.mem_permutations]

/-- A list without repetition has as many orders as the factorial of its length. -/
theorem card_permutations {xs : List (Fin n)} (h : xs.Nodup) :
    xs.permutations.toFinset.card = xs.length.factorial := by
  rw [List.toFinset_card_of_nodup (List.nodup_permutations xs h), List.length_permutations]

theorem card_orders (n : Nat) : (orders n).card = n.factorial := by
  rw [orders, card_permutations (List.nodup_finRange n), List.length_finRange]

/-- Every order is drawn. -/
theorem exists_order_eq {l : List (Fin n)} (h : l.Perm (List.finRange n)) :
    ∃ v : Indices n, v.order = l := by
  obtain ⟨draw, hdraw⟩ := exists_choose_eq h.subperm
    (show l.length = min n (List.finRange n).length by rw [h.length_eq]; simp)
  refine ⟨draw.indices n, ?_⟩
  rw [Indices.order, shuffle_indices draw List.length_finRange, ← hdraw, choose,
    List.take_of_length_le (by rw [length_shuffle, List.length_finRange])]

theorem image_order (n : Nat) : Finset.univ.image (Indices.order (n := n)) = orders n := by
  ext l
  simp only [Finset.mem_image, Finset.mem_univ, true_and, mem_orders]
  constructor
  · rintro ⟨v, rfl⟩
    exact v.order_perm
  · exact exists_order_eq

/-- No order is drawn twice: there are as many as there are indices. -/
theorem order_injective : Function.Injective (Indices.order (n := n)) := by
  have hcard : (Finset.univ.image (Indices.order (n := n))).card =
      (Finset.univ : Finset (Indices n)).card := by
    rw [image_order, card_orders, Finset.card_univ, card_indices]
  exact Set.injOn_univ.mp (by simpa using Finset.card_image_iff.mp hcard)

/-- What is said of the order that is drawn is as likely as it is frequent among all
orders. -/
theorem card_filter_order (p : List (Fin n) → Prop) [DecidablePred p] :
    (Finset.univ.filter fun v : Indices n => p v.order).card = ((orders n).filter p).card := by
  rw [← image_order, Finset.filter_image, Finset.card_image_of_injective _ order_injective]

/-! ## Counting orders -/

/-- The orders that start with a selection are told by the order of the rest. -/
theorem card_filter_take_eq {count : Nat} {selection : List (Fin n)} (honce : selection.Nodup)
    (hlength : selection.length = min count n) :
    ((orders n).filter fun l => l.take count = selection).card =
      (n - min count n).factorial := by
  let rest := (List.finRange n).filter (· ∉ selection)
  have hrest : rest.Nodup := (List.nodup_finRange n).filter _
  have hall : (selection ++ rest).Perm (List.finRange n) := by
    refine (List.perm_ext_iff_of_nodup ?_ (List.nodup_finRange n)).mpr fun place => ?_
    · refine honce.append hrest fun place hplace hother => ?_
      exact of_decide_eq_true (List.mem_filter.mp hother).2 hplace
    · by_cases hplace : place ∈ selection <;> simp [rest, hplace]
  have hsize : rest.length = n - min count n := by
    have hlengths := hall.length_eq
    rw [List.length_append, hlength, List.length_finRange] at hlengths
    omega
  have himage : ((orders n).filter fun l => l.take count = selection) =
      rest.permutations.toFinset.image (selection ++ ·) := by
    ext l
    simp only [Finset.mem_filter, mem_orders, Finset.mem_image, List.mem_toFinset,
      List.mem_permutations]
    constructor
    · rintro ⟨hl, htake⟩
      have hsplit : selection ++ l.drop count = l := by rw [← htake, List.take_append_drop]
      refine ⟨l.drop count, ?_, hsplit⟩
      rw [← List.perm_append_left_iff selection, hsplit]
      exact hl.trans hall.symm
    · rintro ⟨others, hothers, rfl⟩
      refine ⟨(hothers.append_left selection).trans hall, ?_⟩
      have hnone : others.take (count - selection.length) = [] := by
        rw [List.take_eq_nil_iff, ← List.length_eq_zero_iff, hothers.length_eq]
        omega
      rw [List.take_append, hnone, List.append_nil, List.take_of_length_le (by omega)]
  rw [himage, Finset.card_image_of_injective _ (List.append_right_injective selection),
    card_permutations hrest, hsize]

/-- Two places are among the first ones in as many orders: exchanging them everywhere
leads from one to the other. -/
theorem card_filter_mem_take_congr (count : Nat) (a b : Fin n) :
    ((orders n).filter fun l => a ∈ l.take count).card =
      ((orders n).filter fun l => b ∈ l.take count).card := by
  have hmaps (a b : Fin n) : ∀ l ∈ (orders n).filter fun l => a ∈ l.take count,
      l.map (Equiv.swap a b) ∈ (orders n).filter fun l => b ∈ l.take count := by
    intro l hl
    rw [Finset.mem_filter, mem_orders] at hl ⊢
    refine ⟨(hl.1.map _).trans (Equiv.Perm.map_finRange_perm _), ?_⟩
    rw [← List.map_take]
    exact List.mem_map.mpr ⟨a, hl.2, Equiv.swap_apply_left a b⟩
  have hback (a b : Fin n) (l : List (Fin n)) :
      (l.map (Equiv.swap a b)).map (Equiv.swap b a) = l := by
    have hswap : Equiv.swap b a ∘ Equiv.swap a b = id := by
      funext place
      rw [Equiv.swap_comm b a, Function.comp, Equiv.swap_apply_self, id]
    rw [List.map_map, hswap, List.map_id]
  exact Finset.card_nbij' (List.map (Equiv.swap a b)) (List.map (Equiv.swap b a)) (hmaps a b)
    (hmaps b a) (fun l _ => hback a b l) (fun l _ => hback b a l)

/-- Together the places are among the first ones as often as there are first ones. -/
theorem card_filter_mem_take (count : Nat) (a : Fin n) :
    n * ((orders n).filter fun l => a ∈ l.take count).card = min count n * n.factorial := by
  have hsum : ∑ b : Fin n, ((orders n).filter fun l => b ∈ l.take count).card =
      ∑ l ∈ orders n, (Finset.univ.filter fun b : Fin n => b ∈ l.take count).card :=
    Finset.sum_card_bipartiteAbove_eq_sum_card_bipartiteBelow fun (b : Fin n) l =>
      b ∈ List.take count l
  have hfirst : ∀ l ∈ orders n,
      (Finset.univ.filter fun b : Fin n => b ∈ l.take count).card = min count n := by
    intro l hl
    rw [mem_orders] at hl
    have honce : (l.take count).Nodup :=
      (hl.nodup_iff.mpr (List.nodup_finRange n)).sublist (List.take_sublist count l)
    have hset : (Finset.univ.filter fun b : Fin n => b ∈ l.take count) =
        (l.take count).toFinset := by
      ext b
      simp
    rw [hset, List.toFinset_card_of_nodup honce, List.length_take, hl.length_eq,
      List.length_finRange]
  calc n * ((orders n).filter fun l => a ∈ l.take count).card
      = ∑ b : Fin n, ((orders n).filter fun l => b ∈ l.take count).card := by
        rw [Finset.sum_const_nat fun b _ => card_filter_mem_take_congr count b a, Finset.card_fin]
    _ = min count n * n.factorial := by
        rw [hsum, Finset.sum_const_nat hfirst, card_orders, Nat.mul_comm]

/-! ## The choice -/

/-- The places that a choice takes, in the order of the draw. -/
def Indices.places (v : Indices n) (count : Nat) : List (Fin n) :=
  choose v.draw (List.finRange n) count

theorem Indices.places_eq (v : Indices n) (count : Nat) : v.places count = v.order.take count := rfl

/-- What is chosen are the candidates in these places. -/
theorem choose_eq_map_places (candidates : List α) (count : Nat) (v : Indices candidates.length) :
    choose v.draw candidates count = (v.places count).map candidates.get := by
  rw [Indices.places, map_choose, List.map_get_finRange]

/-- Every ordered selection of places, and every candidate, is equally likely to be
chosen. -/
structure ChosenUniformly (candidates : List α) (count : Nat) : Prop where
  ways : Fintype.card (Indices candidates.length) = candidates.length.factorial
  /-- No draw chooses anything that indices do not. -/
  draws : ∀ draw, choose draw candidates count =
    choose (draw.indices candidates.length).draw candidates count
  /-- A choice takes the candidates in its places, as many as are asked for or all of
  them, and no place twice. -/
  chosen : ∀ v : Indices candidates.length,
    choose v.draw candidates count = (v.places count).map candidates.get ∧
      (v.places count).length = min count candidates.length ∧ (v.places count).Nodup
  /-- Every selection comes of the same number of ways. -/
  selections : ∀ selection : List (Fin candidates.length), selection.Nodup →
    selection.length = min count candidates.length →
      (Finset.univ.filter fun v : Indices candidates.length => v.places count = selection).card =
        (candidates.length - min count candidates.length).factorial
  /-- Every place is taken in the same share of the ways. -/
  included : ∀ place : Fin candidates.length, candidates.length *
    (Finset.univ.filter fun v : Indices candidates.length => place ∈ v.places count).card =
      min count candidates.length * candidates.length.factorial

/-- **Uniformity**: of the `n!` ways to draw the indices for `n` candidates, the same
number comes to each ordered selection of as many places as are asked for, or of all
places if there are fewer. -/
theorem choose_uniformly (candidates : List α) (count : Nat) :
    ChosenUniformly candidates count where
  ways := card_indices candidates.length
  draws draw := by rw [choose, choose, shuffle_indices draw rfl]
  chosen v := by
    refine ⟨choose_eq_map_places candidates count v, ?_, ?_⟩
    · rw [Indices.places_eq, List.length_take, v.length_order]
    · exact v.nodup_order.sublist (List.take_sublist count _)
  selections selection honce hlength :=
    (card_filter_order fun l => l.take count = selection).trans
      (card_filter_take_eq honce hlength)
  included place := by
    have hcard := card_filter_order fun l : List (Fin candidates.length) => place ∈ l.take count
    exact (congrArg (candidates.length * ·) hcard).trans (card_filter_mem_take count place)

/-- A user who is listed twice is chosen twice in some of the ways: each place is drawn
for itself. -/
theorem choose_uniformly_twice :
    let candidates := ["u1", "u2", "u1"]
    let selection : List (Fin 3) := [2, 0]
    ChosenUniformly candidates 2 ∧
      (Finset.univ.filter fun v : Indices 3 => v.places 2 = selection).card = 1 ∧
      ∀ v : Indices 3, v.places 2 = selection → choose v.draw candidates 2 = ["u1", "u1"] := by
  intro candidates selection
  have huniform : ChosenUniformly candidates 2 := choose_uniformly candidates 2
  have honce : selection.Nodup := by decide
  refine ⟨huniform, huniform.selections selection honce rfl, fun v hv => ?_⟩
  rw [(huniform.chosen v).1, hv]
  rfl

end ReviewRota
