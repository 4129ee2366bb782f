import ReviewRota.Draw
import Mathlib.Algebra.Group.Nat.Defs
import Mathlib.Data.List.Perm.Subperm

/-!
# ReviewRota.Proofs.Choice

A choice takes candidates as they are, each place of the list at most once:
shuffling only rearranges (`perm_shuffle`), so what is chosen are candidates
(`mem_of_mem_choose`), and candidates without repetition stay without
(`nodup_map_choose`).  How many are chosen is `length_choose`.

The other way round everything that may be chosen is chosen by some draw
(`exists_choose_eq`).  A draw names places and not candidates (`map_choose`).
-/

namespace ReviewRota

variable {α β : Type}

theorem perm_swapAt (xs : List α) (i j : Nat) : (swapAt xs i j).Perm xs := by
  unfold swapAt
  split
  · next a b ha hb =>
      obtain ⟨hi, rfl⟩ := List.getElem?_eq_some_iff.mp ha
      obtain ⟨hj, rfl⟩ := List.getElem?_eq_some_iff.mp hb
      exact List.set_set_perm hi hj
  · exact List.Perm.refl xs

theorem perm_shuffleFrom (draw : Draw) (i : Nat) (xs : List α) :
    (shuffleFrom draw i xs).Perm xs := by
  induction i generalizing xs with
  | zero => exact List.Perm.refl xs
  | succ i ih => exact (ih _).trans (perm_swapAt xs (i + 1) _)

/-- A shuffle is a rearrangement. -/
theorem perm_shuffle (draw : Draw) (xs : List α) : (shuffle draw xs).Perm xs :=
  perm_shuffleFrom draw _ xs

/-- Only candidates are chosen. -/
theorem mem_of_mem_choose {draw : Draw} {candidates : List α} {count : Nat} {x : α}
    (h : x ∈ choose draw candidates count) : x ∈ candidates :=
  (perm_shuffle draw candidates).mem_iff.mp (List.mem_of_mem_take h)

/-- No key is chosen twice that is not there twice. -/
theorem nodup_map_choose {draw : Draw} {candidates : List α} {count : Nat} {key : α → β}
    (h : (candidates.map key).Nodup) : ((choose draw candidates count).map key).Nodup := by
  have hshuffle : ((shuffle draw candidates).map key).Nodup :=
    ((perm_shuffle draw candidates).map key).nodup_iff.mpr h
  rw [choose, List.map_take]
  exact hshuffle.sublist (List.take_sublist count _)

/-! ## What can be drawn -/

theorem map_swapAt (f : α → β) (xs : List α) (i j : Nat) :
    (swapAt xs i j).map f = swapAt (xs.map f) i j := by
  unfold swapAt
  rw [List.getElem?_map, List.getElem?_map]
  cases xs[i]? with
  | none => rfl
  | some a =>
      cases xs[j]? with
      | none => rfl
      | some b => simp [List.map_set]

theorem map_shuffleFrom (f : α → β) (draw : Draw) (i : Nat) (xs : List α) :
    (shuffleFrom draw i xs).map f = shuffleFrom draw i (xs.map f) := by
  induction i generalizing xs with
  | zero => rfl
  | succ i ih => rw [shuffleFrom, shuffleFrom, ih, map_swapAt]

/-- A choice looks at places only, and not at what is there. -/
theorem map_choose (f : α → β) (draw : Draw) (candidates : List α) (count : Nat) :
    (choose draw candidates count).map f = choose draw (candidates.map f) count := by
  rw [choose, choose, List.map_take, shuffle, shuffle, map_shuffleFrom, List.length_map]

/-- A swap with the last place moves an item to the end. -/
theorem exists_swapAt_last {xs : List α} {i j : Nat} (hlast : xs.length = i + 1)
    (hj : j < xs.length) : ∃ others, swapAt xs i j = others ++ [xs[j]] := by
  have hi : i < xs.length := by omega
  have hlength : (swapAt xs i j).length = i + 1 := (length_swapAt xs i j).trans hlast
  have hend : (swapAt xs i j)[i]? = some xs[j] := by
    rw [swapAt, List.getElem?_eq_getElem hi, List.getElem?_eq_getElem hj]
    by_cases hsame : j = i
    · subst hsame
      simp [hi]
    · simp [hsame, hi]
  obtain ⟨_, hitem⟩ := List.getElem?_eq_some_iff.mp hend
  refine ⟨(swapAt xs i j).take i, ?_⟩
  rw [← hitem, List.take_append_getElem, List.take_of_length_le (Nat.le_of_eq hlength)]

/-- What is behind the swapped places stays. -/
theorem swapAt_append {xs : List α} (ys : List α) {i j : Nat} (hi : i < xs.length)
    (hj : j < xs.length) : swapAt (xs ++ ys) i j = swapAt xs i j ++ ys := by
  have hleft : (xs ++ ys)[i]? = some xs[i] := by
    rw [List.getElem?_append_left hi, List.getElem?_eq_getElem hi]
  have hright : (xs ++ ys)[j]? = some xs[j] := by
    rw [List.getElem?_append_left hj, List.getElem?_eq_getElem hj]
  rw [swapAt, hleft, hright, swapAt, List.getElem?_eq_getElem hi, List.getElem?_eq_getElem hj]
  simp [List.set_append_left, hi, hj]

theorem shuffleFrom_append (draw : Draw) {i : Nat} {xs : List α} (ys : List α)
    (hi : i < xs.length) :
    shuffleFrom draw i (xs ++ ys) = shuffleFrom draw i xs ++ ys := by
  induction i generalizing xs with
  | zero => rfl
  | succ i ih =>
      have hdrawn : (draw (i + 1)).val < xs.length := by omega
      have hrest : i < (swapAt xs (i + 1) (draw (i + 1))).length := by
        rw [length_swapAt]
        omega
      rw [shuffleFrom, shuffleFrom, swapAt_append ys hi hdrawn, ih hrest]

/-- Only the indices for the places up to `i` matter. -/
theorem shuffleFrom_congr {draw other : Draw} {i : Nat} (h : ∀ p ≤ i, draw p = other p)
    (xs : List α) : shuffleFrom draw i xs = shuffleFrom other i xs := by
  induction i generalizing xs with
  | zero => rfl
  | succ i ih =>
      rw [shuffleFrom, shuffleFrom, h (i + 1) (Nat.le_refl _)]
      exact ih (fun p hp => h p (Nat.le_succ_of_le hp)) _

@[simp] theorem Draw.set_self (draw : Draw) {position index : Nat} (h : index ≤ position) :
    (draw.set position index position).val = index := by
  simp [Draw.set, Nat.mod_eq_of_lt (Nat.lt_succ_of_le h)]

theorem Draw.set_of_ne (draw : Draw) {position other : Nat} (index : Nat) (h : other ≠ position) :
    draw.set position index other = draw other := if_neg h

/-- Every rearrangement can be drawn: the last item is swapped to its place, and
the others are drawn in front of it. -/
theorem exists_shuffleFrom_eq {i : Nat} {xs ys : List α} (hlength : xs.length = i + 1)
    (h : ys.Perm xs) : ∃ draw, shuffleFrom draw i xs = ys := by
  induction i generalizing xs ys with
  | zero =>
      obtain ⟨x, rfl⟩ := List.length_eq_one_iff.mp hlength
      exact ⟨Draw.still, (List.perm_singleton.mp h).symm⟩
  | succ i ih =>
      obtain rfl | ⟨front, y, rfl⟩ := List.eq_nil_or_concat ys
      · rw [← h.length_eq] at hlength
        exact nomatch hlength
      · obtain ⟨j, hj, rfl⟩ := List.getElem_of_mem (h.subset (by simp : y ∈ front.concat y))
        obtain ⟨others, hswap⟩ := exists_swapAt_last hlength hj
        have hfront : front.Perm others := by
          have hall := h.trans (perm_swapAt xs (i + 1) j).symm
          rw [List.concat_eq_append, hswap] at hall
          exact (List.perm_append_right_iff _).mp hall
        have hothers : others.length = i + 1 := by
          have hall := length_swapAt xs (i + 1) j
          rw [hswap, List.length_append, List.length_singleton] at hall
          omega
        obtain ⟨draw, hdraw⟩ := ih hothers hfront
        refine ⟨draw.set (i + 1) j, ?_⟩
        have hsame : ∀ p ≤ i, draw.set (i + 1) j p = draw p := fun p hp =>
          draw.set_of_ne j (by omega)
        rw [shuffleFrom, Draw.set_self draw (by omega), hswap,
          shuffleFrom_append _ _ (by omega), shuffleFrom_congr hsame, hdraw,
          List.concat_eq_append]

/-- Whatever may be chosen is chosen by some draw, in every order. -/
theorem exists_choose_eq {candidates chosen : List α} {count : Nat} (h : chosen.Subperm candidates)
    (hlength : chosen.length = min count candidates.length) :
    ∃ draw, choose draw candidates count = chosen := by
  obtain ⟨front, hfront, hsub⟩ := h
  obtain ⟨rest, hrest⟩ := hsub.exists_perm_append
  have hperm : (chosen ++ rest).Perm candidates := (hfront.symm.append_right rest).trans hrest.symm
  obtain ⟨draw, hdraw⟩ : ∃ draw, shuffle draw candidates = chosen ++ rest := by
    cases candidates with
    | nil => exact ⟨Draw.still, (List.perm_nil.mp hperm).symm⟩
    | cons first others => exact exists_shuffleFrom_eq rfl hperm
  refine ⟨draw, ?_⟩
  have hall := hperm.length_eq
  rw [List.length_append] at hall
  rw [choose, hdraw]
  by_cases hcount : count ≤ candidates.length
  · exact List.take_left' (by omega)
  · have hnone : rest = [] := List.length_eq_zero_iff.mp (by omega)
    rw [hnone, List.append_nil, List.take_of_length_le (by omega)]

/-! ## What words can stand for -/

/-- How many words stand for each index below a bound. -/
def wordsEach (bound : Nat) : Nat := 2 ^ (31 - Nat.log2 bound)

theorem mul_wordsEach_lt {bound : Nat} (hbound : bound < wordCount) :
    bound * wordsEach bound < wordCount := by
  have hlog : bound.log2 ≤ 31 := by
    rcases Nat.eq_zero_or_pos bound with rfl | hpos
    · decide
    · exact Nat.lt_succ_iff.mp ((Nat.log2_lt (by omega)).mpr hbound)
  calc bound * wordsEach bound
      < 2 ^ (bound.log2 + 1) * 2 ^ (31 - bound.log2) :=
        Nat.mul_lt_mul_of_pos_right Nat.lt_log2_self (Nat.two_pow_pos _)
    _ = 2 ^ 32 := by rw [← Nat.pow_add]; congr 1; omega

theorem mul_wordsEach_le {bound : Nat} (hbound : bound ≤ wordCount) :
    bound * wordsEach bound ≤ wordCount := by
  rcases Nat.eq_or_lt_of_le hbound with rfl | hbound
  · decide
  · exact Nat.le_of_lt (mul_wordsEach_lt hbound)

/-- A word stands for an index if its product with the bound is in the first part of the
round of that index. -/
theorem scaled?_eq_some_iff {bound index : Nat} {word : UInt32} (hone : 1 ≤ bound)
    (hbound : bound ≤ wordCount) :
    scaled? bound word = some index ↔ index * wordCount ≤ word.toNat * bound ∧
      word.toNat * bound < index * wordCount + bound * wordsEach bound := by
  have hscale := mul_wordsEach_le hbound
  have hpos : 1 ≤ bound * wordsEach bound := Nat.mul_pos hone (Nat.two_pow_pos _)
  have haccepted : acceptedUpTo bound = bound * wordsEach bound - 1 := rfl
  simp only [scaled?, haccepted]
  generalize word.toNat * bound = product
  generalize bound * wordsEach bound = accepted at hscale hpos
  unfold wordCount at *
  constructor
  · intro h
    split at h
    · cases h
      omega
    · cases h
  · intro h
    have hindex : product / 4294967296 = index := by omega
    rw [if_pos (by omega), hindex]

/-- The first word whose product with the bound reaches an index. -/
def firstWord (bound index : Nat) : Nat := (index * wordCount + (bound - 1)) / bound

theorem firstWord_le_iff {bound index word : Nat} (hone : 1 ≤ bound) :
    firstWord bound index ≤ word ↔ index * wordCount ≤ word * bound := by
  rw [firstWord, ← Nat.lt_succ_iff, Nat.div_lt_iff_lt_mul hone, Nat.succ_mul]
  omega

/-- Every further word adds the bound to the product. -/
theorem lt_firstWord_add_iff {bound index word : Nat} (hone : 1 ≤ bound) (each : Nat) :
    word < firstWord bound index + each ↔ word * bound < index * wordCount + bound * each := by
  by_cases hless : word < each
  · have hproduct := Nat.mul_lt_mul_of_pos_right hless hone
    rw [Nat.mul_comm each] at hproduct
    omega
  · obtain ⟨left, rfl⟩ := Nat.exists_eq_add_of_le (Nat.le_of_not_lt hless)
    have hleft : ¬firstWord bound index ≤ left ↔ ¬index * wordCount ≤ left * bound :=
      not_congr (firstWord_le_iff hone)
    rw [Nat.add_mul, Nat.mul_comm each]
    omega

theorem firstWord_add_le {bound index : Nat} (hone : 1 ≤ bound) (hbound : bound ≤ wordCount)
    (hindex : index < bound) : firstWord bound index + wordsEach bound ≤ wordCount := by
  have hscale := mul_wordsEach_le hbound
  have hlast : index * wordCount + wordCount ≤ wordCount * bound := by
    rw [← Nat.succ_mul, Nat.mul_comm]
    exact Nat.mul_le_mul_left wordCount hindex
  refine Nat.le_of_not_lt fun hmore => ?_
  have h := (lt_firstWord_add_iff hone (wordsEach bound)).mp hmore
  omega

theorem toNat_word {n : Nat} (h : n < wordCount) : (UInt32.ofNat n).toNat = n :=
  UInt32.toNat_ofNat_of_lt h

/-- The words that stand for an index are as many in a row. -/
theorem scaled?_ofNat_eq_some_iff {bound index n : Nat} (hbound : bound ≤ wordCount)
    (hindex : index < bound) (hn : n < wordCount) :
    scaled? bound (UInt32.ofNat n) = some index ↔
      firstWord bound index ≤ n ∧ n < firstWord bound index + wordsEach bound := by
  have hone : 1 ≤ bound := Nat.zero_lt_of_lt hindex
  rw [scaled?_eq_some_iff hone hbound, toNat_word hn, firstWord_le_iff hone,
    lt_firstWord_add_iff hone]

end ReviewRota
