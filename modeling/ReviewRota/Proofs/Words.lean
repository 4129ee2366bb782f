import ReviewRota.Proofs.Choice
import Mathlib.Data.Set.Card
import Mathlib.Order.Interval.Finset.Nat

/-!
# ReviewRota.Proofs.Words

What random words are worth.

The words that stand for an index are in a row (`firstWord`), and there are as many for
each index: of `bound * 2 ^ leadingZeros bound` words that are accepted no index gets more
than its share.

A draw that rejects words goes on as long as it takes.  It is told here without a list
that may run out: from a stream of words (`DrawsBelow`, `Draws`), of which each run has one
end at most.  Behind a list come zeros, and a zero is never rejected; hence the end is
reached.

* `fair_words` — the shares of all indices, and how many words a choice takes.
-/

namespace ReviewRota

/-! ## Shares -/

/-- The zeros in front of a bound of 32 bits. -/
def leadingZeros (bound : Nat) : Nat := (BitVec.ofNat 32 bound).clz.toNat

theorem leadingZeros_eq {bound : Nat} (hone : 1 ≤ bound) (hbound : bound < wordCount) :
    leadingZeros bound = 31 - bound.log2 := by
  have htoNat : (BitVec.ofNat 32 bound).toNat = bound := Nat.mod_eq_of_lt hbound
  have hne : BitVec.ofNat 32 bound ≠ 0#32 := by
    intro hzero
    rw [hzero, BitVec.toNat_zero] at htoNat
    omega
  have hlow := BitVec.two_pow_sub_clz_le_toNat_of_ne_zero (by decide) hne
  have hhigh := BitVec.toNat_lt_two_pow_sub_clz (x := BitVec.ofNat 32 bound)
  have hclz : (BitVec.ofNat 32 bound).clz.toNat < 32 := BitVec.clz_lt_iff_ne_zero.mpr hne
  rw [htoNat] at hlow hhigh
  -- the two bounds that the zeros give leave one logarithm
  have hlog : bound.log2 = 31 - leadingZeros bound := by
    refine (Nat.log2_eq_iff (by omega)).mpr ⟨hlow, ?_⟩
    rwa [show 31 - leadingZeros bound + 1 = 32 - leadingZeros bound by unfold leadingZeros; omega]
  unfold leadingZeros at hlog ⊢
  omega

theorem wordsEach_eq {bound : Nat} (hone : 1 ≤ bound) (hbound : bound < wordCount) :
    wordsEach bound = 2 ^ leadingZeros bound := by
  rw [leadingZeros_eq hone hbound]
  rfl

/-- The limit as it is computed in 32 bits, where nothing is carried out of them. -/
theorem acceptedUpTo_eq {bound : Nat} (hone : 1 ≤ bound) (hbound : bound < wordCount) :
    acceptedUpTo bound =
      ((BitVec.ofNat 32 bound <<< (BitVec.ofNat 32 bound).clz) - 1#32).toNat := by
  have hless := mul_wordsEach_lt hbound
  have hpos : 1 ≤ bound * wordsEach bound := Nat.mul_pos hone (Nat.two_pow_pos _)
  have htoNat : (BitVec.ofNat 32 bound).toNat = bound := Nat.mod_eq_of_lt hbound
  have hmoved : (BitVec.ofNat 32 bound <<< (BitVec.ofNat 32 bound).clz).toNat =
      bound * wordsEach bound := by
    rw [BitVec.shiftLeft_eq', BitVec.toNat_shiftLeft, htoNat, Nat.shiftLeft_eq,
      wordsEach_eq hone hbound]
    rw [wordsEach_eq hone hbound] at hless
    exact Nat.mod_eq_of_lt hless
  have haccepted : acceptedUpTo bound = bound * wordsEach bound - 1 := rfl
  rw [BitVec.toNat_sub, hmoved, haccepted]
  simp only [BitVec.toNat_ofNat]
  unfold wordCount at hless
  omega

theorem ncard_scaled?_eq {bound index : Nat} (hbound : bound ≤ wordCount)
    (hindex : index < bound) :
    {word | scaled? bound word = some index}.ncard = wordsEach bound := by
  have hlast := firstWord_add_le (Nat.zero_lt_of_lt hindex) hbound hindex
  have hrow : {word | scaled? bound word = some index} = UInt32.ofNat ''
      (Finset.Ico (firstWord bound index) (firstWord bound index + wordsEach bound) : Set Nat) := by
    ext word
    have hword := scaled?_ofNat_eq_some_iff hbound hindex (n := word.toNat) word.toNat_lt
    rw [UInt32.ofNat_toNat] at hword
    simp only [Set.mem_ofPred_eq, hword, Finset.coe_Ico, Set.mem_image, Set.mem_Ico]
    constructor
    · intro h
      exact ⟨word.toNat, h, UInt32.ofNat_toNat⟩
    · rintro ⟨n, hn, rfl⟩
      rwa [toNat_word (by omega)]
  have hinjective : Set.InjOn UInt32.ofNat
      (Finset.Ico (firstWord bound index) (firstWord bound index + wordsEach bound) : Set Nat) := by
    intro n hn m hm heq
    rw [Finset.coe_Ico, Set.mem_Ico] at hn hm
    have hnat := congrArg UInt32.toNat heq
    rwa [toNat_word (by omega), toNat_word (by omega)] at hnat
  rw [hrow, hinjective.ncard_image, Set.ncard_coe_finset, Nat.card_Ico, Nat.add_sub_cancel_left]

theorem lt_of_scaled?_eq {bound index : Nat} {word : UInt32} (hone : 1 ≤ bound)
    (h : scaled? bound word = some index) : index < bound := by
  unfold scaled? at h
  simp only at h
  split at h
  · cases h
    have hword : word.toNat < wordCount := word.toNat_lt
    exact Nat.div_lt_of_lt_mul (Nat.mul_lt_mul_of_pos_right hword hone)
  · cases h

/-- No index below a bound is favoured. -/
structure Fair (bound : Nat) : Prop where
  limit : acceptedUpTo bound =
    ((BitVec.ofNat 32 bound <<< (BitVec.ofNat 32 bound).clz) - 1#32).toNat
  shares : ∀ index < bound,
    {word | scaled? bound word = some index}.ncard = 2 ^ leadingZeros bound
  below : ∀ word index, scaled? bound word = some index → index < bound

theorem fair {bound : Nat} (hone : 1 ≤ bound) (hbound : bound < wordCount) : Fair bound where
  limit := acceptedUpTo_eq hone hbound
  shares index hindex := by
    rw [ncard_scaled?_eq (Nat.le_of_lt hbound) hindex, wordsEach_eq hone hbound]
  below _ _ := lt_of_scaled?_eq hone

/-! ## Streams -/

/-- The words of a list, and zeros without end. -/
def padded (words : List UInt32) (place : Nat) : UInt32 := words.getD place 0

/-- From a place on words are taken until one is accepted.  It stands for that index, and
the last place is the one behind it. -/
inductive DrawsBelow (stream : Nat → UInt32) (bound : Nat) : Nat → Nat → Nat → Prop
  | accept {place index : Nat} (h : scaled? bound (stream place) = some index) :
      DrawsBelow stream bound place (place + 1) index
  | reject {place last index : Nat} (h : scaled? bound (stream place) = none)
      (hlater : DrawsBelow stream bound (place + 1) last index) :
      DrawsBelow stream bound place last index

/-- From a place on an index is drawn for each position down to 1, below a bound that 32
bits can hold.  These indices make the draw, and the last place is the one behind all the
words that were taken. -/
inductive Draws (stream : Nat → UInt32) : Nat → Nat → Nat → Draw → Prop
  | done {place : Nat} : Draws stream 0 place place Draw.still
  | next {i place between last : Nat} {index : Fin (i + 2)} {others : Draw}
      (hbound : i + 2 < wordCount) (hindex : DrawsBelow stream (i + 2) place between index)
      (hothers : Draws stream i between last others) :
      Draws stream (i + 1) place last (others.set (i + 1) index)

section

variable {stream : Nat → UInt32} {bound i place last other : Nat}

theorem DrawsBelow.lt {index : Nat} (h : DrawsBelow stream bound place last index)
    (hone : 1 ≤ bound) : index < bound := by
  induction h with
  | accept h => exact lt_of_scaled?_eq hone h
  | reject _ _ ih => exact ih

theorem DrawsBelow.unique {index second : Nat} (h : DrawsBelow stream bound place last index)
    (h' : DrawsBelow stream bound place other second) : last = other ∧ index = second := by
  induction h with
  | accept h =>
      cases h' with
      | accept h' => exact ⟨rfl, Option.some.inj (h.symm.trans h')⟩
      | reject h' => cases h.symm.trans h'
  | reject h _ ih =>
      cases h' with
      | accept h' => cases h.symm.trans h'
      | reject _ hlater => exact ih hlater

/-- A draw has one end, if it has any. -/
theorem Draws.unique {draw second : Draw} (h : Draws stream i place last draw)
    (h' : Draws stream i place other second) : last = other ∧ draw = second := by
  induction h generalizing other second with
  | done =>
      cases h'
      exact ⟨rfl, rfl⟩
  | next _ hindex _ ih =>
      cases h' with
      | next _ hindex' hothers' =>
        -- one index ends at one place, and there the others start
        obtain ⟨rfl, hsame⟩ := hindex.unique hindex'
        obtain ⟨rfl, rfl⟩ := ih hothers'
        rw [hsame]
        exact ⟨rfl, rfl⟩

/-- From a place on the stream has the words of the list, and zeros behind them. -/
def GoesOn (stream : Nat → UInt32) (place : Nat) (words : List UInt32) : Prop :=
  ∀ n, stream (place + n) = padded words n

theorem GoesOn.tail {word : UInt32} {rest : List UInt32}
    (h : GoesOn stream place (word :: rest)) : GoesOn stream (place + 1) rest := fun n => by
  rw [Nat.add_assoc, Nat.add_comm 1, h]
  rfl

/-- What is drawn from a list is what the stream accepts, and with the rest of the list it
goes on. -/
theorem drawsBelow_drawBelow (bound : Nat) {words : List UInt32} (h : GoesOn stream place words) :
    DrawsBelow stream bound place (place + (drawBelow bound words).used)
        (drawBelow bound words).index ∧
      GoesOn stream (place + (drawBelow bound words).used) (drawBelow bound words).rest := by
  induction words generalizing place with
  | nil =>
      have hzero : scaled? bound (stream place) = some 0 := by
        rw [show stream place = 0 from h 0]
        simp [scaled?]
      refine ⟨.accept hzero, fun n => ?_⟩
      rw [drawBelow, Nat.add_assoc, h]
      rfl
  | cons word rest ih =>
      have hfirst : stream place = word := h 0
      cases hword : scaled? bound word with
      | some index =>
          simp only [drawBelow, hword]
          exact ⟨.accept (hfirst ▸ hword), h.tail⟩
      | none =>
          obtain ⟨hbelow, hgoesOn⟩ := ih h.tail
          simp only [drawBelow, hword]
          rw [Nat.add_assoc, Nat.add_comm 1] at hbelow hgoesOn
          exact ⟨.reject (hfirst ▸ hword) hbelow, hgoesOn⟩

theorem draws_drawFrom (hi : i + 1 < wordCount) {words : List UInt32}
    (h : GoesOn stream place words) :
    Draws stream i place (place + (drawFrom i words).2) (drawFrom i words).1 := by
  induction i generalizing words place with
  | zero => exact .done
  | succ i ih =>
      -- the rest of the list is what the next position goes on with
      obtain ⟨hbelow, hgoesOn⟩ := drawsBelow_drawBelow (i + 2) h
      have hothers := ih (Nat.lt_of_succ_lt hi) hgoesOn
      rw [Nat.add_assoc] at hothers
      let index : Fin (i + 2) := ⟨_, hbelow.lt (Nat.le_add_left 1 (i + 1))⟩
      have hbelow : DrawsBelow stream (i + 2) place _ index := hbelow
      exact .next hi hbelow hothers

end

/-! ## How many words -/

/-- One word is taken at least, and one that is not in the list at most. -/
theorem used_drawBelow (bound : Nat) (words : List UInt32) :
    1 ≤ (drawBelow bound words).used ∧
      (drawBelow bound words).used + (drawBelow bound words).rest.length ≤ words.length + 1 := by
  induction words with
  | nil => exact ⟨Nat.le_refl 1, Nat.le_refl 1⟩
  | cons word rest ih =>
      cases hword : scaled? bound word with
      | some index =>
          simp only [drawBelow, hword, List.length_cons]
          omega
      | none =>
          simp only [drawBelow, hword, List.length_cons]
          omega

theorem used_drawFrom (i : Nat) (words : List UInt32) :
    i ≤ (drawFrom i words).2 ∧ (drawFrom i words).2 ≤ words.length + i := by
  induction i generalizing words with
  | zero => exact ⟨Nat.le_refl 0, Nat.zero_le _⟩
  | succ i ih =>
      obtain ⟨hone, hlist⟩ := used_drawBelow (i + 2) words
      obtain ⟨hleast, hmost⟩ := ih (drawBelow (i + 2) words).rest
      rw [drawFrom]
      simp only
      omega

/-- A choice from the words of a list, with zeros behind them, comes to an end. -/
structure ComesToEnd {α : Type} (candidates : List α) (count : Nat) (words : List UInt32) :
    Prop where
  ends : ∃ draw,
    Draws (padded words) (candidates.length - 1) 0 (chooseFrom candidates count words).2 draw ∧
      (chooseFrom candidates count words).1 = choose draw candidates count
  /-- There is no other end. -/
  alone : ∀ used draw, Draws (padded words) (candidates.length - 1) 0 used draw →
    chooseFrom candidates count words = (choose draw candidates count, used)
  least : candidates.length - 1 ≤ (chooseFrom candidates count words).2
  most : (chooseFrom candidates count words).2 ≤ words.length + (candidates.length - 1)

theorem comesToEnd {α : Type} {candidates : List α} (hlength : candidates.length < wordCount)
    (count : Nat) (words : List UInt32) : ComesToEnd candidates count words := by
  have hlast : candidates.length - 1 + 1 < wordCount := by
    unfold wordCount at *
    omega
  have hdraws : Draws (padded words) (candidates.length - 1) 0
      (drawFrom (candidates.length - 1) words).2 (drawFrom (candidates.length - 1) words).1 := by
    have hall : GoesOn (padded words) 0 words := fun n => by rw [Nat.zero_add]
    have hdraws := draws_drawFrom hlast hall
    rwa [Nat.zero_add] at hdraws
  obtain ⟨hleast, hmost⟩ := used_drawFrom (candidates.length - 1) words
  refine ⟨⟨_, hdraws, rfl⟩, fun used draw h => ?_, hleast, hmost⟩
  obtain ⟨rfl, rfl⟩ := hdraws.unique h
  rfl

/-- **Words**: below every bound all indices have the same number of words, and every choice
comes to an end, which takes a word for each candidate but one and at most all of the list
besides. -/
theorem fair_words :
    (∀ bound, 1 ≤ bound → bound < wordCount → Fair bound) ∧
      ∀ {α : Type} (candidates : List α) (count : Nat) (words : List UInt32),
        candidates.length < wordCount → ComesToEnd candidates count words :=
  ⟨fun _ => fair, fun _ count words hlength => comesToEnd hlength count words⟩

/-- One word that is rejected, and then a zero for each of two indices: no choice takes
more.  Below the greatest bound each index has one word. -/
theorem fair_words_extremes :
    {word | scaled? 3 word = some 1}.ncard = 1073741824 ∧
      {word | scaled? 4294967295 word = some 4294967294}.ncard = 1 ∧
      ∃ draw, Draws (padded [4294967295]) 2 0 3 draw := by
  obtain ⟨hfair, hends⟩ := fair_words
  have hthree := (hfair 3 (by decide) (by decide)).shares 1 (by decide)
  have hgreatest := (hfair 4294967295 (by decide) (by decide)).shares 4294967294 (by decide)
  obtain ⟨draw, hdraw, -⟩ := (hends ["ann", "bob", "cy"] 2 [4294967295] (by decide)).ends
  refine ⟨hthree, hgreatest, draw, ?_⟩
  rwa [show (chooseFrom ["ann", "bob", "cy"] 2 [4294967295]).2 = 3 by decide +kernel] at hdraw

end ReviewRota
