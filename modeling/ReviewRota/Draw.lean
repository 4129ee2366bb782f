/-!
# ReviewRota.Draw

Choosing at random.  A draw is the randomness of one choice: for each
position an index up to it.  A choice shuffles the candidates by swapping
every position from the last down to the second with the index drawn for
it, and keeps the first ones.

The second half makes a draw of random words.  A word is scaled to the
bound by a product of 64 bits, of which the upper half is the index; the
lower half tells whether the word belongs to the incomplete last round, in
which case another word is taken.  Words that have run out count as zero,
and a zero is always accepted.

* `length_shuffle` — a shuffle keeps the number of the candidates;
* `length_choose` — a choice has as many as asked for, if there are.
-/

namespace ReviewRota

/-- For each position an index that is not behind it. -/
abbrev Draw := (position : Nat) → Fin (position + 1)

/-- The draw that leaves every position as it is. -/
def Draw.still : Draw := fun position => Fin.last position

/-! ## Shuffling -/

/-- The list with the items at two positions exchanged. -/
def swapAt {α : Type} (xs : List α) (i j : Nat) : List α :=
  match xs[i]?, xs[j]? with
  | some a, some b => (xs.set i b).set j a
  | _, _ => xs

/-- Swaps the positions from `i` down to 1, each with its index. -/
def shuffleFrom {α : Type} (draw : Draw) : Nat → List α → List α
  | 0, xs => xs
  | i + 1, xs => shuffleFrom draw i (swapAt xs (i + 1) (draw (i + 1)))

/-- The list in the order that a draw gives it. -/
def shuffle {α : Type} (draw : Draw) (xs : List α) : List α :=
  shuffleFrom draw (xs.length - 1) xs

/-- At most `count` of the candidates, in the order in which they were
drawn. -/
def choose {α : Type} (draw : Draw) (candidates : List α) (count : Nat) : List α :=
  (shuffle draw candidates).take count

theorem length_swapAt {α : Type} (xs : List α) (i j : Nat) :
    (swapAt xs i j).length = xs.length := by
  unfold swapAt
  split <;> simp

theorem length_shuffleFrom {α : Type} (draw : Draw) (i : Nat) (xs : List α) :
    (shuffleFrom draw i xs).length = xs.length := by
  induction i generalizing xs with
  | zero => rfl
  | succ i ih => rw [shuffleFrom, ih, length_swapAt]

theorem length_shuffle {α : Type} (draw : Draw) (xs : List α) :
    (shuffle draw xs).length = xs.length :=
  length_shuffleFrom draw _ xs

theorem length_choose {α : Type} (draw : Draw) (candidates : List α) (count : Nat) :
    (choose draw candidates count).length = min count candidates.length := by
  rw [choose, List.length_take, length_shuffle]

/-! ## Drawing from words -/

/-- How many words of 32 bits there are. -/
def wordCount : Nat := 4294967296

/-- The greatest lower half of a product that is accepted for a bound: the
bound moved up until it fills its 32 bits, less one. -/
def acceptedUpTo (bound : Nat) : Nat := bound * Nat.pow 2 (31 - Nat.log2 bound) - 1

/-- The index below `bound` that a word stands for, if it is accepted. -/
def scaled? (bound : Nat) (word : UInt32) : Option Nat :=
  let product := word.toNat * bound
  if product % wordCount ≤ acceptedUpTo bound then some (product / wordCount) else none

/-- An index drawn from words, the words that are left, and how many were
looked at. -/
structure Drawn where
  index : Nat
  rest : List UInt32
  used : Nat
  deriving DecidableEq, Repr

/-- Takes words until one is accepted for the bound. -/
def drawBelow (bound : Nat) : List UInt32 → Drawn
  | [] => ⟨0, [], 1⟩
  | word :: rest =>
    match scaled? bound word with
    | some index => ⟨index, rest, 1⟩
    | none =>
      let later := drawBelow bound rest
      { later with used := later.used + 1 }

/-- The draw with one index replaced. -/
def Draw.set (draw : Draw) (position index : Nat) : Draw :=
  fun p => if p = position then Fin.ofNat (p + 1) index else draw p

/-- Draws the indices of the positions from `i` down to 1, and counts the
words. -/
def drawFrom : Nat → List UInt32 → Draw × Nat
  | 0, _ => (Draw.still, 0)
  | i + 1, words =>
    let drawn := drawBelow (i + 2) words
    let others := drawFrom i drawn.rest
    (others.1.set (i + 1) drawn.index, drawn.used + others.2)

/-- Chooses from words: the chosen candidates and how many words it
took. -/
def chooseFrom {α : Type} (candidates : List α) (count : Nat) (words : List UInt32) :
    List α × Nat :=
  let drawn := drawFrom (candidates.length - 1) words
  (choose drawn.1 candidates count, drawn.2)

end ReviewRota
