/-!
# ReviewRota.Text.Blank

Blank text.  A character is blank when it has the Unicode property
`White_Space`; that is 25 characters in ten ranges, six of them ASCII.
A zero-width space or a byte order mark is not among them.

Text is trimmed and tested as a list of characters:

* `trim_eq_nil_iff` — exactly a blank text trims to nothing;
* `exists_eq_trim` — what trimming takes off is blank.
-/

namespace ReviewRota

/-! ## Characters -/

/-- The ranges of the Unicode property `White_Space`, in increasing
order, both ends included. -/
def whiteSpaceRanges : List (Nat × Nat) :=
  [(0x0009, 0x000d), (0x0020, 0x0020), (0x0085, 0x0085), (0x00a0, 0x00a0),
    (0x1680, 0x1680), (0x2000, 0x200a), (0x2028, 0x2029), (0x202f, 0x202f),
    (0x205f, 0x205f), (0x3000, 0x3000)]

/-- Whether a character has the property `White_Space`. -/
def isBlank (c : Char) : Bool :=
  whiteSpaceRanges.any fun r => r.1 ≤ c.toNat && c.toNat ≤ r.2

/-! ## Text -/

/-- The text without the blank characters at its end. -/
def trimEnd (cs : List Char) : List Char := (cs.reverse.dropWhile isBlank).reverse

/-- The text without the blank characters at its two ends. -/
def trim (cs : List Char) : List Char := trimEnd (cs.dropWhile isBlank)

/-- A text of nothing but blank characters; the empty text is one. -/
def isBlankText (s : String) : Bool := s.toList.all isBlank

theorem dropWhile_eq_nil_iff_all {p : Char → Bool} {cs : List Char} :
    cs.dropWhile p = [] ↔ cs.all p = true := by
  induction cs with
  | nil => simp
  | cons c cs ih => by_cases h : p c = true <;> simp_all

theorem trim_eq_nil_iff {cs : List Char} : trim cs = [] ↔ cs.all isBlank = true := by
  constructor
  · intro h
    have h₁ : (cs.dropWhile isBlank).reverse.all isBlank = true := by
      simpa [trim, trimEnd, dropWhile_eq_nil_iff_all] using h
    rw [← dropWhile_eq_nil_iff_all]
    cases hd : cs.dropWhile isBlank with
    | nil => rfl
    | cons c r =>
      have hc : isBlank c = false := by
        have := List.head?_dropWhile_not isBlank cs
        simpa [hd] using this
      rw [hd] at h₁
      simp [hc] at h₁
  · intro h
    simp [trim, trimEnd, dropWhile_eq_nil_iff_all.2 h]

theorem trimEnd_append_of_blank (cs : List Char) {right : List Char}
    (h : right.all isBlank = true) : trimEnd (cs ++ right) = trimEnd cs := by
  have hright : ∀ c ∈ right.reverse, isBlank c = true := by simpa using h
  rw [trimEnd, trimEnd, List.reverse_append, List.dropWhile_append_of_pos hright]

theorem trim_append_of_blank_left {left : List Char} (h : left.all isBlank = true)
    (cs : List Char) : trim (left ++ cs) = trim cs := by
  rw [trim, trim, List.dropWhile_append_of_pos (List.all_eq_true.mp h)]

theorem trim_append_of_blank_right (cs : List Char) {right : List Char}
    (h : right.all isBlank = true) : trim (cs ++ right) = trim cs := by
  cases hcs : cs.all isBlank with
  | true => rw [trim_append_of_blank_left hcs, trim_eq_nil_iff.mpr h, trim_eq_nil_iff.mpr hcs]
  | false =>
    have hne : cs.dropWhile isBlank ≠ [] := by rw [Ne, dropWhile_eq_nil_iff_all, hcs]; simp
    rw [trim, trim, List.dropWhile_append, if_neg (by simpa using hne), trimEnd_append_of_blank _ h]

theorem exists_eq_trimEnd (cs : List Char) :
    ∃ right, right.all isBlank = true ∧ cs = trimEnd cs ++ right := by
  refine ⟨(cs.reverse.takeWhile isBlank).reverse, ?_, ?_⟩
  · simp
  · rw [trimEnd, ← List.reverse_append, List.takeWhile_append_dropWhile, List.reverse_reverse]

/-- Trimming takes blank characters off the two ends and nothing else. -/
theorem exists_eq_trim (cs : List Char) :
    ∃ left right, left.all isBlank = true ∧ right.all isBlank = true ∧
      cs = left ++ trim cs ++ right := by
  obtain ⟨right, hright, hcs⟩ := exists_eq_trimEnd (cs.dropWhile isBlank)
  refine ⟨cs.takeWhile isBlank, right, List.all_takeWhile, hright, ?_⟩
  rw [trim, List.append_assoc, ← hcs, List.takeWhile_append_dropWhile]

theorem trim_isInfix (cs : List Char) : trim cs <:+: cs := by
  obtain ⟨left, right, _, _, hcs⟩ := exists_eq_trim cs
  exact ⟨left, right, hcs.symm⟩

theorem trim_trim (cs : List Char) : trim (trim cs) = trim cs := by
  obtain ⟨left, right, hleft, hright, hcs⟩ := exists_eq_trim cs
  have h : trim cs = trim (left ++ trim cs ++ right) := congrArg trim hcs
  rw [trim_append_of_blank_right _ hright, trim_append_of_blank_left hleft] at h
  exact h.symm

end ReviewRota
