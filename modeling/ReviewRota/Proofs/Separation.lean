import ReviewRota.Migration
import Mathlib.Data.List.Induction
import Mathlib.Data.List.Infix

/-!
# ReviewRota.Proofs.Separation

Which semicolons separate the statements of a migration: exactly those with as
many opening as closing parentheses before them (`separates_pieces_iff`).

As long as no closing parenthesis stands where none is open, this says that none
is open (`stillOpen_eq_zero_iff`), where a closing one closes the one opened last.
Behind a closing parenthesis too many it does not: the count is below zero there,
and the statements stick together.

* `statements_separated` — which semicolons separate, and that nothing else is
  lost but blank ends;
* `overclosed_not_separated` — a closing parenthesis too many.
-/

namespace ReviewRota

/-! ## Counting parentheses -/

/-- The count of open parentheses behind a text. -/
def depthBehind (depth : Int) (code : List Char) : Int := code.foldl depthAfter depth

@[simp] theorem depthBehind_nil (depth : Int) : depthBehind depth [] = depth := rfl

@[simp] theorem depthBehind_cons (depth : Int) (c : Char) (code : List Char) :
    depthBehind depth (c :: code) = depthBehind (depthAfter depth c) code := rfl

@[simp] theorem depthBehind_append (depth : Int) (front back : List Char) :
    depthBehind depth (front ++ back) = depthBehind (depthBehind depth front) back :=
  List.foldl_append

/-- The count is the difference of two numbers. -/
theorem depthBehind_eq (depth : Int) (code : List Char) :
    depthBehind depth code = depth + code.count '(' - code.count ')' := by
  induction code generalizing depth with
  | nil => simp
  | cons c rest ih =>
      rw [depthBehind_cons, ih, depthAfter, List.count_cons, List.count_cons]
      by_cases hopen : c = '('
      · subst hopen
        simp
        omega
      · by_cases hclose : c = ')'
        · subst hclose
          simp
          omega
        · simp [hopen, hclose]

/-- Nowhere in a text is the count, above or below zero, beyond the number of its
parentheses. -/
theorem natAbs_depthBehind_le {front code : List Char} (hfront : front <+: code) :
    (depthBehind 0 front).natAbs ≤ code.count '(' + code.count ')' := by
  have hopen := hfront.sublist.count_le '('
  have hclose := hfront.sublist.count_le ')'
  rw [depthBehind_eq]
  omega

theorem depthBehind_eq_zero_iff {code : List Char} :
    depthBehind 0 code = 0 ↔ code.count '(' = code.count ')' := by
  rw [depthBehind_eq]
  omega

/-- How many parentheses are open behind a character, where a closing one closes
the one opened last, and nothing if none is open. -/
def openAfter (opened : Nat) (c : Char) : Nat :=
  if c = '(' then opened + 1 else if c = ')' then opened - 1 else opened

/-- How many parentheses are still open behind a text. -/
def stillOpen (code : List Char) : Nat := code.foldl openAfter 0

/-- Every closing parenthesis of the text closes one that is open. -/
def ClosesOnlyOpen (code : List Char) : Prop :=
  ∀ front ∈ code.inits, front.count ')' ≤ front.count '('

instance : DecidablePred ClosesOnlyOpen := fun code =>
  inferInstanceAs (Decidable (∀ front ∈ code.inits, front.count ')' ≤ front.count '('))

/-- Then the count is the number of open ones. -/
theorem stillOpen_eq_depthBehind {code : List Char} (h : ClosesOnlyOpen code) :
    (stillOpen code : Int) = depthBehind 0 code := by
  induction code using List.reverseRecOn with
  | nil => rfl
  | append_singleton front c ih =>
      have hparts : ∀ part ∈ front.inits, part ∈ (front ++ [c]).inits := by
        intro part hpart
        rw [List.mem_inits] at hpart ⊢
        exact hpart.trans (List.prefix_append front [c])
      have hfront := ih fun part hpart => h part (hparts part hpart)
      have hlast := h (front ++ [c]) (by simp)
      rw [depthBehind_append, ← hfront, depthBehind_cons, depthBehind_nil, stillOpen,
        List.foldl_append, ← stillOpen, List.foldl_cons, List.foldl_nil, openAfter, depthAfter]
      by_cases hopen : c = '('
      · simp [hopen]
      · by_cases hclose : c = ')'
        · -- what is closed here was open: the text before it has one more opening than closing
          have hcount := depthBehind_eq 0 front
          subst hclose
          simp at hlast
          simp
          omega
        · simp [hopen, hclose]

theorem stillOpen_eq_zero_iff {code : List Char} (h : ClosesOnlyOpen code) :
    stillOpen code = 0 ↔ code.count '(' = code.count ')' := by
  rw [← depthBehind_eq_zero_iff, ← stillOpen_eq_depthBehind h]
  omega

/-! ## Comments -/

/-- The code of a line is what is before its first two dashes. -/
theorem exists_eq_beforeComment (line : List Char) :
    ∃ comment, line = beforeComment line ++ comment ∧
      (comment = [] ∨ startsComment comment = true) ∧
      ∀ front back, beforeComment line = front ++ back → back ≠ [] →
        startsComment (back ++ comment) = false := by
  induction line with
  | nil => exact ⟨[], rfl, Or.inl rfl, by simp [beforeComment]⟩
  | cons c rest ih =>
      rw [beforeComment]
      cases hstarts : startsComment (c :: rest) with
      | true => exact ⟨c :: rest, rfl, Or.inr hstarts, by simp⟩
      | false =>
          obtain ⟨comment, hrest, hcomment, hfirst⟩ := ih
          refine ⟨comment, congrArg (c :: ·) hrest, hcomment, fun front back h hback => ?_⟩
          cases front with
          | nil =>
              rw [List.nil_append] at h
              rw [← h, if_neg (by simp), List.cons_append, ← hrest, hstarts]
          | cons d front =>
              rw [if_neg (by simp), List.cons_append, List.cons.injEq] at h
              exact hfirst front back h.2 hback

/-! ## Pieces -/

theorem pieces_ne_nil (depth : Int) (code : List Char) : pieces depth code ≠ [] := by
  cases code with
  | nil => simp [pieces]
  | cons c rest =>
      rw [pieces]
      split
      · simp
      · split <;> simp

theorem pieces_semicolon (rest : List Char) : pieces 0 (';' :: rest) = [] :: pieces 0 rest := by
  rw [pieces, if_pos ⟨rfl, rfl⟩]

/-- Any other character belongs to the first piece. -/
theorem pieces_cons {depth : Int} {c : Char} (h : ¬(c = ';' ∧ depth = 0)) (rest : List Char) :
    pieces depth (c :: rest) = (pieces (depthAfter depth c) rest).modifyHead (c :: ·) := by
  rw [pieces, if_neg h]
  cases hrest : pieces (depthAfter depth c) rest with
  | nil => exact absurd hrest (pieces_ne_nil _ rest)
  | cons piece others => rfl

/-- The text that pieces come from. -/
def joined (ps : List (List Char)) : List Char := [';'].intercalate ps

@[simp] theorem joined_singleton (p : List Char) : joined [p] = p := List.intercalate_singleton

theorem joined_cons (p : List Char) {ps : List (List Char)} (h : ps ≠ []) :
    joined (p :: ps) = p ++ ';' :: joined ps := by
  cases ps with
  | nil => exact absurd rfl h
  | cons q rest => simp [joined, List.intercalate_cons_cons]

/-- A character in front of the first piece is one in front of the text. -/
theorem joined_modifyHead (c : Char) {ps : List (List Char)} (h : ps ≠ []) :
    joined (ps.modifyHead (c :: ·)) = c :: joined ps := by
  cases ps with
  | nil => exact absurd rfl h
  | cons p rest =>
      cases rest with
      | nil => simp
      | cons q others => simp [joined_cons]

/-- Nothing is lost. -/
theorem joined_pieces (depth : Int) (code : List Char) : joined (pieces depth code) = code := by
  induction code generalizing depth with
  | nil => simp [pieces]
  | cons c rest ih =>
      by_cases hcut : c = ';' ∧ depth = 0
      · obtain ⟨rfl, rfl⟩ := hcut
        rw [pieces_semicolon, joined_cons [] (pieces_ne_nil 0 rest), ih, List.nil_append]
      · rw [pieces_cons hcut, joined_modifyHead c (pieces_ne_nil _ rest), ih]

/-- A text is one piece, or its first piece ends with a semicolon where the count
is zero. -/
theorem pieces_cases (depth : Int) (code : List Char) :
    pieces depth code = [code] ∨ ∃ first rest, code = first ++ ';' :: rest ∧
      pieces depth first = [first] ∧ depthBehind depth first = 0 ∧
      pieces depth code = first :: pieces 0 rest := by
  induction code generalizing depth with
  | nil => exact Or.inl rfl
  | cons c rest ih =>
      by_cases hcut : c = ';' ∧ depth = 0
      · obtain ⟨rfl, rfl⟩ := hcut
        exact Or.inr ⟨[], rest, rfl, rfl, rfl, pieces_semicolon rest⟩
      · rw [pieces_cons hcut]
        obtain hone | ⟨first, more, rfl, hfirst, hdepth, hmore⟩ := ih (depthAfter depth c)
        · rw [hone]
          exact Or.inl rfl
        · refine Or.inr ⟨c :: first, more, rfl, ?_, hdepth, ?_⟩
          · rw [pieces_cons hcut, hfirst]
            rfl
          · rw [hmore]
            rfl

/-- A semicolon where the count is zero ends a piece. -/
theorem pieces_append {depth : Int} {before : List Char} (h : depthBehind depth before = 0)
    (behind : List Char) :
    pieces depth (before ++ ';' :: behind) = pieces depth before ++ pieces 0 behind := by
  induction before generalizing depth with
  | nil =>
      obtain rfl : depth = 0 := h
      exact pieces_semicolon behind
  | cons c rest ih =>
      rw [depthBehind_cons] at h
      rw [List.cons_append]
      by_cases hcut : c = ';' ∧ depth = 0
      · obtain ⟨rfl, rfl⟩ := hcut
        have hdepth : depthBehind 0 rest = 0 := h
        rw [pieces_semicolon, pieces_semicolon, List.cons_append, ih hdepth]
      · rw [pieces_cons hcut, pieces_cons hcut, ih h]
        cases hrest : pieces (depthAfter depth c) rest with
        | nil => exact absurd hrest (pieces_ne_nil _ rest)
        | cons piece others => rfl

/-- Pieces end where the count is zero, but for the last one. -/
theorem depthBehind_joined {depth : Int} {code : List Char} {front back : List (List Char)}
    (hfront : front ≠ []) (hback : back ≠ []) (h : pieces depth code = front ++ back) :
    depthBehind depth (joined front) = 0 := by
  induction front generalizing depth code with
  | nil => exact absurd rfl hfront
  | cons p others ih =>
      obtain hone | ⟨first, rest, _, _, hdepth, hpieces⟩ := pieces_cases depth code
      · rw [hone, List.cons_append, List.cons.injEq] at h
        exact absurd (List.append_eq_nil_iff.mp h.2.symm).2 hback
      · rw [hpieces, List.cons_append, List.cons.injEq] at h
        obtain ⟨rfl, hrest⟩ := h
        cases others with
        | nil => rwa [joined_singleton]
        | cons q more =>
            have hothers := ih (List.cons_ne_nil q more) hrest
            rw [joined_cons first (List.cons_ne_nil q more), depthBehind_append, hdepth]
            exact hothers

/-! ## Separating semicolons -/

/-- The semicolon between two texts is one between pieces. -/
def Separates (ps : List (List Char)) (before behind : List Char) : Prop :=
  ∃ front back, front ≠ [] ∧ back ≠ [] ∧ ps = front ++ back ∧
    before = joined front ∧ behind = joined back

/-- A semicolon separates exactly where the count is zero. -/
theorem separates_pieces_iff {code before behind : List Char}
    (h : code = before ++ ';' :: behind) :
    Separates (pieces 0 code) before behind ↔ before.count '(' = before.count ')' := by
  rw [← depthBehind_eq_zero_iff]
  constructor
  · rintro ⟨front, back, hfront, hback, hpieces, rfl, _⟩
    exact depthBehind_joined hfront hback hpieces
  · intro hdepth
    refine ⟨pieces 0 before, pieces 0 behind, pieces_ne_nil 0 before, pieces_ne_nil 0 behind, ?_,
      (joined_pieces 0 before).symm, (joined_pieces 0 behind).symm⟩
    rw [h, pieces_append hdepth]

/-- The statements are what is between the semicolons that `ends` tells by what
is before them: all pieces of the code that are not blank, less their blank
ends. -/
structure SeparatedBy (ends : List Char → Prop) (sql : String) (ps : List (List Char)) : Prop where
  /-- The code of a line goes up to its first two dashes. -/
  cut : ∀ line ∈ linesOf sql.toList, ∃ comment, line = beforeComment line ++ comment ∧
    (comment = [] ∨ startsComment comment = true) ∧
    ∀ front back, beforeComment line = front ++ back → back ≠ [] →
      startsComment (back ++ comment) = false
  joined : joined ps = codeOf sql.toList
  separates : ∀ before behind, codeOf sql.toList = before ++ ';' :: behind →
    (Separates ps before behind ↔ ends before)
  blankEnds : ∀ p ∈ ps, ∃ left right, left.all isBlank = true ∧ right.all isBlank = true ∧
    p = left ++ trim p ++ right
  statements : splitStatements sql = ((ps.map trim).filter (· ≠ [])).map String.ofList

/-- **Separation**: a semicolon of the code ends a statement exactly if there are as
many opening as closing parentheses before it.  Where each of these closes one that
is open, that is exactly if none is still open. -/
theorem statements_separated (sql : String) :
    ∃ ps, SeparatedBy (fun before => before.count '(' = before.count ')') sql ps ∧
      ∀ before behind, codeOf sql.toList = before ++ ';' :: behind → ClosesOnlyOpen before →
        (Separates ps before behind ↔ stillOpen before = 0) := by
  refine ⟨pieces 0 (codeOf sql.toList), ?_, ?_⟩
  · constructor
    case cut => exact fun line _ => exists_eq_beforeComment line
    case joined => exact joined_pieces 0 _
    case separates => exact fun before behind hcode => separates_pieces_iff hcode
    case blankEnds => exact fun p _ => exists_eq_trim p
    case statements => rfl
  · intro before behind hcode hcloses
    rw [separates_pieces_iff hcode, stillOpen_eq_zero_iff hcloses]

/-- The first semicolon is in parentheses, the second one behind them. -/
theorem statements_separated_nested :
    let sql := "f(a;b);c"
    ∃ ps, SeparatedBy (fun before => before.count '(' = before.count ')') sql ps ∧
      ¬Separates ps "f(a".toList "b);c ".toList ∧ Separates ps "f(a;b)".toList "c ".toList := by
  intro sql
  obtain ⟨ps, hps, hseparates⟩ := statements_separated sql
  have hinside := hseparates "f(a".toList "b);c ".toList (by decide) (by decide)
  have hbehind := hseparates "f(a;b)".toList "c ".toList (by decide) (by decide)
  exact ⟨ps, hps, fun h => absurd (hinside.mp h) (by decide), hbehind.mpr (by decide)⟩

/-- Behind one closing parenthesis too many no parenthesis is open, and yet the
semicolon does not end the statement. -/
theorem overclosed_not_separated :
    ¬∃ ps, SeparatedBy (fun before => stillOpen before = 0) ");" ps := by
  rintro ⟨ps, h⟩
  obtain ⟨front, back, hfront, _, rfl, hbefore, _⟩ :=
    (h.separates [')'] [' '] (by decide)).mpr (by decide)
  obtain ⟨p, others, rfl⟩ := List.exists_cons_of_ne_nil hfront
  have hfirst : p = [')'] := by
    cases others with
    | nil => rw [hbefore, joined_singleton]
    | cons q more =>
        -- two pieces have a semicolon between them
        rw [joined_cons p (List.cons_ne_nil q more)] at hbefore
        have hmem : ';' ∈ [')'] := hbefore ▸ by simp
        simp at hmem
  have hstatements := h.statements
  -- the piece is not the statement
  have hwhole : splitStatements ");" = [");"] := by decide
  have htrim : trim [')'] = [')'] := by decide
  rw [hwhole, hfirst, List.cons_append, List.map_cons, htrim] at hstatements
  simp at hstatements

end ReviewRota
