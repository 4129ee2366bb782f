import ReviewRota.Proofs.Separation

/-!
# ReviewRota.Proofs.Resplitting

What is left of a migration after it was split does not split any further.  A
statement has no line ends and no comments (`IsStatement`), and a semicolon in it
is one that does not separate, since the piece it comes from started where the
count of parentheses was zero.

Every statement but the last one ends where the count is zero as well.  That is
why statements can be put together again with a semicolon and a line end
(`statements_intercalate`), whatever the parentheses of the text were like.

* `codeOf_append` — a text is read line by line;
* `statements_normal` — splitting again, and comments between the lines.
-/

namespace ReviewRota

/-! ## Lines -/

theorem linesOf_ne_nil {text : List Char} (h : text ≠ []) : linesOf text ≠ [] := by
  fun_cases linesOf text with
  | case1 => exact absurd rfl h
  | case2 => simp
  | case3 => simp
  | case4 => simp
  | case5 => simp

/-- A character that does not end a line belongs to the first one. -/
theorem linesOf_cons {c : Char} (hc : c ≠ '\n') {rest : List Char} (hne : rest ≠ [])
    (hend : c = '\r' → rest.head? ≠ some '\n') :
    linesOf (c :: rest) = (linesOf rest).modifyHead (c :: ·) := by
  rw [linesOf.eq_4 c rest hc (by rintro r rfl rfl; exact hend rfl rfl)]
  cases hlines : linesOf rest with
  | nil => exact absurd hlines (linesOf_ne_nil hne)
  | cons line lines => rfl

/-- A text without line ends goes on in the first line of what is behind it. -/
theorem linesOf_append_left {line tail first : List Char} {others : List (List Char)}
    (hline : '\n' ∉ line) (hend : line.getLast? = some '\r' → tail.head? ≠ some '\n')
    (htail : linesOf tail = first :: others) :
    linesOf (line ++ tail) = (line ++ first) :: others := by
  induction line with
  | nil => exact htail
  | cons c rest ih =>
      obtain ⟨hc, hrest⟩ := not_or.mp (mt List.mem_cons.mpr hline)
      have hne : rest ++ tail ≠ [] := by
        rintro h
        rw [(List.append_eq_nil_iff.mp h).2] at htail
        exact nomatch htail
      rw [List.cons_append, linesOf_cons (Ne.symm hc) hne, ih hrest]
      · rfl
      · -- the end of the shorter text is that of the longer one
        cases rest with
        | nil => simp
        | cons d more => simpa using hend
      · rintro rfl
        cases rest with
        | nil => simpa using hend
        | cons d more =>
            have hd : d ≠ '\n' := fun h => hrest (by simp [h])
            simpa using hd

/-- A text without line ends is one line. -/
theorem linesOf_of_not_mem {line : List Char} (h : '\n' ∉ line) (hne : line ≠ []) :
    linesOf line = [line] := by
  obtain rfl | ⟨front, c, rfl⟩ := List.eq_nil_or_concat line
  · exact absurd rfl hne
  · obtain ⟨hfront, hc⟩ := not_or.mp (mt List.mem_append.mpr (List.concat_eq_append ▸ h))
    have hne' : c ≠ '\n' := fun hc' => hc (by simp [hc'])
    have hlast : linesOf [c] = [[c]] := by
      rw [linesOf.eq_4 c [] hne' (by simp), linesOf]
    rw [List.concat_eq_append]
    exact linesOf_append_left hfront (by simpa using fun _ => hne') hlast

theorem not_mem_of_mem_linesOf {text line : List Char} (h : line ∈ linesOf text) :
    '\n' ∉ line := by
  induction text using linesOf.induct generalizing line with
  | case1 => simp [linesOf] at h
  | case2 rest ih =>
      rw [linesOf] at h
      obtain rfl | h := List.mem_cons.mp h
      · simp
      · exact ih h
  | case3 rest ih =>
      rw [linesOf] at h
      obtain rfl | h := List.mem_cons.mp h
      · simp
      · exact ih h
  | case4 c rest hc hcr hrest =>
      rw [linesOf.eq_4 c rest hc hcr, hrest] at h
      obtain rfl := List.mem_singleton.mp h
      simpa using Ne.symm hc
  | case5 c rest hc hcr first lines hrest ih =>
      rw [linesOf.eq_4 c rest hc hcr, hrest] at h
      obtain rfl | h := List.mem_cons.mp h
      · have hfirst := ih (hrest ▸ List.mem_cons_self)
        simp [hfirst, Ne.symm hc]
      · exact ih (hrest ▸ List.mem_cons_of_mem first h)

/-- What ends with a line end has lines of its own. -/
theorem linesOf_append (front behind : List Char) :
    linesOf (front ++ '\n' :: behind) = linesOf (front ++ ['\n']) ++ linesOf behind := by
  induction front using linesOf.induct with
  | case1 => rfl
  | case2 rest ih => simp [linesOf, ih]
  | case3 rest ih => simp [linesOf, ih]
  | case4 c rest hc hcr hrest =>
      obtain rfl : rest = [] := by
        by_contra hne
        exact linesOf_ne_nil hne hrest
      by_cases hreturn : c = '\r'
      · subst hreturn
        rfl
      · have hshort : linesOf (c :: '\n' :: behind) = [c] :: linesOf behind := by
          rw [linesOf_cons hc (by simp) fun h => absurd h hreturn, linesOf]
          rfl
        have halone : linesOf [c, '\n'] = [[c]] := by
          rw [linesOf_cons hc (by simp) fun h => absurd h hreturn]
          rfl
        rw [List.singleton_append, List.singleton_append, hshort, halone, List.singleton_append]
  | case5 c rest hc hcr first lines hrest ih =>
      have hsome : rest ≠ [] := by
        rintro rfl
        exact nomatch hrest
      obtain ⟨d, more, rfl⟩ := List.exists_cons_of_ne_nil hsome
      have hend : c = '\r' → some d ≠ some '\n' := by
        rintro rfl h
        exact hcr more rfl (by rw [Option.some.inj h])
      have hne : linesOf (d :: more ++ ['\n']) ≠ [] := linesOf_ne_nil (by simp)
      have hlong (behind : List Char) : linesOf (c :: d :: more ++ '\n' :: behind) =
          (linesOf (d :: more ++ '\n' :: behind)).modifyHead (c :: ·) :=
        linesOf_cons hc (by simp) hend
      rw [hlong, hlong, ih]
      obtain ⟨line, others, hlines⟩ := List.exists_cons_of_ne_nil hne
      rw [hlines]
      rfl

/-! ## Code -/

theorem startsComment_iff {text : List Char} :
    startsComment text = true ↔ ['-', '-'] <+: text := by
  unfold startsComment
  split
  · simp
  · next h =>
      simp only [Bool.false_eq_true, false_iff]
      rintro ⟨rest, hrest⟩
      exact h rest hrest.symm

/-- There are two dashes somewhere in the text. -/
def HasDashes (text : List Char) : Prop := ['-', '-'] <:+: text

theorem HasDashes.mono {part text : List Char} (h : HasDashes part) (hpart : part <:+: text) :
    HasDashes text := h.trans hpart

theorem not_hasDashes_nil : ¬HasDashes [] := by simp [HasDashes]

theorem hasDashes_cons {c : Char} {rest : List Char} :
    HasDashes (c :: rest) ↔ startsComment (c :: rest) = true ∨ HasDashes rest := by
  rw [HasDashes, List.infix_cons_iff, startsComment_iff, HasDashes]

theorem HasDashes.of_startsComment {text : List Char} (h : startsComment text = true) :
    HasDashes text := (startsComment_iff.mp h).isInfix

/-- A character between two texts that is no dash keeps dashes apart. -/
theorem hasDashes_append_cons {front back : List Char} {c : Char} (hc : c ≠ '-') :
    HasDashes (front ++ c :: back) ↔ HasDashes front ∨ HasDashes back := by
  induction front with
  | nil =>
      rw [List.nil_append, hasDashes_cons, startsComment_iff]
      simp [not_hasDashes_nil, Ne.symm hc]
  | cons d rest ih =>
      rw [List.cons_append, hasDashes_cons, hasDashes_cons, ih, startsComment_iff,
        startsComment_iff]
      cases rest with
      | nil => simp [Ne.symm hc, not_hasDashes_nil]
      | cons e more => simp [or_assoc]

theorem beforeComment_isPrefix (line : List Char) : beforeComment line <+: line := by
  obtain ⟨comment, hline, _⟩ := exists_eq_beforeComment line
  exact ⟨comment, hline.symm⟩

theorem not_hasDashes_beforeComment (line : List Char) : ¬HasDashes (beforeComment line) := by
  induction line with
  | nil => exact not_hasDashes_nil
  | cons c rest ih =>
      rw [beforeComment]
      split
      · exact not_hasDashes_nil
      · next hstarts =>
          rw [hasDashes_cons, not_or]
          refine ⟨fun h => hstarts ?_, ih⟩
          -- the first two characters are those of the line itself
          rw [startsComment_iff] at h ⊢
          exact h.trans (List.cons_prefix_cons.mpr ⟨rfl, beforeComment_isPrefix rest⟩)

/-- A line without dashes is code. -/
theorem beforeComment_of_not_hasDashes {line : List Char} (h : ¬HasDashes line) :
    beforeComment line = line := by
  obtain ⟨comment, hline, rfl | hcomment, _⟩ := exists_eq_beforeComment line
  · exact (hline.trans (List.append_nil _)).symm
  · refine absurd ?_ h
    rw [hline]
    exact (HasDashes.of_startsComment hcomment).mono (List.suffix_append _ _).isInfix

/-- A text is read line by line. -/
theorem codeOf_append (front behind : List Char) :
    codeOf (front ++ ['\n'] ++ behind) = codeOf (front ++ ['\n']) ++ codeOf behind := by
  rw [List.append_assoc, List.singleton_append, codeOf, linesOf_append, List.filter_append,
    List.flatMap_append, codeOf, codeOf]

/-- A line without dashes is code up to its end. -/
theorem codeOf_of_linesOf {text line behind : List Char} (hline : ¬HasDashes line)
    (h : linesOf text = line :: linesOf behind) :
    codeOf text = line ++ ' ' :: codeOf behind := by
  have htrim : startsComment (trim line) = false := by
    rw [← Bool.not_eq_true]
    intro hstarts
    exact hline ((HasDashes.of_startsComment hstarts).mono (trim_isInfix line))
  rw [codeOf, h, List.filter_cons_of_pos (by simp [htrim]), List.flatMap_cons,
    beforeComment_of_not_hasDashes hline, List.append_assoc, codeOf]
  rfl

theorem not_mem_codeOf (text : List Char) : '\n' ∉ codeOf text := by
  intro h
  obtain ⟨line, hline, hmem⟩ := List.mem_flatMap.mp h
  have hnone := not_mem_of_mem_linesOf (List.mem_of_mem_filter hline)
  obtain hmem | hmem := List.mem_append.mp hmem
  · exact hnone ((beforeComment_isPrefix line).subset hmem)
  · simp at hmem

/-- No two dashes meet across a line end. -/
theorem not_hasDashes_codeOf (text : List Char) : ¬HasDashes (codeOf text) := by
  rw [codeOf]
  induction (linesOf text).filter fun line => !startsComment (trim line) with
  | nil => exact not_hasDashes_nil
  | cons line lines ih =>
      rw [List.flatMap_cons, List.append_assoc, List.singleton_append,
        hasDashes_append_cons (by decide), not_or]
      exact ⟨not_hasDashes_beforeComment line, ih⟩

/-! ## Pieces on their own -/

theorem infix_joined {ps : List (List Char)} {p : List Char} (h : p ∈ ps) : p <:+: joined ps := by
  induction ps with
  | nil => exact absurd h List.not_mem_nil
  | cons q rest ih =>
      cases rest with
      | nil =>
          obtain rfl := List.mem_singleton.mp h
          rw [joined_singleton]
      | cons r more =>
          rw [joined_cons q (List.cons_ne_nil r more)]
          obtain rfl | h := List.mem_cons.mp h
          · exact (List.prefix_append p _).isInfix
          · exact (ih h).trans ((List.suffix_cons ';' _).trans (List.suffix_append q _)).isInfix

/-- A text is one piece if the count is zero before none of its semicolons. -/
theorem pieces_eq_singleton_iff {depth : Int} {code : List Char} :
    pieces depth code = [code] ↔
      ∀ before behind, code = before ++ ';' :: behind → depthBehind depth before ≠ 0 := by
  constructor
  · rintro h before behind rfl hdepth
    have hlength := congrArg List.length (h.symm.trans (pieces_append hdepth behind))
    have hpos := List.length_pos_iff.mpr (pieces_ne_nil depth before)
    have hpos' := List.length_pos_iff.mpr (pieces_ne_nil 0 behind)
    rw [List.length_append, List.length_singleton] at hlength
    omega
  · intro h
    obtain hone | ⟨first, rest, hcode, _, hdepth, _⟩ := pieces_cases depth code
    · exact hone
    · exact absurd hdepth (h first rest hcode)

/-- Each piece is one piece, and each but the last one ends where the count is
zero. -/
theorem pieces_settled (code : List Char) :
    (∀ p ∈ pieces 0 code, pieces 0 p = [p]) ∧
      (pieces 0 code).Pairwise fun p _ => depthBehind 0 p = 0 := by
  induction hlength : code.length using Nat.strongRecOn generalizing code with
  | ind n ih =>
      obtain hone | ⟨first, rest, rfl, hfirst, hdepth, hpieces⟩ := pieces_cases 0 code
      · rw [hone]
        exact ⟨by simpa using hone, List.pairwise_singleton _ _⟩
      · obtain ⟨hwhole, hsettled⟩ := ih rest.length (by simp [← hlength]; omega) rest rfl
        rw [hpieces]
        exact ⟨List.forall_mem_cons.mpr ⟨hfirst, hwhole⟩,
          List.pairwise_cons.mpr ⟨fun _ _ => hdepth, hsettled⟩⟩

/-- Blank characters do not count. -/
theorem depthBehind_of_blank (depth : Int) {left : List Char} (h : left.all isBlank = true) :
    depthBehind depth left = depth := by
  have hnone (c : Char) (hc : isBlank c = false) : left.count c = 0 := by
    rw [List.count_eq_zero]
    intro hmem
    exact absurd (List.all_eq_true.mp h c hmem) (by simp [hc])
  rw [depthBehind_eq, hnone '(' (by decide), hnone ')' (by decide)]
  simp

/-- Trimming takes nothing away that counts. -/
theorem depthBehind_trim (p : List Char) : depthBehind 0 (trim p) = depthBehind 0 p := by
  obtain ⟨left, right, hleft, hright, hp⟩ := exists_eq_trim p
  rw [hp, depthBehind_append, depthBehind_append, depthBehind_of_blank 0 hleft,
    depthBehind_of_blank _ hright, ← hp]

theorem pieces_trim {p : List Char} (h : pieces 0 p = [p]) : pieces 0 (trim p) = [trim p] := by
  rw [pieces_eq_singleton_iff] at h ⊢
  intro before behind hcut hdepth
  obtain ⟨left, right, hleft, _, hp⟩ := exists_eq_trim p
  refine h (left ++ before) (behind ++ right) ?_ ?_
  · rw [hp, hcut]
    simp
  · rw [depthBehind_append, depthBehind_of_blank 0 hleft, hdepth]

/-! ## Statements -/

/-- A text that is a statement and nothing else. -/
structure IsStatement (s : List Char) : Prop where
  ne_nil : s ≠ []
  trimmed : trim s = s
  oneLine : '\n' ∉ s
  noDashes : ¬HasDashes s
  whole : pieces 0 s = [s]

theorem isStatement_of_mem_statements {text s : List Char} (h : s ∈ statements text) :
    IsStatement s := by
  obtain ⟨hmem, hne⟩ := List.mem_filter.mp h
  obtain ⟨p, hp, rfl⟩ := List.mem_map.mp hmem
  have hpart : trim p <:+: codeOf text := by
    have hpiece := infix_joined hp
    rw [joined_pieces] at hpiece
    exact (trim_isInfix p).trans hpiece
  constructor
  case ne_nil => simpa using hne
  case trimmed => exact trim_trim p
  case oneLine => exact fun hmem => not_mem_codeOf text (hpart.subset hmem)
  case noDashes => exact fun hdashes => not_hasDashes_codeOf text (hdashes.mono hpart)
  case whole => exact pieces_trim ((pieces_settled _).1 p hp)

/-- Every statement but the last one ends where the count is zero. -/
theorem pairwise_statements (text : List Char) :
    (statements text).Pairwise fun s _ => depthBehind 0 s = 0 := by
  refine List.Pairwise.filter _ (List.pairwise_map.mpr ?_)
  exact (pieces_settled (codeOf text)).2.imp fun h => (depthBehind_trim _).trans h

theorem IsStatement.not_hasDashes_append {s : List Char} (hs : IsStatement s) :
    ¬HasDashes (s ++ [';']) := by
  rw [hasDashes_append_cons (by decide), not_or]
  exact ⟨hs.noDashes, not_hasDashes_nil⟩

/-- A statement on a line of its own is the first one, and nothing is lost of what
is behind it. -/
theorem statements_append {s : List Char} (hs : IsStatement s) (hdepth : depthBehind 0 s = 0)
    (behind : List Char) : statements (s ++ ';' :: '\n' :: behind) = s :: statements behind := by
  have hlines : linesOf (s ++ [';'] ++ '\n' :: behind) = (s ++ [';']) :: linesOf behind := by
    have hline : linesOf (s ++ [';'] ++ '\n' :: behind) = (s ++ [';'] ++ []) :: linesOf behind :=
      linesOf_append_left (by simpa using hs.oneLine) (by simp) rfl
    rwa [List.append_nil] at hline
  have hcode : codeOf (s ++ ';' :: '\n' :: behind) = s ++ ';' :: ' ' :: codeOf behind := by
    have hfirst := codeOf_of_linesOf hs.not_hasDashes_append hlines
    simpa using hfirst
  have hspace : ((pieces 0 (' ' :: codeOf behind)).map trim) =
      (pieces 0 (codeOf behind)).map trim := by
    have hkept : depthAfter 0 ' ' = 0 := rfl
    rw [pieces_cons (by decide), hkept]
    cases pieces 0 (codeOf behind) with
    | nil => rfl
    | cons p others =>
        have hblank : [' '].all isBlank = true := rfl
        have htrim : trim (' ' :: p) = trim p := trim_append_of_blank_left hblank p
        simp [htrim]
  rw [statements, hcode, pieces_append hdepth, hs.whole, List.singleton_append, List.map_cons,
    hspace, hs.trimmed, List.filter_cons_of_pos (by simpa using hs.ne_nil), statements]

/-- A statement on its own is not split. -/
theorem statements_self {s : List Char} (hs : IsStatement s) : statements s = [s] := by
  have hcode : codeOf s = s ++ ' ' :: codeOf [] :=
    codeOf_of_linesOf hs.noDashes (linesOf_of_not_mem hs.oneLine hs.ne_nil)
  have hpieces : pieces 0 (s ++ [' ']) = [s ++ [' ']] := by
    have hwhole := pieces_eq_singleton_iff.mp hs.whole
    rw [pieces_eq_singleton_iff]
    intro before behind hcut
    obtain rfl | ⟨front, c, rfl⟩ := List.eq_nil_or_concat behind
    · -- the last character is no semicolon
      have hlast := congrArg List.getLast? hcut
      simp at hlast
    · refine hwhole before front ?_
      rw [List.concat_eq_append, ← List.cons_append, ← List.append_assoc] at hcut
      exact (List.append_inj' hcut rfl).1
  have htrim : trim (s ++ [' ']) = s := by rw [trim_append_of_blank_right s rfl, hs.trimmed]
  have hnone : codeOf [] = [] := rfl
  rw [statements, hcode, hnone, hpieces, List.map_singleton, htrim,
    List.filter_cons_of_pos (by simpa using hs.ne_nil), List.filter_nil]

/-- Statements put together are split into themselves. -/
theorem statements_intercalate {ss : List (List Char)} (hss : ∀ s ∈ ss, IsStatement s)
    (hsettled : ss.Pairwise fun s _ => depthBehind 0 s = 0) :
    statements ([';', '\n'].intercalate ss) = ss := by
  induction ss with
  | nil => rfl
  | cons s rest ih =>
      obtain ⟨hs, hrest⟩ := List.forall_mem_cons.mp hss
      obtain ⟨hdepth, hothers⟩ := List.pairwise_cons.mp hsettled
      cases rest with
      | nil => rw [List.intercalate_singleton, statements_self hs]
      | cons q more =>
          have hjoined : [';', '\n'].intercalate (s :: q :: more) =
              s ++ ';' :: '\n' :: [';', '\n'].intercalate (q :: more) := by
            rw [List.intercalate_cons_cons]
            simp
          rw [hjoined, statements_append hs (hdepth q List.mem_cons_self), ih hrest hothers]

/-! ## Comment lines -/

/-- The text with any number of comment lines in front of its lines, and behind the
last one if that is ended. -/
inductive Commented (text : List Char) : List Char → Prop where
  | same : Commented text text
  | more {before behind line ending : List Char} (h : Commented text (before ++ behind))
      (hplace : before = [] ∨ ∃ front, before = front ++ ['\n'])
      (hline : '\n' ∉ line) (hcomment : startsComment (trim line) = true)
      (hending : ending = ['\n'] ∨ ending = ['\r', '\n']) :
      Commented text (before ++ line ++ ending ++ behind)

/-- A comment line is not code. -/
theorem codeOf_comment {line ending : List Char} (hline : '\n' ∉ line)
    (hcomment : startsComment (trim line) = true)
    (hending : ending = ['\n'] ∨ ending = ['\r', '\n']) (behind : List Char) :
    codeOf (line ++ ending ++ behind) = codeOf behind := by
  obtain ⟨content, hlines, htrim⟩ : ∃ content,
      linesOf (line ++ ending ++ behind) = content :: linesOf behind ∧
        trim content = trim line := by
    have hwhole {line : List Char} (hline : '\n' ∉ line) :
        linesOf (line ++ '\r' :: '\n' :: behind) = line :: linesOf behind := by
      have h : linesOf (line ++ '\r' :: '\n' :: behind) = (line ++ []) :: linesOf behind :=
        linesOf_append_left hline (by simp) rfl
      rwa [List.append_nil] at h
    obtain rfl | rfl := hending
    · by_cases hreturn : line.getLast? = some '\r'
      · -- the carriage return belongs to the end of the line
        obtain ⟨front, rfl⟩ := List.getLast?_eq_some_iff.mp hreturn
        refine ⟨front, ?_, (trim_append_of_blank_right front rfl).symm⟩
        have hfront : '\n' ∉ front := fun h => hline (List.mem_append_left _ h)
        simpa using hwhole hfront
      · have h : linesOf (line ++ '\n' :: behind) = (line ++ []) :: linesOf behind :=
          linesOf_append_left hline (fun hlast => absurd hlast hreturn) rfl
        exact ⟨line, by simpa using h, rfl⟩
    · exact ⟨line, by simpa using hwhole hline, rfl⟩
  rw [codeOf, hlines, List.filter_cons_of_neg (by simp [htrim, hcomment]), codeOf]

/-- Comment lines are not code, wherever they are. -/
theorem codeOf_commented {text commented : List Char} (h : Commented text commented) :
    codeOf commented = codeOf text := by
  induction h with
  | same => rfl
  | @more before behind line ending _ hplace hline hcomment hending ih =>
      rw [← ih]
      obtain rfl | ⟨front, rfl⟩ := hplace
      · exact codeOf_comment hline hcomment hending behind
      · rw [List.append_assoc, List.append_assoc, ← List.append_assoc line, codeOf_append,
          codeOf_append, codeOf_comment hline hcomment hending]

/-- **Splitting again**: a statement is not blank, has no blank ends, no line ends and
no comments, and is not split again; the statements put together are split into the
same ones; and comment lines change nothing. -/
theorem statements_normal (sql : String) :
    (∀ s ∈ splitStatements sql, isBlankText s = false ∧ trim s.toList = s.toList ∧
      '\n' ∉ s.toList ∧ ¬['-', '-'] <:+: s.toList ∧ splitStatements s = [s]) ∧
    splitStatements (";\n".intercalate (splitStatements sql)) = splitStatements sql ∧
    ∀ commented : String, Commented sql.toList commented.toList →
      splitStatements commented = splitStatements sql := by
  refine ⟨?_, ?_, ?_⟩
  · intro s hs
    obtain ⟨cs, hcs, rfl⟩ := List.mem_map.mp hs
    have hstatement := isStatement_of_mem_statements hcs
    have hsplit : splitStatements (String.ofList cs) = [String.ofList cs] := by
      rw [splitStatements, String.toList_ofList, statements_self hstatement, List.map_singleton]
    have hblank : isBlankText (String.ofList cs) = false := by
      rw [isBlankText, String.toList_ofList, ← Bool.not_eq_true, ← trim_eq_nil_iff,
        hstatement.trimmed]
      exact hstatement.ne_nil
    rw [String.toList_ofList]
    exact ⟨hblank, hstatement.trimmed, hstatement.oneLine, hstatement.noDashes, hsplit⟩
  · have hjoined : (";\n".intercalate (splitStatements sql)).toList =
        [';', '\n'].intercalate (statements sql.toList) := by
      have hlists : String.toList ∘ String.ofList = id := funext fun cs => String.toList_ofList
      rw [String.toList_intercalate, splitStatements, List.map_map, hlists, List.map_id]
      rfl
    rw [splitStatements, hjoined, statements_intercalate
      (fun s hs => isStatement_of_mem_statements hs) (pairwise_statements sql.toList),
      splitStatements]
  · intro commented h
    rw [splitStatements, statements, codeOf_commented h, splitStatements, statements]

/-- Parentheses that do not match, and a comment in front of the first line. -/
theorem statements_normal_unbalanced :
    let sql := "a);b(\n  d;e);--f\n\tg"
    let commented := " -- h;\r\na);b(\n  d;e);--f\n\tg"
    splitStatements sql = ["a);b(   d", "e); \tg"] ∧
      splitStatements "e); \tg" = ["e); \tg"] ∧
      splitStatements "a);b(   d;\ne); \tg" = splitStatements sql ∧
      splitStatements commented = splitStatements sql := by
  intro sql commented
  have hsplit : splitStatements sql = ["a);b(   d", "e); \tg"] := by decide +kernel
  obtain ⟨hself, hjoined, hcomments⟩ := statements_normal sql
  have hlast := (hself "e); \tg" (by simp [hsplit])).2.2.2.2
  have hadded : Commented sql.toList commented.toList := by
    have htext : commented.toList = [] ++ " -- h;".toList ++ ['\r', '\n'] ++ sql.toList := by decide
    rw [htext]
    exact .more .same (Or.inl rfl) (by decide) (by decide) (Or.inr rfl)
  rw [hsplit] at hjoined
  exact ⟨hsplit, hlast, hjoined.trans hsplit.symm, hcomments commented hadded⟩

end ReviewRota
