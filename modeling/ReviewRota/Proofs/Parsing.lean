import ReviewRota.Proofs.Grammar

/-!
# ReviewRota.Proofs.Parsing

A text is read as a value exactly if the grammar gives it that value
(`Json.parse?_eq_some_iff`).

Both directions follow the grammar part by part.  What is read has the form that
the grammar asks for, and nothing is taken that does not belong to it: the lemmas
called `_sound`.  What has that form is read, whatever stands behind it, as long as
a number does not go on there: the lemmas called `_complete`.

The steps that bound the reader never run out, since a value takes at most two for
each of its characters.
-/

namespace ReviewRota
namespace Json

/-! ## Gaps -/

/-- A gap is passed over, up to a text that starts with no white space. -/
theorem skipSpace_append {gap cs : List Char} (hgap : Gap gap)
    (hcs : ∀ c ∈ cs.head?, isSpace c = false) : skipSpace (gap ++ cs) = cs := by
  rw [skipSpace, List.dropWhile_append_of_pos hgap]
  cases cs with
  | nil => rfl
  | cons c rest => rw [List.dropWhile_cons_of_neg (by simpa using hcs c rfl)]

theorem skipSpace_append_cons {gap : List Char} (hgap : Gap gap) {c : Char}
    (hc : isSpace c = false) (rest : List Char) : skipSpace (gap ++ c :: rest) = c :: rest :=
  skipSpace_append hgap (by rintro d ⟨⟩; exact hc)

theorem exists_eq_append_skipSpace (cs : List Char) : ∃ gap, Gap gap ∧ cs = gap ++ skipSpace cs :=
  ⟨cs.takeWhile isSpace, List.all_eq_true.mp List.all_takeWhile,
    List.takeWhile_append_dropWhile.symm⟩

theorem Value.skipSpace_append {t : List Char} {j : Json} (h : Value t j) {gap : List Char}
    (hgap : Gap gap) (rest : List Char) : skipSpace (gap ++ (t ++ rest)) = t ++ rest := by
  refine Json.skipSpace_append hgap fun c hc => ?_
  obtain ⟨left, hleft⟩ := List.head?_eq_some_iff.mp hc
  exact Bool.eq_false_iff.mpr fun hspace => h.append_ne_cons (.inl hspace) hleft

/-! ## Numbers -/

theorem readDigits_eq_some_iff {cs ds rest : List Char} :
    readDigits cs = some (ds, rest) ↔ Digits ds ∧ NoDigit rest ∧ cs = ds ++ rest := by
  unfold readDigits
  constructor
  · intro h
    split at h
    · cases h
    · rename_i hsome
      cases h
      refine ⟨⟨hsome, List.all_eq_true.mp List.all_takeWhile⟩, fun c hc => ?_,
        List.takeWhile_append_dropWhile.symm⟩
      have hstop := List.head?_dropWhile_not Char.isDigit cs
      rw [Option.mem_def] at hc
      simpa [hc] using hstop
  · rintro ⟨hds, hrest, rfl⟩
    have hnone : rest.takeWhile Char.isDigit = [] ∧ rest.dropWhile Char.isDigit = rest := by
      cases rest with
      | nil => exact ⟨rfl, rfl⟩
      | cons c rest =>
          have hc : ¬c.isDigit = true := by simp [hrest c rfl]
          exact ⟨List.takeWhile_cons_of_neg hc, List.dropWhile_cons_of_neg hc⟩
    rw [List.takeWhile_append_of_pos hds.all, List.dropWhile_append_of_pos hds.all, hnone.1,
      hnone.2, List.append_nil, if_neg hds.ne_nil]

theorem readWhole_eq_some_iff {cs ds rest : List Char} :
    readWhole cs = some (ds, rest) ↔ Whole ds ∧ NoDigit rest ∧ cs = ds ++ rest := by
  simp only [readWhole, Option.filter_eq_some_iff, readDigits_eq_some_iff, Bool.or_eq_true,
    decide_eq_true_eq]
  constructor
  · rintro ⟨⟨hds, hrest, rfl⟩, hzero⟩
    exact ⟨⟨hds, fun h => hzero.resolve_left (· h)⟩, hrest, rfl⟩
  · rintro ⟨hds, hrest, rfl⟩
    refine ⟨⟨hds.toDigits, hrest, rfl⟩, ?_⟩
    by_cases h : ds.head? = some '0'
    · exact Or.inr (hds.alone h)
    · exact Or.inl h

theorem readFraction_sound {cs : List Char} {fraction : Option (List Char)} {rest : List Char}
    (h : readFraction cs = some (fraction, rest)) : ∃ f, Fraction f fraction ∧ cs = f ++ rest := by
  unfold readFraction at h
  split at h
  · obtain ⟨⟨ds, left⟩, hdigits, heq⟩ := Option.map_eq_some_iff.mp h
    cases heq
    obtain ⟨hds, -, rfl⟩ := readDigits_eq_some_iff.mp hdigits
    exact ⟨_, .present hds, rfl⟩
  · cases h
    exact ⟨[], .absent, rfl⟩

theorem readFraction_complete {f : List Char} {fraction : Option (List Char)}
    (h : Fraction f fraction) {rest : List Char}
    (hrest : ∀ c ∈ rest.head?, c.isDigit = false ∧ c ≠ '.') :
    readFraction (f ++ rest) = some (fraction, rest) := by
  cases h with
  | absent =>
      unfold readFraction
      split
      · rename_i left hpoint
        exact absurd rfl (hrest '.' (by rw [← List.nil_append rest, hpoint]; rfl)).2
      · rfl
  | present hds =>
      have hdigits := readDigits_eq_some_iff.mpr ⟨hds, fun c hc => (hrest c hc).1, rfl⟩
      rw [List.cons_append, readFraction, hdigits]
      rfl

theorem readSigned_sound {cs : List Char} {n : Int} {rest : List Char}
    (h : readSigned cs = some (n, rest)) : ∃ t, Signed t n ∧ cs = t ++ rest := by
  unfold readSigned at h
  split at h <;>
    obtain ⟨⟨ds, left⟩, hdigits, heq⟩ := Option.map_eq_some_iff.mp h <;>
    cases heq <;>
    obtain ⟨hds, -, rfl⟩ := readDigits_eq_some_iff.mp hdigits
  · exact ⟨_, .minus hds, rfl⟩
  · exact ⟨_, .plus hds, rfl⟩
  · exact ⟨_, .bare hds, rfl⟩

theorem readSigned_complete {t : List Char} {n : Int} (h : Signed t n) {rest : List Char}
    (hrest : NoDigit rest) : readSigned (t ++ rest) = some (n, rest) := by
  cases h with
  | minus hds | plus hds =>
      rw [List.cons_append, readSigned, readDigits_eq_some_iff.mpr ⟨hds, hrest, rfl⟩]
      rfl
  | bare hds =>
      have hread := readDigits_eq_some_iff.mpr ⟨hds, hrest, rfl⟩
      unfold readSigned
      split
      · rename_i hminus
        exact absurd hminus (hds.append_ne_cons (by decide))
      · rename_i hplus
        exact absurd hplus (hds.append_ne_cons (by decide))
      · rw [hread]
        rfl

theorem readExponent_sound {cs : List Char} {exponent : Option Int} {rest : List Char}
    (h : readExponent cs = some (exponent, rest)) :
    ∃ e, Exponent e exponent ∧ cs = e ++ rest := by
  unfold readExponent at h
  split at h
  · obtain ⟨⟨n, left⟩, hsigned, heq⟩ := Option.map_eq_some_iff.mp h
    cases heq
    obtain ⟨t, ht, rfl⟩ := readSigned_sound hsigned
    exact ⟨_, .lower ht, rfl⟩
  · obtain ⟨⟨n, left⟩, hsigned, heq⟩ := Option.map_eq_some_iff.mp h
    cases heq
    obtain ⟨t, ht, rfl⟩ := readSigned_sound hsigned
    exact ⟨_, .upper ht, rfl⟩
  · cases h
    exact ⟨[], .absent, rfl⟩

theorem readExponent_complete {e : List Char} {exponent : Option Int} (h : Exponent e exponent)
    {rest : List Char} (hrest : Stops rest) :
    readExponent (e ++ rest) = some (exponent, rest) := by
  cases h with
  | absent =>
      unfold readExponent
      split
      · rename_i left hmark
        exact absurd rfl (hrest 'e' (by rw [← List.nil_append rest, hmark]; rfl)).2.2.1
      · rename_i left hmark
        exact absurd rfl (hrest 'E' (by rw [← List.nil_append rest, hmark]; rfl)).2.2.2
      · rfl
  | lower ht | upper ht =>
      rw [List.cons_append, readExponent, readSigned_complete ht hrest.noDigit]
      rfl

theorem readMagnitude_sound {negative : Bool} {cs : List Char} {j : Json} {rest : List Char}
    (h : readMagnitude negative cs = some (j, rest)) :
    ∃ t, Magnitude negative t j ∧ cs = t ++ rest := by
  simp only [readMagnitude, Option.bind_eq_bind, Option.bind_eq_some_iff, Option.pure_def,
    Prod.exists, Option.some.injEq, Prod.mk.injEq] at h
  obtain ⟨whole, _, hwhole, fraction, _, hfraction, exponent, _, hexponent, rfl, rfl⟩ := h
  obtain ⟨hw, -, rfl⟩ := readWhole_eq_some_iff.mp hwhole
  obtain ⟨f, hf, rfl⟩ := readFraction_sound hfraction
  obtain ⟨e, he, rfl⟩ := readExponent_sound hexponent
  exact ⟨_, .mk hw hf he, by simp⟩

theorem readMagnitude_complete {negative : Bool} {t : List Char} {j : Json}
    (h : Magnitude negative t j) {rest : List Char} (hrest : Stops rest) :
    readMagnitude negative (t ++ rest) = some (j, rest) := by
  cases h with
  | @mk whole f fraction e exponent hwhole hf he =>
      have hbehindFraction : ∀ c ∈ (e ++ rest).head?, c.isDigit = false ∧ c ≠ '.' := by
        cases he with
        | absent => exact fun c hc => ⟨(hrest c hc).1, (hrest c hc).2.1⟩
        | lower | upper => simp
      have hbehindWhole : NoDigit (f ++ (e ++ rest)) := by
        cases hf with
        | absent => exact fun c hc => (hbehindFraction c hc).1
        | present => simp [NoDigit]
      rw [List.append_assoc, List.append_assoc, readMagnitude,
        readWhole_eq_some_iff.mpr ⟨hwhole, hbehindWhole, rfl⟩]
      simp only [Option.bind_eq_bind, Option.bind_some, readFraction_complete hf hbehindFraction,
        readExponent_complete he hrest]
      rfl

theorem readNumber_sound {cs : List Char} {j : Json} {rest : List Char}
    (h : readNumber cs = some (j, rest)) : ∃ t, Number t j ∧ cs = t ++ rest := by
  unfold readNumber at h
  split at h
  · obtain ⟨t, ht, rfl⟩ := readMagnitude_sound h
    exact ⟨_, .minus ht, rfl⟩
  · obtain ⟨t, ht, rfl⟩ := readMagnitude_sound h
    exact ⟨_, .bare ht, rfl⟩

theorem readNumber_complete {t : List Char} {j : Json} (h : Number t j) {rest : List Char}
    (hrest : Stops rest) : readNumber (t ++ rest) = some (j, rest) := by
  cases h with
  | minus h => rw [List.cons_append, readNumber, readMagnitude_complete h hrest]
  | bare h =>
      unfold readNumber
      split
      · rename_i hminus
        exact absurd hminus (h.append_ne_cons (by decide))
      · rw [readMagnitude_complete h hrest]

/-! ## Literals -/

theorem hexValue?_eq_some_iff {c : Char} {value : Nat} :
    hexValue? c = some value ↔ HexDigit c value := by
  constructor
  · intro h
    have hascii : ∀ n : Fin 128, ∀ v ∈ hexValue? (Char.ofNat n), HexDigit (Char.ofNat n) v := by
      decide +kernel
    have hc : c ≤ 'f' := by
      unfold hexValue? at h
      split at h
      · exact Char.le_trans (And.right ‹_›) (by decide)
      · split at h
        · exact And.right ‹_›
        · split at h
          · exact Char.le_trans (And.right ‹_›) (by decide)
          · cases h
    have hdigit := hascii ⟨c.toNat, Nat.lt_of_le_of_lt hc (by decide)⟩ value
    rw [Char.ofNat_toNat] at hdigit
    exact hdigit h
  · rintro ⟨hvalue, h⟩
    have hall : ∀ v : Fin 16, hexValue? (Nat.digitChar v) = some v.val ∧
        hexValue? (Nat.digitChar v).toUpper = some v.val := by decide
    obtain rfl | rfl := h
    · exact (hall ⟨value, hvalue⟩).1
    · exact (hall ⟨value, hvalue⟩).2

theorem hexUnit?_eq_some_iff {a b c d : Char} {unit : Nat} :
    hexUnit? a b c d = some unit ↔ ∃ w x y z, HexDigit a w ∧ HexDigit b x ∧ HexDigit c y ∧
      HexDigit d z ∧ unit = ((w * 16 + x) * 16 + y) * 16 + z := by
  simp only [hexUnit?, Option.bind_eq_bind, Option.pure_def, Option.bind_eq_some_iff,
    hexValue?_eq_some_iff, Option.some.injEq]
  constructor
  · rintro ⟨w, ha, x, hb, y, hc, z, hd, rfl⟩
    exact ⟨w, x, y, z, ha, hb, hc, hd, rfl⟩
  · rintro ⟨w, x, y, z, ha, hb, hc, hd, rfl⟩
    exact ⟨w, ha, x, hb, y, hc, z, hd, rfl⟩

theorem putPiece_eq_some_iff {p : Piece} {scanned : Option (List Piece × List Char)}
    {ps : List Piece} {rest : List Char} :
    putPiece p scanned = some (ps, rest) ↔
      ∃ others, scanned = some (others, rest) ∧ ps = p :: others := by
  simp only [putPiece, Option.map_eq_some_iff, Prod.exists, Prod.mk.injEq]
  constructor
  · rintro ⟨others, left, h, rfl, rfl⟩
    exact ⟨others, h, rfl⟩
  · rintro ⟨others, h, rfl⟩
    exact ⟨others, rest, h, rfl, rfl⟩

/-- A literal is followed up to its closing quote. -/
theorem scan_sound {cs : List Char} {ps : List Piece} {rest : List Char}
    (h : scan cs = some (ps, rest)) : ∃ t, Spells t ps ∧ cs = t ++ '"' :: rest := by
  fun_induction scan cs generalizing ps with
  | case1 => cases h
  | case2 left =>
      cases h
      exact ⟨[], .nil, rfl⟩
  | case3 a b c d left ih =>
      obtain ⟨unit, hunit, hscan⟩ := Option.bind_eq_some_iff.mp h
      obtain ⟨others, hothers, rfl⟩ := putPiece_eq_some_iff.mp hscan
      obtain ⟨t, ht, rfl⟩ := ih hothers
      obtain ⟨w, x, y, z, ha, hb, hc, hd, rfl⟩ := hexUnit?_eq_some_iff.mp hunit
      exact ⟨_, .unit ha hb hc hd ht, rfl⟩
  | case4 letter left _ ih =>
      obtain ⟨c, hletter, hscan⟩ := Option.bind_eq_some_iff.mp h
      obtain ⟨others, hothers, rfl⟩ := putPiece_eq_some_iff.mp hscan
      obtain ⟨t, ht, rfl⟩ := ih hothers
      exact ⟨_, .letter hletter ht, rfl⟩
  | case5 => cases h
  | case6 c left hquote _ _ hgood ih =>
      obtain ⟨others, hothers, rfl⟩ := putPiece_eq_some_iff.mp h
      obtain ⟨t, ht, rfl⟩ := ih hothers
      obtain ⟨hcontrol, hbackslash⟩ := not_or.mp hgood
      exact ⟨c :: t, .plain (by omega) hquote hbackslash ht, rfl⟩

theorem scan_complete {t : List Char} {ps : List Piece} (h : Spells t ps) (rest : List Char) :
    scan (t ++ '"' :: rest) = some (ps, rest) := by
  induction h with
  | nil => rfl
  | plain hcontrol hquote hbackslash h ih =>
      rw [List.cons_append, scan_plain hquote hbackslash (by omega), ih]
      rfl
  | letter hletter h ih =>
      rw [List.cons_append, List.cons_append, scan_letter hletter, ih]
      rfl
  | unit ha hb hc hd h ih =>
      simp only [List.cons_append, scan]
      rw [hexUnit?_eq_some_iff.mpr ⟨_, _, _, _, ha, hb, hc, hd, rfl⟩, ih]
      rfl

theorem join_eq_some_iff {ps : List Piece} {cs : List Char} :
    join ps = some cs ↔ Paired ps cs := by
  constructor
  · intro h
    fun_induction join ps generalizing cs with
    | case1 =>
        cases h
        exact .nil
    | case2 c rest ih =>
        obtain ⟨others, hothers, rfl⟩ := Option.map_eq_some_iff.mp h
        exact .char (ih hothers)
    | case3 high low rest hhalves ih =>
        obtain ⟨others, hothers, rfl⟩ := Option.map_eq_some_iff.mp h
        exact .pair hhalves.1 hhalves.2 (ih hothers)
    | case4 | case5 => cases h
  · intro h
    induction h with
    | nil => rfl
    | char h ih =>
        rw [join, ih]
        rfl
    | pair hhigh hlow h ih =>
        rw [join, if_pos ⟨hhigh, hlow⟩, ih]
        rfl

theorem join_eq_none_iff {ps : List Piece} : join ps = none ↔ ∀ cs, ¬Paired ps cs := by
  simp only [Option.eq_none_iff_forall_ne_some, ne_eq, join_eq_some_iff]

theorem readLiteral_sound {cs : List Char} {s : Option String} {rest : List Char}
    (h : readLiteral cs = some (s, rest)) : ∃ t, Literal t s ∧ '"' :: cs = t ++ rest := by
  obtain ⟨⟨ps, left⟩, hscan, heq⟩ := Option.map_eq_some_iff.mp h
  obtain ⟨rfl, rfl⟩ := Prod.mk.inj heq
  obtain ⟨t, ht, rfl⟩ := scan_sound hscan
  refine ⟨'"' :: (t ++ ['"']), ?_, by simp⟩
  cases hjoin : join ps with
  | none => exact .unpaired ht (join_eq_none_iff.mp hjoin)
  | some cs => exact .text ht (join_eq_some_iff.mp hjoin)

theorem readLiteral_complete {t : List Char} {s : Option String} (h : Literal t s)
    (rest : List Char) :
    ∃ inside, t ++ rest = '"' :: inside ∧ readLiteral inside = some (s, rest) := by
  cases h with
  | @text t ps cs ht hps =>
      refine ⟨t ++ '"' :: rest, by simp, ?_⟩
      rw [readLiteral, scan_complete ht, Option.map_some, join_eq_some_iff.mpr hps,
        Option.map_some]
  | @unpaired t ps ht hps =>
      refine ⟨t ++ '"' :: rest, by simp, ?_⟩
      rw [readLiteral, scan_complete ht, Option.map_some, join_eq_none_iff.mpr hps,
        Option.map_none]

/-! ## Values that are read -/

mutual

theorem readValue_sound {steps : Nat} {cs : List Char} {j : Json} {rest : List Char}
    (h : readValue steps cs = some (j, rest)) :
    ∃ gap t, Gap gap ∧ Value t j ∧ cs = gap ++ (t ++ rest) := by
  cases steps with
  | zero => cases h
  | succ steps =>
      obtain ⟨gap, hgap, hcs⟩ := exists_eq_append_skipSpace cs
      suffices hvalue : ∃ t, Value t j ∧ skipSpace cs = t ++ rest by
        obtain ⟨t, ht, hskip⟩ := hvalue
        exact ⟨gap, t, hgap, ht, by rw [← hskip, ← hcs]⟩
      rw [readValue] at h
      split at h
      · rename_i heq
        cases h
        exact ⟨_, .null, heq⟩
      · rename_i heq
        cases h
        exact ⟨_, .yes, heq⟩
      · rename_i heq
        cases h
        exact ⟨_, .no, heq⟩
      · rename_i inside heq
        obtain ⟨⟨s, left⟩, hliteral, hpair⟩ := Option.map_eq_some_iff.mp h
        cases hpair
        obtain ⟨t, ht, hinside⟩ := readLiteral_sound hliteral
        exact ⟨t, .text ht, heq.trans hinside⟩
      · rename_i inside heq
        obtain ⟨inner, hinner, hinside⟩ := exists_eq_append_skipSpace inside
        split at h
        · rename_i hclosed
          cases h
          exact ⟨_, .emptyArray hinner, by rw [heq, hinside, hclosed]; simp⟩
        · obtain ⟨⟨js, left⟩, hitems, hpair⟩ := Option.map_eq_some_iff.mp h
          cases hpair
          obtain ⟨t, ht, rfl⟩ := readItems_sound hitems
          exact ⟨_, .array ht, by rw [heq]; simp⟩
      · rename_i inside heq
        obtain ⟨inner, hinner, hinside⟩ := exists_eq_append_skipSpace inside
        split at h
        · rename_i hclosed
          cases h
          exact ⟨_, .emptyObject hinner, by rw [heq, hinside, hclosed]; simp⟩
        · obtain ⟨⟨ms, left⟩, hmembers, hpair⟩ := Option.map_eq_some_iff.mp h
          cases hpair
          obtain ⟨t, ht, rfl⟩ := readMembers_sound hmembers
          exact ⟨_, .object ht, by rw [heq]; simp⟩
      · obtain ⟨t, ht, heq⟩ := readNumber_sound h
        exact ⟨t, .number ht, heq⟩

theorem readItems_sound {steps : Nat} {cs : List Char} {js : List Json} {rest : List Char}
    (h : readItems steps cs = some (js, rest)) : ∃ t, Items t js ∧ cs = t ++ ']' :: rest := by
  cases steps with
  | zero => cases h
  | succ steps =>
      rw [readItems] at h
      split at h
      · cases h
      · rename_i left hvalue
        obtain ⟨before, t, hbefore, ht, rfl⟩ := readValue_sound hvalue
        obtain ⟨after, hafter, hleft⟩ := exists_eq_append_skipSpace left
        split at h
        · rename_i hclosed
          cases h
          exact ⟨_, .one hbefore ht hafter, by rw [hleft, hclosed]; simp⟩
        · rename_i hcomma
          obtain ⟨⟨others, last⟩, hmore, hpair⟩ := Option.map_eq_some_iff.mp h
          cases hpair
          obtain ⟨ts, hts, rfl⟩ := readItems_sound hmore
          exact ⟨_, .more hbefore ht hafter hts, by rw [hleft, hcomma]; simp⟩
        · cases h

theorem readMembers_sound {steps : Nat} {cs : List Char} {ms : List (Option String × Json)}
    {rest : List Char} (h : readMembers steps cs = some (ms, rest)) :
    ∃ t, Members t ms ∧ cs = t ++ '\x7d' :: rest := by
  cases steps with
  | zero => cases h
  | succ steps =>
      obtain ⟨before, hbefore, hcs⟩ := exists_eq_append_skipSpace cs
      rw [readMembers] at h
      split at h
      · rename_i named hquote
        split at h
        · cases h
        · rename_i name left hname
          obtain ⟨n, hn, hnamed⟩ := readLiteral_sound hname
          obtain ⟨colon, hcolon, hleft⟩ := exists_eq_append_skipSpace left
          split at h
          · rename_i behind hbehind
            split at h
            · cases h
            · rename_i last hvalue
              obtain ⟨between, t, hbetween, ht, rfl⟩ := readValue_sound hvalue
              obtain ⟨after, hafter, hlast⟩ := exists_eq_append_skipSpace last
              have hmember := Member.mk hbefore hn hcolon hbetween ht hafter
              split at h
              · rename_i hclosed
                cases h
                refine ⟨_, .one hmember, ?_⟩
                rw [hcs, hquote, hnamed, hleft, hbehind, hlast, hclosed]
                simp
              · rename_i hcomma
                obtain ⟨⟨others, behind⟩, hmore, hpair⟩ := Option.map_eq_some_iff.mp h
                cases hpair
                obtain ⟨ts, hts, rfl⟩ := readMembers_sound hmore
                refine ⟨_, .more hmember hts, ?_⟩
                rw [hcs, hquote, hnamed, hleft, hbehind, hlast, hcomma]
                simp
              · cases h
          · cases h
      · cases h

end

/-! ## Steps of the reader -/

section Steps

variable {gap : List Char} (hgap : Gap gap)
include hgap

theorem readValue_number {t : List Char} {j : Json} (h : Number t j) (steps : Nat)
    {rest : List Char} (hrest : Stops rest) :
    readValue (steps + 1) (gap ++ (t ++ rest)) = some (j, rest) := by
  rw [readValue, (Value.number h).skipSpace_append hgap]
  split
  case h_7 => exact readNumber_complete h hrest
  all_goals
    rename_i heq
    exact absurd heq (h.append_ne_cons (by decide) (by decide))

theorem readValue_literal {t : List Char} {s : Option String} (h : Literal t s) (steps : Nat)
    (rest : List Char) : readValue (steps + 1) (gap ++ (t ++ rest)) = some (.text s, rest) := by
  obtain ⟨inside, hinside, hread⟩ := readLiteral_complete h rest
  rw [readValue, (Value.text h).skipSpace_append hgap, hinside]
  simp only [hread]
  rfl

theorem readValue_emptyArray {inner : List Char} (hinner : Gap inner) (steps : Nat)
    (rest : List Char) :
    readValue (steps + 1) (gap ++ '[' :: (inner ++ ']' :: rest)) = some (.array [], rest) := by
  rw [readValue, skipSpace_append_cons hgap (by decide)]
  simp only [skipSpace_append_cons hinner (by decide : isSpace ']' = false)]

theorem readValue_array {cs : List Char} (hcs : ∀ left, skipSpace cs ≠ ']' :: left)
    (steps : Nat) :
    readValue (steps + 1) (gap ++ '[' :: cs) =
      (readItems steps cs).map fun r => (.array r.1, r.2) := by
  rw [readValue, skipSpace_append_cons hgap (by decide)]
  simp only

theorem readValue_emptyObject {inner : List Char} (hinner : Gap inner) (steps : Nat)
    (rest : List Char) :
    readValue (steps + 1) (gap ++ '\x7b' :: (inner ++ '\x7d' :: rest)) =
      some (.object [], rest) := by
  rw [readValue, skipSpace_append_cons hgap (by decide)]
  simp only [skipSpace_append_cons hinner (by decide : isSpace '\x7d' = false)]

theorem readValue_object {cs : List Char} (hcs : ∀ left, skipSpace cs ≠ '\x7d' :: left)
    (steps : Nat) :
    readValue (steps + 1) (gap ++ '\x7b' :: cs) =
      (readMembers steps cs).map fun r => (.object r.1, r.2) := by
  rw [readValue, skipSpace_append_cons hgap (by decide)]
  simp only

end Steps

section Lists

variable {steps : Nat} {cs after rest : List Char}

theorem readItems_last {j : Json} (hvalue : readValue steps cs = some (j, after))
    (hafter : skipSpace after = ']' :: rest) : readItems (steps + 1) cs = some ([j], rest) := by
  rw [readItems, hvalue]
  simp only [hafter]

theorem readItems_comma {j : Json} (hvalue : readValue steps cs = some (j, after))
    (hafter : skipSpace after = ',' :: rest) :
    readItems (steps + 1) cs = (readItems steps rest).map fun r => (j :: r.1, r.2) := by
  rw [readItems, hvalue]
  simp only [hafter]

/-- A member stands in front, and this is left behind its value. -/
def MemberAhead (steps : Nat) (cs : List Char) (m : Option String × Json) (after : List Char) :
    Prop :=
  ∃ named left behind, skipSpace cs = '"' :: named ∧ readLiteral named = some (m.1, left) ∧
    skipSpace left = ':' :: behind ∧ readValue steps behind = some (m.2, after)

variable {m : Option String × Json}

theorem readMembers_last (hmember : MemberAhead steps cs m after)
    (hafter : skipSpace after = '\x7d' :: rest) :
    readMembers (steps + 1) cs = some ([m], rest) := by
  obtain ⟨named, left, behind, hquote, hname, hcolon, hvalue⟩ := hmember
  rw [readMembers, hquote]
  simp only [hname, hcolon, hvalue, hafter]

theorem readMembers_comma (hmember : MemberAhead steps cs m after)
    (hafter : skipSpace after = ',' :: rest) :
    readMembers (steps + 1) cs = (readMembers steps rest).map fun r => (m :: r.1, r.2) := by
  obtain ⟨named, left, behind, hquote, hname, hcolon, hvalue⟩ := hmember
  rw [readMembers, hquote]
  simp only [hname, hcolon, hvalue, hafter]

end Lists

/-! ## Values that the grammar gives -/

theorem Items.skipSpace_ne {t : List Char} {js : List Json} (h : Items t js)
    {rest left : List Char} : skipSpace (t ++ rest) ≠ ']' :: left := by
  cases h with
  | one hbefore h | more hbefore h =>
      rw [List.append_assoc, List.append_assoc, h.skipSpace_append hbefore]
      exact h.append_ne_cons (.inr rfl)

theorem Member.skipSpace_ne {t : List Char} {m : Option String × Json} (h : Member t m)
    {rest left : List Char} : skipSpace (t ++ rest) ≠ '\x7d' :: left := by
  cases h with
  | mk hbefore hname =>
      rw [List.append_assoc, List.append_assoc, (Value.text hname).skipSpace_append hbefore]
      obtain ⟨inside, rfl⟩ := hname.exists_eq_cons
      simp

theorem Members.skipSpace_ne {t : List Char} {ms : List (Option String × Json)}
    (h : Members t ms) {rest left : List Char} : skipSpace (t ++ rest) ≠ '\x7d' :: left := by
  cases h with
  | one h => exact h.skipSpace_ne
  | more h =>
      rw [List.append_assoc]
      exact h.skipSpace_ne

mutual

theorem readValue_complete {t : List Char} {j : Json} (h : Value t j) {steps : Nat}
    (hsteps : 2 * t.length ≤ steps) {gap : List Char} (hgap : Gap gap) {rest : List Char}
    (hrest : Stops rest) : readValue steps (gap ++ (t ++ rest)) = some (j, rest) := by
  have hsome := h.length_pos
  obtain ⟨steps, rfl⟩ : ∃ n, steps = n + 1 := ⟨steps - 1, by omega⟩
  have hskip := h.skipSpace_append hgap rest
  cases h with
  | null | yes | no =>
      rw [readValue, hskip]
      rfl
  | number h => exact readValue_number hgap h steps hrest
  | text h => exact readValue_literal hgap h steps rest
  | emptyArray hinner =>
      rw [List.cons_append, List.append_assoc]
      exact readValue_emptyArray hgap hinner steps rest
  | @array t js h =>
      have hitems : readItems steps (t ++ ']' :: rest) = some (js, rest) :=
        readItems_complete h (by simp at hsteps; omega) rest
      rw [List.cons_append, List.append_assoc, List.singleton_append,
        readValue_array hgap fun left => h.skipSpace_ne, hitems]
      rfl
  | emptyObject hinner =>
      rw [List.cons_append, List.append_assoc]
      exact readValue_emptyObject hgap hinner steps rest
  | @object t ms h =>
      have hmembers : readMembers steps (t ++ '\x7d' :: rest) = some (ms, rest) :=
        readMembers_complete h (by simp at hsteps; omega) rest
      rw [List.cons_append, List.append_assoc, List.singleton_append,
        readValue_object hgap fun left => h.skipSpace_ne, hmembers]
      rfl

theorem readItems_complete {t : List Char} {js : List Json} (h : Items t js) {steps : Nat}
    (hsteps : 2 * t.length < steps) (rest : List Char) :
    readItems steps (t ++ ']' :: rest) = some (js, rest) := by
  obtain ⟨steps, rfl⟩ : ∃ n, steps = n + 1 := ⟨steps - 1, by omega⟩
  cases h with
  | @one before t after j hbefore h hafter =>
      have hstops : Stops (after ++ ']' :: rest) := hafter.stops_append (stops_cons (by decide) _)
      simp only [List.append_assoc, List.length_append] at hsteps ⊢
      exact readItems_last (readValue_complete h (by omega) hbefore hstops)
        (skipSpace_append_cons hafter (by decide) rest)
  | @more before t after j ts js hbefore h hafter hmore =>
      have hstops : Stops (after ++ ',' :: (ts ++ ']' :: rest)) :=
        hafter.stops_append (stops_cons (by decide) _)
      simp only [List.append_assoc, List.cons_append, List.length_append,
        List.length_cons] at hsteps ⊢
      rw [readItems_comma (readValue_complete h (by omega) hbefore hstops)
        (skipSpace_append_cons hafter (by decide) _), readItems_complete hmore (by omega) rest]
      rfl

theorem memberAhead_complete {t : List Char} {m : Option String × Json} (h : Member t m)
    {steps : Nat} (hsteps : 2 * t.length ≤ steps) {rest : List Char} (hrest : Stops rest) :
    ∃ after, Gap after ∧ MemberAhead steps (t ++ rest) m (after ++ rest) := by
  cases h with
  | @mk before n colon name between t after j hbefore hname hcolon hbetween h hafter =>
      simp only [List.length_append, List.length_cons] at hsteps
      have hvalue : readValue steps (between ++ (t ++ (after ++ rest))) = some (j, after ++ rest) :=
        readValue_complete h (by omega) hbetween (hafter.stops_append hrest)
      obtain ⟨inside, hinside, hread⟩ :=
        readLiteral_complete hname (colon ++ ':' :: (between ++ (t ++ (after ++ rest))))
      refine ⟨after, hafter, inside, _, _, ?_, hread, skipSpace_append_cons hcolon (by decide) _,
        hvalue⟩
      simp only [List.append_assoc, List.cons_append, hinside]
      exact skipSpace_append_cons hbefore (by decide) _

theorem readMembers_complete {t : List Char} {ms : List (Option String × Json)}
    (h : Members t ms) {steps : Nat} (hsteps : 2 * t.length < steps) (rest : List Char) :
    readMembers steps (t ++ '\x7d' :: rest) = some (ms, rest) := by
  obtain ⟨steps, rfl⟩ : ∃ n, steps = n + 1 := ⟨steps - 1, by omega⟩
  cases h with
  | one h =>
      have hstops : Stops ('\x7d' :: rest) := stops_cons (by decide) rest
      obtain ⟨after, hafter, hmember⟩ := memberAhead_complete h (Nat.le_of_lt_succ hsteps) hstops
      exact readMembers_last hmember (skipSpace_append_cons hafter (by decide) rest)
  | @more t m ts ms h hmore =>
      have hstops : Stops (',' :: (ts ++ '\x7d' :: rest)) := stops_cons (by decide) _
      simp only [List.append_assoc, List.cons_append, List.length_append,
        List.length_cons] at hsteps ⊢
      obtain ⟨after, hafter, hmember⟩ :=
        memberAhead_complete h (by omega : 2 * t.length ≤ steps) hstops
      rw [readMembers_comma hmember (skipSpace_append_cons hafter (by decide) _),
        readMembers_complete hmore (by omega) rest]
      rfl

end

/-! ## Texts -/

/-- **The grammar**: a text is read as a value exactly if it is one, with nothing but
white space around it. -/
theorem parse?_eq_some_iff {s : String} {j : Json} : parse? s = some j ↔ Text s j := by
  unfold parse?
  constructor
  · intro h
    split at h
    · rename_i rest hread
      obtain ⟨before, t, hbefore, ht, hs⟩ := readValue_sound hread
      split at h
      · rename_i hend
        cases h
        obtain ⟨after, hafter, hrest⟩ := exists_eq_append_skipSpace rest
        refine ⟨before, t, after, hbefore, ht, hafter, ?_⟩
        rw [hs, hrest, hend, List.append_nil]
      · cases h
    · cases h
  · rintro ⟨before, t, after, hbefore, ht, hafter, hs⟩
    have hlength := congrArg List.length hs
    simp only [String.length_toList, List.length_append] at hlength
    have hstops : Stops after := by
      rw [← List.append_nil after]
      exact hafter.stops_append stops_nil
    have hend : skipSpace after = [] := by
      rw [← List.append_nil after]
      exact skipSpace_append hafter nofun
    rw [hs, readValue_complete ht (by omega) hbefore hstops]
    simp only [hend, if_pos]

end Json
end ReviewRota
