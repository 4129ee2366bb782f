import ReviewRota.Json.Parser

/-!
# ReviewRota.Proofs.Grammar

The strict grammar of JSON, as relations between a text and what it stands for.
Nothing here says how a text is read; `ReviewRota.Proofs.Parsing` shows that what
is read is what the grammar gives.

The relations follow the parts of the grammar: numbers (`Number`), literals
(`Literal`), values (`Value`) and whole texts (`Text`).  White space stands between
tokens only (`Gap`), a comma only between two items, and a number is what its
digits say, with no zero in front.

A literal is told in two steps, since its escapes may leave half of a surrogate
pair: first the pieces that it spells (`Spells`), then the characters that these
make if every half has its other half behind it (`Paired`).

What a text starts with decides how it is read.  Hence the lemmas on what a part of
the grammar never starts with (`Value.append_ne_cons`), and on what a number does
not go on with (`Stops`).
-/

namespace ReviewRota
namespace Json

/-! ## Gaps -/

/-- White space of the grammar, or nothing. -/
def Gap (cs : List Char) : Prop := ∀ c ∈ cs, isSpace c = true

theorem gap_nil : Gap [] := nofun

/-! ## Numbers -/

/-- ASCII digits, at least one. -/
structure Digits (ds : List Char) : Prop where
  ne_nil : ds ≠ []
  all : ∀ c ∈ ds, c.isDigit = true

/-- The digits before the point: more than one do not start with a zero. -/
structure Whole (ds : List Char) : Prop extends Digits ds where
  alone : ds.head? = some '0' → ds.length = 1

/-- The fraction, if there is one, and its digits. -/
inductive Fraction : List Char → Option (List Char) → Prop where
  | absent : Fraction [] none
  | present {ds} (h : Digits ds) : Fraction ('.' :: ds) (some ds)

/-- The digits of an exponent behind a sign, if there is one, and their value. -/
inductive Signed : List Char → Int → Prop where
  | minus {ds} (h : Digits ds) : Signed ('-' :: ds) (-(Nat.ofDigitChars 10 ds 0 : Int))
  | plus {ds} (h : Digits ds) : Signed ('+' :: ds) (Nat.ofDigitChars 10 ds 0)
  | bare {ds} (h : Digits ds) : Signed ds (Nat.ofDigitChars 10 ds 0)

/-- The exponent, if there is one, and its value. -/
inductive Exponent : List Char → Option Int → Prop where
  | absent : Exponent [] none
  | lower {t n} (h : Signed t n) : Exponent ('e' :: t) (some n)
  | upper {t n} (h : Signed t n) : Exponent ('E' :: t) (some n)

/-- A number without its sign. -/
inductive Magnitude (negative : Bool) : List Char → Json → Prop where
  | mk {whole f fraction e exponent} (hwhole : Whole whole) (hfraction : Fraction f fraction)
      (hexponent : Exponent e exponent) :
      Magnitude negative (whole ++ (f ++ e)) (ofParts negative whole fraction exponent)

/-- A number and its value. -/
inductive Number : List Char → Json → Prop where
  | minus {t j} (h : Magnitude true t j) : Number ('-' :: t) j
  | bare {t j} (h : Magnitude false t j) : Number t j

/-! ## Literals -/

/-- A hexadecimal digit in either case, and its value. -/
def HexDigit (c : Char) (value : Nat) : Prop :=
  value < 16 ∧ (c = Nat.digitChar value ∨ c = (Nat.digitChar value).toUpper)

instance (c : Char) (value : Nat) : Decidable (HexDigit c value) :=
  inferInstanceAs (Decidable (_ ∧ _))

/-- The inside of a literal, and the pieces that it spells. -/
inductive Spells : List Char → List Piece → Prop where
  | nil : Spells [] []
  /-- A character that needs no escape stands for itself. -/
  | plain {c cs ps} (hcontrol : 0x20 ≤ c.toNat) (hquote : c ≠ '"') (hbackslash : c ≠ '\\')
      (h : Spells cs ps) : Spells (c :: cs) (.char c :: ps)
  | letter {l c cs ps} (hletter : escaped? l = some c) (h : Spells cs ps) :
      Spells ('\\' :: l :: cs) (.char c :: ps)
  | unit {a b c d w x y z cs ps} (ha : HexDigit a w) (hb : HexDigit b x) (hc : HexDigit c y)
      (hd : HexDigit d z) (h : Spells cs ps) :
      Spells ('\\' :: 'u' :: a :: b :: c :: d :: cs)
        (Piece.ofUnit (((w * 16 + x) * 16 + y) * 16 + z) :: ps)

/-- The characters of pieces, where every half has its other half behind it. -/
inductive Paired : List Piece → List Char → Prop where
  | nil : Paired [] []
  | char {c ps cs} (h : Paired ps cs) : Paired (.char c :: ps) (c :: cs)
  | pair {high low ps cs} (hhigh : high < 0xdc00) (hlow : 0xdc00 ≤ low) (h : Paired ps cs) :
      Paired (.half high :: .half low :: ps)
        (Char.ofNat (0x10000 + (high - 0xd800) * 0x400 + (low - 0xdc00)) :: cs)

/-- A literal with its quotes, and the text that it denotes, if it denotes one. -/
inductive Literal : List Char → Option String → Prop where
  | text {t ps cs} (ht : Spells t ps) (hps : Paired ps cs) :
      Literal ('"' :: (t ++ ['"'])) (some (String.ofList cs))
  | unpaired {t ps} (ht : Spells t ps) (hps : ∀ cs, ¬Paired ps cs) :
      Literal ('"' :: (t ++ ['"'])) none

/-! ## Values -/

mutual

/-- A value, without white space around it. -/
inductive Value : List Char → Json → Prop where
  | null : Value ['n', 'u', 'l', 'l'] .null
  | yes : Value ['t', 'r', 'u', 'e'] (.bool true)
  | no : Value ['f', 'a', 'l', 's', 'e'] (.bool false)
  | number {t j} (h : Number t j) : Value t j
  | text {t s} (h : Literal t s) : Value t (.text s)
  | emptyArray {gap} (hgap : Gap gap) : Value ('[' :: (gap ++ [']'])) (.array [])
  | array {t js} (h : Items t js) : Value ('[' :: (t ++ [']'])) (.array js)
  | emptyObject {gap} (hgap : Gap gap) : Value ('\x7b' :: (gap ++ ['\x7d'])) (.object [])
  | object {t ms} (h : Members t ms) : Value ('\x7b' :: (t ++ ['\x7d'])) (.object ms)

/-- One item or more, with commas between them. -/
inductive Items : List Char → List Json → Prop where
  | one {before t after j} (hbefore : Gap before) (h : Value t j) (hafter : Gap after) :
      Items (before ++ (t ++ after)) [j]
  | more {before t after j ts js} (hbefore : Gap before) (h : Value t j) (hafter : Gap after)
      (hmore : Items ts js) : Items (before ++ (t ++ (after ++ ',' :: ts))) (j :: js)

/-- One member or more, with commas between them. -/
inductive Members : List Char → List (Option String × Json) → Prop where
  | one {t m} (h : Member t m) : Members t [m]
  | more {t m ts ms} (h : Member t m) (hmore : Members ts ms) :
      Members (t ++ ',' :: ts) (m :: ms)

/-- A name, a colon and a value. -/
inductive Member : List Char → Option String × Json → Prop where
  | mk {before n colon name between t after j} (hbefore : Gap before) (hname : Literal n name)
      (hcolon : Gap colon) (hbetween : Gap between) (h : Value t j) (hafter : Gap after) :
      Member (before ++ (n ++ (colon ++ ':' :: (between ++ (t ++ after))))) (name, j)

end

/-- A text is a value with white space around it. -/
def Text (s : String) (j : Json) : Prop :=
  ∃ before t after, Gap before ∧ Value t j ∧ Gap after ∧ s.toList = before ++ (t ++ after)

/-! ## What a text starts with -/

theorem Digits.append_ne_cons {ds : List Char} (h : Digits ds) {c : Char}
    (hc : c.isDigit = false) {rest left : List Char} : ds ++ rest ≠ c :: left := by
  cases ds with
  | nil => exact absurd rfl h.ne_nil
  | cons d ds =>
      intro heq
      have hd := h.all d List.mem_cons_self
      rw [(List.cons.inj heq).1, hc] at hd
      cases hd

theorem Magnitude.append_ne_cons {negative : Bool} {t : List Char} {j : Json}
    (h : Magnitude negative t j) {c : Char} (hc : c.isDigit = false) {rest left : List Char} :
    t ++ rest ≠ c :: left := by
  cases h with
  | mk hwhole =>
      rw [List.append_assoc]
      exact hwhole.append_ne_cons hc

theorem Number.append_ne_cons {t : List Char} {j : Json} (h : Number t j) {c : Char}
    (hdigit : c.isDigit = false) (hminus : c ≠ '-') {rest left : List Char} :
    t ++ rest ≠ c :: left := by
  cases h with
  | minus h => exact fun heq => hminus (List.cons.inj heq).1.symm
  | bare h => exact h.append_ne_cons hdigit

theorem Literal.exists_eq_cons {t : List Char} {s : Option String} (h : Literal t s) :
    ∃ inside, t = '"' :: inside := by
  cases h with
  | text | unpaired => exact ⟨_, rfl⟩

theorem Value.append_ne_cons {t : List Char} {j : Json} (h : Value t j) {c : Char}
    (hc : isSpace c = true ∨ c = ']') {rest left : List Char} : t ++ rest ≠ c :: left := by
  have hstart : c.isDigit = false ∧ c ≠ '-' ∧ c ∉ ['n', 't', 'f', '"', '[', '\x7b'] := by
    obtain hspace | rfl := hc
    · simp only [isSpace, Bool.or_eq_true, decide_eq_true_eq] at hspace
      rcases hspace with ((rfl | rfl) | rfl) | rfl <;> decide
    · decide
  obtain ⟨hdigit, hminus, hnone⟩ := hstart
  intro heq
  cases h with
  | number h => exact h.append_ne_cons hdigit hminus heq
  | text h =>
      obtain ⟨inside, rfl⟩ := h.exists_eq_cons
      rw [← (List.cons.inj heq).1] at hnone
      exact hnone (by decide)
  | null | yes | no | emptyArray | array | emptyObject | object =>
      rw [← (List.cons.inj heq).1] at hnone
      exact hnone (by decide)

theorem Value.length_pos {t : List Char} {j : Json} (h : Value t j) : 0 < t.length := by
  refine List.length_pos_iff.mpr fun hnil => ?_
  subst hnil
  exact h.append_ne_cons (.inr rfl) (List.nil_append (']' :: []))

/-! ## What a number does not go on with -/

/-- No digit stands in front. -/
def NoDigit (cs : List Char) : Prop := ∀ c ∈ cs.head?, c.isDigit = false

/-- No number goes on in this text. -/
def Stops (cs : List Char) : Prop :=
  ∀ c ∈ cs.head?, c.isDigit = false ∧ c ≠ '.' ∧ c ≠ 'e' ∧ c ≠ 'E'

theorem Stops.noDigit {cs : List Char} (h : Stops cs) : NoDigit cs := fun c hc => (h c hc).1

theorem stops_nil : Stops [] := nofun

theorem stops_cons {c : Char} (hc : c.isDigit = false ∧ c ≠ '.' ∧ c ≠ 'e' ∧ c ≠ 'E')
    (cs : List Char) : Stops (c :: cs) := by
  rintro d ⟨⟩
  exact hc

theorem Gap.stops_append {gap : List Char} (hgap : Gap gap) {cs : List Char} (hcs : Stops cs) :
    Stops (gap ++ cs) := by
  cases gap with
  | nil => exact hcs
  | cons c gap =>
      refine stops_cons ?_ _
      have hspace := hgap c List.mem_cons_self
      simp only [isSpace, Bool.or_eq_true, decide_eq_true_eq] at hspace
      rcases hspace with ((rfl | rfl) | rfl) | rfl <;> decide

end Json
end ReviewRota
