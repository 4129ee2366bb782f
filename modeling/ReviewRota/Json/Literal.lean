/-!
# ReviewRota.Json.Literal

String literals.  Reading has two stages: `scan` follows the grammar up to
the closing quote and yields pieces, and `join` pairs the surrogate halves
among them.  A literal may therefore be well formed and still denote no
text.

Writing escapes what must be escaped and nothing else: the quote, the
backslash and the control characters below U+0020, five of which have a
letter of their own.

* `scan_flatMap_escape`, `join_map_char` — a written text is read back: the
  pieces scanned from it are its characters.
-/

namespace ReviewRota
namespace Json

/-! ## Surrogates and hexadecimal digits -/

/-- One character of a literal, or half of a surrogate pair that was
written as an escape. -/
inductive Piece where
  | char (c : Char)
  | half (unit : Nat)
  deriving DecidableEq, Repr

/-- The piece that a sixteen-bit escape stands for. -/
def Piece.ofUnit (unit : Nat) : Piece :=
  if 0xd800 ≤ unit ∧ unit < 0xe000 then .half unit else .char (Char.ofNat unit)

/-- The value of a hexadecimal digit in either case. -/
def hexValue? (c : Char) : Option Nat :=
  if '0' ≤ c ∧ c ≤ '9' then some (c.toNat - 0x30)
  else if 'a' ≤ c ∧ c ≤ 'f' then some (c.toNat - 0x57)
  else if 'A' ≤ c ∧ c ≤ 'F' then some (c.toNat - 0x37)
  else none

/-- The value of four hexadecimal digits. -/
def hexUnit? (a b c d : Char) : Option Nat := do
  let w ← hexValue? a
  let x ← hexValue? b
  let y ← hexValue? c
  let z ← hexValue? d
  return ((w * 16 + x) * 16 + y) * 16 + z

/-- The character that a backslash and a letter stand for. -/
def escaped? (letter : Char) : Option Char :=
  match letter with
  | '"' => some '"'
  | '\\' => some '\\'
  | '/' => some '/'
  | 'b' => some '\x08'
  | 'f' => some '\x0c'
  | 'n' => some '\n'
  | 'r' => some '\r'
  | 't' => some '\t'
  | _ => none

/-! ## Reading -/

/-- Puts a piece in front of what was scanned behind it. -/
def putPiece (p : Piece) (scanned : Option (List Piece × List Char)) :
    Option (List Piece × List Char) :=
  scanned.map fun r => (p :: r.1, r.2)

/-- Follows a literal from behind its opening quote to behind its closing
quote.  A raw control character is refused. -/
def scan : List Char → Option (List Piece × List Char)
  | [] => none
  | '"' :: rest => some ([], rest)
  | '\\' :: 'u' :: a :: b :: c :: d :: rest =>
    (hexUnit? a b c d).bind fun unit => putPiece (Piece.ofUnit unit) (scan rest)
  | '\\' :: letter :: rest => (escaped? letter).bind fun c => putPiece (.char c) (scan rest)
  | c :: rest =>
    if c.toNat < 0x20 ∨ c = '\\' then none else putPiece (.char c) (scan rest)

/-- The characters of the pieces; a high half must be followed at once by
a low half, and a low half must follow a high one. -/
def join : List Piece → Option (List Char)
  | [] => some []
  | .char c :: rest => (join rest).map (c :: ·)
  | .half hi :: .half lo :: rest =>
    if hi < 0xdc00 ∧ 0xdc00 ≤ lo then
      (join rest).map (Char.ofNat (0x10000 + (hi - 0xd800) * 0x400 + (lo - 0xdc00)) :: ·)
    else none
  | .half _ :: _ => none

/-- Reads a literal from behind its opening quote: the text it denotes, if
any, and what follows it. -/
def readLiteral (cs : List Char) : Option (Option String × List Char) :=
  (scan cs).map fun r => ((join r.1).map String.ofList, r.2)

/-! ## Writing -/

/-- The letter that stands for a character behind a backslash. -/
def escapeLetter? (c : Char) : Option Char :=
  match c with
  | '"' => some '"'
  | '\\' => some '\\'
  | '\x08' => some 'b'
  | '\x0c' => some 'f'
  | '\n' => some 'n'
  | '\r' => some 'r'
  | '\t' => some 't'
  | _ => none

/-- The written form of one character. -/
def escape (c : Char) : List Char :=
  match escapeLetter? c with
  | some letter => ['\\', letter]
  | none =>
    if c.toNat < 0x20 then
      ['\\', 'u', '0', '0', Nat.digitChar (c.toNat / 16), Nat.digitChar (c.toNat % 16)]
    else [c]

/-- The written form of a text, between its quotes. -/
def writeText (s : String) : List Char :=
  '"' :: (s.toList.flatMap escape ++ ['"'])

/-- The written form of a literal; one that denotes no text is written as
a lone surrogate half. -/
def writeLiteral : Option String → List Char
  | some s => writeText s
  | none => "\"\\ud800\"".toList

/-! ## Reading back what was written -/

theorem scan_plain {c : Char} {cs : List Char} (hq : c ≠ '"') (hb : c ≠ '\\')
    (hc : ¬ c.toNat < 0x20) : scan (c :: cs) = putPiece (.char c) (scan cs) := by
  rw [scan.eq_def]
  split
  · rename_i h; cases h
  · rename_i h; cases h; exact absurd rfl hq
  · rename_i h; cases h; exact absurd rfl hb
  · rename_i h; cases h; exact absurd rfl hb
  · rename_i h
    cases h
    rw [if_neg (not_or.2 ⟨hc, hb⟩)]

private theorem hexUnit?_control {n : Nat} (h : n < 0x20) :
    hexUnit? '0' '0' (Nat.digitChar (n / 16)) (Nat.digitChar (n % 16)) = some n := by
  have : ∀ m : Fin 0x20,
      hexUnit? '0' '0' (Nat.digitChar (m.val / 16)) (Nat.digitChar (m.val % 16)) =
        some m.val := by decide
  exact this ⟨n, h⟩

theorem scan_letter {c letter : Char} {cs : List Char} (h : escaped? letter = some c) :
    scan ('\\' :: letter :: cs) = putPiece (.char c) (scan cs) := by
  rw [scan.eq_def]
  split
  · rename_i hx; cases hx
  · rename_i hx; cases hx
  · rename_i hx; cases hx; exact nomatch h
  · rename_i hx
    cases hx
    rw [h, Option.bind_some]
  · rename_i hother hx
    cases hx
    exact (hother letter cs rfl rfl).elim

private theorem escaped?_of_escapeLetter? {c letter : Char} (h : escapeLetter? c = some letter) :
    escaped? letter = some c := by
  unfold escapeLetter? at h
  split at h <;> first | (cases h; decide) | exact nomatch h

private theorem escapeLetter?_none {c : Char} (h : escapeLetter? c = none) :
    c ≠ '"' ∧ c ≠ '\\' := by
  constructor <;> (rintro rfl; exact absurd h (by decide))

theorem scan_escape (c : Char) (cs : List Char) :
    scan (escape c ++ cs) = putPiece (.char c) (scan cs) := by
  unfold escape
  split
  · rename_i letter h
    exact scan_letter (escaped?_of_escapeLetter? h)
  · rename_i h
    obtain ⟨hq, hb⟩ := escapeLetter?_none h
    split
    · rename_i hc
      have hu : Piece.ofUnit c.toNat = .char c := by
        rw [Piece.ofUnit, if_neg (by omega), Char.ofNat_toNat]
      simp only [List.cons_append, List.nil_append, scan, hexUnit?_control hc, Option.bind_some,
        hu]
    · rename_i hc
      exact scan_plain hq hb hc

theorem scan_flatMap_escape (s cs : List Char) :
    scan (s.flatMap escape ++ '"' :: cs) = some (s.map Piece.char, cs) := by
  induction s with
  | nil => rfl
  | cons c s ih => simp [List.flatMap_cons, List.append_assoc, scan_escape, ih, putPiece]

theorem join_map_char (s : List Char) : join (s.map Piece.char) = some s := by
  induction s with
  | nil => rfl
  | cons c s ih => simp [join, ih]

end Json
end ReviewRota
