/-!
# ReviewRota.Json.Value

JSON values as the strict grammar delivers them.  Two kinds of text that
the grammar accepts stand for no ordinary value, and are kept apart so
that a reader can pass over them where it does not look and refuse them
where it does:

* a string literal whose escapes leave half of a surrogate pair denotes
  no text: `Json.text none`, and the same for the name of a member;
* a number with a fraction or an exponent, and minus zero, is no integer
  literal: `Json.decimal`.  Of its digits only the leading ones are kept.

The members of an object keep their order and their repetitions.
-/

namespace ReviewRota

/-- A JSON value. -/
inductive Json where
  | null
  | bool (value : Bool)
  /-- An integer literal, of any size. -/
  | integer (value : Int)
  /-- The number `significand * 10 ^ exponent`, written as a decimal. -/
  | decimal (significand exponent : Int)
  | text (value : Option String)
  | array (items : List Json)
  | object (members : List (Option String × Json))
  deriving Inhabited, Repr, BEq

namespace Json

/-- The value of a string. -/
def ofText (s : String) : Json := .text (some s)

/-- An object of named members. -/
def ofFields (fields : List (String × Json)) : Json :=
  .object (fields.map fun f => (some f.1, f.2))

/-- The first member of that name. -/
def member? (name : String) : Json → Option Json
  | .object members => (members.find? (·.1 == some name)).map (·.2)
  | _ => none

/-! ## What a reader of any value can hold -/

/-- The largest number of 64 bits without a sign. -/
def maxSignificand : Nat := 0xffffffffffffffff

/-- The number after one more digit. -/
def appendDigit (n : Nat) (c : Char) : Nat := 10 * n + (c.toNat - '0'.toNat)

/-- Goes on with a significand as long as it fits 64 bits.  Answers it with
the digits from the first one that no longer fits. -/
def extendSignificand (n : Nat) : List Char → Nat × List Char
  | [] => (n, [])
  | c :: cs =>
    if appendDigit n c ≤ maxSignificand then extendSignificand (appendDigit n c) cs
    else (n, c :: cs)

/-- The number of double precision next to a natural number: 53 bits, the
even one of two that are equally near.  The range is not looked at. -/
def nearestDouble (n : Nat) : Nat :=
  let unit := Nat.pow 2 (n.log2 - 52)
  let rest := n % unit
  let lower := n / unit
  if 2 * rest < unit ∨ (2 * rest = unit ∧ lower % 2 = 0) then unit * lower
  else unit * (lower + 1)

/-- The least magnitude that rounds to infinity in double precision. -/
def overflowBound : Nat := Nat.pow 2 1024 - Nat.pow 2 970

/-- Whether `significand * 10 ^ exponent` is too large for double
precision.  Both factors are rounded before they are multiplied, and so
next to the bound it matters how a number is written.  A power of ten that
is itself too large is never computed. -/
def overflows (significand : Nat) (exponent : Int) : Bool :=
  if significand = 0 ∨ exponent < 0 then false
  else if 308 < exponent then true
  else overflowBound ≤ nearestDouble significand * nearestDouble (Nat.pow 10 exponent.toNat)

/-- Whether an integer is too large for double precision.  Only its leading
digits count, as many as fit 64 bits. -/
def integerOverflows (n : Nat) : Bool :=
  let (significand, left) := extendSignificand 0 (Nat.toDigits 10 n)
  overflows significand left.length

mutual

/-- Whether every string denotes a text, every number is finite in double
precision, and arrays and objects nest at most `depth` deep. -/
def holdable (depth : Nat) : Json → Bool
  | .null => true
  | .bool _ => true
  | .integer n => !integerOverflows n.natAbs
  | .decimal m e => !overflows m.natAbs e
  | .text s => s.isSome
  | .array items => 0 < depth && holdableItems (depth - 1) items
  | .object members => 0 < depth && holdableMembers (depth - 1) members

/-- `holdable` for the items of an array. -/
def holdableItems (depth : Nat) : List Json → Bool
  | [] => true
  | j :: rest => holdable depth j && holdableItems depth rest

/-- `holdable` for the members of an object. -/
def holdableMembers (depth : Nat) : List (Option String × Json) → Bool
  | [] => true
  | (name, j) :: rest => name.isSome && holdable depth j && holdableMembers depth rest

end

/-- How deep arrays and objects may nest in a value that is kept whole. -/
def maxDepth : Nat := 127

end Json

end ReviewRota
