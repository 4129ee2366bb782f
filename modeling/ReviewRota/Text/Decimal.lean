/-!
# ReviewRota.Text.Decimal

Unsigned numbers in decimal.  What is read is an optional plus sign and at
least one ASCII digit, with any number of leading zeros.
-/

namespace ReviewRota

/-- The value of a non-empty run of ASCII digits. -/
def digitsValue? (cs : List Char) : Option Nat :=
  if cs ≠ [] ∧ cs.all Char.isDigit then some (Nat.ofDigitChars 10 cs 0) else none

/-- The value of a text without its plus sign, should it start with one. -/
def unsignedValue? : List Char → Option Nat
  | '+' :: cs => digitsValue? cs
  | cs => digitsValue? cs

/-- Reads a number below `limit`. -/
def readNat? (limit : Nat) (cs : List Char) : Option Nat :=
  (unsignedValue? cs).filter (· < limit)

theorem unsignedValue?_of_isDigit {c : Char} {cs : List Char} (h : c.isDigit = true) :
    unsignedValue? (c :: cs) = digitsValue? (c :: cs) := by
  have hc : c ≠ '+' := by rintro rfl; simp at h
  simp [unsignedValue?, hc]

end ReviewRota
