import ReviewRota.Json.Value
import ReviewRota.Json.Literal

/-!
# ReviewRota.Json.Parser

The strict grammar: no trailing text or commas, no byte order mark, no
raw control character in a string, and white space is the space, the tab,
the line feed and the carriage return.

The parser works on the characters that are left and is bounded by a
number of steps.  Each step but those from a list to its first element
takes a character, so twice the length of the text is always enough.
-/

namespace ReviewRota
namespace Json

/-- The white space of the grammar. -/
def isSpace (c : Char) : Bool := c = ' ' || c = '\t' || c = '\n' || c = '\r'

/-- The text from its first character that is not white space. -/
def skipSpace (cs : List Char) : List Char := cs.dropWhile isSpace

/-! ## Numbers -/

/-- Reads a run of ASCII digits; an empty run is refused. -/
def readDigits (cs : List Char) : Option (List Char × List Char) :=
  if cs.takeWhile Char.isDigit = [] then none
  else some (cs.takeWhile Char.isDigit, cs.dropWhile Char.isDigit)

/-- Reads the digits before the point; more than one do not start with a
zero. -/
def readWhole (cs : List Char) : Option (List Char × List Char) :=
  (readDigits cs).filter fun r => r.1.head? ≠ some '0' || r.1.length = 1

/-- Reads the fraction, if there is a point. -/
def readFraction : List Char → Option (Option (List Char) × List Char)
  | '.' :: rest => (readDigits rest).map fun r => (some r.1, r.2)
  | cs => some (none, cs)

/-- Reads the digits of an exponent behind its sign. -/
def readSigned : List Char → Option (Int × List Char)
  | '-' :: rest => (readDigits rest).map fun r => (-(Nat.ofDigitChars 10 r.1 0 : Int), r.2)
  | '+' :: rest => (readDigits rest).map fun r => ((Nat.ofDigitChars 10 r.1 0 : Int), r.2)
  | cs => (readDigits cs).map fun r => ((Nat.ofDigitChars 10 r.1 0 : Int), r.2)

/-- Reads the exponent, if there is one. -/
def readExponent : List Char → Option (Option Int × List Char)
  | 'e' :: rest => (readSigned rest).map fun r => (some r.1, r.2)
  | 'E' :: rest => (readSigned rest).map fun r => (some r.1, r.2)
  | cs => some (none, cs)

/-- The significand and the exponent of a decimal from its digits before
and behind the point.  Each digit before the point that no longer fits
counts one in the exponent; one behind it is left out. -/
def significandOf (whole fraction : List Char) : Nat × Int :=
  let (n, wholeLeft) := extendSignificand 0 whole
  let (n, fractionLeft) := extendSignificand n fraction
  (n, (wholeLeft.length : Int) + fractionLeft.length - fraction.length)

/-- The value of a number literal from its parts. -/
def ofParts (negative : Bool) (whole : List Char) (fraction : Option (List Char))
    (exponent : Option Int) : Json :=
  let sign (n : Nat) : Int := if negative then -(n : Int) else n
  match fraction, exponent with
  | none, none =>
    let n := Nat.ofDigitChars 10 whole 0
    if negative && n = 0 then .decimal 0 0 else .integer (sign n)
  | _, _ =>
    let (n, place) := significandOf whole (fraction.getD [])
    .decimal (sign n) (exponent.getD 0 + place)

/-- Reads a number without its minus sign. -/
def readMagnitude (negative : Bool) (cs : List Char) : Option (Json × List Char) := do
  let (whole, cs) ← readWhole cs
  let (fraction, cs) ← readFraction cs
  let (exponent, cs) ← readExponent cs
  return (ofParts negative whole fraction exponent, cs)

/-- Reads a number. -/
def readNumber : List Char → Option (Json × List Char)
  | '-' :: rest => readMagnitude true rest
  | cs => readMagnitude false cs

/-! ## Values -/

mutual

/-- Reads a value, at most `steps` deep in the grammar. -/
def readValue : Nat → List Char → Option (Json × List Char)
  | 0, _ => none
  | steps + 1, cs =>
    match skipSpace cs with
    | 'n' :: 'u' :: 'l' :: 'l' :: rest => some (.null, rest)
    | 't' :: 'r' :: 'u' :: 'e' :: rest => some (.bool true, rest)
    | 'f' :: 'a' :: 'l' :: 's' :: 'e' :: rest => some (.bool false, rest)
    | '"' :: rest => (readLiteral rest).map fun r => (.text r.1, r.2)
    | '[' :: rest =>
      match skipSpace rest with
      | ']' :: after => some (.array [], after)
      | _ => (readItems steps rest).map fun r => (.array r.1, r.2)
    | '\x7b' :: rest =>
      match skipSpace rest with
      | '\x7d' :: after => some (.object [], after)
      | _ => (readMembers steps rest).map fun r => (.object r.1, r.2)
    | other => readNumber other

/-- Reads one item or more, to behind the closing bracket. -/
def readItems : Nat → List Char → Option (List Json × List Char)
  | 0, _ => none
  | steps + 1, cs =>
    match readValue steps cs with
    | none => none
    | some (j, rest) =>
      match skipSpace rest with
      | ']' :: after => some ([j], after)
      | ',' :: after => (readItems steps after).map fun r => (j :: r.1, r.2)
      | _ => none

/-- Reads one member or more, to behind the closing brace. -/
def readMembers : Nat → List Char → Option (List (Option String × Json) × List Char)
  | 0, _ => none
  | steps + 1, cs =>
    match skipSpace cs with
    | '"' :: named =>
      match readLiteral named with
      | none => none
      | some (name, rest) =>
        match skipSpace rest with
        | ':' :: rest =>
          match readValue steps rest with
          | none => none
          | some (j, rest) =>
            match skipSpace rest with
            | '\x7d' :: after => some ([(name, j)], after)
            | ',' :: after => (readMembers steps after).map fun r => ((name, j) :: r.1, r.2)
            | _ => none
        | _ => none
    | _ => none

end

/-- The value that a text is, if it follows the grammar from end to end. -/
def parse? (s : String) : Option Json :=
  match readValue (2 * s.length + 2) s.toList with
  | some (j, rest) => if skipSpace rest = [] then some j else none
  | none => none

end Json
end ReviewRota
