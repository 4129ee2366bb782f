import ReviewRota.Json.Value
import ReviewRota.Json.Literal

/-!
# ReviewRota.Json.Printer

The compact written form of a JSON value: no white space, members in the
order they have, text outside the escapes as it stands.  Every value has a
written form, and `Json.parse?` reads it back.
-/

namespace ReviewRota
namespace Json

/-- The decimal digits of an integer behind its sign. -/
def writeInt (n : Int) : List Char :=
  if n < 0 then '-' :: Nat.toDigits 10 n.natAbs else Nat.toDigits 10 n.natAbs

mutual

/-- The written form of a value. -/
def write : Json → List Char
  | .null => ['n', 'u', 'l', 'l']
  | .bool true => ['t', 'r', 'u', 'e']
  | .bool false => ['f', 'a', 'l', 's', 'e']
  | .integer n => writeInt n
  | .decimal m e => writeInt m ++ 'e' :: writeInt e
  | .text s => writeLiteral s
  | .array [] => ['[', ']']
  | .array (j :: rest) => '[' :: (write j ++ writeItems rest)
  | .object [] => ['\x7b', '\x7d']
  | .object ((name, j) :: rest) =>
    '\x7b' :: (writeLiteral name ++ ':' :: (write j ++ writeMembers rest))

/-- The items behind the first one, each behind its comma, and the closing
bracket. -/
def writeItems : List Json → List Char
  | [] => [']']
  | j :: rest => ',' :: (write j ++ writeItems rest)

/-- The members behind the first one, each behind its comma, and the
closing brace. -/
def writeMembers : List (Option String × Json) → List Char
  | [] => ['\x7d']
  | (name, j) :: rest =>
    ',' :: (writeLiteral name ++ ':' :: (write j ++ writeMembers rest))

end

/-- The written form of a value as a string. -/
def print (j : Json) : String := String.ofList j.write

end Json
end ReviewRota
