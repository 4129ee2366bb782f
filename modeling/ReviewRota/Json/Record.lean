import ReviewRota.Json.Value

/-!
# ReviewRota.Json.Record

Records in JSON.  A record with declared fields is written as an object.
It is read from an object, whose other members are passed over, or from an
array of its fields in declared order.

* A declared name occurs at most once, and every name of a member denotes
  a text.
* A field is mandatory unless it may be absent (`optional?`) or has a
  default (`orElse?`).
* No value is coerced to another type; `null` is read only as the absence
  of an optional field's value.
-/

namespace ReviewRota

/-- Types with a JSON form. -/
class Exchanged (α : Type) where
  toJson : α → Json
  ofJson? : Json → Option α

export Exchanged (toJson ofJson?)

/-! ## Plain values -/

instance : Exchanged String where
  toJson := .ofText
  ofJson?
    | .text s => s
    | _ => none

instance : Exchanged Bool where
  toJson := .bool
  ofJson?
    | .bool b => some b
    | _ => none

/-- The items of an array, each read on its own. -/
def readAll {α : Type} [Exchanged α] : List Json → Option (List α)
  | [] => some []
  | j :: rest =>
    match (ofJson? j : Option α), readAll rest with
    | some a, some as => some (a :: as)
    | _, _ => none

instance {α : Type} [Exchanged α] : Exchanged (List α) where
  toJson as := .array (as.map toJson)
  ofJson?
    | .array items => readAll items
    | _ => none

instance {α : Type} [Exchanged α] : Exchanged (Option α) where
  toJson
    | some a => toJson a
    | none => .null
  ofJson?
    | .null => some none
    | j => (ofJson? j).map some

/-- An integer literal from `low` to `high`. -/
def readInt? (low high : Int) : Json → Option Int
  | .integer n => if low ≤ n ∧ n ≤ high then some n else none
  | _ => none

/-- An integer literal of 64 bits with a sign. -/
def readInt64? : Json → Option Int := readInt? (-9223372036854775808) 9223372036854775807

/-- An integer literal of that many bits without a sign. -/
def readUnsigned? (bits : Nat) (j : Json) : Option Nat :=
  (readInt? 0 (Nat.pow 2 bits - 1 : Nat) j).map Int.toNat

/-! ## Fields -/

/-- The declared fields of a record, each with its value if it has one. -/
abbrev Fields := String → Option Json

/-- How often a name occurs among the members of an object. -/
def occurrences (name : String) (members : List (Option String × Json)) : Nat :=
  members.countP (·.1 == some name)

/-- The fields of a record declared as `names`.  In array form at least
the first `least` of them have to be there. -/
def Json.fields? (names : List String) (least : Nat) : Json → Option Fields
  | .object members =>
    if members.all (·.1.isSome) ∧ names.all (fun name => occurrences name members ≤ 1) then
      some fun name => (members.find? (·.1 == some name)).map (·.2)
    else none
  | .array items =>
    if least ≤ items.length ∧ items.length ≤ names.length then
      some fun name => ((names.zip items).find? (·.1 == name)).map (·.2)
    else none
  | _ => none

/-- The fields of a record all of whose fields are counted in array
form. -/
def Json.record? (names : List String) (j : Json) : Option Fields :=
  j.fields? names names.length

namespace Fields

/-- The value of a mandatory field. -/
def get? {α : Type} [Exchanged α] (fields : Fields) (name : String) : Option α :=
  (fields name).bind ofJson?

/-- The value of a field that may be absent. -/
def optional? {α : Type} [Exchanged α] (fields : Fields) (name : String) : Option (Option α) :=
  match fields name with
  | none => some none
  | some j => ofJson? j

/-- The value of a field that has a default. -/
def orElse? {α : Type} (fields : Fields) (name : String) (default : α)
    (read? : Json → Option α) : Option α :=
  match fields name with
  | none => some default
  | some j => read? j

end Fields

end ReviewRota
