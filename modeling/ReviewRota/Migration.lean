import ReviewRota.Text.Blank

/-!
# ReviewRota.Migration

A migration is a text of statements.  It is split in two steps:

1. `codeOf` drops the comments and joins the lines.  A line that starts
   with two dashes, blanks aside, is dropped whole; every other line is cut
   at its first two dashes, and a space stands for its end.
2. `pieces` cuts the code at the semicolons outside parentheses.

Trimmed pieces that are not empty are the statements.

The parentheses are counted, not matched: a closing one takes one from the
count even where none is open, and a semicolon separates exactly where the
count is zero.  The count has no bound here.  One of 32 bits comes to the same
for texts of fewer than 2 ^ 31 parentheses, which are the ones that this is
about: it is never beyond their number (`natAbs_depthBehind_le`).
-/

namespace ReviewRota

/-! ## Lines -/

/-- The lines of a text without their line ends.  A line ends with a line
feed, or a carriage return and a line feed; the last one need not end. -/
def linesOf : List Char → List (List Char)
  | [] => []
  | '\n' :: rest => [] :: linesOf rest
  | '\r' :: '\n' :: rest => [] :: linesOf rest
  | c :: rest =>
    match linesOf rest with
    | [] => [[c]]
    | line :: lines => (c :: line) :: lines

/-- Whether a text starts with the mark of a comment. -/
def startsComment : List Char → Bool
  | '-' :: '-' :: _ => true
  | _ => false

/-- The text before the first comment mark. -/
def beforeComment : List Char → List Char
  | [] => []
  | c :: rest => if startsComment (c :: rest) then [] else c :: beforeComment rest

/-- The code of a text, each line of it with a space behind it. -/
def codeOf (text : List Char) : List Char :=
  ((linesOf text).filter fun line => !startsComment (trim line)).flatMap fun line =>
    beforeComment line ++ [' ']

/-! ## Statements -/

/-- The count of open parentheses behind a character, below zero behind too
many closing ones and with no bound on either side. -/
def depthAfter (depth : Int) (c : Char) : Int :=
  if c = '(' then depth + 1 else if c = ')' then depth - 1 else depth

/-- The pieces of the code between its separating semicolons. -/
def pieces (depth : Int) : List Char → List (List Char)
  | [] => [[]]
  | c :: rest =>
    if c = ';' ∧ depth = 0 then [] :: pieces depth rest
    else
      match pieces (depthAfter depth c) rest with
      | [] => [[c]]
      | piece :: others => (c :: piece) :: others

/-- The statements of a migration, in order. -/
def statements (text : List Char) : List (List Char) :=
  ((pieces 0 (codeOf text)).map trim).filter (· ≠ [])

/-- The statements of a migration as strings. -/
def splitStatements (sql : String) : List String :=
  (statements sql.toList).map String.ofList

/-- The migrations that a store has to have seen, in order. -/
def migrations : List String := ["0001_initial_schema"]

end ReviewRota
