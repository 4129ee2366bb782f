import ReviewRota.Text.Blank

/-!
# ReviewRota.Connection.SavepointName

The names that a savepoint can have.  A name is an identifier: letters,
digits, underscores, dollar signs and any characters beyond ASCII, not
starting with a digit or a dollar sign and not a reserved word; or any text
in quotes, in which the closing quote is written twice.

What surrounds a name does not belong to it: white space, comments and byte
order marks on both sides, and semicolons behind it.  A comment goes from
two dashes to the end of the line, or from a slash and a star to a star and
a slash; either kind may also end with the text.

Two names are the same when they differ only in the case of ASCII letters;
`savepointKey?` answers the common form.

Text behind the first semicolon is a further statement, or several, and each
is carried out before the next one is read.  The selection of a whole number
changes nothing.  What begins no statement is refused, when the statement
with the name has been carried out already.  Of no other statement is
anything said here: `readFurther` answers that it is unknown, and a name with
such a statement behind it passes for one with refused text, although the
statement would be carried out.

A null character cuts a text off: nothing from there on is read.  What becomes of
the rest is unknown as well, unless the text in front of it is refused.
-/

namespace ReviewRota

/-- The words that a statement reserves for itself. -/
def reservedWords : List String :=
  ["add", "all", "alter", "and", "as", "autoincrement", "between", "case", "check", "collate",
    "commit", "constraint", "create", "default", "deferrable", "delete", "distinct", "drop",
    "else", "escape", "except", "exists", "foreign", "from", "group", "having", "in", "index",
    "insert", "intersect", "into", "is", "isnull", "join", "limit", "not", "nothing", "notnull",
    "null", "on", "or", "order", "primary", "references", "returning", "select", "set", "table",
    "then", "to", "transaction", "union", "unique", "update", "using", "values", "when", "where"]

/-! ## Between the words of a statement -/

/-- The white space of a statement, which is that of ASCII. -/
def isStatementSpace (c : Char) : Bool := c.toNat < 0x80 && isBlank c

/-- What a place between two words of a statement comes directly behind. -/
inductive Gap where
  /-- White space. -/
  | space
  /-- A comment that ends with its line. -/
  | line
  /-- A comment that ends with a star and a slash, and whether the last
  character was a star. -/
  | block (star : Bool)
  /-- Anything else. -/
  | other
  deriving DecidableEq, Repr

/-- The text from the next word, or sign, of a statement.  Semicolons are
passed over on demand.  A vertical tab is white space only directly behind
other white space. -/
def skipGap (semicolons : Bool) : Gap → List Char → List Char
  | _, [] => []
  | .line, c :: rest => skipGap semicolons (if c = '\n' then .space else .line) rest
  | .block star, c :: rest =>
    skipGap semicolons (if star && c = '/' then .other else .block (c = '*')) rest
  | _, '-' :: '-' :: rest => skipGap semicolons .line rest
  | _, '/' :: '*' :: c :: rest => skipGap semicolons (.block (c = '*')) rest
  | behind, c :: rest =>
    if isStatementSpace c && (c ≠ '\x0b' || behind = .space) then skipGap semicolons .space rest
    else if c = '\ufeff' || (semicolons && c = ';') then skipGap semicolons .other rest
    else c :: rest

/-! ## Names -/

/-- A character that an identifier can start with. -/
def startsIdentifier (c : Char) : Bool := c.isAlpha || c = '_' || 0x80 ≤ c.toNat

/-- A character that an identifier can go on with. -/
def continuesIdentifier (c : Char) : Bool := startsIdentifier c || c.isDigit || c = '$'

/-- The quote that closes what a quote opens. -/
def closingQuote? (c : Char) : Option Char :=
  if c = '[' then some ']'
  else if c = '"' || c = '\'' || c = '\x60' then some c
  else none

/-- The text up to the closing quote, and what follows it. -/
def readQuoted (close : Char) : List Char → Option (List Char × List Char)
  | [] => none
  | [c] => if c = close then some ([], []) else none
  | c :: d :: rest =>
    if c = close then
      if d = close ∧ close ≠ ']' then (readQuoted close rest).map fun r => (close :: r.1, r.2)
      else some ([], d :: rest)
    else (readQuoted close (d :: rest)).map fun r => (c :: r.1, r.2)

/-- The identifier, number or other word that starts a text, in its common
form, and what follows it. -/
def readWord (text : List Char) : String × List Char :=
  (String.ofList ((text.takeWhile continuesIdentifier).map Char.toLower),
    text.dropWhile continuesIdentifier)

/-- The common form of the identifier or quoted text that starts a text, and
what follows it. -/
def readName : List Char → Option (String × List Char)
  | [] => none
  | c :: rest =>
    match closingQuote? c with
    | some close =>
      (readQuoted close rest).map fun r => (String.ofList (r.1.map Char.toLower), r.2)
    | none =>
      let word := readWord (c :: rest)
      if startsIdentifier c && !reservedWords.contains word.1 then some word else none

/-! ## Behind a name -/

/-- The words that begin a statement. -/
def statementWords : List String :=
  ["alter", "analyze", "attach", "begin", "commit", "create", "delete", "detach", "drop", "end",
    "explain", "insert", "pragma", "reindex", "release", "replace", "rollback", "savepoint",
    "select", "update", "vacuum", "values", "with"]

/-- What becomes of the text behind a semicolon. -/
inductive Further where
  /-- It is carried out and changes nothing. -/
  | idle
  /-- It is refused where it begins no statement. -/
  | refused
  /-- It has some other statement in it. -/
  | unknown
  deriving DecidableEq, Repr

/-- What becomes of a text, from what becomes of it up to where it may be
cut off. -/
def Further.upTo (cut : Bool) : Further → Further
  | .idle => if cut then .unknown else .idle
  | .refused => .refused
  | .unknown => .unknown

/-- What follows the selection of a whole number, if a text starts with
one. -/
def skipSelection (text : List Char) : Option (List Char) :=
  let word := readWord text
  let numeral := readWord (skipGap false .other word.2)
  if word.1 = "select" ∧ numeral.1 ≠ "" ∧ numeral.1.all Char.isDigit then
    match skipGap false .other numeral.2 with
    | [] => some []
    | c :: rest => if c = ';' then some rest else none
  else none

theorem length_skipGap_le (semicolons : Bool) (behind : Gap) (text : List Char) :
    (skipGap semicolons behind text).length ≤ text.length := by
  fun_induction skipGap semicolons behind text <;> simp_all <;> omega

theorem length_readWord_le (text : List Char) : (readWord text).2.length ≤ text.length :=
  (List.dropWhile_sublist _).length_le

theorem length_readWord_lt {text : List Char} (h : (readWord text).1 ≠ "") :
    (readWord text).2.length < text.length := by
  cases text with
  | nil => exact absurd rfl h
  | cons c rest =>
    cases hc : continuesIdentifier c with
    | false => exact absurd (by simp [readWord, hc]) h
    | true =>
      simp only [readWord, List.dropWhile_cons_of_pos hc, List.length_cons]
      exact Nat.lt_succ_of_le (List.dropWhile_sublist _).length_le

theorem length_skipSelection_lt {text rest : List Char} (h : skipSelection text = some rest) :
    rest.length < text.length := by
  simp only [skipSelection] at h
  split at h
  · next hselects =>
    have hword := length_readWord_le text
    have hgap := length_skipGap_le false .other (readWord text).2
    have hnumeral := length_readWord_lt hselects.2.1
    have hend := length_skipGap_le false .other
      (readWord (skipGap false .other (readWord text).2)).2
    split at h
    · cases h
      simp only [List.length_nil]
      omega
    · next c behind hbehind =>
      split at h
      · cases h
        rw [hbehind, List.length_cons] at hend
        omega
      · exact nomatch h
  · exact nomatch h

/-- Reads the text behind a semicolon, statement by statement. -/
def readFurther (text : List Char) : Further :=
  let next := skipGap true .other text
  if next = [] then .idle
  else
    match (skipSelection next).attach with
    | some ⟨behind, _⟩ => readFurther behind
    | none => if statementWords.contains (readWord next).1 then .unknown else .refused
termination_by text.length
decreasing_by
  exact Nat.lt_of_lt_of_le (length_skipSelection_lt ‹_›) (length_skipGap_le _ _ _)

/-- The common form of a name, if it is one, and what becomes of the text
behind it. -/
def readNamed? (name : String) : Option (String × Further) :=
  let cut := name.toList.contains '\x00'
  let text := (trimEnd name.toList).takeWhile (· ≠ '\x00')
  match readName (skipGap false .space text) with
  | none => none
  | some (key, after) =>
    match skipGap false .other after with
    | [] => some (key, Further.idle.upTo cut)
    | c :: rest => if c = ';' then some (key, (readFurther rest).upTo cut) else none

/-- The common form of a name, if it is one, and whether it is followed by
anything but what changes nothing. -/
def readSavepoint? (name : String) : Option (String × Bool) :=
  (readNamed? name).map fun r => (r.1, r.2 ≠ .idle)

/-- The common form of a name, if it is one. -/
def savepointKey? (name : String) : Option String := (readSavepoint? name).map (·.1)

/-- Whether a name is followed by anything but what changes nothing. -/
def isFollowed (name : String) : Bool := (readSavepoint? name).any (·.2)

end ReviewRota
