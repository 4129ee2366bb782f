import ReviewRota.Member
import ReviewRota.PullRequest

/-!
# ReviewRota.Store.Basic

The store: four tables, each a list of rows in increasing order of the
key.

| table | key | refers to |
|---|---|---|
| `teams` | name | |
| `users` | identifier | the team, if any |
| `pullRequests` | identifier | the author |
| `links` | pull request and reviewer | both |

Keeping a table in the order of its key makes equal contents equal lists,
so that two ways to one store can be compared with `=`.

A table can be out of service: then every statement that names it fails,
while references into it hold as before.  Of the register of the migrations
that the store has seen this is all that matters, so its rows are not kept.
-/

namespace ReviewRota

/-! ## Rows -/

/-- A reviewer of a pull request. -/
structure Link where
  pullRequest : String
  reviewer : String
  assignedAt : Int
  deriving DecidableEq, Repr, Inhabited

/-- The order of the links: by pull request, then by reviewer. -/
def Link.before (a b : Link) : Bool :=
  a.pullRequest < b.pullRequest || (a.pullRequest = b.pullRequest && a.reviewer < b.reviewer)

def TeamRecord.before (a b : TeamRecord) : Bool := a.name < b.name

def User.before (a b : User) : Bool := a.id < b.id

def PullRequestRecord.before (a b : PullRequestRecord) : Bool := a.id < b.id

/-- Puts a row in front of the first row it comes before. -/
def insertRow {α : Type} (before : α → α → Bool) (row : α) : List α → List α
  | [] => [row]
  | other :: rest =>
    if before row other then row :: other :: rest else other :: insertRow before row rest

/-- The rows in the order of `before`. -/
def sortRows {α : Type} (before : α → α → Bool) : List α → List α
  | [] => []
  | row :: rest => insertRow before row (sortRows before rest)

/-! ## The store -/

/-- The four tables, and the register of the migrations. -/
inductive Table where
  | teams
  | users
  | pullRequests
  | links
  | register
  deriving DecidableEq, Repr

/-- All rows, and the tables that are out of service or have been. -/
structure Store where
  teams : List TeamRecord := []
  users : List User := []
  pullRequests : List PullRequestRecord := []
  links : List Link := []
  offline : List Table := []
  /-- The tables that were made anew while they were out of service.  Each
  is there twice. -/
  renewed : List Table := []
  deriving DecidableEq, Repr, Inhabited

namespace Store

/-! ### Looking up -/

def team? (s : Store) (name : String) : Option TeamRecord := s.teams.find? (·.name = name)

def user? (s : Store) (id : String) : Option User := s.users.find? (·.id = id)

def record? (s : Store) (id : String) : Option PullRequestRecord :=
  s.pullRequests.find? (·.id = id)

def link? (s : Store) (pullRequest reviewer : String) : Option Link :=
  s.links.find? fun l => l.pullRequest = pullRequest && l.reviewer = reviewer

/-- The reviewers of a pull request. -/
def reviewersOf (s : Store) (pullRequest : String) : List String :=
  (s.links.filter (·.pullRequest = pullRequest)).map Link.reviewer

/-- A stored pull request with its reviewers. -/
def assemble (s : Store) (r : PullRequestRecord) : PullRequest :=
  r.withReviewers (s.reviewersOf r.id)

/-- Whether all these tables are in service. -/
def inService (s : Store) (tables : List Table) : Bool := tables.all fun t => !s.offline.contains t

/-! ### References -/

/-- Whether the team of a user is there. -/
def knowsTeamOf (s : Store) (u : User) : Bool :=
  match u.team with
  | some team => (s.team? team).isSome
  | none => true

/-- Whether the author of a pull request is there. -/
def knowsAuthorOf (s : Store) (r : PullRequestRecord) : Bool := (s.user? r.author).isSome

/-- Whether both ends of a link are there. -/
def knowsEndsOf (s : Store) (l : Link) : Bool :=
  (s.record? l.pullRequest).isSome && (s.user? l.reviewer).isSome

/-- Whether every reference leads to a row. -/
def referencesHold (s : Store) : Bool :=
  s.users.all s.knowsTeamOf && s.pullRequests.all s.knowsAuthorOf && s.links.all s.knowsEndsOf

end Store

end ReviewRota
