import ReviewRota.Store.Basic

/-!
# ReviewRota.Store.Statement

Statements: the single steps in which the store is read and written.  A
statement is ready when the tables it names are in service; one that is not
fails before it has begun.  It is done as a whole or not at all, and a
change that would break a constraint is refused.

Constraints are looked at in this order, and the first broken one is
reported:

1. mandatory values and conditions on single rows,
2. uniqueness of the key,
3. references, which may be put off until the transaction ends
   (`ForeignKeys.deferred`).

A statement that adds rows looks at references before it writes.  One that
overwrites or removes rows looks at them afterwards and, if they do not
hold, takes back what it wrote; to the others this is a write all the same.
-/

namespace ReviewRota

/-- When references are looked at. -/
inductive ForeignKeys where
  | immediate
  | deferred
  deriving DecidableEq, Repr, Inhabited

/-- A statement that reads: the tables it names, and its answer. -/
structure Query (α : Type) where
  tables : List Table
  answer : Store → α

/-- Whether a statement that reads can begin. -/
def Query.ready {α : Type} (q : Query α) (s : Store) : Bool := s.inService q.tables

/-- What a change leaves behind. -/
structure Effect (α : Type) where
  value : α
  /-- How many rows were written. -/
  rows : Nat
  store : Store

/-- A statement that writes: whether it can begin, and what it does
then. -/
structure Change (α : Type) where
  ready : Store → Bool
  apply : ForeignKeys → Store → Except Fault (Effect α)
  /-- Whether the statement overwrites or removes rows. -/
  rewrites : Bool := false

/-- Whether rows were written and taken back by a statement that failed. -/
def Change.takesBack {α : Type} (ch : Change α) (fault : Fault) : Bool :=
  ch.rewrites && fault = .violated .foreignKey

/-- Refuses a change whose references do not hold, unless that is put
off. -/
def requireReference (fks : ForeignKeys) (holds : Bool) : Except Fault Unit :=
  if fks = .immediate ∧ !holds then .error (.violated .foreignKey) else .ok ()

namespace Statement

/-! ## Teams -/

namespace Teams

/-- Adds a team. -/
def insert (t : TeamRecord) : Change Unit where
  ready s := s.inService [.teams]
  apply _ s :=
    if (s.team? t.name).isSome then .error (.violated .unique)
    else .ok ⟨(), 1, { s with teams := insertRow TeamRecord.before t s.teams }⟩

/-- The team of that name. -/
def byName (name : String) : Query (Option TeamRecord) := ⟨[.teams], fun s => s.team? name⟩

end Teams

/-! ## Users -/

namespace Users

/-- Adds a user. -/
def insert (u : User) : Change Unit where
  ready s := s.inService [.users]
  apply fks s := do
    if (s.user? u.id).isSome then throw (.violated .unique)
    requireReference fks (s.knowsTeamOf u)
    return ⟨(), 1, { s with users := insertRow User.before u s.users }⟩

/-- The users with the one of that identifier replaced. -/
def replaceIn (u : User) (users : List User) : List User :=
  users.map fun v => if v.id = u.id then u else v

/-- Overwrites the user of that identifier and counts the rows. -/
def overwrite (u : User) : Change Nat where
  ready s := s.inService [.users]
  rewrites := true
  apply fks s := do
    match s.user? u.id with
    | none => return ⟨0, 0, s⟩
    | some _ =>
      requireReference fks (s.knowsTeamOf u)
      return ⟨1, 1, { s with users := replaceIn u s.users }⟩

/-- Sets the active flag of a user and answers the user as stored then. -/
def setActive (id : String) (active : Bool) : Change (Option User) where
  ready s := s.inService [.users]
  rewrites := true
  apply _ s :=
    match s.user? id with
    | none => .ok ⟨none, 0, s⟩
    | some u =>
      let updated := { u with active := active }
      .ok ⟨some updated, 1, { s with users := replaceIn updated s.users }⟩

/-- The user of that identifier. -/
def byId (id : String) : Query (Option User) := ⟨[.users], fun s => s.user? id⟩

/-- The order of a roster: by name, then by identifier. -/
def rosterBefore (a b : User) : Bool := a.name < b.name || (a.name = b.name && a.id < b.id)

/-- The roster of a team. -/
def ofTeam (team : String) : Query (List User) where
  tables := [.users]
  answer s := sortRows rosterBefore (s.users.filter (·.team = some team))

/-- The active users of a team who are not excluded, by identifier. -/
def activeOfTeam (team : String) (excluded : List String) : Query (List User) where
  tables := [.users]
  answer s := s.users.filter fun u => u.team = some team && u.active && !excluded.contains u.id

/-- Whether a user reviews a pull request that is open. -/
def reviewsOpen (s : Store) (id : String) : Bool :=
  s.links.any fun l => l.reviewer = id &&
    s.pullRequests.any fun r => r.id = l.pullRequest && r.status = .opened

/-- Whether a user belongs to some other team. -/
def isElsewhere (team : String) (u : User) : Bool :=
  match u.team with
  | some t => t ≠ team
  | none => false

/-- Those of the listed users who belong to another team and review an
open pull request, by identifier. -/
def activeElsewhere (ids : List String) (team : String) : Query (List String) where
  tables := [.users, .links, .pullRequests]
  answer s :=
    (s.users.filter fun u => ids.contains u.id && isElsewhere team u && reviewsOpen s u.id).map
      User.id

end Users

/-! ## Pull requests -/

namespace PullRequests

/-- Adds a pull request without reviewers. -/
def insert (r : PullRequestRecord) : Change Unit where
  ready s := s.inService [.pullRequests]
  apply fks s := do
    if (s.record? r.id).isSome then throw (.violated .unique)
    requireReference fks (s.knowsAuthorOf r)
    return ⟨(), 1, { s with pullRequests := insertRow PullRequestRecord.before r s.pullRequests }⟩

/-- A record moved to a status; the time is that of the merge. -/
def moved (status : Status) (time : Int) (r : PullRequestRecord) : PullRequestRecord :=
  match status with
  | .merged => { r with status := .merged, mergedAt := some time }
  | .opened => { r with status := .opened, mergedAt := none }

/-- Whether the record is the one that is to be moved to a status it does
not have. -/
def isToMove (id : String) (status : Status) (r : PullRequestRecord) : Bool :=
  r.id = id && r.status ≠ status

/-- Moves a pull request to a status it does not have and counts the
rows. -/
def setStatus (id : String) (status : Status) (time : Int) : Change Nat where
  ready s := s.inService [.pullRequests]
  rewrites := true
  apply _ s :=
    let rows := s.pullRequests.countP (isToMove id status)
    .ok ⟨rows, rows, { s with
      pullRequests := s.pullRequests.map fun r =>
        if isToMove id status r then moved status time r else r }⟩

/-- Adds a reviewer. -/
def insertLink (l : Link) : Change Unit where
  ready s := s.inService [.links]
  apply fks s := do
    if (s.link? l.pullRequest l.reviewer).isSome then throw (.violated .unique)
    requireReference fks (s.knowsEndsOf l)
    return ⟨(), 1, { s with links := insertRow Link.before l s.links }⟩

/-- Whether the link is that of a reviewer to a pull request. -/
def isLinkOf (pullRequest reviewer : String) (l : Link) : Bool :=
  l.pullRequest = pullRequest && l.reviewer = reviewer

/-- Removes a reviewer and counts the rows. -/
def deleteLink (pullRequest reviewer : String) : Change Nat where
  ready s := s.inService [.links]
  rewrites := true
  apply _ s :=
    let rows := s.links.countP (isLinkOf pullRequest reviewer)
    .ok ⟨rows, rows, { s with links := s.links.filter fun l => !isLinkOf pullRequest reviewer l }⟩

/-- Whether there is a pull request of that identifier. -/
def isThere (id : String) : Query Bool := ⟨[.pullRequests], fun s => (s.record? id).isSome⟩

/-- The pull request of that identifier with its reviewers. -/
def byId (id : String) : Query (Option PullRequest) where
  tables := [.pullRequests, .links]
  answer s := (s.record? id).map s.assemble

/-- The order of a user's reviews: the newest first, then by
identifier. -/
def newestBefore (a b : PullRequest) : Bool :=
  b.createdAt < a.createdAt || (a.createdAt = b.createdAt && a.id < b.id)

/-- The pull requests that a user reviews. -/
def ofReviewer (user : String) : Query (List PullRequest) where
  tables := [.pullRequests, .links]
  answer s :=
    sortRows newestBefore
      ((s.pullRequests.filter fun r => (s.link? r.id user).isSome).map s.assemble)

/-- Every pull request, by identifier. -/
def all : Query (List PullRequest) where
  tables := [.pullRequests, .links]
  answer s := s.pullRequests.map s.assemble

/-- The items of a list once each, in increasing order. -/
def distinct : List String → List String
  | [] => []
  | x :: rest =>
    if rest.contains x then distinct rest else insertRow (fun a b => a < b) x (distinct rest)

/-- Every reviewer with the number of their links, by identifier. -/
def countByReviewer : Query (List (String × Nat)) where
  tables := [.links]
  answer s :=
    let reviewers := s.links.map Link.reviewer
    (distinct reviewers).map fun reviewer => (reviewer, reviewers.count reviewer)

end PullRequests

end Statement

/-! ## Taking tables out of service -/

namespace Table

/-- The name of a table. -/
def name : Table → String
  | .teams => "teams"
  | .users => "users"
  | .pullRequests => "pull_requests"
  | .links => "pull_request_reviewers"
  | .register => "_migrations"

/-- The table of that name; letter case does not matter. -/
def ofName? (s : String) : Option Table :=
  [teams, users, pullRequests, links, register].find? fun t => t.name = s.map Char.toLower

/-- The store with a table taken out of service. -/
def withdraw (t : Table) (s : Store) : Store := { s with offline := t :: s.offline }

/-- The store with a table put back into service. -/
def reinstate (t : Table) (s : Store) : Store :=
  { s with offline := s.offline.filter (· ≠ t) }

/-- Takes the table of that name out of service; it has to be in
service, and there only once. -/
def hide (name : String) : Change Unit where
  ready s := (ofName? name).any fun t => !s.offline.contains t && !s.renewed.contains t
  apply _ s := .ok ⟨(), 1, ((ofName? name).map (withdraw · s)).getD s⟩

/-- Puts the table of that name back into service; it has to be out of
it. -/
def restore (name : String) : Change Unit where
  ready s := (ofName? name).any s.offline.contains
  apply _ s := .ok ⟨(), 1, ((ofName? name).map (reinstate · s)).getD s⟩

end Table

end ReviewRota
