import ReviewRota.Store.Statement

/-!
# ReviewRota.Store.Probe

Probes: statements that run against the constraints, one each, to see that
they hold.  On an empty table most of them have nothing to break and
succeed.
-/

namespace ReviewRota

/-- The probes. -/
inductive Probe where
  /-- Every team once more. -/
  | repeatTeams
  /-- A user of a team that is not there. -/
  | strayUser
  /-- A user whose active flag is neither set nor unset. -/
  | badFlag
  /-- A user without a name. -/
  | namelessUser
  /-- Every pull request in a status that there is not. -/
  | badStatus
  /-- Every pull request open, with a time of its merge. -/
  | openWithTime
  /-- Every pull request merged, without a time of its merge. -/
  | mergedWithoutTime
  /-- No team any more. -/
  | dropTeams
  /-- No pull request any more; their reviewer links go with them. -/
  | dropPullRequests
  /-- A table that is not there. -/
  | missingTable
  deriving DecidableEq, Repr

namespace Probe

/-- A change that is refused by a condition on every row of a table with
`rows` rows. -/
def refusedByRows (rows : Nat) (c : Constraint) (s : Store) : Except Fault (Effect Nat) :=
  if rows = 0 then .ok ⟨0, 0, s⟩ else .error (.violated c)

/-- The user that the probe `strayUser` adds. -/
def stray : User := ⟨"stray", "stray", some "nowhere", true⟩

/-- Whether the statement of a probe can begin. -/
def ready (p : Probe) (s : Store) : Bool :=
  match p with
  | .repeatTeams | .dropTeams => s.inService [.teams]
  | .strayUser | .badFlag | .namelessUser => s.inService [.users]
  | .badStatus | .openWithTime | .mergedWithoutTime | .dropPullRequests =>
    s.inService [.pullRequests]
  | .missingTable => false

/-- What the statement of a probe does; it answers how many rows it
wrote. -/
def apply (p : Probe) (fks : ForeignKeys) (s : Store) : Except Fault (Effect Nat) :=
  match p with
  | .repeatTeams => refusedByRows s.teams.length .unique s
  | .strayUser => do
    let e ← (Statement.Users.insert stray).apply fks s
    return ⟨e.rows, e.rows, e.store⟩
  | .badFlag => .error (.violated .check)
  | .namelessUser => .error .unclassified
  | .badStatus | .openWithTime | .mergedWithoutTime =>
    refusedByRows s.pullRequests.length .check s
  | .dropTeams => do
    requireReference fks (s.users.all fun u => !(s.teams.any fun t => u.team = some t.name))
    return ⟨s.teams.length, s.teams.length, { s with teams := [] }⟩
  | .dropPullRequests => .ok ⟨s.pullRequests.length, s.pullRequests.length, { s with
      pullRequests := []
      links := s.links.filter fun l => (s.record? l.pullRequest).isNone }⟩
  | .missingTable => .error .unclassified

/-- Whether the statement of a probe overwrites or removes rows. -/
def rewrites : Probe → Bool
  | .badStatus | .openWithTime | .mergedWithoutTime | .dropTeams | .dropPullRequests => true
  | .repeatTeams | .strayUser | .badFlag | .namelessUser | .missingTable => false

/-- The statement of a probe. -/
def change (p : Probe) : Change Nat := ⟨p.ready, p.apply, p.rewrites⟩

end Probe

end ReviewRota
