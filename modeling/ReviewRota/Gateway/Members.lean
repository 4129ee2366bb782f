import ReviewRota.Draw
import ReviewRota.Gateway.Basic

/-!
# ReviewRota.Gateway.Members

The gateway to teams and users.
-/

namespace ReviewRota
namespace Gateway

/-! ## Teams -/

namespace Teams

/-- Stores a team. -/
def create (name : String) (time : Int) : Gateway TeamRecord := do
  let record : TeamRecord := ⟨name, time⟩
  write "teams.create" name
    (fun
      | .unique => some (.alreadyExists .team name)
      | _ => none)
    (Statement.Teams.insert record)
  return record

/-- The team of that name. -/
def get (name : String) : Gateway TeamRecord := do
  let record? ← read "teams.get_by_name" name (Statement.Teams.byName name)
  Attempt.orFail record? (.notFound .team name)

/-- Whether a team is there. -/
def isThere (name : String) : Gateway Bool := do
  let record? ← read "teams.exists" name (Statement.Teams.byName name)
  return record?.isSome

end Teams

/-! ## Users -/

/-- How many identifiers a statement can list beside the team that it asks
for.  The store takes at most 32766 values with one statement. -/
def maxListed : Nat := 32765

/-- Reads with a statement that lists identifiers and asks for a team.  A list
that is too long is refused before the store looks at anything. -/
def readListed {α : Type} (operation team : String) (ids : List String) (q : Query α) :
    Gateway α :=
  if maxListed < ids.length then Attempt.fail (.storage operation team)
  else read operation team q

section Listed

variable {α : Type} (operation team : String) {ids : List String} (q : Query α)

theorem readListed_of_le (h : ids.length ≤ maxListed) :
    readListed operation team ids q = read operation team q := if_neg (Nat.not_lt.mpr h)

theorem readListed_of_lt (h : maxListed < ids.length) :
    readListed operation team ids q = Attempt.fail (.storage operation team) := if_pos h

end Listed

namespace Users

/-- The team that a user refers to is missing. -/
def teamMissing (u : User) : Error := .notFound .team (u.team.getD "")

/-- Stores a new user. -/
def create (u : User) : Gateway Unit :=
  write "users.create" u.id
    (fun
      | .unique => some (.alreadyExists .user u.id)
      | .foreignKey => some (teamMissing u)
      | .check => none)
    (Statement.Users.insert u)

/-- Overwrites name, team and active flag of a user. -/
def update (u : User) : Gateway Unit := do
  let rows ← write "users.update" u.id
    (fun
      | .foreignKey => some (teamMissing u)
      | _ => none)
    (Statement.Users.overwrite u)
  if rows = 0 then Attempt.fail (.notFound .user u.id) else pure ()

/-- Whether a user is there. -/
def isThere (id : String) : Gateway Bool := do
  let user? ← read "users.exists" id (Statement.Users.byId id)
  return user?.isSome

/-- The user of that identifier. -/
def get (id : String) : Gateway User := do
  let user? ← read "users.get_by_id" id (Statement.Users.byId id)
  Attempt.orFail user? (.notFound .user id)

/-- The roster of a team, by name. -/
def ofTeam (team : String) : Gateway (List User) :=
  read "users.get_by_team" team (Statement.Users.ofTeam team)

/-- Sets the active flag and answers the updated user. -/
def setActive (id : String) (active : Bool) : Gateway User := do
  let user? ← write "users.set_is_active" id noMeaning (Statement.Users.setActive id active)
  Attempt.orFail user? (.notFound .user id)

/-- The active members of a team who are not excluded. -/
def activeExcept (team : String) (excluded : List String) : Gateway (List User) :=
  readListed "users.get_active_excluding" team excluded
    (Statement.Users.activeOfTeam team excluded)

/-- At most `count` of them, chosen by a draw. -/
def chooseActive (team : String) (excluded : List String) (count : Nat) (draw : Draw) :
    Gateway (List User) := do
  let candidates ← activeExcept team excluded
  return choose draw candidates count

/-- Those of the listed users who belong to another team and still review
an open pull request.  For no users the store is not asked. -/
def activeElsewhere (ids : List String) (team : String) : Gateway (List String) :=
  if ids = [] then pure []
  else
    readListed "users.find_cross_team_active" team ids
      (Statement.Users.activeElsewhere ids team)

/-! ### Lists that are too long -/

/-- A list that is too long is refused, whoever is listed in it. -/
theorem activeElsewhere_of_lt {ids : List String} (hlong : maxListed < ids.length)
    (team : String) :
    activeElsewhere ids team =
      Attempt.fail (.storage "users.find_cross_team_active" team) := by
  have hids : ids ≠ [] := fun hnil => by simp [hnil] at hlong
  rw [activeElsewhere, if_neg hids, readListed_of_lt _ _ _ hlong]

theorem activeExcept_of_lt (team : String) {excluded : List String}
    (hlong : maxListed < excluded.length) :
    activeExcept team excluded = Attempt.fail (.storage "users.get_active_excluding" team) :=
  readListed_of_lt _ _ _ hlong

end Users

end Gateway
end ReviewRota
