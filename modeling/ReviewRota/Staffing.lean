import ReviewRota.Transact
import ReviewRota.Gateway.Members

/-!
# ReviewRota.Staffing

Teams and their members.  A team is created with its members, all or
nothing: who is known is moved into it and overwritten, who is not is
added.  Nobody is moved who belongs to another team and still reviews an
open pull request.
-/

namespace ReviewRota
namespace Staffing

open Gateway

/-- Overwrites a user who is there and stores one who is not. -/
def enrol (u : User) : Gateway Unit := do
  if ← Users.isThere u.id then Users.update u else Users.create u

/-- Takes the listed members into a team, one after the other. -/
def enrolAll (team : String) : List NewMember → Gateway Unit
  | [] => pure ()
  | m :: rest => do
    enrol (m.toUser team)
    enrolAll team rest

/-- The scope of `createTeam`. -/
def createTeamScope (name : String) (members : List NewMember) (now : Int) : Gateway Team := do
  if ← Teams.isThere name then
    Attempt.fail (.alreadyExists .team name)
  else
    match ← Users.activeElsewhere (members.map NewMember.id) name with
    | [] =>
      let _ ← Teams.create name now
      enrolAll name members
      let roster ← Users.ofTeam name
      return ⟨name, roster⟩
    | blocked => Attempt.fail (.crossTeamActive blocked)

/-- Creates a team with its members and answers its roster. -/
def createTeam (name : String) (members : List NewMember) (now : Int) : Service Team :=
  Service.unitOfWork "create_team" (createTeamScope name members now)

/-- A team with its roster. -/
def team (name : String) : Service Team := do
  let record ← Service.direct (Teams.get name)
  let members ← Service.direct (Users.ofTeam record.name)
  return ⟨record.name, members⟩

/-- Sets whether a user may be chosen as a reviewer; what they review
already stays. -/
def setActive (id : String) (active : Bool) : Service User :=
  Service.direct (Users.setActive id active)

/-- The user of that identifier. -/
def user (id : String) : Service User := Service.direct (Users.get id)

end Staffing
end ReviewRota
