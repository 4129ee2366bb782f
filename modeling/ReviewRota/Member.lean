/-!
# ReviewRota.Member

Users and the teams they belong to.  A user belongs to at most one team,
and the roster of a team is nothing but the users who belong to it.
-/

namespace ReviewRota

/-- A person who can author pull requests and review them. -/
structure User where
  id : String
  name : String
  /-- The team the user belongs to, if a team has taken them in. -/
  team : Option String
  active : Bool
  deriving DecidableEq, Repr, Inhabited

/-- Only active users are chosen as reviewers. -/
def User.canReview (u : User) : Bool := u.active

/-- A user as listed when a team is created. -/
structure NewMember where
  id : String
  name : String
  active : Bool
  deriving DecidableEq, Repr, Inhabited

/-- The user that a listed member becomes in a team. -/
def NewMember.toUser (m : NewMember) (team : String) : User :=
  ⟨m.id, m.name, some team, m.active⟩

/-- A team as it is stored. -/
structure TeamRecord where
  name : String
  createdAt : Int
  deriving DecidableEq, Repr, Inhabited

/-- A team with its roster. -/
structure Team where
  name : String
  members : List User
  deriving DecidableEq, Repr, Inhabited

namespace Team

/-- The identifiers of the members. -/
def memberIds (t : Team) : List String := t.members.map User.id

/-- The members who can review. -/
def activeMembers (t : Team) : List User := t.members.filter User.canReview

end Team

end ReviewRota
