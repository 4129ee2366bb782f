/-!
# ReviewRota.Error

What an operation answers when it does not succeed.  The constructors are
the six kinds of error a caller can tell apart; an error of the kind
`internal` says nothing about the request, only that the store or a stored
text failed.

`Error.message` is the wording.  The errors that several operations share
have a name of their own below, so that each wording is written once.
-/

namespace ReviewRota

/-- The kinds of entity that an error can be about. -/
inductive Resource where
  | user
  | team
  | pullRequest
  deriving DecidableEq, Repr

/-- The noun for a kind of entity. -/
def Resource.noun : Resource → String
  | .user => "user"
  | .team => "team"
  | .pullRequest => "pull request"

/-- Why the state of the store does not allow an operation. -/
inductive ConflictReason where
  | merged
  | notAssigned
  | noCandidate
  | crossTeamActive
  deriving DecidableEq, Repr

/-- The wording of a reason. -/
def ConflictReason.text : ConflictReason → String
  | .merged => "pull request is merged"
  | .notAssigned => "reviewer not assigned"
  | .noCandidate => "no reviewer candidate available"
  | .crossTeamActive => "user has active pull request assignments in another team"

/-- An error of an operation. -/
inductive Error where
  | notFound (resource : Resource) (id : String)
  | alreadyExists (resource : Resource) (id : String)
  | conflict (reason : ConflictReason) (detail : Option String)
  | invalidInput (message : String) (field : Option String)
  | unauthorized (message : String)
  | internal (message : String) (operation : Option String)
  deriving DecidableEq, Repr

namespace Error

/-- The wording of an error. -/
def message : Error → String
  | .notFound resource id => "Not found: " ++ resource.noun ++ " " ++ id
  | .alreadyExists resource id => "Already exists: " ++ resource.noun ++ " " ++ id
  | .conflict reason _ => "Conflict: " ++ reason.text
  | .invalidInput message _ => "Invalid input: " ++ message
  | .unauthorized message => "Unauthorized: " ++ message
  | .internal message _ => "Internal error: " ++ message

/-- Whether the error says that an entity of that kind is missing. -/
def isNotFound (resource : Resource) : Error → Bool
  | .notFound r _ => r = resource
  | _ => false

/-- Whether the error says that an entity of that kind is there already. -/
def isAlreadyExists (resource : Resource) : Error → Bool
  | .alreadyExists r _ => r = resource
  | _ => false

/-- The reason of a conflict. -/
def conflictReason? : Error → Option ConflictReason
  | .conflict reason _ => some reason
  | _ => none

/-! ## Errors of the store -/

/-- A statement of `operation` failed on the entity `id`. -/
def storage (operation id : String) : Error :=
  .internal ("store failure for '" ++ id ++ "'") (some operation)

/-- A statement failed that belongs to no operation. -/
def storeFailed : Error := .internal "store operation failed" none

/-- The store could not be opened or brought up to date. -/
def openingFailed : Error := .internal "database initialization failed" (some "initialize")

/-- The transaction of `operation` was refused when it was to be made
permanent. -/
def commitFailed (operation : String) : Error :=
  .internal "transaction commit failed" (some operation)

/-- A stored text is not the JSON it should be. -/
def badJson : Error := .internal "JSON error" none

/-- A stored status is neither of the two. -/
def unknownStatus (text : String) : Error :=
  .internal ("unknown pull request status '" ++ text ++ "'") none

/-! ## Errors of the requests -/

/-- Only an administrator may do this. -/
def adminRequired : Error := .unauthorized "admin role required"

/-- A field that names something is empty or blank. -/
def blankField (field : String) : Error :=
  .invalidInput (field ++ " must not be empty") (some field)

/-- The same user is listed twice. -/
def duplicateMember (id : String) : Error :=
  .invalidInput ("duplicate member '" ++ id ++ "'") (some "members")

/-- The pull request can no longer be changed. -/
def isMerged (pullRequest : String) : Error :=
  .conflict .merged (some ("'" ++ pullRequest ++ "' is merged"))

/-- The user does not review the pull request. -/
def notAssigned (user pullRequest : String) : Error :=
  .conflict .notAssigned (some ("'" ++ user ++ "' is not assigned to '" ++ pullRequest ++ "'"))

/-- Nobody can take the reviewer's place. -/
def noCandidate : Error := .conflict .noCandidate none

/-- These users still review open pull requests in other teams. -/
def crossTeamActive (ids : List String) : Error :=
  .conflict .crossTeamActive (some (String.intercalate ", " ids))

end Error

/-! ## Failures below the errors -/

/-- The kinds of constraint whose violation means something to a
caller. -/
inductive Constraint where
  | unique
  | foreignKey
  | check
  deriving DecidableEq, Repr

/-- Why a statement failed: a constraint of a kind that is told apart, or
anything else, be it a mandatory value left out, a table out of service or
the write lock in other hands. -/
inductive Fault where
  | violated (constraint : Constraint)
  | unclassified
  deriving DecidableEq, Repr

namespace Fault

/-- The violated constraint. -/
def constraint? : Fault → Option Constraint
  | .violated c => some c
  | .unclassified => none

/-- What a failed write of `operation` on `id` means, when `meaning` says
what each violated constraint stands for. -/
def toError (operation id : String) (meaning : Constraint → Option Error) (fault : Fault) :
    Error :=
  (fault.constraint?.bind meaning).getD (.storage operation id)

end Fault

end ReviewRota
