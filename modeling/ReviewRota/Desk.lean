import ReviewRota.Caller
import ReviewRota.Exchange
import ReviewRota.Reviewing
import ReviewRota.Staffing
import ReviewRota.Reporting

/-!
# ReviewRota.Desk

The desk in front of the operations.  It looks at who asks and at what is
asked before anything is done:

1. what only administrators may do is refused to others;
2. a field that names something must not be blank; the fields are looked
   at in declared order.

What passes goes to the operation unchanged.
-/

namespace ReviewRota

/-! ## Requests -/

/-- A request to create a pull request. -/
structure CreateRequest where
  id : String
  title : String
  author : String
  deriving DecidableEq, Repr, Inhabited

/-- A request to replace a reviewer. -/
structure ReassignRequest where
  pullRequest : String
  old : String
  deriving DecidableEq, Repr, Inhabited

/-- A request to merge a pull request. -/
structure MergeRequest where
  pullRequest : String
  deriving DecidableEq, Repr, Inhabited

/-- A request to create a team. -/
structure TeamRequest where
  name : String
  members : List NewMember
  deriving DecidableEq, Repr, Inhabited

/-- A request to set whether a user may be chosen. -/
structure ActivityRequest where
  user : String
  active : Bool
  deriving DecidableEq, Repr, Inhabited

instance : Exchanged CreateRequest where
  toJson r := .ofFields [("pull_request_id", toJson r.id), ("pull_request_name", toJson r.title),
    ("author_id", toJson r.author)]
  ofJson? j := do
    let fields ← j.record? ["pull_request_id", "pull_request_name", "author_id"]
    return ⟨← fields.get? "pull_request_id", ← fields.get? "pull_request_name",
      ← fields.get? "author_id"⟩

instance : Exchanged ReassignRequest where
  toJson r := .ofFields [("pull_request_id", toJson r.pullRequest), ("old_user_id", toJson r.old)]
  ofJson? j := do
    let fields ← j.record? ["pull_request_id", "old_user_id"]
    return ⟨← fields.get? "pull_request_id", ← fields.get? "old_user_id"⟩

instance : Exchanged MergeRequest where
  toJson r := .ofFields [("pull_request_id", toJson r.pullRequest)]
  ofJson? j := do
    let fields ← j.record? ["pull_request_id"]
    return ⟨← fields.get? "pull_request_id"⟩

instance : Exchanged TeamRequest where
  toJson r := .ofFields [("team_name", toJson r.name), ("members", toJson r.members)]
  ofJson? j := do
    let fields ← j.record? ["team_name", "members"]
    return ⟨← fields.get? "team_name", ← fields.get? "members"⟩

instance : Exchanged ActivityRequest where
  toJson r := .ofFields [("user_id", toJson r.user), ("is_active", toJson r.active)]
  ofJson? j := do
    let fields ← j.record? ["user_id", "is_active"]
    return ⟨← fields.get? "user_id", ← fields.get? "is_active"⟩

namespace Desk

/-! ## Guards -/

/-- Refuses callers who are not administrators. -/
def requireAdmin (caller : Caller) : Except Error Unit :=
  if caller.admin then .ok () else .error .adminRequired

/-- Refuses a blank field. -/
def requireText (value field : String) : Except Error Unit :=
  if isBlankText value then .error (.blankField field) else .ok ()

/-- Refuses the first blank one among named fields. -/
def requireTexts : List (String × String) → Except Error Unit
  | [] => .ok ()
  | (value, field) :: rest => do
    requireText value field
    requireTexts rest

/-- Refuses a listed member without identifier or name, or listed
before. -/
def requireMembers (seen : List String) : List NewMember → Except Error Unit
  | [] => .ok ()
  | m :: rest => do
    requireTexts [(m.id, "user_id"), (m.name, "username")]
    if seen.contains m.id then .error (.duplicateMember m.id) else .ok ()
    requireMembers (m.id :: seen) rest

/-- What a guard lets pass. -/
def guarded {α : Type} (guard : Except Error Unit) (service : Service α) : Service α := do
  Attempt.ofExcept guard
  service

/-- What a caller needs to create a pull request. -/
def mayCreate (caller : Caller) (r : CreateRequest) : Except Error Unit := do
  requireAdmin caller
  requireTexts [(r.id, "pull_request_id"), (r.title, "pull_request_name"),
    (r.author, "author_id")]

/-- What a caller needs to replace a reviewer. -/
def mayReassign (caller : Caller) (r : ReassignRequest) : Except Error Unit := do
  requireAdmin caller
  requireTexts [(r.pullRequest, "pull_request_id"), (r.old, "old_user_id")]

/-- What a caller needs to merge a pull request. -/
def mayMerge (caller : Caller) (r : MergeRequest) : Except Error Unit := do
  requireAdmin caller
  requireTexts [(r.pullRequest, "pull_request_id")]

/-- What a caller needs to set whether a user may be chosen. -/
def maySetActive (caller : Caller) (r : ActivityRequest) : Except Error Unit := do
  requireAdmin caller
  requireTexts [(r.user, "user_id")]

/-- What a request needs to create a team. -/
def mayCreateTeam (r : TeamRequest) : Except Error Unit := do
  requireTexts [(r.name, "team_name")]
  requireMembers [] r.members

/-! ## Requests answered -/

def createPullRequest (caller : Caller) (r : CreateRequest) (now : Int) (draw : Draw) :
    Service PullRequest :=
  guarded (mayCreate caller r) (Reviewing.create r.id r.title r.author now draw)

def reassignReviewer (caller : Caller) (r : ReassignRequest) (now : Int) (draw : Draw) :
    Service Reassignment :=
  guarded (mayReassign caller r) (Reviewing.reassign r.pullRequest r.old now draw)

def mergePullRequest (caller : Caller) (r : MergeRequest) (now : Int) : Service PullRequest :=
  guarded (mayMerge caller r) (Reviewing.merge r.pullRequest now)

def setUserActive (caller : Caller) (r : ActivityRequest) : Service User :=
  guarded (maySetActive caller r) (Staffing.setActive r.user r.active)

def addTeam (r : TeamRequest) (now : Int) : Service Team :=
  guarded (mayCreateTeam r) (Staffing.createTeam r.name r.members now)

def team (name : String) : Service Team :=
  guarded (requireTexts [(name, "team_name")]) (Staffing.team name)

/-- What a user reviews; callers who may not see it get an empty list. -/
def userReviews (caller : Caller) (user : String) : Service UserReviews :=
  guarded (requireTexts [(user, "user_id")]) do
    let reviews ← if caller.maySee user then Reporting.reviewsOf user else pure []
    return ⟨user, reviews⟩

def workload : Service Workload := Reporting.workload

end Desk
end ReviewRota
