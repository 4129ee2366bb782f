import ReviewRota.Desk
import ReviewRota.Gateway.Call

/-!
# ReviewRota.Request

The operations and the submissions to the desk as data, so that runs of
them can be spoken of.  Every request carries its own draw.
-/

namespace ReviewRota

/-- The operations. -/
inductive Operation where
  | create (id title author : String) (draw : Draw)
  | reassign (id old : String) (draw : Draw)
  | merge (id : String)
  | pullRequest (id : String)
  | createTeam (name : String) (members : List NewMember)
  | team (name : String)
  | setActive (id : String) (active : Bool)
  | user (id : String)
  | reviewsOf (user : String)
  | userLoads
  | reviewerCounts

/-- What is submitted to the desk. -/
inductive Submission where
  | create (caller : Caller) (r : CreateRequest) (draw : Draw)
  | reassign (caller : Caller) (r : ReassignRequest) (draw : Draw)
  | merge (caller : Caller) (r : MergeRequest)
  | addTeam (r : TeamRequest)
  | team (name : String)
  | setActive (caller : Caller) (r : ActivityRequest)
  | userReviews (caller : Caller) (user : String)
  | workload

/-- What can be asked for. -/
inductive Request where
  | operation (o : Operation)
  | submission (s : Submission)

/-- Runs an operation at a time. -/
def Operation.run (now : Int) : Operation → Service Reply
  | .create id title author draw =>
    return .created (← Reviewing.create id title author now draw)
  | .reassign id old draw => return .reassignment (← Reviewing.reassign id old now draw)
  | .merge id => return .pullRequest (← Reviewing.merge id now)
  | .pullRequest id => return .pullRequest (← Reviewing.get id)
  | .createTeam name members => return .team (← Staffing.createTeam name members now)
  | .team name => return .team (← Staffing.team name)
  | .setActive id active => return .user (← Staffing.setActive id active)
  | .user id => return .user (← Staffing.user id)
  | .reviewsOf id => return .summaries (← Reporting.reviewsOf id)
  | .userLoads => return .userLoads (← Reporting.userLoads)
  | .reviewerCounts => return .reviewerCounts (← Reporting.reviewerCounts)

/-- Runs a submission at a time. -/
def Submission.run (now : Int) : Submission → Service Reply
  | .create caller r draw => return .created (← Desk.createPullRequest caller r now draw)
  | .reassign caller r draw => return .reassignment (← Desk.reassignReviewer caller r now draw)
  | .merge caller r => return .pullRequest (← Desk.mergePullRequest caller r now)
  | .addTeam r => return .team (← Desk.addTeam r now)
  | .team name => return .team (← Desk.team name)
  | .setActive caller r => return .user (← Desk.setUserActive caller r)
  | .userReviews caller user => return .reviews (← Desk.userReviews caller user)
  | .workload => return .workload (← Desk.workload)

/-- Runs a request at a time. -/
def Request.run (now : Int) : Request → Service Reply
  | .operation o => o.run now
  | .submission s => s.run now

end ReviewRota
