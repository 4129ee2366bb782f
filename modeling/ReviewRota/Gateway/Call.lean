import ReviewRota.Gateway.Members
import ReviewRota.Gateway.PullRequests

/-!
# ReviewRota.Gateway.Call

Gateway calls as data, each with its arguments, and what any of them can
answer.
-/

namespace ReviewRota

/-- What a call or an operation answers when it succeeds. -/
inductive Reply where
  | nothing
  | truth (b : Bool)
  | user (u : User)
  | users (us : List User)
  /-- Users chosen by a draw, in the order of the draw. -/
  | chosen (us : List User)
  | ids (ids : List String)
  | teamRecord (t : TeamRecord)
  | team (t : Team)
  | pullRequest (p : PullRequest)
  /-- A pull request that was just created. -/
  | created (p : PullRequest)
  | pullRequests (ps : List PullRequest)
  | summaries (ps : List Summary)
  | reassignment (r : Reassignment)
  | counts (counts : List (String × Nat))
  | userLoads (loads : List UserLoad)
  | reviewerCounts (counts : List ReviewerCount)
  | reviews (r : UserReviews)
  | workload (w : Workload)
  deriving DecidableEq, Repr, Inhabited

/-- The calls of the gateway. -/
inductive Call where
  | createUser (u : User)
  | updateUser (u : User)
  | userThere (id : String)
  | user (id : String)
  | setActive (id : String) (active : Bool)
  | roster (team : String)
  | activeExcept (team : String) (excluded : List String)
  | chooseActive (team : String) (excluded : List String) (count : Nat) (draw : Draw)
  | activeElsewhere (ids : List String) (team : String)
  | createTeam (name : String) (time : Int)
  | team (name : String)
  | teamThere (name : String)
  | createPullRequest (new : NewPullRequest) (reviewers : List String)
  | pullRequest (id : String)
  | pullRequestThere (id : String)
  /-- The status is given by its stored form. -/
  | setStatus (id status : String) (time : Int)
  | replaceReviewer (id old new : String) (time : Int)
  | pullRequestsOf (reviewer : String)
  | allPullRequests
  | countByReviewer

namespace Call

open Gateway

/-- Runs a call. -/
def run : Call → Gateway Reply
  | .createUser u => do Users.create u; return .nothing
  | .updateUser u => do Users.update u; return .nothing
  | .userThere id => return .truth (← Users.isThere id)
  | .user id => return .user (← Users.get id)
  | .setActive id active => return .user (← Users.setActive id active)
  | .roster t => return .users (← Users.ofTeam t)
  | .activeExcept t excluded => return .users (← Users.activeExcept t excluded)
  | .chooseActive t excluded count draw =>
    return .chosen (← Users.chooseActive t excluded count draw)
  | .activeElsewhere ids t => return .ids (← Users.activeElsewhere ids t)
  | .createTeam name time => return .teamRecord (← Teams.create name time)
  | .team name => return .teamRecord (← Teams.get name)
  | .teamThere name => return .truth (← Teams.isThere name)
  | .createPullRequest new reviewers => do PullRequests.create new reviewers; return .nothing
  | .pullRequest id => return .pullRequest (← PullRequests.get id)
  | .pullRequestThere id => return .truth (← PullRequests.isThere id)
  | .setStatus id status time => do
    let status ← Attempt.orFail (Status.ofText? status) (.unknownStatus status)
    PullRequests.setStatus id status time
    return .nothing
  | .replaceReviewer id old new time => do
    PullRequests.replaceReviewer id old new time
    return .nothing
  | .pullRequestsOf reviewer => return .pullRequests (← PullRequests.ofReviewer reviewer)
  | .allPullRequests => return .pullRequests (← PullRequests.all)
  | .countByReviewer => return .counts (← PullRequests.countByReviewer)

end Call

end ReviewRota
