import ReviewRota.Transact
import ReviewRota.Gateway.Members
import ReviewRota.Gateway.PullRequests

/-!
# ReviewRota.Reviewing

Assigning reviewers.  A new pull request gets up to two reviewers by
chance from the active members of its author's team.  While it is open, a
reviewer can be replaced by chance from the active members of that
reviewer's own team; neither the author nor anyone who reviews it already
is chosen.  Merging ends this.

Each operation that writes is one unit of work.
-/

namespace ReviewRota
namespace Reviewing

open Gateway

/-- How many reviewers a pull request gets. -/
def maxReviewers : Nat := 2

/-- The reviewers chosen for a new pull request of an author. -/
def chooseReviewers (author : User) (draw : Draw) : Gateway (List User) :=
  match author.team with
  | some team => Users.chooseActive team [author.id] maxReviewers draw
  | none => pure []

/-- The scope of `create`. -/
def createScope (id title author : String) (now : Int) (draw : Draw) : Gateway PullRequest := do
  let new : NewPullRequest := ⟨id, title, author, now⟩
  if ← PullRequests.isThere id then
    Attempt.fail (.alreadyExists .pullRequest id)
  else
    let writer ← Users.get author
    let reviewers ← chooseReviewers writer draw
    PullRequests.create new (reviewers.map User.id)
    return new.opened (reviewers.map User.id)

/-- Stores a new pull request with its reviewers. -/
def create (id title author : String) (now : Int) (draw : Draw) : Service PullRequest :=
  Service.unitOfWork "create_pull_request" (createScope id title author now draw)

/-- The candidates for the place of a reviewer, of whom at most one is
kept. -/
def chooseReplacement (old : User) (excluded : List String) (draw : Draw) :
    Gateway (List User) :=
  match old.team with
  | some team => Users.chooseActive team excluded 1 draw
  | none => pure []

/-- The scope of `reassign`. -/
def reassignScope (id old : String) (now : Int) (draw : Draw) : Gateway Reassignment := do
  let p ← PullRequests.get id
  if !p.canBeModified then
    Attempt.fail (.isMerged p.id)
  else if !p.hasReviewer old then
    Attempt.fail (.notAssigned old p.id)
  else
    let reviewer ← Users.get old
    match ← chooseReplacement reviewer (p.reviewers ++ [p.author]) draw with
    | [] => Attempt.fail .noCandidate
    | new :: _ =>
      PullRequests.replaceReviewer p.id old new.id now
      let updated ← PullRequests.get p.id
      return ⟨updated, new.id⟩

/-- Replaces a reviewer of an open pull request. -/
def reassign (id old : String) (now : Int) (draw : Draw) : Service Reassignment :=
  Service.unitOfWork "reassign_reviewer" (reassignScope id old now draw)

/-- The scope of `merge`. -/
def mergeScope (id : String) (now : Int) : Gateway PullRequest := do
  let p ← PullRequests.get id
  if p.isMerged then
    return p
  else
    PullRequests.setStatus p.id .merged now
    return p.mergedBy now

/-- Merges a pull request.  One that is merged already is answered as it
is, and nothing is written. -/
def merge (id : String) (now : Int) : Service PullRequest :=
  Service.unitOfWork "merge_pull_request" (mergeScope id now)

/-- The pull request of that identifier. -/
def get (id : String) : Service PullRequest := Service.direct (PullRequests.get id)

/-! ## What may be answered

The answers that chance can give, said of the store before the operation.
-/

/-- Whether a user may review for that team and is not excluded. -/
def isCandidate (team : Option String) (excluded : List String) (u : User) : Bool :=
  team.isSome && u.team = team && u.active && !excluded.contains u.id

/-- The identifiers of the candidates. -/
def candidateIds (s : Store) (team : Option String) (excluded : List String) : List String :=
  (s.users.filter (isCandidate team excluded)).map User.id

/-- Whether the reviewers of a new pull request are distinct candidates of
the author's team, as many as there can be. -/
def isFairCreation (s : Store) (p : PullRequest) : Bool :=
  let candidates := candidateIds s ((s.user? p.author).bind User.team) [p.author]
  p.reviewers.Nodup && p.reviewers.all candidates.contains &&
    p.reviewers.length = min maxReviewers candidates.length

/-- Whether a reassignment took the old reviewer off and put exactly one
candidate of that reviewer's team in the place. -/
def isFairReassignment (s : Store) (old : String) (r : Reassignment) : Bool :=
  let p := r.pullRequest
  let before := s.reviewersOf p.id
  let candidates := candidateIds s ((s.user? old).bind User.team) (before ++ [p.author])
  p.reviewers.filter (fun u => !before.contains u) = [r.replacedBy] &&
    candidates.contains r.replacedBy && !p.reviewers.contains old

/-- Whether chosen users are distinct candidates. -/
def isFairChoice (s : Store) (team : String) (excluded : List String) (chosen : List User) :
    Bool :=
  let ids := chosen.map User.id
  ids.Nodup && ids.all (candidateIds s (some team) excluded).contains

end Reviewing
end ReviewRota
