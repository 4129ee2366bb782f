import ReviewRota.Gateway.Basic

/-!
# ReviewRota.Gateway.PullRequests

The gateway to pull requests and their reviewers.  The two writes that
touch several rows, `create` and `replaceReviewer`, run in a savepoint of
their own.
-/

namespace ReviewRota
namespace Gateway
namespace PullRequests

/-! ## Storing -/

/-- Stores the row of a new pull request. -/
def createRecord (p : NewPullRequest) : Gateway Unit :=
  write "pull_requests.create" p.id
    (fun
      | .unique => some (.alreadyExists .pullRequest p.id)
      | .foreignKey => some (.notFound .user p.author)
      | .check => none)
    (Statement.PullRequests.insert p.record)

/-- Adds the reviewers of a new pull request, one after the other. -/
def addReviewers (p : NewPullRequest) : List String → Gateway Unit
  | [] => pure ()
  | reviewer :: rest => do
    write "pull_requests.add_reviewer" p.id
      (fun
        | .foreignKey => some (.notFound .user reviewer)
        | _ => none)
      (Statement.PullRequests.insertLink ⟨p.id, reviewer, p.createdAt⟩)
    addReviewers p rest

/-- Stores an open pull request with its reviewers, as one. -/
def create (p : NewPullRequest) (reviewers : List String) : Gateway Unit :=
  withinSavepoint "create_pull_request" do
    createRecord p
    addReviewers p reviewers

/-- Moves a pull request to a status; it must not have it yet.  The time
counts as that of the merge. -/
def setStatus (id : String) (status : Status) (time : Int) : Gateway Unit := do
  let rows ← write "pull_requests.update_status" id noMeaning
    (Statement.PullRequests.setStatus id status time)
  if rows = 0 then Attempt.fail (.notFound .pullRequest id) else pure ()

/-- Takes a reviewer off a pull request. -/
def removeReviewer (id reviewer : String) : Gateway Unit := do
  let rows ← write "pull_requests.remove_reviewer" id noMeaning
    (Statement.PullRequests.deleteLink id reviewer)
  if rows = 0 then Attempt.fail (.notAssigned reviewer id) else pure ()

/-- Puts a reviewer in another one's place.  That somebody else put them
there in the meantime leaves no candidate. -/
def addReplacement (id reviewer : String) (time : Int) : Gateway Unit :=
  write "pull_requests.add_reviewer" id
    (fun
      | .unique => some .noCandidate
      | .foreignKey => some (.notFound .user reviewer)
      | .check => none)
    (Statement.PullRequests.insertLink ⟨id, reviewer, time⟩)

/-- Replaces one reviewer of a pull request by another, as one. -/
def replaceReviewer (id old new : String) (time : Int) : Gateway Unit :=
  withinSavepoint "replace_reviewer" do
    removeReviewer id old
    addReplacement id new time

/-! ## Looking up -/

/-- The pull request of that identifier with its reviewers. -/
def get (id : String) : Gateway PullRequest := do
  let found? ← read "pull_requests.get_by_id" id (Statement.PullRequests.byId id)
  Attempt.orFail found? (.notFound .pullRequest id)

/-- Whether a pull request is there. -/
def isThere (id : String) : Gateway Bool :=
  read "pull_requests.exists" id (Statement.PullRequests.isThere id)

/-- The pull requests that a user reviews, the newest first. -/
def ofReviewer (user : String) : Gateway (List PullRequest) :=
  read "pull_requests.get_by_reviewer" user (Statement.PullRequests.ofReviewer user)

/-- Every pull request. -/
def all : Gateway (List PullRequest) :=
  read "pull_requests.get_all" "*" Statement.PullRequests.all

/-- Every reviewer with the number of their pull requests. -/
def countByReviewer : Gateway (List (String × Nat)) :=
  read "pull_requests.count_by_reviewer" "*" Statement.PullRequests.countByReviewer

end PullRequests
end Gateway
end ReviewRota
