import ReviewRota.Transact
import ReviewRota.Gateway.PullRequests

/-!
# ReviewRota.Reporting

Who reviews what, seen from the users and from the pull requests.
-/

namespace ReviewRota
namespace Reporting

open Gateway

/-- The pull requests that a user reviews, the newest first. -/
def reviewsOf (user : String) : Service (List Summary) := do
  let assigned ← Service.direct (PullRequests.ofReviewer user)
  return assigned.map PullRequest.summary

/-- The load of every user who reviews something, by identifier. -/
def userLoads : Service (List UserLoad) := do
  let counts ← Service.direct PullRequests.countByReviewer
  return counts.map fun c => ⟨c.1, c.2⟩

/-- The reviewers of every pull request, by identifier. -/
def reviewerCounts : Service (List ReviewerCount) := do
  let all ← Service.direct PullRequests.all
  return all.map PullRequest.reviewerCount

/-- Both views. -/
def workload : Service Workload := do
  let users ← userLoads
  let pullRequests ← reviewerCounts
  return ⟨users, pullRequests⟩

end Reporting
end ReviewRota
