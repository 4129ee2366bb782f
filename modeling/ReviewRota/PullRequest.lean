import ReviewRota.Error
import ReviewRota.Json.Parser
import ReviewRota.Json.Record

/-!
# ReviewRota.PullRequest

Pull requests.  One is open until it is merged, and merging is final: the
time of the first merge stays.  Times are seconds since the start of
1970.

A row read from the store is a `PullRequestRow`, whose
status and reviewers are still text; `PullRequestRow.read` is the only way
from there to a pull request.
-/

namespace ReviewRota

/-- The two states of a pull request. -/
inductive Status where
  | opened
  | merged
  deriving DecidableEq, Repr, Inhabited

namespace Status

/-- The stored and exchanged form of a status. -/
def text : Status → String
  | .opened => "OPEN"
  | .merged => "MERGED"

/-- The status of that form, letter for letter. -/
def ofText? (s : String) : Option Status :=
  if s = "OPEN" then some .opened else if s = "MERGED" then some .merged else none

theorem ofText?_text (s : Status) : ofText? s.text = some s := by cases s <;> rfl

theorem ofText?_eq_some_iff {s : String} {status : Status} :
    ofText? s = some status ↔ s = status.text := by
  constructor
  · intro h
    unfold ofText? at h
    split at h
    · cases h; assumption
    · split at h
      · cases h; assumption
      · exact nomatch h
  · rintro rfl; exact ofText?_text status

end Status

/-- A pull request as it is stored: everything but its reviewers. -/
structure PullRequestRecord where
  id : String
  title : String
  author : String
  status : Status
  createdAt : Int
  mergedAt : Option Int
  deriving DecidableEq, Repr, Inhabited

/-- A pull request with its reviewers, whose order means nothing. -/
structure PullRequest where
  id : String
  title : String
  author : String
  status : Status
  reviewers : List String
  createdAt : Int
  mergedAt : Option Int
  deriving DecidableEq, Repr, Inhabited

/-- A pull request without its reviewers and times. -/
structure Summary where
  id : String
  title : String
  author : String
  status : Status
  deriving DecidableEq, Repr, Inhabited

/-- A pull request about to be stored. -/
structure NewPullRequest where
  id : String
  title : String
  author : String
  createdAt : Int
  deriving DecidableEq, Repr, Inhabited

/-- The open record that a new pull request is stored as. -/
def NewPullRequest.record (p : NewPullRequest) : PullRequestRecord :=
  ⟨p.id, p.title, p.author, .opened, p.createdAt, none⟩

/-- The open pull request with these reviewers. -/
def NewPullRequest.opened (p : NewPullRequest) (reviewers : List String) : PullRequest :=
  ⟨p.id, p.title, p.author, .opened, reviewers, p.createdAt, none⟩

/-- The pull request of a record. -/
def PullRequestRecord.withReviewers (r : PullRequestRecord) (reviewers : List String) :
    PullRequest :=
  ⟨r.id, r.title, r.author, r.status, reviewers, r.createdAt, r.mergedAt⟩

namespace PullRequest

def isMerged (p : PullRequest) : Bool := p.status = .merged

/-- Reviewers change only while a pull request is open. -/
def canBeModified (p : PullRequest) : Bool := !p.isMerged

def hasReviewer (p : PullRequest) (user : String) : Bool := p.reviewers.contains user

/-- The pull request merged at that time; one that is merged already keeps
its time. -/
def mergedBy (p : PullRequest) (time : Int) : PullRequest :=
  if p.isMerged then p else { p with status := .merged, mergedAt := some time }

def summary (p : PullRequest) : Summary := ⟨p.id, p.title, p.author, p.status⟩

end PullRequest

/-! ## Rows -/

/-- A stored row joined with its reviewers, as text: the status by its
stored form, the reviewers as a JSON array. -/
structure PullRequestRow where
  id : String
  title : String
  author : String
  status : String
  createdAt : Int
  mergedAt : Option Int
  reviewers : String
  deriving DecidableEq, Repr, Inhabited

/-- The pull request of a row.  The status is looked at first. -/
def PullRequestRow.read (r : PullRequestRow) : Except Error PullRequest :=
  match Status.ofText? r.status with
  | none => .error (.unknownStatus r.status)
  | some status =>
    match (Json.parse? r.reviewers).bind ofJson? with
    | none => .error .badJson
    | some reviewers =>
      .ok ⟨r.id, r.title, r.author, status, reviewers, r.createdAt, r.mergedAt⟩

/-! ## Reviewing -/

/-- What a successful reassignment did. -/
structure Reassignment where
  pullRequest : PullRequest
  /-- The reviewer who took the place of the removed one. -/
  replacedBy : String
  deriving DecidableEq, Repr, Inhabited

/-- How many pull requests a user reviews. -/
structure UserLoad where
  user : String
  assigned : Int
  deriving DecidableEq, Repr, Inhabited

/-- The reviewers of one pull request and their number. -/
structure ReviewerCount where
  pullRequest : String
  count : Nat
  reviewers : List String
  deriving DecidableEq, Repr, Inhabited

/-- The reviewers of a pull request, counted. -/
def PullRequest.reviewerCount (p : PullRequest) : ReviewerCount :=
  ⟨p.id, p.reviewers.length, p.reviewers⟩

/-- Both views of who reviews what. -/
structure Workload where
  users : List UserLoad
  pullRequests : List ReviewerCount
  deriving DecidableEq, Repr, Inhabited

/-- The pull requests that a user reviews. -/
structure UserReviews where
  user : String
  pullRequests : List Summary
  deriving DecidableEq, Repr, Inhabited

end ReviewRota
