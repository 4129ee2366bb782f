import ReviewRota.Caller
import ReviewRota.Member
import ReviewRota.PullRequest
import ReviewRota.Settings
import ReviewRota.Json.Record

/-!
# ReviewRota.Exchange

The JSON forms of what callers send and receive.  A record is written with
its fields under their exchanged names, in declared order, and read by the
rules of `ReviewRota.Json.Record`.

What is only answered has no reader, and what is only sent has a writer
all the same, so that it can be shown.
-/

namespace ReviewRota

/-- An optional number; its absence is written as `null`. -/
def optionalJson : Option Int → Json
  | some n => .integer n
  | none => .null

/-- Reads a number or `null`. -/
def readOptionalInt64? : Json → Option (Option Int)
  | .null => some none
  | j => (readInt64? j).map some

/-! ## Callers and members -/

namespace Caller

def fieldNames : List String := ["user_id", "is_admin"]

instance : Exchanged Caller where
  toJson c := .ofFields [("user_id", toJson c.id), ("is_admin", toJson c.admin)]
  ofJson? j := do
    let fields ← j.record? fieldNames
    return ⟨← fields.get? "user_id", ← fields.get? "is_admin"⟩

end Caller

namespace User

def fieldNames : List String := ["user_id", "username", "team_name", "is_active"]

instance : Exchanged User where
  toJson u := .ofFields [("user_id", toJson u.id), ("username", toJson u.name),
    ("team_name", toJson u.team), ("is_active", toJson u.active)]
  ofJson? j := do
    let fields ← j.record? fieldNames
    return ⟨← fields.get? "user_id", ← fields.get? "username",
      ← fields.optional? "team_name", ← fields.get? "is_active"⟩

end User

namespace NewMember

def fieldNames : List String := ["user_id", "username", "is_active"]

instance : Exchanged NewMember where
  toJson m := .ofFields [("user_id", toJson m.id), ("username", toJson m.name),
    ("is_active", toJson m.active)]
  ofJson? j := do
    let fields ← j.record? fieldNames
    return ⟨← fields.get? "user_id", ← fields.get? "username", ← fields.get? "is_active"⟩

end NewMember

namespace TeamRecord

def fieldNames : List String := ["name", "created_at"]

instance : Exchanged TeamRecord where
  toJson t := .ofFields [("name", toJson t.name), ("created_at", .integer t.createdAt)]
  ofJson? j := do
    let fields ← j.record? fieldNames
    return ⟨← fields.get? "name", ← (fields "created_at").bind readInt64?⟩

end TeamRecord

namespace Team

def fieldNames : List String := ["name", "members"]

instance : Exchanged Team where
  toJson t := .ofFields [("name", toJson t.name), ("members", toJson t.members)]
  ofJson? j := do
    let fields ← j.record? fieldNames
    return ⟨← fields.get? "name", ← fields.get? "members"⟩

end Team

/-! ## Pull requests -/

/-- A status is read from its form as a string, or as the one member of an
object, whose value is then `null`. -/
instance : Exchanged Status where
  toJson s := toJson s.text
  ofJson?
    | .text (some s) => Status.ofText? s
    | .object [(some s, .null)] => Status.ofText? s
    | _ => none

namespace PullRequest

def fieldNames : List String :=
  ["pull_request_id", "pull_request_name", "author_id", "status", "assigned_reviewers",
    "created_at", "merged_at"]

instance : Exchanged PullRequest where
  toJson p := .ofFields [("pull_request_id", toJson p.id), ("pull_request_name", toJson p.title),
    ("author_id", toJson p.author), ("status", toJson p.status),
    ("assigned_reviewers", toJson p.reviewers), ("created_at", .integer p.createdAt),
    ("merged_at", optionalJson p.mergedAt)]
  ofJson? j := do
    let fields ← j.record? fieldNames
    return ⟨← fields.get? "pull_request_id", ← fields.get? "pull_request_name",
      ← fields.get? "author_id", ← fields.get? "status", ← fields.get? "assigned_reviewers",
      ← (fields "created_at").bind readInt64?,
      ← fields.orElse? "merged_at" none readOptionalInt64?⟩

end PullRequest

namespace Summary

def fieldNames : List String := ["pull_request_id", "pull_request_name", "author_id", "status"]

instance : Exchanged Summary where
  toJson p := .ofFields [("pull_request_id", toJson p.id), ("pull_request_name", toJson p.title),
    ("author_id", toJson p.author), ("status", toJson p.status)]
  ofJson? j := do
    let fields ← j.record? fieldNames
    return ⟨← fields.get? "pull_request_id", ← fields.get? "pull_request_name",
      ← fields.get? "author_id", ← fields.get? "status"⟩

end Summary

namespace Reassignment

def fieldNames : List String := ["pull_request", "replaced_by"]

instance : Exchanged Reassignment where
  toJson r := .ofFields [("pull_request", toJson r.pullRequest),
    ("replaced_by", toJson r.replacedBy)]
  ofJson? j := do
    let fields ← j.record? fieldNames
    return ⟨← fields.get? "pull_request", ← fields.get? "replaced_by"⟩

end Reassignment

namespace UserLoad

def fieldNames : List String := ["user_id", "assigned_prs"]

instance : Exchanged UserLoad where
  toJson l := .ofFields [("user_id", toJson l.user), ("assigned_prs", .integer l.assigned)]
  ofJson? j := do
    let fields ← j.record? fieldNames
    return ⟨← fields.get? "user_id", ← (fields "assigned_prs").bind readInt64?⟩

end UserLoad

namespace ReviewerCount

def fieldNames : List String := ["pull_request_id", "reviewer_count", "reviewers"]

instance : Exchanged ReviewerCount where
  toJson r := .ofFields [("pull_request_id", toJson r.pullRequest),
    ("reviewer_count", .integer r.count), ("reviewers", toJson r.reviewers)]
  ofJson? j := do
    let fields ← j.record? fieldNames
    return ⟨← fields.get? "pull_request_id", ← (fields "reviewer_count").bind (readUnsigned? 64),
      ← fields.get? "reviewers"⟩

end ReviewerCount

/-- The two views of the workload under one roof. -/
def Workload.toJson (w : Workload) : Json :=
  .ofFields [("users", ReviewRota.toJson w.users),
    ("pull_requests", ReviewRota.toJson w.pullRequests)]

/-- The reviews of a user under the user's identifier. -/
def UserReviews.toJson (r : UserReviews) : Json :=
  .ofFields [("user_id", ReviewRota.toJson r.user),
    ("pull_requests", ReviewRota.toJson r.pullRequests)]

/-! ## Settings -/

namespace Settings

def fieldNames : List String :=
  ["db_path", "max_connections", "min_connections", "acquire_timeout_secs", "busy_timeout_secs"]

/-- Every field has a default, and in array form the last ones may be left
out. -/
instance : Exchanged Settings where
  toJson s := .ofFields [("db_path", toJson s.path), ("max_connections", .integer s.maxConnections),
    ("min_connections", .integer s.minConnections),
    ("acquire_timeout_secs", .integer s.acquireTimeout),
    ("busy_timeout_secs", .integer s.busyTimeout)]
  ofJson? j := do
    let base : Settings := {}
    let fields ← j.fields? fieldNames 0
    return ⟨← fields.orElse? "db_path" base.path ofJson?,
      ← fields.orElse? "max_connections" base.maxConnections (readUnsigned? 32),
      ← fields.orElse? "min_connections" base.minConnections (readUnsigned? 32),
      ← fields.orElse? "acquire_timeout_secs" base.acquireTimeout (readUnsigned? 64),
      ← fields.orElse? "busy_timeout_secs" base.busyTimeout (readUnsigned? 64)⟩

end Settings

/-! ## Errors -/

/-- The exchanged form of a kind of entity. -/
def Resource.code : Resource → String
  | .user => "user"
  | .team => "team"
  | .pullRequest => "pull_request"

/-- The exchanged form of a reason. -/
def ConflictReason.code : ConflictReason → String
  | .merged => "merged"
  | .notAssigned => "not_assigned"
  | .noCandidate => "no_candidate"
  | .crossTeamActive => "cross_team_active"

namespace Error

/-- The exchanged name of the kind of an error. -/
def kind : Error → String
  | .notFound _ _ => "NotFound"
  | .alreadyExists _ _ => "AlreadyExists"
  | .conflict _ _ => "Conflict"
  | .invalidInput _ _ => "InvalidInput"
  | .unauthorized _ => "Unauthorized"
  | .internal _ _ => "Internal"

/-- A field that is left out when it has no value. -/
def detailField (name : String) : Option String → List (String × Json)
  | some s => [(name, .ofText s)]
  | none => []

/-- What an error says beyond its kind, by field. -/
def details : Error → List (String × Json)
  | .notFound resource id => [("resource", .ofText resource.code), ("id", .ofText id)]
  | .alreadyExists resource id => [("resource", .ofText resource.code), ("id", .ofText id)]
  | .conflict reason detail => ("reason", .ofText reason.code) :: detailField "detail" detail
  | .invalidInput message field => ("message", .ofText message) :: detailField "field" field
  | .unauthorized message => [("message", .ofText message)]
  | .internal message operation =>
    ("message", .ofText message) :: detailField "operation" operation

end Error

end ReviewRota
