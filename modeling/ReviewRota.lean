import ReviewRota.Text.Blank
import ReviewRota.Text.Decimal
import ReviewRota.Json.Value
import ReviewRota.Json.Literal
import ReviewRota.Json.Printer
import ReviewRota.Json.Parser
import ReviewRota.Json.Record
import ReviewRota.Error
import ReviewRota.Member
import ReviewRota.PullRequest
import ReviewRota.Caller
import ReviewRota.Settings
import ReviewRota.Exchange
import ReviewRota.Migration
import ReviewRota.Draw
import ReviewRota.Store.Basic
import ReviewRota.Store.Statement
import ReviewRota.Store.Probe
import ReviewRota.Connection.SavepointName
import ReviewRota.Connection.Basic
import ReviewRota.Attempt
import ReviewRota.Gateway.Basic
import ReviewRota.Gateway.Members
import ReviewRota.Gateway.PullRequests
import ReviewRota.Gateway.Call
import ReviewRota.Transact
import ReviewRota.Reviewing
import ReviewRota.Staffing
import ReviewRota.Reporting
import ReviewRota.Desk
import ReviewRota.Request
import ReviewRota.Session
import ReviewRota.Opening
import ReviewRota.Proofs.Rows
import ReviewRota.Proofs.Statement
import ReviewRota.Proofs.Integrity
import ReviewRota.Proofs.Composed
import ReviewRota.Proofs.Reading
import ReviewRota.Proofs.Visited
import ReviewRota.Proofs.UnitOfWork
import ReviewRota.Proofs.CommittedStore
import ReviewRota.Proofs.Changes
import ReviewRota.Proofs.Choice
import ReviewRota.Proofs.WorkingStore
import ReviewRota.Proofs.Scopes
import ReviewRota.Proofs.Operations
import ReviewRota.Proofs.Failures
import ReviewRota.Proofs.Isolation
import ReviewRota.Proofs.Answers
import ReviewRota.Proofs.History
import ReviewRota.Proofs.Reports
import ReviewRota.Proofs.Assignment
import ReviewRota.Proofs.Availability
import ReviewRota.Proofs.TeamConsistency
import ReviewRota.Proofs.Ledger
import ReviewRota.Proofs.Finality
import ReviewRota.Proofs.Savepoints
import ReviewRota.Proofs.Effect
import ReviewRota.Proofs.Contexts
import ReviewRota.Proofs.Workload
import ReviewRota.Proofs.Confined
import ReviewRota.Proofs.Commuting
import ReviewRota.Proofs.Guards
import ReviewRota.Proofs.Unprivileged
import ReviewRota.Proofs.ReadBack
import ReviewRota.Proofs.Timeline
import ReviewRota.Proofs.Permanence
import ReviewRota.Proofs.Yields
import ReviewRota.Proofs.Candidates
import ReviewRota.Proofs.Creating
import ReviewRota.Proofs.Reassigning
import ReviewRota.Proofs.Founding
import ReviewRota.Proofs.Separation
import ReviewRota.Proofs.Resplitting
import ReviewRota.Proofs.Uniform
import ReviewRota.Proofs.Refusals
import ReviewRota.Proofs.ExactWrites
import ReviewRota.Proofs.Grammar
import ReviewRota.Proofs.Parsing
import ReviewRota.Proofs.Printing
import ReviewRota.Proofs.RowReading
import ReviewRota.Proofs.Forms
import ReviewRota.Proofs.Interchange
import ReviewRota.Proofs.Overrides
import ReviewRota.Proofs.Words
import ReviewRota.Proofs.Fairness
