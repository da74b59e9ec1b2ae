import JudgePolicy.Access
import JudgePolicy.Audit
import JudgePolicy.Capability
import JudgePolicy.Database.Clause
import JudgePolicy.Database.Condition
import JudgePolicy.Database.Connection
import JudgePolicy.Database.Tables
import JudgePolicy.Editorial
import JudgePolicy.Exchange.Codes
import JudgePolicy.Exchange.Problem
import JudgePolicy.Exchange.Profile
import JudgePolicy.Exchange.Submission
import JudgePolicy.Failure
import JudgePolicy.Filter
import JudgePolicy.Filter.Folding
import JudgePolicy.Inquiry
import JudgePolicy.Json.Basic
import JudgePolicy.Json.Decode
import JudgePolicy.Json.Parser
import JudgePolicy.Json.Printer
import JudgePolicy.Json.Quoted
import JudgePolicy.Number.Binary64
import JudgePolicy.Number.Digits
import JudgePolicy.Number.Nearest
import JudgePolicy.Number.Numeral
import JudgePolicy.Number.Shortest
import JudgePolicy.Order
import JudgePolicy.Problem
import JudgePolicy.Profile
import JudgePolicy.Proofs.Access.Agreement
import JudgePolicy.Proofs.Access.Chain
import JudgePolicy.Proofs.Access.Resolution
import JudgePolicy.Proofs.Database.Loading
import JudgePolicy.Proofs.Filter.Normal
import JudgePolicy.Proofs.Problem.Building
import JudgePolicy.Role
import JudgePolicy.Roster
import JudgePolicy.Rule
import JudgePolicy.Settings.Files
import JudgePolicy.Settings.Layers
import JudgePolicy.Settings.Toml.Parser
import JudgePolicy.Settings.Toml.Scalar
import JudgePolicy.Settings.Toml.Tree
import JudgePolicy.Settings.Tree
import JudgePolicy.SortedMap
import JudgePolicy.SortedSet
import JudgePolicy.Statement
import JudgePolicy.Store
import JudgePolicy.Store.Memory
import JudgePolicy.Submission
import JudgePolicy.Text.Blank
import JudgePolicy.Time.Calendar
import JudgePolicy.Time.Instant
import JudgePolicy.Time.Timestamp
import JudgePolicy.Verdict
import JudgePolicy.Voting
import JudgePolicy.Proofs.Database.Selection
import JudgePolicy.Proofs.Submission.Summary
import JudgePolicy.Proofs.Voting.Law
import JudgePolicy.Proofs.Access.Noninterference
import JudgePolicy.Proofs.Access.Growth
import JudgePolicy.Proofs.Inquiry.Lists
import JudgePolicy.Proofs.Database.History
import JudgePolicy.Proofs.Store.Contents
import JudgePolicy.Proofs.Inquiry.Stages
import JudgePolicy.Proofs.Database.Storing
import JudgePolicy.Proofs.Access.ClosedForm
import JudgePolicy.Proofs.Editorial.Editors
import JudgePolicy.Proofs.Editorial.Publication
import JudgePolicy.Proofs.Number.Magnitude
import JudgePolicy.Proofs.Number.Nearest
import JudgePolicy.Proofs.Number.Shortest
import JudgePolicy.Proofs.Number.Written
import JudgePolicy.Proofs.Json.RoundTrip
import JudgePolicy.Proofs.Time.Calendar
import JudgePolicy.Proofs.Time.Timestamps
import JudgePolicy.Proofs.Json.Records
import JudgePolicy.Proofs.Json.Fields
import JudgePolicy.Proofs.Json.Members
import JudgePolicy.Proofs.Exchange.Profile
import JudgePolicy.Proofs.Exchange.Submission
import JudgePolicy.Proofs.Exchange.Decoding
import JudgePolicy.Proofs.Problem.Construction
import JudgePolicy.Proofs.Submission.Relevance
import JudgePolicy.Proofs.Voting.Progress
import JudgePolicy.Proofs.Inquiry.Administrators
import JudgePolicy.Proofs.Database.FirstDefect
import JudgePolicy.Proofs.Statement.Checking
import JudgePolicy.Proofs.Audit.Reports
import JudgePolicy.Proofs.Settings.Keys
import JudgePolicy.Proofs.Settings.Precedence
