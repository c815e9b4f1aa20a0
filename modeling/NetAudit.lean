import NetAudit.Address
import NetAudit.Calendar.Date
import NetAudit.Calendar.Format
import NetAudit.Calendar.Instant
import NetAudit.Calendar.Lenient
import NetAudit.Calendar.Rfc3339
import NetAudit.Calendar.Scan
import NetAudit.Command.Arguments
import NetAudit.Command.Perform
import NetAudit.Config
import NetAudit.Dashboard.Buckets
import NetAudit.Dashboard.Detail
import NetAudit.Dashboard.Timeseries
import NetAudit.Dashboard.TopErrors
import NetAudit.Ending
import NetAudit.Faults
import NetAudit.Format.Config
import NetAudit.Format.Dashboard
import NetAudit.Format.Measurement
import NetAudit.Format.Request
import NetAudit.Format.Result
import NetAudit.Job
import NetAudit.Json.Codec
import NetAudit.Json.Document
import NetAudit.Json.Literal
import NetAudit.Json.Reader
import NetAudit.Json.Record
import NetAudit.Json.Token
import NetAudit.Json.Value
import NetAudit.Log.Action
import NetAudit.Log.Event
import NetAudit.Main
import NetAudit.Measurement.Kind
import NetAudit.Measurement.Record
import NetAudit.Measurement.Values
import NetAudit.Memory
import NetAudit.Number.Binary64
import NetAudit.Number.Decimal
import NetAudit.Number.Natural
import NetAudit.Number.Shortest
import NetAudit.OrderedMap
import NetAudit.Proofs.Action
import NetAudit.Proofs.Answers
import NetAudit.Proofs.Calendar.Dates
import NetAudit.Proofs.Calendar.Days
import NetAudit.Proofs.Calendar.Documents
import NetAudit.Proofs.Calendar.Texts
import NetAudit.Proofs.Comparison
import NetAudit.Proofs.Counts
import NetAudit.Proofs.Dashboard.BucketedRuns
import NetAudit.Proofs.Dashboard.Cells
import NetAudit.Proofs.Dashboard.Detail
import NetAudit.Proofs.Dashboard.Ranking
import NetAudit.Proofs.Dashboard.Renamed
import NetAudit.Proofs.Dashboard.Resolved
import NetAudit.Proofs.Dashboard.Series
import NetAudit.Proofs.Dashboard.TimeAxis
import NetAudit.Proofs.Dashboard.TopErrors
import NetAudit.Proofs.Dashboard.Windowless
import NetAudit.Proofs.Digits
import NetAudit.Proofs.Documents
import NetAudit.Proofs.ErrorCounts
import NetAudit.Proofs.Json.Codecs
import NetAudit.Proofs.Json.Records
import NetAudit.Proofs.Json.Reordered
import NetAudit.Proofs.Json.Strings
import NetAudit.Proofs.Json.Texts
import NetAudit.Proofs.Log
import NetAudit.Proofs.OrderedMap
import NetAudit.Proofs.Report
import NetAudit.Proofs.Request.Accepted
import NetAudit.Proofs.Request.Effects
import NetAudit.Proofs.Request.History
import NetAudit.Proofs.Request.Presentation
import NetAudit.Proofs.Request.Rearranged
import NetAudit.Proofs.Request.Renamed
import NetAudit.Proofs.Request.Replay
import NetAudit.Proofs.Request.Services
import NetAudit.Proofs.Run.Accounts
import NetAudit.Proofs.Run.Aftermath
import NetAudit.Proofs.Run.Alike
import NetAudit.Proofs.Run.Covered
import NetAudit.Proofs.Run.Degraded
import NetAudit.Proofs.Run.Failures
import NetAudit.Proofs.Run.Fanout
import NetAudit.Proofs.Run.Followups
import NetAudit.Proofs.Run.InStep
import NetAudit.Proofs.Run.Interrupted
import NetAudit.Proofs.Run.Logged
import NetAudit.Proofs.Run.Outcome
import NetAudit.Proofs.Run.Presented
import NetAudit.Proofs.Run.Reachable
import NetAudit.Proofs.Run.Renamed
import NetAudit.Proofs.Run.Repaired
import NetAudit.Proofs.Run.Repeated
import NetAudit.Proofs.Run.Results
import NetAudit.Proofs.Run.Shown
import NetAudit.Proofs.Run.Simulation
import NetAudit.Proofs.Run.Split
import NetAudit.Proofs.Run.Steps
import NetAudit.Proofs.Run.Tallied
import NetAudit.Proofs.Run.Together
import NetAudit.Proofs.Run.Undisturbed
import NetAudit.Proofs.Run.Views
import NetAudit.Proofs.Run.Visits
import NetAudit.Proofs.Run.WriteBack
import NetAudit.Proofs.Run.Writes
import NetAudit.Proofs.Store.Answered
import NetAudit.Proofs.Store.Arrivals
import NetAudit.Proofs.Store.Calls
import NetAudit.Proofs.Store.Cleared
import NetAudit.Proofs.Store.Due
import NetAudit.Proofs.Store.Listing
import NetAudit.Proofs.Store.Loaded
import NetAudit.Proofs.Store.Loops
import NetAudit.Proofs.Store.Outages
import NetAudit.Proofs.Store.Paging
import NetAudit.Proofs.Store.Remembered
import NetAudit.Proofs.Store.Retasked
import NetAudit.Proofs.Store.Shared
import NetAudit.Proofs.Store.Streamed
import NetAudit.Proofs.Store.Windows
import NetAudit.Proofs.Text.Lines
import NetAudit.Proofs.Uuid
import NetAudit.Proofs.Validation.Checklists
import NetAudit.Proofs.Validation.Fetches
import NetAudit.Proofs.Validation.FlatRoutes
import NetAudit.Proofs.Validation.HopKeys
import NetAudit.Proofs.Validation.MissingInputs
import NetAudit.Proofs.Validation.Pings
import NetAudit.Proofs.Validation.Quoted
import NetAudit.Proofs.Validation.Rendered
import NetAudit.Proofs.Validation.ReportedHops
import NetAudit.Proofs.Validation.Routes
import NetAudit.Proofs.Windows.Chosen
import NetAudit.Proofs.Windows.Moved
import NetAudit.Report
import NetAudit.Request
import NetAudit.Run.Attempt
import NetAudit.Run.Error
import NetAudit.Run.Execute
import NetAudit.Run.Followups
import NetAudit.Run.Tally
import NetAudit.Store.Archive
import NetAudit.Store.Basic
import NetAudit.Store.Repair
import NetAudit.Store.Script
import NetAudit.Store.Stream
import NetAudit.Summary
import NetAudit.Text.Blank
import NetAudit.Text.Escaped
import NetAudit.Text.Line
import NetAudit.Text.Printable
import NetAudit.Text.Quotes
import NetAudit.Uuid
import NetAudit.Validation.Http
import NetAudit.Validation.Outcome
import NetAudit.Validation.Ping
import NetAudit.Validation.Traceroute
import NetAudit.Validation.Validator
import NetAudit.Window
