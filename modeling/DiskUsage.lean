import DiskUsage.Cache.Basic
import DiskUsage.Cache.File
import DiskUsage.Cache.Interruption
import DiskUsage.Cache.Store
import DiskUsage.Cache.Writers
import DiskUsage.Cli.Arguments
import DiskUsage.Cli.Command
import DiskUsage.Cli.Machine
import DiskUsage.Cli.Run
import DiskUsage.Config.Basic
import DiskUsage.Config.Folding
import DiskUsage.Config.Json
import DiskUsage.Config.Setting
import DiskUsage.Entry.Basic
import DiskUsage.Entry.Json
import DiskUsage.Entry.Result
import DiskUsage.Entry.TopN
import DiskUsage.Error.Scan
import DiskUsage.Error.System
import DiskUsage.Error.Tool
import DiskUsage.FileSystem.Canonical
import DiskUsage.FileSystem.Edit
import DiskUsage.FileSystem.Lookup
import DiskUsage.FileSystem.Node
import DiskUsage.FileSystem.Recipe
import DiskUsage.Json.Magnitude
import DiskUsage.Json.Printer
import DiskUsage.Json.Reader
import DiskUsage.Json.Record
import DiskUsage.Json.Text
import DiskUsage.Json.Value
import DiskUsage.Main
import DiskUsage.Number.Binary64
import DiskUsage.Number.Numeral
import DiskUsage.Number.Power
import DiskUsage.Number.Rounding
import DiskUsage.Number.Word
import DiskUsage.Order.Lexicographic
import DiskUsage.Path.Basic
import DiskUsage.Path.Clean
import DiskUsage.Path.Lemmas
import DiskUsage.Path.Order
import DiskUsage.Path.Proper
import DiskUsage.Path.Raw
import DiskUsage.Progress.Counters
import DiskUsage.Progress.Feed
import DiskUsage.Progress.Sampling
import DiskUsage.Progress.Snapshot
import DiskUsage.Report.Age
import DiskUsage.Report.Bar
import DiskUsage.Report.PathDisplay
import DiskUsage.Report.Size
import DiskUsage.Report.SizeInput
import DiskUsage.Report.Summary
import DiskUsage.Scan.Child
import DiskUsage.Scan.Classify
import DiskUsage.Scan.LargeFiles
import DiskUsage.Scan.Overview
import DiskUsage.Scan.Pool
import DiskUsage.Scan.Run
import DiskUsage.Scan.Scanner
import DiskUsage.Scan.Trace
import DiskUsage.Scan.Walk
import DiskUsage.Sharing.InFlight
import DiskUsage.Text.Blank
import DiskUsage.Text.Layout
import DiskUsage.Text.Quoted
import DiskUsage.Text.Upper
import DiskUsage.Text.Utf8
import DiskUsage.Time.Duration
import DiskUsage.Time.Json
import DiskUsage.Time.Timestamp
import DiskUsage.Usage.Kilobytes
import DiskUsage.Usage.Process
import DiskUsage.Usage.Tool
import DiskUsage.Proofs.Entry.Largest
import DiskUsage.Proofs.Entry.Offers
import DiskUsage.Proofs.FileSystem.Ending
import DiskUsage.Proofs.Json.Spelling
import DiskUsage.Proofs.Json.Words
import DiskUsage.Proofs.Pool.Step
import DiskUsage.Proofs.Pool.Accounting
import DiskUsage.Proofs.Pool.Progress
import DiskUsage.Proofs.Pool.Schedule
import DiskUsage.Proofs.Sharing.Callers
import DiskUsage.Proofs.Sharing.Slots
import DiskUsage.Proofs.Sharing.Table
import DiskUsage.Proofs.Sharing.Measurement
import DiskUsage.Proofs.Scan.Summing
import DiskUsage.Proofs.Scan.Descendant
import DiskUsage.Proofs.Scan.Walked
import DiskUsage.Proofs.Scan.Total
import DiskUsage.Proofs.Scan.Candidates
import DiskUsage.Proofs.Scan.Overview
import DiskUsage.Proofs.Scan.Recorded
import DiskUsage.Proofs.Scan.Counted
import DiskUsage.Proofs.Scan.Alike
import DiskUsage.Proofs.Scan.Hidden
import DiskUsage.Proofs.Scan.DrillDown
import DiskUsage.Proofs.Cache.Encoding
import DiskUsage.Proofs.FileSystem.Carrying
import DiskUsage.Proofs.FileSystem.Editing
import DiskUsage.Proofs.FileSystem.WellFormed
import DiskUsage.Proofs.FileSystem.Outcomes
import DiskUsage.Proofs.FileSystem.Walking
import DiskUsage.Proofs.FileSystem.Directories
import DiskUsage.Proofs.FileSystem.Children
import DiskUsage.Proofs.Path.Steps
import DiskUsage.Proofs.Cache.Reopening
import DiskUsage.Proofs.Cache.Snapshot
import DiskUsage.Proofs.Cache.Writing
import DiskUsage.Proofs.Cache.Beside
import DiskUsage.Proofs.Cache.Interrupting
import DiskUsage.Proofs.Cache.History
import DiskUsage.Proofs.Cache.Unobstructed
import DiskUsage.Proofs.Cache.Listed
import DiskUsage.Proofs.Cache.Carried
import DiskUsage.Proofs.Scan.Freshness
import DiskUsage.Proofs.Scan.Threshold
import DiskUsage.Proofs.Scan.Unlistable
import DiskUsage.Proofs.Json.Records
import DiskUsage.Proofs.Entry.RoundTrip
import DiskUsage.Proofs.Config.Reading
import DiskUsage.Proofs.Config.Accepted
import DiskUsage.Proofs.Sharing.Joining
import DiskUsage.Proofs.Engine.Prepared
import DiskUsage.Proofs.Engine.Basic
import DiskUsage.Proofs.Engine.Residue
import DiskUsage.Proofs.Sharing.Removal
import DiskUsage.Proofs.Scan.Excluded
import DiskUsage.Proofs.Scan.Routes
import DiskUsage.Proofs.Scan.Sources
import DiskUsage.Proofs.Path.Cleaning
import DiskUsage.Proofs.FileSystem.Linkless
import DiskUsage.Proofs.Scan.Folded
import DiskUsage.Proofs.Scan.Indexed
import DiskUsage.Proofs.Turns
import DiskUsage.Proofs.Progress.Boundaries
import DiskUsage.Proofs.Progress.Intervals
import DiskUsage.Proofs.Scan.InTime
import DiskUsage.Proofs.Scan.Eligible
import DiskUsage.Progress.Reporting
import DiskUsage.Proofs.Progress.Reported
import DiskUsage.Proofs.Scan.Published
import DiskUsage.Proofs.Scan.Marked
import DiskUsage.Proofs.Usage.Kilobytes
import DiskUsage.Proofs.Usage.Parts
import DiskUsage.Proofs.Config.Workers
import DiskUsage.Proofs.Text.Utf8
import DiskUsage.Proofs.Path.Letters
import DiskUsage.Proofs.Report.PathDisplay
import DiskUsage.Proofs.Scan.Nonzero
import DiskUsage.Proofs.Number.Binary64
import DiskUsage.Proofs.Text.Upper
import DiskUsage.Proofs.Report.SizeInput
import DiskUsage.Proofs.Report.Age
