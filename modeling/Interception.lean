import Interception.Binary64
import Interception.Binary64.Places
import Interception.Binary64.Shortest
import Interception.Calculator
import Interception.CallError
import Interception.Collector
import Interception.CommandLine
import Interception.CommandLine.Help
import Interception.Config
import Interception.Config.Json
import Interception.Config.Toml
import Interception.Crew
import Interception.Demonstration
import Interception.Directory
import Interception.Event
import Interception.Fault
import Interception.Invocation
import Interception.Json.Quoted
import Interception.Json.Token
import Interception.Json.Tree
import Interception.Json.Writer
import Interception.Key
import Interception.Key.Json
import Interception.Main
import Interception.Outline
import Interception.Outline.Printable
import Interception.Program
import Interception.Proofs.Agreement
import Interception.Proofs.Base
import Interception.Proofs.CallTrees
import Interception.Proofs.ErrorPath
import Interception.Proofs.Evaluation
import Interception.Proofs.History
import Interception.Proofs.Transparency
import Interception.Record
import Interception.Report
import Interception.Routing
import Interception.Statistics
import Interception.Statistics.Summary
import Interception.System
import Interception.Table
import Interception.Time
import Interception.Toml.Characters
import Interception.Toml.Document
import Interception.Toml.Item
import Interception.Toml.Number
import Interception.Toml.Quoted
import Interception.Value
import Interception.Word
import Interception.Proofs.Ownership
import Interception.Proofs.Conservation
import Interception.Proofs.Doings
import Interception.Proofs.Numbering
import Interception.Proofs.Stories
import Interception.Proofs.Recording
import Interception.Proofs.ExactlyOnce
import Interception.Proofs.Capture
import Interception.Proofs.Snapshot
import Interception.Proofs.SettingUp
import Interception.Proofs.Tallies
import Interception.Proofs.Workload
import Interception.Proofs.Accounting
import Interception.Proofs.RunReport
import Interception.Proofs.Apart
import Interception.Proofs.Toml.LineBound
import Interception.Proofs.Toml.Strings
import Interception.Proofs.Toml.Values
import Interception.Proofs.Toml.Places
import Interception.Proofs.Toml.Lines
import Interception.Proofs.Toml.Sections
import Interception.Proofs.Toml.Documents
import Interception.Proofs.Written
import Interception.Proofs.Toml.Writing
import Interception.Proofs.Json.Tokens
import Interception.Proofs.Json.Documents
import Interception.Proofs.Json.Grammar
import Interception.Proofs.Json.Writing
import Interception.Proofs.Json.Reading
import Interception.Proofs.Layout
import Interception.Proofs.Decoding
import Interception.Proofs.GivingBack
import Interception.Proofs.BulkRemoval
import Interception.Proofs.AllOrNothing
import Interception.Proofs.Refusals
import Interception.Proofs.Arguments
import Interception.Proofs.LostContext
import Interception.Proofs.Keeping
import Interception.Proofs.Instrumented
import Interception.Proofs.Finding
import Interception.Proofs.CapturedArguments
import Interception.Proofs.FirstOffence
import Interception.Proofs.Listings
import Interception.Proofs.Renderings
import Interception.Proofs.SettledResults
import Interception.Proofs.Fibonacci
import Interception.Proofs.Checksum
import Interception.Proofs.RecordTimes
import Interception.Proofs.KeyTexts
