import CompilerFuzz.Binary64
import CompilerFuzz.Campaign.Cleanup
import CompilerFuzz.Campaign.Environment
import CompilerFuzz.Campaign.History
import CompilerFuzz.Campaign.Iteration
import CompilerFuzz.Campaign.Latency
import CompilerFuzz.Campaign.Lifecycle
import CompilerFuzz.Campaign.Plan
import CompilerFuzz.Campaign.Policy
import CompilerFuzz.Campaign.Progress
import CompilerFuzz.Campaign.Run
import CompilerFuzz.Campaign.Tool
import CompilerFuzz.Campaign.Toolchain
import CompilerFuzz.CommandLine.Arguments
import CompilerFuzz.CommandLine.Fault
import CompilerFuzz.CommandLine.Grammar
import CompilerFuzz.CommandLine.Perform
import CompilerFuzz.CommandLine.Source
import CompilerFuzz.Files.Cause
import CompilerFuzz.Files.Listing
import CompilerFuzz.Files.Path
import CompilerFuzz.Files.Tree
import CompilerFuzz.Host.Catalog
import CompilerFuzz.Host.Format
import CompilerFuzz.Host.Launch
import CompilerFuzz.Host.Number
import CompilerFuzz.Host.Octets
import CompilerFuzz.Host.Options
import CompilerFuzz.Host.Pattern
import CompilerFuzz.Host.Rehearsal
import CompilerFuzz.Host.Routine
import CompilerFuzz.Host.Shell.Arithmetic
import CompilerFuzz.Host.Shell.Builtin.Basic
import CompilerFuzz.Host.Shell.Builtin.Control
import CompilerFuzz.Host.Shell.Builtin.Output
import CompilerFuzz.Host.Shell.Builtin.Variables
import CompilerFuzz.Host.Shell.Cursor
import CompilerFuzz.Host.Shell.Expansion
import CompilerFuzz.Host.Shell.Parser
import CompilerFuzz.Host.Shell.Redirect
import CompilerFuzz.Host.Shell.Run
import CompilerFuzz.Host.Shell.Start
import CompilerFuzz.Host.Shell.State
import CompilerFuzz.Host.Shell.Syntax
import CompilerFuzz.Host.Shell.Token
import CompilerFuzz.Host.Signal
import CompilerFuzz.Host.System
import CompilerFuzz.Host.Test
import CompilerFuzz.Host.Utility.Filing
import CompilerFuzz.Host.Utility.Streams
import CompilerFuzz.Json.Campaign
import CompilerFuzz.Json.Value
import CompilerFuzz.Main
import CompilerFuzz.Power
import CompilerFuzz.Settings.Basic
import CompilerFuzz.Settings.OfFile
import CompilerFuzz.Settings.OfTable
import CompilerFuzz.Settings.Written
import CompilerFuzz.Sorted
import CompilerFuzz.Span.Basic
import CompilerFuzz.Span.Seconds
import CompilerFuzz.Span.Written
import CompilerFuzz.Text.Blank
import CompilerFuzz.Text.ByteOrder
import CompilerFuzz.Text.DecimalDigit
import CompilerFuzz.Text.Front
import CompilerFuzz.Text.Lines
import CompilerFuzz.Text.Numeral
import CompilerFuzz.Text.Pattern
import CompilerFuzz.Text.Quoted
import CompilerFuzz.Text.Scan
import CompilerFuzz.Text.Unprintable
import CompilerFuzz.Text.Utf8
import CompilerFuzz.Toml.Document
import CompilerFuzz.Toml.Key
import CompilerFuzz.Toml.Node
import CompilerFuzz.Toml.Quotation
import CompilerFuzz.Toml.Scalar
import CompilerFuzz.Toml.Term
import CompilerFuzz.Toml.Trivia
import CompilerFuzz.Toml.Value
import CompilerFuzz.Toml.Written
import CompilerFuzz.Triage.Checker
import CompilerFuzz.Triage.Dialect
import CompilerFuzz.Triage.Log
import CompilerFuzz.Triage.Render
import CompilerFuzz.Triage.Report
import CompilerFuzz.Triage.Table
import CompilerFuzz.Triage.Tagged
import CompilerFuzz.Triage.Verdict
import CompilerFuzz.Proofs.Triage.Contents
import CompilerFuzz.Proofs.Campaign.Attempts
import CompilerFuzz.Proofs.Campaign.Round
import CompilerFuzz.Proofs.Triage.Deduplication
import CompilerFuzz.Proofs.Campaign.Loop
import CompilerFuzz.Proofs.Campaign.StepGrammar
import CompilerFuzz.Proofs.Campaign.Accounting
import CompilerFuzz.Proofs.Lookup
import CompilerFuzz.Proofs.Files.Lookup
import CompilerFuzz.Proofs.Files.Changes
import CompilerFuzz.Proofs.Campaign.Kept
import CompilerFuzz.Proofs.Campaign.Cleanup
import CompilerFuzz.Proofs.Campaign.Lifecycle
import CompilerFuzz.Proofs.Campaign.Signals
import CompilerFuzz.Proofs.Campaign.Interruption
import CompilerFuzz.Proofs.Campaign.Pace
import CompilerFuzz.Proofs.Campaign.Freshness
import CompilerFuzz.Proofs.Campaign.Policies
import CompilerFuzz.Proofs.Triage.Printed
import CompilerFuzz.Proofs.Triage.RoundTrip
import CompilerFuzz.Proofs.Triage.Concatenation
import CompilerFuzz.Proofs.Triage.Constructs
import CompilerFuzz.Proofs.Triage.Findings
import CompilerFuzz.Proofs.Triage.LineOrder
import CompilerFuzz.Proofs.Triage.Rejection
import CompilerFuzz.Proofs.Span.Lossless
import CompilerFuzz.Proofs.Toml.Strings
import CompilerFuzz.Proofs.Toml.Values
import CompilerFuzz.Proofs.Toml.Documents
import CompilerFuzz.Proofs.Toml.Building
import CompilerFuzz.Proofs.Settings.RoundTrip
import CompilerFuzz.Proofs.Span.Reckoning
import CompilerFuzz.Proofs.Toml.Editing
import CompilerFuzz.Proofs.Settings.Fields
import CompilerFuzz.Proofs.Settings.Independence
import CompilerFuzz.Proofs.CommandLine.Resolution
import CompilerFuzz.Proofs.Triage.Listing
import CompilerFuzz.Proofs.CommandLine.Outcomes
import CompilerFuzz.Proofs.Triage.Loading
import CompilerFuzz.Proofs.Campaign.Retrying
import CompilerFuzz.Proofs.Campaign.Latencies
import CompilerFuzz.Proofs.Binary64.Rounding
import CompilerFuzz.Proofs.Span.Seconds
import CompilerFuzz.Proofs.Campaign.ProgressBar
import CompilerFuzz.Proofs.Campaign.ProgressLine
import CompilerFuzz.Proofs.Text.Decoding
import CompilerFuzz.Proofs.Campaign.ErrorTail
import CompilerFuzz.Proofs.Campaign.Guards
import CompilerFuzz.Proofs.Campaign.CommandLines
