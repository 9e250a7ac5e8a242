import Runbook.Text.Blank
import Runbook.Text.AsciiCase
import Runbook.Text.Split
import Runbook.Text.Decimal
import Runbook.Json.Basic
import Runbook.Json.Printer
import Runbook.Json.Parser
import Runbook.Json.Record
import Runbook.Keyed
import Runbook.Text.CaseTable
import Runbook.Text.LowerCase
import Runbook.Template
import Runbook.Calendar.Date
import Runbook.Calendar.Offset
import Runbook.Calendar.Instant
import Runbook.DateToken.Basic
import Runbook.DateToken.Parser
import Runbook.DateToken.Rendering
import Runbook.Variables
import Runbook.Status
import Runbook.Counters
import Runbook.Params
import Runbook.Policy
import Runbook.Verification
import Runbook.Text.Line
import Runbook.Row.Basic
import Runbook.Row.Source
import Runbook.Record
import Runbook.Check
import Runbook.FileTree.Path
import Runbook.FileTree.Basic
import Runbook.Config.Basic
import Runbook.Program.Basic
import Runbook.Program.Loader
import Runbook.Session
import Runbook.Action.Basic
import Runbook.Action.Builtin
import Runbook.Report.Basic
import Runbook.Report.Jsonl
import Runbook.Run.Log
import Runbook.Run.Basic
import Runbook.Environment
import Runbook.Console.Style
import Runbook.Console.Rendering
import Runbook.Text.Numeral
import Runbook.Config.Value
import Runbook.Config.Yaml.Scalar
import Runbook.Config.Yaml.Text
import Runbook.Config.Yaml.Reader
import Runbook.Config.Yaml.Writer
import Runbook.Config.Toml.Scalar
import Runbook.Config.Toml.Document
import Runbook.Config.Literal
import Runbook.Config.Layers
import Runbook.Project
import Runbook.Calendar.Rfc3339
import Runbook.CommandLine.Arguments
import Runbook.CommandLine.Request
import Runbook.Console.Table
import Runbook.CommandLine.Basic
import Runbook.CommandLine.RunProgram
import Runbook.CommandLine.Commands
import Runbook.Main
import Runbook.Config.Yaml.Block
import Runbook.Config.Yaml.Document
import Runbook.Config.Yaml.Node
import Runbook.Config.Yaml.Place
import Runbook.Config.Yaml.Tag
import Runbook.Config.Yaml.Token
import Runbook.Config.Toml.Tables
import Runbook.Proofs.Counters
import Runbook.Proofs.Run.Step
import Runbook.Proofs.Run.Log
import Runbook.Proofs.Run.Conservation
import Runbook.Proofs.Run.Nesting
import Runbook.Proofs.Run.Termination
import Runbook.Proofs.Run.Reportable
import Runbook.Proofs.Run.Verdict
import Runbook.Proofs.Run.Calls
import Runbook.Proofs.Text.Blank
import Runbook.Proofs.Run.Caller
import Runbook.Proofs.Run.Depth
import Runbook.Proofs.Run.OwnSteps
import Runbook.Proofs.Run.Numbering
import Runbook.Proofs.Run.Skipping
import Runbook.Proofs.Run.Folding
import Runbook.Proofs.Params
import Runbook.Proofs.Calendar.Date
import Runbook.Proofs.Calendar.Months
import Runbook.Proofs.Calendar.Seconds
import Runbook.Proofs.Calendar.Offset
import Runbook.Proofs.DateToken.Rendering
import Runbook.Proofs.DateToken.MonthShifts
import Runbook.Proofs.DateToken.Names
import Runbook.Proofs.DateToken.WrittenShift
import Runbook.Proofs.DateToken.Grammar
import Runbook.Proofs.DateToken.RoundTrip
import Runbook.Proofs.Template
import Runbook.Proofs.Record.Resolution
import Runbook.Proofs.Action.Registry
import Runbook.Proofs.Check
import Runbook.Proofs.Run.Checked
import Runbook.Proofs.Run.LifeCycle
import Runbook.Proofs.Run.Decision
import Runbook.Proofs.Run.Halted
import Runbook.Proofs.Run.Reporting
import Runbook.Proofs.Run.Interrupt
import Runbook.Proofs.Run.Rows
import Runbook.Proofs.Run.Inert
import Runbook.Proofs.Run.Moved
import Runbook.Proofs.Run.BlankRows
import Runbook.Proofs.Json.Record
import Runbook.Proofs.Json.Printing
import Runbook.Proofs.Json.RoundTrip
import Runbook.Proofs.Text.Line
import Runbook.Proofs.Row.Jsonl
import Runbook.Proofs.Row.Tsv
import Runbook.Proofs.Report.Jsonl
import Runbook.Proofs.Run.Bracketing
import Runbook.Proofs.Run.Lookups
import Runbook.Proofs.Run.Observers
import Runbook.Proofs.Report.RoundTrip
import Runbook.Proofs.Program.Loader
import Runbook.Proofs.Run.Directories
import Runbook.Proofs.Template.Placeholders
import Runbook.Proofs.Template.Names
import Runbook.Proofs.Keyed
import Runbook.Proofs.Variables
import Runbook.Proofs.DateToken.Bundle
import Runbook.Proofs.DateToken.TimeShifts
import Runbook.Proofs.Template.Separators
import Runbook.Proofs.Params.Blob
import Runbook.Proofs.Record.Parameters
import Runbook.Proofs.Run.Setup
import Runbook.Proofs.Run.Assignment
import Runbook.Proofs.Text.Cut
import Runbook.Proofs.Params.Grammar
import Runbook.Proofs.Params.Changes
import Runbook.Proofs.Variables.Refinement
import Runbook.Proofs.Variables.Expansion
import Runbook.Proofs.Program.Unresolved
import Runbook.Proofs.Run.Unresolved
import Runbook.Proofs.DateToken.LocalReading
import Runbook.Proofs.Record.Notes
import Runbook.Proofs.Run.Consistency
import Runbook.Proofs.Text.LineEndings
import Runbook.Proofs.Row.LineNumbers
import Runbook.Proofs.Row.Columns
import Runbook.Proofs.Check.Warnings
