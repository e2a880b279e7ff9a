import Assay.Action
import Assay.Backend
import Assay.Call
import Assay.Capture
import Assay.Classification
import Assay.Command
import Assay.CommandLine.Arguments
import Assay.CommandLine.Switch
import Assay.CommandLine.Word
import Assay.Config
import Assay.Counterexample
import Assay.Disk.Basic
import Assay.Disk.Fault
import Assay.Disk.Operation
import Assay.Disk.Walk
import Assay.Fault
import Assay.Flag
import Assay.Gaps
import Assay.Given
import Assay.Host
import Assay.Importance
import Assay.Job
import Assay.Json.Basic
import Assay.Json.Literal
import Assay.Json.Printer
import Assay.Json.Reader
import Assay.Main
import Assay.Manifest
import Assay.Marker
import Assay.Number.Binary64
import Assay.Number.Integer
import Assay.Outcome
import Assay.OutputDir
import Assay.Panic
import Assay.Path
import Assay.Proofs.Action
import Assay.Proofs.Announcement
import Assay.Proofs.Appending
import Assay.Proofs.Call
import Assay.Proofs.Classification
import Assay.Proofs.Cleaning
import Assay.Proofs.Collection
import Assay.Proofs.Command
import Assay.Proofs.Course
import Assay.Proofs.Decision
import Assay.Proofs.Descent
import Assay.Proofs.Diagnosis
import Assay.Proofs.Directories
import Assay.Proofs.Disk
import Assay.Proofs.Encoding
import Assay.Proofs.Evaluation
import Assay.Proofs.Footprint
import Assay.Proofs.Frames
import Assay.Proofs.Freshness
import Assay.Proofs.Halves
import Assay.Proofs.Independence
import Assay.Proofs.Integer
import Assay.Proofs.Interleaving
import Assay.Proofs.Job
import Assay.Proofs.Json
import Assay.Proofs.Klee
import Assay.Proofs.Levels
import Assay.Proofs.Lines
import Assay.Proofs.Loading
import Assay.Proofs.Manifest
import Assay.Proofs.Markers
import Assay.Proofs.Obstruction
import Assay.Proofs.OutputDir
import Assay.Proofs.Ownership
import Assay.Proofs.Panic
import Assay.Proofs.Path
import Assay.Proofs.Pattern
import Assay.Proofs.Places
import Assay.Proofs.Processes
import Assay.Proofs.Quotation
import Assay.Proofs.Reader
import Assay.Proofs.ReadyMade
import Assay.Proofs.Recognition
import Assay.Proofs.Replay
import Assay.Proofs.Report
import Assay.Proofs.RoundTrip
import Assay.Proofs.Rerun
import Assay.Proofs.Run
import Assay.Proofs.Schedule
import Assay.Proofs.Search
import Assay.Proofs.Session
import Assay.Proofs.Settings
import Assay.Proofs.Setup
import Assay.Proofs.Splitting
import Assay.Proofs.Statistics
import Assay.Proofs.Streams
import Assay.Proofs.Suite
import Assay.Proofs.Tally
import Assay.Proofs.Tandem
import Assay.Proofs.Template
import Assay.Proofs.Traces
import Assay.Proofs.Transcript
import Assay.Proofs.Turn
import Assay.Proofs.Unfinished
import Assay.Proofs.Verbosity
import Assay.Proofs.Verification
import Assay.Proofs.Walk
import Assay.Replay
import Assay.Report
import Assay.Rule
import Assay.Run
import Assay.Run.Records
import Assay.Schedule
import Assay.Script
import Assay.Selection
import Assay.Session
import Assay.Shell.Quote
import Assay.Shell.Script
import Assay.Statistics
import Assay.Suite.Decoding
import Assay.Suite.Encoding
import Assay.Text.Blank
import Assay.Text.Case
import Assay.Text.Case.Table
import Assay.Text.Digit
import Assay.Text.Encoding
import Assay.Text.Lines
import Assay.Text.Printable
import Assay.Text.Quoted
import Assay.Text.Range
import Assay.Text.Search
import Assay.Tool.Basic
import Assay.Tool.Canned
import Assay.Tool.Harness
import Assay.Tool.Klee
import Assay.Tool.Seahorn
import Assay.Tool.Smack
import Assay.Verdict
import Assay.Verification
import Assay.World
