import PercentFormat.Buffer
import PercentFormat.Bytes
import PercentFormat.Calendar
import PercentFormat.Command.Line
import PercentFormat.Command.Run
import PercentFormat.Diagnostic
import PercentFormat.Directive
import PercentFormat.Fault
import PercentFormat.FileTree
import PercentFormat.Fixture.Suite
import PercentFormat.Fixture.Vector
import PercentFormat.Format
import PercentFormat.Json.Number
import PercentFormat.Json.Token
import PercentFormat.Json.Value
import PercentFormat.Log.Artifact
import PercentFormat.Log.Emitter
import PercentFormat.Log.Entry
import PercentFormat.Main
import PercentFormat.Numeral
import PercentFormat.Proofs.Acceptance
import PercentFormat.Proofs.Agreement
import PercentFormat.Proofs.BoundedWrites
import PercentFormat.Proofs.Calendar
import PercentFormat.Proofs.Captured
import PercentFormat.Proofs.Command.ReportFiles
import PercentFormat.Proofs.Command.RunLog
import PercentFormat.Proofs.Composition
import PercentFormat.Proofs.Demand
import PercentFormat.Proofs.DiagnosticOrder
import PercentFormat.Proofs.Digits
import PercentFormat.Proofs.Escaping
import PercentFormat.Proofs.FileTree
import PercentFormat.Proofs.FirstDiagnostic
import PercentFormat.Proofs.Fragments
import PercentFormat.Proofs.History
import PercentFormat.Proofs.InPlace
import PercentFormat.Proofs.Json.Reading
import PercentFormat.Proofs.Json.Records
import PercentFormat.Proofs.Json.Tokens
import PercentFormat.Proofs.Json.Values
import PercentFormat.Proofs.Limits
import PercentFormat.Proofs.Lines
import PercentFormat.Proofs.Log.Emission
import PercentFormat.Proofs.Log.Entries
import PercentFormat.Proofs.Log.Validation
import PercentFormat.Proofs.Outcome
import PercentFormat.Proofs.Patching
import PercentFormat.Proofs.Paths
import PercentFormat.Proofs.ReadBack
import PercentFormat.Proofs.Rendering
import PercentFormat.Proofs.ReportTable
import PercentFormat.Proofs.Routing
import PercentFormat.Proofs.Scanning
import PercentFormat.Proofs.Scratch
import PercentFormat.Proofs.Segmentation
import PercentFormat.Proofs.Share
import PercentFormat.Proofs.Step
import PercentFormat.Proofs.SuiteText
import PercentFormat.Proofs.Telling
import PercentFormat.Proofs.Terminators
import PercentFormat.Proofs.TextBytes
import PercentFormat.Proofs.TextOutput
import PercentFormat.Proofs.Timestamps
import PercentFormat.Proofs.Utf8Decoding
import PercentFormat.Proofs.Verdicts
import PercentFormat.Proofs.Width
import PercentFormat.Reference
import PercentFormat.Report
import PercentFormat.Segment
import PercentFormat.Session
import PercentFormat.Text
