import LiveTrace.Assembly.Basic
import LiveTrace.Assembly.Fields
import LiveTrace.CommandLine.Arguments
import LiveTrace.CommandLine.Basic
import LiveTrace.CommandLine.Summary
import LiveTrace.CommandLine.Watch
import LiveTrace.Compiler.Diagnostic
import LiveTrace.Compiler.Options
import LiveTrace.Config
import LiveTrace.Error
import LiveTrace.Evaluator.Basic
import LiveTrace.Evaluator.Notice
import LiveTrace.Files.Error
import LiveTrace.Files.Path
import LiveTrace.Files.Snapshot
import LiveTrace.Files.Tree
import LiveTrace.Guest.Call
import LiveTrace.Guest.Engine
import LiveTrace.Guest.Execution
import LiveTrace.Guest.Script
import LiveTrace.Hook.Signature
import LiveTrace.Hook.Value
import LiveTrace.Host.Basic
import LiveTrace.Host.Report
import LiveTrace.Json.Basic
import LiveTrace.Json.Reading
import LiveTrace.Json.Text
import LiveTrace.Json.Token
import LiveTrace.Log
import LiveTrace.Main
import LiveTrace.Number.Binary
import LiveTrace.Number.Digits
import LiveTrace.Number.Power
import LiveTrace.Number.Shortest
import LiveTrace.Project.Basic
import LiveTrace.Project.Submission
import LiveTrace.Proofs.Assembly.Bytes
import LiveTrace.Proofs.Assembly.Grammar
import LiveTrace.Proofs.Assembly.Hoisting
import LiveTrace.Proofs.Assembly.Recognition
import LiveTrace.Proofs.Assembly.Unit
import LiveTrace.Proofs.CommandLine.Reporting
import LiveTrace.Proofs.CommandLine.Watching
import LiveTrace.Proofs.Compiler.Options
import LiveTrace.Proofs.Evaluator.Fate
import LiveTrace.Proofs.Evaluator.Ledger
import LiveTrace.Proofs.Evaluator.Notices
import LiveTrace.Proofs.Evaluator.Runs
import LiveTrace.Proofs.Evaluator.Shutdown
import LiveTrace.Proofs.Evaluator.Steps
import LiveTrace.Proofs.Evaluator.Survival
import LiveTrace.Proofs.Evaluator.System
import LiveTrace.Proofs.Evaluator.Wakeup
import LiveTrace.Proofs.Files.Location
import LiveTrace.Proofs.Files.Making
import LiveTrace.Proofs.Files.Mirror
import LiveTrace.Proofs.Files.Paths
import LiveTrace.Proofs.Files.Tree
import LiveTrace.Proofs.Guest.Arguments
import LiveTrace.Proofs.Host.Agreement
import LiveTrace.Proofs.Host.Calls
import LiveTrace.Proofs.Host.Cancellation
import LiveTrace.Proofs.Host.Routing
import LiveTrace.Proofs.Json.Layouts
import LiveTrace.Proofs.Json.Numbers
import LiveTrace.Proofs.Json.Quoting
import LiveTrace.Proofs.Json.Scanning
import LiveTrace.Proofs.Json.Values
import LiveTrace.Proofs.Number.Binary
import LiveTrace.Proofs.Number.Digits
import LiveTrace.Proofs.Number.Reading
import LiveTrace.Proofs.Run.Cancellation
import LiveTrace.Proofs.Run.Cleanup
import LiveTrace.Proofs.Run.Course
import LiveTrace.Proofs.Run.Ending
import LiveTrace.Proofs.Run.History
import LiveTrace.Proofs.Run.Independence
import LiveTrace.Proofs.Run.Mirror
import LiveTrace.Proofs.Run.Panics
import LiveTrace.Proofs.Run.Progress
import LiveTrace.Proofs.Run.Refusal
import LiveTrace.Proofs.Run.Result
import LiveTrace.Proofs.Run.Staging
import LiveTrace.Proofs.Run.Trust
import LiveTrace.Proofs.Run.Twin
import LiveTrace.Proofs.Run.Uninvoked
import LiveTrace.Proofs.Text.Decoding
import LiveTrace.Proofs.Text.Utf8
import LiveTrace.Proofs.Text.Words
import LiveTrace.Proofs.Trace.Bracketing
import LiveTrace.Proofs.Trace.Calls
import LiveTrace.Proofs.Trace.Initial
import LiveTrace.Proofs.Trace.Json
import LiveTrace.Proofs.Trace.Loops
import LiveTrace.Proofs.Trace.Monitor
import LiveTrace.Proofs.Trace.Places
import LiveTrace.Proofs.Trace.Preorder
import LiveTrace.Proofs.Trace.Retention
import LiveTrace.Proofs.Trace.Roots
import LiveTrace.Proofs.Trace.RoundTrip
import LiveTrace.Proofs.Trace.Shape
import LiveTrace.Proofs.Trace.Sinks
import LiveTrace.Proofs.Trace.Stack
import LiveTrace.Proofs.Trace.Unwinding
import LiveTrace.Proofs.Trace.Warnings
import LiveTrace.Proofs.Wasm.Reports
import LiveTrace.Proofs.Workspace.Directory
import LiveTrace.Proofs.Workspace.Mirror
import LiveTrace.Proofs.Workspace.Names
import LiveTrace.Proofs.Workspace.RunIds
import LiveTrace.Proofs.Workspace.Sweep
import LiveTrace.Run.Basic
import LiveTrace.Run.Outcome
import LiveTrace.Run.Report
import LiveTrace.Run.Stage
import LiveTrace.Text.Blank
import LiveTrace.Text.Hidden
import LiveTrace.Text.Quoted
import LiveTrace.Text.Utf8
import LiveTrace.Time.Rfc3339
import LiveTrace.Time.Timestamp
import LiveTrace.Trace.Event
import LiveTrace.Trace.Json
import LiveTrace.Trace.Monitor
import LiveTrace.Trace.Operation
import LiveTrace.Trace.Recorder
import LiveTrace.Trace.Sink
import LiveTrace.Wasm.Binary.Code
import LiveTrace.Wasm.Binary.Module
import LiveTrace.Wasm.Binary.Opcode
import LiveTrace.Wasm.Binary.Reader
import LiveTrace.Wasm.Engine
import LiveTrace.Wasm.Instruction
import LiveTrace.Wasm.Load
import LiveTrace.Wasm.Machine
import LiveTrace.Wasm.Memory
import LiveTrace.Wasm.Nesting
import LiveTrace.Wasm.Numeric
import LiveTrace.Wasm.Store
import LiveTrace.Wasm.Text.Body
import LiveTrace.Wasm.Text.Contents
import LiveTrace.Wasm.Text.Field
import LiveTrace.Wasm.Text.Layout
import LiveTrace.Wasm.Text.Literal
import LiveTrace.Wasm.Text.Module
import LiveTrace.Wasm.Text.Opcode
import LiveTrace.Wasm.Text.Token
import LiveTrace.Wasm.Text.TypeUse
import LiveTrace.Wasm.Types
import LiveTrace.Wasm.Validation
import LiveTrace.Workspace.Basic
import LiveTrace.Workspace.RunId
