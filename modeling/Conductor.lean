import Conductor.Client
import Conductor.Client.Event
import Conductor.CommandLine.Command
import Conductor.CommandLine.Execution
import Conductor.CommandLine.Form
import Conductor.CommandLine.Printed
import Conductor.CommandLine.Transcript
import Conductor.CommandLine.Usage
import Conductor.Course
import Conductor.Event
import Conductor.Event.Bus
import Conductor.Event.Switchboard
import Conductor.Fault
import Conductor.Journal
import Conductor.Launch
import Conductor.Launch.Event
import Conductor.Launch.Pump
import Conductor.Launch.Script
import Conductor.Main
import Conductor.Number.Binary64
import Conductor.Number.Decimal
import Conductor.Number.Limit
import Conductor.Number.Rounding
import Conductor.Orchestrator
import Conductor.Path
import Conductor.Pattern
import Conductor.Pattern.Preference
import Conductor.Pattern.Reader
import Conductor.Pattern.Search
import Conductor.Phase.Activity
import Conductor.Phase.Standard
import Conductor.Proofs.Course
import Conductor.Proofs.Text.Utf8
import Conductor.Proofs.World
import Conductor.Reply.Agents
import Conductor.Reply.CodeMap
import Conductor.Reply.ExecFailure
import Conductor.Reply.Layout
import Conductor.Reply.NextTask
import Conductor.Reply.Plan
import Conductor.Reply.Problem
import Conductor.Reply.Record
import Conductor.Reply.Spec
import Conductor.Reply.TaskQueue
import Conductor.Reply.Verification
import Conductor.Reply.Workflow
import Conductor.Request
import Conductor.Run
import Conductor.Session
import Conductor.Session.Event
import Conductor.Session.OfSettings
import Conductor.Settings
import Conductor.Shell
import Conductor.Text.Blank
import Conductor.Text.Digit
import Conductor.Text.Escape
import Conductor.Text.Fold
import Conductor.Text.Line
import Conductor.Text.Printable
import Conductor.Text.Quoted
import Conductor.Text.Range
import Conductor.Text.Scan
import Conductor.Text.Similar
import Conductor.Text.Utf8
import Conductor.Text.Utf8.Whole
import Conductor.Text.Word
import Conductor.Time.Calendar
import Conductor.Time.Elapsed
import Conductor.Time.Stamp
import Conductor.Toml.Document
import Conductor.Toml.Problem
import Conductor.Toml.Reader
import Conductor.Toml.Scalar
import Conductor.Toml.Text
import Conductor.Value
import Conductor.Value.Identity
import Conductor.Value.Json
import Conductor.Version
import Conductor.Workspace
import Conductor.World
import Conductor.Proofs.Activity
import Conductor.Proofs.Launch.Output
import Conductor.Proofs.Orchestrator.Stint
import Conductor.Proofs.Orchestrator.Trace
import Conductor.Proofs.Orchestrator.Settled
import Conductor.Proofs.Conversation
import Conductor.Proofs.Orchestrator.Launches
import Conductor.Proofs.Time.Elapsed
import Conductor.Proofs.Launch.Ending
import Conductor.Proofs.Launch.Lifetime
import Conductor.Proofs.Client.Contract
import Conductor.Proofs.Session.Login
import Conductor.Proofs.Session.Switch
import Conductor.Proofs.Session.Tasks
import Conductor.Proofs.Client.Frame
import Conductor.Proofs.Phase.Play
import Conductor.Proofs.Phase.Execution
import Conductor.Proofs.Reply.TaskQueue
import Conductor.Proofs.Number.Decimal
import Conductor.Proofs.Toml.Value
import Conductor.Proofs.Toml.Document
import Conductor.Proofs.Workspace
import Conductor.Proofs.Settings
import Conductor.Proofs.Event.Order
import Conductor.Proofs.Orchestrator.Stages
import Conductor.Proofs.Run
import Conductor.Proofs.Orchestrator.Consistency
import Conductor.Proofs.Interference
import Conductor.Proofs.Orchestrator.Blame
import Conductor.Proofs.Orchestrator.Traffic
import Conductor.Proofs.Event.Subscription
import Conductor.Proofs.Event.Snapshot
import Conductor.Proofs.Phase.Drained
import Conductor.Proofs.Reply.Sections
import Conductor.Proofs.Text.Search
import Conductor.Proofs.Reply.Count
import Conductor.Proofs.Reply.Notice
import Conductor.Proofs.Client.Reading
import Conductor.Proofs.Reply.NextTask
import Conductor.Proofs.Reply.Agents
import Conductor.Proofs.Reply.Hints
import Conductor.Proofs.Reply.CodeMap
import Conductor.Proofs.Reply.Workflow
import Conductor.Proofs.Settings.Sections
import Conductor.Proofs.Reply.Failure
import Conductor.Proofs.Toml.Entry
import Conductor.Proofs.Settings.Loading
import Conductor.Proofs.Shell
import Conductor.Proofs.Launch.Size
import Conductor.Proofs.Number.Canonical
import Conductor.Proofs.Reply.Artifact
