import NodeSwitcher.Area
import NodeSwitcher.Choice
import NodeSwitcher.Choice.Json
import NodeSwitcher.Command
import NodeSwitcher.Config
import NodeSwitcher.Config.Json
import NodeSwitcher.Decimal.Shortest
import NodeSwitcher.Endpoints
import NodeSwitcher.Event
import NodeSwitcher.Fault
import NodeSwitcher.Json.Cursor
import NodeSwitcher.Json.Error
import NodeSwitcher.Json.Number
import NodeSwitcher.Json.Reader
import NodeSwitcher.Json.Record
import NodeSwitcher.Json.Skip
import NodeSwitcher.Json.Strings
import NodeSwitcher.Json.Word
import NodeSwitcher.Loading
import NodeSwitcher.Page
import NodeSwitcher.Program
import NodeSwitcher.Proofs.Preselection
import NodeSwitcher.Proofs.Rounds
import NodeSwitcher.Proofs.Threads
import NodeSwitcher.Proofs.Trace
import NodeSwitcher.Proofs.Tasks
import NodeSwitcher.Proofs.Operations
import NodeSwitcher.Proofs.Supersession
import NodeSwitcher.Proofs.Feedback
import NodeSwitcher.Proofs.Overlap
import NodeSwitcher.Proofs.LoadWrites
import NodeSwitcher.Proofs.Cascade
import NodeSwitcher.Request
import NodeSwitcher.Selector
import NodeSwitcher.Server
import NodeSwitcher.Session
import NodeSwitcher.Submission
import NodeSwitcher.Text.Blank
import NodeSwitcher.Text.Hidden
import NodeSwitcher.Text.Quoted
import NodeSwitcher.Ticket
import NodeSwitcher.World
import NodeSwitcher.Proofs.SetUp
import NodeSwitcher.Proofs.Events
import NodeSwitcher.Proofs.AreaPaths
import NodeSwitcher.Proofs.NodeChange
import NodeSwitcher.Proofs.Json.Grammar
import NodeSwitcher.Proofs.Json.Scanning
import NodeSwitcher.Proofs.Json.Skipping
import NodeSwitcher.Proofs.Json.Readers
import NodeSwitcher.Proofs.Json.Records
import NodeSwitcher.Proofs.Json.Writing
import NodeSwitcher.Proofs.OptionLists
import NodeSwitcher.Proofs.PageConfigs
import NodeSwitcher.Proofs.Tickets
