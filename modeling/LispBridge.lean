import LispBridge.Bench.Files
import LispBridge.Bench.Lookup
import LispBridge.Bench.Process
import LispBridge.Gate.Custody
import LispBridge.Gate.Queue
import LispBridge.Gate.WaitingRoom
import LispBridge.Main
import LispBridge.Proofs.Connection.Changes
import LispBridge.Proofs.Connection.Ending
import LispBridge.Proofs.Connection.Inbound
import LispBridge.Proofs.Datum.Bounded
import LispBridge.Proofs.Datum.Canonical
import LispBridge.Proofs.Datum.Embedding
import LispBridge.Proofs.Datum.Gaps
import LispBridge.Proofs.Datum.Innermost
import LispBridge.Proofs.Datum.LispStyle
import LispBridge.Proofs.Datum.OnlyForm
import LispBridge.Proofs.Datum.Outcomes
import LispBridge.Proofs.Datum.Pasting
import LispBridge.Proofs.Datum.Printing
import LispBridge.Proofs.Datum.Reading
import LispBridge.Proofs.Datum.Reprinting
import LispBridge.Proofs.Datum.RoundTrip
import LispBridge.Proofs.Datum.Settling
import LispBridge.Proofs.Datum.Spelling
import LispBridge.Proofs.Datum.Steps
import LispBridge.Proofs.Datum.Sturdy
import LispBridge.Proofs.Debugger.Headline
import LispBridge.Proofs.Debugger.Partition
import LispBridge.Proofs.Descent.Characters
import LispBridge.Proofs.Descent.Cursor
import LispBridge.Proofs.Descent.Forms
import LispBridge.Proofs.Descent.Progress
import LispBridge.Proofs.Descent.Values
import LispBridge.Proofs.Frame.Agreement
import LispBridge.Proofs.Frame.Decode
import LispBridge.Proofs.Frame.Delivery
import LispBridge.Proofs.Frame.Header
import LispBridge.Proofs.Frame.Pieces
import LispBridge.Proofs.Frame.Splitting
import LispBridge.Proofs.Frame.Stream
import LispBridge.Proofs.Gate.Admissions
import LispBridge.Proofs.Gate.Ownership
import LispBridge.Proofs.Gate.Wakeups
import LispBridge.Proofs.Interpreter.Replies
import LispBridge.Proofs.Interpreter.Requests
import LispBridge.Proofs.Message.Arguments
import LispBridge.Proofs.Message.Rendering
import LispBridge.Proofs.Message.Salvage
import LispBridge.Proofs.Number.Numeral
import LispBridge.Proofs.Program.Calls
import LispBridge.Proofs.Program.Discipline
import LispBridge.Proofs.Program.Quiet
import LispBridge.Proofs.Program.Relaying
import LispBridge.Proofs.Relay.Batches
import LispBridge.Proofs.Relay.Desk
import LispBridge.Proofs.Relay.Fifo
import LispBridge.Proofs.Relay.Lock
import LispBridge.Proofs.Session.Accounts
import LispBridge.Proofs.Session.Alone
import LispBridge.Proofs.Session.Blocks
import LispBridge.Proofs.Session.CursorQueries
import LispBridge.Proofs.Session.Debts
import LispBridge.Proofs.Session.DebuggerView
import LispBridge.Proofs.Session.Desk
import LispBridge.Proofs.Session.GateUse
import LispBridge.Proofs.Session.GatedOutput
import LispBridge.Proofs.Session.History
import LispBridge.Proofs.Session.Listener
import LispBridge.Proofs.Session.Literals
import LispBridge.Proofs.Session.Moves
import LispBridge.Proofs.Session.Orderly
import LispBridge.Proofs.Session.PastedSource
import LispBridge.Proofs.Session.Queries
import LispBridge.Proofs.Session.Records
import LispBridge.Proofs.Session.Rejection
import LispBridge.Proofs.Session.RelayUse
import LispBridge.Proofs.Session.Restarting
import LispBridge.Proofs.Session.Steps
import LispBridge.Proofs.Session.Turn
import LispBridge.Proofs.Session.Turns
import LispBridge.Proofs.Text.Occurrences
import LispBridge.Proofs.Text.Search
import LispBridge.Proofs.Text.Utf8
import LispBridge.Relay.Desk
import LispBridge.Server
