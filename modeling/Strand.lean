import Strand.Channel.Basic
import Strand.Channel.Crowd
import Strand.Channel.Ring
import Strand.Channel.Session
import Strand.Channel.Shared
import Strand.Crew.Basic
import Strand.Crew.Error
import Strand.Crew.Session
import Strand.Crew.Worker
import Strand.Decimal.Binary64
import Strand.Decimal.Shortest
import Strand.Error
import Strand.ErrorSlot
import Strand.Files
import Strand.Handle.Basic
import Strand.Handle.Table
import Strand.Log
import Strand.Memory
import Strand.Pipeline
import Strand.Host.Basic
import Strand.Host.Call
import Strand.Host.Program
import Strand.Host.Step
import Strand.Settings.Basic
import Strand.Settings.Document
import Strand.Settings.Error
import Strand.Settings.Source
import Strand.System
import Strand.Text.Printable
import Strand.Text.Quoted
import Strand.Toml.Document
import Strand.Toml.Lexeme
import Strand.Toml.Mark
import Strand.Toml.Moment
import Strand.Toml.Number
import Strand.Toml.Reader
import Strand.Toml.Span
import Strand.Toml.Text
import Strand.Toml.Value
import Strand.Proofs.Lists
import Strand.Proofs.Channel.Ring
import Strand.Proofs.Channel.Turn
import Strand.Proofs.Channel.History
import Strand.Proofs.Channel.Conservation
import Strand.Proofs.Channel.Parking
import Strand.Proofs.Channel.Wakeup
import Strand.Proofs.Channel.Rest
import Strand.Proofs.Channel.Closing
import Strand.Proofs.ErrorSlots
import Strand.Proofs.Handle.Word
import Strand.Proofs.Handle.Slots
import Strand.Proofs.Handle.Registry
import Strand.Proofs.Handle.Refinement
import Strand.Proofs.Crew.Life
import Strand.Proofs.Crew.Counters
import Strand.Proofs.Host.Stakes
import Strand.Proofs.Host.Run
import Strand.Proofs.Host.Claims
import Strand.Proofs.Host.Handover
import Strand.Proofs.Host.Joins
import Strand.Proofs.Host.Turns
import Strand.Proofs.Host.Leads
import Strand.Proofs.Host.Channelled
import Strand.Proofs.Host.Routing
import Strand.Proofs.Settings.Layers
import Strand.Proofs.Host.Crewed
import Strand.Proofs.Host.Codes
import Strand.Proofs.Toml.Lines
import Strand.Proofs.Settings.RoundTrip
import Strand.Proofs.Pipeline.Chores
import Strand.Proofs.Pipeline.Parts
import Strand.Proofs.Pipeline.Staff
import Strand.Proofs.Pipeline.Progress
import Strand.Proofs.Pipeline.Effort
import Strand.Proofs.Pipeline.Delivery
import Strand.Proofs.Channel.Figures
import Strand.Proofs.Crew.Verdicts
import Strand.Proofs.Host.Sealed
import Strand.Proofs.Handle.InPlace
import Strand.Proofs.Handle.Refusals
import Strand.Proofs.Handle.Growth
import Strand.Proofs.Handle.Cycles
import Strand.Proofs.Host.InForce
import Strand.Proofs.Crew.Attempts
import Strand.Proofs.Crew.Without
import Strand.Proofs.Host.Spawns
import Strand.Proofs.Toml.Distinct
import Strand.Proofs.Settings.ByKey
import Strand.Proofs.Settings.Repeats
import Strand.Proofs.Host.Twin
import Strand.Proofs.Host.SideBySide
import Strand.Proofs.Channel.Collecting
import Strand.Proofs.Channel.Queue
import Strand.Proofs.Handle.Packing
import Strand.Proofs.Handle.Upkeep
import Strand.Proofs.Host.Tokens
