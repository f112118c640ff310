import Proximity.Monitor
import Proximity.Host.Stream
import Proximity.Proofs.Bytes
import Proximity.Proofs.Bytes.Hex
import Proximity.Proofs.Bytes.Words
import Proximity.Proofs.Text.Delimited
import Proximity.Proofs.Text.Decimal
import Proximity.Proofs.Text.Utf8
import Proximity.Proofs.Identifier.Text
import Proximity.Proofs.Identifier.Forms
import Proximity.Proofs.Identifier.Order
import Proximity.Proofs.Layout.Grammar
import Proximity.Proofs.Layout.Compile
import Proximity.Proofs.Layout.Faults
import Proximity.Proofs.Layout.Language
import Proximity.Proofs.Layout.Rejection
import Proximity.Proofs.Layout.Spelling
import Proximity.Proofs.Layout.Positions
import Proximity.Proofs.Layout.Accessors
import Proximity.Proofs.Layout.Payload
import Proximity.Proofs.Layout.Encoding
import Proximity.Proofs.Layout.Reading
import Proximity.Proofs.Layout.RoundTrip
import Proximity.Proofs.Layout.Decoding
import Proximity.Proofs.Layout.Appending
import Proximity.Proofs.Layout.Values
import Proximity.Proofs.Layout.WideService
import Proximity.Proofs.Layout.Known
import Proximity.Proofs.Layout.Misreading
import Proximity.Proofs.Advertisement
import Proximity.Proofs.Advertisement.Summary
import Proximity.Proofs.Advertisement.Framing
import Proximity.Proofs.Advertisement.Length
import Proximity.Proofs.SignalWindow.Run
import Proximity.Proofs.SignalWindow.History
import Proximity.Proofs.SignalWindow.Looks
import Proximity.Proofs.SignalWindow.Queues
import Proximity.Proofs.Tracker.Operations
import Proximity.Proofs.Tracker.Sighting
import Proximity.Proofs.Tracker.Expiry
import Proximity.Proofs.Tracker.Run
import Proximity.Proofs.Tracker.Presence
import Proximity.Proofs.Tracker.Pending
import Proximity.Proofs.Tracker.Balance
import Proximity.Proofs.Tracker.Snapshot
import Proximity.Proofs.Tracker.Cadence
import Proximity.Proofs.Tracker.Leniency
import Proximity.Proofs.Tracker.View
import Proximity.Proofs.Tracker.Reordering
import Proximity.Proofs.Host.Json.Writer
import Proximity.Proofs.Host.Json.Reader
import Proximity.Proofs.Host.Message
import Proximity.Proofs.Host.Message.Size
import Proximity.Proofs.Host.LineReader
import Proximity.Proofs.Host.LineReader.Runs
import Proximity.Proofs.Host.Stream
import Proximity.Proofs.Host.Command.Members
import Proximity.Proofs.Host.Command.Text
import Proximity.Proofs.Monitor.Run
import Proximity.Proofs.Monitor.Processing
import Proximity.Proofs.Monitor.Host
import Proximity.Proofs.Monitor.Commands
import Proximity.Proofs.Monitor.Recognition
import Proximity.Proofs.Monitor.KnownTypes
import Proximity.Proofs.Monitor.Limits
import Proximity.Proofs.Monitor.Isolation
import Proximity.Proofs.Monitor.Shelter
import Proximity.Proofs.Guarded.Operations
import Proximity.Proofs.Guarded.Layout
import Proximity.Proofs.Guarded.Codec
import Proximity.Proofs.Guarded.Scan
import Proximity.Proofs.Guarded.Faultless
