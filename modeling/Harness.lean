import Harness.Lib.Transition
import Harness.Lib.Recorded
import Harness.Lib.Threads
import Harness.Lib.Fanout
import Harness.Lib.OrderedMap
import Harness.Lib.LastWriter
import Harness.Lib.Outstanding
import Harness.Lib.Causal
import Harness.Wire.Json
import Harness.Wire.JsonText
import Harness.Wire.Protocol
import Harness.Wire.Text
import Harness.Wire.Encode
import Harness.Wire.Decode
import Harness.Lib.Coalesce
import Harness.Lib.Reopened
import Harness.Lib.Window
import Harness.Lib.Lifo
import Harness.Lib.NumberText
import Harness.Lib.Paging
import Harness.Lib.Lines
import Harness.Lib.Ranking
import Harness.Lib.Transit
import Harness.Store
import Harness.Store.Append
import Harness.Auth
import Harness.Hub.State
import Harness.Hub.Conn
import Harness.Hub.World
import Harness.Hub.Inversion
import Harness.Hub.Frame
import Harness.Hub.Replies
import Harness.Hub.FirstWriteWins
import Harness.Hub.Idempotency
import Harness.Hub.Pairing
import Harness.Hub.Approval
import Harness.Hub.Flights
import Harness.Hub.Delivery
import Harness.Hub.HostWords
import Harness.Hub.AgentOrder
import Harness.Hub.Authentication
import Harness.Hub.Decision
import Harness.Hub.Revocation
import Harness.Hub.Queues
import Harness.Hub.PendingLog
import Harness.Hub.Lives
import Harness.Hub.Joining
import Harness.Hub.WriteLoop
import Harness.Hub.Backlog
import Harness.Hub.AgentRefusal
import Harness.Claude.Adapter
import Harness.Claude.Ingestion
import Harness.Claude.Stdout
import Harness.Claude.Stdin
import Harness.Claude.Answers
import Harness.Console
import Harness.Net
import Harness.Hub.Grants
import Harness.Admission
import Harness.Qr
import Harness.Qr.Trust
import Harness.Listen
import Harness.Cert
import Harness.Cert.Report
import Harness.Cert.Stability
import Harness.Client.Value
import Harness.Client.Reducer
import Harness.Client.State
import Harness.Client.System
import Harness.Client.Inversion
import Harness.Client.Identity
import Harness.Client.HostFrames
import Harness.Client.Convergence
import Harness.Client.Items
import Harness.Client.Turns
import Harness.Claude.Tools
import Harness.Client.Clamp
import Harness.Client.Tail
import Harness.Client.Notices
import Harness.Client.Standing
import Harness.Client.Cards
import Harness.Client.Stream
import Harness.Client.Keys
import Harness.Client.Frames
import Harness.Client.Readings
import Harness.Client.Attribution
import Harness.Client.Outbox
import Harness.Client.Promises
import Harness.Client.Sockets
import Harness.Client.Reconnect
import Harness.Client.Position
import Harness.Client.Mobile
import Harness.Client.Lifecycle
import Harness.Client.MobilePairing
import Harness.Client.PairingPayload
import Harness.Client.PairingForms
import Harness.Client.Flush
import Harness.Client.FrameText
import Harness.Client.Tls
import Harness.Network
import Harness.Network.Wiring
import Harness.Network.Move
import Harness.Network.CommandOrder
import Harness.Network.Screen
import Harness.Network.CaughtUp
import Harness.Network.Meaning
import Harness.Network.Kept
import Harness.Network.Spoken
import Harness.Network.Texts
