/-
# Harness.Hub.State — the hub, its goroutines, and what an observer sees of a run.

The hub of `internal/hub/hub.go` is a set of maps behind one mutex, used by goroutines: one for each
websocket connection (`ServeHTTP`), one write loop for each registered client, and the ingestion loop
of adapter events. `harness pair` is another process on the same database.

A goroutine is represented by where it stands (`ConnPhase`, `IngestPhase`): every phase is a point
between two accesses to shared state, so that one step performs at most one critical section, one
store call, one channel operation or one adapter call. `Hub` is the shared state.

`Obs` lists the externally meaningful effects of a step. It is what the laws of the hub are stated
about: an event entered the log, a frame was put on a client's queue, a command was handed to the
adapter, a credential was issued.
-/
import Harness.Auth
import Harness.Wire.Text
import Mathlib.Data.Finset.Insert
import Mathlib.Data.Finset.Basic

namespace Harness

open Wire

namespace Hub

/-- A connection is identified by its position in the order of accepted websockets. -/
abbrev ConnId := Nat

/-- `hub.Config`, the queue bound and the digest function. `approver` says whether an `Approver` is
installed. -/
structure Config where
  sessionID : String
  approver : Bool
  clientQueueHighWater : Nat
  hashCredential : String → String

/-- The outbound side of a `client`: its `send` and `overflow` channels, and whether its `writeLoop`
still runs. -/
structure Outbound where
  send : List Envelope := []
  overflow : Bool := false
  writing : Bool := false

end Hub

open Hub in
/-- The state goroutines share: the database, the wall clock, and the maps of `hub.Hub`. A client is
known by its connection. -/
structure Hub where
  store : Store
  now : Int
  clients : Finset ConnId
  outbound : ConnId → Outbound
  pending : GoMap PermissionView
  pendingQuestions : GoMap QuestionView
  idempotency : Finset String

namespace Hub

/-! ## Requests and answers, permissions and questions alike -/

/-- A pending action of the agent, by the id the agent chose. -/
inductive Ask where
  | permission (requestID : String)
  | question (questionID : String)
  deriving DecidableEq, Repr

/-- What a device answered. -/
inductive Answer where
  | permission (requestID : String) (allow : Bool)
  | question (questionID text : String)
  deriving DecidableEq, Repr

def Answer.ask : Answer → Ask
  | .permission r _ => .permission r
  | .question q _ => .question q

/-- Membership in `h.pending` or `h.pendingQuestions`. -/
def isPending (h : Hub) : Ask → Bool
  | .permission r => decide (r ∈ h.pending)
  | .question q => decide (q ∈ h.pendingQuestions)

/-- The request an event announces. -/
def requestOf (ev : EventPayload) : Option Ask :=
  match ev.kind with
  | .permissionRequest => some (.permission (PermissionRequestBody.decode ev.payload).requestID)
  | .question => some (.question (QuestionBody.decode ev.payload).questionID)
  | _ => none

/-- The answer an event records, with the device it names. -/
def resolutionOf (ev : EventPayload) : Option (Answer × String) :=
  match ev.kind with
  | .permissionResolved =>
      let body := PermissionResolvedBody.decode ev.payload
      some (.permission body.requestID body.allow, body.byDevice)
  | .questionResolved =>
      let body := QuestionResolvedBody.decode ev.payload
      some (.question body.questionID body.text, body.byDevice)
  | _ => none

/-- The event kind and body `handleCommand` appends for a command of device `dev`. -/
def commandEvent (dev : DeviceID) : AgentCommand → EventKind × Json
  | .sendPrompt body => (.userPrompt, UserPromptBody.toJson ⟨body.text, dev.val⟩)
  | .answerPermission body =>
      (.permissionResolved, PermissionResolvedBody.toJson ⟨body.requestID, body.allow, dev.val⟩)
  | .answerQuestion body =>
      (.questionResolved, QuestionResolvedBody.toJson ⟨body.questionID, body.text, dev.val⟩)
  | .setMode body => (.modeChanged, ModeChangedBody.toJson ⟨body.mode, dev.val⟩)
  | .interrupt => (.statusChange, StatusChangeBody.toJson ⟨"idle"⟩)

/-- The answer a command carries to the agent. -/
def answerOf : AgentCommand → Option Answer
  | .answerPermission body => some (.permission body.requestID body.allow)
  | .answerQuestion body => some (.question body.questionID body.text)
  | _ => none

/-! ## Where a goroutine stands -/

/-- `broadcast`: before the client set is copied, or with the clients still to be served. -/
inductive BroadcastPc where
  | copy
  | send (rest : List ConnId)
  deriving DecidableEq, Repr

/-- What `handlePairing` was called with. -/
structure Attempt where
  token : String
  remoteAddr : String
  userAgent : String
  deriving DecidableEq, Repr

/-- `handlePairing`. `approveGet` and `approveSet` are the two statements of `ApprovePairingToken`. -/
inductive PairPc where
  | peek
  | consume
  | request
  | approveGet (name : String)
  | approveSet (name : String)
  | consumeApproved (name : String)
  | issue (name : String)
  deriving DecidableEq, Repr

/-- `serveAuthenticated` up to its read loop. `getSession` and `getEvents` are the two statements of
`GetSnapshot`. -/
inductive ServePc where
  | getSession
  | getEvents (sess : Session)
  | getSince (snap : Snapshot)
  | register (snap : Snapshot) (events : List EventPayload)

/-- `handleCommand`. `out` is the command that goes to the adapter once its event is in the log;
`reject` is the error frame of an exit after the key was recorded. -/
inductive HandlerPc where
  | start
  | replay
  | execute
  | append (out : AgentCommand)
  | ack (ev : EventPayload) (out : AgentCommand)
  | broadcast (ev : EventPayload) (out : AgentCommand) (pc : BroadcastPc)
  | command (ev : EventPayload) (out : AgentCommand)
  | reject (code : ErrorCode) (message : String)

/-- A connection goroutine. `dev` is `c.deviceID`, `k` is `hello.LastSeq`. -/
inductive ConnPhase where
  | readHello (headerCred remoteAddr userAgent : String)
  | pairing (p : Attempt) (pc : PairPc)
  | serving (dev : DeviceID) (k : Int) (pc : ServePc)
  | reading (dev : DeviceID)
  | handling (dev : DeviceID) (cmd : CommandPayload) (pc : HandlerPc)
  | closed

/-- `ingestAdapterEvents`. -/
inductive IngestPhase where
  | idle
  | append (kind : EventKind) (payload : Json)
  | note (ev : EventPayload)
  | broadcast (ev : EventPayload) (pc : BroadcastPc)

/-! ## Observations -/

/-- Who appended an event: the ingestion loop, or a command identified by its connection, its device
and its idempotency key. -/
inductive Writer where
  | ingest
  | command (c : ConnId) (dev : DeviceID) (key : String)
  deriving DecidableEq

/-- Who approved a pairing token. -/
inductive Approval where
  | conn (c : ConnId)
  | outOfBand
  deriving DecidableEq, Repr

inductive Obs where
  /-- the catch-up batch was enqueued and the client entered `h.clients` -/
  | registered (c : ConnId) (dev : DeviceID) (k : Int)
  /-- the idempotency key was new and is now recorded, or had been seen -/
  | accepted (c : ConnId) (dev : DeviceID) (key : String)
  | suppressed (c : ConnId) (dev : DeviceID) (key : String)
  /-- an answer removed its request from the pending map; the ingestion loop entered one -/
  | claimed (c : ConnId) (a : Ask)
  | noted (a : Ask)
  /-- `AppendEvent` succeeded -/
  | appended (w : Writer) (ev : EventPayload)
  | acked (c : ConnId) (dev : DeviceID) (key : String)
  /-- an error frame answered a command whose key had been recorded -/
  | rejected (c : ConnId) (dev : DeviceID) (key : String) (code : ErrorCode)
  /-- `adapter.Command` was called, and whether it succeeded -/
  | handed (c : ConnId) (dev : DeviceID) (key : String) (cmd : AgentCommand) (ok : Bool)
  /-- `enqueueRaw`: queued, or dropped because the queue was full -/
  | enqueued (c : ConnId) (f : Envelope)
  | dropped (c : ConnId) (f : Envelope)
  /-- written by the client's write loop, or directly to the connection -/
  | written (c : ConnId) (f : Envelope)
  | direct (c : ConnId) (f : Envelope)
  /-- pairing tokens and credentials -/
  | tokenCreated (token : String)
  | approverSaid (c : ConnId) (token : String) (ok : Bool)
  | approved (a : Approval) (token : String)
  | consumed (c : ConnId) (token : String)
  | issued (c : ConnId) (token : String) (dev : DeviceID) (credential : String)
  /-- `IssueCredential` was called, and returned an error -/
  | issueFailed (c : ConnId) (token : String)
  | revoked (deviceID : String)

/-! ## What the environment decides at a step -/

/-- The result of a call that may fail. -/
inductive Outcome where
  | ok
  | err (message : String)
  deriving DecidableEq, Repr

/-- The choice a step of a goroutine depends on. -/
inductive Choice where
  /-- nothing to decide -/
  | run
  /-- a store or adapter call returns -/
  | call (out : Outcome)
  /-- the hello frame, and whether the credential lookup answers -/
  | hello (p : HelloPayload) (out : Outcome)
  /-- `RequestApproval` returns -/
  | approval (name : Option String)
  /-- the random sources return -/
  | fresh (id : Vector UInt8 16) (credential : Vector UInt8 32)
  /-- the next frame of an authenticated client: a command, or something the read loop skips -/
  | frame (cmd : CommandPayload)
  | skip
  /-- the iteration order of `h.clients` -/
  | order (targets : List ConnId)
  /-- the next event on the adapter's channel -/
  | adapterEvent (kind : EventKind) (payload : Json)
  /-- the peer is gone, or the random source failed -/
  | gone

end Hub

end Harness
