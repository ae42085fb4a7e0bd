/-
# Harness.Client.State — `HarnessClient`, its sockets, and what an observer sees of a turn.

The client is single-threaded: a public call, a socket callback or a timer runs to its end before the
next one starts. Such a run is a TURN. The state between two turns is the record `HarnessClient`: the
private fields of the class under their own names, and beside them the part of the platform the class
talks to, which are the sockets ever created, in order, and the identities a finished pairing has
resolved with but `pair` has not continued on.

`Obs` lists the effects of a turn: what was sent, which commands were issued, refused and settled,
which snapshots were accepted, which events were applied or dropped, and every `notify`.
-/
import Harness.Client.Reducer

namespace Harness.Client

open Lib
open Wire (Json CommandKind CommandPayload)

inductive AuthMode where
  | hello
  | header
  deriving DecidableEq

inductive ConnPhase where
  | idle
  | connecting
  | pairing
  | syncing
  | live
  | reconnecting
  | unauthorized
  | error
  deriving DecidableEq

/-- `HarnessIdentity`. The members a `paired` frame supplies are stored unchecked. -/
structure Identity where
  deviceId : JsValue
  credential : JsValue
  url : String
  spki : Option String
  name : JsValue

structure ClientError where
  code : JsValue
  message : JsValue

/-- A `PendingCommand`; its `resolve` and `reject` are the promise the caller holds. -/
structure PendingCommand where
  settled : Bool
  deriving DecidableEq

/-! ## Sockets -/

/-- `WebSocket.readyState`. It is `closed` from the close event on. -/
inductive ReadyState where
  | connecting
  | open
  | closing
  | closed
  deriving DecidableEq

/-- Which handlers a socket got: those of `attachNormal`, or those of `pair` with its parameters and
its local `settled`. -/
inductive SocketRole where
  | normal
  | pairing (token : String) (spki : Option String) (settled : Bool)
  deriving DecidableEq

def SocketRole.spki : SocketRole → Option String
  | .normal => none
  | .pairing _ spki _ => spki

/-- A socket is known by its position in the order of creation. -/
abbrev SocketId := Nat

/-- `attached` says that `onmessage`, `onerror` and `onclose` are set; `onopen` is never cleared.
`authorization` is the credential of the `Bearer` header. -/
structure Socket where
  role : SocketRole
  url : String
  authorization : Option JsValue
  readyState : ReadyState := .connecting
  attached : Bool := true

/-- `socket.close()`. -/
def Socket.close (s : Socket) : Socket :=
  if s.readyState = .closed then s else { s with readyState := .closing }

/-! ## Observations -/

/-- A frame the client sends. `JSON.stringify` leaves out what is undefined. -/
inductive Frame where
  | hello (deviceId : JsValue) (lastSeq : ℚ) (pairingToken : Option String)
      (credential : Option JsValue)
  | command (cmd : CommandPayload)

inductive Obs where
  | created (i : SocketId)
  | sent (i : SocketId) (f : Frame)
  /-- a command was queued; `sessionId` is the session the client was in -/
  | issued (id : String) (sessionId : JsValue)
  /-- `offline_queue_full` -/
  | refused
  /-- the promise of a command was resolved, or rejected with an error that starts with `code` -/
  | resolved (id : String)
  | rejected (id : String) (code : JsValue)
  /-- a snapshot was accepted while the client was in session `was` -/
  | accepted (sessionId was : JsValue)
  /-- an event was applied to, or dropped as a duplicate in, session `sessionId` -/
  | applied (sessionId : JsValue) (seq : ℚ)
  | discarded (sessionId : JsValue) (seq : JsNumber)
  /-- a gap was noted -/
  | gap (seq : JsNumber)
  /-- `pair` stored an issued identity, or its promise was rejected -/
  | paired (identity : Identity)
  | pairRejected
  /-- an exception left the turn -/
  | threw
  /-- the listeners ran -/
  | notified (phase : ConnPhase) (sessionId : JsValue) (lastSeq : ℚ)

/-! ## The client -/

/-- `out` collects what the current turn did; it is empty between turns. -/
structure HarnessClient where
  url : String
  authMode : AuthMode
  identity : Option Identity
  maxItems : Option Nat
  socket : Option SocketId := none
  session : SessionState := newSessionState
  phase : ConnPhase := .idle
  error : Option ClientError := none
  retryAttempt : Nat := 0
  retryInMs : Option Int := none
  reconnectTimer : Bool := false
  syncBase : ℚ := 0
  gapSeq : Option JsNumber := none
  gapCount : Nat := 0
  fullResync : Bool := false
  closedByUser : Bool := false
  outbox : OrderedMap String CommandPayload := ∅
  pending : OrderedMap String PendingCommand := ∅
  sockets : List Socket := []
  resumptions : List Identity := []
  out : List Obs := []

/-- What the platform decides during a turn: whether `createSocket` throws and with which text, what
`random` returns, and whether `socket.close(code, reason)` takes the code (browsers throw on 1008 and
1011, which the client ignores). -/
structure Env where
  socketError : Option String := none
  random : ℚ := 1 / 2
  closeAccepted : Bool := true

/-- The public commands. -/
inductive Request where
  | sendPrompt (text : String)
  | answerPermission (requestId : String) (allow : Bool) (allowAlways : Option Bool)
  | answerQuestion (questionId text : String)
  | setMode (mode : String)
  | interrupt

/-- The kind and body a request is queued with. -/
def Request.command : Request → CommandKind × Json
  | .sendPrompt text => (.sendPrompt, .obj [("text", .str text)])
  | .answerPermission requestId allow allowAlways =>
      (.answerPermission, .obj ([("requestId", .str requestId), ("allow", .bool allow)] ++
        (match allowAlways with
          | some v => [("allowAlways", .bool v)]
          | none => [])))
  | .answerQuestion questionId text =>
      (.answerQuestion, .obj [("questionId", .str questionId), ("text", .str text)])
  | .setMode mode => (.setMode, .obj [("mode", .str mode)])
  | .interrupt => (.interrupt, .obj [])

/-- What starts a turn. -/
inductive Action where
  /-- public calls; `id` is what `uuid()` returns -/
  | setIdentity (identity : Option Identity)
  | setLastSeq (seq : JsNumber)
  | reset
  | connect (identity : Option Identity) (env : Env)
  | close
  | pair (token : String) (url spki : Option String) (env : Env)
  | send (req : Request) (id : String)
  /-- `pair` continues after its `await` -/
  | resume (env : Env)
  /-- callbacks of socket `i`; `data` is what `JSON.parse` makes of the message, if anything -/
  | opened (i : SocketId)
  | message (i : SocketId) (data : Option Json) (env : Env)
  | closed (i : SocketId) (code : Option Nat) (env : Env)
  | errored (i : SocketId)
  /-- the connection starts to go down, without an event yet -/
  | closing (i : SocketId)
  /-- the reconnect timer fires -/
  | timer (env : Env)

end Harness.Client
