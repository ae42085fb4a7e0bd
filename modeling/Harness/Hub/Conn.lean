/-
# Harness.Hub.Conn — the connection goroutine, one step at a time.

`connStep` follows `handleConnection`, `handlePairing`, `serveAuthenticated` and `handleCommand`: for
each point a goroutine can stand at and each choice of the environment it gives the shared state
afterwards, the next point, and what is observed. `none` means the choice does not fit the point.

The order of the steps of one goroutine is the order of the source; what other goroutines do between
two of them is up to the scheduler.
-/
import Harness.Hub.State

namespace Harness.Hub

open Wire Auth

/-! ## Outbound queues -/

/-- `c.send <- data` with its default case: queue the frame, or flag the overflow. -/
def Outbound.offer (cap : Nat) (q : Outbound) (f : Envelope) : Outbound :=
  if q.send.length < cap then { q with send := q.send ++ [f] } else { q with overflow := true }

/-- `enqueueRaw`. -/
def enqueueRaw (cfg : Config) (h : Hub) (c : ConnId) (f : Envelope) : Hub × Obs :=
  ({ h with outbound := Function.update h.outbound c ((h.outbound c).offer cfg.clientQueueHighWater f) },
    if (h.outbound c).send.length < cfg.clientQueueHighWater then .enqueued c f else .dropped c f)

/-- Enqueue a batch in order. -/
def enqueueAll (cfg : Config) (h : Hub) (c : ConnId) : List Envelope → Hub × List Obs
  | [] => (h, [])
  | f :: fs =>
      let r := enqueueRaw cfg h c f
      let rs := enqueueAll cfg r.1 c fs
      (rs.1, r.2 :: rs.2)

/-- `broadcast`: copy the client set, then serve the copied clients one by one. -/
def broadcastStep (cfg : Config) (h : Hub) (ev : EventPayload) :
    BroadcastPc → Choice → Option (Hub × Option BroadcastPc × List Obs)
  -- under the read lock; a map is iterated in any order
  | .copy, .order targets =>
      if targets.Nodup ∧ targets.toFinset = h.clients then some (h, some (.send targets), []) else none
  -- a client that left since the copy is still offered the event
  | .send (t :: rest), .run =>
      let r := enqueueRaw cfg h t (.event ev)
      some (r.1, some (.send rest), [r.2])
  | .send [], .run => some (h, none, [])
  | _, _ => none

/-! ## handlePairing -/

/-- `sendError` with code `pairing_denied`, then the connection is closed. -/
def deny (h : Hub) (c : ConnId) (message : String) : Hub × ConnPhase × List Obs :=
  (h, .closed, [.direct c (.error "" .pairingDenied message)])

/-- `nameFromUserAgent` of the hub. -/
def nameFromUserAgent : String → String :=
  Text.nameFromTable (Text.platforms ++ [(["okhttp", "react"], "Mobile")])

def pairStep (cfg : Config) (c : ConnId) (h : Hub) (p : Attempt) :
    PairPc → Choice → Option (Hub × ConnPhase × List Obs)
  | .peek, .call .ok =>
      if (peekPairingToken h.store p.token h.now).isSome then some (h, .pairing p .consume, [])
      else some (deny h c "pairing token invalid, expired, or already used")
  | .peek, .call (.err _) => some (deny h c "pairing token invalid, expired, or already used")
  | .consume, .call out =>
      -- a token approved out of band is consumed directly
      let r := if out = .ok then consumePairingToken h.store p.token h.now else (none, h.store)
      let h' := { h with store := r.2 }
      match r.1 with
      | some name => some (h', .pairing p (.issue name), [.consumed c p.token])
      | none =>
          if cfg.approver then some (h', .pairing p .request, [])
          else some (deny h' c "pairing token not approved")
  | .request, .approval none =>
      let r := deny h c "pairing not approved on host"
      some (r.1, r.2.1, .approverSaid c p.token false :: r.2.2)
  -- the operator's name, or one guessed from the user agent
  | .request, .approval (some n) =>
      let name := Text.trimSpace n
      let name := if name = "" then nameFromUserAgent p.userAgent else name
      some (h, .pairing p (.approveGet name), [.approverSaid c p.token true])
  | .approveGet name, .call out =>
      if out = .ok ∧ (peekPairingToken h.store p.token h.now).isSome then
        some (h, .pairing p (.approveSet name), [])
      else some (deny h c "pairing token invalid or expired")
  -- no check in this statement: it approves an expired row as well
  | .approveSet name, .call out =>
      match (if out = .ok then h.store.approvePendingToken p.token name else none) with
      | some st => some ({ h with store := st }, .pairing p (.consumeApproved name),
          [.approved (.conn c) p.token])
      | none => some (deny h c "pairing token invalid or expired")
  | .consumeApproved name, .call out =>
      -- the result only refreshes the name; a failure is not an exit
      let r := if out = .ok then consumePairingToken h.store p.token h.now else (none, h.store)
      let h' := { h with store := r.2 }
      match r.1 with
      | some n => some (h', .pairing p (.issue n), [.consumed c p.token])
      | none => some (h', .pairing p (.issue name), [])
  | .issue _, .gone => some (h, .closed, [])
  | .issue _, .call (.err msg) =>
      some (h, .closed, [.issueFailed c p.token, .direct c (.error "" .serverError msg)])
  | .issue name, .fresh id raw =>
      let dev := generateID id
      let r := issueCredential h.store cfg.hashCredential dev name raw h.now
      some ({ h with store := r.2 }, .closed,
        [.issued c p.token dev r.1, .direct c (.paired dev name r.1)])
  | _, _ => none

/-! ## serveAuthenticated -/

/-- `sendError` with code `server_error`, then the connection is closed. -/
def fail (h : Hub) (c : ConnId) (message : String) : Hub × ConnPhase × List Obs :=
  (h, .closed, [.direct c (.error "" .serverError message)])

/-- `snapshotToPayload`: the roster lists the unrevoked devices, and is left out when the devices
cannot be read. -/
def snapshotToPayload (h : Hub) (snap : Snapshot) (devicesRead : Bool) : SnapshotPayload where
  sessionID := snap.sessionID
  status := snap.status
  mode := snap.mode
  lastSeq := snap.lastSeq
  pendingPermissions := snap.pendingPermissions
  pendingQuestions := snap.pendingQuestions
  devices :=
    if devicesRead then
      (h.store.listDevices.filter fun d => !d.revoked).map fun d => ⟨d.deviceID, d.name⟩
    else []

def serveStep (cfg : Config) (c : ConnId) (h : Hub) (dev : DeviceID) (k : Int) :
    ServePc → Choice → Option (Hub × ConnPhase × List Obs)
  | .getSession, .call .ok =>
      match h.store.sessions cfg.sessionID with
      | none => some (fail h c ("session not found: " ++ cfg.sessionID))
      | some sess => some (h, .serving dev k (.getEvents sess), [])
  | .getSession, .call (.err msg) => some (fail h c msg)
  | .getEvents sess, .call .ok =>
      let snap := Store.snapshotOf cfg.sessionID sess (h.store.events cfg.sessionID)
      some (h, .serving dev k (.getSince snap), [])
  | .getEvents _, .call (.err msg) => some (fail h c msg)
  -- no limit, and no lock: the client is not in `h.clients` yet
  | .getSince snap, .call .ok =>
      some (h, .serving dev k (.register snap (h.store.getEventsSince cfg.sessionID k 0)), [])
  | .getSince _, .call (.err msg) => some (fail h c msg)
  | .register snap events, .call out =>
      -- one critical section: enter the client set and queue snapshot and catch-up
      let h1 := { h with
        clients := insert c h.clients
        outbound := Function.update h.outbound c { writing := true } }
      let batch := .snapshot (snapshotToPayload h snap (out = .ok)) :: events.map .event
      let r := enqueueAll cfg h1 c batch
      some (r.1, .reading dev, .registered c dev k :: r.2)
  | _, _ => none

/-! ## handleCommand -/

/-- The idempotency key in force: an empty one stands for the command id. -/
def key (cmd : CommandPayload) : String :=
  if cmd.idempotencyKey = "" then cmd.id else cmd.idempotencyKey

/-- `idempKey`, the entry in `h.idempotency`. -/
def idempKey (dev : DeviceID) (k : String) : String := dev.val ++ ":" ++ k

/-- Remove an answered request from its pending map. -/
def claim (h : Hub) : Ask → Hub
  | .permission r => { h with pending := h.pending.erase r }
  | .question q => { h with pendingQuestions := h.pendingQuestions.erase q }

/-- The switch of `handleCommand` up to the append: decode the payload, and for an answer claim the
pending request. -/
def execute (c : ConnId) (h : Hub) (cmd : CommandPayload) : Hub × HandlerPc × List Obs :=
  match cmd.kind with
  | .sendPrompt =>
      match SendPromptBody.decode cmd.payload with
      | none => (h, .reject .badRequest "invalid send_prompt payload", [])
      | some body => (h, .append (.sendPrompt body), [])
  | .answerPermission =>
      match AnswerPermissionBody.decode cmd.payload with
      | none => (h, .reject .badRequest "invalid answer_permission payload", [])
      | some body =>
          if h.isPending (.permission body.requestID) then
            (h.claim (.permission body.requestID), .append (.answerPermission body),
              [.claimed c (.permission body.requestID)])
          else
            (h, .reject .alreadyResolved "permission request already resolved or unknown", [])
  | .answerQuestion =>
      match AnswerQuestionBody.decode cmd.payload with
      | none => (h, .reject .badRequest "invalid answer_question payload", [])
      | some body =>
          if h.isPending (.question body.questionID) then
            (h.claim (.question body.questionID), .append (.answerQuestion body),
              [.claimed c (.question body.questionID)])
          else (h, .reject .alreadyResolved "question already resolved or unknown", [])
  | .setMode =>
      match SetModeBody.decode cmd.payload with
      | none => (h, .reject .badRequest "invalid set_mode payload", [])
      | some body =>
          if body.mode = "" then (h, .reject .badRequest "invalid set_mode payload", [])
          else (h, .append (.setMode body), [])
  | .interrupt => (h, .append .interrupt, [])
  | .other s => (h, .reject .unsupportedCommand s, [])

def handleStep (cfg : Config) (c : ConnId) (h : Hub) (dev : DeviceID) (cmd : CommandPayload) :
    HandlerPc → Choice → Option (Hub × ConnPhase × List Obs)
  | .start, .run =>
      -- answered before any key is recorded
      if cmd.id = "" then
        let r := enqueueRaw cfg h c (.error "" .badRequest "command id required")
        some (r.1, .reading dev, [r.2])
      else if idempKey dev (key cmd) ∈ h.idempotency then
        some (h, .handling dev cmd .replay, [.suppressed c dev (key cmd)])
      else
        some ({ h with idempotency := insert (idempKey dev (key cmd)) h.idempotency },
          .handling dev cmd .execute, [.accepted c dev (key cmd)])
  -- whatever became of the first receipt
  | .replay, .run =>
      let r := enqueueRaw cfg h c (.ack cmd.id 0)
      some (r.1, .reading dev, [.acked c dev (key cmd), r.2])
  | .execute, .run =>
      let r := execute c h cmd
      some (r.1, .handling dev cmd r.2.1, r.2.2)
  | .append out, .call .ok =>
      let e := commandEvent dev out
      match h.store.appendEvent cfg.sessionID e.1 e.2 h.now with
      | none => none
      | some (ev, st) =>
          some ({ h with store := st }, .handling dev cmd (.ack ev out),
            [.appended (.command c dev (key cmd)) ev])
  -- a claimed request is not put back
  | .append _, .call (.err msg) => some (h, .handling dev cmd (.reject .serverError msg), [])
  | .ack ev out, .run =>
      let r := enqueueRaw cfg h c (.ack cmd.id ev.seq)
      some (r.1, .handling dev cmd (.broadcast ev out .copy), [.acked c dev (key cmd), r.2])
  | .broadcast ev out pc, ch =>
      (broadcastStep cfg h ev pc ch).map fun r =>
        (r.1,
          .handling dev cmd
            (match r.2.1 with
              | some pc' => .broadcast ev out pc'
              | none => .command ev out),
          r.2.2)
  | .command _ out, .call .ok => some (h, .reading dev, [.handed c dev (key cmd) out true])
  -- the event is in the log and was acked all the same
  | .command _ out, .call (.err msg) =>
      some (h, .handling dev cmd (.reject .agentError msg),
        [.handed c dev (key cmd) out false])
  | .reject code msg, .run =>
      let r := enqueueRaw cfg h c (.error cmd.id code msg)
      some (r.1, .reading dev, [.rejected c dev (key cmd) code, r.2])
  | _, _ => none

/-! ## handleConnection -/

/-- The credential in force: the header beats the hello frame. -/
def effectiveCredential (headerCred : String) (hello : HelloPayload) : String :=
  if headerCred = "" then hello.credential else headerCred

/-- `handleConnection` after `readHello`: validate the credential in force (at most one lookup),
and dispatch. A credential that does not validate falls through to pairing. -/
def handleConnection (cfg : Config) (c : ConnId) (h : Hub) (headerCred remoteAddr userAgent : String)
    (hello : HelloPayload) (out : Outcome) : ConnPhase × List Obs :=
  let cred := effectiveCredential headerCred hello
  match (if cred ≠ "" ∧ out = .ok then validateCredential h.store cfg.hashCredential cred else none) with
  | some dev =>
      -- an empty device id is filled in
      if hello.deviceID ≠ "" ∧ hello.deviceID ≠ dev.val then
        (.closed, [.direct c (.error "" .deviceMismatch "device id does not match credential")])
      else (.serving dev hello.lastSeq .getSession, [])
  | none =>
      if hello.pairingToken = "" then
        (.closed, [.direct c (.error "" .authRequired "credential or pairing token required")])
      else (.pairing ⟨hello.pairingToken, remoteAddr, userAgent⟩ .peek, [])

/-- One step of the goroutine serving connection `c`. -/
def connStep (cfg : Config) (c : ConnId) (h : Hub) :
    ConnPhase → Choice → Option (Hub × ConnPhase × List Obs)
  | .readHello headerCred remoteAddr userAgent, .hello p out =>
      let r := handleConnection cfg c h headerCred remoteAddr userAgent p out
      some (h, r.1, r.2)
  | .readHello _ _ _, .gone => some (h, .closed, [])
  | .pairing p pc, ch => pairStep cfg c h p pc ch
  | .serving dev k pc, ch => serveStep cfg c h dev k pc ch
  | .reading dev, .frame cmd => some (h, .handling dev cmd .start, [])
  | .reading dev, .skip => some (h, .reading dev, [])
  -- the deferred delete
  | .reading _, .gone => some ({ h with clients := h.clients.erase c }, .closed, [])
  | .handling dev cmd pc, ch => handleStep cfg c h dev cmd pc ch
  | _, _ => none

end Harness.Hub
