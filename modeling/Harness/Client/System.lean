/-
# Harness.Client.System — the methods of `HarnessClient`, and the client as a transition system.

Each method is a function on the record, in the order of `client.ts`. `turn` runs the method or the
handler an action starts; `system` is the transition system of turns. Every sequence of calls, socket
callbacks and timers, with every choice of the platform, is the list of actions of some run.

A frame may arrive on a socket until its close event: the platform of the mobile app delivers frames
also after `close()` was called, a browser does not.
-/
import Harness.Client.State
import Harness.Lib.Transition

namespace Harness.Client

open Lib
open Wire (Json CommandKind CommandPayload)

namespace HarnessClient

variable (c : HarnessClient)

/-! ## Helpers -/

def emit (o : Obs) : HarnessClient := { c with out := c.out ++ [o] }

def notify : HarnessClient := c.emit (.notified c.phase c.session.sessionId c.session.lastSeq)

def setPhase (phase : ConnPhase) : HarnessClient := { c with phase := phase }.notify

/-- Write failures are swallowed. -/
def sendEnvelope (i : SocketId) (f : Frame) : HarnessClient := c.emit (.sent i f)

/-- Apply `f` to socket `i`. -/
def modifySocket (i : SocketId) (f : Socket → Socket) : HarnessClient :=
  { c with sockets := c.sockets.modify i f }

/-- `createSocket` returned: one more socket. -/
def createSocket (role : SocketRole) (authorization : Option JsValue) : HarnessClient :=
  let socket : Socket := { role := role, url := c.url, authorization := authorization }
  { c with sockets := c.sockets ++ [socket] }.emit (.created c.sockets.length)

def readyState (i : SocketId) : Option ReadyState := (c.sockets[i]?).map (·.readyState)

/-- `BACKOFF_BASE_MS`, `BACKOFF_FACTOR`, `BACKOFF_MAX_MS`, `BACKOFF_JITTER`. -/
def computeBackoff (attempt : Nat) (random : ℚ) : Int :=
  let raw : ℚ := min 30000 (500 * 2 ^ attempt)
  let jitter : ℚ := 1 + (random * 2 - 1) * (3 / 10)
  max 0 (raw * jitter + 1 / 2).floor

def scheduleReconnect (env : Env) : HarnessClient :=
  if c.closedByUser then c
  else
    let delay := computeBackoff c.retryAttempt env.random
    { { c with retryAttempt := c.retryAttempt + 1, retryInMs := some delay }.setPhase .reconnecting with
      -- a timer that is still running is cleared first
      reconnectTimer := true }

/-- The credential of the `Authorization` header. -/
def authorization : Option JsValue :=
  if c.authMode = .header then c.identity.map (·.credential) else none

/-- A pending full resync forgets the session before the socket is created. -/
def dropSession : HarnessClient :=
  if c.fullResync then { c with session := newSessionState, fullResync := false } else c

/-- The `try` of `openNormalSocket`, and what follows it. -/
def trySocket (env : Env) : HarnessClient :=
  match env.socketError with
  | some text => { c with error := some ⟨.str "socket_error", .str text⟩ }.scheduleReconnect env
  | none => { c with socket := some c.sockets.length }.createSocket .normal c.authorization

/-- `openNormalSocket`. The header is built outside the `try`. -/
def openNormalSocket (env : Env) : HarnessClient :=
  let c := c.setPhase (if c.session.sessionId.isNull then .connecting else .reconnecting)
  if c.authorization.any fun v => !v.templateOk then c.emit .threw
  else c.dropSession.trySocket env

/-- `detachAndClose`. A code the platform refuses leaves the socket open, without handlers. -/
def detachAndClose (env : Env) : HarnessClient :=
  match c.socket with
  | none => c
  | some i =>
      { c with socket := none }.modifySocket i fun s =>
        let s := { s with attached := false }
        if env.closeAccepted then s.close else s

/-! ## Lifecycle -/

def setIdentity (identity : Option Identity) : HarnessClient :=
  { c with identity := identity }.notify

def setLastSeq (seq : JsNumber) : HarnessClient :=
  match seq with
  | .finite q =>
      if q ≤ c.session.lastSeq then c
      else { c with session := { c.session with lastSeq := q } }.notify
  | .infinite _ => c

def reset : HarnessClient :=
  { c with
    closedByUser := false
    session := newSessionState
    error := none
    gapCount := 0
    gapSeq := none
    fullResync := false }

def connect (identity : Option Identity) (env : Env) : HarnessClient :=
  { c with
    identity := identity.or c.identity
    closedByUser := false
    gapCount := 0
    retryAttempt := 0
    retryInMs := none
    reconnectTimer := false }.openNormalSocket env

def close : HarnessClient :=
  let c := { c with closedByUser := true, reconnectTimer := false }
  let c :=
    match c.socket with
    | some i => c.modifySocket i Socket.close
    | none => c
  { c with socket := none }.setPhase .idle

/-- `pair` up to its `await`. -/
def pair (token : String) (url spki : Option String) (env : Env) : HarnessClient :=
  let c := { { c with url := url.getD c.url }.setPhase .pairing with error := none }
  match env.socketError with
  | some _ => c.emit .pairRejected
  | none => c.createSocket (.pairing token spki false) none

/-- `finish`: run `fn` unless the attempt is settled. -/
def finishPairing (i : SocketId) (role : SocketRole) (fn : HarnessClient → HarnessClient) :
    HarnessClient :=
  match role with
  | .pairing token spki false =>
      fn (c.modifySocket i fun s => { s with role := .pairing token spki true })
  | _ => c

/-- Store an issued identity and resolve the promise with it. -/
def issue (i : SocketId) (issued : Identity) : HarnessClient :=
  { c.modifySocket i Socket.close with
    identity := some issued
    resumptions := c.resumptions ++ [issued] }.emit (.paired issued)

/-- Reject the promise with the text of an error frame, a template literal. -/
def refusePairing (i : SocketId) (err : JsRecord) : HarnessClient :=
  (c.modifySocket i Socket.close).emit
    (if (err.get "code").templateOk && (err.get "message").templateOk then .pairRejected else .threw)

/-- `socket.onmessage` of a pairing socket. -/
def pairingMessage (i : SocketId) (role : SocketRole) (env : Envelope) : HarnessClient :=
  match env.inbound with
  | .paired p =>
      c.finishPairing i role fun c =>
        c.issue i
          { deviceId := p.get "deviceId"
            credential := p.get "credential"
            url := c.url
            spki := role.spki.filter (· ≠ "")
            name := p.get "name" }
  | .error err => c.finishPairing i role fun c => c.refusePairing i err
  | _ => c

/-- The rest of `pair`. -/
def resumePair (env : Env) : HarnessClient :=
  match c.resumptions with
  | [] => c
  | identity :: rest => { c with resumptions := rest }.connect (some identity) env

/-! ## Commands -/

/-- `MAX_OUTBOX`. -/
def maxOutbox : Nat := 32

def flushOutbox : HarnessClient :=
  match c.socket with
  | none => c
  | some i =>
      if c.phase = .live ∧ c.readyState i = some .open then
        { c with out := c.out ++ c.outbox.values.map fun cmd => .sent i (.command cmd) }
      else c

def sendCommand (req : Request) (id : String) : HarnessClient :=
  if maxOutbox ≤ c.outbox.size then c.emit .refused
  else
    let command : CommandPayload :=
      { id := id, idempotencyKey := id, kind := req.command.1, payload := some req.command.2 }
    ({ c with
        outbox := c.outbox.set id command
        pending := c.pending.set id ⟨false⟩ }.emit (.issued id c.session.sessionId)).flushOutbox

/-! ## Frames -/

/-- `wasDifferentSession`. -/
def differs (snap : JsRecord) : Bool :=
  !c.session.sessionId.isNull && !c.session.sessionId.strictEq (snap.get "sessionId")

/-- The part of `handleSnapshot` before the phase is decided. Gap tracking is not reset: a streak of
the same gap must reach three. -/
def takeSnapshot (snap : JsRecord) : HarnessClient :=
  let session := applySnapshot c.session snap
  { c with
    session := session
    outbox := if c.differs snap then ∅ else c.outbox
    syncBase := session.lastSeq
    retryAttempt := 0 }.emit (.accepted (snap.get "sessionId") c.session.sessionId)

def handleSnapshot (snap : JsRecord) : HarnessClient :=
  let c := c.takeSnapshot snap
  if c.session.tipSeq ≤ c.session.lastSeq then (c.setPhase .live).flushOutbox
  else c.setPhase .syncing

/-- Count a gap. Three at the same seq: the backlog cannot be replayed, rebuild from a full snapshot. -/
def countGap (seq : JsNumber) : HarnessClient :=
  let count := if c.gapSeq = some seq then c.gapCount + 1 else 1
  if 3 ≤ count then { c with fullResync := true, gapCount := 0, gapSeq := none }
  else { c with gapCount := count, gapSeq := some seq }

/-- `noteGap`; `scheduleReconnect` does nothing for a client closed by the user. -/
def noteGap (seq : JsNumber) (env : Env) : HarnessClient :=
  (((c.countGap seq).emit (.gap seq)).detachAndClose env).scheduleReconnect env

/-- The session after the next event, trimmed. -/
def nextSession (ev : EventPayload) : SessionState :=
  let session := applyEvent c.session ev
  match c.maxItems with
  | some max => { session with items := trimItems session.items max }
  | none => session

/-- The tail of `handleEvent`: the event is the next one. -/
def acceptEvent (ev : EventPayload) : HarnessClient :=
  let session := c.nextSession ev
  let c' :=
    { c with session := session, gapSeq := none, gapCount := 0 }.emit
      (.applied c.session.sessionId ev.seq)
  if session.tipSeq ≤ session.lastSeq ∧ c.phase ≠ .live then (c'.setPhase .live).flushOutbox
  else c'.notify

/-- The seq `handleEvent` goes by: 0 when the member is not a number. -/
def seqOf (ev : JsRecord) : JsNumber :=
  match ev.get "seq" with
  | .num n => n
  | _ => .finite 0

/-- The event as `applyEvent` gets it. -/
def eventOf (ev : JsRecord) (seq : ℚ) : EventPayload :=
  ⟨seq, ev.get "ts", ev.get "kind", ev.get "payload"⟩

def handleEvent (ev : JsRecord) (env : Env) : HarnessClient :=
  let seq := seqOf ev
  if seq.le c.session.lastSeq then c.emit (.discarded c.session.sessionId seq)
  else
    match seq with
    | .infinite _ => c.noteGap seq env
    | .finite q =>
        if c.session.lastSeq + 1 < q then c.noteGap seq env else c.acceptEvent (eventOf ev q)

/-- An event past `lastSeq` is a gap or the next one. -/
theorem handleEvent_of_lt {c : HarnessClient} {ev : JsRecord} {q : ℚ} (hseq : seqOf ev = .finite q)
    (hgt : c.session.lastSeq < q) (env : Env) :
    c.handleEvent ev env =
      if c.session.lastSeq + 1 < q then c.noteGap (.finite q) env else c.acceptEvent (eventOf ev q) := by
  have hnew : ¬ (JsNumber.finite q).le c.session.lastSeq = true := by
    simpa [JsNumber.le] using hgt
  unfold handleEvent
  rw [hseq]
  exact if_neg hnew

/-- The entry of `pending` a frame names, if it is there and not settled. -/
def unsettled (commandId : JsValue) : Option String :=
  match commandId with
  | .str id =>
      match c.pending.get id with
      | some p => if p.settled then none else some id
      | none => none
  | _ => none

/-- Take a settled command out of both maps. -/
def settle (id : String) : HarnessClient :=
  { c with pending := c.pending.delete id, outbox := c.outbox.delete id }

def handleAck (ack : JsRecord) : HarnessClient :=
  match c.unsettled (ack.get "commandId") with
  | some id => (c.settle id).emit (.resolved id)
  | none => c

def handleError (err : JsRecord) (env : Env) : HarnessClient :=
  let error : ClientError := ⟨err.get "code", err.get "message"⟩
  if (err.get "commandId").isFalsy then
    if isTerminalCode (err.get "code") then
      ({ c with error := some error, closedByUser := true }.detachAndClose env).setPhase .unauthorized
    else { c with error := some error }.notify
  else
    match c.unsettled (err.get "commandId") with
    | none => c
    | some id =>
        -- both entries are gone when the template literal of the rejection is evaluated
        if error.code.templateOk && error.message.templateOk then
          (c.settle id).emit (.rejected id error.code)
        else (c.settle id).emit .threw

def handleEnvelope (e : Envelope) (env : Env) : HarnessClient :=
  match e.inbound with
  | .snapshot snap => c.handleSnapshot snap
  | .event ev => c.handleEvent ev env
  | .ack ack => c.handleAck ack
  | .error err => c.handleError err env
  | .paired _ => c
  | .other => c

/-! ## Socket handlers -/

def onopen (i : SocketId) (role : SocketRole) : HarnessClient :=
  match role with
  | .pairing token _ _ => c.sendEnvelope i (.hello (.str "") 0 (some token) none)
  | .normal =>
      let deviceId : JsValue :=
        match c.identity with
        | none => .str ""
        | some identity =>
            match identity.deviceId with
            | .undefined => .str ""
            | .null => .str ""
            | v => v
      let credential := if c.authMode = .hello then c.identity.map (·.credential) else none
      c.sendEnvelope i (.hello deviceId c.session.lastSeq none credential)

def onmessage (i : SocketId) (role : SocketRole) (data : Option Json) (env : Env) : HarnessClient :=
  match data.bind parseEnvelope with
  | none => c
  | some e =>
      match role with
      | .normal => c.handleEnvelope e env
      | .pairing _ _ _ => c.pairingMessage i role e

def onclose (i : SocketId) (role : SocketRole) (code : Option Nat) (env : Env) : HarnessClient :=
  match role with
  | .pairing _ _ _ => c.finishPairing i role fun c => c.emit .pairRejected
  | .normal =>
      if c.closedByUser then c
      else if code = some 1008 ∨ code = some 4001 then c.setPhase .unauthorized
      else if c.phase = .unauthorized ∨ c.phase = .error then c
      else c.scheduleReconnect env

def onerror (i : SocketId) (role : SocketRole) : HarnessClient :=
  match role with
  | .pairing _ _ _ => c.finishPairing i role fun c => c.emit .pairRejected
  -- close follows
  | .normal => c

/-! ## Turns -/

/-- A turn, `none` when the platform cannot start it now. -/
def turn : Action → Option HarnessClient
  | .setIdentity identity => some (c.setIdentity identity)
  | .setLastSeq seq => some (c.setLastSeq seq)
  | .reset => some c.reset
  | .connect identity env => some (c.connect identity env)
  | .close => some c.close
  | .pair token url spki env => some (c.pair token url spki env)
  | .send req id => some (c.sendCommand req id)
  | .resume env => if c.resumptions.isEmpty then none else some (c.resumePair env)
  | .opened i =>
      match c.sockets[i]? with
      | none => none
      | some s =>
          if s.readyState = .connecting then
            some ((c.modifySocket i fun s => { s with readyState := .open }).onopen i s.role)
          else none
  | .message i data env =>
      match c.sockets[i]? with
      | none => none
      | some s =>
          if s.readyState = .closed then none
          else some (if s.attached then c.onmessage i s.role data env else c)
  | .closed i code env =>
      match c.sockets[i]? with
      | none => none
      | some s =>
          if s.readyState = .closed then none
          else
            let c := c.modifySocket i fun s => { s with readyState := .closed }
            some (if s.attached then c.onclose i s.role code env else c)
  | .errored i =>
      match c.sockets[i]? with
      | none => none
      | some s =>
          if s.readyState = .closed then none
          else some (if s.attached then c.onerror i s.role else c)
  | .closing i =>
      match c.sockets[i]? with
      | none => none
      | some _ => some (c.modifySocket i Socket.close)
  | .timer env =>
      if c.reconnectTimer then
        let c := { c with reconnectTimer := false, retryInMs := none }
        some (if c.closedByUser then c else c.openNormalSocket env)
      else none

/-- The platform opens a socket that is connecting. -/
theorem turn_opened {c : HarnessClient} {i : SocketId} {s : Socket} (hi : c.sockets[i]? = some s)
    (hconn : s.readyState = .connecting) :
    c.turn (.opened i) =
      some ((c.modifySocket i fun s => { s with readyState := .open }).onopen i s.role) := by
  simp only [turn, hi]
  exact if_pos hconn

/-- A frame comes in on a socket that is not closed. -/
theorem turn_message {c : HarnessClient} {i : SocketId} {s : Socket} (hi : c.sockets[i]? = some s)
    (hopen : s.readyState ≠ .closed) (data : Option Json) (env : Env) :
    c.turn (.message i data env) = some (if s.attached then c.onmessage i s.role data env else c) := by
  simp only [turn, hi]
  exact if_neg hopen

/-! What an enabled turn is, for the callbacks. -/

theorem of_turn_resume {c c' : HarnessClient} {env : Env} (h : c.turn (.resume env) = some c') :
    c' = c.resumePair env := by
  simp only [turn] at h
  split at h
  · cases h
  · exact (Option.some.inj h).symm

theorem of_turn_opened {c c' : HarnessClient} {i : SocketId} (h : c.turn (.opened i) = some c') :
    ∃ s, c.sockets[i]? = some s ∧ s.readyState = .connecting ∧
      c' = (c.modifySocket i fun s => { s with readyState := .open }).onopen i s.role := by
  simp only [turn] at h
  split at h
  · cases h
  · rename_i s hi
    split at h
    · rename_i hconn
      exact ⟨s, hi, hconn, (Option.some.inj h).symm⟩
    · cases h

theorem of_turn_message {c c' : HarnessClient} {i : SocketId} {data : Option Json} {env : Env}
    (h : c.turn (.message i data env) = some c') :
    ∃ s, c.sockets[i]? = some s ∧ s.readyState ≠ .closed ∧
      c' = if s.attached then c.onmessage i s.role data env else c := by
  simp only [turn] at h
  split at h
  · cases h
  · rename_i s hi
    split at h
    · cases h
    · rename_i hopen
      exact ⟨s, hi, hopen, (Option.some.inj h).symm⟩

theorem of_turn_closed {c c' : HarnessClient} {i : SocketId} {code : Option Nat} {env : Env}
    (h : c.turn (.closed i code env) = some c') :
    ∃ s, c.sockets[i]? = some s ∧ s.readyState ≠ .closed ∧
      c' = if s.attached then
          (c.modifySocket i fun s => { s with readyState := .closed }).onclose i s.role code env
        else c.modifySocket i fun s => { s with readyState := .closed } := by
  simp only [turn] at h
  split at h
  · cases h
  · rename_i s hi
    split at h
    · cases h
    · rename_i hopen
      exact ⟨s, hi, hopen, (Option.some.inj h).symm⟩

theorem of_turn_errored {c c' : HarnessClient} {i : SocketId} (h : c.turn (.errored i) = some c') :
    ∃ s, c.sockets[i]? = some s ∧ c' = if s.attached then c.onerror i s.role else c := by
  simp only [turn] at h
  split at h
  · cases h
  · rename_i s hi
    split at h
    · cases h
    · exact ⟨s, hi, (Option.some.inj h).symm⟩

theorem of_turn_closing {c c' : HarnessClient} {i : SocketId} (h : c.turn (.closing i) = some c') :
    c' = c.modifySocket i Socket.close := by
  simp only [turn] at h
  split at h
  · cases h
  · exact (Option.some.inj h).symm

theorem of_turn_timer {c c' : HarnessClient} {env : Env} (h : c.turn (.timer env) = some c') :
    (c.closedByUser = true ∧ c' = { c with reconnectTimer := false, retryInMs := none }) ∨
      (c.closedByUser = false ∧
        c' = { c with reconnectTimer := false, retryInMs := none }.openNormalSocket env) := by
  simp only [turn] at h
  split at h
  · have hc := (Option.some.inj h).symm
    split at hc
    · rename_i hby
      exact .inl ⟨hby, hc⟩
    · rename_i hby
      exact .inr ⟨Bool.eq_false_iff.mpr hby, hc⟩
  · cases h

/-- A turn starts with nothing seen, what it did is handed to the observer. -/
def step (a : Action) : Option (HarnessClient × List Obs) :=
  (turn { c with out := [] } a).map fun c' => ({ c' with out := [] }, c'.out)

end HarnessClient

/-- The client. -/
def system : Lts HarnessClient Action Obs where
  step := HarnessClient.step

/-- `new HarnessClient(options)`. -/
def HarnessClient.new (url : String) (authMode : AuthMode) (identity : Option Identity)
    (maxItems : Option Nat) : HarnessClient where
  url := url
  authMode := authMode
  identity := identity
  maxItems := maxItems

end Harness.Client
