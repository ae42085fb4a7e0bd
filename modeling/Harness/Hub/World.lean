/-
# Harness.Hub.World — the whole daemon as one transition system.

A `World` is the shared state together with where every goroutine stands: the connections accepted so
far, the ingestion loop of adapter events, and the `harness pair --approve` processes that are between
their two statements. An `Action` names who moves and carries what the environment decides: it is the
schedule. Every interleaving of the goroutines, every failure of a store or adapter call and every
reading of the clock is the list of actions of some run of `system`.
-/
import Harness.Hub.Conn
import Harness.Lib.Transition

namespace Harness.Hub

open Wire Auth Lib

/-! ## The ingestion loop -/

/-- Enter the request a stored event announces into its pending map. -/
def note (h : Hub) (ev : EventPayload) : Hub × List Obs :=
  match ev.kind with
  | .permissionRequest =>
      let body := PermissionRequestBody.decode ev.payload
      ({ h with pending := h.pending.insert body.requestID ⟨body.requestID, body.kind, body.summary⟩ },
        [.noted (.permission body.requestID)])
  | .question =>
      let body := QuestionBody.decode ev.payload
      ({ h with
          pendingQuestions := h.pendingQuestions.insert body.questionID ⟨body.questionID, body.text⟩ },
        [.noted (.question body.questionID)])
  | _ => (h, [])

/-- `ingestAdapterEvents`. An event whose append fails is logged and skipped. -/
def ingestStep (cfg : Config) (h : Hub) :
    IngestPhase → Choice → Option (Hub × IngestPhase × List Obs)
  -- whatever the agent emits is appended: kinds are not filtered
  | .idle, .adapterEvent kind payload => some (h, .append kind payload, [])
  | .append kind payload, .call .ok =>
      match h.store.appendEvent cfg.sessionID kind payload h.now with
      | none => none
      | some (ev, st) => some ({ h with store := st }, .note ev, [.appended .ingest ev])
  | .append _ _, .call (.err _) => some (h, .idle, [])
  -- the log has the event before the pending map does
  | .note ev, .run =>
      let r := note h ev
      some (r.1, .broadcast ev .copy, r.2)
  | .broadcast ev pc, ch =>
      (broadcastStep cfg h ev pc ch).map fun r =>
        (r.1,
          (match r.2.1 with
            | some pc' => .broadcast ev pc'
            | none => .idle),
          r.2.2)
  | _, _ => none

/-! ## Write loops -/

/-- What ends or continues a turn of `client.writeLoop`: a frame is written, a write fails, the
overflow signal is taken, or the context is done. -/
inductive WriteChoice where
  | send
  | sendFailed
  | overflow
  | done
  deriving DecidableEq, Repr

def writeStep (h : Hub) (c : ConnId) (ch : WriteChoice) : Option (Hub × List Obs) :=
  let q := h.outbound c
  let put (q' : Outbound) : Hub := { h with outbound := Function.update h.outbound c q' }
  if q.writing then
    match ch, q.send with
    | .send, f :: rest => some (put { q with send := rest }, [.written c f])
    -- the frame was taken off the queue and is lost
    | .sendFailed, _ :: rest => some (put { q with send := rest, writing := false }, [])
    | .overflow, _ =>
        if q.overflow then some (put { q with overflow := false, writing := false }, []) else none
    | .done, _ => some (put { q with writing := false }, [])
    | _, _ => none
  else none

/-! ## The world -/

structure World where
  hub : Hub
  conns : List ConnPhase
  ingest : IngestPhase
  approving : List (String × String)

/-- Who moves, and what the environment decides. -/
inductive Action where
  /-- a websocket is accepted (`ServeHTTP`) -/
  | accept (authorization remoteAddr userAgent : String)
  | conn (c : ConnId) (ch : Choice)
  | ingest (ch : Choice)
  | write (c : ConnId) (ch : WriteChoice)
  /-- `harness pair --generate`, `--approve` (its check, its update) and `--revoke` -/
  | pairGenerate (raw : Vector UInt8 32) (ttl : Int)
  | pairApproveGet (token name : String)
  | pairApproveSet (token name : String)
  | pairRevoke (deviceID : String)
  | clock (now : Int)

def World.step (cfg : Config) (w : World) : Action → Option (World × List Obs)
  | .accept authorization remoteAddr userAgent =>
      some ({ w with conns := w.conns ++
        [.readHello (Text.trimPrefix authorization "Bearer ") remoteAddr userAgent] }, [])
  | .conn c ch =>
      match w.conns[c]? with
      | none => none
      | some ph =>
          (connStep cfg c w.hub ph ch).map fun r =>
            ({ w with hub := r.1, conns := w.conns.set c r.2.1 }, r.2.2)
  | .ingest ch =>
      (ingestStep cfg w.hub w.ingest ch).map fun r => ({ w with hub := r.1, ingest := r.2.1 }, r.2.2)
  | .write c ch => (writeStep w.hub c ch).map fun r => ({ w with hub := r.1 }, r.2)
  | .pairGenerate raw ttl =>
      let t := pairingToken raw ttl w.hub.now
      (w.hub.store.createPendingToken t.1 t.2).map fun st =>
        ({ w with hub := { w.hub with store := st } }, [.tokenCreated t.1])
  | .pairApproveGet token name =>
      if (peekPairingToken w.hub.store token w.hub.now).isSome then
        some ({ w with approving := (token, name) :: w.approving }, [])
      else none
  | .pairApproveSet token name =>
      -- the check is not repeated: the row may have changed since
      if (token, name) ∈ w.approving then
        match w.hub.store.approvePendingToken token name with
        | some st =>
            some ({ w with
              hub := { w.hub with store := st }
              approving := w.approving.erase (token, name) }, [.approved .outOfBand token])
        | none => some ({ w with approving := w.approving.erase (token, name) }, [])
      else none
  | .pairRevoke deviceID =>
      some ({ w with hub := { w.hub with store := w.hub.store.revokeDevice deviceID } },
        [.revoked deviceID])
  | .clock now => some ({ w with hub := { w.hub with now := now } }, [])

/-- The daemon. -/
def system (cfg : Config) : Lts World Action Obs where
  step := World.step cfg

/-- A daemon that has just started on the database `db`: `serveCmd` created a fresh session, nothing
is connected. -/
def World.init (cfg : Config) (db : Store) (now : Int) : World where
  hub :=
    { store := db.createSession cfg.sessionID
      now := now
      clients := ∅
      outbound := fun _ => {}
      pending := ∅
      pendingQuestions := ∅
      idempotency := ∅ }
  conns := []
  ingest := .idle
  approving := []

/-- The event log of the session. -/
def World.log (cfg : Config) (w : World) : List EventPayload := w.hub.store.events cfg.sessionID

@[simp] theorem World.log_init (cfg : Config) (db : Store) (now : Int) :
    (World.init cfg db now).log cfg = [] := by
  simp [World.log, World.init, Store.createSession]

/-! ## A daemon with two paired devices

The runs that exhibit a behaviour below are runs of this daemon. The digests are the SHA-256 digests of
the two credentials. -/

namespace Sample

def phone : DeviceID := generateID (Vector.replicate 16 0x11)

def tablet : DeviceID := generateID (Vector.replicate 16 0x22)

def hashCredential (s : String) : String :=
  if s = "phone-secret" then "f720e92bf1fd8c5d39e72e5b0b2365bbd3714d91725db6d7316b0af88cd6d218"
  else if s = "tablet-secret" then "2cd6ef4ea7f4a67af337c3156a2cd88ce1277209a777bbc03fd232c99f7d01dc"
  else ""

def config : Config where
  sessionID := "session"
  approver := true
  clientQueueHighWater := 4096
  hashCredential := hashCredential

def database : Store where
  sessions := fun _ => none
  events := fun _ => []
  devices :=
    [⟨phone, "Phone", hashCredential "phone-secret", 0, false⟩,
      ⟨tablet, "Tablet", hashCredential "tablet-secret", 0, false⟩]
  pendingTokens := fun _ => none

def start : World := World.init config database 0

/-- The bytes of a pairing token, and the token on the screen. -/
def tokenBytes : Vector UInt8 32 := Vector.replicate 32 0xab

def token : String := String.ofList (hexEncode tokenBytes.toList)

/-- A client connects as connection `c` with a credential in the header and catches up from `k`. -/
def connect (c : ConnId) (credential : String) (k : Int) : List Action :=
  [.accept ("Bearer " ++ credential) "192.168.1.7:50112" "okhttp/4.12",
    .conn c (.hello { lastSeq := k } .ok), .conn c (.call .ok), .conn c (.call .ok),
    .conn c (.call .ok), .conn c (.call .ok)]

/-- A client without a credential presents a pairing token as connection `c`. The pairing peeks at the
row and tries to consume it. -/
def present (c : ConnId) (token : String) : List Action :=
  [.accept "" "192.168.1.9:50990" "Mozilla/5.0 (Linux; Android 14)",
    .conn c (.hello { pairingToken := token } .ok), .conn c (.call .ok), .conn c (.call .ok)]

/-- A command frame. -/
def command (id : String) (kind : CommandKind) (payload : List (String × Json)) : Choice :=
  .frame { id := id, idempotencyKey := id, kind := kind, payload := some (.obj payload) }

/-- The steps of a handler from its test-and-set to its return, broadcasting to `targets`. -/
def handle (c : ConnId) (targets : List ConnId) : List Action :=
  [.conn c .run, .conn c .run, .conn c (.call .ok), .conn c .run, .conn c (.order targets)] ++
    targets.map (fun _ => .conn c .run) ++ [.conn c .run, .conn c (.call .ok)]

end Sample

end Harness.Hub
