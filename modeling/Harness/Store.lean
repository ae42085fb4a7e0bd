/-
# Harness.Store — the SQLite store: event log, device registry, pending tokens.

Every operation is one statement or one transaction, so it is one atomic function on the tables.
Whether the database answers at all (`SQLITE_BUSY`, a failed commit) is decided by the caller's
environment, see `Harness.Hub.Conn`; the functions here are the successful executions, with `none`
where the statement itself reports an error.

Times are Unix nanoseconds (`time.Now()`); columns hold milliseconds, as in the schema.
-/
import Harness.Wire.Protocol
import Mathlib.Data.List.Sort
import Mathlib.Logic.Function.Basic

namespace Harness

open Wire

/-- A Go `map[string]V`. Iteration order is unspecified in Go; here it is the order of the entries. -/
abbrev GoMap (V : Type) := AList fun _ : String => V

/-- The values of a map, in iteration order. -/
def GoMap.values {V : Type} (m : GoMap V) : List V := m.entries.map (·.2)

/-- The columns of `sessions` the daemon reads. -/
structure Session where
  status : String
  lastSeq : Nat
  deriving DecidableEq, Repr

/-- A row of `devices`. -/
structure Device where
  deviceID : DeviceID
  name : String
  credentialHash : String
  pairedAt : Int
  revoked : Bool
  deriving DecidableEq

/-- A row of `pending_tokens`. -/
structure PendingToken where
  token : String
  name : String
  approved : Bool
  expiresAt : Int
  deriving DecidableEq, Repr

/-- `time.Now().After(pt.ExpiresAt)`. -/
def PendingToken.expired (pt : PendingToken) (now : Int) : Bool :=
  decide (pt.expiresAt * 1000000 < now)

/-- `store.Snapshot`: the materialized state derived from the event log. -/
structure Snapshot where
  sessionID : String
  status : String
  mode : String
  lastSeq : Nat
  pendingPermissions : List PermissionView
  pendingQuestions : List QuestionView

/-- The tables. `events s` are the rows of session `s` in primary key order. -/
structure Store where
  sessions : String → Option Session
  events : String → List EventPayload
  devices : List Device
  pendingTokens : String → Option PendingToken

/-- `time.UnixMilli` of a nanosecond clock. -/
def unixMilli (now : Int) : Int := now / 1000000

namespace Store

/-! ## Sessions and events -/

/-- `CreateSession`: a new session row under a fresh random id, which has no events yet. -/
def createSession (db : Store) (sessionID : String) : Store :=
  { db with
    sessions := Function.update db.sessions sessionID (some { status := "idle", lastSeq := 0 })
    events := Function.update db.events sessionID [] }

/-- `AppendEvent`: increment `last_seq`, insert the event under it (a duplicate primary key is an
error), refresh the denormalized status. -/
def appendEvent (db : Store) (sessionID : String) (kind : EventKind) (payload : Json) (now : Int) :
    Option (EventPayload × Store) :=
  match db.sessions sessionID with
  | none => none
  | some sess =>
      let seq := sess.lastSeq + 1
      if (db.events sessionID).any (·.seq == seq) then none
      else
        let ev : EventPayload := { seq := seq, ts := unixMilli now, kind := kind, payload := payload }
        -- a body that does not decode leaves the column as it is
        let status :=
          if kind = .statusChange then
            ((StatusChangeBody.decodeStrict payload).map (·.status)).getD sess.status
          else sess.status
        some (ev,
          { db with
            sessions := Function.update db.sessions sessionID
              (some { status := status, lastSeq := seq })
            events := Function.update db.events sessionID (db.events sessionID ++ [ev]) })

/-- `GetEventsSince`: the events with `seq > sinceSeq` in order; a positive limit bounds them. -/
def getEventsSince (db : Store) (sessionID : String) (sinceSeq : Int) (limit : Nat) :
    List EventPayload :=
  let rows := (db.events sessionID).filter fun ev => decide (sinceSeq < ev.seq)
  if 0 < limit then rows.take limit else rows

/-- The accumulator of the loop in `GetSnapshot`. -/
structure SnapshotFold where
  status : String
  mode : String
  lastSeq : Nat
  pending : GoMap PermissionView
  pendingQ : GoMap QuestionView

/-- The body of the loop in `GetSnapshot`. -/
def SnapshotFold.step (acc : SnapshotFold) (ev : EventPayload) : SnapshotFold :=
  let acc := { acc with lastSeq := ev.seq }
  match ev.kind with
  | .statusChange => { acc with status := (StatusChangeBody.decode ev.payload).status }
  | .modeChanged => { acc with mode := (ModeChangedBody.decode ev.payload).mode }
  | .permissionRequest =>
      let body := PermissionRequestBody.decode ev.payload
      { acc with pending := acc.pending.insert body.requestID ⟨body.requestID, body.kind, body.summary⟩ }
  | .permissionResolved =>
      { acc with pending := acc.pending.erase (PermissionResolvedBody.decode ev.payload).requestID }
  | .question =>
      let body := QuestionBody.decode ev.payload
      { acc with pendingQ := acc.pendingQ.insert body.questionID ⟨body.questionID, body.text⟩ }
  | .questionResolved =>
      { acc with pendingQ := acc.pendingQ.erase (QuestionResolvedBody.decode ev.payload).questionID }
  | _ => acc

/-- `GetSnapshot` after its two reads: the session row and the events. -/
def snapshotOf (sessionID : String) (sess : Session) (events : List EventPayload) : Snapshot :=
  let acc := events.foldl SnapshotFold.step
    -- the row's values stand only while the log has nothing to say
    { status := sess.status, mode := "", lastSeq := sess.lastSeq, pending := ∅, pendingQ := ∅ }
  { sessionID := sessionID
    status := acc.status
    mode := acc.mode
    lastSeq := acc.lastSeq
    pendingPermissions := acc.pending.values
    pendingQuestions := acc.pendingQ.values }

/-- `GetSnapshot` when nothing happens between its two reads. -/
def getSnapshot (db : Store) (sessionID : String) : Option Snapshot :=
  (db.sessions sessionID).map fun sess => snapshotOf sessionID sess (db.events sessionID)

/-! ## Devices -/

/-- `AddDevice`: insert, or on a known device id replace name and credential and clear `revoked`. -/
def addDevice (db : Store) (deviceID : DeviceID) (name hash : String) (now : Int) : Store :=
  { db with
    devices :=
      if db.devices.any (·.deviceID == deviceID) then
        db.devices.map fun d =>
          if d.deviceID = deviceID then { d with name := name, credentialHash := hash, revoked := false }
          else d
      else
        db.devices ++ [{ deviceID := deviceID, name := name, credentialHash := hash,
                         pairedAt := unixMilli now, revoked := false }] }

/-- `GetDeviceByCredential`: the first unrevoked device with that credential hash. -/
def getDeviceByHash (db : Store) (hash : String) : Option Device :=
  db.devices.find? fun d => d.credentialHash == hash && !d.revoked

/-- `RevokeDevice`. -/
def revokeDevice (db : Store) (deviceID : String) : Store :=
  { db with
    devices := db.devices.map fun d =>
      if d.deviceID.val = deviceID then { d with revoked := true } else d }

/-- `ListDevices`: newest pairing first. -/
def listDevices (db : Store) : List Device :=
  db.devices.insertionSort fun a b => b.pairedAt ≤ a.pairedAt

/-! ## Pending tokens -/

/-- `CreatePendingToken`; the token is the primary key. -/
def createPendingToken (db : Store) (token : String) (expiresAt : Int) : Option Store :=
  match db.pendingTokens token with
  | some _ => none
  | none =>
      some { db with
        pendingTokens := Function.update db.pendingTokens token
          (some { token := token, name := "", approved := false, expiresAt := expiresAt }) }

/-- `ApprovePendingToken`: fails when no row has that token. -/
def approvePendingToken (db : Store) (token name : String) : Option Store :=
  match db.pendingTokens token with
  | none => none
  | some pt =>
      some { db with
        pendingTokens := Function.update db.pendingTokens token
          (some { pt with name := name, approved := true }) }

def deletePendingToken (db : Store) (token : String) : Store :=
  { db with pendingTokens := Function.update db.pendingTokens token none }

/-- `ConsumePendingToken`: delete an approved, unexpired token and return it. An expired one is
deleted too but not returned; an unapproved one stays. -/
def consumePendingToken (db : Store) (token : String) (now : Int) : Option PendingToken × Store :=
  match db.pendingTokens token with
  | none => (none, db)
  | some pt =>
      if pt.expired now then (none, db.deletePendingToken token)
      else if pt.approved then (some pt, db.deletePendingToken token)
      else (none, db)

/-! ## What each operation changes -/

/-- Everything an append does: it stores exactly one event, under the next seq, at the end of the
session's log, and touches no other table. -/
theorem appendEvent_spec {db db' : Store} {sid : String} {kind : EventKind} {payload : Json}
    {now : Int} {ev : EventPayload} (h : db.appendEvent sid kind payload now = some (ev, db')) :
    (∃ sess, db.sessions sid = some sess ∧ ev.seq = sess.lastSeq + 1 ∧
      ∃ status, (kind ≠ .statusChange → status = sess.status) ∧
        db'.sessions = Function.update db.sessions sid (some ⟨status, sess.lastSeq + 1⟩)) ∧
    ev.kind = kind ∧ ev.payload = payload ∧
    db'.events = Function.update db.events sid (db.events sid ++ [ev]) ∧
    db'.devices = db.devices ∧ db'.pendingTokens = db.pendingTokens := by
  unfold appendEvent at h
  split at h
  · cases h
  · rename_i sess hs
    simp only at h
    split at h
    · cases h
    · simp only [Option.some.injEq, Prod.mk.injEq] at h
      obtain ⟨rfl, rfl⟩ := h
      exact ⟨⟨sess, hs, rfl, _, fun hk => if_neg hk, rfl⟩, rfl, rfl, rfl, rfl, rfl⟩

/-- Unlimited catch-up is the part of the log beyond the given seq. -/
theorem getEventsSince_unlimited (db : Store) (sid : String) (k : Int) :
    db.getEventsSince sid k 0 = (db.events sid).filter fun ev => decide (k < ev.seq) := rfl

theorem getDeviceByHash_spec {db : Store} {hash : String} {d : Device}
    (h : db.getDeviceByHash hash = some d) :
    d ∈ db.devices ∧ d.credentialHash = hash ∧ d.revoked = false := by
  have hp := List.find?_some h
  simp only [Bool.and_eq_true, beq_iff_eq, Bool.not_eq_true'] at hp
  exact ⟨List.mem_of_find?_eq_some h, hp⟩

/-- The three outcomes of a consumption. Only the first returns the token. -/
theorem consumePendingToken_cases (db : Store) (token : String) (now : Int) :
    (∃ pt, db.pendingTokens token = some pt ∧ pt.approved = true ∧
        pt.expired now = false ∧
        db.consumePendingToken token now = (some pt, db.deletePendingToken token)) ∨
    (∃ pt, db.pendingTokens token = some pt ∧
        db.consumePendingToken token now = (none, db.deletePendingToken token)) ∨
    db.consumePendingToken token now = (none, db) := by
  unfold consumePendingToken
  split
  · exact .inr (.inr rfl)
  · rename_i pt hpt
    split
    · exact .inr (.inl ⟨pt, hpt, rfl⟩)
    · split
      · rename_i hexp happ
        exact .inl ⟨pt, hpt, happ, by simpa using hexp, rfl⟩
      · exact .inr (.inr rfl)

end Store

end Harness
