/-
# Harness.Wire.Encode — what the daemon puts on the wire.

The JSON `encoding/json` produces for the messages the hub sends, field for field as the struct tags
of `internal/protocol/types.go` say: `omitempty` drops a member whose value is the empty string, the
zero number or an empty slice, everything else is always there.

`HostBody` lists the event bodies the hub and its adapters marshal. A `HostLog` is an event log made of
them: numbered from 1, each event carrying such a body. `Seq` is an `int64`, so a log has fewer than
`2 ^ 63` events.
-/
import Harness.Wire.Protocol
import Mathlib.Algebra.Group.Nat.Defs

namespace Harness.Wire

/-! ## Kinds -/

/-- The wire string of an event kind. -/
def EventKind.string : EventKind → String
  | .textDelta => "text_delta"
  | .toolCallStart => "tool_call_start"
  | .toolCallEnd => "tool_call_end"
  | .permissionRequest => "permission_request"
  | .question => "question"
  | .permissionResolved => "permission_resolved"
  | .questionResolved => "question_resolved"
  | .modeChanged => "mode_changed"
  | .turnComplete => "turn_complete"
  | .statusChange => "status_change"
  | .usageUpdate => "usage_update"
  | .error => "error"
  | .userPrompt => "user_prompt"
  | .other s => s

/-- The kind a wire string names. -/
def EventKind.ofString (s : String) : EventKind :=
  match [EventKind.textDelta, .toolCallStart, .toolCallEnd, .permissionRequest, .question,
    .permissionResolved, .questionResolved, .modeChanged, .turnComplete, .statusChange, .usageUpdate,
    .error, .userPrompt].find? fun k => k.string == s with
  | some k => k
  | none => .other s

/-- The values of `ErrorPayload.Code`. -/
def ErrorCode.string : ErrorCode → String
  | .authRequired => "auth_required"
  | .pairingDenied => "pairing_denied"
  | .deviceMismatch => "device_mismatch"
  | .serverError => "server_error"
  | .badRequest => "bad_request"
  | .alreadyResolved => "already_resolved"
  | .unsupportedCommand => "unsupported_command"
  | .agentError => "agent_error"

/-! ## Members -/

namespace Json

/-- An integer. -/
def int (n : Int) : Json := .num ⟨n, 0⟩

/-- A member under `omitempty`: strings, integers, slices. -/
def omitString (key s : String) : List (String × Json) := if s = "" then [] else [(key, .str s)]

def omitInt (key : String) (n : Int) : List (String × Json) := if n = 0 then [] else [(key, int n)]

def omitList (key : String) (xs : List Json) : List (String × Json) :=
  if xs = [] then [] else [(key, .arr xs)]

end Json

/-! ## Event bodies -/

def PermissionRequestBody.toJson (b : PermissionRequestBody) : Json :=
  .obj [("requestId", .str b.requestID), ("kind", .str b.kind), ("summary", .str b.summary)]

def QuestionBody.toJson (b : QuestionBody) : Json :=
  .obj [("questionId", .str b.questionID), ("text", .str b.text)]

structure TextDeltaBody where
  content : String
  deriving DecidableEq, Repr

structure ToolCallBody where
  name : String := ""
  input : String := ""
  output : String := ""
  deriving DecidableEq, Repr

structure UsageUpdateBody where
  inputTokens : Int
  outputTokens : Int
  deriving DecidableEq, Repr

def TextDeltaBody.toJson (b : TextDeltaBody) : Json := .obj [("content", .str b.content)]

def ToolCallBody.toJson (b : ToolCallBody) : Json :=
  .obj (("name", .str b.name) :: Json.omitString "input" b.input ++ Json.omitString "output" b.output)

def UsageUpdateBody.toJson (b : UsageUpdateBody) : Json :=
  .obj [("inputTokens", .int b.inputTokens), ("outputTokens", .int b.outputTokens)]

@[simp] theorem PermissionRequestBody.decode_toJson (b : PermissionRequestBody) :
    decode b.toJson = b := rfl

@[simp] theorem QuestionBody.decode_toJson (b : QuestionBody) : decode b.toJson = b := rfl

/-- The bodies `handleCommand` and the adapters marshal. A mode is only ever set to a non-empty
string, `handleCommand` refuses the empty one. -/
inductive HostBody where
  | userPrompt (b : UserPromptBody)
  | textDelta (b : TextDeltaBody)
  | toolCallStart (b : ToolCallBody)
  | toolCallEnd (b : ToolCallBody)
  | permissionRequest (b : PermissionRequestBody)
  | question (b : QuestionBody)
  | permissionResolved (b : PermissionResolvedBody)
  | questionResolved (b : QuestionResolvedBody)
  | modeChanged (b : ModeChangedBody) (hmode : b.mode ≠ "")
  | turnComplete
  | statusChange (b : StatusChangeBody)
  | usageUpdate (b : UsageUpdateBody)
  /-- a stdout line that does not decode -/
  | error (message : String)

namespace HostBody

/-- The kind a body is stored under. -/
def kind : HostBody → EventKind
  | userPrompt _ => .userPrompt
  | textDelta _ => .textDelta
  | toolCallStart _ => .toolCallStart
  | toolCallEnd _ => .toolCallEnd
  | permissionRequest _ => .permissionRequest
  | question _ => .question
  | permissionResolved _ => .permissionResolved
  | questionResolved _ => .questionResolved
  | modeChanged _ _ => .modeChanged
  | turnComplete => .turnComplete
  | statusChange _ => .statusChange
  | usageUpdate _ => .usageUpdate
  | error _ => .error

def toJson : HostBody → Json
  | userPrompt b => b.toJson
  | textDelta b => b.toJson
  | toolCallStart b => b.toJson
  | toolCallEnd b => b.toJson
  | permissionRequest b => b.toJson
  | question b => b.toJson
  | permissionResolved b => b.toJson
  | questionResolved b => b.toJson
  | modeChanged b _ => b.toJson
  | turnComplete => .obj []
  | statusChange b => b.toJson
  | usageUpdate b => b.toJson
  | error message => .obj [("error", .str message)]

end HostBody

/-- **`HostEvent ev`** — `ev` carries a body the host marshalled, under its kind. -/
def HostEvent (ev : EventPayload) : Prop := ∃ b : HostBody, ev.kind = b.kind ∧ ev.payload = b.toJson

/-- An event log of the host. -/
structure HostLog where
  events : List EventPayload
  numbered : ∀ i (h : i < events.length), events[i].seq = i + 1
  bodies : ∀ ev ∈ events, HostEvent ev
  int64 : events.length < 2 ^ 63

namespace HostLog

def length (L : HostLog) : Nat := L.events.length

theorem seq_lt (L : HostLog) {i : Nat} (h : i < L.events.length) : L.events[i].seq < 2 ^ 63 := by
  rw [L.numbered i h]
  exact Nat.lt_of_le_of_lt h L.int64

/-- The first `n` events. -/
def take (L : HostLog) (n : Nat) : HostLog where
  events := L.events.take n
  numbered i h := by
    rw [List.getElem_take]
    exact L.numbered i _
  bodies ev h := L.bodies ev (List.mem_of_mem_take h)
  int64 := Nat.lt_of_le_of_lt (List.length_take_le' n L.events) L.int64

/-- The log of the given bodies, one event a second. -/
def ofBodies (bs : List HostBody) (h : bs.length < 2 ^ 63) : HostLog where
  events := bs.mapIdx fun i b => ⟨i + 1, 1000 * (i + 1), b.kind, b.toJson⟩
  numbered i h := by simp
  bodies ev hev := by
    obtain ⟨i, hi, rfl⟩ := List.mem_mapIdx.mp hev
    exact ⟨bs[i], rfl, rfl⟩
  int64 := by simpa using h

end HostLog

/-! ## Messages -/

/-- `EventPayload`; `payload` has no `omitempty`. -/
def EventPayload.toJson (ev : EventPayload) : Json :=
  .obj [("seq", .int ev.seq), ("ts", .int ev.ts), ("kind", .str ev.kind.string),
    ("payload", ev.payload)]

def PermissionView.toJson (v : PermissionView) : Json :=
  .obj [("requestId", .str v.requestID), ("kind", .str v.kind), ("summary", .str v.summary)]

def QuestionView.toJson (v : QuestionView) : Json :=
  .obj [("questionId", .str v.questionID), ("text", .str v.text)]

def DeviceView.toJson (v : DeviceView) : Json :=
  .obj [("deviceId", .str v.deviceID.val), ("name", .str v.name)]

/-- The members of a `SnapshotPayload`. -/
def SnapshotPayload.members (p : SnapshotPayload) : List (String × Json) :=
  [("sessionId", .str p.sessionID), ("status", .str p.status)] ++ Json.omitString "mode" p.mode ++
    [("lastSeq", .int p.lastSeq)] ++
    Json.omitList "pendingPermissions" (p.pendingPermissions.map PermissionView.toJson) ++
    Json.omitList "pendingQuestions" (p.pendingQuestions.map QuestionView.toJson) ++
    Json.omitList "devices" (p.devices.map DeviceView.toJson)

/-- `protocol.Envelope`: the version, the type, and the payload under the type's member. -/
def Envelope.toJson : Envelope → Json
  | .snapshot p =>
      .obj [("v", .int 1), ("type", .str "snapshot"), ("snapshot", .obj p.members)]
  | .event ev => .obj [("v", .int 1), ("type", .str "event"), ("event", ev.toJson)]
  | .ack commandID seq =>
      .obj [("v", .int 1), ("type", .str "ack"),
        ("ack", .obj (("commandId", .str commandID) :: Json.omitInt "seq" seq))]
  | .error commandID code message =>
      .obj [("v", .int 1), ("type", .str "error"),
        ("error", .obj (Json.omitString "commandId" commandID ++
          [("code", .str code.string), ("message", .str message)]))]
  | .paired deviceID name credential =>
      .obj [("v", .int 1), ("type", .str "paired"),
        ("paired", .obj [("deviceId", .str deviceID.val), ("name", .str name),
          ("credential", .str credential)])]

end Harness.Wire
