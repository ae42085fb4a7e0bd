/-
# Harness.Wire.Protocol — the message types of `internal/protocol`.

Kinds are enumerations with an `other` case (the Go types are open strings: a client may send any
command kind, an adapter may emit any event kind). Every body has the fields of its Go struct; the
bodies the hub marshals have a `toJson`, the bodies it reads have a strict `decode` (command
payloads, an error is answered) or a lax one (`_ = json.Unmarshal`, an error is ignored).

A device id is a string of 32 hexadecimal digits by construction: the only producer of device ids is
`generateID`, which hex-encodes 16 random bytes.
-/
import Harness.Wire.Json
import Mathlib.Data.List.AList

namespace Harness.Wire

open Json (Field)

/-! ## Kinds -/

/-- `protocol.EventKind`. -/
inductive EventKind where
  | textDelta | toolCallStart | toolCallEnd | permissionRequest | question | permissionResolved
  | questionResolved | modeChanged | turnComplete | statusChange | usageUpdate | error | userPrompt
  | other (s : String)
  deriving DecidableEq, Repr

/-- `protocol.CommandKind`. -/
inductive CommandKind where
  | sendPrompt | answerPermission | answerQuestion | interrupt | setMode
  | other (s : String)
  deriving DecidableEq, Repr

/-- The wire string of a command kind, as the hub echoes it in `unsupported_command`. -/
def CommandKind.string : CommandKind → String
  | .sendPrompt => "send_prompt"
  | .answerPermission => "answer_permission"
  | .answerQuestion => "answer_question"
  | .interrupt => "interrupt"
  | .setMode => "set_mode"
  | .other s => s

/-! ## Device ids -/

/-- A lower case hexadecimal digit. -/
def isHexDigit (c : Char) : Bool := ('0' ≤ c && c ≤ '9') || ('a' ≤ c && c ≤ 'f')

/-- A device id: 32 hexadecimal digits. -/
structure DeviceID where
  val : String
  hex : val.toList.length = 32 ∧ val.toList.all isHexDigit = true
  deriving DecidableEq

theorem DeviceID.ext {d e : DeviceID} (h : d.val = e.val) : d = e := by
  cases d
  cases e
  cases h
  rfl

def hexDigit (n : Nat) : Char := "0123456789abcdef".toList.getD n '0'

theorem isHexDigit_hexDigit (n : Nat) : isHexDigit (hexDigit n) = true := by
  by_cases h : n < 16
  · have key : ∀ k < 16, isHexDigit (hexDigit k) = true := by decide
    exact key n h
  · have hlen : "0123456789abcdef".toList.length ≤ n := Nat.le_of_not_lt h
    have hd : hexDigit n = '0' := by simp only [hexDigit, List.getD, List.getElem?_eq_none hlen,
      Option.getD_none]
    rw [hd]
    decide

/-- `hex.EncodeToString`. -/
def hexEncode (bs : List UInt8) : List Char :=
  bs.flatMap fun b => [hexDigit (b.toNat / 16), hexDigit (b.toNat % 16)]

theorem hexEncode_length (bs : List UInt8) : (hexEncode bs).length = 2 * bs.length := by
  induction bs with
  | nil => rfl
  | cons b bs ih =>
      simp only [hexEncode, List.flatMap_cons, List.length_append, List.length_cons,
        List.length_nil] at ih ⊢
      omega

theorem hexEncode_all (bs : List UInt8) : (hexEncode bs).all isHexDigit = true := by
  simp only [hexEncode, List.all_eq_true, List.mem_flatMap]
  rintro c ⟨b, _, hc⟩
  simp only [List.mem_cons, List.not_mem_nil, or_false] at hc
  rcases hc with rfl | rfl <;> exact isHexDigit_hexDigit _

/-- `generateID` from the 16 bytes the random source returned. -/
def generateID (b : Vector UInt8 16) : DeviceID where
  val := String.ofList (hexEncode b.toList)
  hex := by
    rw [String.toList_ofList, hexEncode_length, b.length_toList]
    exact ⟨rfl, hexEncode_all _⟩

/-! ## Messages -/

/-- `protocol.HelloPayload`. -/
structure HelloPayload where
  deviceID : String := ""
  lastSeq : Int := 0
  pairingToken : String := ""
  credential : String := ""
  deriving DecidableEq, Repr

/-- `protocol.EventPayload`. -/
structure EventPayload where
  seq : Nat
  ts : Int
  kind : EventKind
  payload : Json
  deriving Repr

/-- `protocol.CommandPayload`; an absent `payload` is `none`. -/
structure CommandPayload where
  id : String
  idempotencyKey : String := ""
  kind : CommandKind
  payload : Option Json := none
  deriving Repr

structure PermissionView where
  requestID : String
  kind : String
  summary : String
  deriving DecidableEq, Repr

structure QuestionView where
  questionID : String
  text : String
  deriving DecidableEq, Repr

structure DeviceView where
  deviceID : DeviceID
  name : String
  deriving DecidableEq

/-- `protocol.SnapshotPayload` (`recentEvents` is never populated). -/
structure SnapshotPayload where
  sessionID : String
  status : String
  mode : String
  lastSeq : Nat
  pendingPermissions : List PermissionView
  pendingQuestions : List QuestionView
  devices : List DeviceView

/-- The values of `ErrorPayload.Code` the hub uses. -/
inductive ErrorCode where
  | authRequired | pairingDenied | deviceMismatch | serverError | badRequest | alreadyResolved
  | unsupportedCommand | agentError
  deriving DecidableEq, Repr

/-- `protocol.Envelope`, host to client: one constructor for each message type the hub sends. -/
inductive Envelope where
  | snapshot (p : SnapshotPayload)
  | event (ev : EventPayload)
  | ack (commandID : String) (seq : Nat)
  | error (commandID : String) (code : ErrorCode) (message : String)
  | paired (deviceID : DeviceID) (name credential : String)

/-! ## Command bodies -/

structure SendPromptBody where
  text : String := ""
  deriving DecidableEq, Repr

structure AnswerPermissionBody where
  requestID : String := ""
  allow : Bool := false
  allowAlways : Bool := false
  deriving DecidableEq, Repr

structure AnswerQuestionBody where
  questionID : String := ""
  text : String := ""
  deriving DecidableEq, Repr

structure SetModeBody where
  mode : String := ""
  deriving DecidableEq, Repr

def SendPromptBody.decode : Option Json → Option SendPromptBody :=
  Json.decode [Field.string "text" fun s b => { b with text := s }] {}

def AnswerPermissionBody.decode : Option Json → Option AnswerPermissionBody :=
  Json.decode [Field.string "requestId" fun s b => { b with requestID := s },
    Field.bool "allow" fun v b => { b with allow := v },
    Field.bool "allowAlways" fun v b => { b with allowAlways := v }] {}

def AnswerQuestionBody.decode : Option Json → Option AnswerQuestionBody :=
  Json.decode [Field.string "questionId" fun s b => { b with questionID := s },
    Field.string "text" fun s b => { b with text := s }] {}

def SetModeBody.decode : Option Json → Option SetModeBody :=
  Json.decode [Field.string "mode" fun s b => { b with mode := s }] {}

/-- `agent.Command`: the kind and its payload, as handed to the adapter. -/
inductive AgentCommand where
  | sendPrompt (body : SendPromptBody)
  | answerPermission (body : AnswerPermissionBody)
  | answerQuestion (body : AnswerQuestionBody)
  | setMode (body : SetModeBody)
  | interrupt
  deriving DecidableEq, Repr

/-! ## Event bodies -/

structure UserPromptBody where
  text : String := ""
  byDevice : String := ""
  deriving DecidableEq, Repr

structure PermissionRequestBody where
  requestID : String := ""
  kind : String := ""
  summary : String := ""
  deriving DecidableEq, Repr

structure QuestionBody where
  questionID : String := ""
  text : String := ""
  deriving DecidableEq, Repr

structure PermissionResolvedBody where
  requestID : String := ""
  allow : Bool := false
  byDevice : String := ""
  deriving DecidableEq, Repr

structure QuestionResolvedBody where
  questionID : String := ""
  text : String := ""
  byDevice : String := ""
  deriving DecidableEq, Repr

structure ModeChangedBody where
  mode : String := ""
  byDevice : String := ""
  deriving DecidableEq, Repr

structure StatusChangeBody where
  status : String := ""
  deriving DecidableEq, Repr

def UserPromptBody.toJson (b : UserPromptBody) : Json :=
  .obj [("text", .str b.text), ("byDevice", .str b.byDevice)]

def PermissionResolvedBody.toJson (b : PermissionResolvedBody) : Json :=
  .obj [("requestId", .str b.requestID), ("allow", .bool b.allow), ("byDevice", .str b.byDevice)]

def QuestionResolvedBody.toJson (b : QuestionResolvedBody) : Json :=
  .obj [("questionId", .str b.questionID), ("text", .str b.text), ("byDevice", .str b.byDevice)]

def ModeChangedBody.toJson (b : ModeChangedBody) : Json :=
  .obj [("mode", .str b.mode), ("byDevice", .str b.byDevice)]

def StatusChangeBody.toJson (b : StatusChangeBody) : Json :=
  .obj [("status", .str b.status)]

def UserPromptBody.decode : Json → UserPromptBody :=
  Json.decodeLax [Field.string "text" fun s b => { b with text := s },
    Field.string "byDevice" fun s b => { b with byDevice := s }] {}

def PermissionRequestBody.decode : Json → PermissionRequestBody :=
  Json.decodeLax [Field.string "requestId" fun s b => { b with requestID := s },
    Field.string "kind" fun s b => { b with kind := s },
    Field.string "summary" fun s b => { b with summary := s }] {}

def QuestionBody.decode : Json → QuestionBody :=
  Json.decodeLax [Field.string "questionId" fun s b => { b with questionID := s },
    Field.string "text" fun s b => { b with text := s }] {}

def PermissionResolvedBody.decode : Json → PermissionResolvedBody :=
  Json.decodeLax [Field.string "requestId" fun s b => { b with requestID := s },
    Field.bool "allow" fun v b => { b with allow := v },
    Field.string "byDevice" fun s b => { b with byDevice := s }] {}

def QuestionResolvedBody.decode : Json → QuestionResolvedBody :=
  Json.decodeLax [Field.string "questionId" fun s b => { b with questionID := s },
    Field.string "text" fun s b => { b with text := s },
    Field.string "byDevice" fun s b => { b with byDevice := s }] {}

def ModeChangedBody.decode : Json → ModeChangedBody :=
  Json.decodeLax [Field.string "mode" fun s b => { b with mode := s },
    Field.string "byDevice" fun s b => { b with byDevice := s }] {}

def StatusChangeBody.fields : List (Json.Field StatusChangeBody) :=
  [Field.string "status" fun s b => { b with status := s }]

def StatusChangeBody.decode : Json → StatusChangeBody := Json.decodeLax fields {}

/-- The strict decoding `AppendEvent` uses to refresh `sessions.status`. -/
def StatusChangeBody.decodeStrict (v : Json) : Option StatusChangeBody :=
  Json.decode fields {} (some v)

/-! ## Bodies survive the log: what the hub marshals is what it reads back -/

@[simp] theorem UserPromptBody.decode_toJson (b : UserPromptBody) : decode b.toJson = b := rfl

@[simp] theorem PermissionResolvedBody.decode_toJson (b : PermissionResolvedBody) :
    decode b.toJson = b := rfl

@[simp] theorem QuestionResolvedBody.decode_toJson (b : QuestionResolvedBody) :
    decode b.toJson = b := rfl

@[simp] theorem ModeChangedBody.decode_toJson (b : ModeChangedBody) : decode b.toJson = b := rfl

@[simp] theorem StatusChangeBody.decode_toJson (b : StatusChangeBody) : decode b.toJson = b := rfl

end Harness.Wire
