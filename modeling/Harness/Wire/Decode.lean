/-
# Harness.Wire.Decode — what the daemon reads in a text message.

`readHello` and the read loop of `serveAuthenticated` unmarshal a message into a `protocol.Envelope` and look at
its type only then. `json.Unmarshal` fills every member of the envelope it finds in the text, so a command is
dropped if there is a `snapshot` beside it that is none. Which members those are, and what they may hold, is said
here by the fields of each payload.

An integer is read from a literal without a point and without an exponent, which is what an exponent of zero says
of a value: Go refuses `1e0`.
-/
import Harness.Wire.JsonText
import Harness.Wire.Protocol

namespace Harness.Wire

/-! ## Fields -/

namespace Json

namespace Field

variable {B C : Type}

/-- An `int64`. -/
def int64 (name : String) (put : Int → B → B) : Field B where
  name := name
  set
    | .null, b => some b
    | .num n, b =>
        if n.exponent = 0 ∧ -0x8000000000000000 ≤ n.mantissa ∧ n.mantissa < 0x8000000000000000 then
          some (put n.mantissa b)
        else none
    | _, _ => none

theorem int64_set {name : String} {put : Int → B → B} {b : B} {n : Int} (hlow : -0x8000000000000000 ≤ n)
    (hhigh : n < 0x8000000000000000) : (int64 name put).set (.num ⟨n, 0⟩) b = some (put n b) := by
  have hfits : (0 : Int) = 0 ∧ -0x8000000000000000 ≤ n ∧ n < 0x8000000000000000 := ⟨rfl, hlow, hhigh⟩
  exact if_pos hfits

/-- A `json.RawMessage`. -/
def raw (name : String) (put : Json → B → B) : Field B where
  name := name
  set v b := some (put v b)

/-- A pointer to a struct: `null` clears it, an object is decoded into the struct it points to. -/
def pointer (name : String) (get : B → Option C) (put : Option C → B → B) (fields : List (Field C)) (zero : C) :
    Field B where
  name := name
  set
    | .null, b => some (put none b)
    | .obj members, b =>
        let r := members.foldl (unmarshalMember fields) ((get b).getD zero, true)
        if r.2 then some (put (some r.1) b) else none
    | _, _ => none

/-- A member the daemon decodes and never looks at. -/
def ignored (name : String) (fits : Json → Bool) : Field B where
  name := name
  set v b := if fits v then some b else none

end Field

/-- A member that has the name of a field is stored in it. -/
theorem unmarshalMember_eq {fields : List (Field B)} {f : Field B} {key : String} {v : Json} {b b' : B} {ok : Bool}
    (hf : fields.find? (fun f => f.name == key) = some f) (hset : f.set v b = some b') :
    unmarshalMember fields (b, ok) (key, v) = (b', ok) := by
  simp [unmarshalMember, selectField, hf, hset]

/-- The value fits a struct with these fields. -/
def fitsStruct (fields : List (Field Unit)) (v : Json) : Bool := (unmarshal fields () v).2

/-- The value fits a slice. -/
def fitsSlice (fits : Json → Bool) : Json → Bool
  | .null => true
  | .arr xs => xs.all fits
  | _ => false

end Json

open Json (fitsStruct fitsSlice)

/-! ## The payloads -/

def HelloPayload.fields : List (Json.Field HelloPayload) :=
  [.string "deviceId" fun s p => { p with deviceID := s }, .int64 "lastSeq" fun n p => { p with lastSeq := n },
    .string "pairingToken" fun s p => { p with pairingToken := s },
    .string "credential" fun s p => { p with credential := s }]

/-- The kind a wire string stands for. -/
def CommandKind.ofString (s : String) : CommandKind :=
  if s = "send_prompt" then .sendPrompt
  else if s = "answer_permission" then .answerPermission
  else if s = "answer_question" then .answerQuestion
  else if s = "interrupt" then .interrupt
  else if s = "set_mode" then .setMode
  else .other s

def CommandPayload.fields : List (Json.Field CommandPayload) :=
  [.string "id" fun s p => { p with id := s },
    .string "idempotencyKey" fun s p => { p with idempotencyKey := s },
    .string "kind" fun s p => { p with kind := .ofString s },
    .raw "payload" fun v p => { p with payload := some v }]

/-- A member of a payload the hub only sends. -/
def sentString (name : String) : Json.Field Unit := .string name fun _ u => u

def sentInt (name : String) : Json.Field Unit := .int64 name fun _ u => u

def PermissionView.fits : Json → Bool :=
  fitsStruct [sentString "requestId", sentString "kind", sentString "summary"]

def QuestionView.fits : Json → Bool := fitsStruct [sentString "questionId", sentString "text"]

def DeviceView.fits : Json → Bool := fitsStruct [sentString "deviceId", sentString "name"]

def EventPayload.fits : Json → Bool :=
  fitsStruct [sentInt "seq", sentInt "ts", sentString "kind", .raw "payload" fun _ u => u]

def SnapshotPayload.fits : Json → Bool :=
  fitsStruct
    [sentString "sessionId", sentString "status", sentString "mode", sentInt "lastSeq",
      .ignored "pendingPermissions" (fitsSlice PermissionView.fits),
      .ignored "pendingQuestions" (fitsSlice QuestionView.fits), .ignored "devices" (fitsSlice DeviceView.fits),
      .ignored "recentEvents" (fitsSlice EventPayload.fits)]

def AckPayload.fits : Json → Bool := fitsStruct [sentString "commandId", sentInt "seq"]

def ErrorPayload.fits : Json → Bool := fitsStruct [sentString "commandId", sentString "code", sentString "message"]

def PairedPayload.fits : Json → Bool :=
  fitsStruct [sentString "deviceId", sentString "name", sentString "credential"]

/-! ## The envelope -/

/-- `protocol.Envelope`, client to host. -/
structure Incoming where
  version : Int := 0
  type : String := ""
  hello : Option HelloPayload := none
  command : Option CommandPayload := none

def Incoming.fields : List (Json.Field Incoming) :=
  [.int64 "v" fun n e => { e with version := n }, .string "type" fun s e => { e with type := s },
    .pointer "hello" (·.hello) (fun p e => { e with hello := p }) HelloPayload.fields {},
    .ignored "snapshot" SnapshotPayload.fits, .ignored "event" EventPayload.fits,
    .pointer "command" (·.command) (fun p e => { e with command := p }) CommandPayload.fields
      { id := "", kind := .other "" },
    .ignored "ack" AckPayload.fits, .ignored "error" ErrorPayload.fits, .ignored "paired" PairedPayload.fits]

/-- A payload that fits is stored with the envelope. -/
theorem Incoming.command_stored {e : Incoming} {ok : Bool} {members : List (String × Json)} {cmd : CommandPayload}
    (hfirst : e.command = none)
    (h : members.foldl (Json.unmarshalMember CommandPayload.fields) ({ id := "", kind := .other "" }, true) =
      (cmd, true)) :
    Json.unmarshalMember Incoming.fields (e, ok) ("command", .obj members) =
      ({ e with command := some cmd }, ok) := by
  refine Json.unmarshalMember_eq rfl ?_
  simp only [Json.Field.pointer, hfirst, Option.getD_none, h]
  rfl

theorem Incoming.hello_stored {e : Incoming} {ok : Bool} {members : List (String × Json)} {p : HelloPayload}
    (hfirst : e.hello = none)
    (h : members.foldl (Json.unmarshalMember HelloPayload.fields) ({}, true) = (p, true)) :
    Json.unmarshalMember Incoming.fields (e, ok) ("hello", .obj members) = ({ e with hello := some p }, ok) := by
  refine Json.unmarshalMember_eq rfl ?_
  simp only [Json.Field.pointer, hfirst, Option.getD_none, h]
  rfl

/-- `json.Unmarshal(data, &env)`. -/
def readEnvelope (data : List Char) : Option Incoming := Json.decode Incoming.fields {} (Json.parse data)

/-- `readHello`, given a text message. -/
def readHello (data : List Char) : Option HelloPayload :=
  match readEnvelope data with
  | none => none
  | some env => if env.type = "hello" then env.hello else none

/-- What the read loop hands to `handleCommand`, if it does not skip the message. -/
def readCommand (data : List Char) : Option CommandPayload :=
  match readEnvelope data with
  | none => none
  | some env => if env.type = "command" then env.command else none

-- A member that misfits spoils the message, one that is unknown does not.
example :
    ["\x7b\"type\":\"command\",\"command\":\x7b\"ID\":\"c1\"\x7d,\"colour\":[]\x7d",
      "\x7b\"type\":\"command\",\"command\":\x7b\"id\":\"c1\"\x7d,\"snapshot\":[]\x7d",
      "\x7b\"type\":\"command\",\"command\":null\x7d"].map
        (fun s => (readCommand s.toList).map fun cmd => cmd.id) = [some "c1", none, none] := by decide +kernel

end Harness.Wire
