/-
# Harness.Claude.Adapter — what the adapter makes of the agent's output.

`handleStreamJSON` turns one line of Claude Code's stream-json output into events. A decoded line is a Go
`map[string]interface{}`, whose values are looked at with type assertions that give the zero value when they
do not hold; `member`, `str`, `int` and `object` are these.

The events are host bodies by construction, so everything proved about `HostEvent` holds of what an agent can
cause, whatever it writes.
-/
import Harness.Wire.Encode

namespace Harness.Claude

open Wire

/-- What the adapter uses of `encoding/json` and of `float64`: the decoding of a line into a map, the text of a
decoded value, and the conversion of a decoded number to an `int`. -/
structure Codec where
  unmarshal : List UInt8 → Except String (List (String × Json))
  marshal : Json → String
  int : Number → Int

/-! ## Type assertions -/

/-- `m[key]`; of a repeated member the map has the last one. -/
def member (m : List (String × Json)) (key : String) : Option Json :=
  (m.reverse.find? fun kv => kv.1 == key).map (·.2)

/-- `s, _ := v.(string)`. -/
def str : Option Json → String
  | some (.str s) => s
  | _ => ""

/-- `n, _ := v.(float64)`, as an `int`. -/
def int (codec : Codec) : Option Json → Int
  | some (.num n) => codec.int n
  | _ => 0

/-- `m, ok := v.(map[string]interface{})`. -/
def object : Option Json → Option (List (String × Json))
  | some (.obj m) => some m
  | _ => none

/-! ## handleStreamJSON -/

/-- A text delta, unless it is empty. -/
def textDelta (content : String) : List HostBody :=
  if content = "" then [] else [.textDelta ⟨content⟩]

/-- One block of a message. The input of a tool is forwarded as JSON text, `null` when it has none. -/
def contentBlock (codec : Codec) : Json → List HostBody
  | .obj b =>
      match str (member b "type") with
      | "text" => textDelta (str (member b "text"))
      | "tool_use" =>
          [.toolCallStart
            { name := str (member b "name"), input := codec.marshal ((member b "input").getD .null) }]
      | _ => []
  | _ => []

def emitTextFromMessage (codec : Codec) (msg : Option Json) : List HostBody :=
  match object msg with
  | none => []
  | some m =>
      match member m "content" with
      | some (.arr content) => content.flatMap (contentBlock codec)
      | content => textDelta (str content)

def handlePartialEvent (ev : Option Json) : List HostBody :=
  match object ev with
  | none => []
  | some m =>
      if str (member m "type") = "content_block_delta" then
        -- a delta that is no object is read as an empty one
        textDelta (str (member ((object (member m "delta")).getD []) "text"))
      else []

/-- The first of two strings that is not empty. -/
def orElse (s t : String) : String := if s = "" then t else s

def handleControlRequest (codec : Codec) (raw : List (String × Json)) : List HostBody :=
  match object (member raw "request") with
  | none => []
  | some req =>
      if str (member req "subtype") = "can_use_tool" then
        [.permissionRequest
          { requestID := orElse (str (member raw "request_id")) (str (member req "request_id"))
            kind := orElse (str (member req "tool_name")) (str (member req "name"))
            summary :=
              match member req "input" with
              | some input => codec.marshal input
              | none => str (member req "tool_use_id") }]
      else []

def usageUpdate (codec : Codec) (usage : List (String × Json)) : HostBody :=
  .usageUpdate ⟨int codec (member usage "input_tokens"), int codec (member usage "output_tokens")⟩

/-- The events of a decoded line. -/
def handleMessage (codec : Codec) (raw : List (String × Json)) : List HostBody :=
  match str (member raw "type") with
  | "system" => if str (member raw "subtype") = "init" then [.statusChange ⟨"idle"⟩] else []
  | "assistant" => emitTextFromMessage codec (member raw "message")
  | "stream_event" => handlePartialEvent (member raw "event")
  | "result" =>
      ((object (member raw "usage")).map (usageUpdate codec)).toList ++
        [.turnComplete, .statusChange ⟨"idle"⟩]
  | "control_request" => handleControlRequest codec raw
  -- replayed user messages
  | "user" => []
  | "text" | "content_block_delta" | "message_delta" =>
      textDelta (orElse (str (member raw "content")) (str (member raw "delta")))
  | "tool_use" => [.toolCallStart { name := str (member raw "name") }]
  | "tool_result" => [.toolCallEnd {}]
  | "permission_request" =>
      [.permissionRequest
        ⟨str (member raw "request_id"), str (member raw "kind"), str (member raw "summary")⟩]
  | "turn_complete" | "message_stop" => [.turnComplete]
  | "status" => [.statusChange ⟨str (member raw "status")⟩]
  | "usage" => [usageUpdate codec raw]
  | _ => []

/-- `handleStreamJSON`: the events of a line, in the order they are emitted. -/
def handleStreamJSON (codec : Codec) (line : List UInt8) : List HostBody :=
  match codec.unmarshal line with
  | .error err => [.error err]
  | .ok raw => handleMessage codec raw

/-- What `handleStreamJSON` makes of `a.sessionID`. -/
def sessionIDAfter (codec : Codec) (sessionID : String) (line : List UInt8) : String :=
  match codec.unmarshal line with
  | .error _ => sessionID
  | .ok raw =>
      if str (member raw "type") = "system" ∧ str (member raw "subtype") = "init" then
        orElse (str (member raw "session_id")) sessionID
      else sessionID

/-! ## The event channel -/

/-- The capacity of `a.events`. -/
def eventBuffer : Nat := 256

/-- An event as it goes into the channel: its kind and its payload. The host numbers it later. -/
def event (b : HostBody) : EventKind × Json := (b.kind, b.toJson)

/-- The adapter: the events its reader has still to emit for the line it is at, and the channel. -/
structure Adapter where
  sessionID : String := ""
  emitting : List HostBody := []
  events : List (EventKind × Json) := []

/-- The reader takes the next line. -/
def Adapter.read (a : Adapter) (codec : Codec) (line : List UInt8) : Adapter :=
  { a with
    sessionID := sessionIDAfter codec a.sessionID line
    emitting := handleStreamJSON codec line }

/-- `emit`: the channel, and whether the event went into it. A full buffer drops the event. -/
def emit (events : List (EventKind × Json)) (b : HostBody) : List (EventKind × Json) × Bool :=
  if events.length < eventBuffer then (events ++ [event b], true) else (events, false)

end Harness.Claude
