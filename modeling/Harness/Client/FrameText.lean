/-
# Harness.Client.FrameText — a frame as the client writes it, and as the daemon reads it.

`sendEnvelope` sends what `JSON.stringify` makes of the envelope. The daemon does not share a type with the client:
it reads a text. `readCommand_text` and `readHello_text` say that it reads what was meant, whatever the strings in
it are: a command is read as that command, and a hello as the device, the position, the token and the credential it
was written with (`Spoken`). And neither is taken for the other.
-/
import Harness.Client.Flush
import Harness.Lib.NumberText
import Harness.Wire.Decode

namespace Harness.Client

open Lib
open Wire (Json CommandKind CommandPayload HelloPayload jsEscape readEnvelope readHello readCommand)

/-! ## Writing -/

/-- `JSON.stringify` of an object whose members are written already. -/
def objectText (members : List (String × List Char)) : List Char :=
  '\x7b' :: (List.intercalate [','] (members.map fun m => Json.quoted jsEscape m.1 ++ ':' :: m.2) ++ ['\x7d'])

/-- `JSON.stringify`; `undefined` has no text. Arrays and objects are written as they were read: no id and no
credential is one. -/
def JsValue.text : JsValue → Option (List Char)
  | .undefined => none
  | .null | .num (.infinite _) => some ['n', 'u', 'l', 'l']
  | .bool b => some ((Json.bool b).text jsEscape)
  | .num (.finite q) => some (numberText q).toList
  | .str s => some (Json.quoted jsEscape s)
  | .arr xs => some ((Json.arr xs).text jsEscape)
  | .obj members => some ((Json.obj members).text jsEscape)

/-- A member that is left out if there is nothing to write. -/
def member (name : String) (text : Option (List Char)) : List (String × List Char) :=
  (text.map fun t => (name, t)).toList

/-- `{ v: PROTOCOL_VERSION, type, [type]: body }`. -/
def envelopeText (type : String) (body : List Char) : List Char :=
  objectText [("v", ['1']), ("type", Json.quoted jsEscape type), (type, body)]

/-- What `sendEnvelope` sends. -/
def Frame.text : Frame → List Char
  | .hello deviceId lastSeq pairingToken credential =>
      envelopeText "hello" (objectText
        (member "deviceId" deviceId.text ++ [("lastSeq", (numberText lastSeq).toList)] ++
          member "pairingToken" (pairingToken.map (Json.quoted jsEscape)) ++
          member "credential" (credential.bind JsValue.text)))
  | .command cmd =>
      envelopeText "command" (objectText
        ([("id", Json.quoted jsEscape cmd.id), ("idempotencyKey", Json.quoted jsEscape cmd.idempotencyKey),
          ("kind", Json.quoted jsEscape cmd.kind.string)] ++
          member "payload" (cmd.payload.map (Json.text jsEscape))))

example : String.ofList (Frame.hello (.str "") 12 (some "a\"b") none).text =
    "\x7b\"v\":1,\"type\":\"hello\",\"hello\":\x7b\"deviceId\":\"\",\"lastSeq\":12," ++
      "\"pairingToken\":\"a\\\"b\"\x7d\x7d" := by
  decide +kernel

/-! ## The value behind the text -/

/-- Members written one by one are the members written together. -/
theorem objectText_text (members : List (String × Json)) :
    objectText (members.map fun m => (m.1, m.2.text jsEscape)) = (Json.obj members).text jsEscape := by
  have hmore : ∀ (m : String × Json) (ms : List (String × Json)),
      List.intercalate [','] ((m :: ms).map fun m => Json.quoted jsEscape m.1 ++ ':' :: m.2.text jsEscape) =
        Json.quoted jsEscape m.1 ++ ':' :: (m.2.text jsEscape ++ Json.moreMembers jsEscape ms) := by
    intro m ms
    induction ms generalizing m with
    | nil => simp [List.intercalate, Json.moreMembers]
    | cons n ms ih =>
      have hrest := ih n
      rw [List.map_cons] at hrest
      rw [List.map_cons, List.map_cons, List.intercalate_cons_cons, hrest]
      simp [Json.moreMembers]
  unfold objectText
  rw [List.map_map]
  cases members with
  | nil => simp [List.intercalate, Json.text, Json.membersText]
  | cons m ms =>
    rw [show ((fun m => Json.quoted jsEscape m.1 ++ ':' :: m.2) ∘
        fun m : String × Json => (m.1, m.2.text jsEscape)) =
      fun m => Json.quoted jsEscape m.1 ++ ':' :: m.2.text jsEscape from rfl, hmore]
    simp [Json.text, Json.membersText]

/-- `{ v: PROTOCOL_VERSION, type, [type]: body }`, as a value. -/
def envelope (type : String) (body : List (String × Json)) : Json :=
  .obj [("v", .num ⟨1, 0⟩), ("type", .str type), (type, .obj body)]

theorem envelopeText_text (type : String) (body : List (String × Json)) :
    envelopeText type (objectText (body.map fun m => (m.1, m.2.text jsEscape))) =
      (envelope type body).text jsEscape := by
  rw [objectText_text, envelope, ← objectText_text [("v", .num ⟨1, 0⟩), ("type", .str type), (type, .obj body)]]
  have hone : Nat.toDigits 10 1 = ['1'] := by decide
  simp [envelopeText, Json.text, numberLiteral, intText, hone]

/-- The text of an envelope is read as the envelope. -/
theorem readEnvelope_text (type : String) (body : List (String × Json)) :
    readEnvelope (envelopeText type (objectText (body.map fun m => (m.1, m.2.text jsEscape)))) =
      Json.decode Wire.Incoming.fields {} (some (envelope type body)) := by
  rw [envelopeText_text, readEnvelope, Json.parse_text Json.jsEscape_writer]

/-- A position that fits an `int64` is written with its digits. -/
theorem numberText_text {n : ℕ} (h : n < 2 ^ 63) :
    (numberText n).toList = (Json.num ⟨(n : Int), 0⟩).text jsEscape := by
  have hlong : n < 10 ^ 21 := h.trans (by norm_num)
  rw [numberText_short hlong]
  simp [Json.text, numberLiteral, intText]

/-! ## Reading -/

/-- **`Spoken f`** — a frame the daemon can read: a hello has strings and a position that fits an `int64`, and the
kind of a command goes by its name. -/
inductive Spoken : Frame → Prop
  | hello (deviceID : String) (n : ℕ) (pairingToken credential : Option String) (hn : n < 2 ^ 63) :
      Spoken (.hello (.str deviceID) n pairingToken (credential.map .str))
  | command (cmd : CommandPayload) (hkind : CommandKind.ofString cmd.kind.string = cmd.kind) :
      Spoken (.command cmd)

/-- The members of a command. -/
def commandMembers (cmd : CommandPayload) : List (String × Json) :=
  [("id", .str cmd.id), ("idempotencyKey", .str cmd.idempotencyKey), ("kind", .str cmd.kind.string)] ++
    (cmd.payload.map fun v => ("payload", v)).toList

theorem command_text (cmd : CommandPayload) :
    (Frame.command cmd).text =
      envelopeText "command" (objectText ((commandMembers cmd).map fun m => (m.1, m.2.text jsEscape))) := by
  cases h : cmd.payload <;> simp [Frame.text, commandMembers, member, Json.text, h]

/-- The members of a hello. -/
def helloMembers (deviceID : String) (n : ℕ) (pairingToken credential : Option String) : List (String × Json) :=
  [("deviceId", .str deviceID), ("lastSeq", .num ⟨(n : Int), 0⟩)] ++
    (pairingToken.map fun t => ("pairingToken", Json.str t)).toList ++
    (credential.map fun s => ("credential", Json.str s)).toList

theorem hello_text (deviceID : String) {n : ℕ} (pairingToken credential : Option String) (hn : n < 2 ^ 63) :
    (Frame.hello (.str deviceID) n pairingToken (credential.map .str)).text =
      envelopeText "hello" (objectText
        ((helloMembers deviceID n pairingToken credential).map fun m => (m.1, m.2.text jsEscape))) := by
  cases pairingToken <;> cases credential <;>
    simp [Frame.text, helloMembers, member, JsValue.text, numberText_text hn, Json.text]

theorem commandMembers_decode (cmd : CommandPayload) (hkind : CommandKind.ofString cmd.kind.string = cmd.kind) :
    (commandMembers cmd).foldl (Json.unmarshalMember CommandPayload.fields)
      ({ id := "", kind := .other "" }, true) = (cmd, true) := by
  have hfold :
      (commandMembers cmd).foldl (Json.unmarshalMember CommandPayload.fields)
        ({ id := "", kind := .other "" }, true) =
          ({ cmd with kind := .ofString cmd.kind.string }, true) := by
    obtain ⟨id, key, kind, payload⟩ := cmd
    cases payload <;> rfl
  rw [hfold, hkind]

theorem helloMembers_decode (deviceID : String) {n : ℕ} (pairingToken credential : Option String)
    (hn : n < 2 ^ 63) :
    (helloMembers deviceID n pairingToken credential).foldl (Json.unmarshalMember HelloPayload.fields) ({}, true) =
      (⟨deviceID, n, pairingToken.getD "", credential.getD ""⟩, true) := by
  have hdevice : Json.unmarshalMember HelloPayload.fields ({}, true) ("deviceId", .str deviceID) =
      ({ deviceID := deviceID }, true) := Json.unmarshalMember_eq rfl rfl
  have hseq : Json.unmarshalMember HelloPayload.fields ({ deviceID := deviceID }, true) ("lastSeq", .num ⟨n, 0⟩) =
      ({ deviceID := deviceID, lastSeq := n }, true) :=
    Json.unmarshalMember_eq rfl (Json.Field.int64_set (by omega) (by omega))
  unfold helloMembers
  rw [List.append_assoc, List.cons_append, List.cons_append, List.foldl_cons, List.foldl_cons, hdevice, hseq]
  cases pairingToken <;> cases credential <;> rfl

/-- What the daemon finds in an envelope that fits. -/
theorem decode_envelope {type : String} {body : List (String × Json)} {e : Wire.Incoming}
    (h : Json.unmarshalMember Wire.Incoming.fields ({ version := 1, type := type }, true) (type, .obj body) =
      (e, true)) :
    readEnvelope (envelopeText type (objectText (body.map fun m => (m.1, m.2.text jsEscape)))) = some e := by
  have hfold : Json.unmarshal Wire.Incoming.fields {} (envelope type body) = (e, true) := by
    rw [← h]
    rfl
  rw [readEnvelope_text, Json.decode, hfold]
  rfl

/-- **A command is read as the command it is.** -/
theorem readCommand_text {cmd : CommandPayload} (hkind : CommandKind.ofString cmd.kind.string = cmd.kind) :
    readCommand (Frame.command cmd).text = some cmd := by
  rw [command_text, readCommand,
    decode_envelope (Wire.Incoming.command_stored rfl (commandMembers_decode cmd hkind))]
  rfl

section Hello

variable (deviceID : String) {n : ℕ} (pairingToken credential : Option String)

theorem readEnvelope_hello (hn : n < 2 ^ 63) :
    readEnvelope (Frame.hello (.str deviceID) n pairingToken (credential.map .str)).text =
      some
        { version := 1, type := "hello"
          hello := some ⟨deviceID, n, pairingToken.getD "", credential.getD ""⟩ } := by
  rw [hello_text deviceID pairingToken credential hn]
  exact decode_envelope (Wire.Incoming.hello_stored rfl (helloMembers_decode deviceID pairingToken credential hn))

/-- **A hello is read as the hello it is.** -/
theorem readHello_text (hn : n < 2 ^ 63) :
    readHello (Frame.hello (.str deviceID) n pairingToken (credential.map .str)).text =
      some ⟨deviceID, n, pairingToken.getD "", credential.getD ""⟩ := by
  rw [readHello, readEnvelope_hello deviceID pairingToken credential hn]
  rfl

/-- And not as a command. -/
theorem readCommand_hello (hn : n < 2 ^ 63) :
    readCommand (Frame.hello (.str deviceID) n pairingToken (credential.map .str)).text = none := by
  rw [readCommand, readEnvelope_hello deviceID pairingToken credential hn]
  rfl

end Hello

end Harness.Client
