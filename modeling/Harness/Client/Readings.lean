/-
# Harness.Client.Readings — what is written into an event is what is read out of it.

The daemon marshals the body of an event from Go structs and from maps made on the spot; `applyEvent` looks
its members up by name, each with a value of its own for one that is missing. Nothing but the names ties the
two together.

`EventPayload.reading` is what `applyEvent` reads, and all it knows of the payload (`applyEvent_reading`): what it
does to the items is `Reading.itemOp`, which the modules on the item list share.
`Reading.ofCommand` and `Reading.ofBody` are what `handleCommand` and the adapter had to say. The three agree on
every event but one: a line of the agent that does not decode is written under `error` and looked for under
`message`.
-/
import Harness.Claude.Adapter
import Harness.Hub.State
import Harness.Client.Items

namespace Harness.Client

open Wire (Json HostBody EventKind AgentCommand DeviceID)
open Claude (Codec handleStreamJSON)

/-! ## Readings -/

/-- What `applyEvent` does with the values: its operation on the items, and what it does to the rest of the
state. -/
def Reading.apply (seq : ℚ) (ts : JsValue) (state : SessionState) (reading : Reading) : SessionState :=
  let next := { state with lastSeq := seq, items := (reading.itemOp (nameFor state) seq ts).run state.items }
  match reading with
  | .userPrompt _ _ => { next with turnActive := true }
  | .turnComplete => { next with turnActive := false }
  | .statusChange status => { next with status := status, turnActive := status == "running" }
  | .modeChanged mode => { next with mode := mode }
  | .usageUpdate usage => { next with usage := some usage }
  | .permissionRequest requestId kind summary =>
      if requestId = "" then next
      else
        { next with
          pendingPermissions := dedupeBy (·.requestId)
            (state.pendingPermissions ++ [⟨.str requestId, .str kind, .str summary⟩]) }
  | .permissionResolved requestId _ _ =>
      { next with
        pendingPermissions :=
          state.pendingPermissions.filter fun p => !p.requestId.strictEq (.str requestId) }
  | .question questionId text =>
      if questionId = "" then next
      else
        { next with
          pendingQuestions := dedupeBy (·.questionId)
            (state.pendingQuestions ++ [⟨.str questionId, .str text⟩]) }
  | .questionResolved questionId _ _ =>
      { next with
        pendingQuestions :=
          state.pendingQuestions.filter fun q => !q.questionId.strictEq (.str questionId) }
  | .textDelta _ | .toolCallStart _ _ | .toolCallEnd _ _ | .error _ | .other => next

/-- **Nothing else of the payload** goes into the state. -/
theorem applyEvent_reading (state : SessionState) (ev : EventPayload) :
    applyEvent state ev = (ev.reading state).apply ev.seq ev.ts state := by
  unfold applyEvent EventPayload.reading
  cases eventKind ev.kind with
  | textDelta | permissionRequest | question =>
    simp only [Reading.apply, Reading.itemOp]
    split <;> rfl
  | _ => rfl

/-! ## What is written -/

/-- What `handleCommand` puts into the event of a command. -/
def Reading.ofCommand (dev : DeviceID) : AgentCommand → Reading
  | .sendPrompt body => .userPrompt body.text dev.val
  | .answerPermission body => .permissionResolved body.requestID body.allow dev.val
  | .answerQuestion body => .questionResolved body.questionID body.text dev.val
  | .setMode body => .modeChanged body.mode
  | .interrupt => .statusChange "idle"

/-- What is put into a body. The token counts are the numbers their digits denote. -/
def Reading.ofBody : HostBody → Reading
  | .userPrompt b => .userPrompt b.text b.byDevice
  | .textDelta b => .textDelta b.content
  | .toolCallStart b => .toolCallStart b.name (presentString b.input)
  | .toolCallEnd b => .toolCallEnd b.name (presentString b.output)
  | .permissionRequest b => .permissionRequest b.requestID b.kind b.summary
  | .question b => .question b.questionID b.text
  | .permissionResolved b => .permissionResolved b.requestID b.allow b.byDevice
  | .questionResolved b => .questionResolved b.questionID b.text b.byDevice
  | .modeChanged b _ => .modeChanged b.mode
  | .turnComplete => .turnComplete
  | .statusChange b => .statusChange b.status
  | .usageUpdate b =>
      .usageUpdate
        ⟨asNumber (.ofJson (.int b.inputTokens)) 0, asNumber (.ofJson (.int b.outputTokens)) 0⟩
  | .error message => .error message

theorem reading_command {ev : Wire.EventPayload} {dev : DeviceID} {out : AgentCommand}
    (h : (ev.kind, ev.payload) = Hub.commandEvent dev out) (state : SessionState) :
    (received ev).reading state = .ofCommand dev out := by
  obtain ⟨seq, ts, kind, payload⟩ := ev
  cases out <;> · cases h; rfl

theorem reading_body {ev : Wire.EventPayload} {b : HostBody} (h : (ev.kind, ev.payload) = Claude.event b)
    (hb : ∀ message, b ≠ .error message) (state : SessionState) :
    (received ev).reading state = .ofBody b := by
  obtain ⟨seq, ts, kind, payload⟩ := ev
  cases h
  cases b with
  | toolCallStart b =>
      show Reading.toolCallStart (asString (JsRecord.get (toolMembers b) "name") "tool")
        (optionalString (JsRecord.get (toolMembers b) "input")) = _
      rw [get_tool_name, get_tool_input]
      rfl
  | toolCallEnd b =>
      show Reading.toolCallEnd (asString (JsRecord.get (toolMembers b) "name") "tool")
        (optionalString (JsRecord.get (toolMembers b) "output")) = _
      rw [get_tool_name, get_tool_output]
      rfl
  | error message => exact absurd rfl (hb message)
  | _ => rfl

/-- **The reader's own text** stands for whatever the error event says. -/
theorem reading_error {ev : Wire.EventPayload} {message : String}
    (h : (ev.kind, ev.payload) = Claude.event (.error message)) (state : SessionState) :
    (received ev).reading state = .error "agent error" := by
  obtain ⟨seq, ts, kind, payload⟩ := ev
  cases h
  rfl

/-! ## The events of a line -/

section Lines

variable {codec : Codec} {message : String}

theorem error_notMem_textDelta (content : String) : .error message ∉ Claude.textDelta content := by
  unfold Claude.textDelta
  split <;> simp

theorem error_notMem_contentBlock (block : Json) : .error message ∉ Claude.contentBlock codec block := by
  unfold Claude.contentBlock
  split
  · split
    · exact error_notMem_textDelta _
    · simp
    · simp
  · simp

theorem error_notMem_emitTextFromMessage (msg : Option Json) :
    .error message ∉ Claude.emitTextFromMessage codec msg := by
  unfold Claude.emitTextFromMessage
  split
  · simp
  · split
    · intro h
      obtain ⟨block, -, hblock⟩ := List.mem_flatMap.mp h
      exact error_notMem_contentBlock block hblock
    · exact error_notMem_textDelta _

theorem error_notMem_handlePartialEvent (ev : Option Json) :
    .error message ∉ Claude.handlePartialEvent ev := by
  unfold Claude.handlePartialEvent
  split
  · simp
  · split
    · exact error_notMem_textDelta _
    · simp

theorem error_notMem_handleControlRequest (raw : List (String × Json)) :
    .error message ∉ Claude.handleControlRequest codec raw := by
  unfold Claude.handleControlRequest
  split
  · simp
  · split <;> simp

theorem error_notMem_handleMessage (raw : List (String × Json)) :
    .error message ∉ Claude.handleMessage codec raw := by
  unfold Claude.handleMessage
  split
  · split <;> simp
  · exact error_notMem_emitTextFromMessage _
  · exact error_notMem_handlePartialEvent _
  · cases Claude.object (Claude.member raw "usage") <;> simp [Claude.usageUpdate]
  · exact error_notMem_handleControlRequest raw
  · simp
  all_goals first | exact error_notMem_textDelta _ | simp [Claude.usageUpdate]

/-- The error event is that of a line that does not decode. -/
theorem error_mem_handleStreamJSON {line : List UInt8} :
    .error message ∈ handleStreamJSON codec line ↔ codec.unmarshal line = .error message := by
  unfold handleStreamJSON
  cases codec.unmarshal line with
  | error err => simp [eq_comm]
  | ok raw => simpa using error_notMem_handleMessage raw

end Lines

/-- **What the host writes is what the client reads**, but for the error of a line that does not decode. -/
theorem events_read (codec : Codec) :
    (∀ state ev, applyEvent state ev = (ev.reading state).apply ev.seq ev.ts state) ∧
      (∀ dev out ev, (ev.kind, ev.payload) = Hub.commandEvent dev out →
        ∀ state, (received ev).reading state = .ofCommand dev out) ∧
      ∀ line, (∀ b ∈ handleStreamJSON codec line, ∀ ev, (ev.kind, ev.payload) = Claude.event b →
          ∀ state, (received ev).reading state = .ofBody b) ↔
        ∀ err, codec.unmarshal line = .error err → err = "agent error" := by
  refine ⟨applyEvent_reading, fun dev out ev h => reading_command h, fun line => ⟨fun h err herr => ?_, ?_⟩⟩
  · have hev : (EventKind.error, HostBody.toJson (.error err)) = Claude.event (.error err) := rfl
    have hread := h _ (error_mem_handleStreamJSON.mpr herr) ⟨0, 0, _, _⟩ hev newSessionState
    rw [reading_error hev] at hread
    exact (Reading.error.inj hread).symm
  · intro h b hb ev hev state
    cases b with
    | error err => rw [reading_error hev, h err (error_mem_handleStreamJSON.mp hb)]; rfl
    | _ => exact reading_body hev nofun state

namespace Sample

/-- A line that is no JSON. -/
def garbage : List UInt8 := "x".toUTF8.data.toList

/-- What `encoding/json` says of it. -/
def invalidCharacter : String := "invalid character 'x' looking for beginning of value"

/-- The decoding of the line. -/
def codec : Codec where
  unmarshal line := if line = garbage then .error invalidCharacter else .ok []
  marshal _ := "null"
  int n := n.mantissa

end Sample

/-- The text of the error is lost on the way. -/
theorem garbage_misread :
    ¬ ∀ (codec : Codec) line, ∀ b ∈ handleStreamJSON codec line, ∀ ev, (ev.kind, ev.payload) = Claude.event b →
      ∀ state, (received ev).reading state = .ofBody b := by
  intro h
  have hline : Sample.codec.unmarshal Sample.garbage = .error Sample.invalidCharacter := by
    simp [Sample.codec]
  have hev : (EventKind.error, HostBody.toJson (.error Sample.invalidCharacter)) =
      Claude.event (.error Sample.invalidCharacter) := rfl
  have hread := h _ _ _ (error_mem_handleStreamJSON.mpr hline) ⟨0, 0, _, _⟩ hev newSessionState
  rw [reading_error hev] at hread
  exact absurd (Reading.error.inj hread) (by decide)

end Harness.Client
