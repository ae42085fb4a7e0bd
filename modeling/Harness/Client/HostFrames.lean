/-
# Harness.Client.HostFrames — what the client reads out of the frames the daemon writes.

`Harness.Wire.Encode` writes, `types.ts` reads; here the two meet. `received ev` is the event the client
hands to `applyEvent` for the log entry `ev`, and `read_snapshot` says what `applySnapshot` makes of a
`SnapshotPayload`: every member arrives as it was written, an omitted one reads as empty, except the
mode, where an omitted member leaves the client's own mode in place.
-/
import Harness.Client.Inversion

namespace Harness.Client

open Wire (Json EventKind HostBody)

/-! ## Members of an object under construction -/

namespace JsRecord

theorem get_append (r r' : JsRecord) (key : String) :
    get (r ++ r') key = if r'.any fun m => m.1 == key then get r' key else get r key := by
  unfold get
  rw [List.reverse_append, List.find?_append]
  by_cases h : (r'.any fun m => m.1 == key) = true
  · have hsome : (r'.reverse.find? fun m => m.1 == key).isSome = true := by
      rw [List.find?_isSome]
      obtain ⟨m, hm, hk⟩ := List.any_eq_true.mp h
      exact ⟨m, List.mem_reverse.mpr hm, hk⟩
    obtain ⟨m, hm⟩ := Option.isSome_iff_exists.mp hsome
    rw [if_pos h, hm]
    rfl
  · have hnone : (r'.reverse.find? fun m => m.1 == key) = none := by
      rw [List.find?_eq_none]
      intro m hm hk
      exact h (List.any_eq_true.mpr ⟨m, List.mem_reverse.mp hm, hk⟩)
    rw [if_neg h, hnone]
    rfl

theorem get_singleton (k key : String) (v : Json) :
    get [(k, v)] key = if k == key then .ofJson v else .undefined := by
  unfold get
  by_cases h : k = key
  · simp [h]
  · simp [h]

end JsRecord

@[simp] theorem any_omitString (k s key : String) :
    ((Json.omitString k s).any fun m => m.1 == key) = (decide (s ≠ "") && k == key) := by
  unfold Json.omitString
  split <;> simp [*]

@[simp] theorem any_omitList (k key : String) (xs : List Json) :
    ((Json.omitList k xs).any fun m => m.1 == key) = (decide (xs ≠ []) && k == key) := by
  unfold Json.omitList
  split <;> simp [*]

theorem get_omitString (k s : String) :
    JsRecord.get (Json.omitString k s) k = if s = "" then .undefined else .str s := by
  unfold Json.omitString
  split
  · rfl
  · simp [JsRecord.get_singleton, JsValue.ofJson]

theorem get_omitList (k : String) (xs : List Json) :
    JsRecord.get (Json.omitList k xs) k = if xs = [] then .undefined else .arr xs := by
  unfold Json.omitList
  split
  · rfl
  · simp [JsRecord.get_singleton, JsValue.ofJson]

/-- An omitted slice reads as an empty one. -/
theorem asArray_omitList (k : String) (xs : List Json) :
    asArray (JsRecord.get (Json.omitList k xs) k) = xs := by
  rw [get_omitList]
  split
  · simp [asArray, *]
  · rfl

/-! ## Events -/

/-- The event `applyEvent` gets for a log entry. -/
def received (ev : Wire.EventPayload) : EventPayload where
  seq := ev.seq
  ts := .ofJson (.int ev.ts)
  kind := .str ev.kind.string
  payload := .ofJson ev.payload

/-- The members of an event frame. -/
def eventMembers (ev : Wire.EventPayload) : JsRecord :=
  [("seq", .int ev.seq), ("ts", .int ev.ts), ("kind", .str ev.kind.string), ("payload", ev.payload)]

theorem seqOf_eventMembers {ev : Wire.EventPayload} (h : ev.seq < 2 ^ 63) :
    HarnessClient.seqOf (eventMembers ev) = .finite ev.seq := by
  show JsNumber.ofLiteral ⟨(ev.seq : Int), 0⟩ = _
  exact JsNumber.ofLiteral_natCast h

theorem eventOf_eventMembers (ev : Wire.EventPayload) :
    HarnessClient.eventOf (eventMembers ev) ev.seq = received ev := rfl

/-- What the handlers make of an envelope of the daemon. -/
def inboundOf : Wire.Envelope → Inbound
  | .snapshot p => .snapshot p.members
  | .event ev => .event (eventMembers ev)
  | .ack commandID seq => .ack (("commandId", .str commandID) :: Json.omitInt "seq" seq)
  | .error commandID code message =>
      .error (Json.omitString "commandId" commandID ++
        [("code", .str code.string), ("message", .str message)])
  | .paired deviceID name credential =>
      .paired [("deviceId", .str deviceID.val), ("name", .str name), ("credential", .str credential)]

theorem inbound_toJson (e : Wire.Envelope) :
    (parseEnvelope e.toJson).map Envelope.inbound = some (inboundOf e) := by
  cases e <;> rfl

/-- The frame that is read is the frame that was sent. -/
theorem inbound_of_parse {e : Wire.Envelope} {e' : Envelope} (h : parseEnvelope e.toJson = some e') :
    inboundOf e = e'.inbound := by
  have hread := inbound_toJson e
  rw [h] at hread
  exact (Option.some.inj hread).symm

/-- A frame of the daemon arrives on socket `i`. -/
def arrives (i : SocketId) (env : Env) (e : Wire.Envelope) : Action := .message i (some e.toJson) env

/-- The frame that is delivered is the frame that was sent. -/
theorem delivered_arrives {c : HarnessClient} {i : SocketId} {env : Env} {e : Wire.Envelope}
    {f : Inbound} (h : Delivered c (arrives i env e) f) : inboundOf e = f := by
  obtain ⟨j, data, env', s, e', ha, -, -, -, -, hparse, hin⟩ := h
  cases ha
  exact (inbound_of_parse hparse).trans hin

/-- A frame of the daemon, as a socket delivers it. -/
def hostFrame (i : SocketId) (e : Wire.Envelope) : Action := .message i (some e.toJson) {}

theorem delivered_hostFrame {c : HarnessClient} {i : SocketId} {e : Wire.Envelope} {f : Inbound}
    (h : Delivered c (hostFrame i e) f) : inboundOf e = f :=
  delivered_arrives h

/-! ## Event bodies -/

/-- An `omitempty` string as the client reads it. -/
def presentString (s : String) : Option String := if s = "" then none else some s

theorem optionalString_omitString (k s : String) :
    optionalString (JsRecord.get (Json.omitString k s) k) = presentString s := by
  rw [get_omitString, presentString]
  split <;> rfl

section ToolCall

variable (b : Wire.ToolCallBody)

/-- The members of a tool call, the two optional ones left out when empty. -/
def toolMembers : JsRecord :=
  ("name", .str b.name) :: Json.omitString "input" b.input ++ Json.omitString "output" b.output

theorem get_tool (key : String) :
    JsRecord.get (toolMembers b) key =
      if (decide (b.output ≠ "") && "output" == key) = true then
        JsRecord.get (Json.omitString "output" b.output) key
      else if (decide (b.input ≠ "") && "input" == key) = true then
        JsRecord.get (Json.omitString "input" b.input) key
      else JsRecord.get [("name", .str b.name)] key := by
  have h : toolMembers b = ([("name", .str b.name)] ++ Json.omitString "input" b.input) ++
      Json.omitString "output" b.output := rfl
  rw [h, JsRecord.get_append, JsRecord.get_append, any_omitString, any_omitString]

theorem get_tool_name : JsRecord.get (toolMembers b) "name" = .str b.name := by
  rw [get_tool]
  simp [JsRecord.get, JsValue.ofJson]

theorem get_tool_input :
    optionalString (JsRecord.get (toolMembers b) "input") = presentString b.input := by
  rw [get_tool]
  by_cases h : b.input = ""
  · simp [h, JsRecord.get, optionalString, presentString]
  · simp [h, optionalString_omitString]

theorem get_tool_output :
    optionalString (JsRecord.get (toolMembers b) "output") = presentString b.output := by
  rw [get_tool]
  by_cases h : b.output = ""
  · simp [h, JsRecord.get, optionalString, presentString]
  · simp [h, optionalString_omitString]

end ToolCall

/-- `applyEvent` on what the host marshals, in terms of the body. The agent error is read under another
name than it is written, so its text is the reader's fallback. -/
def applyBody (s : SessionState) (seq : ℚ) (ts : JsValue) : HostBody → SessionState
  | .userPrompt b =>
      { s with
        lastSeq := seq
        items := sealOpenAssistant s.items ++ [⟨.prompt seq, seq, ts, .prompt b.text b.byDevice⟩]
        turnActive := true }
  | .textDelta b =>
      if b.content = "" then { s with lastSeq := seq }
      else { s with lastSeq := seq, items := appendAssistant s.items seq ts b.content }
  | .toolCallStart b =>
      { s with
        lastSeq := seq
        items := s.items ++ [⟨.tool seq, seq, ts, .tool b.name (presentString b.input) none false⟩] }
  | .toolCallEnd b =>
      { s with
        lastSeq := seq
        items := (finishTool b.name (presentString b.output) s.items).getD
          (s.items ++ [⟨.tool seq, seq, ts, .tool b.name none (presentString b.output) true⟩]) }
  | .permissionRequest b =>
      if b.requestID = "" then { s with lastSeq := seq }
      else
        { s with
          lastSeq := seq
          pendingPermissions := dedupeBy (·.requestId)
            (s.pendingPermissions ++ [⟨.str b.requestID, .str b.kind, .str b.summary⟩])
          items :=
            if s.items.any (·.isPermission b.requestID) then s.items
            else s.items ++
              [⟨.perm b.requestID, seq, ts, .permission b.requestID b.kind b.summary none⟩] }
  | .question b =>
      if b.questionID = "" then { s with lastSeq := seq }
      else
        { s with
          lastSeq := seq
          pendingQuestions := dedupeBy (·.questionId)
            (s.pendingQuestions ++ [⟨.str b.questionID, .str b.text⟩])
          items :=
            if s.items.any (·.isQuestion b.questionID) then s.items
            else s.items ++ [⟨.q b.questionID, seq, ts, .question b.questionID b.text none⟩] }
  | .permissionResolved b =>
      { s with
        lastSeq := seq
        pendingPermissions :=
          s.pendingPermissions.filter fun p => !p.requestId.strictEq (.str b.requestID)
        items := s.items.map
          (resolvePermission b.requestID ⟨b.allow, b.byDevice, nameFor s b.byDevice⟩) }
  | .questionResolved b =>
      { s with
        lastSeq := seq
        pendingQuestions :=
          s.pendingQuestions.filter fun q => !q.questionId.strictEq (.str b.questionID)
        items := s.items.map
          (resolveQuestion b.questionID ⟨b.text, b.byDevice, nameFor s b.byDevice⟩) }
  | .modeChanged b _ => { s with lastSeq := seq, mode := b.mode }
  | .turnComplete =>
      { s with lastSeq := seq, items := sealOpenAssistant s.items, turnActive := false }
  | .statusChange b =>
      { s with lastSeq := seq, status := b.status, turnActive := b.status == "running" }
  | .usageUpdate b =>
      { s with
        lastSeq := seq
        usage := some
          ⟨asNumber (.ofJson (.int b.inputTokens)) 0, asNumber (.ofJson (.int b.outputTokens)) 0⟩ }
  | .error _ =>
      { s with lastSeq := seq, items := pushNotice s.items seq ts "agent error" .error }

theorem applyEvent_received (s : SessionState) {ev : Wire.EventPayload} {b : HostBody}
    (hk : ev.kind = b.kind) (hp : ev.payload = b.toJson) :
    applyEvent s (received ev) = applyBody s ev.seq (.ofJson (.int ev.ts)) b := by
  obtain ⟨seq, ts, kind, payload⟩ := ev
  simp only at hk hp
  subst hk hp
  cases b with
  | toolCallStart b =>
      show { s with
        lastSeq := (seq : ℚ)
        items := s.items ++ [Item.mk (.tool seq) seq (.ofJson (.int ts))
          (.tool (asString (JsRecord.get (toolMembers b) "name") "tool")
            (optionalString (JsRecord.get (toolMembers b) "input")) none false)] } = _
      rw [get_tool_name, get_tool_input]
      rfl
  | toolCallEnd b =>
      show { s with
        lastSeq := (seq : ℚ)
        items := (finishTool (asString (JsRecord.get (toolMembers b) "name") "tool")
            (optionalString (JsRecord.get (toolMembers b) "output")) s.items).getD
          (s.items ++ [Item.mk (.tool seq) seq (.ofJson (.int ts))
            (.tool (asString (JsRecord.get (toolMembers b) "name") "tool") none
              (optionalString (JsRecord.get (toolMembers b) "output")) true)]) } = _
      rw [get_tool_name, get_tool_output]
      rfl
  | _ => rfl

/-- An event does not move the client to another session. -/
theorem applyBody_sessionId (s : SessionState) (seq : ℚ) (ts : JsValue) (b : HostBody) :
    (applyBody s seq ts b).sessionId = s.sessionId := by
  cases b with
  | textDelta b => rw [applyBody]; split <;> rfl
  | permissionRequest b => rw [applyBody]; split <;> rfl
  | question b => rw [applyBody]; split <;> rfl
  | _ => rfl

/-! ## Snapshots -/

def permissionView (v : Wire.PermissionView) : PermissionView :=
  ⟨.str v.requestID, .str v.kind, .str v.summary⟩

def questionView (v : Wire.QuestionView) : QuestionView := ⟨.str v.questionID, .str v.text⟩

def deviceViewOf (v : Wire.DeviceView) : DeviceView := ⟨v.deviceID.val, v.name⟩

theorem permissionViews_toJson (vs : List Wire.PermissionView) :
    permissionViews (vs.map Wire.PermissionView.toJson) = vs.map permissionView := by
  induction vs with
  | nil => rfl
  | cons v vs ih =>
      show permissionView v :: permissionViews _ = _
      rw [ih]
      rfl

theorem questionViews_toJson (vs : List Wire.QuestionView) :
    questionViews (vs.map Wire.QuestionView.toJson) = vs.map questionView := by
  induction vs with
  | nil => rfl
  | cons v vs ih =>
      show questionView v :: questionViews _ = _
      rw [ih]
      rfl

theorem deviceViews_toJson (vs : List Wire.DeviceView) :
    (vs.map Wire.DeviceView.toJson).filterMap deviceView = vs.map deviceViewOf := by
  induction vs with
  | nil => rfl
  | cons v vs ih =>
      show deviceViewOf v :: List.filterMap deviceView _ = _
      rw [ih]
      rfl

section Members

variable (p : Wire.SnapshotPayload)

theorem get_sessionId : JsRecord.get p.members "sessionId" = .str p.sessionID := by
  simp only [Wire.SnapshotPayload.members, JsRecord.get_append, any_omitList, any_omitString]
  simp [JsRecord.get, JsValue.ofJson]

theorem get_status : JsRecord.get p.members "status" = .str p.status := by
  simp only [Wire.SnapshotPayload.members, JsRecord.get_append, any_omitList, any_omitString]
  simp [JsRecord.get, JsValue.ofJson]

theorem get_mode : JsRecord.get p.members "mode" = if p.mode = "" then .undefined else .str p.mode := by
  simp only [Wire.SnapshotPayload.members, JsRecord.get_append, any_omitList, any_omitString]
  by_cases h : p.mode = ""
  · simp [h, JsRecord.get]
  · simp [h, get_omitString]

theorem get_lastSeq {n : Nat} (hn : p.lastSeq = n) (h : n < 2 ^ 63) :
    JsRecord.get p.members "lastSeq" = .num (.finite n) := by
  simp only [Wire.SnapshotPayload.members, JsRecord.get_append, any_omitList, any_omitString]
  have hlit : JsNumber.ofLiteral ⟨(n : Int), 0⟩ = .finite n := JsNumber.ofLiteral_natCast h
  simp [JsRecord.get, JsValue.ofJson, Json.int, hn, hlit]

theorem asArray_pendingPermissions :
    asArray (JsRecord.get p.members "pendingPermissions") =
      p.pendingPermissions.map Wire.PermissionView.toJson := by
  simp only [Wire.SnapshotPayload.members, JsRecord.get_append, any_omitList, any_omitString]
  by_cases h : p.pendingPermissions = []
  · simp [h, JsRecord.get, asArray]
  · simp [h, asArray_omitList]

theorem asArray_pendingQuestions :
    asArray (JsRecord.get p.members "pendingQuestions") =
      p.pendingQuestions.map Wire.QuestionView.toJson := by
  simp only [Wire.SnapshotPayload.members, JsRecord.get_append, any_omitList, any_omitString]
  by_cases h : p.pendingQuestions = []
  · simp [h, JsRecord.get, asArray]
  · simp [h, asArray_omitList]

theorem asArray_devices :
    asArray (JsRecord.get p.members "devices") = p.devices.map Wire.DeviceView.toJson := by
  simp only [Wire.SnapshotPayload.members, JsRecord.get_append, any_omitList, any_omitString]
  by_cases h : p.devices = []
  · simp [h, JsRecord.get, asArray]
  · simp [h, asArray_omitList]

end Members

/-- A snapshot of the session the client is in, or of its first one, keeps the stream. -/
theorem snapshotBase_same {s : SessionState} {snap : JsRecord}
    (h : s.sessionId = .null ∨ s.sessionId = snap.get "sessionId") (hstr : ∃ id, snap.get "sessionId" = .str id) :
    snapshotBase s snap = s := by
  unfold snapshotBase
  obtain ⟨id, hid⟩ := hstr
  rcases h with h | h
  · rw [h]
    rfl
  · rw [h, hid]
    simp [JsValue.strictEq]

/-- **What `applySnapshot` makes of a host snapshot.** -/
theorem read_snapshot (s : SessionState) (p : Wire.SnapshotPayload) (h : p.lastSeq < 2 ^ 63) :
    applySnapshot s p.members =
      { snapshotBase s p.members with
        sessionId := .str p.sessionID
        status := p.status
        mode := if p.mode = "" then (snapshotBase s p.members).mode else p.mode
        tipSeq := p.lastSeq
        pendingPermissions := dedupeBy (·.requestId) (p.pendingPermissions.map permissionView)
        pendingQuestions := dedupeBy (·.questionId) (p.pendingQuestions.map questionView)
        devices := p.devices.map deviceViewOf
        deviceNames := (p.devices.map deviceViewOf).foldl setDeviceName
          (snapshotBase s p.members).deviceNames } := by
  unfold applySnapshot
  simp only [get_sessionId, get_status, get_mode, get_lastSeq p rfl h, asArray_pendingPermissions,
    asArray_pendingQuestions, asArray_devices, permissionViews_toJson, questionViews_toJson,
    deviceViews_toJson, asString_str, asNumber]
  congr 1
  split <;> rfl

end Harness.Client
