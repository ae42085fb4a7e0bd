/-
# Harness.Client.Reducer — `reducer.ts`: snapshots and events folded into what the screen shows.

`SessionState` is the client's copy of the session. `applySnapshot` seeds the materialized part
(status, mode, pending requests, devices), `applyEvent` applies one event of the log to all of it. Both
are total on whatever a frame holds: every member goes through the readers of `types.ts` first.

Three places where a value is not what its declared type says are kept as they are: the session id of
a snapshot, the timestamp of an event and the members of a pending view are stored without a check, so
they are `JsValue`s here.

The id of an item is written as its template and the value filled in: `prompt-${seq}` is
`ItemId.prompt seq`.
-/
import Harness.Client.Value
import Harness.Lib.OrderedMap

namespace Harness.Client

open Lib
open Wire (Json EventKind)

/-! ## State -/

/-- `MAX_TEXT_BYTES`. -/
def maxTextBytes : Nat := 256 * 1024

/-- `MAX_NOTICES`. -/
def maxNotices : Nat := 50

inductive ItemId where
  | prompt (seq : ℚ)
  | assistant (seq : ℚ)
  | tool (seq : ℚ)
  | notice (seq : ℚ)
  | perm (requestId : String)
  | q (questionId : String)
  deriving DecidableEq

/-- What `byName` ends up holding: a text, or the member of `Object.prototype` a device id of that
name finds in a plain object. -/
inductive Attribution where
  | text (units : JsString)
  | inherited (member : String)
  deriving DecidableEq

structure Resolution where
  allow : Bool
  byDevice : String
  byName : Attribution
  deriving DecidableEq

structure AnsweredQuestion where
  text : String
  byDevice : String
  byName : Attribution
  deriving DecidableEq

inductive NoticeLevel where
  | info
  | error
  deriving DecidableEq

/-- The members of an item besides `id`, `seq` and `ts`, by `kind`. -/
inductive ItemBody where
  | prompt (text byDevice : String)
  | assistant (text : JsString) (sealed : Bool)
  | tool (name : String) (input output : Option String) (done : Bool)
  | permission (requestId permissionKind summary : String) (resolved : Option Resolution)
  | question (questionId text : String) (resolved : Option AnsweredQuestion)
  | notice (text : String) (level : NoticeLevel)
  deriving DecidableEq

structure Item where
  id : ItemId
  seq : ℚ
  ts : JsValue
  body : ItemBody

structure PermissionView where
  requestId : JsValue
  kind : JsValue
  summary : JsValue

structure QuestionView where
  questionId : JsValue
  text : JsValue

structure DeviceView where
  deviceId : String
  name : String
  deriving DecidableEq

structure Usage where
  inputTokens : ℚ
  outputTokens : ℚ
  deriving DecidableEq

/-- `SessionState`. `tipSeq` is the server's tip at snapshot time, `lastSeq` the last contiguously
applied seq; `deviceNames` holds the own properties of the record. -/
structure SessionState where
  sessionId : JsValue
  status : String
  mode : String
  tipSeq : ℚ
  lastSeq : ℚ
  items : List Item
  pendingPermissions : List PermissionView
  pendingQuestions : List QuestionView
  devices : List DeviceView
  deviceNames : OrderedMap String String
  usage : Option Usage
  turnActive : Bool

def newSessionState : SessionState where
  sessionId := .null
  status := "idle"
  mode := ""
  tipSeq := 0
  lastSeq := 0
  items := []
  pendingPermissions := []
  pendingQuestions := []
  devices := []
  deviceNames := ∅
  usage := none
  turnActive := false

/-! ## Views -/

/-- `dedupeBy`: the first element with each key, by the equality of `Set` (no key is NaN, where that
differs from `===`). -/
def dedupeByFrom {T : Type} (key : T → JsValue) (seen : List JsValue) : List T → List T
  | [] => []
  | item :: rest =>
      if seen.any fun v => (key item).strictEq v then dedupeByFrom key seen rest
      else item :: dedupeByFrom key (key item :: seen) rest

def dedupeBy {T : Type} (key : T → JsValue) (items : List T) : List T := dedupeByFrom key [] items

/-- The elements that are records, as views. -/
def permissionViews (xs : List Json) : List PermissionView :=
  xs.filterMap fun x => (isRecord (.ofJson x)).map fun r =>
    ⟨r.get "requestId", r.get "kind", r.get "summary"⟩

def questionViews (xs : List Json) : List QuestionView :=
  xs.filterMap fun x => (isRecord (.ofJson x)).map fun r => ⟨r.get "questionId", r.get "text"⟩

/-- A device entry of a snapshot counts when both members are strings. -/
def deviceView (x : Json) : Option DeviceView :=
  match isRecord (.ofJson x) with
  | none => none
  | some r =>
      match r.get "deviceId", r.get "name" with
      | .str deviceId, .str name => some ⟨deviceId, name⟩
      | _, _ => none

/-- `deviceNames[d.deviceId] = d.name`. Assigning a string to `__proto__` does nothing. -/
def setDeviceName (names : OrderedMap String String) (d : DeviceView) : OrderedMap String String :=
  if d.deviceId = "__proto__" then names else names.set d.deviceId d.name

/-- What a snapshot is laid over: a different session id means a brand new session, the accumulated
stream is dropped. -/
def snapshotBase (state : SessionState) (snap : JsRecord) : SessionState :=
  if !state.sessionId.isNull && !(snap.get "sessionId").strictEq state.sessionId then newSessionState
  else state

/-- `applySnapshot`. Never touches items or lastSeq, unless the session is a different one. -/
def applySnapshot (state : SessionState) (snap : JsRecord) : SessionState :=
  let base := snapshotBase state snap
  let devices := (asArray (snap.get "devices")).filterMap deviceView
  { base with
    sessionId := snap.get "sessionId"
    status := asString (snap.get "status") base.status
    mode := asString (snap.get "mode") base.mode
    tipSeq := asNumber (snap.get "lastSeq") 0
    pendingPermissions :=
      dedupeBy (·.requestId) (permissionViews (asArray (snap.get "pendingPermissions")))
    pendingQuestions :=
      dedupeBy (·.questionId) (questionViews (asArray (snap.get "pendingQuestions")))
    devices := devices
    deviceNames := devices.foldl setDeviceName base.deviceNames }

/-! ## Items -/

/-- `Object.prototype` has these members, all of them truthy. -/
def inheritedMembers : List String :=
  ["constructor", "__defineGetter__", "__defineSetter__", "hasOwnProperty", "__lookupGetter__",
    "__lookupSetter__", "isPrototypeOf", "propertyIsEnumerable", "toString", "valueOf", "__proto__",
    "toLocaleString"]

/-- `nameFor`. -/
def nameFor (state : SessionState) (deviceId : String) : Attribution :=
  if deviceId = "" then .text (utf16 "unknown")
  else
    match state.deviceNames.get deviceId with
    | some name => .text (utf16 name)
    | none =>
        if deviceId ∈ inheritedMembers then .inherited deviceId
        else .text ((utf16 deviceId).take 8)

/-- The loop of `clampText`. `Math.floor(n * 0.9)` is `n * 9 / 10`: the double 0.9 is above 9/10 by
less than the rounding of the product. -/
def clampLoop (out : JsString) : JsString :=
  if h : 0 < out.length ∧ maxTextBytes < textByteLength out then
    clampLoop (out.take (out.length * 9 / 10))
  else out
termination_by out.length
decreasing_by
  rw [List.length_take]
  omega

def clampText (text : JsString) : JsString :=
  if textByteLength text ≤ maxTextBytes then text else clampLoop text

/-- `last && last.kind === 'assistant' && !last.sealed`. -/
def openAssistant (items : List Item) : Option (Item × JsString) :=
  match items.getLast? with
  | some last =>
      match last.body with
      | .assistant text false => some (last, text)
      | _ => none
  | none => none

def appendAssistant (items : List Item) (seq : ℚ) (ts : JsValue) (content : String) : List Item :=
  match openAssistant items with
  | some (last, text) =>
      items.dropLast ++ [{ last with body := .assistant (clampText (text ++ utf16 content)) false }]
  | none =>
      items ++ [⟨.assistant seq, seq, ts, .assistant (clampText (utf16 content)) false⟩]

def sealOpenAssistant (items : List Item) : List Item :=
  match openAssistant items with
  | some (last, text) => items.dropLast ++ [{ last with body := .assistant text true }]
  | none => items

/-- `finishTool`: the last open tool of that name, searched from the end, is done. `none` when there
is none. An absent output leaves the item's own. -/
def finishTool (name : String) (output : Option String) : List Item → Option (List Item)
  | [] => none
  | item :: rest =>
      match finishTool name output rest with
      | some rest' => some (item :: rest')
      | none =>
          match item.body with
          | .tool n input out false =>
              if n = name then
                some ({ item with body := .tool n input (output.or out) true } :: rest)
              else none
          | _ => none

def Item.isNotice (item : Item) : Bool :=
  match item.body with
  | .notice _ _ => true
  | _ => false

/-- Drop the first `n` notices. -/
def dropNotices : Nat → List Item → List Item
  | 0, items => items
  | _, [] => []
  | n + 1, item :: rest =>
      if item.isNotice then dropNotices n rest else item :: dropNotices (n + 1) rest

def pushNotice (items : List Item) (seq : ℚ) (ts : JsValue) (text : String) (level : NoticeLevel) :
    List Item :=
  let withNotice := items ++ [⟨.notice seq, seq, ts, .notice text level⟩]
  dropNotices (withNotice.countP Item.isNotice - maxNotices) withNotice

/-- `trimItems`. -/
def trimItems (items : List Item) (max : Nat) : List Item :=
  if items.length ≤ max then items else items.drop (items.length - max)

def Item.isPermission (requestId : String) (item : Item) : Bool :=
  match item.body with
  | .permission r _ _ _ => r == requestId
  | _ => false

def Item.isQuestion (questionId : String) (item : Item) : Bool :=
  match item.body with
  | .question q _ _ => q == questionId
  | _ => false

def resolvePermission (requestId : String) (resolution : Resolution) (item : Item) : Item :=
  match item.body with
  | .permission r kind summary old =>
      { item with body := .permission r kind summary (if r = requestId then some resolution else old) }
  | _ => item

def resolveQuestion (questionId : String) (answer : AnsweredQuestion) (item : Item) : Item :=
  match item.body with
  | .question q text old =>
      { item with body := .question q text (if q = questionId then some answer else old) }
  | _ => item

/-! ## Events -/

/-- An event that passed the seq check of `handleEvent`. -/
structure EventPayload where
  seq : ℚ
  ts : JsValue
  kind : JsValue
  payload : JsValue

/-- The case of `switch (ev.kind)`. -/
def eventKind : JsValue → EventKind
  | .str s => .ofString s
  | _ => .other ""

/-- The members of `ev.payload`, none when it is not a record. -/
def EventPayload.body (ev : EventPayload) : JsRecord := (isRecord ev.payload).getD []

/-- `applyEvent`. Assumes the caller has already validated seq contiguity. -/
def applyEvent (state : SessionState) (ev : EventPayload) : SessionState :=
  let next := { state with lastSeq := ev.seq }
  let payload := ev.body
  match eventKind ev.kind with
  | .userPrompt =>
      let item := ⟨.prompt ev.seq, ev.seq, ev.ts,
        .prompt (asString (payload.get "text") "") (asString (payload.get "byDevice") "")⟩
      { next with items := sealOpenAssistant state.items ++ [item], turnActive := true }
  | .textDelta =>
      let content := asString (payload.get "content") ""
      if content = "" then next
      else { next with items := appendAssistant state.items ev.seq ev.ts content }
  | .turnComplete => { next with items := sealOpenAssistant state.items, turnActive := false }
  | .statusChange =>
      let status := asString (payload.get "status") state.status
      { next with status := status, turnActive := status == "running" }
  | .modeChanged => { next with mode := asString (payload.get "mode") state.mode }
  | .usageUpdate =>
      { next with
        usage := some
          ⟨asNumber (payload.get "inputTokens") 0, asNumber (payload.get "outputTokens") 0⟩ }
  | .toolCallStart =>
      let item := ⟨.tool ev.seq, ev.seq, ev.ts,
        .tool (asString (payload.get "name") "tool") (optionalString (payload.get "input")) none false⟩
      { next with items := state.items ++ [item] }
  | .toolCallEnd =>
      let name := asString (payload.get "name") "tool"
      let output := optionalString (payload.get "output")
      { next with
        items := (finishTool name output state.items).getD
          (state.items ++ [⟨.tool ev.seq, ev.seq, ev.ts, .tool name none output true⟩]) }
  | .permissionRequest =>
      let requestId := asString (payload.get "requestId") ""
      let permissionKind := asString (payload.get "kind") "permission"
      let summary := asString (payload.get "summary") ""
      if requestId = "" then next
      else
        { next with
          pendingPermissions := dedupeBy (·.requestId)
            (state.pendingPermissions ++ [⟨.str requestId, .str permissionKind, .str summary⟩])
          items :=
            if state.items.any (·.isPermission requestId) then state.items
            else state.items ++ [⟨.perm requestId, ev.seq, ev.ts,
              .permission requestId permissionKind summary none⟩] }
  | .permissionResolved =>
      let requestId := asString (payload.get "requestId") ""
      let byDevice := asString (payload.get "byDevice") ""
      let resolution : Resolution :=
        { allow := asBool (payload.get "allow") false
          byDevice := byDevice
          byName := nameFor state byDevice }
      { next with
        pendingPermissions :=
          state.pendingPermissions.filter fun p => !p.requestId.strictEq (.str requestId)
        items := state.items.map (resolvePermission requestId resolution) }
  | .question =>
      let questionId := asString (payload.get "questionId") ""
      let text := asString (payload.get "text") ""
      if questionId = "" then next
      else
        { next with
          pendingQuestions := dedupeBy (·.questionId)
            (state.pendingQuestions ++ [⟨.str questionId, .str text⟩])
          items :=
            if state.items.any (·.isQuestion questionId) then state.items
            else state.items ++ [⟨.q questionId, ev.seq, ev.ts, .question questionId text none⟩] }
  | .questionResolved =>
      let questionId := asString (payload.get "questionId") ""
      let byDevice := asString (payload.get "byDevice") ""
      let answer : AnsweredQuestion :=
        { text := asString (payload.get "text") ""
          byDevice := byDevice
          byName := nameFor state byDevice }
      { next with
        pendingQuestions :=
          state.pendingQuestions.filter fun q => !q.questionId.strictEq (.str questionId)
        items := state.items.map (resolveQuestion questionId answer) }
  | .error =>
      let message := asString (payload.get "message") "agent error"
      { next with items := pushNotice state.items ev.seq ev.ts message .error }
  | .other _ => next

@[simp] theorem applyEvent_lastSeq (state : SessionState) (ev : EventPayload) :
    (applyEvent state ev).lastSeq = ev.seq := by
  unfold applyEvent
  cases eventKind ev.kind <;> simp only <;> split <;> rfl

@[simp] theorem applyEvent_sessionId (state : SessionState) (ev : EventPayload) :
    (applyEvent state ev).sessionId = state.sessionId := by
  unfold applyEvent
  cases eventKind ev.kind <;> simp only <;> split <;> rfl

@[simp] theorem applyEvent_tipSeq (state : SessionState) (ev : EventPayload) :
    (applyEvent state ev).tipSeq = state.tipSeq := by
  unfold applyEvent
  cases eventKind ev.kind <;> simp only <;> split <;> rfl

/-! ## Deduplication loses no key -/

section Dedupe

variable {T : Type} {key : T → JsValue}

theorem mem_of_mem_dedupeByFrom {x : T} :
    ∀ {seen : List JsValue} {xs : List T}, x ∈ dedupeByFrom key seen xs → x ∈ xs := by
  intro seen xs
  induction xs generalizing seen with
  | nil => exact id
  | cons y ys ih =>
      intro h
      rw [dedupeByFrom] at h
      split at h
      · exact List.mem_cons_of_mem y (ih h)
      · rcases List.mem_cons.mp h with rfl | h
        · exact List.mem_cons_self
        · exact List.mem_cons_of_mem y (ih h)

theorem mem_of_mem_dedupeBy {x : T} {xs : List T} (h : x ∈ dedupeBy key xs) : x ∈ xs :=
  mem_of_mem_dedupeByFrom h

/-- What is dropped has a key that was seen, what is kept may hide only elements of its own key. -/
theorem any_dedupeByFrom (r : String) (xs : List T) (seen : List JsValue) :
    ((dedupeByFrom key seen xs).any fun x => (key x).strictEq (.str r)) =
      (!(seen.any fun v => v.strictEq (.str r)) && xs.any fun x => (key x).strictEq (.str r)) := by
  induction xs generalizing seen with
  | nil => simp [dedupeByFrom]
  | cons y ys ih =>
      rw [dedupeByFrom, List.any_cons]
      by_cases hy : key y = .str r
      · -- the key itself: it was seen, or it is kept
        have hseen : (seen.any fun v => (key y).strictEq v) = seen.any fun v => v.strictEq (.str r) := by
          rw [hy]
          refine congrArg (seen.any ·) (funext fun v => ?_)
          rw [Bool.eq_iff_iff, JsValue.strictEq_str]
          exact ⟨fun h => (JsValue.eq_of_strictEq h).symm, fun h => by rw [h]; simp [JsValue.strictEq]⟩
        rw [hseen]
        cases hs : seen.any fun v => v.strictEq (.str r)
        · simp [hy, JsValue.strictEq]
        · simp [ih, hs]
      · have hne : (key y).strictEq (.str r) = false := by
          rw [Bool.eq_false_iff, ne_eq, JsValue.strictEq_str]
          exact hy
        rw [hne, Bool.false_or]
        split
        · exact ih seen
        · rw [List.any_cons, ih, List.any_cons, hne, Bool.false_or, Bool.false_or]

theorem any_dedupeBy (key : T → JsValue) (r : String) (xs : List T) :
    ((dedupeBy key xs).any fun x => (key x).strictEq (.str r)) =
      xs.any fun x => (key x).strictEq (.str r) := by
  rw [dedupeBy, any_dedupeByFrom]
  simp

end Dedupe

end Harness.Client
