/-
# Harness.Client.Items — what one event does to the item list.

`applyEvent` reads the payload and performs one operation on the items; nothing but the name in a resolution
comes from the rest of the state. `EventPayload.reading` is the reading, `itemOp` names the operation and
`ItemOp.run` performs it, and `applyEvent_items` says that this is what `applyEvent` does. What a run of
events does to the list is argued operation by operation from there.
-/
import Harness.Client.Convergence

namespace Harness.Client

open Lib
open Wire (EventKind)
open Hub (Ask)

/-- `applyEvent` for one event after the other. -/
def applyEvents (state : SessionState) (evs : List EventPayload) : SessionState :=
  evs.foldl applyEvent state

@[simp] theorem applyEvents_nil (state : SessionState) : applyEvents state [] = state := rfl

theorem applyEvents_concat (state : SessionState) (evs : List EventPayload) (ev : EventPayload) :
    applyEvents state (evs ++ [ev]) = applyEvent (applyEvents state evs) ev := List.foldl_concat ..

/-! ## Readings -/

/-- The values in the payload of an event, by its kind; `none` for an optional text that is not there. -/
inductive Reading where
  | userPrompt (text byDevice : String)
  | textDelta (content : String)
  | turnComplete
  | statusChange (status : String)
  | modeChanged (mode : String)
  | usageUpdate (usage : Usage)
  | toolCallStart (name : String) (input : Option String)
  | toolCallEnd (name : String) (output : Option String)
  | permissionRequest (requestId kind summary : String)
  | permissionResolved (requestId : String) (allow : Bool) (byDevice : String)
  | question (questionId text : String)
  | questionResolved (questionId text byDevice : String)
  | error (message : String)
  | other

/-- What `applyEvent` reads. Status and mode fall back on those of the state. -/
def EventPayload.reading (ev : EventPayload) (state : SessionState) : Reading :=
  let payload := ev.body
  match eventKind ev.kind with
  | .userPrompt => .userPrompt (asString (payload.get "text") "") (asString (payload.get "byDevice") "")
  | .textDelta => .textDelta (asString (payload.get "content") "")
  | .turnComplete => .turnComplete
  | .statusChange => .statusChange (asString (payload.get "status") state.status)
  | .modeChanged => .modeChanged (asString (payload.get "mode") state.mode)
  | .usageUpdate =>
      .usageUpdate ⟨asNumber (payload.get "inputTokens") 0, asNumber (payload.get "outputTokens") 0⟩
  | .toolCallStart =>
      .toolCallStart (asString (payload.get "name") "tool") (optionalString (payload.get "input"))
  | .toolCallEnd =>
      .toolCallEnd (asString (payload.get "name") "tool") (optionalString (payload.get "output"))
  | .permissionRequest =>
      .permissionRequest (asString (payload.get "requestId") "") (asString (payload.get "kind") "permission")
        (asString (payload.get "summary") "")
  | .permissionResolved =>
      .permissionResolved (asString (payload.get "requestId") "") (asBool (payload.get "allow") false)
        (asString (payload.get "byDevice") "")
  | .question =>
      .question (asString (payload.get "questionId") "") (asString (payload.get "text") "")
  | .questionResolved =>
      .questionResolved (asString (payload.get "questionId") "") (asString (payload.get "text") "")
        (asString (payload.get "byDevice") "")
  | .error => .error (asString (payload.get "message") "agent error")
  | .other _ => .other

/-! ## Operations -/

/-- What an event does to the item list, with all it needs for that. -/
inductive ItemOp where
  | keep
  | say (seq : ℚ) (ts : JsValue) (content : String)
  | sealLast
  | prompt (seq : ℚ) (ts : JsValue) (text byDevice : String)
  | startTool (seq : ℚ) (ts : JsValue) (name : String) (input : Option String)
  | endTool (seq : ℚ) (ts : JsValue) (name : String) (output : Option String)
  | permission (seq : ℚ) (ts : JsValue) (requestId permissionKind summary : String)
  | question (seq : ℚ) (ts : JsValue) (questionId text : String)
  | resolve (requestId : String) (resolution : Resolution)
  | answer (questionId : String) (resolved : AnsweredQuestion)
  | notice (seq : ℚ) (ts : JsValue) (text : String)

/-- The item a tool that starts is shown as. -/
def startedTool (seq : ℚ) (ts : JsValue) (name : String) (input : Option String) : Item :=
  ⟨.tool seq, seq, ts, .tool name input none false⟩

/-- The item of a tool that ends and is not there. -/
def endedTool (seq : ℚ) (ts : JsValue) (name : String) (output : Option String) : Item :=
  ⟨.tool seq, seq, ts, .tool name none output true⟩

def ItemOp.run (items : List Item) : ItemOp → List Item
  | .keep => items
  | .say seq ts content => appendAssistant items seq ts content
  | .sealLast => sealOpenAssistant items
  | .prompt seq ts text byDevice =>
      sealOpenAssistant items ++ [⟨.prompt seq, seq, ts, .prompt text byDevice⟩]
  | .startTool seq ts name input => items ++ [startedTool seq ts name input]
  | .endTool seq ts name output =>
      (finishTool name output items).getD (items ++ [endedTool seq ts name output])
  | .permission seq ts requestId permissionKind summary =>
      if items.any (·.isPermission requestId) then items
      else items ++ [⟨.perm requestId, seq, ts, .permission requestId permissionKind summary none⟩]
  | .question seq ts questionId text =>
      if items.any (·.isQuestion questionId) then items
      else items ++ [⟨.q questionId, seq, ts, .question questionId text none⟩]
  | .resolve requestId resolution => items.map (resolvePermission requestId resolution)
  | .answer questionId resolved => items.map (resolveQuestion questionId resolved)
  | .notice seq ts text => pushNotice items seq ts text .error

/-- The operation for what is read in an event, `name` being `nameFor` of the state. -/
def Reading.itemOp (name : String → Attribution) (seq : ℚ) (ts : JsValue) : Reading → ItemOp
  | .userPrompt text byDevice => .prompt seq ts text byDevice
  | .textDelta content => if content = "" then .keep else .say seq ts content
  | .turnComplete => .sealLast
  | .toolCallStart name input => .startTool seq ts name input
  | .toolCallEnd name output => .endTool seq ts name output
  | .permissionRequest requestId kind summary =>
      if requestId = "" then .keep else .permission seq ts requestId kind summary
  | .permissionResolved requestId allow byDevice => .resolve requestId ⟨allow, byDevice, name byDevice⟩
  | .question questionId text => if questionId = "" then .keep else .question seq ts questionId text
  | .questionResolved questionId text byDevice => .answer questionId ⟨text, byDevice, name byDevice⟩
  | .error message => .notice seq ts message
  | .statusChange _ | .modeChanged _ | .usageUpdate _ | .other => .keep

/-- The operation of an event. The state a status or a mode falls back on is none of the items'. -/
def itemOp (name : String → Attribution) (ev : EventPayload) : ItemOp :=
  (ev.reading newSessionState).itemOp name ev.seq ev.ts

/-- Only the items are computed from the items. -/
theorem applyEvent_with_items (s : SessionState) (xs : List Item) (ev : EventPayload) :
    applyEvent { s with items := xs } ev =
      { applyEvent s ev with items := (itemOp (nameFor s) ev).run xs } := by
  unfold applyEvent itemOp EventPayload.reading
  cases eventKind ev.kind with
  | textDelta | permissionRequest | question =>
      simp only [Reading.itemOp]
      split <;> rfl
  | _ => rfl

/-- **`applyEvent` on the items.** -/
theorem applyEvent_items (state : SessionState) (ev : EventPayload) :
    (applyEvent state ev).items = (itemOp (nameFor state) ev).run state.items :=
  congrArg SessionState.items (applyEvent_with_items state state.items ev)

/-! ## The parts of the operations -/

/-- An open answer is the last item. -/
theorem eq_concat_of_openAssistant {items : List Item} {last : Item} {text : JsString}
    (h : openAssistant items = some (last, text)) :
    items = items.dropLast ++ [last] ∧ last.body = .assistant text false := by
  unfold openAssistant at h
  split at h
  · rename_i l hl
    split at h
    · rename_i t hbody
      obtain ⟨rfl, rfl⟩ : l = last ∧ t = text := by simpa using h
      obtain ⟨ys, rfl⟩ := List.getLast?_eq_some_iff.mp hl
      exact ⟨by simp, hbody⟩
    · cases h
  · cases h

/-- Finishing a tool changes one item, and only its output and its mark. -/
theorem map_finishTool {T : Type} {f : Item → T} {name : String} {output : Option String}
    (hf : ∀ item n input out, item.body = .tool n input out false →
      f { item with body := .tool n input (output.or out) true } = f item) :
    ∀ {items items' : List Item}, finishTool name output items = some items' →
      items'.map f = items.map f := by
  intro items
  induction items with
  | nil => intro items' h; cases h
  | cons item rest ih =>
      intro items' h
      rw [finishTool] at h
      split at h
      · rename_i rest' hrest
        obtain rfl : item :: rest' = items' := by simpa using h
        rw [List.map_cons, List.map_cons, ih hrest]
      · split at h
        · rename_i n input out hbody
          split at h
          · obtain rfl : _ = items' := Option.some.inj h
            rw [List.map_cons, List.map_cons, hf item n input out hbody]
          · cases h
        · cases h

section FilterMap

variable {T : Type} {f : Item → Option T}

theorem filterMap_push (items : List Item) {x : Item} (hx : f x = none) :
    (items ++ [x]).filterMap f = items.filterMap f := by
  rw [List.filterMap_append, List.filterMap_cons_none hx]
  simp

theorem filterMap_addUnless (items : List Item) (found : Bool) {x : Item} (hx : f x = none) :
    (if found then items else items ++ [x]).filterMap f = items.filterMap f := by
  cases found with
  | true => rfl
  | false => exact filterMap_push items hx

theorem filterMap_map_of_eq (items : List Item) {g : Item → Item} (hg : ∀ item, f (g item) = f item) :
    (items.map g).filterMap f = items.filterMap f := by
  rw [List.filterMap_map]
  exact List.filterMap_congr fun item _ => hg item

/-- What is read off the other items is not changed by sealing an answer, -/
theorem filterMap_sealOpenAssistant
    (hf : ∀ item text sealed, item.body = .assistant text sealed → f item = none) (items : List Item) :
    (sealOpenAssistant items).filterMap f = items.filterMap f := by
  unfold sealOpenAssistant
  cases h : openAssistant items with
  | none => rfl
  | some p =>
      obtain ⟨last, text⟩ := p
      obtain ⟨hitems, hbody⟩ := eq_concat_of_openAssistant h
      show (items.dropLast ++ [_]).filterMap f = items.filterMap f
      rw [filterMap_push _ (hf _ text true rfl)]
      conv => rhs; rw [hitems, filterMap_push _ (hf last text false hbody)]

/-- by adding to one, -/
theorem filterMap_appendAssistant
    (hf : ∀ item text sealed, item.body = .assistant text sealed → f item = none) (items : List Item)
    (seq : ℚ) (ts : JsValue) (content : String) :
    (appendAssistant items seq ts content).filterMap f = items.filterMap f := by
  unfold appendAssistant
  cases h : openAssistant items with
  | none => exact filterMap_push items (hf _ _ false rfl)
  | some p =>
      obtain ⟨last, text⟩ := p
      obtain ⟨hitems, hbody⟩ := eq_concat_of_openAssistant h
      show (items.dropLast ++ [_]).filterMap f = items.filterMap f
      rw [filterMap_push _ (hf _ _ false rfl)]
      conv => rhs; rw [hitems, filterMap_push _ (hf last text false hbody)]

/-- or by finishing a tool. -/
theorem filterMap_finishTool
    (hf : ∀ item n input out done, item.body = .tool n input out done → f item = none) {name : String}
    {output : Option String} {items items' : List Item} (h : finishTool name output items = some items') :
    items'.filterMap f = items.filterMap f := by
  have hmap : items'.map f = items.map f := by
    refine map_finishTool (fun item n input out hbody => ?_) h
    rw [hf _ n input (output.or out) true rfl, hf item n input out false hbody]
  have hid : ∀ xs : List Item, xs.filterMap f = (xs.map f).filterMap id := by
    intro xs
    rw [List.filterMap_map]
    rfl
  rw [hid, hid, hmap]

end FilterMap

/-- Dropping notices drops nothing else. -/
theorem filterMap_dropNotices {T : Type} {f : Item → Option T}
    (hf : ∀ item, item.isNotice = true → f item = none) (n : Nat) (items : List Item) :
    (dropNotices n items).filterMap f = items.filterMap f := by
  induction items generalizing n with
  | nil => cases n <;> rfl
  | cons item rest ih =>
      cases n with
      | zero => rfl
      | succ n =>
          rw [dropNotices]
          split
          · rename_i hnotice
            rw [ih n, List.filterMap_cons_none (hf item hnotice)]
          · simp only [List.filterMap_cons, ih (n + 1)]

/-- The notice that is pushed is the last item, whatever is dropped to make room for it. -/
theorem pushNotice_eq (items : List Item) (seq : ℚ) (ts : JsValue) (text : String)
    (level : NoticeLevel) :
    pushNotice items seq ts text level =
      dropNotices (items.countP Item.isNotice + 1 - maxNotices) items ++
        [⟨.notice seq, seq, ts, .notice text level⟩] := by
  have hdrop : ∀ (xs : List Item) (n : Nat) (x : Item), n ≤ xs.countP Item.isNotice →
      dropNotices n (xs ++ [x]) = dropNotices n xs ++ [x] := by
    intro xs
    induction xs with
    | nil =>
        intro n x hn
        obtain rfl : n = 0 := Nat.le_zero.mp hn
        rfl
    | cons y ys ih =>
        intro n x hn
        cases n with
        | zero => rfl
        | succ n =>
            rw [List.cons_append, dropNotices, dropNotices]
            split
            · rename_i hy
              rw [List.countP_cons_of_pos hy] at hn
              exact ih n x (by omega)
            · rename_i hy
              rw [List.countP_cons_of_neg hy] at hn
              rw [ih (n + 1) x hn]
              rfl
  have hcount : (items ++ [(⟨.notice seq, seq, ts, .notice text level⟩ : Item)]).countP Item.isNotice =
      items.countP Item.isNotice + 1 := by
    rw [List.countP_append]
    rfl
  unfold pushNotice
  simp only
  rw [hcount]
  exact hdrop _ _ _ (by unfold maxNotices; omega)

/-! ## What the log says, read as the client reads it -/

/-- The text an event adds to the answer of the agent. -/
def EventPayload.delta (ev : EventPayload) : String :=
  match eventKind ev.kind with
  | .textDelta => asString (ev.body.get "content") ""
  | _ => ""

/-- Whether an event ends a turn, as the reducer sees it. -/
def EventPayload.endsTurn (ev : EventPayload) : Bool :=
  match eventKind ev.kind with
  | .turnComplete | .userPrompt => true
  | _ => false

/-- The request an event announces. -/
def EventPayload.requested (ev : EventPayload) : Option Ask :=
  match eventKind ev.kind with
  | .permissionRequest => some (.permission (asString (ev.body.get "requestId") ""))
  | .question => some (.question (asString (ev.body.get "questionId") ""))
  | _ => none

/-- The request an event resolves. -/
def EventPayload.settled (ev : EventPayload) : Option Ask :=
  match eventKind ev.kind with
  | .permissionResolved => some (.permission (asString (ev.body.get "requestId") ""))
  | .questionResolved => some (.question (asString (ev.body.get "questionId") ""))
  | _ => none

/-- An event that brings text adds it, and nothing else. -/
theorem itemOp_of_delta (name : String → Attribution) {ev : EventPayload} (h : ev.delta ≠ "") :
    itemOp name ev = .say ev.seq ev.ts ev.delta := by
  unfold EventPayload.delta at h
  unfold itemOp EventPayload.reading EventPayload.delta
  cases hk : eventKind ev.kind with
  | textDelta =>
      rw [hk] at h
      simp only at h
      simp only [Reading.itemOp]
      rw [if_neg h]
  | _ => rw [hk] at h; exact absurd rfl h

/-- An event that brings none adds none. -/
theorem itemOp_ne_say (name : String → Attribution) {ev : EventPayload} (h : ev.delta = "") (seq : ℚ)
    (ts : JsValue) (content : String) : itemOp name ev ≠ .say seq ts content := by
  unfold EventPayload.delta at h
  unfold itemOp EventPayload.reading
  cases hk : eventKind ev.kind with
  | textDelta =>
      rw [hk] at h
      simp only at h
      simp only [Reading.itemOp]
      rw [if_pos h]
      simp
  | permissionRequest | question =>
      simp only [Reading.itemOp]
      split <;> simp
  | _ => simp [Reading.itemOp]

namespace Sample

/-- An event of the log as `applyEvent` gets it. -/
def event (seq : ℚ) (kind : String) (members : JsRecord) : EventPayload :=
  ⟨seq, .null, .str kind, .obj members⟩

def chunk (seq : ℚ) (content : String) : EventPayload :=
  event seq "text_delta" [("content", .str content)]

end Sample

end Harness.Client
