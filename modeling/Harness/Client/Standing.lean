/-
# Harness.Client.Standing — a request in the pending list and the same request on the screen.

A request that arrives is entered in the pending list and shown as an item; its resolution takes it off
the list and greys the item out. The list takes the request every time it is announced, the item is made
once (`Harness.Lib.Reopened`). So the two tell the same until an id that was resolved is announced again:
`pending_iff_unresolved` says that this is the only way for them to part.
-/
import Harness.Client.Items
import Harness.Lib.Reopened

namespace Harness.Client

open Lib
open Hub (Ask)

/-! ## The request items -/

/-- The item shows the request. -/
def Item.asks : Ask → Item → Bool
  | .permission requestId => Item.isPermission requestId
  | .question questionId => Item.isQuestion questionId

/-- The item has no `resolved` field. -/
def Item.unresolved (item : Item) : Bool :=
  match item.body with
  | .permission _ _ _ resolved => resolved.isNone
  | .question _ _ resolved => resolved.isNone
  | _ => false

/-- **`Unresolved items a`** — the item of the request is there, and has no `resolved` field. -/
def Unresolved (items : List Item) (a : Ask) : Prop :=
  ∃ item ∈ items, item.asks a = true ∧ item.unresolved = true

/-- The request an item shows, and whether it is unresolved. -/
def asked (item : Item) : Option (Ask × Bool) :=
  match item.body with
  | .permission requestId _ _ resolved => some (.permission requestId, resolved.isNone)
  | .question questionId _ resolved => some (.question questionId, resolved.isNone)
  | _ => none

/-- The request items as records. -/
def records (items : List Item) : List (Ask × Bool) := items.filterMap asked

theorem asked_eq_some {item : Item} {a : Ask} {b : Bool} :
    asked item = some (a, b) ↔ item.asks a = true ∧ item.unresolved = b ∧ (asked item).isSome = true := by
  obtain ⟨id, seq, ts, body⟩ := item
  cases a <;> cases body <;>
    simp [asked, Item.asks, Item.isPermission, Item.isQuestion, Item.unresolved]

theorem isSome_asked {item : Item} {a : Ask} (h : item.asks a = true) : (asked item).isSome = true := by
  obtain ⟨id, seq, ts, body⟩ := item
  cases a <;> cases body <;> simp_all [asked, Item.asks, Item.isPermission, Item.isQuestion]

theorem unresolved_iff {items : List Item} {a : Ask} : Unresolved items a ↔ (a, true) ∈ records items := by
  rw [records, List.mem_filterMap]
  constructor
  · rintro ⟨item, hitem, hasks, hun⟩
    exact ⟨item, hitem, asked_eq_some.mpr ⟨hasks, hun, isSome_asked hasks⟩⟩
  · rintro ⟨item, hitem, h⟩
    obtain ⟨hasks, hun, -⟩ := asked_eq_some.mp h
    exact ⟨item, hitem, hasks, hun⟩

theorem any_asks_iff {items : List Item} {a : Ask} :
    items.any (·.asks a) = true ↔ Recorded a (records items) := by
  rw [List.any_eq_true]
  simp only [Recorded, records, List.mem_filterMap]
  constructor
  · rintro ⟨item, hitem, hasks⟩
    exact ⟨item.unresolved, item, hitem, asked_eq_some.mpr ⟨hasks, rfl, isSome_asked hasks⟩⟩
  · rintro ⟨b, item, hitem, h⟩
    exact ⟨item, hitem, (asked_eq_some.mp h).1⟩

/-! ## Operations -/

/-- The request an operation shows. -/
def ItemOp.requested : ItemOp → Option Ask
  | .permission _ _ requestId _ _ => some (.permission requestId)
  | .question _ _ questionId _ => some (.question questionId)
  | _ => none

/-- The request it greys out. -/
def ItemOp.settled : ItemOp → Option Ask
  | .resolve requestId _ => some (.permission requestId)
  | .answer questionId _ => some (.question questionId)
  | _ => none

/-- What an operation does to the records. -/
def ItemOp.record (op : ItemOp) (rs : List (Ask × Bool)) : List (Ask × Bool) :=
  match op.requested, op.settled with
  | some a, _ => addRecord a rs
  | none, some a => crossOut a rs
  | none, none => rs

theorem records_append (xs ys : List Item) : records (xs ++ ys) = records xs ++ records ys :=
  List.filterMap_append

theorem asked_of_assistant (item : Item) (text : JsString) (sealed : Bool)
    (h : item.body = .assistant text sealed) : asked item = none := by
  rw [asked, h]

theorem asked_of_tool (item : Item) (n : String) (input out : Option String) (done : Bool)
    (h : item.body = .tool n input out done) : asked item = none := by
  rw [asked, h]

theorem asked_of_isNotice {item : Item} (h : item.isNotice = true) : asked item = none := by
  obtain ⟨id, seq, ts, body⟩ := item
  cases body with
  | notice text level => rfl
  | _ => cases h

/-- A request that is shown unless it is there. -/
theorem records_add (items : List Item) (a : Ask) {x : Item} (hx : asked x = some (a, true)) :
    records (if items.any (·.asks a) then items else items ++ [x]) = addRecord a (records items) := by
  have hany : items.any (·.asks a) = (records items).any fun r => decide (r.1 = a) := by
    rw [Bool.eq_iff_iff, any_asks_iff, any_key_iff]
  rw [hany, addRecord]
  split
  · rfl
  · rw [records_append, records, records]
    simp [hx]

/-- A resolution that is written into the item of its request. -/
theorem records_map (items : List Item) (a : Ask) {f : Item → Item}
    (hf : ∀ item, asked (f item) = (asked item).map fun r => if r.1 = a then (r.1, false) else r) :
    records (items.map f) = crossOut a (records items) := by
  rw [records, records, crossOut, List.filterMap_map, List.map_filterMap]
  exact List.filterMap_congr fun item _ => hf item

/-- **On the request items an operation is one of the records.** -/
theorem records_run (items : List Item) (op : ItemOp) :
    records (op.run items) = op.record (records items) := by
  cases op with
  | keep => rfl
  | say seq ts content => exact filterMap_appendAssistant asked_of_assistant items seq ts content
  | sealLast => exact filterMap_sealOpenAssistant asked_of_assistant items
  | prompt seq ts text byDevice =>
      exact (filterMap_push _ rfl).trans (filterMap_sealOpenAssistant asked_of_assistant items)
  | startTool seq ts name input => exact filterMap_push items rfl
  | endTool seq ts name output =>
      show records ((finishTool name output items).getD _) = records items
      cases h : finishTool name output items with
      | none => exact filterMap_push items rfl
      | some items' => exact filterMap_finishTool asked_of_tool h
  | permission seq ts requestId kind summary => exact records_add items (.permission requestId) rfl
  | question seq ts questionId text => exact records_add items (.question questionId) rfl
  | resolve requestId resolution =>
      refine records_map items (.permission requestId) fun item => ?_
      obtain ⟨id, seq, ts, body⟩ := item
      cases body with
      | permission r kind summary old =>
          by_cases h : r = requestId
          · simp [resolvePermission, asked, h]
          · simp [resolvePermission, asked, h]
      | question q text old => simp [resolvePermission, asked]
      | _ => rfl
  | answer questionId resolved =>
      refine records_map items (.question questionId) fun item => ?_
      obtain ⟨id, seq, ts, body⟩ := item
      cases body with
      | question q text old =>
          by_cases h : q = questionId
          · simp [resolveQuestion, asked, h]
          · simp [resolveQuestion, asked, h]
      | permission r kind summary old => simp [resolveQuestion, asked]
      | _ => rfl
  | notice seq ts text =>
      show records (pushNotice items seq ts text .error) = records items
      rw [pushNotice_eq]
      refine (filterMap_push _ rfl).trans ?_
      exact filterMap_dropNotices (fun _ => asked_of_isNotice) _ items

/-! ## Events -/

theorem settled_itemOp (name : String → Attribution) (ev : EventPayload) :
    (itemOp name ev).settled = ev.settled := by
  unfold itemOp EventPayload.reading EventPayload.settled
  cases eventKind ev.kind with
  | textDelta | permissionRequest | question =>
      simp only [Reading.itemOp]
      split <;> rfl
  | _ => rfl

/-- An operation that is passed over without an id requests what it would with one. -/
theorem requested_guarded {op : ItemOp} {a b : Ask} (hop : op.requested = some b) (ha : askId a ≠ "") :
    (if askId b = "" then ItemOp.keep else op).requested = some a ↔ some b = some a := by
  split
  · rename_i hid
    refine iff_of_false (fun h => by cases h) fun h => ?_
    obtain rfl := Option.some.inj h
    exact ha hid
  · rw [hop]

/-- A request without an id is passed over, all others are shown. -/
theorem requested_itemOp (name : String → Attribution) (ev : EventPayload) {a : Ask}
    (ha : askId a ≠ "") : (itemOp name ev).requested = some a ↔ ev.requested = some a := by
  unfold itemOp EventPayload.reading EventPayload.requested
  cases eventKind ev.kind with
  | textDelta => simp only [Reading.itemOp]; split <;> simp [ItemOp.requested]
  | permissionRequest => exact requested_guarded (b := .permission _) rfl ha
  | question => exact requested_guarded (b := .question _) rfl ha
  | _ => simp [Reading.itemOp, ItemOp.requested]

/-- No event both announces and resolves. -/
theorem EventPayload.requested_settled (ev : EventPayload) : ev.requested = none ∨ ev.settled = none := by
  unfold EventPayload.requested EventPayload.settled
  cases eventKind ev.kind <;> simp

theorem ItemOp.requested_settled (op : ItemOp) : op.requested = none ∨ op.settled = none := by
  cases op <;> simp [requested, settled]

theorem recorded_record {op : ItemOp} {rs : List (Ask × Bool)} {a : Ask} :
    Recorded a (op.record rs) ↔ Recorded a rs ∨ op.requested = some a := by
  unfold ItemOp.record
  cases hr : op.requested with
  | some b => simp only [recorded_addRecord, Option.some.injEq]; exact or_comm
  | none =>
      cases op.settled with
      | some b => simp [recorded_crossOut]
      | none => simp

theorem mem_record {op : ItemOp} {rs : List (Ask × Bool)} {a : Ask} :
    (a, true) ∈ op.record rs ↔
      (op.requested = some a ∧ ¬ Recorded a rs) ∨ (a, true) ∈ rs ∧ op.settled ≠ some a := by
  have hdisj := op.requested_settled
  unfold ItemOp.record
  cases hr : op.requested with
  | some b =>
      have hs : op.settled = none := hdisj.resolve_left (by rw [hr]; simp)
      simp [mem_addRecord, hs]
  | none =>
      cases hs : op.settled with
      | some b => simp [mem_crossOut]
      | none => simp

section Ask

variable {a : Ask} (ha : askId a ≠ "")
include ha

theorem recorded_applyEvent (s : SessionState) (ev : EventPayload) :
    Recorded a (records (applyEvent s ev).items) ↔
      Recorded a (records s.items) ∨ ev.requested = some a := by
  rw [applyEvent_items, records_run, recorded_record, requested_itemOp _ _ ha]

theorem unresolved_applyEvent (s : SessionState) (ev : EventPayload) :
    Unresolved (applyEvent s ev).items a ↔
      (ev.requested = some a ∧ ¬ Recorded a (records s.items)) ∨
        Unresolved s.items a ∧ ev.settled ≠ some a := by
  rw [unresolved_iff, unresolved_iff, applyEvent_items, records_run, mem_record, requested_itemOp _ _ ha,
    settled_itemOp]

/-- The pending list takes what is announced and gives up what is resolved. -/
theorem shows_next (s : SessionState) (ev : EventPayload) :
    (applyEvent s ev).shows a = true ↔
      ev.requested = some a ∨ s.shows a = true ∧ ev.settled ≠ some a := by
  unfold applyEvent EventPayload.requested EventPayload.settled
  cases eventKind ev.kind with
  | permissionRequest =>
      simp only
      split
      · rename_i hid
        rw [hid]
        have hne : (some (Ask.permission "") = some a) = False := by
          refine eq_false fun h => ha ?_
          rw [← Option.some.inj h]
          rfl
        cases a <;> simp [SessionState.shows, hne]
      · cases a with
        | permission r =>
            have hany := any_dedupeBy_concat PermissionView.requestId s.pendingPermissions
              (x := ⟨.str (asString (ev.body.get "requestId") ""),
                .str (asString (ev.body.get "kind") "permission"),
                .str (asString (ev.body.get "summary") "")⟩) rfl r
            simp only [SessionState.shows, hany]
            simp
        | question q => simp [SessionState.shows]
  | question =>
      simp only
      split
      · rename_i hid
        rw [hid]
        have hne : (some (Ask.question "") = some a) = False := by
          refine eq_false fun h => ha ?_
          rw [← Option.some.inj h]
          rfl
        cases a <;> simp [SessionState.shows, hne]
      · cases a with
        | permission r => simp [SessionState.shows]
        | question q =>
            have hany := any_dedupeBy_concat QuestionView.questionId s.pendingQuestions
              (x := ⟨.str (asString (ev.body.get "questionId") ""),
                .str (asString (ev.body.get "text") "")⟩) rfl q
            simp only [SessionState.shows, hany]
            simp
  | permissionResolved =>
      cases a with
      | permission r => simp only [SessionState.shows, any_filter_key PermissionView.requestId]; simp
      | question q => simp [SessionState.shows]
  | questionResolved =>
      cases a with
      | permission r => simp [SessionState.shows]
      | question q => simp only [SessionState.shows, any_filter_key QuestionView.questionId]; simp
  | textDelta =>
      simp only
      split <;> cases a <;> simp [SessionState.shows]
  | _ => cases a <;> simp [SessionState.shows]

end Ask

/-- **`AskedAgain a evs`** — the request was announced, resolved and announced again, and not resolved
since. -/
def AskedAgain (a : Ask) (evs : List EventPayload) : Prop :=
  Reopened (fun ev => EventPayload.requested ev = some a) (fun ev => EventPayload.settled ev = some a) evs

theorem recorded_applyEvents {a : Ask} (ha : askId a ≠ "") (evs : List EventPayload) :
    Recorded a (records (applyEvents newSessionState evs).items) ↔
      Opened (fun ev => EventPayload.requested ev = some a) evs := by
  induction evs using List.reverseRecOn with
  | nil => simp [Recorded, records, newSessionState, Opened]
  | append_singleton evs ev ih =>
      rw [applyEvents_concat, recorded_applyEvent ha, ih, opened_concat]

/-- **When what is pending is what is shown as unresolved.** After any events the two tell the same about
a request, exactly if it was not asked again after having been resolved. -/
theorem pending_iff_unresolved (evs : List EventPayload) (a : Ask) (ha : askId a ≠ "") :
    ((applyEvents newSessionState evs).shows a = true ↔
        Unresolved (applyEvents newSessionState evs).items a) ↔ ¬ AskedAgain a evs := by
  refine agree_iff (M := fun evs => (applyEvents newSessionState evs).shows a = true)
    (R := fun evs => Unresolved (applyEvents newSessionState evs).items a) ?_ ?_ ?_ ?_ ?_ evs
  · intro ev hreq hset
    rcases ev.requested_settled with h | h
    · rw [h] at hreq
      cases hreq
    · rw [h] at hset
      cases hset
  · cases a <;> simp [SessionState.shows, newSessionState]
  · simp [Unresolved, newSessionState]
  · intro es ev
    simp only [applyEvents_concat]
    exact shows_next ha _ ev
  · intro es ev
    simp only [applyEvents_concat]
    rw [unresolved_applyEvent ha, recorded_applyEvents ha]

namespace Sample

/-- The agent asks, is answered, and asks under the same id. -/
def askedTwice : List EventPayload :=
  [event 1 "permission_request" [("requestId", .str "r-mock-1")],
    event 2 "permission_resolved" [("requestId", .str "r-mock-1"), ("allow", .bool true)],
    event 3 "permission_request" [("requestId", .str "r-mock-1")]]

end Sample

/-- It is pending then, and its item is still greyed out. -/
theorem askedTwice_parts :
    ¬ ((applyEvents newSessionState Sample.askedTwice).shows (.permission "r-mock-1") = true ↔
        Unresolved (applyEvents newSessionState Sample.askedTwice).items (.permission "r-mock-1")) := by
  have hpending : (applyEvents newSessionState Sample.askedTwice).shows (.permission "r-mock-1") = true := by
    decide +kernel
  have hgrey : ((applyEvents newSessionState Sample.askedTwice).items.any
      fun item => item.asks (.permission "r-mock-1") && item.unresolved) = false := by decide +kernel
  intro h
  obtain ⟨item, hitem, hasks, hun⟩ := h.mp hpending
  rw [List.any_eq_false] at hgrey
  exact hgrey item hitem (by rw [hasks, hun]; rfl)

theorem pending_iff_unresolved_askedOnce :
    ((applyEvents newSessionState (Sample.askedTwice.take 1)).shows (.permission "r-mock-1") = true ↔
        Unresolved (applyEvents newSessionState (Sample.askedTwice.take 1)).items
          (.permission "r-mock-1")) ↔
      ¬ AskedAgain (.permission "r-mock-1") (Sample.askedTwice.take 1) :=
  pending_iff_unresolved _ _ (by decide)

end Harness.Client
