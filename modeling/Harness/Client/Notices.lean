/-
# Harness.Client.Notices — the cap on notices.

An error event adds a notice, and when there are more than `MAX_NOTICES` the oldest one is taken out of the
middle of the list. `applyEventUncapped` is the reducer that takes none out. The two stay in step: the items of
the capped one are those of the other without the oldest notices (`dropNotices`), because every other
operation commutes with leaving these out as long as the newest notice stays, which may be the last item.

So `notices_capped`: the notices are those of the last error events, and everything else is as it would be
without the cap.
-/
import Harness.Client.Tail

namespace Harness.Client

open Lib

/-! ## The reducer without the cap -/

/-- The notice of an error event. -/
def noticeItem (seq : ℚ) (ts : JsValue) (text : String) : Item :=
  ⟨.notice seq, seq, ts, .notice text .error⟩

/-- The operation, where a notice takes none out. -/
def ItemOp.runUncapped (items : List Item) : ItemOp → List Item
  | .notice seq ts text => items ++ [noticeItem seq ts text]
  | op => op.run items

/-- `applyEvent` with notices that are never removed. -/
def applyEventUncapped (state : SessionState) (ev : EventPayload) : SessionState :=
  { applyEvent state ev with items := (itemOp (nameFor state) ev).runUncapped state.items }

def applyEventsUncapped (state : SessionState) (evs : List EventPayload) : SessionState :=
  evs.foldl applyEventUncapped state

/-- The notice an event adds. -/
def EventPayload.notice (ev : EventPayload) : Option Item :=
  match eventKind ev.kind with
  | .error => some (noticeItem ev.seq ev.ts (asString (ev.body.get "message") "agent error"))
  | _ => none

/-! ## Leaving out notices -/

theorem dropNotices_zero (items : List Item) : dropNotices 0 items = items := by
  cases items <;> rfl

theorem dropNotices_cons_other (n : Nat) {item : Item} (h : ¬ item.isNotice = true) (rest : List Item) :
    dropNotices n (item :: rest) = item :: dropNotices n rest := by
  cases n with
  | zero => rw [dropNotices_zero, dropNotices_zero]
  | succ n => rw [dropNotices, if_neg h]

theorem dropNotices_dropNotices (m n : Nat) (items : List Item) :
    dropNotices m (dropNotices n items) = dropNotices (n + m) items := by
  induction items generalizing n with
  | nil => cases n <;> cases m <;> rfl
  | cons item rest ih =>
      by_cases hitem : item.isNotice = true
      · cases n with
        | zero => rw [dropNotices_zero, Nat.zero_add]
        | succ n => rw [dropNotices, if_pos hitem, Nat.succ_add, dropNotices, if_pos hitem, ih n]
      · rw [dropNotices_cons_other n hitem, dropNotices_cons_other m hitem,
          dropNotices_cons_other (n + m) hitem, ih n]

/-- The notices that are left. -/
theorem filter_dropNotices (n : Nat) (items : List Item) :
    (dropNotices n items).filter Item.isNotice = (items.filter Item.isNotice).drop n := by
  induction items generalizing n with
  | nil => cases n <;> rfl
  | cons item rest ih =>
      by_cases hitem : item.isNotice = true
      · cases n with
        | zero => rw [dropNotices_zero, List.drop_zero]
        | succ n =>
            rw [dropNotices, if_pos hitem, ih n, List.filter_cons_of_pos hitem, List.drop_succ_cons]
      · rw [dropNotices_cons_other n hitem, List.filter_cons_of_neg hitem,
          List.filter_cons_of_neg hitem, ih n]

/-- **`Newest n items`** — leaving out the first `n` notices leaves the newest one, if any is left out. -/
def Newest (n : Nat) (items : List Item) : Prop := n = 0 ∨ n < items.countP Item.isNotice

/-- Then an item that comes after is not concerned. -/
theorem dropNotices_push {n : Nat} {items : List Item} (h : Newest n items) (x : Item) :
    dropNotices n (items ++ [x]) = dropNotices n items ++ [x] := by
  have hle : n - items.countP Item.isNotice = 0 := by
    rcases h with rfl | h
    · exact Nat.zero_sub _
    · exact Nat.sub_eq_zero_of_le h.le
  rw [dropNotices_append, hle, dropNotices_zero]

/-- The last item stays the last. -/
theorem openAssistant_dropNotices {n : Nat} {items : List Item} (h : Newest n items) :
    openAssistant (dropNotices n items) = openAssistant items := by
  rcases List.eq_nil_or_concat' items with rfl | ⟨init, x, rfl⟩
  · cases n <;> rfl
  · have hlast : dropNotices n (init ++ [x]) = dropNotices n init ++ [x] := by
      rw [dropNotices_append]
      by_cases hx : x.isNotice = true
      · rcases h with rfl | h
        · rw [dropNotices_zero, Nat.zero_sub, dropNotices_zero]
        · rw [List.countP_append, List.countP_singleton, if_pos hx] at h
          rw [Nat.sub_eq_zero_of_le (Nat.le_of_lt_succ h), dropNotices_zero]
      · rw [dropNotices_cons_other _ hx]
        cases n - init.countP Item.isNotice <;> rfl
    rw [hlast, openAssistant, openAssistant, List.getLast?_concat, List.getLast?_concat]

/-- So does what is before an open answer at the end. -/
theorem dropNotices_setLast {n : Nat} {items : List Item} {last : Item} {text : JsString}
    (h : openAssistant items = some (last, text)) {y : Item} (hy : ¬ y.isNotice = true) :
    dropNotices n (items.dropLast ++ [y]) = (dropNotices n items).dropLast ++ [y] := by
  obtain ⟨hitems, hbody⟩ := eq_concat_of_openAssistant h
  have hlast : ¬ last.isNotice = true := by simp [Item.isNotice, hbody]
  have hkeep : ∀ {z : Item}, ¬ z.isNotice = true →
      dropNotices n (items.dropLast ++ [z]) = dropNotices n items.dropLast ++ [z] := by
    intro z hz
    rw [dropNotices_append, dropNotices_cons_other _ hz]
    cases n - items.dropLast.countP Item.isNotice <;> rfl
  conv => rhs; rw [hitems, hkeep hlast, List.dropLast_concat]
  exact hkeep hy

theorem sealOpenAssistant_dropNotices {n : Nat} {items : List Item} (h : Newest n items) :
    sealOpenAssistant (dropNotices n items) = dropNotices n (sealOpenAssistant items) := by
  unfold sealOpenAssistant
  rw [openAssistant_dropNotices h]
  cases hopen : openAssistant items with
  | none => rfl
  | some p =>
      refine (dropNotices_setLast hopen ?_).symm
      exact Bool.false_ne_true

theorem appendAssistant_dropNotices {n : Nat} {items : List Item} (h : Newest n items) (seq : ℚ)
    (ts : JsValue) (content : String) :
    appendAssistant (dropNotices n items) seq ts content =
      dropNotices n (appendAssistant items seq ts content) := by
  unfold appendAssistant
  rw [openAssistant_dropNotices h]
  cases hopen : openAssistant items with
  | none => exact (dropNotices_push h _).symm
  | some p =>
      refine (dropNotices_setLast hopen ?_).symm
      exact Bool.false_ne_true

/-- Tools are not notices. -/
theorem finishTool_dropNotices (name : String) (output : Option String) (n : Nat) (items : List Item) :
    finishTool name output (dropNotices n items) =
      (finishTool name output items).map (dropNotices n) := by
  induction items generalizing n with
  | nil => cases n <;> rfl
  | cons item rest ih =>
      by_cases hitem : item.isNotice = true
      · cases n with
        | zero =>
            rw [dropNotices_zero]
            have hid : dropNotices 0 = id := funext dropNotices_zero
            rw [hid, Option.map_id]
            rfl
        | succ n =>
            rw [dropNotices, if_pos hitem, ih n, finishTool]
            cases finishTool name output rest with
            | some rest' => simp [dropNotices, hitem]
            | none =>
                obtain ⟨id, seq, ts, body⟩ := item
                cases body <;> simp_all [Item.isNotice]
      · rw [dropNotices_cons_other n hitem, finishTool, ih n, finishTool]
        cases finishTool name output rest with
        | some rest' => simp [dropNotices_cons_other n hitem]
        | none =>
            obtain ⟨id, seq, ts, body⟩ := item
            cases body with
            | tool name' input out done =>
                cases done with
                | false =>
                    simp only [Option.map_none]
                    split
                    · rw [Option.map_some, dropNotices_cons_other n]
                      exact Bool.false_ne_true
                    · rfl
                | true => rfl
            | _ => rfl

theorem any_dropNotices {f : Item → Bool} (hf : ∀ item, item.isNotice = true → f item = false) (n : Nat)
    (items : List Item) : (dropNotices n items).any f = items.any f := by
  induction items generalizing n with
  | nil => cases n <;> rfl
  | cons item rest ih =>
      by_cases hitem : item.isNotice = true
      · cases n with
        | zero => rw [dropNotices_zero]
        | succ n => rw [dropNotices, if_pos hitem, ih n, List.any_cons, hf item hitem, Bool.false_or]
      · rw [dropNotices_cons_other n hitem, List.any_cons, List.any_cons, ih n]

theorem map_dropNotices {f : Item → Item} (hf : ∀ item, (f item).isNotice = item.isNotice) (n : Nat)
    (items : List Item) : (dropNotices n items).map f = dropNotices n (items.map f) := by
  induction items generalizing n with
  | nil => cases n <;> rfl
  | cons item rest ih =>
      by_cases hitem : item.isNotice = true
      · cases n with
        | zero => rw [dropNotices_zero, dropNotices_zero]
        | succ n =>
            rw [dropNotices, if_pos hitem, ih n, List.map_cons, dropNotices, if_pos ((hf item).trans hitem)]
      · rw [dropNotices_cons_other n hitem, List.map_cons, List.map_cons,
          dropNotices_cons_other n (by rwa [hf item]), ih n]

/-- **An operation does the same without the oldest notices.** -/
theorem run_dropNotices {n : Nat} {items : List Item} (h : Newest n items) {op : ItemOp}
    (hop : ∀ seq ts text, op ≠ .notice seq ts text) :
    op.run (dropNotices n items) = dropNotices n (op.run items) := by
  have hadd : ∀ (found : Item → Bool) (x : Item), (∀ item, item.isNotice = true → found item = false) →
      (if (dropNotices n items).any found then dropNotices n items else dropNotices n items ++ [x]) =
        dropNotices n (if items.any found then items else items ++ [x]) := by
    intro found x hfound
    rw [any_dropNotices hfound]
    split
    · rfl
    · exact (dropNotices_push h x).symm
  cases op with
  | keep => rfl
  | say seq ts content => exact appendAssistant_dropNotices h seq ts content
  | sealLast => exact sealOpenAssistant_dropNotices h
  | prompt seq ts text byDevice =>
      have hseal : Newest n (sealOpenAssistant items) := by
        have hquiet : ∀ seq ts text, ItemOp.sealLast ≠ .notice seq ts text := nofun
        have hsame := notices_run items hquiet
        rw [Newest, List.countP_eq_length_filter] at h ⊢
        exact hsame ▸ h
      show sealOpenAssistant (dropNotices n items) ++ _ = dropNotices n (sealOpenAssistant items ++ _)
      rw [sealOpenAssistant_dropNotices h, dropNotices_push hseal]
  | startTool seq ts name input => exact (dropNotices_push h _).symm
  | endTool seq ts name output =>
      show (finishTool name output (dropNotices n items)).getD _ =
        dropNotices n ((finishTool name output items).getD _)
      rw [finishTool_dropNotices]
      cases finishTool name output items with
      | none => exact (dropNotices_push h _).symm
      | some items' => rfl
  | permission seq ts requestId kind summary =>
      refine hadd _ _ fun item hitem => ?_
      obtain ⟨id, seq, ts, body⟩ := item
      cases body <;> first | rfl | cases hitem
  | question seq ts questionId text =>
      refine hadd _ _ fun item hitem => ?_
      obtain ⟨id, seq, ts, body⟩ := item
      cases body <;> first | rfl | cases hitem
  | resolve requestId resolution =>
      refine map_dropNotices (fun item => ?_) n items
      obtain ⟨id, seq, ts, body⟩ := item
      cases body <;> rfl
  | answer questionId resolved =>
      refine map_dropNotices (fun item => ?_) n items
      obtain ⟨id, seq, ts, body⟩ := item
      cases body <;> rfl
  | notice seq ts text => exact absurd rfl (hop seq ts text)

/-! ## The two reducers in step -/

/-- How many notices the cap has taken out of a list that holds all. -/
def overCap (items : List Item) : Nat := items.countP Item.isNotice - maxNotices

/-- One operation on either list. -/
theorem run_overCap (items : List Item) (op : ItemOp) :
    op.run (dropNotices (overCap items) items) =
      dropNotices (overCap (op.runUncapped items)) (op.runUncapped items) := by
  have hnewest : Newest (overCap items) items := by
    unfold Newest overCap maxNotices
    omega
  -- without a new notice there are as many to leave out as before
  have hother : (∀ seq ts text, op ≠ .notice seq ts text) → op.runUncapped items = op.run items →
      op.run (dropNotices (overCap items) items) =
        dropNotices (overCap (op.runUncapped items)) (op.runUncapped items) := by
    intro hop heq
    have hcount : overCap (op.run items) = overCap items := by
      rw [overCap, overCap, List.countP_eq_length_filter, List.countP_eq_length_filter,
        notices_run items hop]
    rw [heq, hcount]
    exact run_dropNotices hnewest hop
  cases op with
  | notice seq ts text =>
      have hrun : ItemOp.runUncapped items (.notice seq ts text) = items ++ [noticeItem seq ts text] := rfl
      have hcount : overCap (items ++ [noticeItem seq ts text]) =
          items.countP Item.isNotice + 1 - maxNotices := by
        rw [overCap, List.countP_append]
        rfl
      have hnone : overCap (items ++ [noticeItem seq ts text]) - items.countP Item.isNotice = 0 := by
        rw [hcount]
        unfold maxNotices
        omega
      -- those that are gone already and the one that makes room
      have hsum : overCap items + (items.countP Item.isNotice - overCap items + 1 - maxNotices) =
          overCap (items ++ [noticeItem seq ts text]) := by
        rw [hcount]
        unfold overCap maxNotices
        omega
      show pushNotice (dropNotices (overCap items) items) seq ts text .error = _
      rw [hrun, pushNotice_eq, countP_dropNotices, dropNotices_dropNotices, hsum, dropNotices_append,
        hnone, dropNotices_zero]
      rfl
  | _ => exact hother nofun rfl

/-- The state of the capped reducer, from that of the other. -/
def capped (s : SessionState) : SessionState :=
  { s with items := dropNotices (overCap s.items) s.items }

theorem applyEvent_capped (s : SessionState) (ev : EventPayload) :
    applyEvent (capped s) ev = capped (applyEventUncapped s ev) := by
  rw [capped, applyEvent_with_items, run_overCap]
  rfl

/-- **The capped reducer shows what the other one does, without the oldest notices.** -/
theorem applyEvents_capped (evs : List EventPayload) :
    applyEvents newSessionState evs = capped (applyEventsUncapped newSessionState evs) := by
  induction evs using List.reverseRecOn with
  | nil => rfl
  | append_singleton evs ev ih =>
      rw [applyEvents_concat, ih, applyEvent_capped, applyEventsUncapped, applyEventsUncapped,
        List.foldl_concat]

/-- Error events are the ones that add a notice. -/
theorem notice_cases (name : String → Attribution) (ev : EventPayload) :
    (ev.notice = none ∧ ∀ seq ts text, itemOp name ev ≠ .notice seq ts text) ∨
      ∃ text, ev.notice = some (noticeItem ev.seq ev.ts text) ∧
        itemOp name ev = .notice ev.seq ev.ts text := by
  unfold EventPayload.notice itemOp EventPayload.reading
  cases eventKind ev.kind with
  | error => exact .inr ⟨_, rfl, rfl⟩
  | textDelta | permissionRequest | question =>
      refine .inl ⟨rfl, ?_⟩
      simp only [Reading.itemOp]
      split <;> exact fun _ _ _ h => by cases h
  | _ => exact .inl ⟨rfl, fun _ _ _ h => by cases h⟩

/-- Without the cap every error event has its notice. -/
theorem notices_uncapped (evs : List EventPayload) :
    (applyEventsUncapped newSessionState evs).items.filter Item.isNotice =
      evs.filterMap EventPayload.notice := by
  induction evs using List.reverseRecOn with
  | nil => rfl
  | append_singleton evs ev ih =>
      rw [applyEventsUncapped, List.foldl_concat, ← applyEventsUncapped, List.filterMap_append, ← ih]
      generalize applyEventsUncapped newSessionState evs = s
      show (ItemOp.runUncapped s.items (itemOp (nameFor s) ev)).filter Item.isNotice = _
      rcases notice_cases (nameFor s) ev with ⟨hnone, hop⟩ | ⟨text, hsome, hop⟩
      · have hsame := notices_run s.items hop
        rw [List.filterMap_cons_none hnone, List.filterMap_nil, List.append_nil, ← hsame]
        generalize itemOp (nameFor s) ev = op at hop
        cases op with
        | notice seq ts text => exact absurd rfl (hop seq ts text)
        | _ => rfl
      · rw [hop, List.filterMap_cons_some hsome]
        exact List.filter_append ..

/-- **The cap keeps exactly the newest notices, and touches nothing else.** -/
theorem notices_capped (evs : List EventPayload) :
    (applyEvents newSessionState evs).items.filter Item.isNotice =
        (evs.filterMap EventPayload.notice).rtake maxNotices ∧
      (applyEvents newSessionState evs).items.filter (fun x => !x.isNotice) =
        (applyEventsUncapped newSessionState evs).items.filter (fun x => !x.isNotice) := by
  rw [applyEvents_capped, ← notices_uncapped]
  generalize applyEventsUncapped newSessionState evs = s
  refine ⟨?_, ?_⟩
  · show (dropNotices (overCap s.items) s.items).filter Item.isNotice = _
    rw [filter_dropNotices, overCap, List.countP_eq_length_filter]
    rfl
  · show (dropNotices (overCap s.items) s.items).filter _ = _
    have hfilter : ∀ xs : List Item, xs.filter (fun x => !x.isNotice) =
        xs.filterMap (Option.guard fun x => !x.isNotice) := fun xs => by rw [List.filterMap_eq_filter]
    rw [hfilter, hfilter]
    refine filterMap_dropNotices (fun item h => ?_) _ _
    simp [h]

end Harness.Client
