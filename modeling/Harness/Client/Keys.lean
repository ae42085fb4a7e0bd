/-
# Harness.Client.Keys — the items of a stream as a list with keys.

The screens render the items in their order and use `item.id` as key. An id is made of the kind of the item
and of the seq of the event that made it, or of a request id the agent chose. `Outline` is what matters for
this, the id, the seq and the id that the content of the item would be given; `outlines_run` says that every
operation keeps some of the outlines in their order and may add one that is new.

`items_keyed` follows for every session state of every run: the keys are distinct as strings, the seqs
increase, and a request has at most one item. The only assumption is that events are numbered by integers.
-/
import Harness.Client.Tail
import Harness.Client.Standing
import Harness.Client.Stream
import Harness.Lib.NumberText

namespace Harness.Client

open Lib
open Hub (Ask)

/-! ## Ids as strings -/

/-- What an id starts with. -/
def ItemId.stem : ItemId → String
  | .prompt _ => "prompt-"
  | .assistant _ => "assistant-"
  | .tool _ => "tool-"
  | .notice _ => "notice-"
  | .perm _ => "perm-"
  | .q _ => "q-"

/-- What is filled in. -/
def ItemId.filling : ItemId → String
  | .prompt seq | .assistant seq | .tool seq | .notice seq => numberText seq
  | .perm requestId => requestId
  | .q questionId => questionId

/-- The `id` string. -/
def ItemId.text (id : ItemId) : String := id.stem ++ id.filling

/-- The seq an id is made of, if it is. -/
def ItemId.seq : ItemId → Option ℚ
  | .prompt seq | .assistant seq | .tool seq | .notice seq => some seq
  | .perm _ | .q _ => none

/-- Such a seq is an integer. -/
def ItemId.Whole (id : ItemId) : Prop := ∀ seq, id.seq = some seq → ∃ n : ℕ, seq = n

/-- No stem is the beginning of an id with another stem. -/
theorem ItemId.stem_eq_of_text_eq {i j : ItemId} (h : i.text = j.text) : i.stem = j.stem := by
  have hlist := congrArg String.toList h
  rw [ItemId.text, ItemId.text, String.toList_append, String.toList_append] at hlist
  cases i <;> cases j <;> first | rfl | simp [ItemId.stem] at hlist

theorem ItemId.eq_of_text_eq {i j : ItemId} (hi : i.Whole) (hj : j.Whole) (h : i.text = j.text) :
    i = j := by
  have hstem := stem_eq_of_text_eq h
  have hfilling : i.filling = j.filling := by
    have hlist := congrArg String.toList h
    rw [ItemId.text, ItemId.text, hstem, String.toList_append, String.toList_append] at hlist
    exact String.toList_inj.mp (List.append_cancel_left hlist)
  have hnumber : ∀ {a b : ℚ}, i.seq = some a → j.seq = some b → numberText a = numberText b → a = b := by
    intro a b ha hb heq
    obtain ⟨m, rfl⟩ := hi a ha
    obtain ⟨n, rfl⟩ := hj b hb
    rw [numberText_natCast_injective heq]
  cases i <;> cases j <;> simp [stem] at hstem
  case perm.perm => exact congrArg _ hfilling
  case q.q => exact congrArg _ hfilling
  all_goals exact congrArg _ (hnumber rfl rfl hfilling)

/-! ## Outlines -/

/-- The id an item of this kind and content gets. -/
def ItemBody.id (seq : ℚ) : ItemBody → ItemId
  | .prompt _ _ => .prompt seq
  | .assistant _ _ => .assistant seq
  | .tool _ _ _ _ => .tool seq
  | .permission requestId _ _ _ => .perm requestId
  | .question questionId _ _ => .q questionId
  | .notice _ _ => .notice seq

/-- If it has a seq in it, it is this one. -/
theorem ItemBody.seq_id {body : ItemBody} {seq q : ℚ} (h : (body.id seq).seq = some q) : seq = q := by
  cases body <;> cases h <;> rfl

/-- An item without its content: its id, its seq, and the id its content would be given. -/
structure Outline where
  id : ItemId
  seq : ℚ
  own : ItemId

def Item.outline (item : Item) : Outline := ⟨item.id, item.seq, item.body.id item.seq⟩

/-- **`Keyed os q`** — the outlines of a list with keys, none newer than `q`. -/
structure Keyed (os : List Outline) (q : ℚ) : Prop where
  own : ∀ o ∈ os, o.id = o.own
  whole : ∀ o ∈ os, ∃ n : ℕ, 1 ≤ n ∧ o.seq = n
  upTo : ∀ o ∈ os, o.seq ≤ q
  increasing : os.Pairwise fun o p => o.seq < p.seq
  distinct : os.Pairwise fun o p => o.id ≠ p.id

theorem Keyed.nil (q : ℚ) : Keyed [] q :=
  ⟨by simp, by simp, by simp, List.Pairwise.nil, List.Pairwise.nil⟩

/-- Leaving out keeps. -/
theorem Keyed.sublist {os kept : List Outline} {q : ℚ} (h : Keyed os q) (hk : kept.Sublist os) :
    Keyed kept q where
  own o ho := h.own o (hk.subset ho)
  whole o ho := h.whole o (hk.subset ho)
  upTo o ho := h.upTo o (hk.subset ho)
  increasing := h.increasing.sublist hk
  distinct := h.distinct.sublist hk

theorem Keyed.mono {os : List Outline} {q r : ℚ} (h : Keyed os q) (hqr : q ≤ r) : Keyed os r :=
  { h with upTo := fun o ho => (h.upTo o ho).trans hqr }

/-- A newer outline comes last. -/
theorem Keyed.push {os : List Outline} {q : ℚ} (h : Keyed os q) {o : Outline} (hown : o.id = o.own)
    (hwhole : ∃ n : ℕ, 1 ≤ n ∧ o.seq = n) (hlt : q < o.seq) (hnew : ∀ p ∈ os, p.id ≠ o.id) :
    Keyed (os ++ [o]) o.seq where
  own := by
    intro p hp
    rcases List.mem_append.mp hp with hp | hp
    · exact h.own p hp
    · rw [List.mem_singleton.mp hp]
      exact hown
  whole := by
    intro p hp
    rcases List.mem_append.mp hp with hp | hp
    · exact h.whole p hp
    · rw [List.mem_singleton.mp hp]
      exact hwhole
  upTo := by
    intro p hp
    rcases List.mem_append.mp hp with hp | hp
    · exact (h.upTo p hp).trans hlt.le
    · rw [List.mem_singleton.mp hp]
  increasing := by
    refine List.pairwise_append.mpr ⟨h.increasing, List.pairwise_singleton _ _, fun p hp x hx => ?_⟩
    rw [List.mem_singleton.mp hx]
    exact (h.upTo p hp).trans_lt hlt
  distinct := by
    refine List.pairwise_append.mpr ⟨h.distinct, List.pairwise_singleton _ _, fun p hp x hx => ?_⟩
    rw [List.mem_singleton.mp hx]
    exact hnew p hp

/-! ## What an operation does to them -/

/-- **`op.Adds items x`** — `x` is an item the operation may add to `items`: it has the seq of the event,
and an item that already has its id is of the same seq. -/
structure ItemOp.Adds (op : ItemOp) (items : List Item) (x : Item) : Prop where
  seq : op.seq = some x.seq
  own : x.id = x.body.id x.seq
  fresh : ∀ y ∈ items, y.body.id y.seq = x.id → y.seq = x.seq

/-- **`op.Extends items xs`** — the outlines of `xs` are some of those of `items`, in their order, and
perhaps one that is added. -/
def ItemOp.Extends (op : ItemOp) (items xs : List Item) : Prop :=
  ∃ kept : List Outline, kept.Sublist (items.map Item.outline) ∧
    (xs.map Item.outline = kept ∨ ∃ x, op.Adds items x ∧ xs.map Item.outline = kept ++ [x.outline])

namespace ItemOp.Extends

variable {op : ItemOp} {items xs : List Item}

theorem of_outlines (h : xs.map Item.outline = items.map Item.outline) : op.Extends items xs :=
  ⟨_, List.Sublist.refl _, .inl h⟩

theorem push (h : (xs.map Item.outline).Sublist (items.map Item.outline)) {x : Item}
    (hx : op.Adds items x) : op.Extends items (xs ++ [x]) :=
  ⟨_, h, .inr ⟨x, hx, List.map_append⟩⟩

/-- An item that is added unless the request has one. -/
theorem addUnless {found : Item → Bool} {x : Item}
    (hx : items.any found = false → op.Adds items x) :
    op.Extends items (if items.any found then items else items ++ [x]) := by
  split
  · exact of_outlines rfl
  · rename_i h
    exact push (List.Sublist.refl _) (hx (by simpa using h))

end ItemOp.Extends

/-- An item whose id holds the seq of the event. -/
theorem ItemOp.Adds.ofSeq {op : ItemOp} {x : Item} (hseq : op.seq = some x.seq)
    (hown : x.id = x.body.id x.seq) (hid : x.id.seq = some x.seq) (items : List Item) :
    op.Adds items x :=
  ⟨hseq, hown, fun _ _ h => ItemBody.seq_id (h ▸ hid)⟩

/-- An item whose id holds a request, when the request has none yet. -/
theorem ItemOp.Adds.ofAsk {op : ItemOp} {items : List Item} {x : Item} (hseq : op.seq = some x.seq)
    (hown : x.id = x.body.id x.seq) (h : ∀ y ∈ items, y.body.id y.seq ≠ x.id) : op.Adds items x :=
  ⟨hseq, hown, fun y hy heq => absurd heq (h y hy)⟩

/-- Sealing an answer or adding to it changes the content of the last item. -/
theorem outlines_setLast {items : List Item} {last : Item} {text : JsString}
    (h : openAssistant items = some (last, text)) (text' : JsString) (sealed : Bool) :
    (items.dropLast ++ [{ last with body := .assistant text' sealed }]).map Item.outline =
      items.map Item.outline := by
  obtain ⟨hitems, hbody⟩ := eq_concat_of_openAssistant h
  conv => rhs; rw [hitems]
  simp [Item.outline, ItemBody.id, hbody]

theorem outlines_sealOpenAssistant (items : List Item) :
    (sealOpenAssistant items).map Item.outline = items.map Item.outline := by
  unfold sealOpenAssistant
  split
  · rename_i last text h
    exact outlines_setLast h text true
  · rfl

theorem outlines_map {items : List Item} {f : Item → Item} (hf : ∀ item, (f item).outline = item.outline) :
    (items.map f).map Item.outline = items.map Item.outline := by
  rw [List.map_map]
  exact List.map_congr_left fun item _ => hf item

/-- **An operation keeps outlines, and may add one.** -/
theorem extends_run (items : List Item) (op : ItemOp) : op.Extends items (op.run items) := by
  cases op with
  | keep => exact .of_outlines rfl
  | say seq ts content =>
      show ItemOp.Extends _ items (appendAssistant items seq ts content)
      unfold appendAssistant
      split
      · rename_i last text h
        exact .of_outlines (outlines_setLast h _ false)
      · exact .push (List.Sublist.refl _) (.ofSeq rfl rfl rfl items)
  | sealLast => exact .of_outlines (outlines_sealOpenAssistant items)
  | prompt seq ts text byDevice =>
      exact .push (outlines_sealOpenAssistant items ▸ List.Sublist.refl _) (.ofSeq rfl rfl rfl items)
  | startTool seq ts name input =>
      exact .push (List.Sublist.refl _) (.ofSeq rfl rfl rfl items)
  | endTool seq ts name output =>
      show ItemOp.Extends _ items ((finishTool name output items).getD _)
      cases h : finishTool name output items with
      | none =>
          exact .push (List.Sublist.refl _) (.ofSeq rfl rfl rfl items)
      | some items' =>
          refine .of_outlines (map_finishTool (fun item n input out hbody => ?_) h)
          simp [Item.outline, ItemBody.id, hbody]
  | permission seq ts requestId permissionKind summary =>
      refine .addUnless fun hnone => .ofAsk rfl rfl fun y hy => ?_
      have hy' := List.any_eq_false.mp hnone y hy
      intro h
      obtain ⟨id, seq', ts', body⟩ := y
      cases body <;> simp [ItemBody.id] at h
      simp [Item.isPermission, h] at hy'
  | question seq ts questionId text =>
      refine .addUnless fun hnone => .ofAsk rfl rfl fun y hy => ?_
      have hy' := List.any_eq_false.mp hnone y hy
      intro h
      obtain ⟨id, seq', ts', body⟩ := y
      cases body <;> simp [ItemBody.id] at h
      simp [Item.isQuestion, h] at hy'
  | resolve requestId resolution =>
      refine .of_outlines (outlines_map fun item => ?_)
      obtain ⟨id, seq, ts, body⟩ := item
      cases body <;> rfl
  | answer questionId resolved =>
      refine .of_outlines (outlines_map fun item => ?_)
      obtain ⟨id, seq, ts, body⟩ := item
      cases body <;> rfl
  | notice seq ts text =>
      show ItemOp.Extends _ items (pushNotice items seq ts text .error)
      rw [pushNotice_eq]
      exact .push ((dropNotices_sublist _ items).map _) (.ofSeq rfl rfl rfl items)

/-- **A list with keys stays one** when the next event is applied. -/
theorem Keyed.run {items : List Item} {op : ItemOp} {q r : ℚ} (h : Keyed (items.map Item.outline) q)
    (h0 : 0 ≤ q) (hqr : q < r) (hwhole : ∃ n : ℕ, r = n) (hop : op.seq = none ∨ op.seq = some r) :
    Keyed ((op.run items).map Item.outline) r := by
  obtain ⟨kept, hkept, heq | ⟨x, hx, heq⟩⟩ := extends_run items op
  · rw [heq]
    exact (h.sublist hkept).mono hqr.le
  · obtain rfl : x.seq = r := by
      rcases hop with hop | hop
      · exact absurd (hop.symm.trans hx.seq) nofun
      · exact Option.some.inj (hx.seq.symm.trans hop)
    rw [heq]
    refine (h.sublist hkept).push hx.own ?_ hqr fun p hp => ?_
    · obtain ⟨n, hn⟩ := hwhole
      refine ⟨n, ?_, hn⟩
      have hpos : (0 : ℚ) < n := hn ▸ h0.trans_lt hqr
      exact_mod_cast hpos
    · -- an item with the id of the new one would be of its seq, but it is older
      intro hid
      have hmem := hkept.subset hp
      obtain ⟨y, hy, rfl⟩ := List.mem_map.mp hmem
      have hseq := hx.fresh y hy ((h.own _ hmem).symm.trans hid)
      have hle := h.upTo _ hmem
      rw [Item.outline, hseq] at hle
      exact absurd hqr (not_lt.mpr hle)

/-! ## What keys are good for -/

/-- The id of the item of a request. -/
def itemIdOf : Ask → ItemId
  | .permission requestId => .perm requestId
  | .question questionId => .q questionId

theorem own_of_asks {a : Ask} {x : Item} (h : x.asks a = true) : x.outline.own = itemIdOf a := by
  obtain ⟨id, seq, ts, body⟩ := x
  cases a <;> cases body <;> simp_all [Item.asks, Item.isPermission, Item.isQuestion, Item.outline,
    ItemBody.id, itemIdOf]

section Keyed

variable {items : List Item} {q : ℚ}

theorem Keyed.nodup_ids (h : Keyed (items.map Item.outline) q) : (items.map Item.id).Nodup := by
  have hids := List.pairwise_map.mp h.distinct
  exact List.pairwise_map.mpr hids

/-- The ids are distinct as strings. -/
theorem Keyed.nodup_texts (h : Keyed (items.map Item.outline) q) :
    (items.map fun x => x.id.text).Nodup := by
  -- the text of an id tells its seq only because that is an integer
  have hwhole : ∀ x ∈ items, x.id.Whole := by
    intro x hx seq hseq
    have hmem := List.mem_map_of_mem (f := Item.outline) hx
    obtain ⟨n, -, hn⟩ := h.whole _ hmem
    have hown : x.id = x.body.id x.seq := h.own _ hmem
    rw [hown] at hseq
    exact ⟨n, (ItemBody.seq_id hseq).symm.trans hn⟩
  refine List.pairwise_map.mpr ((List.pairwise_map.mp h.nodup_ids).imp_of_mem fun hx hy hne heq => ?_)
  exact hne (ItemId.eq_of_text_eq (hwhole _ hx) (hwhole _ hy) heq)

/-- A request has one item at most. -/
theorem Keyed.countP_asks_le (h : Keyed (items.map Item.outline) q) (a : Ask) :
    items.countP (·.asks a) ≤ 1 := by
  have hid : ∀ x ∈ items, x.asks a = true → (x.id == itemIdOf a) = true := by
    intro x hx hasks
    have hown := h.own _ (List.mem_map_of_mem (f := Item.outline) hx)
    rw [own_of_asks hasks] at hown
    exact beq_iff_eq.mpr hown
  calc items.countP (·.asks a) ≤ items.countP fun x => x.id == itemIdOf a := List.countP_mono_left hid
    _ = (items.map Item.id).count (itemIdOf a) := by rw [List.count_eq_countP, List.countP_map]; rfl
    _ ≤ 1 := List.nodup_iff_count_le_one.mp h.nodup_ids _

end Keyed

/-! ## Runs -/

/-- **`Numbered`** — the events a client applies are numbered by integers. -/
def Numbered (_ : List Obs) (c : HarnessClient) (a : Action) : Prop :=
  ∀ ev q, Delivered c a (.event ev) → HarnessClient.seqOf ev = .finite q → c.session.lastSeq < q →
    q ≤ c.session.lastSeq + 1 → ∃ n : ℕ, q = n

/-- The invariant of a session state. -/
structure KeyedState (s : SessionState) : Prop where
  nonneg : 0 ≤ s.lastSeq
  keyed : Keyed (s.items.map Item.outline) s.lastSeq

theorem keyedState_new : KeyedState newSessionState := ⟨le_refl _, .nil _⟩

/-- A snapshot leaves the items and the position, or starts over. -/
theorem KeyedState.applySnapshot {s : SessionState} (h : KeyedState s) (snap : JsRecord) :
    KeyedState (applySnapshot s snap) := by
  -- another session id empties the list, the cards of a snapshot are no items
  have hbase : KeyedState (snapshotBase s snap) := by
    unfold snapshotBase
    split
    · exact keyedState_new
    · exact h
  exact ⟨hbase.nonneg, hbase.keyed⟩

theorem KeyedState.applyEvent {s : SessionState} (h : KeyedState s) {ev : EventPayload}
    (hlt : s.lastSeq < ev.seq) (hwhole : ∃ n : ℕ, ev.seq = n) : KeyedState (applyEvent s ev) := by
  refine ⟨?_, ?_⟩
  · rw [applyEvent_lastSeq]
    exact h.nonneg.trans hlt.le
  · rw [applyEvent_items, applyEvent_lastSeq]
    exact h.keyed.run h.nonneg hlt hwhole (itemOp_seq _ ev)

/-- The next event, with what is trimmed after it. -/
theorem KeyedState.nextSession {c : HarnessClient} (h : KeyedState c.session) {ev : EventPayload}
    (hlt : c.session.lastSeq < ev.seq) (hwhole : ∃ n : ℕ, ev.seq = n) : KeyedState (c.nextSession ev) := by
  have hev := h.applyEvent hlt hwhole
  unfold HarnessClient.nextSession
  cases c.maxItems with
  | none => exact hev
  | some max =>
      refine ⟨hev.nonneg, hev.keyed.sublist (List.Sublist.map _ ?_)⟩
      show (trimItems _ max).Sublist _
      rw [trimItems_eq_rtake]
      exact List.drop_sublist _ _

theorem keyedState_step {tr os : List Obs} {c c' : HarnessClient} {a : Action} (h : KeyedState c.session)
    (hP : Numbered tr c a) (hs : system.step c a = some (c', os)) : KeyedState c'.session := by
  obtain ⟨d, ht, rfl, rfl⟩ := c.step_trans hs
  show KeyedState d.session
  cases ht with
  | silent h' => rw [h'.session]; exact h
  | renewed h' => rw [h'.session]; exact keyedState_new
  | restored _ hlt _ hs' =>
      rw [hs']
      exact ⟨h.nonneg.trans (le_of_lt hlt), h.keyed.mono (le_of_lt hlt)⟩
  | issued _ _ _ hs' => rw [hs']; exact h
  | accepted _ _ hs' => rw [hs']; exact h.applySnapshot _
  | applied ha hq hgt hle _ hs' =>
      rw [hs']
      exact KeyedState.nextSession (c := { c with out := [] }) h hgt (hP _ _ ha hq hgt hle)
  | discarded _ _ hc => rw [hc]; exact h
  | settled _ _ _ hc => rw [hc]; exact h
  | orphaned _ _ _ _ hc => rw [hc]; exact h

/-- **The items of a session are a list with keys in log order**, after every run. -/
theorem items_keyed {url : String} {authMode : AuthMode} {identity : Option Identity}
    {maxItems : Option Nat} {tr : List Obs} {c : HarnessClient}
    (h : system.Run Numbered [] (.new url authMode identity maxItems) tr c) :
    (c.session.items.map fun x => x.id.text).Nodup ∧
      c.session.items.Pairwise (fun x y => x.seq < y.seq) ∧
      (∀ x ∈ c.session.items, 1 ≤ x.seq ∧ x.seq ≤ c.session.lastSeq) ∧
      ∀ a : Ask, c.session.items.countP (·.asks a) ≤ 1 := by
  have hk := (h.invariant (I := fun _ c => KeyedState c.session) keyedState_new
    fun t u a u' os _ ih hP hs => keyedState_step ih hP hs).keyed
  have hseqs := List.pairwise_map.mp hk.increasing
  refine ⟨hk.nodup_texts, hseqs, fun x hx => ?_, hk.countP_asks_le⟩
  have hmem := List.mem_map_of_mem (f := Item.outline) hx
  obtain ⟨n, hn, hseq⟩ := hk.whole _ hmem
  refine ⟨?_, hk.upTo _ hmem⟩
  show (1 : ℚ) ≤ x.outline.seq
  rw [hseq]
  exact_mod_cast hn

theorem numbered_of_not_message {tr : List Obs} {c : HarnessClient} {a : Action}
    (h : ∀ i data env, a ≠ .message i data env) : Numbered tr c a :=
  fun _ _ hd => absurd hd (not_delivered h)

/-- The frames of a daemon are numbered. -/
theorem numbered_hostFrame {tr : List Obs} {c : HarnessClient} {i : SocketId} {e : Wire.Envelope}
    (h : ∀ ev, e = .event ev → ev.seq < 2 ^ 63) : Numbered tr c (hostFrame i e) := by
  intro r q hd hseq _ _
  have hin := delivered_hostFrame hd
  cases e with
  | event ev =>
      cases hin
      rw [seqOf_eventMembers (h ev rfl)] at hseq
      exact ⟨ev.seq, (JsNumber.finite.inj hseq).symm⟩
  | _ => cases hin

namespace Sample

/-- A prompt, an answer in two parts, a permission that is asked for twice, a tool, and another prompt. -/
def chat : List Wire.EventPayload :=
  [⟨1, 0, .userPrompt, .obj [("text", .str "hi")]⟩, ⟨2, 0, .textDelta, .obj [("content", .str "hel")]⟩,
    ⟨3, 0, .textDelta, .obj [("content", .str "lo")]⟩,
    ⟨4, 0, .permissionRequest, .obj [("requestId", .str "r1")]⟩,
    ⟨5, 0, .permissionRequest, .obj [("requestId", .str "r1")]⟩,
    ⟨6, 0, .toolCallStart, .obj [("name", .str "Bash")]⟩,
    ⟨7, 0, .userPrompt, .obj [("text", .str "go on")]⟩]

def chatting : List Action :=
  [.connect none {}, .opened 0, hostFrame 0 (.snapshot ⟨"s1", "idle", "", 0, [], [], []⟩)] ++
    chat.map fun ev => hostFrame 0 (.event ev)

end Sample

/-- Three items are kept, and the prompt and the answer are trimmed. -/
theorem items_keyed_chatting :
    ∃ tr c, system.Run Numbered [] (.new "wss://host:7432/ws" .header none (some 3)) tr c ∧
      c.session.items.map (·.seq) = [4, 6, 7] ∧
      (c.session.items.map fun x => x.id.text).Nodup ∧
      c.session.items.Pairwise (fun x y => x.seq < y.seq) ∧
      (∀ x ∈ c.session.items, 1 ≤ x.seq ∧ x.seq ≤ c.session.lastSeq) ∧
      ∀ a : Ask, c.session.items.countP (·.asks a) ≤ 1 := by
  have hexec : ((system.exec (fun _ _ _ => true) [] (.new "wss://host:7432/ws" .header none (some 3))
      Sample.chatting).map fun r => r.2.session.items.map (·.seq)) = some [4, 6, 7] := by decide +kernel
  obtain ⟨r, hr, hseqs⟩ := Option.map_eq_some_iff.mp hexec
  have hrun : system.Run Numbered [] (.new "wss://host:7432/ws" .header none (some 3)) r.1 r.2 := by
    refine Lts.run_of_exec_forall (fun a ha t u => ?_) hr
    rcases List.mem_append.mp ha with ha | ha
    · simp only [List.mem_cons, List.not_mem_nil, or_false] at ha
      rcases ha with rfl | rfl | rfl
      · exact numbered_of_not_message fun _ _ _ h => by cases h
      · exact numbered_of_not_message fun _ _ _ h => by cases h
      · exact numbered_hostFrame fun _ h => by cases h
    · obtain ⟨ev, hev, rfl⟩ := List.mem_map.mp ha
      have hsmall : ∀ ev ∈ Sample.chat, ev.seq < 2 ^ 63 := by decide
      exact numbered_hostFrame fun _ h => by cases h; exact hsmall ev hev
  exact ⟨r.1, r.2, hrun, hseqs, items_keyed hrun⟩

end Harness.Client
