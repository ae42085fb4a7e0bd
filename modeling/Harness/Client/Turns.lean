/-
# Harness.Client.Turns — the text of the agent, item by item and turn by turn.

The deltas of an answer are put together in the last item as long as that is an open assistant item; an
item that comes in between leaves it behind, and the end of a turn seals it. On the assistant items alone
the reducer is the machine of `Harness.Lib.Coalesce`, with `clampText` on every write (`pieces_run`).

`texts_kept` is the accounting: while nothing is clamped, the assistant items hold the text of the log,
and the end of a turn is a boundary between items. `turn_end_seals_iff` is about the seals: only the last
item is looked at, so an answer that was left behind stays open for good.
-/
import Harness.Client.Items
import Harness.Lib.Coalesce

namespace Harness.Client

open Lib

/-! ## The assistant items -/

/-- The piece of text an item is. -/
def piece (item : Item) : Option (Piece ItemId UInt16) :=
  match item.body with
  | .assistant text sealed => some ⟨item.id, text, sealed⟩
  | _ => none

/-- The assistant items as pieces. -/
def pieces (items : List Item) : Pieces ItemId UInt16 := .assemble (items.map piece)

theorem filterMap_id_map_piece (items : List Item) :
    (items.map piece).filterMap id = items.filterMap piece := by
  rw [List.filterMap_map]
  rfl

theorem pieces_of_open {items : List Item} {last : Item} {text : JsString}
    (h : openAssistant items = some (last, text)) :
    pieces items = ⟨items.dropLast.filterMap piece, some (last.id, text)⟩ := by
  obtain ⟨hitems, hbody⟩ := eq_concat_of_openAssistant h
  have hlast : piece last = some ⟨last.id, text, false⟩ := by rw [piece, hbody]
  rw [pieces, hitems, List.map_append, List.map_singleton, hlast, Pieces.assemble_concat_open,
    filterMap_id_map_piece, List.dropLast_concat]

theorem pieces_of_not_open {items : List Item} (h : openAssistant items = none) :
    pieces items = ⟨items.filterMap piece, none⟩ := by
  rcases items.eq_nil_or_concat' with rfl | ⟨init, last, rfl⟩
  · rfl
  · rw [pieces, ← filterMap_id_map_piece, List.map_append, List.map_singleton]
    obtain ⟨id, seq, ts, body⟩ := last
    cases body with
    | assistant text sealed =>
        cases sealed with
        | false => simp [openAssistant] at h
        | true =>
            show Pieces.assemble (_ ++ [some ⟨id, text, true⟩]) = _
            rw [Pieces.assemble_concat_sealed]
            simp [piece]
    | _ =>
        show Pieces.assemble (_ ++ [none]) = _
        rw [Pieces.assemble_concat_none]
        simp [piece]

/-- **An item that is no answer leaves the open one behind.** -/
theorem pieces_push {xs : List Item} (items : List Item) {x : Item} (hx : piece x = none)
    (h : xs.filterMap piece = items.filterMap piece) :
    pieces (xs ++ [x]) = (pieces items).close false := by
  rw [pieces, pieces, Pieces.close_assemble, List.map_append, List.map_singleton, hx,
    Pieces.assemble_concat_none, filterMap_id_map_piece, filterMap_id_map_piece, h]

/-! ## Operations -/

/-- A tool that is finished is no answer before or after. -/
theorem map_piece_finishTool {name : String} {output : Option String} {items items' : List Item}
    (h : finishTool name output items = some items') : items'.map piece = items.map piece := by
  refine map_finishTool (fun item n input out hbody => ?_) h
  simp [piece, hbody]

theorem piece_of_isNotice {item : Item} (h : item.isNotice = true) : piece item = none := by
  obtain ⟨id, seq, ts, body⟩ := item
  cases body with
  | notice text level => rfl
  | _ => cases h

/-- Whether the operation puts an item behind what is there that is neither text nor a prompt. -/
def ItemOp.appends (items : List Item) : ItemOp → Bool
  | .startTool .. => true
  | .endTool _ _ name output => (finishTool name output items).isNone
  | .permission _ _ requestId _ _ => !items.any (·.isPermission requestId)
  | .question _ _ questionId _ => !items.any (·.isQuestion questionId)
  | .notice .. => true
  | _ => false

/-- What the operation does to the answers. -/
def ItemOp.stroke (items : List Item) : ItemOp → Stroke ItemId UInt16
  | .say seq _ content => .write (.assistant seq) (utf16 content)
  | .sealLast | .prompt .. => .finish
  | op => if op.appends items then .leave else .rest

theorem pieces_sealOpenAssistant (items : List Item) :
    pieces (sealOpenAssistant items) = (pieces items).close true := by
  unfold sealOpenAssistant
  cases h : openAssistant items with
  | none => simp [pieces_of_not_open h, Pieces.close]
  | some p =>
      obtain ⟨last, text⟩ := p
      rw [pieces_of_open h]
      have hlast : piece { last with body := .assistant text true } = some ⟨last.id, text, true⟩ := rfl
      simp only
      rw [pieces, List.map_append, List.map_singleton, hlast, Pieces.assemble_concat_sealed,
        filterMap_id_map_piece]
      rfl

theorem pieces_appendAssistant (items : List Item) (seq : ℚ) (ts : JsValue) (content : String) :
    pieces (appendAssistant items seq ts content) =
      (pieces items).step clampText (.write (.assistant seq) (utf16 content)) := by
  unfold appendAssistant
  cases h : openAssistant items with
  | none =>
      simp only
      rw [pieces_of_not_open h, pieces, List.map_append, List.map_singleton]
      show Pieces.assemble (_ ++ [some ⟨ItemId.assistant seq, clampText (utf16 content), false⟩]) = _
      rw [Pieces.assemble_concat_open, filterMap_id_map_piece]
      rfl
  | some p =>
      obtain ⟨last, text⟩ := p
      simp only
      rw [pieces_of_open h, pieces, List.map_append, List.map_singleton]
      show Pieces.assemble (_ ++ [some ⟨last.id, clampText (text ++ utf16 content), false⟩]) = _
      rw [Pieces.assemble_concat_open, filterMap_id_map_piece]
      rfl

/-- An operation on every item that leaves the answers alone. -/
theorem pieces_map (items : List Item) {f : Item → Item} (h : ∀ item, piece (f item) = piece item) :
    pieces (items.map f) = pieces items := by
  rw [pieces, pieces, List.map_map]
  congr 1
  exact List.map_congr_left fun item _ => h item

theorem piece_resolvePermission (r : String) (res : Resolution) (item : Item) :
    piece (resolvePermission r res item) = piece item := by
  obtain ⟨id, seq, ts, body⟩ := item
  cases body <;> rfl

theorem piece_resolveQuestion (q : String) (res : AnsweredQuestion) (item : Item) :
    piece (resolveQuestion q res item) = piece item := by
  obtain ⟨id, seq, ts, body⟩ := item
  cases body <;> rfl

/-- An item that is added unless one is found. -/
theorem pieces_add (items : List Item) (found : Bool) {x : Item} (hx : piece x = none) :
    pieces (if found then items else items ++ [x]) =
      (pieces items).step clampText (if (!found) = true then .leave else .rest) := by
  cases found with
  | true => rfl
  | false => exact pieces_push items hx rfl

/-- **On the answers an operation is a stroke.** -/
theorem pieces_run (items : List Item) (op : ItemOp) :
    pieces (op.run items) = (pieces items).step clampText (op.stroke items) := by
  cases op with
  | keep => rfl
  | say seq ts content => exact pieces_appendAssistant items seq ts content
  | sealLast => exact pieces_sealOpenAssistant items
  | prompt seq ts text byDevice =>
      show pieces (sealOpenAssistant items ++ _) = (pieces items).close true
      rw [pieces_push (sealOpenAssistant items) rfl rfl, pieces_sealOpenAssistant]
      conv => lhs; rw [Pieces.close, Pieces.close_current]
  | startTool seq ts name input => exact pieces_push items rfl rfl
  | endTool seq ts name output =>
      show pieces ((finishTool name output items).getD _) =
        (pieces items).step clampText (if (finishTool name output items).isNone then .leave else .rest)
      cases h : finishTool name output items with
      | none => exact pieces_push items rfl rfl
      | some items' =>
          show pieces items' = pieces items
          rw [pieces, pieces, map_piece_finishTool h]
  | permission seq ts requestId kind summary => exact pieces_add items _ rfl
  | question seq ts questionId text => exact pieces_add items _ rfl
  | resolve requestId resolution => exact pieces_map items (piece_resolvePermission _ _)
  | answer questionId resolved => exact pieces_map items (piece_resolveQuestion _ _)
  | notice seq ts text =>
      show pieces (pushNotice items seq ts text .error) = (pieces items).close false
      rw [pushNotice_eq]
      exact pieces_push items rfl (filterMap_dropNotices (fun _ => piece_of_isNotice) _ items)

/-! ## Events -/

/-- What an event does to the answers. -/
def strokeOf (s : SessionState) (ev : EventPayload) : Stroke ItemId UInt16 :=
  (itemOp (nameFor s) ev).stroke s.items

theorem pieces_applyEvent (s : SessionState) (ev : EventPayload) :
    pieces (applyEvent s ev).items = (pieces s.items).step clampText (strokeOf s ev) := by
  rw [applyEvent_items]
  exact pieces_run s.items _

/-- Nothing but text is written. -/
theorem ItemOp.stroke_ne_write {items : List Item} {op : ItemOp}
    (h : ∀ seq ts content, op ≠ .say seq ts content) (key : ItemId) (chunk : JsString) :
    op.stroke items ≠ .write key chunk := by
  have hquiet : ∀ b : Bool, (if b then .leave else .rest : Stroke ItemId UInt16) ≠ .write key chunk := by
    intro b
    cases b <;> simp
  cases op with
  | say seq ts content => exact absurd rfl (h seq ts content)
  | endTool => exact hquiet _
  | permission => exact hquiet _
  | question => exact hquiet _
  | _ => simp [stroke, appends]

theorem strokeOf_of_delta (s : SessionState) {ev : EventPayload} (h : ev.delta ≠ "") :
    strokeOf s ev = .write (.assistant ev.seq) (utf16 ev.delta) := by
  rw [strokeOf, itemOp_of_delta _ h]
  rfl

theorem strokeOf_ne_write (s : SessionState) {ev : EventPayload} (h : ev.delta = "") (key : ItemId)
    (chunk : JsString) : strokeOf s ev ≠ .write key chunk :=
  ItemOp.stroke_ne_write (itemOp_ne_say _ h) key chunk

theorem chunk_strokeOf (s : SessionState) (ev : EventPayload) :
    (strokeOf s ev).chunk = utf16 ev.delta := by
  by_cases h : ev.delta = ""
  · rw [h]
    have hne := strokeOf_ne_write s h
    cases hs : strokeOf s ev with
    | write key chunk => exact absurd hs (hne key chunk)
    | _ => rfl
  · rw [strokeOf_of_delta s h]
    rfl

theorem strokeOf_of_endsTurn (s : SessionState) {ev : EventPayload} (h : ev.endsTurn = true) :
    strokeOf s ev = .finish := by
  unfold EventPayload.endsTurn at h
  unfold strokeOf itemOp EventPayload.reading
  cases hk : eventKind ev.kind <;> rw [hk] at h <;> simp only at h ⊢ <;> first | rfl | cases h

/-! ## What the screen holds -/

/-- The assistant items with their texts. -/
def answers (items : List Item) : List (ItemId × JsString) :=
  (items.filterMap piece).map fun p => (p.key, p.text)

/-- The texts of the assistant items, in list order. -/
def spoken (items : List Item) : JsString := (answers items).flatMap Prod.snd

/-- The contents of the text deltas, in order. -/
def contents (evs : List EventPayload) : JsString := evs.flatMap fun ev => utf16 ev.delta

theorem contents_append (xs ys : List EventPayload) : contents (xs ++ ys) = contents xs ++ contents ys :=
  List.flatMap_append

/-- The text a delta would be added to. -/
def openText (items : List Item) : JsString := ((openAssistant items).map Prod.snd).getD []

theorem all_pieces (items : List Item) : (pieces items).all = answers items := by
  rw [← Pieces.all_close false, pieces, Pieces.close_assemble, filterMap_id_map_piece,
    Pieces.all_of_idle rfl]
  rfl

theorem currentText_pieces (items : List Item) : (pieces items).currentText = openText items := by
  unfold openText
  cases h : openAssistant items with
  | none => rw [pieces_of_not_open h]; rfl
  | some p => rw [pieces_of_open h]; rfl

/-- **`Unclamped s evs`** — no text grows past the bound, from `s` on. -/
def Unclamped (s : SessionState) (evs : List EventPayload) : Prop :=
  Lts.Preceded (fun p ev => ev.delta ≠ "" →
    textByteLength (openText (applyEvents s p).items ++ utf16 ev.delta) ≤ maxTextBytes) evs

/-- One event adds its text. -/
theorem text_applyEvent (s : SessionState) (ev : EventPayload)
    (h : ev.delta ≠ "" → textByteLength (openText s.items ++ utf16 ev.delta) ≤ maxTextBytes) :
    (pieces (applyEvent s ev).items).text = (pieces s.items).text ++ utf16 ev.delta := by
  rw [pieces_applyEvent, ← chunk_strokeOf s ev]
  refine Pieces.text_step _ _ _ fun key chunk hwrite => ?_
  have hdelta : ev.delta ≠ "" := fun hempty => strokeOf_ne_write s hempty key chunk hwrite
  have hchunk : utf16 ev.delta = chunk := by rw [← chunk_strokeOf s ev, hwrite]; rfl
  rw [currentText_pieces, ← hchunk, clampText, if_pos (h hdelta)]

theorem text_applyEvents (s : SessionState) (evs : List EventPayload) (h : Unclamped s evs) :
    (pieces (applyEvents s evs).items).text = (pieces s.items).text ++ contents evs := by
  induction evs using List.reverseRecOn with
  | nil => simp [contents]
  | append_singleton evs ev ih =>
      obtain ⟨hevs, hev⟩ := Lts.preceded_snoc_iff.mp h
      rw [applyEvents_concat, text_applyEvent _ _ hev, ih hevs, contents_append, List.append_assoc]
      simp [contents]

/-- The pieces that are closed stay the first ones. -/
theorem closed_applyEvents (s : SessionState) (evs : List EventPayload) :
    (pieces s.items).closed <+: (pieces (applyEvents s evs).items).closed := by
  induction evs using List.reverseRecOn with
  | nil => exact List.prefix_refl _
  | append_singleton evs ev ih =>
      rw [applyEvents_concat, pieces_applyEvent]
      exact ih.trans (Pieces.closed_step _ _ _)

/-- What ends a turn adds no text and closes what was being written. -/
theorem answers_endsTurn (s : SessionState) {b : EventPayload} (hb : b.endsTurn = true) :
    answers (applyEvent s b).items = answers s.items ∧
      (pieces (applyEvent s b).items).current = none := by
  have hfinish : pieces (applyEvent s b).items = (pieces s.items).close true := by
    rw [pieces_applyEvent, strokeOf_of_endsTurn s hb]
    rfl
  constructor
  · rw [← all_pieces, hfinish, Pieces.all_close, all_pieces]
  · rw [hfinish, Pieces.close_current]

/-- Where nothing is being written, later text goes to later items. -/
theorem answers_applyEvents (s : SessionState) (evs : List EventPayload)
    (hidle : (pieces s.items).current = none) :
    ∃ later, answers (applyEvents s evs).items = answers s.items ++ later := by
  obtain ⟨more, hmore⟩ := closed_applyEvents s evs
  refine ⟨more.map (fun piece => (piece.key, piece.text)) ++
    (pieces (applyEvents s evs).items).current.toList, ?_⟩
  rw [← all_pieces, ← all_pieces, Pieces.all_of_idle hidle, Pieces.all, ← hmore, List.map_append,
    List.append_assoc]

/-- **No text is lost, duplicated or mixed across turns.** While nothing is clamped, the assistant items
hold the text of the log in order; and whatever ends a turn is a boundary between items, what comes after
it being in items of its own. -/
theorem texts_kept (evs : List EventPayload) (h : Unclamped newSessionState evs) :
    spoken (applyEvents newSessionState evs).items = contents evs ∧
      ∀ p b r, evs = p ++ b :: r → b.endsTurn = true →
        ∃ later, answers (applyEvents newSessionState evs).items =
            answers (applyEvents newSessionState p).items ++ later ∧
          later.flatMap Prod.snd = contents r := by
  have htext : ∀ es, Unclamped newSessionState es →
      spoken (applyEvents newSessionState es).items = contents es := by
    intro es hes
    rw [spoken, ← all_pieces]
    exact text_applyEvents newSessionState es hes
  refine ⟨htext evs h, ?_⟩
  rintro p b r rfl hb
  have hsplit : p ++ b :: r = (p ++ [b]) ++ r := by simp
  have hrun : applyEvents newSessionState (p ++ b :: r) =
      applyEvents (applyEvents newSessionState (p ++ [b])) r := by
    rw [hsplit]
    exact List.foldl_append
  obtain ⟨hsame, hidle⟩ := answers_endsTurn (applyEvents newSessionState p) hb
  rw [← applyEvents_concat] at hsame hidle
  obtain ⟨later, hlater⟩ := answers_applyEvents _ r hidle
  rw [← hrun, hsame] at hlater
  refine ⟨later, hlater, ?_⟩
  -- the text of the whole is that up to the boundary, and the rest
  have hwhole := htext _ h
  rw [hsplit] at h
  have hfirst := htext _ h.left
  rw [spoken, hsame] at hfirst
  rw [spoken, hlater, List.flatMap_append, hsplit, contents_append, ← hfirst] at hwhole
  exact List.append_cancel_left hwhole

namespace Sample

/-- Two turns, the first with a tool in the middle of the text. -/
def twoTurns : List EventPayload :=
  [chunk 1 "Reading", event 2 "tool_call_start" [("name", .str "Read")], chunk 3 " the file",
    event 4 "turn_complete" [], chunk 5 "Done."]

end Sample

theorem texts_kept_twoTurns :
    Unclamped newSessionState Sample.twoTurns ∧
      spoken (applyEvents newSessionState Sample.twoTurns).items = contents Sample.twoTurns ∧
      ∀ p b r, Sample.twoTurns = p ++ b :: r → b.endsTurn = true →
        ∃ later, answers (applyEvents newSessionState Sample.twoTurns).items =
            answers (applyEvents newSessionState p).items ++ later ∧
          later.flatMap Prod.snd = contents r := by
  have h : Unclamped newSessionState Sample.twoTurns := by
    show Unclamped newSessionState (((([] ++ [_]) ++ [_]) ++ [_]) ++ [_] ++ [_])
    iterate 5 refine Lts.preceded_snoc ?_ (by decide +kernel)
    exact Lts.preceded_nil _
  exact ⟨h, texts_kept _ h⟩

/-! ## Seals -/

/-- An assistant item that is not sealed. -/
def Item.isOpen (item : Item) : Bool :=
  match item.body with
  | .assistant _ sealed => !sealed
  | _ => false

/-- Every assistant item is sealed. -/
def AllSealed (items : List Item) : Prop := ∀ item ∈ items, item.isOpen = false

instance (items : List Item) : Decidable (AllSealed items) :=
  inferInstanceAs (Decidable (∀ item ∈ items, item.isOpen = false))

/-- The event puts an item behind an open answer. -/
def Covers (s : SessionState) (ev : EventPayload) : Prop :=
  (openAssistant s.items).isSome = true ∧ (itemOp (nameFor s) ev).appends s.items = true

theorem allSealed_iff (items : List Item) :
    AllSealed items ↔ (pieces items).left = 0 ∧ (pieces items).current = none := by
  have hleft : ((pieces items).close false).left =
      (pieces items).left + (pieces items).current.toList.length := Pieces.left_leave clampText _
  have hcount : ((pieces items).close false).left = items.countP Item.isOpen := by
    rw [pieces, Pieces.close_assemble, filterMap_id_map_piece, Pieces.left, List.countP_filterMap]
    refine List.countP_congr fun item _ => ?_
    obtain ⟨id, seq, ts, body⟩ := item
    cases body <;> simp [piece, Item.isOpen]
  have hall : AllSealed items ↔ items.countP Item.isOpen = 0 := by
    rw [List.countP_eq_zero]
    simp [AllSealed]
  rw [hall, ← hcount, hleft, Nat.add_eq_zero_iff, List.length_eq_zero_iff, Option.toList_eq_nil_iff]

theorem ItemOp.stroke_eq_leave {items : List Item} {op : ItemOp} :
    op.stroke items = .leave ↔ op.appends items = true := by
  have hquiet : ∀ b : Bool, (if b then .leave else .rest : Stroke ItemId UInt16) = .leave ↔ b = true := by
    intro b
    cases b <;> simp
  cases op with
  | endTool => exact hquiet _
  | permission => exact hquiet _
  | question => exact hquiet _
  | _ => simp [stroke, appends]

/-- An answer is left behind exactly when an item covers it. -/
theorem left_applyEvent (s : SessionState) (ev : EventPayload) :
    (pieces (applyEvent s ev).items).left = 0 ↔ (pieces s.items).left = 0 ∧ ¬ Covers s ev := by
  have hopen : (openAssistant s.items).isSome = true ↔ (pieces s.items).current ≠ none := by
    cases h : openAssistant s.items with
    | none => simp [pieces_of_not_open h]
    | some p => simp [pieces_of_open h]
  rw [pieces_applyEvent, Covers, ← ItemOp.stroke_eq_leave, hopen]
  by_cases h : strokeOf s ev = .leave
  · rw [h, Pieces.left_leave]
    simp [show (itemOp (nameFor s) ev).stroke s.items = .leave from h]
  · rw [Pieces.left_step _ _ h]
    simp [show (itemOp (nameFor s) ev).stroke s.items ≠ .leave from h]

theorem left_applyEvents (evs : List EventPayload) :
    (pieces (applyEvents newSessionState evs).items).left = 0 ↔
      Lts.Preceded (fun p ev => ¬ Covers (applyEvents newSessionState p) ev) evs := by
  induction evs using List.reverseRecOn with
  | nil => simp [Lts.preceded_nil, pieces, Pieces.assemble, newSessionState, Pieces.left]
  | append_singleton evs ev ih => rw [applyEvents_concat, left_applyEvent, ih, Lts.preceded_snoc_iff]

/-- **When the end of a turn leaves no open answer.** What ends a turn seals all of them exactly if in the
whole log before it no item was put behind an open one. -/
theorem turn_end_seals_iff (evs : List EventPayload) (b : EventPayload) (hb : b.endsTurn = true) :
    AllSealed (applyEvents newSessionState (evs ++ [b])).items ↔
      Lts.Preceded (fun p ev => ¬ Covers (applyEvents newSessionState p) ev) evs := by
  have hidle := (answers_endsTurn (applyEvents newSessionState evs) hb).2
  have hcover : ¬ Covers (applyEvents newSessionState evs) b := by
    rintro ⟨-, happ⟩
    rw [← ItemOp.stroke_eq_leave] at happ
    exact absurd (strokeOf_of_endsTurn _ hb) (by rw [strokeOf, happ]; simp)
  rw [← applyEvents_concat] at hidle
  rw [allSealed_iff, left_applyEvents, Lts.preceded_snoc_iff]
  simp [hidle, hcover]

/-- One tool between the text and the end of the turn. -/
theorem turn_end_leaves_open :
    ¬ AllSealed (applyEvents newSessionState
      [Sample.chunk 1 "Reading", Sample.event 2 "tool_call_start" [("name", .str "Read")],
        Sample.event 3 "turn_complete" []]).items := by
  decide +kernel

theorem turn_end_seals_plain :
    (Sample.event 2 "turn_complete" []).endsTurn = true ∧
      (AllSealed (applyEvents newSessionState ([Sample.chunk 1 "Hello"] ++
          [Sample.event 2 "turn_complete" []])).items ↔
        Lts.Preceded (fun p ev => ¬ Covers (applyEvents newSessionState p) ev) [Sample.chunk 1 "Hello"]) :=
  ⟨by decide, turn_end_seals_iff _ _ (by decide)⟩

end Harness.Client
