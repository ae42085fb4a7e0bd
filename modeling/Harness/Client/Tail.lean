/-
# Harness.Client.Tail — a client that keeps the last items only.

With `maxItems` the client trims its list after every event, and the next event finds the tail. Most events
look at the last item, at no item or at each of them, and do to the tail what they would do to the whole.
Three look for an item: the end of a tool for the last open tool of its name, a request and a question for
the item of their id. When what they would find has been trimmed away (`ItemOp.looksBack`) they add an item
instead. `bounded_shows_tail_iff` says that the bounded client shows the tail of the unbounded one up to
the first such event, and not after it.
-/
import Harness.Client.Items
import Harness.Client.Inversion
import Harness.Lib.Window

namespace Harness.Client

open Lib

/-! ## Operations on a tail -/

theorem trimItems_eq_rtake (items : List Item) (max : Nat) : trimItems items max = items.rtake max := by
  unfold trimItems
  split
  · rename_i h
    exact (rtake_of_length_le h).symm
  · rfl

/-- The search from the end finds what it finds in the tail. -/
theorem finishTool_append_of_some {name : String} {output : Option String} (before : List Item)
    {items items' : List Item} (h : finishTool name output items = some items') :
    finishTool name output (before ++ items) = some (before ++ items') := by
  induction before with
  | nil => exact h
  | cons item rest ih => rw [List.cons_append, finishTool, ih]; rfl

/-- It goes on before the tail when there is nothing in it. -/
theorem finishTool_append_of_none {name : String} {output : Option String} (before : List Item)
    {items : List Item} (h : finishTool name output items = none) :
    finishTool name output (before ++ items) = (finishTool name output before).map (· ++ items) := by
  induction before with
  | nil => exact h
  | cons item rest ih =>
      rw [List.cons_append, finishTool, ih, finishTool]
      cases finishTool name output rest with
      | some rest' => rfl
      | none =>
          simp only [Option.map_none]
          split
          · split <;> rfl
          · rfl

theorem dropNotices_append (n : Nat) (before items : List Item) :
    dropNotices n (before ++ items) =
      dropNotices n before ++ dropNotices (n - before.countP Item.isNotice) items := by
  induction before generalizing n with
  | nil => cases n <;> rfl
  | cons item rest ih =>
      cases n with
      | zero => simp [dropNotices]
      | succ n =>
          rw [List.cons_append, dropNotices, dropNotices]
          split
          · rename_i hitem
            rw [ih n, List.countP_cons_of_pos hitem, Nat.add_sub_add_right]
          · rename_i hitem
            rw [ih (n + 1), List.countP_cons_of_neg hitem, List.cons_append]

theorem length_dropNotices (n : Nat) (items : List Item) :
    items.length ≤ (dropNotices n items).length + n := by
  induction items generalizing n with
  | nil => exact Nat.zero_le _
  | cons item rest ih =>
      cases n with
      | zero => exact Nat.le_refl _
      | succ n =>
          rw [dropNotices, List.length_cons]
          split
          · have := ih n
            omega
          · have := ih (n + 1)
            rw [List.length_cons]
            omega

theorem openAssistant_append (before : List Item) {items : List Item} (h : items ≠ []) :
    openAssistant (before ++ items) = openAssistant items := by
  rw [openAssistant, openAssistant, List.getLast?_append_of_ne_nil _ h]

theorem sealOpenAssistant_append (before : List Item) {items : List Item} (h : items ≠ []) :
    sealOpenAssistant (before ++ items) = before ++ sealOpenAssistant items := by
  unfold sealOpenAssistant
  rw [openAssistant_append before h, List.dropLast_append_of_ne_nil h]
  cases openAssistant items with
  | none => rfl
  | some p => exact List.append_assoc ..

theorem appendAssistant_append (before : List Item) {items : List Item} (h : items ≠ []) (seq : ℚ)
    (ts : JsValue) (content : String) :
    appendAssistant (before ++ items) seq ts content =
      before ++ appendAssistant items seq ts content := by
  unfold appendAssistant
  rw [openAssistant_append before h, List.dropLast_append_of_ne_nil h]
  cases openAssistant items with
  | none => exact List.append_assoc ..
  | some p => exact List.append_assoc ..

theorem length_sealOpenAssistant (items : List Item) :
    (sealOpenAssistant items).length = items.length := by
  unfold sealOpenAssistant
  cases h : openAssistant items with
  | none => rfl
  | some p =>
      obtain ⟨hitems, -⟩ := eq_concat_of_openAssistant h
      conv => rhs; rw [hitems]
      simp

theorem length_appendAssistant (items : List Item) (seq : ℚ) (ts : JsValue) (content : String) :
    items.length ≤ (appendAssistant items seq ts content).length := by
  unfold appendAssistant
  cases h : openAssistant items with
  | none => simp
  | some p =>
      obtain ⟨hitems, -⟩ := eq_concat_of_openAssistant h
      conv => lhs; rw [hitems]
      simp

/-- The seq of the item an operation may add. -/
def ItemOp.seq : ItemOp → Option ℚ
  | .say seq _ _ | .prompt seq _ _ _ | .startTool seq _ _ _ | .endTool seq _ _ _ => some seq
  | .permission seq _ _ _ _ | .question seq _ _ _ | .notice seq _ _ => some seq
  | .keep | .sealLast | .resolve _ _ | .answer _ _ => none

/-- **`op.looksBack M items`** — the operation looks for an item that is there, but not among the last
`M`. -/
def ItemOp.looksBack (M : Nat) (items : List Item) : ItemOp → Bool
  | .endTool _ _ name output =>
      (finishTool name output items).isSome && (finishTool name output (items.rtake M)).isNone
  | .permission _ _ requestId _ _ =>
      items.any (·.isPermission requestId) && !(items.rtake M).any (·.isPermission requestId)
  | .question _ _ questionId _ =>
      items.any (·.isQuestion questionId) && !(items.rtake M).any (·.isQuestion questionId)
  | _ => false

/-- No operation makes the list shorter. -/
theorem length_run {items : List Item} (op : ItemOp)
    (hnotices : items.countP Item.isNotice ≤ maxNotices) : items.length ≤ (op.run items).length := by
  have hadd : ∀ (found : Bool) (x : Item),
      items.length ≤ (if found then items else items ++ [x]).length := by
    intro found x
    cases found <;> simp
  cases op with
  | keep => exact Nat.le_refl _
  | say seq ts content => exact length_appendAssistant ..
  | sealLast => exact (length_sealOpenAssistant items).ge
  | prompt seq ts text byDevice =>
      show items.length ≤ (sealOpenAssistant items ++ _).length
      rw [List.length_append, length_sealOpenAssistant]
      exact Nat.le_add_right _ _
  | startTool seq ts name input =>
      show items.length ≤ (items ++ _).length
      rw [List.length_append]
      exact Nat.le_add_right _ _
  | endTool seq ts name output =>
      show items.length ≤ ((finishTool name output items).getD _).length
      cases h : finishTool name output items with
      | none => simp
      | some items' =>
          have hmap := congrArg List.length (map_finishTool (f := Item.seq) (fun _ _ _ _ _ => rfl) h)
          simp only [List.length_map] at hmap
          exact hmap.ge
  | permission => exact hadd _ _
  | question => exact hadd _ _
  | resolve requestId resolution => exact (List.length_map _).ge
  | answer questionId resolved => exact (List.length_map _).ge
  | notice seq ts text =>
      show items.length ≤ (pushNotice items seq ts text .error).length
      have hlen := length_dropNotices (items.countP Item.isNotice + 1 - maxNotices) items
      have hone : items.countP Item.isNotice + 1 - maxNotices ≤ 1 :=
        Nat.sub_le_of_le_add (by rw [Nat.add_comm]; exact Nat.add_le_add_left hnotices 1)
      rw [pushNotice_eq, List.length_append, List.length_singleton]
      omega

/-- **An operation that finds what it looks for in the tail acts on the tail.** -/
theorem run_append {M : Nat} {before items : List Item} (op : ItemOp) (hitems : items ≠ [])
    (htail : (before ++ items).rtake M = items)
    (hnotices : (before ++ items).countP Item.isNotice ≤ maxNotices)
    (hback : op.looksBack M (before ++ items) = false) :
    ∃ before', op.run (before ++ items) = before' ++ op.run items := by
  have hpush : ∀ x : Item, before ++ items ++ [x] = before ++ (items ++ [x]) :=
    fun x => List.append_assoc ..
  -- an item that is added unless it is found, the tail deciding for the whole
  have hadd : ∀ (found : Item → Bool) (x : Item),
      ((before ++ items).any found && !items.any found) = false →
      (if (before ++ items).any found then before ++ items else before ++ items ++ [x]) =
        before ++ if items.any found then items else items ++ [x] := by
    intro found x h
    by_cases hin : items.any found = true
    · rw [if_pos hin, if_pos (by rw [List.any_append, hin, Bool.or_true])]
    · rw [Bool.not_eq_true] at hin
      rw [hin, Bool.not_false, Bool.and_true] at h
      rw [h, hin]
      exact hpush x
  cases op with
  | keep => exact ⟨before, rfl⟩
  | say seq ts content => exact ⟨before, appendAssistant_append before hitems seq ts content⟩
  | sealLast => exact ⟨before, sealOpenAssistant_append before hitems⟩
  | prompt seq ts text byDevice =>
      refine ⟨before, ?_⟩
      show sealOpenAssistant (before ++ items) ++ _ = before ++ (sealOpenAssistant items ++ _)
      rw [sealOpenAssistant_append before hitems, List.append_assoc]
  | startTool seq ts name input => exact ⟨before, hpush _⟩
  | endTool seq ts name output =>
      refine ⟨before, ?_⟩
      simp only [ItemOp.looksBack, htail] at hback
      show (finishTool name output (before ++ items)).getD _ = before ++ (finishTool name output items).getD _
      cases h : finishTool name output items with
      | some items' => rw [finishTool_append_of_some before h]; rfl
      | none =>
          rw [h, Option.isNone_none, Bool.and_true, Option.isSome_eq_false_iff, Option.isNone_iff_eq_none]
            at hback
          rw [hback]
          exact hpush _
  | permission seq ts requestId kind summary =>
      simp only [ItemOp.looksBack, htail] at hback
      exact ⟨before, hadd _ _ hback⟩
  | question seq ts questionId text =>
      simp only [ItemOp.looksBack, htail] at hback
      exact ⟨before, hadd _ _ hback⟩
  | resolve requestId resolution => exact ⟨_, List.map_append⟩
  | answer questionId resolved => exact ⟨_, List.map_append⟩
  | notice seq ts text =>
      refine ⟨dropNotices ((before ++ items).countP Item.isNotice + 1 - maxNotices) before, ?_⟩
      show pushNotice (before ++ items) seq ts text .error = _ ++ pushNotice items seq ts text .error
      rw [pushNotice_eq, pushNotice_eq, dropNotices_append, List.append_assoc]
      -- at most one notice goes, and the tail gives it up only if it holds them all
      have hle := hnotices
      rw [List.countP_append] at hle ⊢
      congr 3
      omega

/-- One that looks back leaves the whole as long as it is and adds an item to the tail. -/
theorem run_looksBack {M : Nat} {before items : List Item} {op : ItemOp}
    (htail : (before ++ items).rtake M = items) (hback : op.looksBack M (before ++ items) = true) :
    (∃ before', op.run (before ++ items) = before' ++ items) ∧
      ∃ x, op.run items = items ++ [x] ∧ op.seq = some x.seq := by
  have hadd : ∀ (found : Item → Bool) (x : Item),
      ((before ++ items).any found && !items.any found) = true →
      (if (before ++ items).any found then before ++ items else before ++ items ++ [x]) =
          before ++ items ∧
        (if items.any found then items else items ++ [x]) = items ++ [x] := by
    intro found x h
    rw [Bool.and_eq_true, Bool.not_eq_true'] at h
    exact ⟨if_pos h.1, if_neg (by rw [h.2]; exact Bool.false_ne_true)⟩
  cases op with
  | endTool seq ts name output =>
      simp only [ItemOp.looksBack, htail, Bool.and_eq_true, Option.isNone_iff_eq_none] at hback
      obtain ⟨hsome, hnone⟩ := hback
      rw [finishTool_append_of_none before hnone, Option.isSome_map] at hsome
      obtain ⟨before', hbefore⟩ := Option.isSome_iff_exists.mp hsome
      refine ⟨⟨before', ?_⟩, endedTool seq ts name output, ?_, rfl⟩
      · show (finishTool name output (before ++ items)).getD _ = before' ++ items
        rw [finishTool_append_of_none before hnone, hbefore]
        rfl
      · show (finishTool name output items).getD _ = items ++ _
        rw [hnone]
        rfl
  | permission seq ts requestId kind summary =>
      simp only [ItemOp.looksBack, htail] at hback
      obtain ⟨hwhole, hpart⟩ := hadd _ _ hback
      exact ⟨⟨before, hwhole⟩, _, hpart, rfl⟩
  | question seq ts questionId text =>
      simp only [ItemOp.looksBack, htail] at hback
      obtain ⟨hwhole, hpart⟩ := hadd _ _ hback
      exact ⟨⟨before, hwhole⟩, _, hpart, rfl⟩
  | _ => cases hback

/-- A tail that is the whole has everything there is to find. -/
theorem looksBack_of_whole {M : Nat} {items : List Item} (op : ItemOp) (h : items.rtake M = items) :
    op.looksBack M items = false := by
  cases op with
  | endTool seq ts name output =>
      simp only [ItemOp.looksBack, h]
      cases finishTool name output items <;> rfl
  | permission => simp [ItemOp.looksBack, h]
  | question => simp [ItemOp.looksBack, h]
  | _ => rfl

/-- **When an operation commutes with trimming.** An item it would add is newer than all others. -/
theorem rtake_run_iff {M : Nat} (hM : M ≠ 0) {items : List Item} (op : ItemOp)
    (hnotices : items.countP Item.isNotice ≤ maxNotices)
    (hseq : ∀ n, op.seq = some n → ∀ item ∈ items, item.seq < n) :
    (op.run (items.rtake M)).rtake M = (op.run items).rtake M ↔ op.looksBack M items = false := by
  obtain ⟨before, hsplit, rfl | hfull⟩ := exists_append_rtake M items
  · have hwhole : items.rtake M = items := hsplit.symm
    rw [hwhole]
    exact ⟨fun _ => looksBack_of_whole op hwhole, fun _ => rfl⟩
  · generalize htail : items.rtake M = tail at hsplit hfull ⊢
    subst hsplit
    have hne : tail ≠ [] := by
      rintro rfl
      exact hM hfull.symm
    cases hback : op.looksBack M (before ++ tail) with
    | false =>
        obtain ⟨before', hrun⟩ := run_append op hne htail hnotices hback
        have hle : tail.countP Item.isNotice ≤ maxNotices := by
          rw [List.countP_append] at hnotices
          exact (Nat.le_add_left _ _).trans hnotices
        have hlen := length_run op hle
        rw [hrun, rtake_append_of_le (.inr (by rw [← hfull]; exact hlen))]
        simp
    | true =>
        obtain ⟨⟨before', hwhole⟩, x, hpart, hx⟩ := run_looksBack htail hback
        have hnew : x ∉ tail := fun hmem =>
          absurd (hseq _ hx x (List.mem_append_right _ hmem)) (lt_irrefl _)
        rw [hwhole, hpart, rtake_append_of_le (.inr hfull.ge), rtake_of_length_le hfull.le]
        simp [rtake_concat_ne hM hnew]

/-! ## What the list always satisfies -/

theorem countP_dropNotices (n : Nat) (items : List Item) :
    (dropNotices n items).countP Item.isNotice = items.countP Item.isNotice - n := by
  induction items generalizing n with
  | nil => cases n <;> simp [dropNotices]
  | cons item rest ih =>
      cases n with
      | zero => rfl
      | succ n =>
          rw [dropNotices]
          split
          · rename_i hitem
            rw [ih n, List.countP_cons_of_pos hitem, Nat.add_sub_add_right]
          · rename_i hitem
            rw [List.countP_cons_of_neg hitem, List.countP_cons_of_neg hitem, ih (n + 1)]

/-- Only an error event has to do with the notices. -/
theorem notices_run (items : List Item) {op : ItemOp} (hop : ∀ seq ts text, op ≠ .notice seq ts text) :
    (op.run items).filter Item.isNotice = items.filter Item.isNotice := by
  have hassistant : ∀ (item : Item) (text : JsString) (sealed : Bool),
      item.body = .assistant text sealed → Option.guard Item.isNotice item = none := by
    intro item text sealed hbody
    simp [Item.isNotice, hbody]
  have htool : ∀ (item : Item) (n : String) (input out : Option String) (done : Bool),
      item.body = .tool n input out done → Option.guard Item.isNotice item = none := by
    intro item n input out done hbody
    simp [Item.isNotice, hbody]
  rw [← List.filterMap_eq_filter]
  cases op with
  | keep => rfl
  | say seq ts content => exact filterMap_appendAssistant hassistant items seq ts content
  | sealLast => exact filterMap_sealOpenAssistant hassistant items
  | prompt seq ts text byDevice =>
      exact (filterMap_push _ rfl).trans (filterMap_sealOpenAssistant hassistant items)
  | startTool seq ts name input => exact filterMap_push items rfl
  | endTool seq ts name output =>
      show ((finishTool name output items).getD _).filterMap _ = items.filterMap _
      cases hf : finishTool name output items with
      | none => exact filterMap_push items rfl
      | some items' => exact filterMap_finishTool htool hf
  | permission => exact filterMap_addUnless items _ rfl
  | question => exact filterMap_addUnless items _ rfl
  | resolve requestId resolution =>
      refine filterMap_map_of_eq items fun item => ?_
      obtain ⟨id, seq, ts, body⟩ := item
      cases body <;> rfl
  | answer questionId resolved =>
      refine filterMap_map_of_eq items fun item => ?_
      obtain ⟨id, seq, ts, body⟩ := item
      cases body <;> rfl
  | notice seq ts text => exact absurd rfl (hop seq ts text)

/-- There are never more than `MAX_NOTICES` notices. -/
theorem countP_run {items : List Item} (op : ItemOp) (h : items.countP Item.isNotice ≤ maxNotices) :
    (op.run items).countP Item.isNotice ≤ maxNotices := by
  have hquiet : (∀ seq ts text, op ≠ .notice seq ts text) →
      (op.run items).countP Item.isNotice ≤ maxNotices := fun hop => by
    rwa [List.countP_eq_length_filter, notices_run items hop, ← List.countP_eq_length_filter]
  cases op with
  | notice seq ts text =>
      show (pushNotice items seq ts text .error).countP Item.isNotice ≤ maxNotices
      rw [pushNotice_eq, List.countP_append, countP_dropNotices]
      have hone : [(⟨.notice seq, seq, ts, .notice text .error⟩ : Item)].countP Item.isNotice = 1 := rfl
      have hmax : 0 < maxNotices := by decide
      rw [hone]
      omega
  | _ => exact hquiet nofun

/-- What is left stands in its order. -/
theorem dropNotices_sublist (n : Nat) (items : List Item) : (dropNotices n items).Sublist items := by
  induction items generalizing n with
  | nil => cases n <;> exact List.Sublist.refl _
  | cons item rest ih =>
      cases n with
      | zero => exact List.Sublist.refl _
      | succ n =>
          rw [dropNotices]
          split
          · exact (ih n).cons item
          · exact (ih (n + 1)).cons_cons item

/-- **`OldOr items seq xs`** — every item of `xs` has the seq of one of `items`, or `seq`. -/
def OldOr (items : List Item) (seq : Option ℚ) (xs : List Item) : Prop :=
  ∀ x ∈ xs, (∃ old ∈ items, old.seq = x.seq) ∨ seq = some x.seq

theorem OldOr.same (items : List Item) (seq : Option ℚ) : OldOr items seq items :=
  fun x hx => .inl ⟨x, hx, rfl⟩

theorem OldOr.push {items xs : List Item} {seq : Option ℚ} (h : OldOr items seq xs) {x : Item}
    (hx : seq = some x.seq) : OldOr items seq (xs ++ [x]) := by
  intro y hy
  rcases List.mem_append.mp hy with hy | hy
  · exact h y hy
  · rw [List.mem_singleton.mp hy]
    exact .inr hx

theorem OldOr.add {items : List Item} {seq : Option ℚ} (found : Bool) {x : Item}
    (hx : seq = some x.seq) : OldOr items seq (if found then items else items ++ [x]) := by
  cases found with
  | true => exact .same items seq
  | false => exact (OldOr.same items seq).push hx

theorem OldOr.map {items : List Item} {seq : Option ℚ} {f : Item → Item} (hf : ∀ x, (f x).seq = x.seq) :
    OldOr items seq (items.map f) := by
  intro y hy
  obtain ⟨x, hx, rfl⟩ := List.mem_map.mp hy
  exact .inl ⟨x, hx, (hf x).symm⟩

/-- The last item gets another body. -/
theorem OldOr.setLast {items : List Item} {seq : Option ℚ} {last : Item} {text : JsString}
    (h : openAssistant items = some (last, text)) (body : ItemBody) :
    OldOr items seq (items.dropLast ++ [{ last with body := body }]) := by
  intro y hy
  have hlast : last ∈ items := by
    rw [(eq_concat_of_openAssistant h).1]
    exact List.mem_append_right _ List.mem_cons_self
  rcases List.mem_append.mp hy with hy | hy
  · exact .inl ⟨y, List.dropLast_subset _ hy, rfl⟩
  · rw [List.mem_singleton.mp hy]
    exact .inl ⟨last, hlast, rfl⟩

theorem oldOr_sealOpenAssistant (items : List Item) (seq : Option ℚ) :
    OldOr items seq (sealOpenAssistant items) := by
  unfold sealOpenAssistant
  split
  · rename_i last text h
    exact .setLast h _
  · exact .same items seq

/-- An item keeps its seq, and a new one has that of its event. -/
theorem oldOr_run (items : List Item) (op : ItemOp) : OldOr items op.seq (op.run items) := by
  cases op with
  | keep => exact .same items _
  | say seq ts content =>
      show OldOr items (some seq) (appendAssistant items seq ts content)
      unfold appendAssistant
      split
      · rename_i last text h
        exact .setLast h _
      · exact (OldOr.same items _).push rfl
  | sealLast => exact oldOr_sealOpenAssistant items _
  | prompt seq ts text byDevice => exact (oldOr_sealOpenAssistant items _).push rfl
  | startTool seq ts name input => exact (OldOr.same items _).push rfl
  | endTool seq ts name output =>
      show OldOr items (some seq) ((finishTool name output items).getD _)
      cases h : finishTool name output items with
      | none => exact (OldOr.same items _).push rfl
      | some items' =>
          have hmap := map_finishTool (f := Item.seq) (fun _ _ _ _ _ => rfl) h
          intro x hx
          have hseq : x.seq ∈ items.map Item.seq := by
            rw [← hmap]
            exact List.mem_map_of_mem hx
          exact .inl (List.mem_map.mp hseq)
  | permission => exact .add _ rfl
  | question => exact .add _ rfl
  | resolve requestId resolution =>
      refine .map fun x => ?_
      obtain ⟨id, seq, ts, body⟩ := x
      cases body <;> rfl
  | answer questionId resolved =>
      refine .map fun x => ?_
      obtain ⟨id, seq, ts, body⟩ := x
      cases body <;> rfl
  | notice seq ts text =>
      show OldOr items (some seq) (pushNotice items seq ts text .error)
      rw [pushNotice_eq]
      refine OldOr.push (fun x hx => ?_) rfl
      exact .inl ⟨x, (dropNotices_sublist _ items).subset hx, rfl⟩

theorem itemOp_seq (name : String → Attribution) (ev : EventPayload) :
    (itemOp name ev).seq = none ∨ (itemOp name ev).seq = some ev.seq := by
  unfold itemOp EventPayload.reading
  cases eventKind ev.kind with
  | textDelta | permissionRequest | question =>
      simp only [Reading.itemOp]
      split <;> simp [ItemOp.seq]
  | _ => simp [Reading.itemOp, ItemOp.seq]

/-! ## The two clients -/

/-- **`Untrimmed s`** — what holds of the session of a client that does not trim. -/
structure Untrimmed (s : SessionState) : Prop where
  notices : s.items.countP Item.isNotice ≤ maxNotices
  seqs : ∀ item ∈ s.items, item.seq ≤ s.lastSeq

theorem Untrimmed.applyEvent {s : SessionState} (h : Untrimmed s) {ev : EventPayload} (hseq : s.lastSeq ≤ ev.seq) :
    Untrimmed (applyEvent s ev) := by
  refine ⟨?_, fun item hitem => ?_⟩
  · rw [applyEvent_items]
    exact countP_run _ h.notices
  · rw [applyEvent_lastSeq]
    rw [applyEvent_items] at hitem
    rcases oldOr_run _ _ item hitem with ⟨old, hold, heq⟩ | hnew
    · rw [← heq]
      exact (h.seqs old hold).trans hseq
    · rcases itemOp_seq (nameFor s) ev with hnone | hsome
      · rw [hnone] at hnew
        cases hnew
      · rw [hsome] at hnew
        rw [← Option.some.inj hnew]

theorem HarnessClient.acceptEvent_session (c : HarnessClient) (ev : EventPayload) :
    (c.acceptEvent ev).session = c.nextSession ev ∧ (c.acceptEvent ev).maxItems = c.maxItems := by
  unfold HarnessClient.acceptEvent
  dsimp only
  split
  · obtain ⟨os, heq, -⟩ := HarnessClient.live_spec
      (HarnessClient.emit { c with session := c.nextSession ev, gapSeq := none, gapCount := 0 }
        (.applied c.session.sessionId ev.seq))
    rw [heq]
    exact ⟨rfl, rfl⟩
  · exact ⟨rfl, rfl⟩

/-- The event a frame is read as. -/
def payloadOf (ev : JsRecord) : EventPayload :=
  match HarnessClient.seqOf ev with
  | .finite q => HarnessClient.eventOf ev q
  | .infinite _ => HarnessClient.eventOf ev 0

/-- The next event is applied. -/
theorem HarnessClient.handleEvent_next {c : HarnessClient} {ev : JsRecord}
    (h : seqOf ev = .finite (c.session.lastSeq + 1)) (env : Env) :
    (c.handleEvent ev env).session = c.nextSession (payloadOf ev) ∧
      (c.handleEvent ev env).maxItems = c.maxItems ∧ (payloadOf ev).seq = c.session.lastSeq + 1 := by
  have hread : payloadOf ev = eventOf ev (c.session.lastSeq + 1) := by rw [payloadOf, h]
  rw [handleEvent_of_lt h (lt_add_one _), if_neg (lt_irrefl _), hread]
  obtain ⟨hsession, hmax⟩ := c.acceptEvent_session (eventOf ev (c.session.lastSeq + 1))
  exact ⟨hsession, hmax, rfl⟩

/-- The client reads events, one after the other. -/
def HarnessClient.feed (env : Env) (c : HarnessClient) (evs : List JsRecord) : HarnessClient :=
  evs.foldl (fun c ev => c.handleEvent ev env) c

theorem HarnessClient.feed_concat (env : Env) (c : HarnessClient) (evs : List JsRecord) (ev : JsRecord) :
    c.feed env (evs ++ [ev]) = (c.feed env evs).handleEvent ev env := List.foldl_concat ..

/-- **`Contiguous n evs`** — the seqs of the events are `n + 1`, `n + 2` and so on. -/
def Contiguous (n : ℚ) (evs : List JsRecord) : Prop :=
  Lts.Preceded (fun p ev => HarnessClient.seqOf ev = .finite (n + p.length + 1)) evs

theorem Contiguous.seqOf_eq {n : ℚ} {evs p : List JsRecord} {ev : JsRecord} (h : Contiguous n evs)
    (hp : p ++ [ev] <+: evs) : HarnessClient.seqOf ev = .finite (n + p.length + 1) := by
  obtain ⟨q, rfl⟩ := hp
  exact h p ev q (by simp)

/-- The event looks for an item that is on the unbounded screen, but not among its last `M`. -/
def LooksBack (M : Nat) (s : SessionState) (ev : EventPayload) : Prop :=
  (itemOp (nameFor s) ev).looksBack M s.items = true

/-- **`Beside M b u`** — `b` is a client bounded by `M`, `u` one without a bound, and nothing but the items
differs between their sessions. -/
structure Beside (M : Nat) (b u : HarnessClient) : Prop where
  bounded : b.maxItems = some M
  unbounded : u.maxItems = none
  session : b.session = { u.session with items := b.session.items }
  untrimmed : Untrimmed u.session

/-- One event: the two stay beside each other, and a tail is kept unless the event looks back. -/
theorem Beside.handleEvent {M : Nat} (hM : M ≠ 0) {b u : HarnessClient} (h : Beside M b u) {ev : JsRecord}
    (hseq : HarnessClient.seqOf ev = .finite (u.session.lastSeq + 1)) (env env' : Env) :
    Beside M (b.handleEvent ev env) (u.handleEvent ev env') ∧
      (u.handleEvent ev env').session.lastSeq = u.session.lastSeq + 1 ∧
      (b.session.items = u.session.items.rtake M →
        ((b.handleEvent ev env).session.items = (u.handleEvent ev env').session.items.rtake M ↔
          ¬ LooksBack M u.session (payloadOf ev))) := by
  have hlast : b.session.lastSeq = u.session.lastSeq := by rw [h.session]
  obtain ⟨hb, hbmax, -⟩ := HarnessClient.handleEvent_next (c := b) (by rw [hlast]; exact hseq) env
  obtain ⟨hu, humax, hnum⟩ := HarnessClient.handleEvent_next hseq env'
  rw [HarnessClient.nextSession_of_none h.unbounded] at hu
  have hitems : (b.handleEvent ev env).session =
      { applyEvent u.session (payloadOf ev) with
        items := ((itemOp (nameFor u.session) (payloadOf ev)).run b.session.items).rtake M } := by
    rw [hb, HarnessClient.nextSession, h.bounded]
    show { applyEvent b.session (payloadOf ev) with
      items := trimItems (applyEvent b.session (payloadOf ev)).items M } = _
    rw [h.session, applyEvent_with_items, trimItems_eq_rtake]
  refine ⟨⟨hbmax.trans h.bounded, humax.trans h.unbounded, ?_, ?_⟩, ?_, fun htail => ?_⟩
  · rw [hitems, hu]
  · rw [hu]
    exact h.untrimmed.applyEvent (by rw [hnum]; exact (lt_add_one _).le)
  · rw [hu, applyEvent_lastSeq, hnum]
  · rw [hitems, hu, applyEvent_items, htail, LooksBack, Bool.not_eq_true]
    refine rtake_run_iff hM _ h.untrimmed.notices fun n hn item hitem => ?_
    rcases itemOp_seq (nameFor u.session) (payloadOf ev) with hnone | hsome
    · rw [hnone] at hn
      cases hn
    · rw [hsome] at hn
      rw [← Option.some.inj hn, hnum]
      exact lt_of_le_of_lt (h.untrimmed.seqs item hitem) (lt_add_one _)

/-- Fed the same events, they stay beside each other. -/
theorem Beside.feed {M : Nat} (hM : M ≠ 0) {b u : HarnessClient} (h : Beside M b u) {evs : List JsRecord}
    (hevs : Contiguous u.session.lastSeq evs) (env env' : Env) :
    ∀ p, p <+: evs → Beside M (b.feed env p) (u.feed env' p) ∧
      (u.feed env' p).session.lastSeq = u.session.lastSeq + p.length := by
  intro p
  induction p using List.reverseRecOn with
  | nil => exact fun _ => ⟨h, by simp [HarnessClient.feed]⟩
  | append_singleton p ev ih =>
      intro hp
      obtain ⟨hbeside, hlast⟩ := ih ((List.prefix_append ..).trans hp)
      have hseq := hevs.seqOf_eq hp
      rw [← hlast] at hseq
      obtain ⟨hnext, hone, -⟩ := hbeside.handleEvent hM hseq env env'
      rw [HarnessClient.feed_concat, HarnessClient.feed_concat]
      refine ⟨hnext, ?_⟩
      rw [hone, hlast, List.length_append, Nat.cast_add]
      simp [add_assoc]

/-- **When the bounded client shows the tail of the unbounded one.** Fed the same contiguous events, the
two agree on the last `M` items after every event, exactly if no event looks for an item that has left
them. -/
theorem bounded_shows_tail_iff (M : Nat) (hM : 1 ≤ M) (b u : HarnessClient) (hb : b.maxItems = some M)
    (hu : u.maxItems = none) (hsame : b.session = u.session) (hitems : u.session.items = [])
    (evs : List JsRecord) (hevs : Contiguous u.session.lastSeq evs) (env env' : Env) :
    (∀ p, p <+: evs →
        (b.feed env p).session.items = (u.feed env' p).session.items.rtake M) ↔
      Lts.Preceded (fun p ev => ¬ LooksBack M (u.feed env' p).session (payloadOf ev)) evs := by
  have hM' : M ≠ 0 := Nat.ne_of_gt hM
  have hstart : Beside M b u := by
    refine ⟨hb, hu, by rw [hsame], ?_, ?_⟩
    · rw [hitems]
      exact Nat.zero_le _
    · rw [hitems]
      exact fun item h => absurd h List.not_mem_nil
  refine forall_prefix_iff_of_step ?_ fun p ev hp htail => ?_
  · show b.session.items = u.session.items.rtake M
    rw [hsame, hitems, List.rtake_nil]
  · obtain ⟨hbeside, hlast⟩ := hstart.feed hM' hevs env env' p ((List.prefix_append ..).trans hp)
    have hseq := hevs.seqOf_eq hp
    rw [← hlast] at hseq
    rw [HarnessClient.feed_concat, HarnessClient.feed_concat]
    exact (hbeside.handleEvent hM' hseq env env').2.2 htail

namespace Sample

/-- An event frame. -/
def frame (seq : Nat) (kind : String) (members : JsRecord) : JsRecord :=
  [("seq", .int seq), ("ts", .int 0), ("kind", .str kind), ("payload", .obj members)]

/-- A tool that ends after some text. -/
def longTool : List JsRecord :=
  [frame 1 "tool_call_start" [("name", .str "Read")],
    frame 2 "text_delta" [("content", .str "still reading")],
    frame 3 "tool_call_end" [("name", .str "Read")]]

def bounded (M : Nat) : HarnessClient := .new "wss://host:7432/ws" .hello none (some M)

def unbounded : HarnessClient := .new "wss://host:7432/ws" .hello none none

end Sample

/-- With room for one item the tool is gone when it ends, and is shown a second time. -/
theorem longTool_not_tail :
    ((Sample.bounded 1).feed {} Sample.longTool).session.items ≠
      ((Sample.unbounded.feed {} Sample.longTool).session.items.rtake 1) := by
  intro h
  have hseqs := congrArg (fun items => items.map Item.seq) h
  revert hseqs
  decide +kernel

theorem bounded_shows_tail_twoItems :
    (∀ p, p <+: Sample.longTool.take 2 →
        ((Sample.bounded 1).feed {} p).session.items =
          (Sample.unbounded.feed {} p).session.items.rtake 1) ↔
      Lts.Preceded (fun p ev => ¬ LooksBack 1 (Sample.unbounded.feed {} p).session (payloadOf ev))
        (Sample.longTool.take 2) := by
  refine bounded_shows_tail_iff 1 (Nat.le_refl 1) (Sample.bounded 1) Sample.unbounded rfl rfl rfl rfl _ ?_
    {} {}
  show Lts.Preceded _ (([] ++ [_]) ++ [_])
  iterate 2 refine Lts.preceded_snoc ?_ (by decide +kernel)
  exact Lts.preceded_nil _

end Harness.Client
