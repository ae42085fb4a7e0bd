/-
# Harness.Client.Clamp — which end of a long answer survives.

`clampText` is to keep the most recent output of an answer that outgrows `MAX_TEXT_BYTES`. Its loop cuts a
tenth of the code units off the end, as often as it takes: what stays is the beginning. The bound holds,
the loop ends and a text that fits is not touched (`clampText_spec`); that the end of the text is kept
holds for a text that repeats itself far enough for its beginning to be its end (`appendAssistant_keeps_tail_iff`).
-/
import Harness.Client.Turns
import Mathlib.Logic.Function.Iterate

namespace Harness.Client

open Lib

/-! ## The loop -/

/-- `Math.floor(n * 0.9)`. -/
def shrink (n : Nat) : Nat := n * 9 / 10

/-- **`FirstFit text k`** — the text cut to nine tenths `k` times fits, and cut less often it does not. -/
def FirstFit (text : JsString) (k : Nat) : Prop :=
  textByteLength (text.take (shrink^[k] text.length)) ≤ maxTextBytes ∧
    ∀ j < k, maxTextBytes < textByteLength (text.take (shrink^[j] text.length))

theorem shrink_le (n : Nat) : shrink n ≤ n := by
  unfold shrink
  omega

theorem shrink_iterate_le (k n : Nat) : shrink^[k] n ≤ n := by
  induction k with
  | zero => exact Nat.le_refl n
  | succ k ih =>
      rw [Function.iterate_succ_apply']
      exact (shrink_le _).trans ih

/-- No round is needed exactly when the text fits. -/
theorem firstFit_zero_iff {text : JsString} :
    FirstFit text 0 ↔ textByteLength text ≤ maxTextBytes := by
  have htake : text.take (shrink^[0] text.length) = text := List.take_length ..
  rw [FirstFit, htake]
  simp

/-- The number of rounds is determined. -/
theorem FirstFit.unique {text : JsString} {j k : Nat} (hj : FirstFit text j) (hk : FirstFit text k) :
    j = k := by
  rcases Nat.lt_trichotomy j k with h | h | h
  · exact absurd hj.1 (Nat.not_le.mpr (hk.2 j h))
  · exact h
  · exact absurd hk.1 (Nat.not_le.mpr (hj.2 k h))

/-- **The loop ends**, after as many rounds as it takes for the text to fit. -/
theorem clampLoop_spec (out : JsString) :
    ∃ k, FirstFit out k ∧ clampLoop out = out.take (shrink^[k] out.length) := by
  fun_induction clampLoop out with
  | case1 out h ih =>
      obtain ⟨k, ⟨hfit, hbig⟩, hloop⟩ := ih
      have hlen : (out.take (out.length * 9 / 10)).length = shrink out.length := by
        rw [List.length_take]
        unfold shrink
        omega
      -- a prefix of the cut text is a prefix of the text
      have htake : ∀ j, (out.take (out.length * 9 / 10)).take (shrink^[j] (shrink out.length)) =
          out.take (shrink^[j + 1] out.length) := by
        intro j
        rw [List.take_take, Function.iterate_succ_apply]
        congr 1
        exact Nat.min_eq_left (shrink_iterate_le j _)
      simp only [hlen, htake] at hfit hbig hloop
      refine ⟨k + 1, ⟨hfit, fun j hj => ?_⟩, hloop⟩
      cases j with
      | zero =>
          show maxTextBytes < textByteLength (out.take out.length)
          rw [List.take_length]
          exact h.2
      | succ j => exact hbig j (by omega)
  | case2 out h =>
      refine ⟨0, firstFit_zero_iff.mpr ?_, (List.take_length ..).symm⟩
      by_cases hlen : 0 < out.length
      · exact Nat.le_of_not_lt fun hbig => h ⟨hlen, hbig⟩
      · obtain rfl := List.eq_nil_of_length_eq_zero (Nat.eq_zero_of_not_pos hlen)
        exact Nat.zero_le _

/-- **What `clampText` returns**: the longest of the beginnings it tries that fits. -/
theorem clampText_spec (text : JsString) :
    ∃ k, FirstFit text k ∧ clampText text = text.take (shrink^[k] text.length) := by
  unfold clampText
  split
  · rename_i h
    exact ⟨0, firstFit_zero_iff.mpr h, (List.take_length ..).symm⟩
  · exact clampLoop_spec text

/-! ## Keeping the tail -/

/-- **`KeepsTail stored whole`** — what is stored of a text is its end, within the bound, and all of it if
that fits. -/
structure KeepsTail (stored whole : JsString) : Prop where
  tail : stored <:+ whole
  bound : textByteLength stored ≤ maxTextBytes
  fits : textByteLength whole ≤ maxTextBytes → stored = whole

/-- The beginning of the text that is first found to fit is the end of the text as well. -/
def FrontIsEnd (text : JsString) : Prop :=
  ∃ k, FirstFit text k ∧
    text.take (shrink^[k] text.length) = text.drop (text.length - shrink^[k] text.length)

theorem clampText_keepsTail_iff (text : JsString) :
    KeepsTail (clampText text) text ↔ FrontIsEnd text := by
  obtain ⟨k, hfit, hclamp⟩ := clampText_spec text
  have hlen : (text.take (shrink^[k] text.length)).length = shrink^[k] text.length := by
    rw [List.length_take]
    exact Nat.min_eq_left (shrink_iterate_le k _)
  rw [hclamp]
  constructor
  · intro h
    refine ⟨k, hfit, ?_⟩
    have htail := List.suffix_iff_eq_drop.mp h.tail
    rwa [hlen] at htail
  · rintro ⟨j, hj, heq⟩
    obtain rfl := hfit.unique hj
    refine ⟨?_, hfit.1, fun h => ?_⟩
    · rw [List.suffix_iff_eq_drop, hlen]
      exact heq
    · -- a text that fits is not cut at all
      obtain rfl := hfit.unique (firstFit_zero_iff.mpr h)
      exact List.take_length ..

theorem frontIsEnd_of_fits {text : JsString} (h : textByteLength text ≤ maxTextBytes) :
    FrontIsEnd text := by
  refine ⟨0, firstFit_zero_iff.mpr h, ?_⟩
  show text.take text.length = text.drop (text.length - text.length)
  simp

/-! ## Answers -/

/-- The text that is stored is the clamped whole. -/
theorem openText_appendAssistant (items : List Item) (seq : ℚ) (ts : JsValue) (content : String) :
    openText (appendAssistant items seq ts content) = clampText (openText items ++ utf16 content) := by
  have hlast : ∀ (xs : List Item) (id : ItemId) (s : ℚ) (t : JsValue) (text : JsString),
      openText (xs ++ [⟨id, s, t, .assistant text false⟩]) = text := by
    intro xs id s t text
    simp [openText, openAssistant]
  unfold appendAssistant
  cases h : openAssistant items with
  | none =>
      have hempty : openText items = [] := by simp [openText, h]
      rw [hempty]
      exact hlast ..
  | some p =>
      have htext : openText items = p.2 := by simp [openText, h]
      rw [htext]
      exact hlast ..

theorem openText_applyEvent (s : SessionState) {ev : EventPayload} (h : ev.delta ≠ "") :
    openText (applyEvent s ev).items = clampText (openText s.items ++ utf16 ev.delta) := by
  rw [applyEvent_items, itemOp_of_delta _ h]
  exact openText_appendAssistant ..

/-- **When clamping keeps the newest output.** What `appendAssistant` stores of an answer and a delta is
the end of the two exactly if their beginning, cut until it fits, is their end; a run of deltas that each
meet this keeps the end of all of them. The loop ends for every text. -/
theorem appendAssistant_keeps_tail_iff (items : List Item) (seq : ℚ) (ts : JsValue) (content : String) :
    (KeepsTail (openText (appendAssistant items seq ts content)) (openText items ++ utf16 content) ↔
        FrontIsEnd (openText items ++ utf16 content)) ∧
      (∀ (s : SessionState) (evs : List EventPayload), (∀ ev ∈ evs, ev.delta ≠ "") →
        Lts.Preceded (fun p ev =>
          FrontIsEnd (openText (applyEvents s p).items ++ utf16 ev.delta)) evs →
        openText (applyEvents s evs).items <:+ openText s.items ++ contents evs) ∧
      ∀ text : JsString, ∃ k, clampLoop text = text.take (shrink^[k] text.length) := by
  refine ⟨?_, ?_, fun text => ?_⟩
  · rw [openText_appendAssistant]
    exact clampText_keepsTail_iff _
  · intro s evs hdelta hend
    induction evs using List.reverseRecOn with
    | nil => simp [contents]
    | append_singleton evs ev ih =>
        obtain ⟨hevs, hev⟩ := Lts.preceded_snoc_iff.mp hend
        obtain ⟨before, hbefore⟩ := ih (fun e he => hdelta e (List.mem_append_left _ he)) hevs
        have hd : ev.delta ≠ "" := hdelta ev (List.mem_append_right _ List.mem_cons_self)
        rw [applyEvents_concat, openText_applyEvent _ hd, contents_append, ← List.append_assoc, ← hbefore,
          List.append_assoc]
        have hone : contents [ev] = utf16 ev.delta := by simp [contents]
        rw [hone]
        exact ((clampText_keepsTail_iff _).mpr hev).tail.trans (List.suffix_append ..)
  · obtain ⟨k, -, hk⟩ := clampLoop_spec text
    exact ⟨k, hk⟩

/-! ## An answer that is full -/

theorem textByteLength_le_three {text : JsString} (h : text.length ≤ 1) : textByteLength text ≤ 3 := by
  match text with
  | [] => exact Nat.zero_le _
  | [u] =>
      rw [textByteLength]
      split
      · omega
      · split <;> omega
  | u :: v :: rest => simp at h

/-- The loop does not cut everything. -/
theorem FirstFit.pos {text : JsString} {k : Nat} (h : FirstFit text k) (hlen : 0 < text.length) :
    0 < shrink^[k] text.length := by
  cases k with
  | zero => exact hlen
  | succ k =>
      refine Nat.pos_of_ne_zero fun hzero => ?_
      rw [Function.iterate_succ_apply', shrink] at hzero
      have hshort : (text.take (shrink^[k] text.length)).length ≤ 1 := by
        rw [List.length_take]
        omega
      have hbig := h.2 k (Nat.lt_succ_self k)
      have hsmall := textByteLength_le_three hshort
      exact absurd hbig (Nat.not_lt.mpr (hsmall.trans (by decide)))

/-- A text that is too long and ends in a unit it has nowhere else loses its end. -/
theorem not_frontIsEnd_concat {text : JsString} {u : UInt16} (hu : u ∉ text)
    (hbig : maxTextBytes < textByteLength (text ++ [u])) : ¬ FrontIsEnd (text ++ [u]) := by
  rintro ⟨k, hfit, heq⟩
  have hlen : (text ++ [u]).length = text.length + 1 := by simp
  have hpos := hfit.pos (by omega)
  have hk : k ≠ 0 := by
    rintro rfl
    exact absurd (firstFit_zero_iff.mp hfit) (Nat.not_le.mpr hbig)
  have hcut : shrink^[k] (text ++ [u]).length ≤ text.length := by
    obtain ⟨j, rfl⟩ := Nat.exists_eq_succ_of_ne_zero hk
    have hle := shrink_iterate_le j (text ++ [u]).length
    rw [Function.iterate_succ_apply', shrink]
    omega
  rw [List.take_append_of_le_length hcut, List.drop_append_of_le_length (by omega)] at heq
  have hmem : u ∈ text.take (shrink^[k] (text ++ [u]).length) := by
    rw [heq]
    simp
  exact hu (List.mem_of_mem_take hmem)

theorem textByteLength_cons_ascii {u : UInt16} (hu : u < 0x80) (rest : JsString) :
    textByteLength (u :: rest) = 1 + textByteLength rest := by
  cases rest with
  | nil => simp [textByteLength, hu]
  | cons v rest =>
      have hlow : ¬ 0xD800 ≤ u := fun hge => absurd (UInt16.lt_of_le_of_lt hge hu) (by decide)
      simp [textByteLength, hlow, hu]

theorem textByteLength_ascii {text : JsString} (h : ∀ u ∈ text, u < 0x80) :
    textByteLength text = text.length := by
  induction text with
  | nil => rfl
  | cons u rest ih =>
      rw [textByteLength_cons_ascii (h u List.mem_cons_self),
        ih fun v hv => h v (List.mem_cons_of_mem u hv), List.length_cons, Nat.add_comm]

namespace Sample

/-- An answer that takes up all of `MAX_TEXT_BYTES`. -/
def fullAnswer : String := String.ofList (List.replicate maxTextBytes 'a')

end Sample

theorem utf16_fullAnswer : utf16 Sample.fullAnswer = List.replicate maxTextBytes 97 := by
  have h : utf16Units 'a' = [97] := by decide
  rw [utf16, Sample.fullAnswer, String.toList_ofList, List.flatMap_replicate, h,
    List.flatten_replicate_singleton]

theorem openText_fullAnswer :
    openText (appendAssistant [] 1 .null Sample.fullAnswer) = List.replicate maxTextBytes 97 := by
  have hfits : textByteLength (List.replicate maxTextBytes (97 : UInt16)) ≤ maxTextBytes := by
    rw [textByteLength_ascii fun u hu => by rw [List.eq_of_mem_replicate hu]; decide, List.length_replicate]
  rw [openText_appendAssistant, utf16_fullAnswer]
  show clampText (List.replicate maxTextBytes 97) = _
  rw [clampText, if_pos hfits]

/-- One more character, and it is the newest part of the answer that goes. -/
theorem fullAnswer_loses_tail :
    ¬ KeepsTail
      (openText (appendAssistant (appendAssistant [] 1 .null Sample.fullAnswer) 2 .null "b"))
      (openText (appendAssistant [] 1 .null Sample.fullAnswer) ++ utf16 "b") := by
  have hb : utf16 "b" = [98] := by decide
  rw [openText_appendAssistant, clampText_keepsTail_iff, openText_fullAnswer, hb]
  refine not_frontIsEnd_concat (fun h => absurd (List.eq_of_mem_replicate h) (by decide)) ?_
  have hascii : ∀ u ∈ List.replicate maxTextBytes (97 : UInt16) ++ [98], u < 0x80 := by
    intro u hu
    rcases List.mem_append.mp hu with hu | hu
    · rw [List.eq_of_mem_replicate hu]
      decide
    · rw [List.mem_singleton.mp hu]
      decide
  rw [textByteLength_ascii hascii, List.length_append, List.length_replicate]
  exact Nat.lt_succ_self _

/-- Two deltas that fit are kept, the first as well as the second. -/
theorem appendAssistant_keeps_tail_hello :
    openText (applyEvents newSessionState [Sample.chunk 1 "Hello", Sample.chunk 2 " you"]).items <:+
      openText newSessionState.items ++ contents [Sample.chunk 1 "Hello", Sample.chunk 2 " you"] := by
  refine (appendAssistant_keeps_tail_iff [] 0 .null "").2.1 _ _ (by decide) ?_
  show Lts.Preceded _ (([] ++ [_]) ++ [_])
  iterate 2 refine Lts.preceded_snoc ?_ (frontIsEnd_of_fits (by decide +kernel))
  exact Lts.preceded_nil _

end Harness.Client
