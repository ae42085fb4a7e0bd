/-
# Harness.Lib.Window — a list and the window of its last elements.

A list splits into what has left the window of the last `n` elements and the window itself
(`exists_append_rtake`). An operation that acts on the two parts separately and does not make the second
shorter can be carried out on the window alone (`rtake_append_of_le`).

Two machines that agree until one of them takes a bad step part at the first one; `forall_prefix_iff`
turns what holds step by step into a statement about a whole log.
-/
import Harness.Lib.Transition
import Mathlib.Data.List.DropRight
import Mathlib.Data.List.Induction

namespace Harness.Lib

section Window

variable {T : Type*}

/-- What is before the window, and the window: a window that is not full holds everything. -/
theorem exists_append_rtake (n : Nat) (xs : List T) :
    ∃ before, xs = before ++ xs.rtake n ∧ (before = [] ∨ (xs.rtake n).length = n) := by
  refine ⟨xs.take (xs.length - n), (List.take_append_drop ..).symm, ?_⟩
  rcases Nat.le_total xs.length n with h | h
  · left
    rw [Nat.sub_eq_zero_of_le h, List.take_zero]
  · right
    rw [List.rtake, List.length_drop]
    omega

/-- What has left the window of a list has left it for good. -/
theorem rtake_append_of_le {n : Nat} {before xs : List T} (h : before = [] ∨ n ≤ xs.length) :
    (before ++ xs).rtake n = xs.rtake n := by
  rcases h with rfl | h
  · rfl
  · rw [List.rtake, List.rtake, List.length_append, List.drop_append]
    have hlen : before.length + xs.length - n - before.length = xs.length - n := by omega
    rw [List.drop_eq_nil_of_le (by omega), hlen, List.nil_append]

theorem rtake_of_length_le {n : Nat} {xs : List T} (h : xs.length ≤ n) : xs.rtake n = xs := by
  rw [List.rtake, Nat.sub_eq_zero_of_le h, List.drop_zero]

/-- A window that takes a new element is not the window it was. -/
theorem rtake_concat_ne {n : Nat} (hn : n ≠ 0) {xs : List T} {x : T} (hx : x ∉ xs) :
    (xs ++ [x]).rtake n ≠ xs := by
  intro h
  obtain ⟨m, rfl⟩ := Nat.exists_eq_succ_of_ne_zero hn
  rw [List.rtake_concat_succ] at h
  refine hx ?_
  rw [← h]
  exact List.mem_append_right _ List.mem_cons_self

end Window

open Lts (Preceded preceded_nil preceded_snoc_iff)

/-- **The first bad step decides.** What holds of the empty log, and after good steps of one step more
exactly if that step is good, holds of every prefix exactly if all steps are good. -/
theorem forall_prefix_iff {O : Type*} {Q : List O → Prop} {Good : List O → O → Prop} (hnil : Q []) :
    ∀ {evs : List O}, (∀ p o, p ++ [o] <+: evs → Preceded Good p → (Q (p ++ [o]) ↔ Good p o)) →
      ((∀ p, p <+: evs → Q p) ↔ Preceded Good evs) := by
  intro evs
  induction evs using List.reverseRecOn with
  | nil =>
      intro _
      refine ⟨fun _ => preceded_nil _, fun _ p hp => ?_⟩
      rw [List.prefix_nil.mp hp]
      exact hnil
  | append_singleton evs o ih =>
      intro hstep
      have hevs := ih fun p x hp => hstep p x (hp.trans (List.prefix_append ..))
      rw [preceded_snoc_iff]
      constructor
      · intro h
        have hgood := hevs.mp fun p hp => h p (hp.trans (List.prefix_append ..))
        exact ⟨hgood, (hstep evs o (List.prefix_refl _) hgood).mp (h _ (List.prefix_refl _))⟩
      · rintro ⟨hgood, ho⟩ p hp
        rcases List.prefix_concat_iff.mp hp with rfl | hp
        · exact (hstep evs o (List.prefix_refl _) hgood).mpr ho
        · exact hevs.mpr hgood p hp

/-- The same, when one step needs the property before it. -/
theorem forall_prefix_iff_of_step {O : Type*} {Q : List O → Prop} {Good : List O → O → Prop}
    (hnil : Q []) {evs : List O}
    (hstep : ∀ p o, p ++ [o] <+: evs → Q p → (Q (p ++ [o]) ↔ Good p o)) :
    (∀ p, p <+: evs → Q p) ↔ Preceded Good evs := by
  have hgood : ∀ p, p <+: evs → Preceded Good p → Q p := by
    intro p
    induction p using List.reverseRecOn with
    | nil => exact fun _ _ => hnil
    | append_singleton p o ih =>
        intro hp h
        obtain ⟨hp', ho⟩ := preceded_snoc_iff.mp h
        exact (hstep p o hp (ih ((List.prefix_append ..).trans hp) hp')).mpr ho
  exact forall_prefix_iff hnil fun p o hp h => hstep p o hp (hgood p ((List.prefix_append ..).trans hp) h)

end Harness.Lib
