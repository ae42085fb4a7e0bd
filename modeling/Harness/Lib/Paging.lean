/-
# Harness.Lib.Paging — reading an ascending list page by page.

A reader asks for the entries after a key, at most `limit` of them, and asks again from the last key it
got, until nothing comes. On a list in which the keys ascend strictly the pages put together are what one
unlimited request gives.
-/
import Mathlib.Order.Lattice
import Mathlib.Data.List.Basic

namespace Harness.Lib

variable {E K : Type*}

/-- Ask again from the last key until nothing comes; `none` when `n` requests are not enough. -/
def fetchAll (fetch : K → List E) (key : E → K) : Nat → K → Option (List E)
  | 0, _ => none
  | n + 1, k =>
      match (fetch k).getLast? with
      | none => some []
      | some last => (fetchAll fetch key n (key last)).map (fetch k ++ ·)

section Ascending

variable [LinearOrder K] {key : E → K} {l : List E}

/-- What comes after the last entry of a page is what the page left out. -/
theorem filter_after_page (h : l.Pairwise fun a b => key a < key b) (k : K) (n : Nat) {last : E}
    (hlast : ((l.filter fun e => decide (k < key e)).take n).getLast? = some last) :
    (l.filter fun e => decide (key last < key e)) =
      (l.filter fun e => decide (k < key e)).drop n := by
  generalize hrest : (l.filter fun e => decide (k < key e)) = rest at hlast ⊢
  have hsorted : rest.Pairwise fun a b => key a < key b := hrest ▸ h.filter _
  have hmem : last ∈ rest.take n := List.mem_of_getLast? hlast
  have hk : k < key last := by
    have hfilter := List.mem_of_mem_take hmem
    rw [← hrest, List.mem_filter] at hfilter
    exact of_decide_eq_true hfilter.2
  -- beyond `last` is beyond `k`
  have hsub : (l.filter fun e => decide (key last < key e)) =
      rest.filter fun e => decide (key last < key e) := by
    rw [← hrest, List.filter_filter]
    refine List.filter_congr fun e _ => ?_
    by_cases he : key last < key e
    · simp [he, hk.trans he]
    · simp [he]
  have hsplit := List.pairwise_append.mp ((List.take_append_drop n rest).symm ▸ hsorted)
  rw [hsub]
  conv_lhs => rw [← List.take_append_drop n rest]
  rw [List.filter_append, List.filter_eq_nil_iff.mpr, List.filter_eq_self.mpr, List.nil_append]
  · intro e he
    exact decide_eq_true (hsplit.2.2 last hmem e he)
  · intro e he
    rw [decide_eq_true_iff, not_lt]
    obtain ⟨page, hpage⟩ := List.getLast?_eq_some_iff.mp hlast
    rw [hpage] at he hsplit
    rcases List.mem_append.mp he with he | he
    · exact le_of_lt ((List.pairwise_append.mp hsplit.1).2.2 e he last List.mem_cons_self)
    · rw [List.mem_singleton.mp he]

/-- **The pages are the whole.** -/
theorem fetchAll_eq (h : l.Pairwise fun a b => key a < key b) {limit : Nat} (hlimit : 0 < limit)
    {fetch : K → List E}
    (hfetch : ∀ k, fetch k = (l.filter fun e => decide (k < key e)).take limit) :
    ∀ (n : Nat) (k : K), (l.filter fun e => decide (k < key e)).length < n →
      fetchAll fetch key n k = some (l.filter fun e => decide (k < key e)) := by
  intro n
  induction n with
  | zero => exact fun _ hlen => absurd hlen (Nat.not_lt_zero _)
  | succ n ih =>
      intro k hlen
      unfold fetchAll
      split
      · rename_i hnone
        rw [List.getLast?_eq_none_iff, hfetch, List.take_eq_nil_iff] at hnone
        rw [hnone.resolve_left (Nat.ne_of_gt hlimit)]
      · rename_i last hlast
        rw [hfetch] at hlast
        have hnext := filter_after_page h k limit hlast
        have hpos : 0 < ((l.filter fun e => decide (k < key e)).take limit).length :=
          List.length_pos_of_mem (List.mem_of_getLast? hlast)
        have hshort : (l.filter fun e => decide (key last < key e)).length < n := by
          rw [hnext, List.length_drop]
          rw [List.length_take] at hpos
          omega
        rw [ih _ hshort, hnext, Option.map_some, hfetch, List.take_append_drop]

end Ascending

end Harness.Lib
