/-
# Harness.Lib.Ranking — a stable sort by a key, without repetitions.

`ranking key xs` has every element of `xs` once, by increasing key, and elements of one key in the order in which
they first occur (`ranking_pairwise`). Sorting first and dropping repetitions after is what makes the second part
an argument: it is the stability of the sort, seen on the elements of one key.
-/
import Mathlib.Data.List.Basic
import Mathlib.Order.Lattice

namespace Harness.Lib

variable {T : Type*}

/-! ## First occurrences -/

/-- **`Earlier xs a b`** — `a` occurs in `xs` before the first `b`. -/
def Earlier (xs : List T) (a b : T) : Prop := ∃ us vs, xs = us ++ a :: vs ∧ b ∉ us ∧ b ≠ a

namespace Earlier

variable {xs : List T} {a b : T}

theorem filter (h : Earlier xs a b) {p : T → Bool} (ha : p a = true) : Earlier (xs.filter p) a b := by
  obtain ⟨us, vs, rfl, hus, hne⟩ := h
  refine ⟨us.filter p, vs.filter p, ?_, fun hmem => hus (List.mem_of_mem_filter hmem), hne⟩
  rw [List.filter_append, List.filter_cons_of_pos ha]

theorem of_filter {p : T → Bool} (h : Earlier (xs.filter p) a b) (hb : p b = true) : Earlier xs a b := by
  obtain ⟨us, vs, heq, hus, hne⟩ := h
  obtain ⟨us₁, rest, rfl, rfl, hrest⟩ := List.filter_eq_append_iff.mp heq
  obtain ⟨us₂, vs₂, rfl, hus₂, -, -⟩ := List.filter_eq_cons_iff.mp hrest
  refine ⟨us₁ ++ us₂, vs₂, (List.append_assoc ..).symm, fun hmem => ?_, hne⟩
  rcases List.mem_append.mp hmem with hmem | hmem
  · exact hus (List.mem_filter.mpr ⟨hmem, hb⟩)
  · exact hus₂ b hmem hb

theorem cons (h : Earlier xs a b) {x : T} (hne : b ≠ x) : Earlier (x :: xs) a b := by
  obtain ⟨us, vs, rfl, hus, hab⟩ := h
  exact ⟨x :: us, vs, rfl, fun hmem => (List.mem_cons.mp hmem).elim hne hus, hab⟩

theorem idxOf_lt [BEq T] [LawfulBEq T] (h : Earlier xs a b) : xs.idxOf a < xs.idxOf b := by
  obtain ⟨us, vs, rfl, hus, hne⟩ := h
  have ha : (us ++ a :: vs).idxOf a ≤ us.length := by
    rw [List.idxOf_append]
    split
    · rename_i hmem
      exact Nat.le_of_lt (List.idxOf_lt_length_of_mem hmem)
    · have hfirst : (a :: vs).idxOf a = 0 := List.idxOf_cons_self
      omega
  have hb : us.length < (us ++ a :: vs).idxOf b := by
    rw [List.idxOf_append, if_neg hus, List.idxOf_cons_ne _ (Ne.symm hne)]
    omega
  omega

end Earlier

section EraseDups

variable [DecidableEq T]

theorem eraseDups_sublist (xs : List T) : xs.eraseDups.Sublist xs := by
  induction hn : xs.length using Nat.strongRecOn generalizing xs with
  | ind n ih =>
      cases xs with
      | nil => exact List.Sublist.slnil
      | cons x xs =>
          rw [List.eraseDups_cons]
          have hlen := List.length_filter_le (fun b => !b == x) xs
          exact ((ih _ (by simp only [List.length_cons] at hn; omega) _ rfl).trans List.filter_sublist).cons_cons x

/-- What is kept of a list is in the order of first occurrences. -/
theorem eraseDups_pairwise (xs : List T) : xs.eraseDups.Pairwise (Earlier xs) := by
  induction hn : xs.length using Nat.strongRecOn generalizing xs with
  | ind n ih =>
      cases xs with
      | nil => exact List.Pairwise.nil
      | cons x xs =>
          have hlen := List.length_filter_le (fun b => !b == x) xs
          have hrest := ih _ (by simp only [List.length_cons] at hn; omega) (xs.filter fun b => !b == x) rfl
          have hother : ∀ y ∈ (xs.filter fun b => !b == x).eraseDups, y ≠ x ∧ (!y == x) = true := by
            intro y hy
            have hp := (List.mem_filter.mp (List.mem_eraseDups.mp hy)).2
            exact ⟨by simpa using hp, hp⟩
          rw [List.eraseDups_cons, List.pairwise_cons]
          refine ⟨fun y hy => ⟨[], xs, rfl, List.not_mem_nil, (hother y hy).1⟩, ?_⟩
          exact hrest.imp_of_mem fun {a b} _ hb hab => (hab.of_filter (hother b hb).2).cons (hother b hb).1

theorem eraseDups_map {U : Type*} [DecidableEq U] {f : T → U} (hf : Function.Injective f) (xs : List T) :
    (xs.map f).eraseDups = xs.eraseDups.map f := by
  induction hn : xs.length using Nat.strongRecOn generalizing xs with
  | ind n ih =>
      cases xs with
      | nil => rfl
      | cons x xs =>
          have hlen := List.length_filter_le (fun b => !b == x) xs
          have hrest := ih _ (by simp only [List.length_cons] at hn; omega) (xs.filter fun b => !b == x) rfl
          have hsame : ((fun b => !b == f x) ∘ f) = fun b => !b == x := by
            funext b
            simp [hf.eq_iff]
          rw [List.map_cons, List.eraseDups_cons, List.eraseDups_cons, List.filter_map, hsame, hrest,
            List.map_cons]

end EraseDups

/-- Appending what is not there yet, as a loop with a set of what it has seen does. -/
def pushNew [DecidableEq T] (out : List T) (x : T) : List T := if x ∈ out then out else out ++ [x]

theorem foldl_pushNew [DecidableEq T] (xs out : List T) :
    xs.foldl pushNew out = out ++ (xs.filter fun x => decide (x ∉ out)).eraseDups := by
  induction xs generalizing out with
  | nil => exact (List.append_nil out).symm
  | cons x xs ih =>
      rw [List.foldl_cons, ih]
      by_cases hx : x ∈ out
      · rw [pushNew, if_pos hx, List.filter_cons_of_neg (by simpa using hx)]
      · have hkeep : (fun y => decide (y ∉ out ++ [x])) = fun y => !y == x && decide (y ∉ out) := by
          funext y
          by_cases hy : y = x <;> simp [hy]
        rw [pushNew, if_neg hx, List.filter_cons_of_pos (by simpa using hx), List.eraseDups_cons, hkeep,
          List.append_assoc, List.filter_filter]
        rfl

/-! ## The ranking -/

variable {K : Type*} [LinearOrder K]

/-- `xs` sorted by the key, each element once. -/
def ranking [DecidableEq T] (key : T → K) (xs : List T) : List T :=
  (xs.mergeSort fun a b => decide (key a ≤ key b)).eraseDups

theorem key_trans (key : T → K) (a b c : T) (hab : decide (key a ≤ key b) = true)
    (hbc : decide (key b ≤ key c) = true) : decide (key a ≤ key c) = true := by
  rw [decide_eq_true_eq] at *
  exact le_trans hab hbc

theorem key_total (key : T → K) (a b : T) : (decide (key a ≤ key b) || decide (key b ≤ key a)) = true := by
  rw [Bool.or_eq_true, decide_eq_true_eq, decide_eq_true_eq]
  exact le_total _ _

theorem pairwise_sorted (key : T → K) (xs : List T) :
    (xs.mergeSort fun a b => decide (key a ≤ key b)).Pairwise fun a b => key a ≤ key b := by
  exact (List.pairwise_mergeSort (key_trans key) (key_total key) xs).imp fun h => of_decide_eq_true h

/-- **Stability**: the elements of one key stay in their order. -/
theorem filter_sorted (key : T → K) (xs : List T) (k : K) :
    (xs.mergeSort fun a b => decide (key a ≤ key b)).filter (fun a => decide (key a = k)) =
      xs.filter fun a => decide (key a = k) := by
  have hsub : (xs.filter fun a => decide (key a = k)).Sublist
      (xs.mergeSort fun a b => decide (key a ≤ key b)) := by
    refine List.sublist_mergeSort (key_trans key) (key_total key) ?_ List.filter_sublist
    refine List.pairwise_of_forall_mem_list fun a ha b hb => ?_
    have hka : key a = k := of_decide_eq_true (List.mem_filter.mp ha).2
    have hkb : key b = k := of_decide_eq_true (List.mem_filter.mp hb).2
    rw [hka, hkb]
    simp
  have hself := hsub.filter fun a => decide (key a = k)
  rw [List.filter_filter] at hself
  simp only [Bool.and_self] at hself
  exact (hself.eq_of_length ((List.mergeSort_perm xs _).filter _).length_eq.symm).symm

variable [DecidableEq T] (key : T → K) (xs : List T)

theorem mem_ranking {x : T} : x ∈ ranking key xs ↔ x ∈ xs :=
  List.mem_eraseDups.trans List.mem_mergeSort

/-- **By key, and within one key by first occurrence.** -/
theorem ranking_pairwise :
    (ranking key xs).Pairwise fun a b => key a < key b ∨ (key a = key b ∧ Earlier xs a b) := by
  have hsorted := (pairwise_sorted key xs).sublist (eraseDups_sublist _)
  refine (hsorted.and (eraseDups_pairwise _)).imp fun {a b} ⟨hle, hearlier⟩ => ?_
  rcases lt_or_eq_of_le hle with hlt | heq
  · exact .inl hlt
  · have hfiltered := hearlier.filter (p := fun c => decide (key c = key b)) (by simpa using heq)
    rw [filter_sorted] at hfiltered
    exact .inr ⟨heq, hfiltered.of_filter (by simp)⟩

theorem ranking_nodup : (ranking key xs).Nodup := by
  refine (ranking_pairwise key xs).imp ?_
  rintro a b (hlt | ⟨-, hearlier⟩) rfl
  · exact lt_irrefl _ hlt
  · obtain ⟨-, -, -, -, hne⟩ := hearlier
    exact hne rfl

end Harness.Lib
