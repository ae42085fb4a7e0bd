/-
# Harness.Lib.Threads — a pool of threads kept as a list.

Thread `i` stands where the `i`-th entry says. A step of thread `i` is `List.set`, a new thread is an
append. This file says what the two do to a property of every thread, to what a thread holds and to the
number of threads with a property, and turns a bound on every single count into an injection of one list
into another.
-/
import Mathlib.Data.List.Basic
import Mathlib.Data.List.Perm.Basic
import Mathlib.Logic.Function.Basic

namespace Harness.Lib

variable {α β γ : Type*}

/-- After a step of thread `i`, thread `j` is either the one that moved or where it was. -/
theorem getElem?_set_cases {l : List α} {i j : Nat} {x y : α} (h : (l.set i x)[j]? = some y) :
    (j = i ∧ y = x) ∨ (j ≠ i ∧ l[j]? = some y) := by
  rw [List.getElem?_set] at h
  split at h
  · rename_i hij
    split at h
    · cases h
      exact .inl ⟨hij.symm, rfl⟩
    · cases h
  · rename_i hij
    exact .inr ⟨fun e => hij e.symm, h⟩

/-- After a new thread `x` joined, thread `j` is either the new one or an old one. -/
theorem getElem?_concat_cases {l : List α} {j : Nat} {x y : α} (h : (l ++ [x])[j]? = some y) :
    l[j]? = some y ∨ (j = l.length ∧ y = x) := by
  rw [List.getElem?_append] at h
  split at h
  · exact .inl h
  · rename_i hj
    have h0 : j - l.length = 0 := by
      by_contra hne
      rw [List.getElem?_eq_none (by simp; omega)] at h
      cases h
    rw [h0] at h
    cases h
    exact .inr ⟨by omega, rfl⟩

/-- What thread `i` holds changes with its step, the others hold what they held. -/
theorem bind_getElem?_set {l : List α} {i : Nat} {x : α} (h : l[i]? = some x) (y : α)
    (f : α → Option β) :
    (fun j : Nat => ((l.set i y)[j]?).bind f) =
      Function.update (fun j : Nat => (l[j]?).bind f) i (f y) := by
  obtain ⟨hi, -⟩ := List.getElem?_eq_some_iff.mp h
  funext j
  by_cases hj : j = i
  · subst hj
    rw [Function.update_self, List.getElem?_set_self hi, Option.bind_some]
  · rw [Function.update_of_ne hj, List.getElem?_set_ne (Ne.symm hj)]

/-- A new thread that holds nothing changes nothing. -/
theorem bind_getElem?_concat {l : List α} {y : α} {f : α → Option β} (h : f y = none) :
    (fun j : Nat => ((l ++ [y])[j]?).bind f) = fun j : Nat => (l[j]?).bind f := by
  funext j
  rcases Nat.lt_trichotomy j l.length with hlt | rfl | hgt
  · rw [List.getElem?_append_left hlt]
  · simp [h]
  · rw [List.getElem?_eq_none (by simp only [List.length_append, List.length_singleton]; omega),
      List.getElem?_eq_none (by omega)]

theorem countP_one (p : α → Bool) (x : α) : [x].countP p = (p x).toNat := by
  rw [List.countP_singleton]
  cases p x <;> rfl

/-- Replacing the entry `x` at `i` by `y` moves the count of `p` by the difference between the two. -/
theorem countP_set_add {l : List α} {i : Nat} {x y : α} {p : α → Bool} (h : l[i]? = some x) :
    (l.set i y).countP p + (p x).toNat = l.countP p + (p y).toNat := by
  obtain ⟨hi, rfl⟩ := List.getElem?_eq_some_iff.mp h
  rw [List.countP_set hi]
  have hpos : p l[i] = true → 0 < l.countP p := fun hp =>
    List.countP_pos_iff.mpr ⟨l[i], List.getElem_mem hi, hp⟩
  generalize l.countP p = n at hpos ⊢
  cases hx : p l[i] <;> cases hy : p y
  · simp
  · simp
  · have := hpos hx
    show n - 1 + 0 + 1 = n + 0
    omega
  · have := hpos hx
    show n - 1 + 1 + 1 = n + 1
    omega

/-- If every value is produced by `f` from `l` at most as often as by `g` from `m`, then the values
produced from `l` are, with multiplicities, among those produced from `m`. -/
theorem filterMap_subperm [DecidableEq γ] {l : List α} {m : List β} {f : α → Option γ}
    {g : β → Option γ}
    (h : ∀ x, l.countP (fun a => decide (f a = some x)) ≤ m.countP fun b => decide (g b = some x)) :
    (l.filterMap f).Subperm (m.filterMap g) := by
  rw [List.subperm_ext_iff]
  intro x _
  have hx := h x
  rw [List.count_filterMap, List.count_filterMap]
  simp only [beq_eq_decide]
  exact hx

/-- Taking an entry out of its turn does not show, if everything before it looks the same. -/
theorem map_take_out {f : α → β} {l₁ l₂ : List α} {x : α} (h : ∀ y ∈ l₁, f y = f x) :
    (l₁ ++ x :: l₂).map f = f x :: (l₁ ++ l₂).map f := by
  induction l₁ with
  | nil => rfl
  | cons y l₁ ih =>
    have hy : f y = f x := h y List.mem_cons_self
    have htail := ih fun z hz => h z (List.mem_cons_of_mem _ hz)
    rw [List.cons_append, List.map_cons, htail, hy, List.cons_append, List.map_cons, hy]

end Harness.Lib
