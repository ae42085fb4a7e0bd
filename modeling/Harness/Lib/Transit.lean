/-
# Harness.Lib.Transit — what is fed into a line of buffers, and what comes out of it.

Items are fed in at one end, wait in transit (in any number of buffers, oldest first), and are delivered at
the other. An item may be lost anywhere on the way. Whatever the buffers are, three facts hold of every
run: what was delivered, followed by what is in transit, is a sublist of what was fed; the items that are
missing are counted by the losses; so a line that is empty has delivered what it was fed exactly when
nothing was lost.
-/
import Harness.Lib.Transition
import Mathlib.Data.List.Basic

namespace Harness.Lib.Transit

variable {E : Type*}

/-- **`Move transit fed out lost transit'`** — what one step does to the items in transit. -/
inductive Move (transit : List E) : List E → List E → Nat → List E → Prop
  | stay : Move transit [] [] 0 transit
  | feed (xs : List E) : Move transit xs [] 0 (transit ++ xs)
  | deliver {x : E} {rest : List E} (h : transit = x :: rest) : Move transit [] [x] 0 rest
  | lose {x : E} {l r : List E} (h : transit = l ++ x :: r) : Move transit [] [] 1 (l ++ r)

/-- **`Books fed out lost transit`** — the account of a run. -/
structure Books (fed out : List E) (lost : Nat) (transit : List E) : Prop where
  order : (out ++ transit).Sublist fed
  count : out.length + transit.length + lost = fed.length

theorem Books.empty : Books ([] : List E) [] 0 [] := ⟨List.Sublist.slnil, rfl⟩

theorem Books.move {fed out transit xs ys transit' : List E} {lost n : Nat}
    (h : Books fed out lost transit) (hm : Move transit xs ys n transit') :
    Books (fed ++ xs) (out ++ ys) (lost + n) transit' := by
  have hcount := h.count
  cases hm with
  | stay =>
    rw [List.append_nil, List.append_nil]
    exact h
  | feed =>
    rw [List.append_nil]
    refine ⟨?_, ?_⟩
    · rw [← List.append_assoc]
      exact h.order.append (List.Sublist.refl xs)
    · rw [List.length_append, List.length_append]
      omega
  | deliver ht =>
    subst ht
    rw [List.append_nil]
    refine ⟨?_, ?_⟩
    · rw [List.append_assoc]
      exact h.order
    · rw [List.length_append]
      rw [List.length_cons] at hcount
      simp only [List.length_singleton]
      omega
  | lose ht =>
    subst ht
    rw [List.append_nil, List.append_nil]
    refine ⟨?_, ?_⟩
    · exact ((List.Sublist.refl out).append
        ((List.Sublist.refl _).append (List.sublist_cons_self _ _))).trans h.order
    · rw [List.length_append, List.length_cons] at hcount
      rw [List.length_append]
      omega

/-- **An empty line has delivered what it was fed exactly when nothing was lost.** -/
theorem Books.settled {fed out : List E} {lost : Nat} (h : Books fed out lost []) :
    out = fed ↔ lost = 0 := by
  have hcount := h.count
  have horder := h.order
  rw [List.length_nil] at hcount
  rw [List.append_nil] at horder
  constructor
  · intro heq
    rw [heq] at hcount
    omega
  · intro hlost
    exact horder.eq_of_length (by omega)

/-- **The rule of the line.** If every step of a system moves the items in transit, the account of every
run holds. -/
theorem books_of_run {S A O : Type*} {M : Lts S A O} {P : List O → S → A → Prop} {s₀ s : S} {tr : List O}
    (fed out : O → List E) (lost : O → Bool) (transit : S → List E) (h : M.Run P [] s₀ tr s)
    (h0 : transit s₀ = [])
    (hstep : ∀ t u a u' os, M.Run P [] s₀ t u → M.step u a = some (u', os) →
      Move (transit u) (os.flatMap fed) (os.flatMap out) (os.countP lost) (transit u')) :
    Books (tr.flatMap fed) (tr.flatMap out) (tr.countP lost) (transit s) := by
  refine h.invariant (I := fun t u => Books (t.flatMap fed) (t.flatMap out) (t.countP lost) (transit u))
    ?_ ?_
  · rw [h0]
    exact Books.empty
  · intro t u a u' os hr ih _ hs
    rw [List.flatMap_append, List.flatMap_append, List.countP_append]
    exact ih.move (hstep t u a u' os hr hs)

end Harness.Lib.Transit
