/-
# Harness.Lib.Causal — queues that keep what must come first.

Items are issued one after the other, each perhaps several times, and travel through queues that hold
copies of them. `Before issued a b` says that `a` was issued before the first issue of `b`. A queue is
CAUSAL when nothing overtakes in it: whatever comes before an item stands in front of it in the queue, or
is done with.

Causality is kept by everything a queue does: a causal batch is appended, an item is appended after all
that comes before it, the head leaves once it is done, done items are taken out anywhere. When an item
reaches the head, all that comes before it is done (`Causal.head`).
-/
import Harness.Lib.Transition
import Mathlib.Data.List.Induction

namespace Harness.Lib

open Lts (Preceded preceded_nil preceded_append preceded_snoc)

variable {K : Type*}

/-! ## The order of first issues -/

/-- **`Before issued a b`** — `a` was issued before `b` was issued for the first time. -/
def Before (issued : List K) (a b : K) : Prop := ∃ p r, issued = p ++ b :: r ∧ b ∉ p ∧ a ∈ p

theorem Before.mem_left {issued : List K} {a b : K} (h : Before issued a b) : a ∈ issued := by
  obtain ⟨p, r, rfl, -, ha⟩ := h
  exact List.mem_append_left _ ha

theorem Before.ne {issued : List K} {a b : K} (h : Before issued a b) : a ≠ b := by
  obtain ⟨p, r, -, hb, ha⟩ := h
  rintro rfl
  exact hb ha

theorem Before.append {issued : List K} {a b : K} (h : Before issued a b) (more : List K) :
    Before (issued ++ more) a b := by
  obtain ⟨p, r, rfl, hb, ha⟩ := h
  exact ⟨p, r ++ more, by rw [List.append_assoc, List.cons_append], hb, ha⟩

/-- One more issue puts everything issued so far before an item that is new. -/
theorem before_concat {issued : List K} {x a b : K} :
    Before (issued ++ [x]) a b ↔ Before issued a b ∨ (b = x ∧ b ∉ issued ∧ a ∈ issued) := by
  constructor
  · rintro ⟨p, r, hsplit, hb, ha⟩
    rcases Lts.snoc_eq_append_cons hsplit with ⟨rfl, rfl⟩ | ⟨r', -, rfl⟩
    · obtain rfl := List.append_inj_left' hsplit rfl
      exact .inr ⟨rfl, hb, ha⟩
    · exact .inl ⟨p, r', rfl, hb, ha⟩
  · rintro (h | ⟨rfl, hb, ha⟩)
    · exact h.append [x]
    · exact ⟨issued, [], rfl, hb, ha⟩

/-- An item that was issued has its predecessors already. -/
theorem Before.of_append {issued more : List K} {a b : K} (h : Before (issued ++ more) a b)
    (hb : b ∈ issued) : Before issued a b := by
  induction more using List.reverseRecOn with
  | nil => rwa [List.append_nil] at h
  | append_singleton more x ih =>
    rw [← List.append_assoc, before_concat] at h
    rcases h with h | ⟨-, hnew, -⟩
    · exact ih h
    · exact absurd (List.mem_append_left _ hb) hnew

/-! ## Causal queues -/

/-- **`Causal older done l`** — whatever is older than an item of `l` stands in front of it, or is done. -/
def Causal (older : K → K → Prop) (done : K → Prop) (l : List K) : Prop :=
  Preceded (fun p b => ∀ a, older a b → a ∈ p ∨ done a) l

section
variable {older older' : K → K → Prop} {done done' : K → Prop} {l m : List K}

theorem causal_nil : Causal older done [] := preceded_nil _

/-- More may be done, and the items of the queue may not get older ones. -/
theorem Causal.mono (h : Causal older done l) (hdone : ∀ a, done a → done' a)
    (hold : ∀ a, ∀ b ∈ l, older' a b → older a b) : Causal older' done' l := by
  intro p b r hl a hab
  have hb : b ∈ l := by
    rw [hl]
    exact List.mem_append_right _ List.mem_cons_self
  exact (h p b r hl a (hold a b hb hab)).imp_right (hdone a)

/-- What is issued later is not older than what was issued before. -/
theorem Causal.issue {is : List K} (h : Causal (Before is) done l) (hl : ∀ b ∈ l, b ∈ is)
    (more : List K) : Causal (Before (is ++ more)) done l :=
  h.mono (fun _ ha => ha) fun _ b hb hab => hab.of_append (hl b hb)

theorem Causal.append (hl : Causal older done l) (hm : Causal older done m) :
    Causal older done (l ++ m) := by
  refine preceded_append hl fun p b r hsplit a hab => ?_
  exact (hm p b r hsplit a hab).imp_left (List.mem_append_right l)

/-- An item joins behind all that is older. -/
theorem Causal.concat (hl : Causal older done l) {b : K} (hb : ∀ a, older a b → a ∈ l ∨ done a) :
    Causal older done (l ++ [b]) :=
  preceded_snoc hl hb

/-- **All that is older than the head is done.** -/
theorem Causal.head {a b : K} (h : Causal older done (b :: l)) (hab : older a b) : done a :=
  (h [] b l rfl a hab).resolve_left List.not_mem_nil

/-- The head leaves once it is done. -/
theorem Causal.tail {b : K} (h : Causal older done (b :: l)) (hb : done b) : Causal older done l := by
  intro p c r hl a hac
  rcases h (b :: p) c r (by rw [hl, List.cons_append]) a hac with hmem | hdone
  · rcases List.mem_cons.mp hmem with rfl | hmem
    · exact .inr hb
    · exact .inl hmem
  · exact .inr hdone

/-- Done items may be taken out anywhere. -/
theorem Causal.filter (h : Causal older done l) {p : K → Bool} (hp : ∀ a, p a = false → done a) :
    Causal older done (l.filter p) := by
  induction l using List.reverseRecOn with
  | nil => exact causal_nil
  | append_singleton l x ih =>
    have hl : Causal older done (l.filter p) := ih (Preceded.left h)
    rw [List.filter_append]
    cases hx : p x with
    | false => simpa [hx] using hl
    | true =>
      rw [List.filter_singleton, hx]
      refine hl.concat fun a hax => ?_
      rcases h l x [] rfl a hax with hmem | hdone
      · cases ha : p a with
        | false => exact .inr (hp a ha)
        | true => exact .inl (List.mem_filter.mpr ⟨hmem, ha⟩)
      · exact .inr hdone

end

end Harness.Lib
