/-
# Harness.Lib.Reopened — a key that is opened and closed by a log, and two ways of telling.

An entry of the log can open the key, or close it, not both. Whether the key is open can be kept in a mark
that every opening sets, or in a record that is made by the first opening and crossed out by a closing;
the record is never renewed. Records of several keys in a list are `addRecord` and `crossOut`. `marked_iff` and
`recorded_iff` say what each of them tells, and `agree_iff` that the two agree until the key is opened again after
having been closed.
-/
import Harness.Lib.Transition
import Mathlib.Data.List.Induction

namespace Harness.Lib

open Lts (snoc_eq_append_cons)

section Reopened

variable {E : Type*} (opens closes : E → Prop)

/-- The key was opened. -/
def Opened (es : List E) : Prop := ∃ e ∈ es, opens e

/-- It was closed after it had been opened. -/
def ClosedOnce (es : List E) : Prop := ∃ p e q, es = p ++ e :: q ∧ closes e ∧ Opened opens p

/-- **`Reopened opens closes es`** — the key was opened, closed and opened again, and not closed since. -/
def Reopened (es : List E) : Prop :=
  ∃ p e q, es = p ++ e :: q ∧ opens e ∧ ClosedOnce opens closes p ∧ ∀ x ∈ q, ¬ closes x

variable {opens closes}

theorem opened_concat {es : List E} {e : E} :
    Opened opens (es ++ [e]) ↔ Opened opens es ∨ opens e := by
  unfold Opened
  simp only [List.mem_append, List.mem_singleton]
  constructor
  · rintro ⟨x, hx | rfl, hox⟩
    · exact .inl ⟨x, hx, hox⟩
    · exact .inr hox
  · rintro (⟨x, hx, hox⟩ | he)
    · exact ⟨x, .inl hx, hox⟩
    · exact ⟨e, .inr rfl, he⟩

theorem closedOnce_concat {es : List E} {e : E} :
    ClosedOnce opens closes (es ++ [e]) ↔
      ClosedOnce opens closes es ∨ closes e ∧ Opened opens es := by
  constructor
  · rintro ⟨p, x, q, h, hx, hp⟩
    rcases snoc_eq_append_cons h with ⟨rfl, rfl⟩ | ⟨q', rfl, rfl⟩
    · obtain rfl := List.append_inj_left' h rfl
      exact .inr ⟨hx, hp⟩
    · exact .inl ⟨p, x, q', rfl, hx, hp⟩
  · rintro (⟨p, x, q, rfl, hx, hp⟩ | ⟨he, hes⟩)
    · exact ⟨p, x, q ++ [e], by simp, hx, hp⟩
    · exact ⟨es, e, [], rfl, he, hes⟩

theorem reopened_concat {es : List E} {e : E} (hdisj : opens e → ¬ closes e) :
    Reopened opens closes (es ++ [e]) ↔
      opens e ∧ ClosedOnce opens closes es ∨ Reopened opens closes es ∧ ¬ closes e := by
  constructor
  · rintro ⟨p, x, q, h, hx, hp, hq⟩
    rcases snoc_eq_append_cons h with ⟨rfl, rfl⟩ | ⟨q', rfl, rfl⟩
    · obtain rfl := List.append_inj_left' h rfl
      exact .inl ⟨hx, hp⟩
    · refine .inr ⟨⟨p, x, q', rfl, hx, hp, fun y hy => hq y (List.mem_append_left _ hy)⟩, ?_⟩
      exact hq e (List.mem_append_right _ List.mem_cons_self)
  · rintro (⟨he, hes⟩ | ⟨⟨p, x, q, rfl, hx, hp, hq⟩, he⟩)
    · exact ⟨es, e, [], rfl, he, hes, fun x hx => absurd hx List.not_mem_nil⟩
    · refine ⟨p, x, q ++ [e], by simp, hx, hp, fun y hy => ?_⟩
      rcases List.mem_append.mp hy with hy | hy
      · exact hq y hy
      · rwa [List.mem_singleton.mp hy]

theorem Reopened.closedOnce {es : List E} (h : Reopened opens closes es) :
    ClosedOnce opens closes es := by
  obtain ⟨p, e, q, rfl, -, ⟨p', x, q', rfl, hx, hp⟩, -⟩ := h
  exact ⟨p', x, q' ++ e :: q, by simp, hx, hp⟩

theorem ClosedOnce.opened {es : List E} (h : ClosedOnce opens closes es) : Opened opens es := by
  obtain ⟨p, e, q, rfl, -, x, hx, hox⟩ := h
  exact ⟨x, List.mem_append_left _ hx, hox⟩

/-- Waiting for its first closing. -/
theorem first_concat {es : List E} {e : E} (hdisj : opens e → ¬ closes e) :
    (Opened opens (es ++ [e]) ∧ ¬ ClosedOnce opens closes (es ++ [e])) ↔
      (opens e ∧ ¬ Opened opens es) ∨
        (Opened opens es ∧ ¬ ClosedOnce opens closes es) ∧ ¬ closes e := by
  rw [opened_concat, closedOnce_concat]
  have hco : ClosedOnce opens closes es → Opened opens es := ClosedOnce.opened
  tauto

/-- **The record** is there from the first opening and crossed out by the first closing. -/
theorem recorded_iff {R : List E → Prop} (hdisj : ∀ e, opens e → ¬ closes e) (hnil : ¬ R [])
    (hstep : ∀ es e, R (es ++ [e]) ↔ (opens e ∧ ¬ Opened opens es) ∨ R es ∧ ¬ closes e) (es : List E) :
    R es ↔ Opened opens es ∧ ¬ ClosedOnce opens closes es := by
  induction es using List.reverseRecOn with
  | nil => simp [hnil, Opened]
  | append_singleton es e ih => rw [hstep, ih, first_concat (hdisj e)]

/-- **The mark** is set when the key waits for its first closing, and when it was opened again. -/
theorem marked_iff {M : List E → Prop} (hdisj : ∀ e, opens e → ¬ closes e) (hnil : ¬ M [])
    (hstep : ∀ es e, M (es ++ [e]) ↔ opens e ∨ M es ∧ ¬ closes e) (es : List E) :
    M es ↔ (Opened opens es ∧ ¬ ClosedOnce opens closes es) ∨ Reopened opens closes es := by
  induction es using List.reverseRecOn with
  | nil => simp [hnil, Opened, Reopened]
  | append_singleton es e ih =>
      rw [hstep, ih, first_concat (hdisj e), reopened_concat (hdisj e)]
      have hco : ClosedOnce opens closes es → Opened opens es := ClosedOnce.opened
      have he := hdisj e
      tauto

/-- **The two agree** unless the key is open for the second time. -/
theorem agree_iff {M R : List E → Prop} (hdisj : ∀ e, opens e → ¬ closes e) (hM₀ : ¬ M []) (hR₀ : ¬ R [])
    (hM : ∀ es e, M (es ++ [e]) ↔ opens e ∨ M es ∧ ¬ closes e)
    (hR : ∀ es e, R (es ++ [e]) ↔ (opens e ∧ ¬ Opened opens es) ∨ R es ∧ ¬ closes e) (es : List E) :
    (M es ↔ R es) ↔ ¬ Reopened opens closes es := by
  rw [marked_iff hdisj hM₀ hM, recorded_iff hdisj hR₀ hR]
  have hclosed : Reopened opens closes es → ClosedOnce opens closes es := Reopened.closedOnce
  tauto

end Reopened

/-! ## Records in a list -/

section Records

variable {K : Type*} [DecidableEq K]

/-- A record for the key, unless there is one; the flag says that it is not crossed out. -/
def addRecord (k : K) (rs : List (K × Bool)) : List (K × Bool) :=
  if rs.any fun r => decide (r.1 = k) then rs else rs ++ [(k, true)]

def crossOut (k : K) (rs : List (K × Bool)) : List (K × Bool) :=
  rs.map fun r => if r.1 = k then (r.1, false) else r

def Recorded (k : K) (rs : List (K × Bool)) : Prop := ∃ b, (k, b) ∈ rs

theorem any_key_iff {k : K} {rs : List (K × Bool)} :
    (rs.any fun r => decide (r.1 = k)) = true ↔ Recorded k rs := by
  rw [List.any_eq_true]
  constructor
  · rintro ⟨⟨j, b⟩, hr, hj⟩
    obtain rfl : j = k := of_decide_eq_true hj
    exact ⟨b, hr⟩
  · rintro ⟨b, hb⟩
    exact ⟨_, hb, decide_eq_true rfl⟩

theorem recorded_addRecord {j k : K} {rs : List (K × Bool)} :
    Recorded j (addRecord k rs) ↔ k = j ∨ Recorded j rs := by
  unfold addRecord
  split
  · rename_i h
    rw [any_key_iff] at h
    constructor
    · exact .inr
    · rintro (rfl | h')
      · exact h
      · exact h'
  · simp only [Recorded, List.mem_append, List.mem_singleton, Prod.mk.injEq]
    constructor
    · rintro ⟨b, hb | ⟨rfl, -⟩⟩
      · exact .inr ⟨b, hb⟩
      · exact .inl rfl
    · rintro (rfl | ⟨b, hb⟩)
      · exact ⟨true, .inr ⟨rfl, rfl⟩⟩
      · exact ⟨b, .inl hb⟩

theorem mem_addRecord {j k : K} {rs : List (K × Bool)} :
    (j, true) ∈ addRecord k rs ↔ (k = j ∧ ¬ Recorded j rs) ∨ (j, true) ∈ rs := by
  unfold addRecord
  split
  · rename_i h
    rw [any_key_iff] at h
    constructor
    · exact .inr
    · rintro (⟨rfl, hno⟩ | h')
      · exact absurd h hno
      · exact h'
  · rename_i h
    rw [any_key_iff] at h
    simp only [List.mem_append, List.mem_singleton, Prod.mk.injEq, and_true]
    constructor
    · rintro (h' | rfl)
      · exact .inr h'
      · exact .inl ⟨rfl, h⟩
    · rintro (⟨rfl, -⟩ | h')
      · exact .inr rfl
      · exact .inl h'

theorem mem_crossOut {j k : K} {rs : List (K × Bool)} :
    (j, true) ∈ crossOut k rs ↔ (j, true) ∈ rs ∧ k ≠ j := by
  unfold crossOut
  rw [List.mem_map]
  constructor
  · rintro ⟨⟨i, b⟩, hr, h⟩
    split at h
    · cases h
    · rename_i hik
      cases h
      exact ⟨hr, fun hk => hik hk.symm⟩
  · rintro ⟨hr, hk⟩
    exact ⟨_, hr, if_neg fun hj => hk hj.symm⟩

theorem recorded_crossOut {j k : K} {rs : List (K × Bool)} :
    Recorded j (crossOut k rs) ↔ Recorded j rs := by
  unfold Recorded crossOut
  simp only [List.mem_map]
  constructor
  · rintro ⟨b, ⟨i, c⟩, hr, h⟩
    split at h
    · cases h
      exact ⟨c, hr⟩
    · cases h
      exact ⟨_, hr⟩
  · rintro ⟨b, hr⟩
    by_cases hj : j = k
    · exact ⟨false, _, hr, if_pos hj⟩
    · exact ⟨b, _, hr, if_neg hj⟩

end Records

end Harness.Lib
