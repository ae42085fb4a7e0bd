/-
# Harness.Lib.Transition — executable labelled transition systems and their traces.

A system is a partial function `step : S → A → Option (S × List O)`: an action `a` carries every
choice the environment makes (which thread moves, what a message holds, whether a call fails), so a
step is a computation, and the observations it emits are returned with the next state. `Run` is the
reflexive-transitive closure that collects the observations into a TRACE, oldest first.

A run is parameterised by a GUARD `P : List O → S → A → Prop`, the assumption made about every step
of the run (it sees the trace so far, the state before the step and the action). `Run (fun _ _ _ =>
True)` is every run; a law that holds only while some branch is not taken is stated over a guarded
run.

Three rules carry the proofs above this file:

* `Run.invariant` — what holds at the start and is kept by one step holds at the end of every run;
* `Run.ledger` — the counting rule: if no step spends more than it holds and earns, no run does;
* `Preceded` — "every observation has its reason earlier in the trace", kept step by step.

`run_of_exec` turns a list of actions into a run by evaluation.
-/
import Mathlib.Data.List.Basic
import Mathlib.Data.List.Count

namespace Harness.Lib

/-- A labelled transition system: one action either is not enabled (`none`) or yields the next state
and what an observer sees of the step. -/
structure Lts (S A O : Type*) where
  step : S → A → Option (S × List O)

namespace Lts

variable {S A O : Type*} {M : Lts S A O} {P Q : List O → S → A → Prop}

/-- **`M.Run P tr₀ s₀ tr s`** — from state `s₀` with trace `tr₀` the system reaches `s` with trace
`tr`, every step on the way satisfying the guard `P`. -/
inductive Run (M : Lts S A O) (P : List O → S → A → Prop) (tr₀ : List O) (s₀ : S) :
    List O → S → Prop
  | refl : Run M P tr₀ s₀ tr₀ s₀
  | tail {tr os : List O} {s s' : S} {a : A} :
      Run M P tr₀ s₀ tr s → P tr s a → M.step s a = some (s', os) →
      Run M P tr₀ s₀ (tr ++ os) s'

/-- The guard of an unrestricted run. -/
def Free : List O → S → A → Prop := fun _ _ _ => True

namespace Run

variable {tr₀ tr tr' : List O} {s₀ s s' : S}

theorem single {a : A} {os : List O} (hP : P tr s a) (h : M.step s a = some (s', os)) :
    M.Run P tr s (tr ++ os) s' :=
  .tail .refl hP h

theorem trans (h₁ : M.Run P tr₀ s₀ tr s) (h₂ : M.Run P tr s tr' s') : M.Run P tr₀ s₀ tr' s' := by
  induction h₂ with
  | refl => exact h₁
  | tail _ hP hs ih => exact .tail ih hP hs

/-- A run under a guard is a run under every weaker one. -/
theorem mono (hPQ : ∀ t u a, P t u a → Q t u a) (h : M.Run P tr₀ s₀ tr s) :
    M.Run Q tr₀ s₀ tr s := by
  induction h with
  | refl => exact .refl
  | tail _ hP hs ih => exact .tail ih (hPQ _ _ _ hP) hs

theorem free (h : M.Run P tr₀ s₀ tr s) : M.Run Free tr₀ s₀ tr s :=
  h.mono fun _ _ _ _ => trivial

/-- **The invariant rule.** The step case may use the run that led to the state. -/
theorem invariant {I : List O → S → Prop} (h : M.Run P tr₀ s₀ tr s) (h0 : I tr₀ s₀)
    (hstep : ∀ t u a u' os, M.Run P tr₀ s₀ t u → I t u → P t u a → M.step u a = some (u', os) →
      I (t ++ os) u') : I tr s := by
  induction h with
  | refl => exact h0
  | tail hr hP hs ih => exact hstep _ _ _ _ _ hr ih hP hs

/-- The trace only grows. -/
theorem prefix_trace (h : M.Run P tr₀ s₀ tr s) : tr₀ <+: tr := by
  induction h with
  | refl => exact List.prefix_refl _
  | tail _ _ _ ih => exact ih.trans (List.prefix_append _ _)

/-- An observation made during the run was made by one of its steps. -/
theorem step_of_mem (h : M.Run P tr₀ s₀ tr s) {o : O} (ho : o ∈ tr) (h0 : o ∉ tr₀) :
    ∃ t u a u' os, M.Run P tr₀ s₀ t u ∧ P t u a ∧ M.step u a = some (u', os) ∧ o ∈ os ∧
      M.Run P (t ++ os) u' tr s := by
  induction h with
  | refl => exact absurd ho h0
  | @tail t os u u' a hr hP hs ih =>
    by_cases ht : o ∈ t
    · obtain ⟨t1, u1, a1, u1', os1, hr1, hP1, hs1, hmem, hrest⟩ := ih ht
      exact ⟨t1, u1, a1, u1', os1, hr1, hP1, hs1, hmem, hrest.tail hP hs⟩
    · have hos : o ∈ os := (List.mem_append.mp ho).resolve_left ht
      exact ⟨t, u, a, u', os, hr, hP, hs, hos, .refl⟩

/-- **The ledger rule.** `H s` is what the state still owes out of what it earned: if in every
step what is spent plus what is held afterwards is covered by what was held before plus what is
earned, then over a whole run the spending is covered by the earnings and the credit given at the
start. -/
theorem ledger (h : M.Run P tr₀ s₀ tr s) (earn spend : O → Bool) (H : S → Nat) (credit : Nat)
    (h0 : tr₀.countP spend + H s₀ ≤ credit + tr₀.countP earn)
    (hstep : ∀ t u a u' os, M.Run P tr₀ s₀ t u → P t u a → M.step u a = some (u', os) →
      os.countP spend + H u' ≤ H u + os.countP earn) :
    tr.countP spend + H s ≤ credit + tr.countP earn := by
  refine h.invariant (I := fun t u => t.countP spend + H u ≤ credit + t.countP earn) h0 ?_
  intro t u a u' os hr ih hP hs
  have hb := hstep t u a u' os hr hP hs
  simp only [List.countP_append]
  omega

end Run

/-! ## Observations and their reasons -/

/-- Where a trace with one more observation splits: at that observation, or before it. -/
theorem snoc_eq_append_cons {tr p q : List O} {x o : O} (h : tr ++ [x] = p ++ o :: q) :
    (o = x ∧ q = []) ∨ ∃ q', q = q' ++ [x] ∧ tr = p ++ o :: q' := by
  rcases List.eq_nil_or_concat' q with rfl | ⟨q', y, rfl⟩
  · have hlast := List.append_inj_right' h rfl
    exact .inl ⟨(List.singleton_inj.mp hlast).symm, rfl⟩
  · have h' : tr ++ [x] = (p ++ o :: q') ++ [y] := by rw [h]; simp
    have hlast := List.append_inj_right' h' rfl
    obtain rfl := List.singleton_inj.mp hlast
    exact .inr ⟨q', rfl, List.append_inj_left' h' rfl⟩

/-- **`Preceded R tr`** — every observation `o` of the trace stands in the relation `R` to the part
of the trace before it. -/
def Preceded (R : List O → O → Prop) (tr : List O) : Prop :=
  ∀ p o q, tr = p ++ o :: q → R p o

theorem preceded_nil (R : List O → O → Prop) : Preceded R [] := by
  intro p o q h
  simp at h

theorem preceded_append {R : List O → O → Prop} {t os : List O} (ht : Preceded R t)
    (hos : ∀ p o q, os = p ++ o :: q → R (t ++ p) o) : Preceded R (t ++ os) := by
  intro p o q h
  rcases List.append_eq_append_iff.mp h with ⟨r, rfl, hr⟩ | ⟨r, ht', hr⟩
  · exact hos r o q hr
  · cases r with
    | nil =>
        simp only [List.nil_append] at hr
        have h1 := hos [] o q hr.symm
        simp only [List.append_nil] at h1 ht'
        rwa [ht'] at h1
    | cons x r =>
        simp only [List.cons_append, List.cons.injEq] at hr
        obtain ⟨rfl, rfl⟩ := hr
        exact ht p o r ht'

theorem preceded_snoc {R : List O → O → Prop} {t : List O} {o : O} (ht : Preceded R t) (ho : R t o) :
    Preceded R (t ++ [o]) := by
  intro p x q h
  rcases snoc_eq_append_cons h with ⟨rfl, rfl⟩ | ⟨q', -, rfl⟩
  · rwa [← List.append_inj_left' h rfl]
  · exact ht p x q' rfl

theorem preceded_snoc_iff {R : List O → O → Prop} {t : List O} {o : O} :
    Preceded R (t ++ [o]) ↔ Preceded R t ∧ R t o := by
  constructor
  · intro h
    refine ⟨fun p x q hp => h p x (q ++ [o]) ?_, h t o [] rfl⟩
    rw [hp, List.append_assoc, List.cons_append]
  · rintro ⟨ht, ho⟩
    exact preceded_snoc ht ho

theorem preceded_map_iff {T : Type*} {R : List O → O → Prop} (f : T → O) :
    ∀ {t : List T}, Preceded R (t.map f) ↔ Preceded (fun p x => R (p.map f) (f x)) t := by
  intro t
  constructor
  · intro h p x q hp
    exact h (p.map f) (f x) (q.map f) (by rw [hp, List.map_append, List.map_cons])
  · intro h p o q hp
    obtain ⟨p', q', rfl, rfl, hq⟩ := List.map_eq_append_iff.mp hp
    obtain ⟨x, q', rfl, rfl, rfl⟩ := List.map_eq_cons_iff.mp hq
    exact h p' x q' rfl

/-- A relation that depends on the earlier trace only through membership is kept by any step whose
own observations have their reasons before the step. -/
theorem preceded_append_of_mono {R : List O → O → Prop}
    (hmono : ∀ {p p'}, p <+: p' → ∀ {o}, R p o → R p' o)
    {t os : List O} (ht : Preceded R t) (hos : ∀ o ∈ os, R t o) : Preceded R (t ++ os) := by
  refine preceded_append ht ?_
  intro p o q h
  exact hmono (List.prefix_append t p) (hos o (by rw [h]; simp))

theorem Preceded.left {R : List O → O → Prop} {t os : List O} (h : Preceded R (t ++ os)) :
    Preceded R t := by
  intro p o q ht
  refine h p o (q ++ os) ?_
  rw [ht, List.append_assoc, List.cons_append]

theorem Preceded.of_mem {R : List O → O → Prop} {tr : List O} (h : Preceded R tr) {o : O}
    (ho : o ∈ tr) : ∃ p, p <+: tr ∧ R p o := by
  obtain ⟨p, q, rfl⟩ := List.append_of_mem ho
  exact ⟨p, List.prefix_append _ _, h p o q rfl⟩

/-- **`Since P tr o q`** — `o` is the last observation of the kind `P` in the trace, and `q` is what
was seen since then. -/
def Since (P : O → Prop) (tr : List O) (o : O) (q : List O) : Prop :=
  ∃ p, tr = p ++ o :: q ∧ P o ∧ ∀ x ∈ q, ¬ P x

/-- An observation of the kind starts over. -/
theorem since_snoc_of_pos {P : O → Prop} {tr : List O} {x o : O} {q : List O} (hx : P x) :
    Since P (tr ++ [x]) o q ↔ o = x ∧ q = [] := by
  constructor
  · rintro ⟨p, h, -, hq⟩
    rcases snoc_eq_append_cons h with h | ⟨q', rfl, -⟩
    · exact h
    · exact absurd hx (hq x (by simp))
  · rintro ⟨rfl, rfl⟩
    exact ⟨tr, rfl, hx, by simp⟩

/-- Any other observation is one more since then. -/
theorem since_snoc_of_neg {P : O → Prop} {tr : List O} {x o : O} {q : List O} (hx : ¬ P x) :
    Since P (tr ++ [x]) o q ↔ ∃ q', q = q' ++ [x] ∧ Since P tr o q' := by
  constructor
  · rintro ⟨p, h, ho, hq⟩
    rcases snoc_eq_append_cons h with ⟨rfl, -⟩ | ⟨q', rfl, htr⟩
    · exact absurd ho hx
    · exact ⟨q', rfl, p, htr, ho, fun z hz => hq z (List.mem_append_left _ hz)⟩
  · rintro ⟨q', rfl, p, rfl, ho, hq⟩
    refine ⟨p, by simp, ho, fun z hz => ?_⟩
    rcases List.mem_append.mp hz with hz | hz
    · exact hq z hz
    · rwa [List.mem_singleton.mp hz]

/-! ## Evaluating a list of actions -/

/-- Take the actions in order, stopping with `none` at the first that is not enabled or that the
check `ok` refuses. -/
def exec (M : Lts S A O) (ok : List O → S → A → Bool) : List O → S → List A → Option (List O × S)
  | tr, s, [] => some (tr, s)
  | tr, s, a :: as =>
      if ok tr s a then
        match M.step s a with
        | some (s', os) => exec M ok (tr ++ os) s' as
        | none => none
      else none

/-- What `exec` computes is a run, when for the actions of the list its check implies the guard. -/
theorem run_of_exec_mem {ok : List O → S → A → Bool} {as : List A}
    (hok : ∀ a ∈ as, ∀ t u, ok t u a = true → P t u a) :
    ∀ {tr : List O} {s : S} {r : List O × S},
      M.exec ok tr s as = some r → M.Run P tr s r.1 r.2 := by
  induction as with
  | nil =>
      intro tr s r h
      simp only [exec, Option.some.injEq] at h
      subst h
      exact .refl
  | cons a as ih =>
      intro tr s r h
      simp only [exec] at h
      split at h
      · rename_i hchk
        split at h
        · rename_i s' os hs
          refine (Run.single (hok a List.mem_cons_self _ _ hchk) hs).trans ?_
          exact ih (fun b hb => hok b (List.mem_cons_of_mem a hb)) h
        · cases h
      · cases h

/-- The check implies the guard for every action. -/
theorem run_of_exec {ok : List O → S → A → Bool} (hok : ∀ t u a, ok t u a = true → P t u a)
    {as : List A} {tr : List O} {s : S} {r : List O × S} (h : M.exec ok tr s as = some r) :
    M.Run P tr s r.1 r.2 :=
  run_of_exec_mem (fun a _ t u => hok t u a) h

/-- Every action of the list satisfies the guard in every state: nothing needs checking. -/
theorem run_of_exec_forall {as : List A} (hP : ∀ a ∈ as, ∀ t u, P t u a) {tr : List O} {s : S}
    {r : List O × S} (h : M.exec (fun _ _ _ => true) tr s as = some r) : M.Run P tr s r.1 r.2 :=
  run_of_exec_mem (fun a ha t u _ => hP a ha t u) h

theorem run_of_exec_trace {ok : List O → S → A → Bool} (hok : ∀ t u a, ok t u a = true → P t u a)
    {as : List A} {tr tr' : List O} {s : S} (h : (M.exec ok tr s as).map Prod.fst = some tr') :
    ∃ s', M.Run P tr s tr' s' := by
  obtain ⟨⟨t, s'⟩, he, rfl⟩ := Option.map_eq_some_iff.mp h
  exact ⟨s', run_of_exec hok he⟩

end Lts

end Harness.Lib
