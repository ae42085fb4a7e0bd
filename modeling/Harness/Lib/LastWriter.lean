/-
# Harness.Lib.LastWriter — folds in which the last write of a cell wins.

A log of entries is folded into a family of cells; an entry writes some cells and leaves the others
alone. What the fold leaves in a cell is the last value written to it, or the initial one, so where the
fold started matters only for the cells the log never writes.

`replay_overlap` is the law of catching up: a reader that holds the outcome of `a ++ b` and is then fed
`b ++ c` ends where the whole log ends, although it saw the consequences of `b` before `b` itself.

`view_foldl` carries it to a concrete fold: any state whose cells move by `overwrite`, step by step, is
a replay.
-/
import Mathlib.Data.List.Induction

namespace Harness.Lib

variable {E K : Type*} {V : K → Type*}

/-- One entry: the cells it writes change. -/
def overwrite (w : E → (k : K) → Option (V k)) (σ : (k : K) → V k) (e : E) : (k : K) → V k :=
  fun k => (w e k).getD (σ k)

def replay (w : E → (k : K) → Option (V k)) (σ : (k : K) → V k) (es : List E) : (k : K) → V k :=
  es.foldl (overwrite w) σ

/-- The last value written to a cell. -/
def lastWrite (w : E → (k : K) → Option (V k)) (es : List E) (k : K) : Option (V k) :=
  es.reverse.findSome? fun e => w e k

variable {w : E → (k : K) → Option (V k)} {σ : (k : K) → V k}

theorem replay_append (a b : List E) : replay w σ (a ++ b) = replay w (replay w σ a) b :=
  List.foldl_append

theorem lastWrite_concat (es : List E) (e : E) (k : K) :
    lastWrite w (es ++ [e]) k = (w e k).or (lastWrite w es k) := by
  simp only [lastWrite, List.reverse_append, List.reverse_singleton, List.singleton_append,
    List.findSome?_cons]
  cases w e k <;> rfl

/-- Only the last write of a cell counts. -/
theorem replay_apply (es : List E) (k : K) :
    replay w σ es k = (lastWrite w es k).getD (σ k) := by
  induction es using List.reverseRecOn with
  | nil => rfl
  | append_singleton es e ih =>
      have hstep : replay w σ (es ++ [e]) k = (w e k).getD (replay w σ es k) := by
        rw [replay_append]
        rfl
      rw [hstep, lastWrite_concat, ih]
      cases w e k <;> rfl

/-- Replaying entries a state already includes changes nothing. -/
theorem replay_replay (es : List E) : replay w (replay w σ es) es = replay w σ es := by
  funext k
  rw [replay_apply, replay_apply]
  cases lastWrite w es k <;> rfl

/-- **Catching up over a newer state converges.** -/
theorem replay_overlap (a b c : List E) :
    replay w (replay w σ (a ++ b)) (b ++ c) = replay w σ (a ++ b ++ c) := by
  calc replay w (replay w σ (a ++ b)) (b ++ c)
      = replay w (replay w (replay w (replay w σ a) b) b) c := by
        rw [replay_append, replay_append a b]
    _ = replay w (replay w (replay w σ a) b) c := by rw [replay_replay]
    _ = replay w σ (a ++ b ++ c) := by rw [replay_append, replay_append]

/-- A fold whose cells move by `overwrite` at every entry of the list is a replay. -/
theorem view_foldl {S : Type*} (view : S → (k : K) → V k) (f : S → E → S) :
    ∀ (es : List E) (s : S),
      (∀ e ∈ es, ∀ t, view (f t e) = overwrite w (view t) e) →
      view (es.foldl f s) = replay w (view s) es := by
  intro es
  induction es with
  | nil => exact fun _ _ => rfl
  | cons e es ih =>
      intro s h
      have htail := ih (f s e) fun e' he' => h e' (List.mem_cons_of_mem e he')
      show view (es.foldl f (f s e)) = replay w (overwrite w (view s) e) es
      rw [htail, h e List.mem_cons_self]

end Harness.Lib
