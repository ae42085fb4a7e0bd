/-
# Harness.Lib.Outstanding — folds that keep the requests a log leaves open.

An entry of the log opens a request, closes the requests of one key, or passes. `outstanding k es` are
the requests of key `k` that were opened since the last time the key was closed, oldest first. One key may
be opened several times over, and then two folds that both keep one request for each key can differ:

* `keepFirst` appends a request unless its key is there already — it keeps the oldest one;
* `keepLast` writes the request into a map — it keeps the newest one.

`keepFirst_agrees_iff` says when they agree, where the first fold also leaves out the keys that fail a
test.
-/
import Mathlib.Data.List.Basic
import Mathlib.Data.List.Induction
import Mathlib.Data.List.Nodup
import Mathlib.Logic.Function.Basic

namespace Harness.Lib

/-- What an entry of the log does. -/
inductive Move (K V : Type*) where
  | opens (v : V)
  | closes (k : K)
  | passes

section Outstanding

variable {E K V : Type*} [DecidableEq K] (id : V → K) (move : E → Move K V)

/-- The requests of `k` opened since the key was last closed. -/
def outstandingStep (k : K) (vs : List V) (e : E) : List V :=
  match move e with
  | .opens v => if id v = k then vs ++ [v] else vs
  | .closes j => if j = k then [] else vs
  | .passes => vs

def outstanding (k : K) (es : List E) : List V := es.foldl (outstandingStep id move k) []

/-- Keep the first request of a key. -/
def keepFirst (vs : List V) (e : E) : List V :=
  match move e with
  | .opens v => if vs.any fun w => decide (id w = id v) then vs else vs ++ [v]
  | .closes k => vs.filter fun v => decide (id v ≠ k)
  | .passes => vs

/-- Keep the last request of a key. -/
def keepLast (m : K → Option V) (e : E) : K → Option V :=
  match move e with
  | .opens v => Function.update m (id v) (some v)
  | .closes k => Function.update m k none
  | .passes => m

/-- Requests whose key fails the test are passed over. -/
def Move.only (p : K → Bool) : Move K V → Move K V
  | .opens v => if p (id v) then .opens v else .passes
  | m => m

variable {id move}

theorem outstanding_concat (k : K) (es : List E) (e : E) :
    outstanding id move k (es ++ [e]) = outstandingStep id move k (outstanding id move k es) e :=
  List.foldl_concat ..

/-- What is outstanding under a key has that key. -/
theorem id_of_mem_outstanding {k : K} {es : List E} {v : V} (h : v ∈ outstanding id move k es) :
    id v = k := by
  induction es using List.reverseRecOn with
  | nil => cases h
  | append_singleton es e ih =>
      rw [outstanding_concat, outstandingStep] at h
      split at h
      · split at h
        · rename_i hid
          rcases List.mem_append.mp h with h | h
          · exact ih h
          · rw [List.mem_singleton.mp h]
            exact hid
        · exact ih h
      · split at h
        · cases h
        · exact ih h
      · exact ih h

theorem id_of_head {k : K} {es : List E} {v : V} (h : (outstanding id move k es).head? = some v) :
    id v = k :=
  id_of_mem_outstanding (List.mem_of_head? h)

/-- A list of the oldest outstanding requests has a key exactly when something is outstanding under it. -/
theorem any_id_iff {es : List E} {vs : List V}
    (h : ∀ v, v ∈ vs ↔ (outstanding id move (id v) es).head? = some v) (k : K) :
    (vs.any fun u => decide (id u = k)) = true ↔ outstanding id move k es ≠ [] := by
  rw [List.any_eq_true]
  constructor
  · rintro ⟨u, hu, hid⟩
    rw [decide_eq_true_iff] at hid
    rw [h, hid] at hu
    exact List.ne_nil_of_mem (List.mem_of_head? hu)
  · intro hne
    obtain ⟨u, hu⟩ := Option.isSome_iff_exists.mp (List.isSome_head?.mpr hne)
    refine ⟨u, ?_, decide_eq_true (id_of_head hu)⟩
    rw [h, id_of_head hu]
    exact hu

/-- **The fold that keeps the first** holds the oldest outstanding request of every key. -/
theorem mem_keepFirst (es : List E) (v : V) :
    v ∈ es.foldl (keepFirst id move) [] ↔ (outstanding id move (id v) es).head? = some v := by
  induction es using List.reverseRecOn generalizing v with
  | nil => simp [outstanding]
  | append_singleton es e ih =>
      rw [List.foldl_concat, outstanding_concat, keepFirst, outstandingStep]
      cases move e with
      | passes => exact ih v
      | closes k =>
          dsimp only
          rw [List.mem_filter, ih]
          by_cases hk : k = id v
          · simp [hk]
          · simp [hk, Ne.symm hk]
      | opens w =>
          have hany := any_id_iff ih (id w)
          dsimp only
          by_cases hid : id w = id v
          · rw [if_pos hid]
            split
            · rename_i h
              obtain ⟨u, us, hus⟩ := List.exists_cons_of_ne_nil (hany.mp h)
              rw [ih, ← hid, hus]
              rfl
            · rename_i h
              have hnil : outstanding id move (id v) es = [] := by
                by_contra hne
                exact h (hany.mpr (hid ▸ hne))
              rw [List.mem_append, ih, hnil]
              simp [eq_comm]
          · rw [if_neg hid]
            split
            · exact ih v
            · rw [List.mem_append, ih, List.mem_singleton, or_iff_left]
              rintro rfl
              exact hid rfl

/-- No key is kept twice. -/
theorem keepFirst_nodup {vs : List V} (h : (vs.map id).Nodup) (e : E) :
    ((keepFirst id move vs e).map id).Nodup := by
  unfold keepFirst
  split
  · rename_i v _
    split
    · exact h
    · rename_i hnew
      rw [List.map_append, List.map_singleton]
      refine List.Nodup.append h (List.nodup_singleton _) ?_
      rw [List.disjoint_singleton]
      intro hmem
      obtain ⟨w, hw, hid⟩ := List.mem_map.mp hmem
      exact hnew (List.any_eq_true.mpr ⟨w, hw, decide_eq_true hid⟩)
  · exact h.sublist (List.filter_sublist.map _)
  · exact h

theorem foldl_keepFirst_nodup (es : List E) : ((es.foldl (keepFirst id move) []).map id).Nodup := by
  induction es using List.reverseRecOn with
  | nil => exact List.nodup_nil
  | append_singleton es e ih =>
      rw [List.foldl_concat]
      exact keepFirst_nodup ih e

/-- **The fold that keeps the last** holds the newest outstanding request of every key. -/
theorem keepLast_apply (es : List E) (k : K) :
    es.foldl (keepLast id move) (fun _ => none) k = (outstanding id move k es).getLast? := by
  induction es using List.reverseRecOn with
  | nil => rfl
  | append_singleton es e ih =>
      rw [List.foldl_concat, outstanding_concat, keepLast, outstandingStep]
      cases move e with
      | passes => exact ih
      | closes j =>
          dsimp only
          by_cases hk : j = k
          · simp [hk]
          · rw [if_neg hk, ← ih]
            exact Function.update_of_ne (Ne.symm hk) ..
      | opens w =>
          dsimp only
          by_cases hk : id w = k
          · subst hk
            simp
          · rw [if_neg hk, ← ih]
            exact Function.update_of_ne (Ne.symm hk) ..

theorem outstanding_only (p : K → Bool) (k : K) (es : List E) :
    outstanding id (fun e => (move e).only id p) k es =
      if p k then outstanding id move k es else [] := by
  induction es using List.reverseRecOn with
  | nil => simp [outstanding]
  | append_singleton es e ih =>
      rw [outstanding_concat, outstanding_concat, ih, outstandingStep, outstandingStep]
      cases move e with
      | passes => rfl
      | closes j => by_cases hk : j = k <;> simp [Move.only, hk]
      | opens v =>
          by_cases hk : id v = k
          · subst hk
            cases hp : p (id v) <;> simp [Move.only, hp]
          · cases hp : p (id v) <;> simp [Move.only, hp, hk]

/-- **When the two folds agree**: every key with something outstanding passes the test, and its oldest
request is its newest. -/
theorem keepFirst_agrees_iff (p : K → Bool) (es : List E) :
    (∀ v, v ∈ es.foldl (keepFirst id fun e => (move e).only id p) [] ↔
        ∃ k, es.foldl (keepLast id move) (fun _ => none) k = some v) ↔
      ∀ k, outstanding id move k es ≠ [] →
        p k = true ∧ (outstanding id move k es).head? = (outstanding id move k es).getLast? := by
  simp only [mem_keepFirst, keepLast_apply, outstanding_only]
  constructor
  · intro h k hne
    obtain ⟨v, hv⟩ := Option.isSome_iff_exists.mp (List.getLast?_isSome.mpr hne)
    have hid : id v = k := id_of_mem_outstanding (List.mem_of_getLast? hv)
    have hhead := (h v).mpr ⟨k, hv⟩
    rw [hid] at hhead
    split at hhead
    · rename_i hp
      exact ⟨hp, hhead.trans hv.symm⟩
    · cases hhead
  · intro h v
    constructor
    · intro hhead
      split at hhead
      · have hne : outstanding id move (id v) es ≠ [] := List.ne_nil_of_mem (List.mem_of_head? hhead)
        exact ⟨id v, (h _ hne).2.symm.trans hhead⟩
      · cases hhead
    · rintro ⟨k, hlast⟩
      have hid : id v = k := id_of_mem_outstanding (List.mem_of_getLast? hlast)
      have hne : outstanding id move k es ≠ [] := List.ne_nil_of_mem (List.mem_of_getLast? hlast)
      rw [hid, if_pos (h k hne).1]
      exact (h k hne).2.trans hlast

end Outstanding

end Harness.Lib
