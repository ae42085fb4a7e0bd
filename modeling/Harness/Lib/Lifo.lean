/-
# Harness.Lib.Lifo — calls that are closed by name, the last open one first.

A history opens calls, each under a label of its own and a name, and closes them by label. A reader who is
told only names keeps a list of marks, one for each call, and closes the last open one of the name it is
told. `shows_all_iff` says when the list is right all along: when every call that closes is announced, by
its own name, while it is the last of that name that is open.
-/
import Harness.Lib.Window
import Mathlib.Data.List.Forall2
import Mathlib.Data.List.Induction
import Mathlib.Data.List.Nodup

namespace Harness.Lib.Lifo

open Lts (Preceded)

/-! ## Marks -/

section CloseLast

variable {N : Type*} [DecidableEq N]

/-- Close the last open mark of the name, `none` when there is none. -/
def closeLast (n : N) : List (N × Bool) → Option (List (N × Bool))
  | [] => none
  | m :: rest =>
      match closeLast n rest with
      | some rest' => some (m :: rest')
      | none => if m = (n, false) then some ((n, true) :: rest) else none

/-- `closeLast`, and a mark that is closed at once when there is nothing to close. -/
def close (n : N) (ms : List (N × Bool)) : List (N × Bool) := (closeLast n ms).getD (ms ++ [(n, true)])

theorem closeLast_eq_none {n : N} {ms : List (N × Bool)} (h : (n, false) ∉ ms) :
    closeLast n ms = none := by
  induction ms with
  | nil => rfl
  | cons m rest ih =>
      rw [List.mem_cons, not_or] at h
      rw [closeLast, ih h.2]
      exact if_neg fun hm => h.1 hm.symm

theorem closeLast_append {n : N} (before : List (N × Bool)) {after : List (N × Bool)}
    (h : (n, false) ∉ after) :
    closeLast n (before ++ (n, false) :: after) = some (before ++ (n, true) :: after) := by
  induction before with
  | nil =>
      rw [List.nil_append, closeLast, closeLast_eq_none h]
      exact if_pos rfl
  | cons m rest ih =>
      rw [List.cons_append, closeLast, ih]
      rfl

/-- Either nothing of the name is open, or there is a last open one. -/
theorem last_open (n : N) (ms : List (N × Bool)) :
    (n, false) ∉ ms ∨ ∃ before after, ms = before ++ (n, false) :: after ∧ (n, false) ∉ after := by
  induction ms with
  | nil => exact .inl List.not_mem_nil
  | cons m rest ih =>
      rcases ih with hrest | ⟨before, after, rfl, hafter⟩
      · by_cases hm : (n, false) = m
        · subst hm
          exact .inr ⟨[], rest, rfl, hrest⟩
        · exact .inl fun hmem => (List.mem_cons.mp hmem).elim hm hrest
      · exact .inr ⟨m :: before, after, rfl, hafter⟩

end CloseLast

/-! ## Histories -/

/-- An entry of a history. -/
inductive Entry (K N : Type*) where
  /-- calls are opened, and the reader is told their names -/
  | opens (us : List (K × N))
  /-- a call is closed, and the reader is told a name -/
  | closes (k : K) (n : N)
  /-- calls are closed, and the reader is told nothing -/
  | unheard (ks : List K)

section History

variable {K N : Type*}

/-- The calls an entry opens, and -/
def Entry.opened : Entry K N → List (K × N)
  | opens us => us
  | closes _ _ => []
  | unheard _ => []

/-- the labels of those it closes. -/
def Entry.closed : Entry K N → List K
  | opens _ => []
  | closes k _ => [k]
  | unheard ks => ks

/-- The same of a history. -/
def opened (p : List (Entry K N)) : List (K × N) := p.flatMap Entry.opened

def closed (p : List (Entry K N)) : List K := p.flatMap Entry.closed

theorem opened_concat (p : List (Entry K N)) (e : Entry K N) : opened (p ++ [e]) = opened p ++ e.opened := by
  simp [opened]

theorem closed_concat (p : List (Entry K N)) (e : Entry K N) : closed (p ++ [e]) = closed p ++ e.closed := by
  simp [closed]

/-- **`Fits p e`** — the entry opens calls under new labels, and closes calls that are open, each once. -/
structure Fits (p : List (Entry K N)) (e : Entry K N) : Prop where
  distinct : (e.opened.map Prod.fst).Nodup
  fresh : ∀ u ∈ e.opened, u.1 ∉ (opened p).map Prod.fst
  once : e.closed.Nodup
  known : ∀ k ∈ e.closed, k ∈ (opened p).map Prod.fst ∧ k ∉ closed p

/-- **`Paired p`** — every entry fits. -/
def Paired (p : List (Entry K N)) : Prop := Preceded Fits p

/-- Labels are not used twice. -/
theorem Paired.nodup {p : List (Entry K N)} (h : Paired p) : ((opened p).map Prod.fst).Nodup := by
  induction p using List.reverseRecOn with
  | nil => exact List.nodup_nil
  | append_singleton p e ih =>
      obtain ⟨hp, he⟩ := Lts.preceded_snoc_iff.mp h
      rw [opened_concat, List.map_append, List.nodup_append]
      refine ⟨ih hp, he.distinct, fun k hk k' hk' heq => ?_⟩
      obtain ⟨u, hu, rfl⟩ := List.mem_map.mp hk'
      exact he.fresh u hu (heq ▸ hk)

/-- What is closed was opened. -/
theorem Paired.closed_opened {p : List (Entry K N)} (h : Paired p) :
    ∀ k ∈ closed p, k ∈ (opened p).map Prod.fst := by
  induction p using List.reverseRecOn with
  | nil => exact fun k hk => absurd hk List.not_mem_nil
  | append_singleton p e ih =>
      obtain ⟨hp, he⟩ := Lts.preceded_snoc_iff.mp h
      intro k hk
      rw [opened_concat, List.map_append]
      rw [closed_concat, List.mem_append] at hk
      rcases hk with hk | hk
      · exact List.mem_append_left _ (ih hp k hk)
      · exact List.mem_append_left _ (he.known k hk).1

/-- **`Shows p ms`** — one mark for each call, in order and of its name, closed once the call is. -/
def Shows (p : List (Entry K N)) (ms : List (N × Bool)) : Prop :=
  List.Forall₂ (fun u m => m.1 = u.2 ∧ (u.1 ∈ closed p → m.2 = true)) (opened p) ms

section Reading

variable [DecidableEq N]

/-- What an entry does to the reader's list. -/
def Entry.run (ms : List (N × Bool)) : Entry K N → List (N × Bool)
  | opens us => ms ++ us.map fun u => (u.2, false)
  | closes _ n => close n ms
  | unheard _ => ms

/-- The reader's list. -/
def reading (p : List (Entry K N)) : List (N × Bool) := p.foldl Entry.run []

theorem reading_concat (p : List (Entry K N)) (e : Entry K N) :
    reading (p ++ [e]) = e.run (reading p) := List.foldl_concat ..

end Reading

variable [DecidableEq K]

/-- The marks of a reader who is told the labels. -/
def marks (p : List (Entry K N)) : List (N × Bool) :=
  (opened p).map fun u => (u.2, decide (u.1 ∈ closed p))

theorem shows_marks (p : List (Entry K N)) : Shows p (marks p) := by
  refine List.forall₂_map_right_iff.mpr (List.forall₂_same.mpr fun u _ => ⟨rfl, fun h => ?_⟩)
  exact decide_eq_true h

/-- Opening calls adds open marks. -/
theorem marks_opens {p : List (Entry K N)} (hp : Paired p) {us : List (K × N)} (he : Fits p (.opens us)) :
    marks (p ++ [.opens us]) = marks p ++ us.map fun u => (u.2, false) := by
  rw [marks, opened_concat, closed_concat, Entry.opened, Entry.closed, List.append_nil, List.map_append]
  refine congrArg (marks p ++ ·) (List.map_congr_left fun u hu => ?_)
  rw [decide_eq_false fun hk => he.fresh u hu (hp.closed_opened _ hk)]

theorem marks_unheard (p : List (Entry K N)) : marks (p ++ [.unheard []]) = marks p := by
  rw [marks, marks, opened_concat, closed_concat, Entry.opened, Entry.closed, List.append_nil,
    List.append_nil]

/-- **`Latest p n k`** — `k` is the last call of the name `n` that is still open. -/
def Latest (p : List (Entry K N)) (n : N) (k : K) : Prop :=
  ∃ before after, opened p = before ++ (k, n) :: after ∧ ∀ u ∈ after, u.2 = n → u.1 ∈ closed p

/-- A mark that stays open does not show a call that closes. -/
theorem not_shows_unheard {p : List (Entry K N)} {ks : List K} (he : Fits p (.unheard ks)) {k : K}
    (hk : k ∈ ks) : ¬ Shows (p ++ [.unheard ks]) (marks p) := by
  intro h
  obtain ⟨hopen, hclosed⟩ := he.known k hk
  obtain ⟨u, hu, rfl⟩ := List.mem_map.mp hopen
  rw [Shows, opened_concat, Entry.opened, List.append_nil, marks, List.forall₂_map_right_iff] at h
  have hmark := (List.forall₂_same.mp h u hu).2
  rw [closed_concat] at hmark
  exact hclosed (of_decide_eq_true (hmark (List.mem_append_right _ hk)))

variable [DecidableEq N]

/-- The last open one is closed, and no other mark changes. -/
theorem close_latest {p : List (Entry K N)} (hp : Paired p) {k : K} {n : N} (h : Latest p n k)
    (hk : k ∉ closed p) : close n (marks p) = marks (p ++ [.closes k n]) := by
  obtain ⟨before, after, hopened, hafter⟩ := h
  have hnodup := hp.nodup
  rw [hopened, List.map_append, List.map_cons] at hnodup
  -- no other call has the label, so no other mark changes
  have hnew : ∀ u ∈ before ++ after, u.1 ≠ k := by
    intro u hu heq
    have hmem := (List.nodup_cons.mp (List.nodup_middle.mp hnodup)).1
    rw [← List.map_append] at hmem
    exact hmem (List.mem_map.mpr ⟨u, hu, heq⟩)
  have hsame : ∀ u ∈ before ++ after,
      (u.2, decide (u.1 ∈ closed p)) = (u.2, decide (u.1 ∈ closed p ++ [k])) := by
    intro u hu
    simp [hnew u hu]
  have hlast : (n, false) ∉ after.map fun u => (u.2, decide (u.1 ∈ closed p)) := by
    intro hmem
    obtain ⟨u, hu, heq⟩ := List.mem_map.mp hmem
    obtain ⟨hname, hopen⟩ := Prod.mk.inj heq
    exact of_decide_eq_false hopen (hafter u hu hname)
  rw [close, marks, marks, opened_concat, closed_concat, Entry.opened, Entry.closed, List.append_nil, hopened,
    List.map_append, List.map_cons, decide_eq_false hk, closeLast_append _ hlast, List.map_append, List.map_cons,
    List.map_congr_left fun u hu => hsame u (List.mem_append_left _ hu),
    List.map_congr_left fun u hu => hsame u (List.mem_append_right _ hu)]
  simp

/-- **When closing by name closes the call that was meant.** -/
theorem shows_close_iff {p : List (Entry K N)} (hp : Paired p) {k : K} {n : N}
    (he : Fits p (.closes k n)) : Shows (p ++ [.closes k n]) (close n (marks p)) ↔ Latest p n k := by
  have hknown : k ∈ (opened p).map Prod.fst ∧ k ∉ closed p := he.known k List.mem_cons_self
  refine ⟨fun h => ?_, fun h => ?_⟩
  · rcases last_open n (marks p) with hnone | ⟨before, after, hmarks, hafter⟩
    · -- a mark too many
      have hlength := h.length_eq
      rw [close, closeLast_eq_none hnone, opened_concat] at hlength
      simp [marks, Entry.opened] at hlength
    · obtain ⟨us, rest, hopened, rfl, hrest⟩ := List.map_eq_append_iff.mp hmarks
      obtain ⟨u, vs, rfl, hu, rfl⟩ := List.map_eq_cons_iff.mp hrest
      obtain ⟨hname, hopen⟩ := Prod.mk.inj hu
      rw [close, hmarks, closeLast_append _ hafter, Option.getD_some, Shows, opened_concat,
        Entry.opened, List.append_nil, hopened, closed_concat, Entry.closed] at h
      -- the marks before and after it are as they were
      have hleft := List.forall₂_take_append _ _ _ h
      have hright := List.forall₂_drop_append _ _ _ h
      simp only [List.length_map, List.take_left', List.drop_left'] at hleft hright
      have hstill : ∀ vs : List (K × N),
          List.Forall₂ (fun v m => m.1 = v.2 ∧ (v.1 ∈ closed p ++ [k] → m.2 = true)) vs
            (vs.map fun v => (v.2, decide (v.1 ∈ closed p))) → ∀ v ∈ vs, v.1 ≠ k := by
        intro vs hvs v hv heq
        have hmark := (List.forall₂_same.mp (List.forall₂_map_right_iff.mp hvs) v hv).2
        rw [heq] at hmark
        exact hknown.2 (of_decide_eq_true (hmark (by simp)))
      have huk : u.1 = k := by
        obtain ⟨v, hv, hvk⟩ := List.mem_map.mp hknown.1
        rw [hopened, List.mem_append, List.mem_cons] at hv
        rcases hv with hv | rfl | hv
        · exact absurd hvk (hstill us hleft v hv)
        · exact hvk
        · exact absurd hvk (hstill vs (List.forall₂_cons.mp hright).2 v hv)
      refine ⟨us, vs, ?_, fun v hv hvn => ?_⟩
      · rw [hopened, ← huk, ← hname]
      · by_contra hvopen
        exact hafter (List.mem_map.mpr ⟨v, hv, by rw [hvn, decide_eq_false hvopen]⟩)
  · -- the reader does what one who is told the label would do
    rw [close_latest hp h hknown.2]
    exact shows_marks _

/-! ## The whole history -/

/-- **`Heard p e`** — what the entry closes is announced, and is the last open call of the name that is
told. -/
def Heard (p : List (Entry K N)) (e : Entry K N) : Prop :=
  ∀ k ∈ e.closed, ∃ n, e = .closes k n ∧ Latest p n k

/-- One entry that is heard. -/
theorem run_marks {p : List (Entry K N)} (hp : Paired p) {e : Entry K N} (he : Fits p e)
    (h : Heard p e) : e.run (marks p) = marks (p ++ [e]) := by
  cases e with
  | opens us => exact (marks_opens hp he).symm
  | closes k n =>
      obtain ⟨n', heq, hlatest⟩ := h k List.mem_cons_self
      cases heq
      exact close_latest hp hlatest (he.known k List.mem_cons_self).2
  | unheard ks =>
      cases ks with
      | nil => exact (marks_unheard p).symm
      | cons k ks =>
          obtain ⟨n, heq, -⟩ := h k List.mem_cons_self
          cases heq

/-- One entry, from a list that is as it should be. -/
theorem shows_run_iff {p : List (Entry K N)} (hp : Paired p) {e : Entry K N} (he : Fits p e) :
    Shows (p ++ [e]) (e.run (marks p)) ↔ Heard p e := by
  refine ⟨fun h => ?_, fun h => ?_⟩
  · intro k hk
    cases e with
    | opens us => exact absurd hk List.not_mem_nil
    | closes k' n =>
        obtain rfl := List.mem_singleton.mp hk
        exact ⟨n, rfl, (shows_close_iff hp he).mp h⟩
    | unheard ks => exact absurd h (not_shows_unheard he hk)
  · rw [run_marks hp he h]
    exact shows_marks _

theorem reading_eq_marks {p : List (Entry K N)} (hp : Paired p) (h : Preceded Heard p) :
    reading p = marks p := by
  induction p using List.reverseRecOn with
  | nil => rfl
  | append_singleton p e ih =>
      obtain ⟨hp', he⟩ := Lts.preceded_snoc_iff.mp hp
      obtain ⟨h', heard⟩ := Lts.preceded_snoc_iff.mp h
      rw [reading_concat, ih hp' h', run_marks hp' he heard]

/-- **When the list is right all along.** -/
theorem shows_all_iff {es : List (Entry K N)} (hes : Paired es) :
    (∀ p, p <+: es → Shows p (reading p)) ↔ Preceded Heard es := by
  refine forall_prefix_iff ?_ fun p e hp heard => ?_
  · show Shows [] []
    exact List.Forall₂.nil
  obtain ⟨q, rfl⟩ := hp
  have hpaired : Paired (p ++ [e]) := Preceded.left hes
  obtain ⟨hp', he⟩ := Lts.preceded_snoc_iff.mp hpaired
  rw [reading_concat, reading_eq_marks hp' heard]
  exact shows_run_iff hp' he

end History

end Harness.Lib.Lifo
