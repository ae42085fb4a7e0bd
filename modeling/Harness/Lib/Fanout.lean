/-
# Harness.Lib.Fanout — publishing one log to clients that come and go.

Several threads append events to a shared log. A thread that has appended an event holds it as a FLIGHT:
at some later moment it copies the client set, and then offers the event to the copied clients one by
one. A client joins with a catch-up batch it was prepared with before, and may leave.

Append, copy and every single offer are separate steps of separate threads. What one client sees of all
this is a `View`: the log, what is on its way to the client, and what it has been offered. `Step.view`
projects the system to it. Two laws are proved on views, for the whole time a client stays:

* COVERAGE (`Covered.step`): every event is offered or on its way. It is enough that this holds when the
  client joins;
* ORDER (`Ordered.step`): what is offered is the log, in order and without holes, apart from
  repetitions. It is enough that the client joins without a hole and that no offer overtakes an older
  event that is still on its way (`InTurn`).
-/
import Harness.Lib.Transition
import Mathlib.Data.Set.Insert
import Mathlib.Data.List.Induction
import Mathlib.Data.List.Range
import Mathlib.Logic.Function.Basic

namespace Harness.Lib.Fanout

variable {T C E : Type*}

/-! ## The system -/

/-- An appended event that is not yet fully delivered: `rest` is `none` while the client set has not been
copied, and then the clients still to be served. -/
structure Flight (C E : Type*) where
  ev : E
  rest : Option (List C)

/-- `offered c` is what has been offered to client `c`, oldest first. -/
structure State (T C E : Type*) where
  log : List E
  clients : Set C
  flight : T → Option (Flight C E)
  offered : C → List E

inductive Label (T C E : Type*) where
  | publish (t : T) (e : E)
  | copy (t : T)
  | deliver (t : T) (c : C) (e : E)
  | finish (t : T)
  | join (c : C) (batch : List E)
  | leave (c : C)

/-! ## What is on its way -/

/-- What a thread holds is the event `e`, still to be offered to `c`. -/
def Owed (clients : Set C) (c : C) (e : E) : Option (Flight C E) → Prop
  | none => False
  | some ⟨e', none⟩ => e' = e ∧ c ∈ clients
  | some ⟨e', some rest⟩ => e' = e ∧ c ∈ rest

/-- The event `e` is on its way to client `c`. -/
def State.Waits (s : State T C E) (c : C) (e : E) : Prop := ∃ t, Owed s.clients c e (s.flight t)

/-- The event `e` was appended by a thread that has not copied the client set. -/
def State.Uncopied (s : State T C E) (e : E) : Prop := ∃ t, s.flight t = some ⟨e, none⟩

theorem owed_congr {clients clients' : Set C} {c : C} (h : c ∈ clients' ↔ c ∈ clients) (e : E)
    (x : Option (Flight C E)) : Owed clients' c e x ↔ Owed clients c e x := by
  rcases x with _ | ⟨e', _ | rest⟩
  · exact Iff.rfl
  · exact and_congr_right fun _ => h
  · exact Iff.rfl

/-- Thread `t`, or another one. -/
theorem State.waits_iff (s : State T C E) (t : T) (c : C) (e : E) :
    s.Waits c e ↔
      Owed s.clients c e (s.flight t) ∨ ∃ t', t' ≠ t ∧ Owed s.clients c e (s.flight t') := by
  constructor
  · rintro ⟨t', h⟩
    by_cases ht : t' = t
    · exact .inl (ht ▸ h)
    · exact .inr ⟨t', ht, h⟩
  · rintro (h | ⟨t', -, h⟩)
    · exact ⟨t, h⟩
    · exact ⟨t', h⟩

variable [DecidableEq T]

/-- After a step of thread `t` the others wait as before. -/
theorem State.waits_update (s : State T C E) {log : List E} {offered : C → List E} {t : T}
    {x : Option (Flight C E)} (c : C) (e : E) :
    State.Waits ⟨log, s.clients, Function.update s.flight t x, offered⟩ c e ↔
      Owed s.clients c e x ∨ ∃ t', t' ≠ t ∧ Owed s.clients c e (s.flight t') := by
  rw [State.waits_iff _ t]
  show (Owed s.clients c e (Function.update s.flight t x t) ∨
    ∃ t', t' ≠ t ∧ Owed s.clients c e (Function.update s.flight t x t')) ↔ _
  rw [Function.update_self]
  refine or_congr_right (exists_congr fun t' => and_congr_right fun ht => ?_)
  rw [Function.update_of_ne ht]

/-! ## Steps -/

variable [DecidableEq C]

inductive Step (s : State T C E) : Label T C E → State T C E → Prop
  | publish {t : T} {e : E} (hf : s.flight t = none) :
      Step s (.publish t e)
        { s with log := s.log ++ [e], flight := Function.update s.flight t (some ⟨e, none⟩) }
  | copy {t : T} {e : E} {targets : List C} (hf : s.flight t = some ⟨e, none⟩)
      (hset : ∀ c, c ∈ targets ↔ c ∈ s.clients) :
      Step s (.copy t) { s with flight := Function.update s.flight t (some ⟨e, some targets⟩) }
  | deliver {t : T} {e : E} {c : C} {rest : List C} (hf : s.flight t = some ⟨e, some (c :: rest)⟩) :
      Step s (.deliver t c e)
        { s with
          flight := Function.update s.flight t (some ⟨e, some rest⟩)
          offered := Function.update s.offered c (s.offered c ++ [e]) }
  | finish {t : T} {e : E} (hf : s.flight t = some ⟨e, some []⟩) :
      Step s (.finish t) { s with flight := Function.update s.flight t none }
  | join {c : C} {batch : List E} :
      Step s (.join c batch)
        { s with
          clients := insert c s.clients
          offered := Function.update s.offered c (s.offered c ++ batch) }
  | leave {c : C} : Step s (.leave c) { s with clients := s.clients \ {c} }

/-! ## What one client sees -/

/-- The system as one client sees it. -/
structure View (E : Type*) where
  log : List E
  waiting : Set E
  offered : List E

/-- A step of a view, with the event it offers to the client. -/
inductive View.Step (v : View E) : Option E → View E → Prop
  | publish {e : E} : View.Step v none ⟨v.log ++ [e], insert e v.waiting, v.offered⟩
  | deliver {e : E} {waiting : Set E} (he : e ∈ v.waiting) (hsub : waiting ⊆ v.waiting)
      (hrest : v.waiting ⊆ insert e waiting) :
      View.Step v (some e) ⟨v.log, waiting, v.offered ++ [e]⟩
  | stutter : View.Step v none v

def State.view (s : State T C E) (c : C) : View E where
  log := s.log
  waiting := fun e => s.Waits c e
  offered := s.offered c

omit [DecidableEq T] [DecidableEq C] in
theorem State.view_eq {s : State T C E} {c : C} {log offered : List E} {waiting : Set E}
    (hlog : s.log = log) (hoff : s.offered c = offered) (hw : ∀ e, s.Waits c e ↔ e ∈ waiting) :
    s.view c = ⟨log, waiting, offered⟩ := by
  have hset : (fun e => s.Waits c e) = waiting := Set.ext hw
  rw [State.view, hlog, hoff, hset]

/-- A delivery to client `c`, as `c` sees it. -/
theorem State.view_deliver {s : State T C E} {t : T} {e : E} {c : C} {rest : List C}
    (hf : s.flight t = some ⟨e, some (c :: rest)⟩) :
    View.Step (s.view c) (some e)
      (State.view { s with
        flight := Function.update s.flight t (some ⟨e, some rest⟩)
        offered := Function.update s.offered c (s.offered c ++ [e]) } c) := by
  have hold (x : E) := s.waits_iff t c x
  rw [hf] at hold
  have hv : State.view { s with
      flight := Function.update s.flight t (some ⟨e, some rest⟩)
      offered := Function.update s.offered c (s.offered c ++ [e]) } c =
      ⟨s.log, fun x => Owed s.clients c x (some ⟨e, some rest⟩) ∨
        ∃ t', t' ≠ t ∧ Owed s.clients c x (s.flight t'), s.offered c ++ [e]⟩ :=
    State.view_eq rfl (Function.update_self _ _ _) fun x => s.waits_update c x
  rw [hv]
  apply View.Step.deliver
  · exact (hold e).mpr (.inl ⟨rfl, List.mem_cons_self⟩)
  · intro x hx
    exact (hold x).mpr (hx.imp_left fun h => ⟨h.1, List.mem_cons_of_mem _ h.2⟩)
  · intro x hx
    rcases (hold x).mp hx with ⟨rfl, -⟩ | ho
    · exact Set.mem_insert _ _
    · exact Set.mem_insert_of_mem _ (.inr ho)

omit [DecidableEq C] in
/-- A thread that changes nothing of what client `c` waits for changes nothing that `c` sees. -/
theorem State.view_update {s : State T C E} {t : T} {x : Option (Flight C E)} {offered : C → List E}
    {c : C} (hoff : offered c = s.offered c)
    (hx : ∀ e, Owed s.clients c e x ↔ Owed s.clients c e (s.flight t)) :
    State.view ⟨s.log, s.clients, Function.update s.flight t x, offered⟩ c = s.view c := by
  refine State.view_eq rfl hoff fun e => ?_
  rw [s.waits_update, hx]
  exact (s.waits_iff t c e).symm

/-- **Projection.** While client `c` stays, a step of the system is a step of its view, and only a
delivery to `c` offers something to it. -/
theorem Step.view {s s' : State T C E} {l : Label T C E} (h : Step s l s') {c : C}
    (hc : c ∈ s.clients) (hc' : c ∈ s'.clients) (hl : ∀ batch, l ≠ .join c batch) :
    ∃ o, View.Step (s.view c) o (s'.view c) ∧
      ∀ e, o = some e → ∃ t rest, l = .deliver t c e ∧ s.flight t = some ⟨e, some (c :: rest)⟩ := by
  have quiet (heq : s'.view c = s.view c) :
      ∃ o, View.Step (s.view c) o (s'.view c) ∧ ∀ e, o = some e →
        ∃ t rest, l = .deliver t c e ∧ s.flight t = some ⟨e, some (c :: rest)⟩ := by
    rw [heq]
    exact ⟨none, .stutter, nofun⟩
  cases h with
  | @publish t e hf =>
    refine ⟨none, ?_, nofun⟩
    have hv : State.view { s with
        log := s.log ++ [e], flight := Function.update s.flight t (some ⟨e, none⟩) } c =
        ⟨s.log ++ [e], insert e (s.view c).waiting, s.offered c⟩ := by
      refine State.view_eq rfl rfl fun x => ?_
      rw [s.waits_update, Set.mem_insert_iff, eq_comm]
      show _ ↔ _ ∨ s.Waits c x
      rw [s.waits_iff t, hf]
      simp only [Owed, hc, and_true, false_or]
    rw [hv]
    exact .publish
  | @copy t e targets hf hset =>
    apply quiet
    refine State.view_update rfl fun x => ?_
    rw [hf]
    simp only [Owed, hset]
  | @deliver t e c₀ rest hf =>
    by_cases hcc : c₀ = c
    · subst hcc
      refine ⟨some e, State.view_deliver hf, fun e' he' => ?_⟩
      cases he'
      exact ⟨t, rest, rfl, hf⟩
    · apply quiet
      refine State.view_update (Function.update_of_ne (Ne.symm hcc) _ _) fun x => ?_
      rw [hf]
      simp only [Owed, List.mem_cons, Ne.symm hcc, false_or]
  | @finish t e hf =>
    apply quiet
    refine State.view_update rfl fun x => ?_
    rw [hf]
    simp only [Owed, List.not_mem_nil, and_false]
  | @join c₀ batch =>
    have hcc : c ≠ c₀ := fun he => hl batch (he ▸ rfl)
    refine quiet (State.view_eq rfl (Function.update_of_ne hcc _ _) fun x => ?_)
    exact exists_congr fun t => owed_congr (by simp [hcc]) x _
  | @leave c₀ =>
    refine quiet (State.view_eq rfl rfl fun x => ?_)
    exact exists_congr fun t => owed_congr (by simp [hc, hc'.2]) x _

/-- The system has nothing to do with `c`. -/
structure Absent (s : State T C E) (c : C) : Prop where
  clients : c ∉ s.clients
  flight : ∀ t e rest, s.flight t = some ⟨e, some rest⟩ → c ∉ rest
  offered : s.offered c = []

/-- A client that joins for the first time sees its batch, and waits for what has not been copied. -/
theorem Step.view_join {s s' : State T C E} {c : C} {batch : List E} (h : Step s (.join c batch) s')
    (hc : Absent s c) : s'.view c = ⟨s.log, fun e => s.Uncopied e, batch⟩ := by
  cases h with
  | join =>
    refine State.view_eq rfl ?_ fun e => exists_congr fun t => ?_
    · show Function.update s.offered c (s.offered c ++ batch) c = batch
      rw [Function.update_self, hc.offered, List.nil_append]
    · show Owed (insert c s.clients) c e (s.flight t) ↔ s.flight t = some ⟨e, none⟩
      rcases hf : s.flight t with _ | ⟨e', _ | rest⟩
      · simp [Owed]
      · simp [Owed]
      · simp [Owed, hc.flight t e' rest hf]

/-- Only joining makes a client. -/
theorem Step.joined {s s' : State T C E} {l : Label T C E} (h : Step s l s') {c : C}
    (hc : c ∉ s.clients) (hc' : c ∈ s'.clients) : ∃ batch, l = .join c batch := by
  cases h with
  | @join c₀ batch =>
    rcases Set.mem_insert_iff.mp hc' with rfl | hold
    · exact ⟨batch, rfl⟩
    · exact absurd hold hc
  | leave => exact absurd hc'.1 hc
  | _ => exact absurd hc' hc

/-- Who is absent stays so until it joins. -/
theorem Absent.step {s s' : State T C E} {l : Label T C E} (h : Step s l s') {c : C}
    (hc : Absent s c) (hl : ∀ batch, l ≠ .join c batch) : Absent s' c := by
  have keep {t : T} {x : Option (Flight C E)} (hx : ∀ e rest, x = some ⟨e, some rest⟩ → c ∉ rest) :
      ∀ t' e rest, Function.update s.flight t x t' = some ⟨e, some rest⟩ → c ∉ rest := by
    rw [Function.forall_update_iff s.flight fun _ y => ∀ e rest, y = some ⟨e, some rest⟩ → c ∉ rest]
    exact ⟨hx, fun t' _ => hc.flight t'⟩
  cases h with
  | publish hf => exact ⟨hc.clients, keep nofun, hc.offered⟩
  | copy hf hset =>
    refine ⟨hc.clients, keep fun e rest he => ?_, hc.offered⟩
    cases he
    exact fun hm => hc.clients ((hset c).mp hm)
  | @deliver t e c₀ rest hf =>
    have hrest : c ∉ c₀ :: rest := hc.flight t e _ hf
    rw [List.mem_cons, not_or] at hrest
    refine ⟨hc.clients, keep fun e' rest' he => ?_, ?_⟩
    · cases he
      exact hrest.2
    · show Function.update s.offered c₀ _ c = []
      rw [Function.update_of_ne hrest.1, hc.offered]
  | finish hf => exact ⟨hc.clients, keep nofun, hc.offered⟩
  | @join c₀ batch =>
    have hcc : c ≠ c₀ := fun he => hl batch (he ▸ rfl)
    refine ⟨fun hm => ?_, hc.flight, ?_⟩
    · rcases Set.mem_insert_iff.mp hm with he | hold
      · exact hcc he
      · exact hc.clients hold
    · show Function.update s.offered c₀ _ c = []
      rw [Function.update_of_ne hcc, hc.offered]
  | leave => exact ⟨fun hm => hc.clients hm.1, hc.flight, hc.offered⟩

/-- Every flight carries an event of the log. -/
def Logged (s : State T C E) : Prop := ∀ t f, s.flight t = some f → f.ev ∈ s.log

theorem Logged.step {s s' : State T C E} {l : Label T C E} (h : Step s l s') (hs : Logged s) :
    Logged s' := by
  have keep {log : List E} {t : T} {x : Option (Flight C E)} (hlog : ∀ e ∈ s.log, e ∈ log)
      (hx : ∀ f, x = some f → f.ev ∈ log) :
      ∀ t' f, Function.update s.flight t x t' = some f → f.ev ∈ log := by
    rw [Function.forall_update_iff s.flight fun _ y => ∀ f, y = some f → f.ev ∈ log]
    exact ⟨hx, fun t' _ f hf => hlog _ (hs t' f hf)⟩
  cases h with
  | publish hf =>
    refine keep (fun e he => List.mem_append_left _ he) fun f he => ?_
    cases he
    exact List.mem_append_right _ List.mem_cons_self
  | @copy t e _ hf | @deliver t e _ _ hf =>
    refine keep (fun e he => he) fun f he => ?_
    cases he
    have hlogged := hs t _ hf
    exact hlogged
  | finish => exact keep (fun e he => he) nofun
  | join | leave => exact hs

omit [DecidableEq T] [DecidableEq C] in
theorem Logged.of_uncopied {s : State T C E} (hs : Logged s) {e : E} (h : s.Uncopied e) : e ∈ s.log := by
  obtain ⟨t, hf⟩ := h
  exact hs t _ hf

/-! ## Coverage -/

/-- Every event with `P` has been offered or is on its way. -/
def Covered (P : E → Prop) (v : View E) : Prop :=
  ∀ e ∈ v.log, P e → e ∈ v.offered ∨ e ∈ v.waiting

theorem Covered.step {P : E → Prop} {v v' : View E} {o : Option E} (h : View.Step v o v')
    (hv : Covered P v) : Covered P v' := by
  intro x hx hP
  cases h with
  | publish =>
    rcases List.mem_append.mp hx with hold | hnew
    · exact (hv x hold hP).imp_right (Set.mem_insert_of_mem _)
    · rw [List.mem_singleton.mp hnew]
      exact .inr (Set.mem_insert _ _)
  | @deliver e waiting he hsub hrest =>
    rcases hv x hx hP with hoff | hw
    · exact .inl (List.mem_append_left _ hoff)
    · rcases Set.mem_insert_iff.mp (hrest hw) with rfl | hw
      · exact .inl (List.mem_append_right _ List.mem_cons_self)
      · exact .inr hw
  | stutter => exact hv x hx hP

/-! ## Order -/

variable (seq : E → Nat)

/-- The log is numbered from 1. -/
def Numbered (log : List E) : Prop := log.map seq = List.range' 1 log.length

/-- Keep an event if its number exceeds every number kept so far. -/
def keep (kept : List E) (e : E) : List E :=
  if ∀ x ∈ kept, seq x < seq e then kept ++ [e] else kept

/-- What is left after dropping every event whose number is not greater than an earlier one. The largest
number so far is always kept, so it is enough to compare with what is kept. -/
def retained (l : List E) : List E := l.foldl (keep seq) []

/-- What is left is numbered without holes. -/
def Contiguous (l : List E) : Prop := ∃ a n, (retained seq l).map seq = List.range' a n

/-- No event comes after its successor, unless it came before as well. -/
def InOrder (l : List E) : Prop :=
  Lts.Preceded (fun p e => (∃ x ∈ p, seq x = seq e + 1) → e ∈ p) l

variable {seq}

theorem Numbered.bounds {log : List E} (h : Numbered seq log) {e : E} (he : e ∈ log) :
    1 ≤ seq e ∧ seq e ≤ log.length := by
  have hm : seq e ∈ log.map seq := List.mem_map_of_mem he
  rw [h, List.mem_range'_1] at hm
  omega

theorem Numbered.exists_seq {log : List E} (h : Numbered seq log) {n : Nat} (h1 : 1 ≤ n)
    (hn : n ≤ log.length) : ∃ e ∈ log, seq e = n := by
  have hm : n ∈ log.map seq := by
    rw [h, List.mem_range'_1]
    omega
  exact List.mem_map.mp hm

/-- A new event has the next number. -/
theorem Numbered.last {log : List E} {e : E} (h : Numbered seq (log ++ [e])) :
    seq e = log.length + 1 := by
  rw [Numbered, List.length_append, List.length_singleton, List.map_append, List.range'_concat,
    List.map_singleton] at h
  have hlast := (List.append_inj_right' h rfl)
  simp only [List.cons.injEq, and_true] at hlast
  omega

theorem Numbered.init {log : List E} {e : E} (h : Numbered seq (log ++ [e])) : Numbered seq log := by
  rw [Numbered, List.length_append, List.length_singleton, List.map_append, List.range'_concat,
    List.map_singleton] at h
  exact List.append_inj_left' h rfl

/-- What the log was before is numbered from 1 as well. -/
theorem Numbered.left {p q : List E} (h : Numbered seq (p ++ q)) : Numbered seq p := by
  induction q using List.reverseRecOn with
  | nil =>
    rw [List.append_nil] at h
    exact h
  | append_singleton q e ih =>
    rw [← List.append_assoc] at h
    exact ih h.init

/-- What is newer than `m` is numbered without holes. -/
theorem Numbered.since {log : List E} (h : Numbered seq log) (m : Nat) :
    (log.filter fun e => decide (m < seq e)).map seq = List.range' (m + 1) (log.length - m) := by
  induction log using List.reverseRecOn with
  | nil => simp
  | append_singleton log e ih =>
    have hlast := h.last
    rw [List.filter_append, List.map_append, ih h.init, List.length_append, List.length_singleton]
    by_cases hm : m ≤ log.length
    · have hlt : m < seq e := by omega
      have hlen : log.length + 1 - m = log.length - m + 1 := by omega
      rw [hlen, List.range'_concat]
      simp [hlt]
      omega
    · have hge : ¬ m < seq e := by omega
      have h0 : log.length - m = 0 := by omega
      have h1 : log.length + 1 - m = 0 := by omega
      simp [hge, h0, h1]

/-- What is newer than `m` is what follows the first `m`. -/
theorem Numbered.filter_eq_drop {log : List E} (h : Numbered seq log) (m : Nat) :
    (log.filter fun e => decide (m < seq e)) = log.drop m := by
  induction log using List.reverseRecOn with
  | nil => simp
  | append_singleton log e ih =>
    have hlast := h.last
    rw [List.filter_append, ih h.init]
    by_cases hm : m ≤ log.length
    · have hlt : m < seq e := by omega
      rw [List.drop_append_of_le_length hm]
      simp [hlt]
    · have hge : ¬ m < seq e := by omega
      rw [List.drop_eq_nil_of_le (by omega), List.drop_eq_nil_of_le (by simp; omega)]
      simp [hge]

theorem retained_concat (l : List E) (e : E) :
    retained seq (l ++ [e]) = keep seq (retained seq l) e := by
  rw [retained, List.foldl_append, List.foldl_cons, List.foldl_nil, retained]

theorem retained_head? (l : List E) : (retained seq l).head? = l.head? := by
  induction l using List.reverseRecOn with
  | nil => rfl
  | append_singleton l e ih =>
    rw [retained_concat, keep]
    rcases hr : retained seq l with _ | ⟨x, xs⟩
    · rw [hr] at ih
      have hl : l = [] := List.head?_eq_none_iff.mp ih.symm
      simp [hl]
    · rw [hr] at ih
      rw [List.head?_append, ← ih]
      split <;> rfl

/-- Every number is at most one that is kept. -/
theorem exists_retained {l : List E} {e : E} (he : e ∈ l) : ∃ x ∈ retained seq l, seq e ≤ seq x := by
  induction l using List.reverseRecOn with
  | nil => exact absurd he List.not_mem_nil
  | append_singleton l e' ih =>
    rw [retained_concat, keep]
    split
    · rcases List.mem_append.mp he with hold | hnew
      · obtain ⟨x, hx, hle⟩ := ih hold
        exact ⟨x, List.mem_append_left _ hx, hle⟩
      · exact ⟨e, List.mem_append_right _ hnew, le_rfl⟩
    · rename_i hno
      rcases List.mem_append.mp he with hold | hnew
      · exact ih hold
      · rw [List.mem_singleton.mp hnew]
        push Not at hno
        exact hno

/-- A batch numbered without holes is kept whole. -/
theorem retained_of_range {l : List E} {a n : Nat} (h : l.map seq = List.range' a n) :
    retained seq l = l := by
  induction l using List.reverseRecOn generalizing n with
  | nil => rfl
  | append_singleton l e ih =>
    cases n with
    | zero => simp at h
    | succ n =>
      rw [List.map_append, List.range'_concat, List.map_singleton] at h
      have hl : l.map seq = List.range' a n := List.append_inj_left' h rfl
      have he : seq e = a + 1 * n := by simpa using List.append_inj_right' h rfl
      rw [retained_concat, ih hl, keep, if_pos]
      intro x hx
      have hm : seq x ∈ l.map seq := List.mem_map_of_mem hx
      rw [hl, List.mem_range'_1] at hm
      omega

/-- The offer of `e` overtakes nothing: an older event that is still on its way has been offered before,
or is older than everything the client was ever offered, and is not the direct predecessor of `e`. -/
def InTurn (seq : E → Nat) (v : View E) (e : E) : Prop :=
  ∀ w ∈ v.waiting, seq w < seq e →
    w ∈ v.offered ∨ (∀ a ∈ v.offered.head?, seq w < seq a) ∧ seq w + 1 ≠ seq e

/-- The invariant of a client that is offered the log in order. -/
structure Ordered (seq : E → Nat) (v : View E) : Prop where
  offered_log : ∀ e ∈ v.offered, e ∈ v.log
  waiting_log : ∀ e ∈ v.waiting, e ∈ v.log
  /-- before the first offer, what is newer than a waiting event waits as well -/
  fresh : v.offered = [] → ∀ w ∈ v.waiting, ∀ e ∈ v.log, seq w ≤ seq e → e ∈ v.waiting
  /-- after it, nothing newer than the first offer is missing -/
  tail : ∀ a ∈ v.offered.head?, ∀ e ∈ v.log, seq a ≤ seq e → e ∈ v.offered ∨ e ∈ v.waiting
  /-- an event whose successor was offered is not offered for the first time later -/
  turn : ∀ w ∈ v.waiting, ∀ e ∈ v.offered, seq e = seq w + 1 → w ∈ v.offered
  contiguous : Contiguous seq v.offered
  inOrder : InOrder seq v.offered

/-- The numbers offered so far are exactly those from the first offer to the largest one kept. -/
theorem Contiguous.range {l : List E} {b : E} (h : Contiguous seq l) (hb : b ∈ l.head?) :
    ∃ n, (retained seq l).map seq = List.range' (seq b) n ∧ ∀ e ∈ l, seq e < seq b + n := by
  obtain ⟨a, n, hr⟩ := h
  have hhead : ((retained seq l).map seq).head? = some (seq b) := by
    rw [List.head?_map, retained_head?, Option.mem_def.mp hb, Option.map_some]
  have ha : a = seq b := by
    rw [hr] at hhead
    cases n with
    | zero => cases hhead
    | succ n =>
      rw [List.range'_succ, List.head?_cons] at hhead
      exact Option.some.inj hhead
  subst ha
  refine ⟨n, hr, fun e he => ?_⟩
  obtain ⟨x, hx, hle⟩ : ∃ x ∈ retained seq l, seq e ≤ seq x := exists_retained he
  have hm : seq x ∈ (retained seq l).map seq := List.mem_map_of_mem hx
  rw [hr, List.mem_range'_1] at hm
  omega

/-- One more offer keeps the numbers without holes if it is old, or the next number, or the first. -/
theorem Contiguous.concat {l : List E} {e : E} (h : Contiguous seq l)
    (hnext : ∀ b ∈ l.head?, ∀ n, (retained seq l).map seq = List.range' (seq b) n →
      (∀ x ∈ l, seq x < seq b + n) → seq e ≤ seq b + n) : Contiguous seq (l ++ [e]) := by
  rw [Contiguous, retained_concat, keep]
  split
  · rename_i hkeep
    cases l with
    | nil => exact ⟨seq e, 1, rfl⟩
    | cons b l =>
      obtain ⟨n, hr, hlt⟩ := h.range (b := b) rfl
      have hle : seq e ≤ seq b + n := hnext b rfl n hr hlt
      refine ⟨seq b, n + 1, ?_⟩
      rw [List.map_append, hr, List.range'_concat, List.map_singleton]
      have hge : seq b + n ≤ seq e := by
        by_contra hlt'
        have hm : seq e ∈ (retained seq (b :: l)).map seq := by
          rw [hr, List.mem_range'_1]
          have hb := hlt b List.mem_cons_self
          obtain ⟨x, hx, hbx⟩ : ∃ x ∈ retained seq (b :: l), seq b ≤ seq x :=
            exists_retained List.mem_cons_self
          have hxe := hkeep x hx
          omega
        obtain ⟨x, hx, hxe⟩ := List.mem_map.mp hm
        have hxlt := hkeep x hx
        omega
      have heq : seq e = seq b + 1 * n := by omega
      rw [heq]
  · exact h

/-- A new event waits for the client and is newer than all it has seen. -/
theorem Ordered.publish {v : View E} {e : E} (hnum : Numbered seq (v.log ++ [e]))
    (hv : Ordered seq v) : Ordered seq ⟨v.log ++ [e], insert e v.waiting, v.offered⟩ := by
  have hnew := hnum.last
  have hold {x : E} (hx : x ∈ v.log) : seq x < seq e := by
    have := hnum.init.bounds hx
    omega
  constructor
  case offered_log =>
    intro x hx
    exact List.mem_append_left _ (hv.offered_log x hx)
  case waiting_log =>
    intro x hx
    rcases Set.mem_insert_iff.mp hx with rfl | hx
    · exact List.mem_append_right _ List.mem_cons_self
    · exact List.mem_append_left _ (hv.waiting_log x hx)
  case fresh =>
    intro hnil w hw x hx hle
    rcases List.mem_append.mp hx with hxl | hxe
    · rcases Set.mem_insert_iff.mp hw with rfl | hw
      · have := hold hxl
        omega
      · exact Set.mem_insert_of_mem _ (hv.fresh hnil w hw x hxl hle)
    · rw [List.mem_singleton.mp hxe]
      exact Set.mem_insert _ _
  case tail =>
    intro a ha x hx hle
    rcases List.mem_append.mp hx with hx | hx
    · exact (hv.tail a ha x hx hle).imp_right (Set.mem_insert_of_mem _)
    · rw [List.mem_singleton.mp hx]
      exact .inr (Set.mem_insert _ _)
  case turn =>
    intro w hw x hx hs
    rcases Set.mem_insert_iff.mp hw with rfl | hw
    · have := hold (hv.offered_log x hx)
      omega
    · exact hv.turn w hw x hx hs
  case contiguous => exact hv.contiguous
  case inOrder => exact hv.inOrder

/-- An offer in turn leaves no gap: an event that fills it would wait, and the offer overtake it. -/
theorem Ordered.next_le {v : View E} {e b : E} {n : Nat} (hnum : Numbered seq v.log)
    (hv : Ordered seq v) (he : e ∈ v.waiting) (ht : InTurn seq v e) (hb : b ∈ v.offered.head?)
    (hlt : ∀ x ∈ v.offered, seq x < seq b + n) : seq e ≤ seq b + n := by
  by_contra hgap
  have hb1 := hnum.bounds (hv.offered_log b (List.mem_of_mem_head? hb))
  have he1 := hnum.bounds (hv.waiting_log e he)
  obtain ⟨x, hx, hxn⟩ : ∃ x ∈ v.log, seq x = seq b + n := by
    apply hnum.exists_seq
    · omega
    · omega
  have hnot : x ∉ v.offered := by
    intro hoff
    have := hlt x hoff
    omega
  rcases hv.tail b hb x hx (by omega) with hoff | hw
  · exact hnot hoff
  · rcases ht x hw (by omega) with hoff | ⟨hstale, -⟩
    · exact hnot hoff
    · have := hstale b hb
      omega

/-- An offer whose predecessor does not wait unoffered keeps the order of the offers. -/
theorem InOrder.concat {l : List E} {e : E} (h : InOrder seq l)
    (hturn : ∀ y ∈ l, seq y = seq e + 1 → e ∈ l) : InOrder seq (l ++ [e]) := by
  refine Lts.preceded_append h ?_
  intro p x q hs
  rcases p with _ | ⟨y, p⟩
  · simp only [List.nil_append, List.cons.injEq] at hs
    obtain ⟨rfl, -⟩ := hs
    rintro ⟨y, hy, hys⟩
    rw [List.append_nil] at hy ⊢
    exact hturn y hy hys
  · simp at hs

/-- An offer in turn keeps the client in order. -/
theorem Ordered.deliver {v : View E} {e : E} {waiting : Set E} (hnum : Numbered seq v.log)
    (he : e ∈ v.waiting) (hsub : waiting ⊆ v.waiting) (hrest : v.waiting ⊆ insert e waiting)
    (ht : InTurn seq v e) (hv : Ordered seq v) : Ordered seq ⟨v.log, waiting, v.offered ++ [e]⟩ := by
  have still {x : E} (hx : x ∈ v.waiting) : x ∈ v.offered ++ [e] ∨ x ∈ waiting := by
    rcases Set.mem_insert_iff.mp (hrest hx) with rfl | hx
    · exact .inl (List.mem_append_right _ List.mem_cons_self)
    · exact .inr hx
  constructor
  case offered_log =>
    intro x hx
    rcases List.mem_append.mp hx with hx | hx
    · exact hv.offered_log x hx
    · rw [List.mem_singleton.mp hx]
      exact hv.waiting_log e he
  case waiting_log =>
    intro x hx
    exact hv.waiting_log x (hsub hx)
  case fresh =>
    intro hnil
    exact absurd hnil (by simp)
  case tail =>
    intro a ha x hx hle
    by_cases hoff : v.offered = []
    · -- the first offer: everything newer waits
      have hae : a = e := by simpa [hoff] using ha.symm
      subst hae
      exact still (hv.fresh hoff a he x hx hle)
    · have hab : a ∈ v.offered.head? := by
        rw [List.head?_append_of_ne_nil _ hoff] at ha
        exact ha
      rcases hv.tail a hab x hx hle with hx | hx
      · exact .inl (List.mem_append_left _ hx)
      · exact still hx
  case turn =>
    intro w hw x hx hs
    rcases List.mem_append.mp hx with hx | hx
    · exact List.mem_append_left _ (hv.turn w (hsub hw) x hx hs)
    · rw [List.mem_singleton.mp hx] at hs
      rcases ht w (hsub hw) (by omega) with hw | ⟨-, hne⟩
      · exact List.mem_append_left _ hw
      · omega
  case contiguous =>
    apply hv.contiguous.concat
    intro b hb n _ hlt
    exact hv.next_le hnum he ht hb hlt
  case inOrder =>
    apply hv.inOrder.concat
    intro y hy hys
    exact hv.turn e he y hy hys

/-- **The order law.** A client that is offered the log in order stays so, if every offer is in turn. -/
theorem Ordered.step {v v' : View E} {o : Option E} (h : View.Step v o v') (hnum : Numbered seq v'.log)
    (hturn : ∀ e, o = some e → InTurn seq v e) (hv : Ordered seq v) : Ordered seq v' := by
  cases h with
  | publish => exact hv.publish hnum
  | deliver he hsub hrest => exact hv.deliver hnum he hsub hrest (hturn _ rfl)
  | stutter => exact hv

/-- The client joins without a hole: what it neither gets with the batch nor waits for is older than the
batch (or than what it waits for, when the batch is empty), and no predecessor of the batch waits. -/
structure NoHole (seq : E → Nat) (v : View E) : Prop where
  older : ∀ m ∈ v.log, m ∉ v.offered → m ∉ v.waiting → ∀ b ∈ v.offered, seq m < seq b
  settled : ∀ w ∈ v.waiting, ∀ b ∈ v.offered, seq b = seq w + 1 → w ∈ v.offered
  behind : v.offered = [] → ∀ m ∈ v.log, m ∉ v.waiting → ∀ w ∈ v.waiting, seq m < seq w

/-- A client that joins without a hole, with a batch numbered without holes, is in order. -/
theorem Ordered.join {v : View E} {a n : Nat} (hbatch : ∀ e ∈ v.offered, e ∈ v.log)
    (hrange : v.offered.map seq = List.range' a n) (hwait : ∀ e ∈ v.waiting, e ∈ v.log)
    (h : NoHole seq v) : Ordered seq v := by
  refine ⟨hbatch, hwait, fun hnil w hw e he hle => ?_, fun b hb e he hle => ?_, h.settled,
    ⟨a, n, by rw [retained_of_range hrange, hrange]⟩, ?_⟩
  · by_contra hno
    have := h.behind hnil e he hno w hw
    omega
  · by_contra hno
    rw [not_or] at hno
    have := h.older e he hno.1 hno.2 b (List.mem_of_mem_head? hb)
    omega
  · -- numbers in the batch only grow
    rintro p e q hp ⟨x, hx, hxe⟩
    have hsorted : (v.offered.map seq).Pairwise (· < ·) := by
      rw [hrange]
      exact List.pairwise_lt_range'
    rw [hp, List.map_append, List.map_cons, List.pairwise_append] at hsorted
    have := hsorted.2.2 (seq x) (List.mem_map_of_mem hx) (seq e) List.mem_cons_self
    omega

end Harness.Lib.Fanout
