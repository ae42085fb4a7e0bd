/-
# Harness.Hub.WriteLoop — a client's queue, one channel operation at a time.

`Outbound` in `Harness.Hub.State` takes `enqueueRaw` as one step. Here it is the two channel operations it is
made of (send or find the queue full; signal the overflow), any number of producers are in it at once, and
`writeLoop` runs between them, its `select` choosing freely among the cases that are ready. A connection that
was closed takes no more writes.

Overflow is meant to close the connection before anything that came after the dropped message is written.
`overflow_leaves_no_hole` says when it does: as long as the queue stays full until the write loop takes the
signal. When the queue has drained before, it takes later messages, and the loop may write them
(`later_message_written`).
-/
import Harness.Hub.World
import Mathlib.Data.List.TakeWhile

namespace Harness.WriteLoop

open Wire Lib Hub

/-- The outbound side of a `client`. `signalling` counts the producers that found the queue full and have
not signalled it yet. -/
structure Client where
  send : List Envelope := []
  overflow : Bool := false
  signalling : Nat := 0
  writing : Bool := true
  closed : Bool := false

inductive Action where
  /-- `c.send <- data` of `enqueueRaw`, or its default case -/
  | offer (f : Envelope)
  /-- `c.overflow <- struct{}{}`, or its default case -/
  | signal
  /-- a turn of `writeLoop` -/
  | loop (ch : WriteChoice)
  /-- the connection ends for another reason -/
  | close

inductive Obs where
  | enqueued (f : Envelope)
  | dropped (f : Envelope)
  | written (f : Envelope)

def turn (c : Client) : WriteChoice → Option (Client × List Obs)
  | .send =>
      match c.closed, c.send with
      | false, f :: rest => some ({ c with send := rest }, [.written f])
      | _, _ => none
  | .sendFailed =>
      match c.send with
      | _ :: rest => some ({ c with send := rest, writing := false }, [])
      | [] => none
  -- `fail` closes the connection
  | .overflow =>
      if c.overflow then some ({ c with overflow := false, writing := false, closed := true }, []) else none
  | .done => some ({ c with writing := false }, [])

def system (highWater : Nat) : Lts Client Action Obs where
  step c
    | .offer f =>
        some (if c.send.length < highWater then ({ c with send := c.send ++ [f] }, [.enqueued f])
          else ({ c with signalling := c.signalling + 1 }, [.dropped f]))
    | .signal =>
        match c.signalling with
        | 0 => none
        | n + 1 => some ({ c with signalling := n, overflow := true }, [])
    | .loop ch => if c.writing then turn c ch else none
    | .close => some ({ c with closed := true }, [])

/-- **`Trans highWater c a c' os`** — what a step can do. -/
inductive Trans (highWater : Nat) (c : Client) : Action → Client → List Obs → Prop
  | enqueue {f : Envelope} (hroom : c.send.length < highWater) :
      Trans highWater c (.offer f) { c with send := c.send ++ [f] } [.enqueued f]
  | drop {f : Envelope} (hfull : highWater ≤ c.send.length) :
      Trans highWater c (.offer f) { c with signalling := c.signalling + 1 } [.dropped f]
  | signal {n : Nat} (hn : c.signalling = n + 1) :
      Trans highWater c .signal { c with signalling := n, overflow := true } []
  | write {f : Envelope} {rest : List Envelope} (hw : c.writing = true) (hopen : c.closed = false)
      (hf : c.send = f :: rest) :
      Trans highWater c (.loop .send) { c with send := rest } [.written f]
  | stop {ch : WriteChoice} {c' : Client} (hw : c.writing = true) (hstop : c'.writing = false)
      (hlen : c'.send.length ≤ c.send.length) (hsignals : c'.signalling = c.signalling)
      (hflag : c.overflow = false → c'.overflow = false) :
      Trans highWater c (.loop ch) c' []
  | close : Trans highWater c .close { c with closed := true } []

theorem step_trans {highWater : Nat} {c c' : Client} {a : Action} {os : List Obs}
    (hs : (system highWater).step c a = some (c', os)) : Trans highWater c a c' os := by
  cases a with
  | offer f =>
    simp only [system, Option.some.injEq] at hs
    split at hs
    · rename_i hroom
      cases hs
      exact .enqueue hroom
    · rename_i hfull
      cases hs
      exact .drop (Nat.le_of_not_lt hfull)
  | signal =>
    simp only [system] at hs
    split at hs
    · cases hs
    · rename_i n hn
      cases hs
      exact .signal hn
  | loop ch =>
    simp only [system] at hs
    split at hs
    · rename_i hw
      cases ch with
      | send =>
        simp only [turn] at hs
        split at hs
        · rename_i f rest hopen hf
          cases hs
          exact .write hw hopen hf
        · cases hs
      | sendFailed =>
        simp only [turn] at hs
        split at hs
        · rename_i f rest hf
          cases hs
          refine .stop hw rfl ?_ rfl id
          rw [hf]
          exact Nat.le_succ _
        · cases hs
      | overflow =>
        simp only [turn] at hs
        split at hs
        · cases hs
          exact .stop hw rfl (Nat.le_refl _) rfl fun _ => rfl
        · cases hs
      | done =>
        cases hs
        exact .stop hw rfl (Nat.le_refl _) rfl id
    · cases hs
  | close =>
    cases hs
    exact .close

/-! ## What an observer sees -/

namespace Obs

def offer : Obs → Option Envelope
  | enqueued f | dropped f => some f
  | written _ => none

def queue : Obs → Option Envelope
  | enqueued f => some f
  | _ => none

def write : Obs → Option Envelope
  | written f => some f
  | _ => none

def isDrop : Obs → Bool
  | dropped _ => true
  | _ => false

end Obs

/-- The messages offered to the client, in the order of the offers. -/
def offered (tr : List Obs) : List Envelope := tr.filterMap Obs.offer

def queued (tr : List Obs) : List Envelope := tr.filterMap Obs.queue

def written (tr : List Obs) : List Envelope := tr.filterMap Obs.write

theorem queued_append (p q : List Obs) : queued (p ++ q) = queued p ++ queued q :=
  List.filterMap_append

theorem written_append (p q : List Obs) : written (p ++ q) = written p ++ written q :=
  List.filterMap_append

@[simp] theorem queued_enqueued (f : Envelope) : queued [.enqueued f] = [f] := rfl
@[simp] theorem queued_dropped (f : Envelope) : queued [.dropped f] = [] := rfl
@[simp] theorem queued_written (f : Envelope) : queued [.written f] = [] := rfl
@[simp] theorem written_enqueued (f : Envelope) : written [.enqueued f] = [] := rfl
@[simp] theorem written_dropped (f : Envelope) : written [.dropped f] = [] := rfl
@[simp] theorem written_written (f : Envelope) : written [.written f] = [f] := rfl

theorem exists_drop_concat {tr : List Obs} {o : Obs} (h : o.isDrop = false) :
    (∃ o' ∈ tr ++ [o], o'.isDrop = true) ↔ ∃ o' ∈ tr, o'.isDrop = true := by
  simp [h]

/-- The messages offered before the first one that was dropped. -/
def beforeDrop (tr : List Obs) : List Envelope := queued (tr.takeWhile fun o => !o.isDrop)

theorem takeWhile_of_free {tr : List Obs} (h : ∀ o ∈ tr, o.isDrop = false) :
    (tr.takeWhile fun o => !o.isDrop) = tr :=
  List.takeWhile_eq_self_iff.mpr fun o ho => by rw [h o ho]; rfl

theorem beforeDrop_of_free {tr : List Obs} (h : ∀ o ∈ tr, o.isDrop = false) :
    beforeDrop tr = queued tr := by
  rw [beforeDrop, takeWhile_of_free h]

/-- Before the first drop, what is offered is queued. -/
theorem beforeDrop_prefix_offered (tr : List Obs) : beforeDrop tr <+: offered tr := by
  induction tr with
  | nil => exact List.prefix_refl _
  | cons o tr ih =>
    cases o with
    | enqueued f => exact List.cons_prefix_cons.mpr ⟨rfl, ih⟩
    | dropped f => exact List.nil_prefix
    | written f => exact ih

theorem beforeDrop_prefix_queued (tr : List Obs) : beforeDrop tr <+: queued tr :=
  (List.takeWhile_prefix _).filterMap _

/-- What comes after a drop is not counted. -/
theorem beforeDrop_append_of_drop {tr : List Obs} (h : ∃ o ∈ tr, o.isDrop = true) (os : List Obs) :
    beforeDrop (tr ++ os) = beforeDrop tr := by
  obtain ⟨o, ho, hdrop⟩ := h
  have hshort : (tr.takeWhile fun o => !o.isDrop).length ≠ tr.length := by
    intro hlen
    have hself := (List.takeWhile_prefix fun o : Obs => !o.isDrop).eq_of_length hlen
    have := List.takeWhile_eq_self_iff.mp hself o ho
    rw [hdrop] at this
    cases this
  rw [beforeDrop, List.takeWhile_append, if_neg hshort]
  rfl

theorem beforeDrop_append_of_free {tr : List Obs} (h : ∀ o ∈ tr, o.isDrop = false) (os : List Obs) :
    beforeDrop (tr ++ os) = queued tr ++ beforeDrop os := by
  rw [beforeDrop, List.takeWhile_append, if_pos (by rw [takeWhile_of_free h]), queued, List.filterMap_append]
  rfl

/-- An observation that queues nothing changes nothing. -/
theorem beforeDrop_append_none {os : List Obs} (h : queued os = []) (tr : List Obs) :
    beforeDrop (tr ++ os) = beforeDrop tr := by
  by_cases hfree : ∀ o ∈ tr, o.isDrop = false
  · have hnil : beforeDrop os = [] := by
      have hpre := beforeDrop_prefix_queued os
      rw [h] at hpre
      exact List.prefix_nil.mp hpre
    rw [beforeDrop_append_of_free hfree, beforeDrop_of_free hfree, hnil, List.append_nil]
  · simp only [not_forall, Bool.not_eq_false] at hfree
    obtain ⟨o, ho, hdrop⟩ := hfree
    exact beforeDrop_append_of_drop ⟨o, ho, hdrop⟩ os

theorem beforeDrop_mono (tr os : List Obs) : beforeDrop tr <+: beforeDrop (tr ++ os) := by
  by_cases hfree : ∀ o ∈ tr, o.isDrop = false
  · rw [beforeDrop_append_of_free hfree, beforeDrop_of_free hfree]
    exact List.prefix_append _ _
  · simp only [not_forall, Bool.not_eq_false] at hfree
    obtain ⟨o, ho, hdrop⟩ := hfree
    rw [beforeDrop_append_of_drop ⟨o, ho, hdrop⟩]

/-! ## The account of a queue -/

/-- A message was dropped and the write loop has not taken the signal. -/
def Client.Tripped (c : Client) : Prop := 0 < c.signalling ∨ c.overflow = true

/-- **`Account tr c`** — what holds in every run: the queue is first in, first out, and while the write loop
runs a drop leaves its mark. -/
structure Account (tr : List Obs) (c : Client) : Prop where
  flow : c.writing = true → queued tr = written tr ++ c.send
  order : written tr <+: queued tr
  mark : c.writing = true → ((∃ o ∈ tr, o.isDrop = true) ↔ c.Tripped)
  room : c.send.length ≤ (queued tr).length

theorem account_step {highWater : Nat} {tr os : List Obs} {c c' : Client} {a : Action}
    (h : Account tr c) (ht : Trans highWater c a c' os) : Account (tr ++ os) c' := by
  cases ht with
  | @enqueue f hroom =>
    refine ⟨fun hw => ?_, ?_, fun hw => ?_, ?_⟩
    · rw [queued_append, written_append, h.flow hw, queued_enqueued, written_enqueued, List.append_nil,
        List.append_assoc]
    · rw [queued_append, written_append, written_enqueued, List.append_nil]
      exact h.order.trans (List.prefix_append _ _)
    · rw [exists_drop_concat rfl]
      exact h.mark hw
    · rw [queued_append, List.length_append, List.length_append]
      exact Nat.add_le_add_right h.room 1
  | @drop f hfull =>
    refine ⟨fun hw => ?_, ?_, fun hw => ?_, ?_⟩
    · rw [queued_append, written_append, h.flow hw, queued_dropped, written_dropped, List.append_nil,
        List.append_nil]
    · rw [queued_append, written_append, queued_dropped, written_dropped, List.append_nil, List.append_nil]
      exact h.order
    · exact iff_of_true ⟨_, List.mem_append_right _ List.mem_cons_self, rfl⟩ (.inl (Nat.succ_pos _))
    · rw [queued_append, queued_dropped, List.append_nil]
      exact h.room
  | @signal n hn =>
    rw [List.append_nil]
    refine ⟨h.flow, h.order, fun hw => ?_, h.room⟩
    refine iff_of_true ((h.mark hw).mpr (.inl ?_)) (.inr rfl)
    rw [hn]
    exact Nat.succ_pos n
  | @write f rest hw hopen hf =>
    have hflow := h.flow hw
    rw [hf] at hflow
    refine ⟨fun _ => ?_, ?_, fun _ => ?_, ?_⟩
    · rw [queued_append, written_append, hflow, queued_written, written_written, List.append_nil,
        List.append_assoc]
      rfl
    · rw [queued_append, written_append, hflow, queued_written, written_written, List.append_nil]
      exact (List.prefix_append_right_inj _).mpr (List.prefix_append [f] rest)
    · rw [exists_drop_concat rfl]
      exact h.mark hw
    · have hroom := h.room
      rw [hf, List.length_cons] at hroom
      rw [queued_append, queued_written, List.append_nil]
      exact Nat.le_of_succ_le hroom
  | stop hw hstop hlen _ _ =>
    rw [List.append_nil]
    have hoff : c'.writing = true → False := fun hon => by rw [hstop] at hon; cases hon
    exact ⟨fun hon => (hoff hon).elim, h.order, fun hon => (hoff hon).elim, hlen.trans h.room⟩
  | close =>
    rw [List.append_nil]
    exact ⟨h.flow, h.order, h.mark, h.room⟩

theorem account {highWater : Nat} {P : List Obs → Client → Action → Prop} {tr : List Obs} {c : Client}
    (h : (system highWater).Run P [] {} tr c) : Account tr c := by
  refine h.invariant (I := Account) ?_ fun _ _ _ _ _ _ ih _ hs =>
    account_step ih (step_trans hs)
  exact ⟨fun _ => rfl, List.prefix_refl _, fun _ => ⟨by simp, by simp [Client.Tripped]⟩, Nat.le_refl _⟩

/-! ## No hole -/

/-- **`HoldsBack highWater tr c a`** — a message offered between a drop and the close finds the queue still
full. -/
def HoldsBack (highWater : Nat) (_ : List Obs) (c : Client) : Action → Prop
  | .offer _ => c.Tripped → c.writing = true → c.closed = false → highWater ≤ c.send.length
  | _ => True

/-- **`Whole tr c`** — what is written was offered before the first drop, and so is all that is queued while
the write loop can write. -/
structure Whole (tr : List Obs) (c : Client) : Prop where
  fresh : c.writing = true → c.closed = false → queued tr = beforeDrop tr
  safe : written tr <+: beforeDrop tr

theorem whole_step {highWater : Nat} {tr os : List Obs} {c c' : Client} {a : Action} (hacc : Account tr c)
    (h : Whole tr c) (hP : HoldsBack highWater tr c a) (ht : Trans highWater c a c' os) :
    Whole (tr ++ os) c' := by
  cases ht with
  | @enqueue f hroom =>
    refine ⟨fun hw hopen => ?_, ?_⟩
    · -- the queue had room, so nothing has been dropped
      have hfree : ∀ o ∈ tr, o.isDrop = false := by
        intro o ho
        rw [Bool.eq_false_iff]
        intro hdrop
        have hfull := hP ((hacc.mark hw).mp ⟨o, ho, hdrop⟩) hw hopen
        omega
      rw [queued_append, beforeDrop_append_of_free hfree]
      rfl
    · rw [written_append, written_enqueued, List.append_nil]
      exact h.safe.trans (beforeDrop_mono tr _)
  | drop hfull =>
    refine ⟨fun hw hopen => ?_, ?_⟩
    · rw [queued_append, queued_dropped, List.append_nil, beforeDrop_append_none rfl]
      exact h.fresh hw hopen
    · rw [written_append, written_dropped, List.append_nil, beforeDrop_append_none rfl]
      exact h.safe
  | signal hn =>
    rw [List.append_nil]
    exact ⟨h.fresh, h.safe⟩
  | @write f rest hw hopen hf =>
    have hfresh := h.fresh hw hopen
    have hflow := hacc.flow hw
    rw [hf] at hflow
    refine ⟨fun _ _ => ?_, ?_⟩
    · rw [queued_append, queued_written, List.append_nil, beforeDrop_append_none rfl]
      exact hfresh
    · rw [written_append, written_written, beforeDrop_append_none rfl, ← hfresh, hflow]
      exact (List.prefix_append_right_inj _).mpr (List.prefix_append [f] rest)
  | stop hw hstop hlen _ _ =>
    rw [List.append_nil]
    refine ⟨fun hon => ?_, h.safe⟩
    rw [hstop] at hon
    cases hon
  | close =>
    rw [List.append_nil]
    exact ⟨fun _ hopen => (by cases hopen), h.safe⟩

/-- **Overflow leaves no hole**, as long as the queue stays full from a drop to the close: what is written
is a prefix of what is offered, and all of it was offered before the first message that was dropped. -/
theorem overflow_leaves_no_hole {highWater : Nat} {tr : List Obs} {c : Client}
    (h : (system highWater).Run (HoldsBack highWater) [] {} tr c) :
    written tr <+: offered tr ∧ written tr <+: beforeDrop tr := by
  have hwhole : Whole tr c := by
    refine h.invariant (I := Whole) ⟨fun _ _ => rfl, List.prefix_refl _⟩ ?_
    intro t u a u' os hr ih hP hs
    exact whole_step (account hr) ih hP (step_trans hs)
  exact ⟨hwhole.safe.trans (beforeDrop_prefix_offered tr), hwhole.safe⟩

instance (highWater : Nat) (tr : List Obs) (c : Client) (a : Action) :
    Decidable (HoldsBack highWater tr c a) := by
  cases a with
  | offer => exact inferInstanceAs (Decidable ((_ ∨ _) → _ → _ → _))
  | _ => exact inferInstanceAs (Decidable True)

/-- The queue of one message of the overflow test: the second message is dropped and signalled, the first
is written, and the loop closes. -/
def overflowing : List Action :=
  [.offer (.ack "c1" 1), .offer (.ack "c2" 2), .signal, .loop .send, .loop .overflow, .offer (.ack "c3" 3)]

theorem overflow_leaves_no_hole_overflowing :
    ∃ tr c, (system 1).Run (HoldsBack 1) [] {} tr c ∧ c.closed = true ∧ (offered tr).length = 3 ∧
      (written tr).length = 1 ∧ written tr <+: offered tr := by
  have hexec : ∃ r, (system 1).exec (fun t c a => decide (HoldsBack 1 t c a)) [] {} overflowing = some r ∧
      r.2.closed = true ∧ (offered r.1).length = 3 ∧ (written r.1).length = 1 :=
    ⟨_, rfl, rfl, rfl, rfl⟩
  obtain ⟨⟨tr, c⟩, he, hclosed, hoffered, hwritten⟩ := hexec
  have hrun := Lts.run_of_exec (fun _ _ _ h => of_decide_eq_true h) he
  exact ⟨tr, c, hrun, hclosed, hoffered, hwritten, (overflow_leaves_no_hole hrun).1⟩

/-! ## A hole -/

/-- Messages that find room are queued. -/
theorem fills {highWater : Nat} (fs : List Envelope) :
    ∀ (tr : List Obs) (c : Client), c.send.length + fs.length ≤ highWater →
      (system highWater).Run Lts.Free tr c (tr ++ fs.map .enqueued) { c with send := c.send ++ fs } := by
  induction fs with
  | nil =>
    intro tr c _
    rw [List.map_nil, List.append_nil, List.append_nil]
    exact .refl
  | cons f fs ih =>
    intro tr c hroom
    rw [List.length_cons] at hroom
    have hstep : (system highWater).step c (.offer f) =
        some ({ c with send := c.send ++ [f] }, [.enqueued f]) := by
      simp only [system]
      rw [if_pos (by omega)]
    have hrest := ih (tr ++ [.enqueued f]) { c with send := c.send ++ [f] } (by simp; omega)
    simp only [List.append_assoc, List.singleton_append] at hrest
    exact (Lts.Run.single trivial hstep).trans hrest

/-- A write loop that nothing stops writes the whole queue. -/
theorem flushes {highWater : Nat} (fs : List Envelope) :
    ∀ (tr : List Obs) (c : Client), c.writing = true → c.closed = false → c.send = fs →
      (system highWater).Run Lts.Free tr c (tr ++ fs.map .written) { c with send := [] } := by
  induction fs with
  | nil =>
    rintro tr ⟨⟩ _ _ hsend
    dsimp only at hsend
    subst hsend
    rw [List.map_nil, List.append_nil]
    exact .refl
  | cons f fs ih =>
    intro tr c hw hopen hsend
    have hstep : (system highWater).step c (.loop .send) = some ({ c with send := fs }, [.written f]) := by
      simp [system, turn, hw, hopen, hsend]
    have hrest := ih (tr ++ [.written f]) { c with send := fs } hw hopen rfl
    simp only [List.append_assoc, List.singleton_append] at hrest
    exact (Lts.Run.single trivial hstep).trans hrest

theorem written_map_written (fs : List Envelope) : written (fs.map .written) = fs := by
  induction fs with
  | nil => rfl
  | cons f fs ih => exact congrArg (f :: ·) ih

theorem written_map_enqueued (fs : List Envelope) : written (fs.map .enqueued) = [] := by
  induction fs with
  | nil => rfl
  | cons f fs ih => exact ih

theorem offered_append (p q : List Obs) : offered (p ++ q) = offered p ++ offered q :=
  List.filterMap_append

theorem offered_map_enqueued (fs : List Envelope) : offered (fs.map .enqueued) = fs := by
  induction fs with
  | nil => rfl
  | cons f fs ih => exact congrArg (f :: ·) ih

theorem offered_map_written (fs : List Envelope) : offered (fs.map .written) = [] := by
  induction fs with
  | nil => rfl
  | cons f fs ih => exact ih

/-- **The condition is exact**: where it fails, the message that was let in behind the dropped one can be
written. -/
theorem later_message_written {highWater : Nat} {tr : List Obs} {c : Client}
    (h : (system highWater).Run Lts.Free [] {} tr c) {f : Envelope}
    (hlate : ¬ HoldsBack highWater tr c (.offer f)) :
    ∃ tr' c', (system highWater).Run Lts.Free tr c tr' c' ∧ written tr' = queued tr ++ [f] ∧
      ¬ written tr' <+: beforeDrop tr' := by
  have hacc : Account tr c := account h
  simp only [HoldsBack, Classical.not_imp, Nat.not_le] at hlate
  obtain ⟨htripped, hw, hopen, hroom⟩ := hlate
  have hstep : (system highWater).step c (.offer f) =
      some ({ c with send := c.send ++ [f] }, [.enqueued f]) := by
    simp only [system]
    rw [if_pos hroom]
  have hqueued : (system highWater).Run Lts.Free tr c (tr ++ [.enqueued f])
      { c with send := c.send ++ [f] } := .single trivial hstep
  have hrun := hqueued.trans (flushes (c.send ++ [f]) _ _ hw hopen rfl)
  have hwritten : written (tr ++ [.enqueued f] ++ (c.send ++ [f]).map .written) = queued tr ++ [f] := by
    rw [written_append, written_append, written_enqueued, List.append_nil, written_map_written,
      hacc.flow hw, List.append_assoc]
  refine ⟨_, _, hrun, hwritten, fun hprefix => ?_⟩
  rw [hwritten, List.append_assoc, beforeDrop_append_of_drop ((hacc.mark hw).mpr htripped)] at hprefix
  have hlen := hprefix.length_le.trans (beforeDrop_prefix_queued tr).length_le
  rw [List.length_append, List.length_singleton] at hlen
  omega

/-- A full queue, a dropped message, one write, and a message that is let in behind it. -/
theorem lets_in {highWater : Nat} {rest : List Envelope} (hlen : rest.length + 1 = highWater)
    (a x y : Envelope) :
    ∃ tr c, (system highWater).Run Lts.Free [] {} tr c ∧ offered tr = a :: rest ++ [x, y] ∧
      written tr = a :: rest ++ [y] := by
  have hfill := fills (a :: rest) [] {} (show 0 + (rest.length + 1) ≤ highWater by omega)
  have hdrop : (system highWater).step { send := a :: rest } (.offer x) =
      some ({ send := a :: rest, signalling := 1 }, [.dropped x]) := by
    simp only [system]
    rw [if_neg (by rw [List.length_cons]; omega)]
  have hsignal : (system highWater).step { send := a :: rest, signalling := 1 } .signal =
      some ({ send := a :: rest, overflow := true }, []) := rfl
  have hwrite : (system highWater).step { send := a :: rest, overflow := true } (.loop .send) =
      some ({ send := rest, overflow := true }, [.written a]) := rfl
  have hlate : (system highWater).step { send := rest, overflow := true } (.offer y) =
      some ({ send := rest ++ [y], overflow := true }, [.enqueued y]) := by
    simp only [system]
    rw [if_pos (by omega)]
  have hrun := (((hfill.tail trivial hdrop).tail trivial hsignal).tail trivial hwrite).tail trivial hlate
  have hall := hrun.trans (flushes (rest ++ [y]) _ _ rfl rfl rfl)
  refine ⟨_, _, hall, ?_, ?_⟩
  · simp only [offered_append, offered_map_enqueued, offered_map_written]
    simp [offered, Obs.offer]
  · simp only [written_append, written_map_enqueued, written_map_written, written_dropped, written_written,
      written_enqueued]
    rfl

/-- With the queue of 4096 messages full a message is dropped; the loop writes one message before it takes
the signal, and the next message offered is queued and written. -/
theorem hole_behind_overflow :
    ∃ tr c, (system 4096).Run Lts.Free [] {} tr c ∧
      offered tr = List.replicate 4096 (.ack "c1" 1) ++ [.ack "c2" 2, .ack "c3" 3] ∧
      written tr = List.replicate 4096 (.ack "c1" 1) ++ [.ack "c3" 3] ∧ ¬ written tr <+: offered tr := by
  obtain ⟨tr, c, hrun, hoffered, hwritten⟩ :=
    lets_in (congrArg (· + 1) (List.length_replicate (n := 4095) (a := Envelope.ack "c1" 1)))
      (.ack "c1" 1) (.ack "c2" 2) (.ack "c3" 3)
  refine ⟨tr, c, hrun, hoffered, hwritten, ?_⟩
  rw [hoffered, hwritten, List.prefix_append_right_inj]
  simp [List.cons_prefix_cons]

/-! ## The daemon's queue -/

/-- The queue of the daemon's model, between two calls of `enqueueRaw`. -/
def Client.of (q : Outbound) : Client := { send := q.send, overflow := q.overflow, writing := q.writing }

/-- `enqueueRaw` in one step is a run of the two. -/
theorem offer_refines (highWater : Nat) (q : Outbound) (f : Envelope) (tr : List Obs) :
    ∃ os, (system highWater).Run Lts.Free tr (Client.of q) (tr ++ os) (Client.of (q.offer highWater f)) ∧
      offered os = [f] := by
  by_cases hroom : q.send.length < highWater
  · have hstep : (system highWater).step (Client.of q) (.offer f) =
        some (Client.of (q.offer highWater f), [.enqueued f]) := by
      simp only [system, Outbound.offer, Client.of]
      rw [if_pos hroom, if_pos hroom]
    exact ⟨_, .single trivial hstep, rfl⟩
  · have hstep : (system highWater).step (Client.of q) (.offer f) =
        some ({ Client.of q with signalling := 1 }, [.dropped f]) := by
      simp only [system, Client.of]
      rw [if_neg hroom]
    have hsignal : (system highWater).step { Client.of q with signalling := 1 } .signal =
        some (Client.of (q.offer highWater f), []) := by
      simp only [system, Outbound.offer, Client.of]
      rw [if_neg hroom]
    refine ⟨[.dropped f], ?_, rfl⟩
    have hdropped : (system highWater).Run Lts.Free tr (Client.of q) (tr ++ [.dropped f])
        { Client.of q with signalling := 1 } := .single trivial hstep
    have hrun := hdropped.tail trivial hsignal
    rwa [List.append_nil] at hrun

/-- A turn of the daemon's write loop is a turn of this one. -/
theorem writeStep_refines {highWater : Nat} {h h' : Hub} {i : ConnId} {ch : WriteChoice}
    {os : List Hub.Obs} (hs : writeStep h i ch = some (h', os)) :
    ∃ c' os', (system highWater).step (Client.of (h.outbound i)) (.loop ch) = some (c', os') ∧
      c'.send = (h'.outbound i).send ∧ c'.writing = (h'.outbound i).writing ∧
      os = os'.filterMap fun o => o.write.map (Hub.Obs.written i) := by
  unfold writeStep at hs
  simp only at hs
  split at hs
  · rename_i hw
    have hstep : (system highWater).step (Client.of (h.outbound i)) (.loop ch) =
        turn (Client.of (h.outbound i)) ch := if_pos hw
    rw [hstep]
    split at hs
    · rename_i f rest hsend
      cases hs
      refine ⟨{ Client.of (h.outbound i) with send := rest }, [.written f], ?_, ?_, ?_, rfl⟩
      · simp [turn, Client.of, hsend]
      · simp
      · simp [Client.of]
    · rename_i f rest hsend
      cases hs
      refine ⟨{ Client.of (h.outbound i) with send := rest, writing := false }, [], ?_, ?_, ?_, rfl⟩
      · simp [turn, Client.of, hsend]
      · simp
      · simp
    · split at hs
      · rename_i hover
        cases hs
        refine ⟨{ Client.of (h.outbound i) with overflow := false, writing := false, closed := true }, [],
          ?_, ?_, ?_, rfl⟩
        · simp [turn, Client.of, hover]
        · simp [Client.of]
        · simp
      · cases hs
    · cases hs
      refine ⟨{ Client.of (h.outbound i) with writing := false }, [], rfl, ?_, ?_, rfl⟩
      · simp [Client.of]
      · simp
    · cases hs
  · cases hs

end Harness.WriteLoop
