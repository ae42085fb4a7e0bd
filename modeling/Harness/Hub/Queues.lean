/-
# Harness.Hub.Queues — what became of a frame that was queued for a client.

A client's queue is fed by the goroutine that registers it, by the handler of its commands and by every
broadcast, and emptied by its write loop. The loop may stop at any time (a write fails, the overflow signal is
taken, the context is done), and then what waits is never written. `queue_flow` is the account while it runs: what
was queued is what was written, in order, followed by what waits. So a queue that has run empty has lost nothing,
unless it was full when a frame came (`nothing_dropped`), and a client that is served by an empty queue was
written every event since it joined (`all_written`).
-/
import Harness.Hub.Delivery
import Harness.Hub.Authentication
import Harness.Hub.Decision

namespace Harness.Hub

open Wire Lib

/-- The frame an observation puts on the queue of `c`. -/
def Obs.queuedFor (c : ConnId) : Obs → Option Envelope
  | .enqueued d f => if d = c then some f else none
  | _ => none

/-- The frame an observation takes off the queue of `c` and writes. -/
def Obs.writtenFor (c : ConnId) : Obs → Option Envelope
  | .written d f => if d = c then some f else none
  | _ => none

/-- What was queued for `c`, oldest first. -/
def queuedFor (c : ConnId) (tr : List Obs) : List Envelope := tr.filterMap (Obs.queuedFor c)

/-- What the write loop of `c` wrote, oldest first. -/
def writtenFor (c : ConnId) (tr : List Obs) : List Envelope := tr.filterMap (Obs.writtenFor c)

theorem queuedFor_append (c : ConnId) (t os : List Obs) :
    queuedFor c (t ++ os) = queuedFor c t ++ queuedFor c os :=
  List.filterMap_append

theorem writtenFor_append (c : ConnId) (t os : List Obs) :
    writtenFor c (t ++ os) = writtenFor c t ++ writtenFor c os :=
  List.filterMap_append

theorem mem_queuedFor {c : ConnId} {tr : List Obs} {f : Envelope} :
    f ∈ queuedFor c tr ↔ .enqueued c f ∈ tr := by
  constructor
  · intro h
    obtain ⟨o, ho, he⟩ := List.mem_filterMap.mp h
    unfold Obs.queuedFor at he
    split at he
    · rename_i d g
      split at he
      · rename_i hd
        cases he
        exact hd ▸ ho
      · cases he
    · cases he
  · intro h
    exact List.mem_filterMap.mpr ⟨_, h, if_pos rfl⟩

theorem mem_writtenFor {c : ConnId} {tr : List Obs} {f : Envelope} :
    f ∈ writtenFor c tr ↔ .written c f ∈ tr := by
  constructor
  · intro h
    obtain ⟨o, ho, he⟩ := List.mem_filterMap.mp h
    unfold Obs.writtenFor at he
    split at he
    · rename_i d g
      split at he
      · rename_i hd
        cases he
        exact hd ▸ ho
      · cases he
    · cases he
  · intro h
    exact List.mem_filterMap.mpr ⟨_, h, if_pos rfl⟩

/-- Observations that are not about the queue of `c`. -/
structure NoFrames (c : ConnId) (os : List Obs) : Prop where
  queued : queuedFor c os = []
  written : writtenFor c os = []
  dropped : os.countP (Obs.droppedTo c) = 0

/-- Of a client of which nothing privileged was seen, nothing of its queue was. -/
theorem no_frames {c : ConnId} {tr : List Obs} (h : ∀ o ∈ tr, ¬ o.privileged c) : NoFrames c tr where
  queued := by
    apply List.eq_nil_iff_forall_not_mem.mpr
    intro f hf
    exact h _ (mem_queuedFor.mp hf) rfl
  written := by
    apply List.eq_nil_iff_forall_not_mem.mpr
    intro f hf
    exact h _ (mem_writtenFor.mp hf) rfl
  dropped := by
    apply List.countP_eq_zero.mpr
    intro o ho hd
    cases o with
    | dropped d f =>
      have he : d = c := of_decide_eq_true hd
      exact h _ ho he
    | _ => cases hd

/-! ## What a step adds -/

/-- **`Appends c h h' os`** — the queue of `c` has grown by what `os` queued for it, and nothing was written. Had
it been full, the overflow signal would be up. -/
structure Appends (c : ConnId) (h h' : Hub) (os : List Obs) : Prop where
  send : (h'.outbound c).send = (h.outbound c).send ++ queuedFor c os
  writing : (h'.outbound c).writing = (h.outbound c).writing
  still : writtenFor c os = []
  room : (h'.outbound c).overflow = false →
    (h.outbound c).overflow = false ∧ os.countP (Obs.droppedTo c) = 0

theorem Appends.of_same {c : ConnId} {h h' : Hub} {os : List Obs} (heq : h'.outbound c = h.outbound c)
    (hos : NoFrames c os) : Appends c h h' os := by
  refine ⟨?_, by rw [heq], hos.written, fun hover => ⟨heq ▸ hover, hos.dropped⟩⟩
  rw [heq, hos.queued, List.append_nil]

theorem Appends.trans {c : ConnId} {h h' h'' : Hub} {os os' : List Obs} (h₁ : Appends c h h' os)
    (h₂ : Appends c h' h'' os') : Appends c h h'' (os ++ os') := by
  refine ⟨?_, h₂.writing.trans h₁.writing, ?_, fun hover => ?_⟩
  · rw [h₂.send, h₁.send, queuedFor_append, List.append_assoc]
  · rw [writtenFor_append, h₁.still, h₂.still]
    rfl
  · obtain ⟨hmid, hno'⟩ := h₂.room hover
    obtain ⟨hold, hno⟩ := h₁.room hmid
    refine ⟨hold, ?_⟩
    rw [List.countP_append, hno, hno']

/-- One more observation, of something else. -/
theorem Appends.cons {c : ConnId} {h h' : Hub} {o : Obs} {os : List Obs} (hq : o.queuedFor c = none)
    (hw : o.writtenFor c = none) (hd : o.droppedTo c = false) (ha : Appends c h h' os) :
    Appends c h h' (o :: os) := by
  refine ⟨?_, ha.writing, ?_, fun hover => ?_⟩
  · rw [queuedFor, List.filterMap_cons_none hq]
    exact ha.send
  · rw [writtenFor, List.filterMap_cons_none hw]
    exact ha.still
  · obtain ⟨hold, hno⟩ := ha.room hover
    refine ⟨hold, ?_⟩
    rw [List.countP_cons_of_neg (by rw [hd]; exact Bool.false_ne_true)]
    exact hno

theorem NoFrames.nil (c : ConnId) : NoFrames c [] := ⟨rfl, rfl, rfl⟩

theorem enqueueRaw_appends (cfg : Config) (h : Hub) (c d : ConnId) (f : Envelope) :
    Appends c h (enqueueRaw cfg h d f).1 [(enqueueRaw cfg h d f).2] := by
  by_cases hd : d = c
  · subst hd
    have hout : (enqueueRaw cfg h d f).1.outbound d =
        (h.outbound d).offer cfg.clientQueueHighWater f := Function.update_self ..
    by_cases hroom : (h.outbound d).send.length < cfg.clientQueueHighWater
    · have hobs : (enqueueRaw cfg h d f).2 = .enqueued d f := if_pos hroom
      rw [hobs]
      refine ⟨?_, enqueueRaw_writing cfg h d d f, rfl, fun hover => ⟨?_, rfl⟩⟩
      · rw [hout, Outbound.offer, if_pos hroom]
        simp [queuedFor, Obs.queuedFor]
      · rwa [hout, Outbound.offer, if_pos hroom] at hover
    · have hobs : (enqueueRaw cfg h d f).2 = .dropped d f := if_neg hroom
      rw [hobs]
      refine ⟨?_, enqueueRaw_writing cfg h d d f, rfl, fun hover => ?_⟩
      · rw [hout, Outbound.offer, if_neg hroom]
        exact (List.append_nil _).symm
      · -- the signal is up
        rw [hout, Outbound.offer, if_neg hroom] at hover
        cases hover
  · have hout : (enqueueRaw cfg h d f).1.outbound c = h.outbound c := Function.update_of_ne (Ne.symm hd) ..
    have hcases : (enqueueRaw cfg h d f).2 = .enqueued d f ∨ (enqueueRaw cfg h d f).2 = .dropped d f :=
      ite_eq_or_eq _ _ _
    rcases hcases with hobs | hobs
    · rw [hobs]
      exact .of_same hout ⟨by simp [queuedFor, Obs.queuedFor, hd], rfl, rfl⟩
    · rw [hobs]
      exact .of_same hout ⟨rfl, rfl, by simp [Obs.droppedTo, hd]⟩

theorem enqueueAll_appends {cfg : Config} {c d : ConnId} {fs : List Envelope} :
    ∀ {h h' : Hub} {os : List Obs}, enqueueAll cfg h d fs = (h', os) → Appends c h h' os := by
  induction fs with
  | nil =>
    intro h h' os he
    cases he
    exact .of_same rfl (.nil c)
  | cons f fs ih =>
    intro h h' os he
    cases he
    exact (enqueueRaw_appends cfg h c d f).trans (ih rfl)

theorem BroadcastTrans.appends {cfg : Config} {h h' : Hub} {ev : EventPayload} {pc : BroadcastPc}
    {pc' : Option BroadcastPc} {os : List Obs} (hb : BroadcastTrans cfg h ev pc h' pc' os) (c : ConnId) :
    Appends c h h' os := by
  cases hb with
  | copy | done => exact .of_same rfl (.nil c)
  | deliver => exact enqueueRaw_appends cfg h c _ _

theorem HandleTrans.appends {cfg : Config} {d : ConnId} {h h' : Hub} {dev : DeviceID} {cmd : CommandPayload}
    {pc : HandlerPc} {ch : Choice} {ph : ConnPhase} {os : List Obs}
    (ht : HandleTrans cfg d h dev cmd pc ch h' ph os) (c : ConnId) : Appends c h h' os := by
  cases ht with
  | noId => exact enqueueRaw_appends cfg h c d _
  | replay | ack | reject => exact (enqueueRaw_appends cfg h c d _).cons rfl rfl rfl
  | broadcast hb | broadcastDone hb => exact hb.appends c
  | execute hex =>
    cases hex with
    | @claim _ a =>
      have hout : (h.claim a.ask).outbound = h.outbound := by cases a <;> rfl
      exact .of_same (congrFun hout c) ⟨rfl, rfl, rfl⟩
    | proceed | refuse => exact .of_same rfl (.nil c)
  | suppress | accept | append | appendFails | command | commandFails => exact .of_same rfl ⟨rfl, rfl, rfl⟩

theorem IngestTrans.appends {cfg : Config} {h h' : Hub} {ph ph' : IngestPhase} {ch : Choice} {os : List Obs}
    (ht : IngestTrans cfg h ph ch h' ph' os) (c : ConnId) : Appends c h h' os := by
  cases ht with
  | receive | append | appendFails => exact .of_same rfl ⟨rfl, rfl, rfl⟩
  | @note ev =>
    refine .of_same (by rw [note_outbound]) ?_
    unfold Hub.note
    split <;> exact ⟨rfl, rfl, rfl⟩
  | broadcast hb | broadcastDone hb => exact hb.appends c

/-- **What a step does to the queue of `c`.** -/
inductive QueueTrans (c : ConnId) (w w' : World) (os : List Obs) : Prop
  | appends (h : Appends c w.hub w'.hub os)
  /-- a client that registers gets a new queue, with its batch in it -/
  | opens {dev : DeviceID} {k : Int} {snap : Snapshot} {events : List EventPayload}
      (hph : w.conns[c]? = some (.serving dev k (.register snap events)))
      (hsend : (w'.hub.outbound c).send = queuedFor c os) (hstill : writtenFor c os = [])
      (hroom : (w'.hub.outbound c).overflow = false → os.countP (Obs.droppedTo c) = 0)
  | writes {f : Envelope} (hos : os = [.written c f])
      (hsend : (w.hub.outbound c).send = f :: (w'.hub.outbound c).send)
      (hw : (w.hub.outbound c).writing = true)
      (hover : (w'.hub.outbound c).overflow = (w.hub.outbound c).overflow)
  | stops (hw : (w'.hub.outbound c).writing = false)

/-- A write loop writes the head of its queue, or stops. -/
theorem writeStep_queue {h h' : Hub} {d : ConnId} {ch : WriteChoice} {os : List Obs}
    (hs : writeStep h d ch = some (h', os)) :
    (∀ c, c ≠ d → h'.outbound c = h.outbound c) ∧
      ((∃ f, os = [.written d f] ∧ (h.outbound d).writing = true ∧
        (h.outbound d).send = f :: (h'.outbound d).send ∧
        (h'.outbound d).overflow = (h.outbound d).overflow) ∨
      (os = [] ∧ (h'.outbound d).writing = false)) := by
  have others (q : Outbound) : ∀ c, c ≠ d → Function.update h.outbound d q c = h.outbound c :=
    fun c hc => Function.update_of_ne hc ..
  have stopped {q : Outbound} (hq : q.writing = false) : (Function.update h.outbound d q d).writing = false := by
    rw [Function.update_self, hq]
  unfold writeStep at hs
  simp only at hs
  split at hs
  · rename_i hw
    split at hs
    · rename_i f rest hsend
      cases hs
      exact ⟨others _, .inl ⟨f, rfl, hw, hsend.trans (by simp), by simp⟩⟩
    · cases hs
      exact ⟨others _, .inr ⟨rfl, stopped rfl⟩⟩
    · split at hs
      · cases hs
        exact ⟨others _, .inr ⟨rfl, stopped rfl⟩⟩
      · cases hs
    · cases hs
      exact ⟨others _, .inr ⟨rfl, stopped rfl⟩⟩
    · cases hs
  · cases hs

theorem ConnTrans.queue {cfg : Config} {c d : ConnId} {w : World} {h' : Hub} {ph ph' : ConnPhase} {ch : Choice}
    {os : List Obs} (hph : w.conns[d]? = some ph) (ht : ConnTrans cfg d w.hub ph ch h' ph' os) :
    QueueTrans c w { w with hub := h', conns := w.conns.set d ph' } os := by
  cases ht with
  | handling ht => exact .appends (ht.appends c)
  | pairing ht =>
    exact .appends (.of_same (by rw [ht.frame.2.2]) (no_frames ht.unprivileged))
  | @serving dev k _ _ _ _ _ ht =>
    cases ht with
    | @register snap events payload h1 _ os' hh1 henq =>
      have ha : Appends c h1 h' (.registered d dev k :: os') := (enqueueAll_appends henq).cons rfl rfl rfl
      by_cases hc : c = d
      · subst hc
        have hnew : h1.outbound c = { writing := true } := by
          rw [hh1]
          exact Function.update_self ..
        refine .opens hph ?_ ha.still fun hover => (ha.room hover).2
        rw [ha.send, hnew]
        rfl
      · have hold : h1.outbound c = w.hub.outbound c := by
          rw [hh1]
          exact Function.update_of_ne hc ..
        exact .appends ⟨by rw [ha.send, hold], by rw [ha.writing, hold], ha.still, hold ▸ ha.room⟩
    | getSession | getEvents | getSince | quit => exact .appends (.of_same rfl ⟨rfl, rfl, rfl⟩)
  | turnedAway hos =>
    refine .appends (.of_same rfl (no_frames fun o ho hp => ?_))
    obtain ⟨code, msg, rfl⟩ := hos o ho
    exact hp
  | authenticated | unauthenticated | frame | skip | gone => exact .appends (.of_same rfl (.nil c))

theorem World.step_queue {cfg : Config} {w w' : World} {a : Action} {os : List Obs}
    (hs : w.step cfg a = some (w', os)) (c : ConnId) : QueueTrans c w w' os := by
  have hst : StepTrans cfg w a w' os := World.step_trans hs
  cases a with
  | write d ch =>
    obtain ⟨⟨h', os'⟩, hw, he⟩ := Option.map_eq_some_iff.mp hs
    cases he
    obtain ⟨hothers, hown⟩ := writeStep_queue hw
    by_cases hc : c = d
    · subst hc
      rcases hown with ⟨f, rfl, hon, hsend, hover⟩ | ⟨-, hoff⟩
      · exact .writes rfl hsend hon hover
      · exact .stops hoff
    · refine .appends (.of_same (hothers c hc) ?_)
      rcases hown with ⟨f, rfl, -⟩ | ⟨rfl, -⟩
      · exact ⟨rfl, by simp [writtenFor, Obs.writtenFor, Ne.symm hc], rfl⟩
      · exact .nil c
  | conn d ch =>
    cases hst with
    | conn hph ht => exact ht.queue hph
  | ingest ch =>
    cases hst with
    | ingest ht => exact .appends (ht.appends c)
  | _ =>
    cases hst
    all_goals exact .appends (.of_same rfl ⟨rfl, rfl, rfl⟩)

/-! ## The account -/

/-- **The account of a queue.** While the write loop runs, what was queued is what was written, followed by what
waits. -/
theorem queue_flow {cfg : Config} {P : List Obs → World → Action → Prop} {db : Store} {now : Int} {tr : List Obs}
    {w : World} (h : (system cfg).Run P [] (World.init cfg db now) tr w) (c : ConnId)
    (hw : (w.hub.outbound c).writing = true) :
    queuedFor c tr = writtenFor c tr ++ (w.hub.outbound c).send := by
  refine h.invariant (I := fun t u => (u.hub.outbound c).writing = true →
    queuedFor c t = writtenFor c t ++ (u.hub.outbound c).send) ?_ ?_ hw
  · intro hon
    cases hon
  · intro t u a u' os hr ih _ hs hon
    rw [queuedFor_append, writtenFor_append]
    cases World.step_queue hs c with
    | appends ha =>
      rw [ih (ha.writing ▸ hon), ha.still, ha.send, List.append_nil, List.append_assoc]
    | opens hph hsend hstill _ =>
      -- nothing was queued for it before
      have hunseen := unregistered hr fun dev k => unregistered_before hr hph rfl dev k
      have hno := no_frames hunseen.silent
      rw [hno.queued, hno.written, hsend, hstill]
      rfl
    | @writes f hos hsend hwriting _ =>
      have hwritten : writtenFor c os = [f] := by simp [hos, writtenFor, Obs.writtenFor]
      have hqueued : queuedFor c os = [] := by rw [hos]; rfl
      rw [ih hwriting, hsend, hqueued, hwritten, List.append_nil, List.append_assoc]
      rfl
    | stops hoff =>
      rw [hoff] at hon
      cases hon

/-- While the write loop runs and the overflow signal is down, no frame has met a full queue. -/
theorem nothing_dropped {cfg : Config} {P : List Obs → World → Action → Prop} {db : Store} {now : Int}
    {tr : List Obs} {w : World} (h : (system cfg).Run P [] (World.init cfg db now) tr w) {c : ConnId}
    (hw : (w.hub.outbound c).writing = true) (hover : (w.hub.outbound c).overflow = false) :
    tr.countP (Obs.droppedTo c) = 0 := by
  refine h.invariant (I := fun t u => (u.hub.outbound c).writing = true →
    (u.hub.outbound c).overflow = false → t.countP (Obs.droppedTo c) = 0) (fun _ _ => rfl) ?_ hw hover
  intro t u a u' os hr ih _ hs hon hdown
  rw [List.countP_append]
  cases World.step_queue hs c with
  | appends ha =>
    obtain ⟨hdown, hno⟩ := ha.room hdown
    rw [ih (ha.writing ▸ hon) hdown, hno]
  | opens hph _ _ hroom =>
    have hunseen := unregistered hr fun dev k => unregistered_before hr hph rfl dev k
    rw [(no_frames hunseen.silent).dropped, hroom hdown]
  | writes hos _ hwriting hsame =>
    rw [ih hwriting (hsame ▸ hdown), hos]
    rfl
  | stops hoff =>
    rw [hoff] at hon
    cases hon

/-- **A client whose queue has run empty was written every event since it joined**, where clients register without
a gap and no broadcast is under way. -/
theorem all_written {cfg : Config} {db : Store} {now : Int} {tr : List Obs} {w : World}
    (h : (system cfg).Run (RegistersWithoutGap cfg) [] (World.init cfg db now) tr w) {c : ConnId}
    {dev : DeviceID} {k : Int} (hreg : .registered c dev k ∈ tr) (hc : c ∈ w.hub.clients) (hsettled : w.Settled)
    (hw : (w.hub.outbound c).writing = true) (hover : (w.hub.outbound c).overflow = false)
    (hsend : (w.hub.outbound c).send = []) :
    ∀ ev ∈ w.log cfg, k < ev.seq → .written c (.event ev) ∈ tr := by
  have hcov : Fanout.Covered (fun ev => k < (ev.seq : Int)) (w.view cfg tr c) := by
    refine view_rule (J := fun k v => Fanout.Covered (fun ev => k < (ev.seq : Int)) v) ?_ ?_ h hreg hc
    · intro t u ch dev k snap batch _ hP hph
      exact hP c ch dev k snap batch rfl hph
    · intro t u a o t' u' k _ _ hv _ _ hJ
      exact hJ.step hv
  intro ev hev hk
  have hqueued : Obs.enqueued c (.event ev) ∈ tr := by
    rcases hcov ev hev hk with hoff | ⟨t, ht⟩
    · exact enqueued_of_offered hoff (not_dropped (nothing_dropped h hw hover))
    · have hnone : (w.fanout cfg tr).flight t = none := hsettled t
      rw [hnone] at ht
      exact ht.elim
  have hflow := queue_flow h c hw
  rw [hsend, List.append_nil] at hflow
  have hmem : Envelope.event ev ∈ queuedFor c tr := mem_queuedFor.mpr hqueued
  rw [hflow] at hmem
  exact mem_writtenFor.mp hmem

end Harness.Hub
