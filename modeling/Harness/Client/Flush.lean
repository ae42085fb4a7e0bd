/-
# Harness.Client.Flush — the queue of commands, and the order in which it is sent.

A command enters the queue when it is issued, behind all others, and leaves it when an ack or an error frame
settles it, or with the whole queue when a snapshot of another session comes (`Requeued`). Whatever a turn
sends on a socket besides a hello is the queue as it stands after the turn, whole and in its order
(`step_sends`).
-/
import Harness.Client.Inversion

namespace Harness.Client

open Lib
open Wire (Json CommandKind CommandPayload)

/-! ## What is issued and what is sent -/

def Obs.issuedId : Obs → Option String
  | .issued id _ => some id
  | _ => none

/-- The ids of the commands issued, in order. -/
def issuedIds (os : List Obs) : List String := os.filterMap Obs.issuedId

def Obs.sentOn (i : SocketId) : Obs → Option Frame
  | .sent j f => if j = i then some f else none
  | _ => none

/-- The frames sent on socket `i`, in order. -/
def sentFrames (i : SocketId) (os : List Obs) : List Frame := os.filterMap (Obs.sentOn i)

def Frame.command? : Frame → Option CommandPayload
  | .command cmd => some cmd
  | .hello _ _ _ _ => none

/-- The commands among some frames. -/
def commands (fs : List Frame) : List CommandPayload := fs.filterMap Frame.command?

theorem commands_append (fs gs : List Frame) : commands (fs ++ gs) = commands fs ++ commands gs :=
  List.filterMap_append

/-- An observation that neither issues nor sends a command. -/
def Obs.Plain (o : Obs) : Prop := o.issuedId = none ∧ ∀ i, (o.sentOn i).bind Frame.command? = none

theorem Obs.Quiet.plain {s : SessionState} {o : Obs} (h : o.Quiet s) : o.Plain := by
  cases o with
  | issued => exact h.elim
  | sent j f =>
    cases f with
    | command => exact h.elim
    | hello =>
      refine ⟨rfl, fun i => ?_⟩
      by_cases hj : j = i <;> simp [Obs.sentOn, hj, Frame.command?]
  | _ => exact ⟨rfl, fun _ => rfl⟩

theorem issuedIds_plain {os : List Obs} (h : ∀ o ∈ os, o.Plain) : issuedIds os = [] :=
  List.filterMap_eq_nil_iff.mpr fun o ho => (h o ho).1

theorem commands_plain {os : List Obs} (h : ∀ o ∈ os, o.Plain) (i : SocketId) :
    commands (sentFrames i os) = [] := by
  rw [commands, sentFrames, List.filterMap_filterMap, List.filterMap_eq_nil_iff]
  exact fun o ho => (h o ho).2 i

/-- A queued command that goes out is not an issue. -/
theorem Obs.Resent.issuedId {c : HarnessClient} {o : Obs} (h : o.Resent c) : o.issuedId = none := by
  rcases h with h | ⟨i, cmd, rfl, -⟩
  · exact h.plain.1
  · rfl

theorem issuedIds_resent {c : HarnessClient} {os : List Obs} (h : ∀ o ∈ os, o.Resent c) :
    issuedIds os = [] :=
  List.filterMap_eq_nil_iff.mpr fun o ho => (h o ho).issuedId

/-! ## The queue from turn to turn -/

/-- `{ id, idempotencyKey: id, kind, payload }`. -/
def Request.payload (req : Request) (id : String) : CommandPayload :=
  { id := id, idempotencyKey := id, kind := req.command.1, payload := some req.command.2 }

/-- The frame settles the command `id`. -/
def Inbound.Settles (f : Inbound) (id : String) : Prop :=
  (∃ ack, f = .ack ack ∧ ack.get "commandId" = .str id) ∨
    ∃ err, f = .error err ∧ err.get "commandId" = .str id

/-- **`Requeued c a c' os`** — what a turn that observed `os` did to the queue and to the session it is for. -/
inductive Requeued (c : HarnessClient) (a : Action) (c' : HarnessClient) (os : List Obs) : Prop
  | issued {req : Request} {id : String} (ho : c'.outbox = c.outbox.set id (req.payload id))
      (hs : c'.session.sessionId = c.session.sessionId) (hos : issuedIds os = [id])
  | settled {f : Inbound} {id : String} (hd : Delivered c a f) (hf : f.Settles id)
      (ho : c'.outbox = c.outbox.delete id) (hs : c'.session.sessionId = c.session.sessionId)
      (hos : issuedIds os = [])
  | accepted {snap : JsRecord} (hd : Delivered c a (.snapshot snap))
      (ho : c'.outbox = if c.differs snap then ∅ else c.outbox)
      (hs : c'.session.sessionId = snap.get "sessionId") (hos : issuedIds os = [])
  | kept (ho : c'.outbox = c.outbox)
      (hs : c'.session.sessionId = c.session.sessionId ∨ c'.session.sessionId = .null)
      (hos : issuedIds os = [])

theorem Trans.requeued {c d : HarnessClient} {a : Action} (h : Trans c a d) (hout : c.out = []) :
    Requeued c a d d.out := by
  cases h with
  | silent h =>
    exact .kept h.outbox (.inl (by rw [h.session]))
      (issuedIds_plain fun o ho => (h.seen hout o ho).plain)
  | renewed h =>
    refine .kept h.outbox (.inr (by rw [h.session]; rfl)) (issuedIds_plain fun o ho => ?_)
    exact (h.seen hout o ho).elim (·.plain) (·.plain)
  | restored _ _ _ hs ho _ hobs =>
    refine .kept ho (.inl (by rw [hs])) ?_
    rw [hobs, hout]
    rfl
  | @issued req id _ _ _ hs ho _ hobs =>
    obtain ⟨os, hos, hq⟩ := hobs
    have hset : d.outbox = c.outbox.set id (req.payload id) := ho
    refine .issued hset (by rw [hs]) ?_
    rw [hos, hout]
    show id :: issuedIds os = [id]
    rw [issuedIds_resent hq]
  | accepted hd _ hs ho _ hobs =>
    obtain ⟨os, hos, hq⟩ := hobs
    refine .accepted hd ho (by rw [hs]; rfl) ?_
    rw [hos, hout]
    show issuedIds os = []
    exact issuedIds_resent hq
  | applied _ _ _ _ _ hs ho _ hobs =>
    obtain ⟨os, hos, hq⟩ := hobs
    refine .kept ho (.inl (by rw [hs, c.nextSession_sessionId])) ?_
    rw [hos, hout]
    show issuedIds os = []
    exact issuedIds_resent hq
  | discarded _ _ hc =>
    subst hc
    refine .kept rfl (.inl rfl) ?_
    show issuedIds (c.out ++ [_]) = []
    rw [hout]
    rfl
  | @settled f id o hd hf _ hc =>
    subst hc
    have hplain : o.issuedId = none := by
      rcases hf with ⟨_, _, _, rfl⟩ | ⟨_, _, _, rfl, _⟩ <;> rfl
    refine .settled hd ?_ rfl rfl ?_
    · rcases hf with ⟨ack, rfl, hid, -⟩ | ⟨err, rfl, hid, -, -⟩
      · exact .inl ⟨ack, rfl, hid⟩
      · exact .inr ⟨err, rfl, hid⟩
    · show issuedIds (c.out ++ [o]) = []
      rw [hout, List.nil_append, issuedIds, List.filterMap_cons_none hplain, List.filterMap_nil]
  | @orphaned err id hd hid _ _ hc =>
    subst hc
    refine .settled hd (.inr ⟨err, rfl, hid⟩) rfl rfl ?_
    show issuedIds (c.out ++ [.threw]) = []
    rw [hout]
    rfl

theorem HarnessClient.step_requeued {c c' : HarnessClient} {a : Action} {os : List Obs}
    (h : c.step a = some (c', os)) : Requeued c a c' os := by
  obtain ⟨d, ht, rfl, rfl⟩ := c.step_trans h
  have hq := ht.requeued rfl
  cases hq with
  | issued ho hs hos => exact .issued ho hs hos
  | settled hd hf ho hs hos => exact .settled hd hf ho hs hos
  | accepted hd ho hs hos => exact .accepted hd ho hs hos
  | kept ho hs hos => exact .kept ho hs hos

/-! ## The queue is sent whole -/

/-- No command was sent yet. -/
def HarnessClient.Unsent (c : HarnessClient) : Prop := ∀ i, commands (sentFrames i c.out) = []

/-- On every socket, the commands of the turn are none or the whole queue. -/
def HarnessClient.SendsQueue (c : HarnessClient) : Prop :=
  ∀ i, commands (sentFrames i c.out) = [] ∨ commands (sentFrames i c.out) = c.outbox.values

namespace HarnessClient

theorem unsent_of_plain {c : HarnessClient} (h : ∀ o ∈ c.out, o.Plain) : c.Unsent :=
  commands_plain h

theorem Unsent.sends {c : HarnessClient} (h : c.Unsent) : c.SendsQueue := fun i => .inl (h i)

/-- One more observation that sends no command. -/
theorem unsent_concat {c : HarnessClient} (os : List Obs) {o : Obs} (hout : c.out = os ++ [o])
    (hos : ∀ i, commands (sentFrames i os) = []) (ho : ∀ i, (o.sentOn i).bind Frame.command? = none) :
    c.Unsent := by
  intro i
  rw [hout, sentFrames, List.filterMap_append, commands_append]
  rw [← sentFrames, hos i, List.nil_append, commands, List.filterMap_filterMap,
    List.filterMap_eq_nil_iff]
  exact List.forall_mem_singleton.mpr (ho i)

theorem flushOutbox_sends {c : HarnessClient} (h : c.Unsent) : c.flushOutbox.SendsQueue := by
  unfold flushOutbox
  split
  · exact h.sends
  · rename_i j _
    split
    · intro i
      show commands (sentFrames i (c.out ++ _)) = [] ∨ commands (sentFrames i (c.out ++ _)) = _
      rw [sentFrames, List.filterMap_append, commands_append, ← sentFrames, h i, List.nil_append,
        List.filterMap_map, commands, List.filterMap_filterMap]
      by_cases hj : j = i
      · refine .inr ?_
        simp [Obs.sentOn, hj, Frame.command?]
      · refine .inl ?_
        simp [Obs.sentOn, hj]
    · exact h.sends

theorem unsent_nil {c : HarnessClient} (hout : c.out = []) : c.Unsent := by
  intro i
  rw [hout]
  rfl

theorem sendCommand_sends {c : HarnessClient} (hout : c.out = []) (req : Request) (id : String) :
    (c.sendCommand req id).SendsQueue := by
  unfold sendCommand
  split
  · exact (unsent_concat c.out rfl (unsent_nil hout) fun _ => rfl).sends
  · dsimp only
    exact flushOutbox_sends (unsent_concat c.out rfl (unsent_nil hout) fun _ => rfl)

theorem handleSnapshot_sends {c : HarnessClient} (hout : c.out = []) (snap : JsRecord) :
    (c.handleSnapshot snap).SendsQueue := by
  have htaken : (c.takeSnapshot snap).Unsent := unsent_concat c.out rfl (unsent_nil hout) fun _ => rfl
  have hphase (phase : ConnPhase) : ((c.takeSnapshot snap).setPhase phase).Unsent :=
    unsent_concat _ rfl htaken fun _ => rfl
  unfold handleSnapshot
  dsimp only
  split
  · exact flushOutbox_sends (hphase .live)
  · exact (hphase .syncing).sends

theorem acceptEvent_sends {c : HarnessClient} (hout : c.out = []) (ev : EventPayload) :
    (c.acceptEvent ev).SendsQueue := by
  have happlied : (emit { c with session := c.nextSession ev, gapSeq := none, gapCount := 0 }
      (.applied c.session.sessionId ev.seq)).Unsent :=
    unsent_concat c.out rfl (unsent_nil hout) fun _ => rfl
  unfold acceptEvent
  dsimp only
  split
  · exact flushOutbox_sends (unsent_concat _ rfl happlied fun _ => rfl)
  · exact (unsent_concat _ rfl happlied fun _ => rfl : (notify _).Unsent).sends

/-- The turn of a frame that reaches the handlers is `handleEnvelope`. -/
theorem turn_of_delivered {c d : HarnessClient} {a : Action} {f : Inbound} (ha : Delivered c a f)
    (h : c.turn a = some d) : ∃ e env, e.inbound = f ∧ d = c.handleEnvelope e env := by
  obtain ⟨i, data, env, s, e, rfl, hi, hopen, hatt, hrole, he, hf⟩ := ha
  rw [turn_message hi hopen, if_pos hatt, onmessage, he, hrole, Option.some.injEq] at h
  exact ⟨e, env, hf, h.symm⟩

theorem turn_sends {c d : HarnessClient} {a : Action} (h : c.turn a = some d) (hout : c.out = []) :
    d.SendsQueue := by
  cases c.turn_trans h with
  | silent hs => exact (unsent_of_plain fun o ho => (hs.seen hout o ho).plain).sends
  | renewed hs =>
    refine (unsent_of_plain fun o ho => ?_).sends
    exact (hs.seen hout o ho).elim (·.plain) (·.plain)
  | restored _ _ _ _ _ _ hobs => exact (unsent_concat _ hobs (unsent_nil hout) fun _ => rfl).sends
  | issued ha =>
    subst ha
    cases h
    exact sendCommand_sends hout _ _
  | accepted hd =>
    obtain ⟨e, env, he, rfl⟩ := turn_of_delivered hd h
    unfold handleEnvelope
    rw [he]
    exact handleSnapshot_sends hout _
  | @applied ev q hd hseq hgt hle =>
    obtain ⟨e, env, he, rfl⟩ := turn_of_delivered hd h
    unfold handleEnvelope
    rw [he]
    show (c.handleEvent ev env).SendsQueue
    rw [handleEvent_of_lt hseq hgt, if_neg (not_lt.mpr hle)]
    exact acceptEvent_sends hout _
  | discarded _ _ hc =>
    subst hc
    exact (unsent_concat _ rfl (unsent_nil hout) fun _ => rfl).sends
  | settled _ hf _ hc =>
    subst hc
    refine (unsent_concat _ rfl (unsent_nil (c := c.settle _) hout) fun _ => ?_).sends
    rcases hf with ⟨_, _, _, rfl⟩ | ⟨_, _, _, rfl, _⟩ <;> rfl
  | orphaned _ _ _ _ hc =>
    subst hc
    exact (unsent_concat _ rfl (unsent_nil (c := c.settle _) hout) fun _ => rfl).sends

/-- **The queue is sent whole and in its order.** -/
theorem step_sends {c c' : HarnessClient} {a : Action} {os : List Obs} (h : c.step a = some (c', os))
    (i : SocketId) :
    commands (sentFrames i os) = [] ∨ commands (sentFrames i os) = c'.outbox.values := by
  obtain ⟨d, hd, he⟩ := Option.map_eq_some_iff.mp h
  cases he
  exact turn_sends hd rfl i

end HarnessClient

end Harness.Client
