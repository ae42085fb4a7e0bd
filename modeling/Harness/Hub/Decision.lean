/-
# Harness.Hub.Decision — which answers tell a device that its command is decided.

A command is DECIDED when its key is recorded and its first receipt has appended its event or refused it;
from then on nothing is ever appended for the key. Every ack or error frame that names a command is queued
by a handler of that command on the connection the frame goes to (`StepTrans.answer_source`), and when a
handler answers or returns, its command is decided, unless it is a replay whose first receipt is still at
work on another connection (`decided_of_concludes`).
-/
import Harness.Hub.Idempotency
import Harness.Hub.Authentication

namespace Harness.Hub

open Wire Auth Lib

/-! ## Decided commands -/

/-- Handlers whose first receipt of the key is still to be decided. -/
def World.undecided (w : World) (dev : DeviceID) (k : String) : Nat :=
  w.conns.countP (ConnPhase.inHandler (forKey dev k HandlerPc.undecided))

/-- **`w.Decided dev k`** — the key was received, and its first receipt is over. -/
def World.Decided (w : World) (dev : DeviceID) (k : String) : Prop :=
  idempKey dev k ∈ w.hub.idempotency ∧ w.undecided dev k = 0

/-- A recorded key is not accepted again. -/
theorem StepTrans.accepted_of_recorded {cfg : Config} {w w' : World} {a : Action} {os : List Obs}
    (h : StepTrans cfg w a w' os) {dev : DeviceID} {k : String}
    (hk : idempKey dev k ∈ w.hub.idempotency) :
    idempKey dev k ∈ w'.hub.idempotency ∧ os.countP (Obs.acceptedFor dev k) = 0 := by
  rcases h.idempotency with ⟨hsame, hno⟩ | ⟨c, d, k', hnew, hins, rfl⟩
  · refine ⟨by rw [hsame]; exact hk, ?_⟩
    rw [List.countP_eq_zero]
    intro o ho hp
    cases o <;> simp only [Obs.acceptedFor, Bool.false_eq_true] at hp
    exact hno _ _ _ ho
  · refine ⟨by rw [hins]; exact Finset.mem_insert_of_mem hk, ?_⟩
    have hne : ¬ (d = dev ∧ k' = k) := by
      rintro ⟨rfl, rfl⟩
      exact hnew hk
    simp [Obs.acceptedFor, hne]

/-- What is decided stays decided. -/
theorem World.Decided.step {cfg : Config} {w w' : World} {a : Action} {os : List Obs}
    {dev : DeviceID} {k : String} (hd : w.Decided dev k) (h : StepTrans cfg w a w' os) :
    w'.Decided dev k := by
  obtain ⟨hmem, hacc⟩ := h.accepted_of_recorded hd.1
  have hled := h.decide_ledger dev k
  have hzero := hd.2
  refine ⟨hmem, ?_⟩
  unfold World.undecided at hzero ⊢
  omega

/-- An append or a refusal in the trace decides the key. -/
theorem decided_of_trace {cfg : Config} {P : List Obs → World → Action → Prop} {db : Store}
    {now : Int} {tr : List Obs} {w : World} (h : (system cfg).Run P [] (World.init cfg db now) tr w)
    {dev : DeviceID} {k : String} (htr : 0 < tr.countP (Obs.decidedFor dev k)) : w.Decided dev k := by
  have hone := accepted_once h dev k
  have hled := decided_eq_accepted h dev k
  have hpos : 0 < tr.countP (Obs.acceptedFor dev k) := by omega
  obtain ⟨o, ho, hacc⟩ := List.countP_pos_iff.mp hpos
  cases o with
  | accepted c d k' =>
    simp only [Obs.acceptedFor, decide_eq_true_eq] at hacc
    obtain ⟨rfl, rfl⟩ := hacc
    refine ⟨(mem_idempotency h d k').mpr ⟨c, ho⟩, ?_⟩
    unfold World.undecided
    omega
  | _ => cases hacc

theorem decided_of_effect {cfg : Config} {P : List Obs → World → Action → Prop} {db : Store}
    {now : Int} {tr : List Obs} {w : World} (h : (system cfg).Run P [] (World.init cfg db now) tr w)
    {dev : DeviceID} {k : String} (heff : EffectIn tr dev k) : w.Decided dev k := by
  have hpos := effectIn_iff.mp heff
  have hsplit := countP_decidedFor dev k tr
  exact decided_of_trace h (by omega)

/-- An append under a key happens while the key is undecided. -/
theorem not_decided_of_append {cfg : Config} {w w' : World} {a : Action} {c : ConnId} {dev : DeviceID}
    {k : String} {ev : EventPayload} (h : StepTrans cfg w a w' [.appended (.command c dev k) ev]) :
    ¬ w.Decided dev k := by
  rintro ⟨-, hzero⟩
  have hled := h.decide_ledger dev k
  unfold World.undecided at hzero
  have hone : [Obs.appended (.command c dev k) ev].countP (Obs.decidedFor dev k) = 1 := by
    simp [Obs.decidedFor, Obs.appendedFor]
  have hnone : [Obs.appended (.command c dev k) ev].countP (Obs.acceptedFor dev k) = 0 := by
    simp [Obs.acceptedFor]
  omega

/-- A step that appends does nothing else that is observed. -/
theorem StepTrans.appended_alone {cfg : Config} {w w' : World} {a : Action} {os : List Obs}
    (h : StepTrans cfg w a w' os) {wr : Writer} {ev : EventPayload} (ho : .appended wr ev ∈ os) :
    os = [.appended wr ev] := by
  rcases h.appends with hnil | ⟨wr', ev', rfl⟩
  · have hmem : ev ∈ os.filterMap Obs.appendedEvent := List.mem_filterMap.mpr ⟨_, ho, rfl⟩
    rw [hnil] at hmem
    cases hmem
  · rw [List.mem_singleton.mp ho]

/-! ## Handlers that answer or return -/

/-- The next step of the handler answers its command, or returns. -/
def HandlerPc.concludes : HandlerPc → Bool
  | .replay | .ack _ _ | .command _ _ | .reject _ _ => true
  | _ => false

/-- What the position of a handler says about its key. -/
def Underway (_ : ConnId) (ph : ConnPhase) (tr : List Obs) : Prop :=
  match ph with
  | .handling dev cmd (.broadcast _ _ _) | .handling dev cmd (.command _ _) => EffectIn tr dev (key cmd)
  | .handling dev cmd (.reject code _) => code = .agentError → EffectIn tr dev (key cmd)
  | _ => True

theorem underway {cfg : Config} {P : List Obs → World → Action → Prop} {db : Store} {now : Int}
    {tr : List Obs} {w : World} (h : (system cfg).Run P [] (World.init cfg db now) tr w) :
    ∀ c ph, w.conns[c]? = some ph → Underway c ph tr := by
  refine phase_rule ?_ trivial ?_ h
  · intro c ph t t' hp hu
    unfold Underway at hu ⊢
    split at hu
    · exact hu.mono hp
    · exact hu.mono hp
    · exact fun hcode => (hu hcode).mono hp
    · trivial
  · intro t u c ch ph h' ph' os hr _ hph hu ht
    cases ht with
    | handling hth =>
      cases hth with
      | ack =>
        have heff : EffectIn t _ _ := grounded hr c _ hph
        exact heff.mono (List.prefix_append _ _)
      | broadcast | broadcastDone => exact EffectIn.mono (List.prefix_append _ _) hu
      | commandFails => exact fun _ => EffectIn.mono (List.prefix_append _ _) hu
      | appendFails => exact nofun
      | execute hex =>
        cases hex with
        | refuse hcode => exact fun heq => absurd heq hcode
        | claim | proceed => trivial
      | _ => trivial
    | pairing ht => cases ht <;> trivial
    | serving ht => cases ht <;> trivial
    | _ => trivial

/-- **A handler that answers or returns leaves its command decided**; for a replay, that is up to the first
receipt. -/
theorem decided_of_concludes {cfg : Config} {P : List Obs → World → Action → Prop} {db : Store}
    {now : Int} {tr os : List Obs} {w w' : World} {c : ConnId} {ch : Choice} {dev : DeviceID}
    {cmd : CommandPayload} {pc : HandlerPc}
    (h : (system cfg).Run P [] (World.init cfg db now) tr w) (hP : P tr w (.conn c ch))
    (hph : w.conns[c]? = some (.handling dev cmd pc)) (hpc : pc.concludes = true)
    (hreplay : pc = .replay → w.undecided dev (key cmd) = 0)
    (hs : w.step cfg (.conn c ch) = some (w', os)) : w'.Decided dev (key cmd) := by
  have hst : StepTrans cfg w (.conn c ch) w' os := World.step_trans hs
  have hground := grounded h c _ hph
  have hunder := underway h c _ hph
  cases pc with
  | replay =>
    have hd : w.Decided dev (key cmd) := ⟨(mem_idempotency h _ _).mpr hground, hreplay rfl⟩
    exact hd.step hst
  | ack => exact (decided_of_effect h hground).step hst
  | command => exact (decided_of_effect h hunder).step hst
  | reject code msg =>
    by_cases hcode : code = .agentError
    · exact (decided_of_effect h (hunder hcode)).step hst
    · -- the refusal itself decides
      refine decided_of_trace (h.tail hP hs) ?_
      have hrefused : 0 < os.countP (Obs.decidedFor dev (key cmd)) := by
        cases hst with
        | conn hph0 ht =>
          rw [hph] at hph0
          cases hph0
          cases ht with
          | handling ht =>
            cases ht with
            | reject =>
              refine List.countP_pos_iff.mpr ⟨_, List.mem_cons_self, ?_⟩
              simp [Obs.decidedFor, Obs.appendedFor, Obs.refusedFor, hcode]
      rw [List.countP_append]
      omega
  | _ => cases hpc

/-- A handler returns from one of these positions, or without a key. -/
theorem HandleTrans.returns {cfg : Config} {c : ConnId} {h h' : Hub} {dev : DeviceID}
    {cmd : CommandPayload} {pc : HandlerPc} {ch : Choice} {ph : ConnPhase} {os : List Obs}
    (ht : HandleTrans cfg c h dev cmd pc ch h' ph os) :
    (∃ pc', ph = .handling dev cmd pc') ∨ (ph = .reading dev ∧ (cmd.id = "" ∨ pc.concludes = true)) := by
  cases ht with
  | noId hid => exact .inr ⟨rfl, .inl hid⟩
  | replay | command | reject => exact .inr ⟨rfl, .inr rfl⟩
  | _ => exact .inl ⟨_, rfl⟩

/-! ## Answers -/

/-- The command a frame answers. -/
def answeredId : Envelope → Option String
  | .ack id _ | .error id _ _ => some id
  | _ => none

/-- What a handler queues: events, and answers to its command on its own connection. -/
theorem HandleTrans.offers {cfg : Config} {c : ConnId} {h h' : Hub} {dev : DeviceID}
    {cmd : CommandPayload} {pc : HandlerPc} {ch : Choice} {ph : ConnPhase} {os : List Obs}
    (ht : HandleTrans cfg c h dev cmd pc ch h' ph os) {o : Obs} (ho : o ∈ os) {c' : ConnId}
    {f : Envelope} (hoff : o.offer = some (c', f)) :
    (∃ ev, f = .event ev) ∨
      (c' = c ∧ (answeredId f = some "" ∨ (answeredId f = some cmd.id ∧ pc.concludes = true))) := by
  have queued {f' : Envelope} (ho : o = (enqueueRaw cfg h c f').2) : c' = c ∧ f = f' := by
    rw [ho, enqueueRaw_offer] at hoff
    cases hoff
    exact ⟨rfl, rfl⟩
  cases ht with
  | noId =>
    obtain ⟨rfl, rfl⟩ := queued (List.mem_singleton.mp ho)
    exact .inr ⟨rfl, .inl rfl⟩
  | replay | ack | reject =>
    rcases List.mem_pair.mp ho with rfl | ho
    · cases hoff
    · obtain ⟨rfl, rfl⟩ := queued ho
      exact .inr ⟨rfl, .inr ⟨rfl, rfl⟩⟩
  | broadcast hb | broadcastDone hb =>
    obtain ⟨d, hd⟩ := hb.frame.2.2.2 o ho
    rw [hd] at hoff
    cases hoff
    exact .inl ⟨_, rfl⟩
  | execute hex =>
    cases hex with
    | claim =>
      cases List.mem_singleton.mp ho
      cases hoff
    | proceed | refuse => exact absurd ho List.not_mem_nil
  | suppress | accept | append | command | commandFails =>
    cases List.mem_singleton.mp ho
    cases hoff
  | appendFails => exact absurd ho List.not_mem_nil

/-- A pairing queues nothing. -/
theorem PairTrans.offers {cfg : Config} {c : ConnId} {h h' : Hub} {p : Attempt} {pc : PairPc} {ch : Choice}
    {ph : ConnPhase} {os : List Obs} (ht : PairTrans cfg c h p pc ch h' ph os) :
    ∀ o ∈ os, o.offer = none := by
  intro o ho
  cases ht with
  | peek | ask | check | consumeLost => exact absurd ho List.not_mem_nil
  | consume | allowed | approve | consumeOwn =>
    cases List.mem_singleton.mp ho
    rfl
  | issue | issueFails => rcases List.mem_pair.mp ho with rfl | rfl <;> rfl
  | quit _ hos => rcases hos o ho with ⟨code, msg, rfl⟩ | rfl <;> rfl

/-- The ingestion loop queues events. -/
theorem IngestTrans.offers {cfg : Config} {h h' : Hub} {ph ph' : IngestPhase} {ch : Choice} {os : List Obs}
    (ht : IngestTrans cfg h ph ch h' ph' os) {o : Obs} (ho : o ∈ os) {c : ConnId} {f : Envelope}
    (hoff : o.offer = some (c, f)) : ∃ ev, f = .event ev := by
  cases ht with
  | receive | appendFails => exact absurd ho List.not_mem_nil
  | append =>
    cases List.mem_singleton.mp ho
    cases hoff
  | note =>
    unfold Hub.note at ho
    split at ho
    · cases List.mem_singleton.mp ho
      cases hoff
    · cases List.mem_singleton.mp ho
      cases hoff
    · exact absurd ho List.not_mem_nil
  | broadcast hb | broadcastDone hb =>
    obtain ⟨d, hd⟩ := hb.frame.2.2.2 o ho
    rw [hd] at hoff
    cases hoff
    exact ⟨_, rfl⟩

/-- What a connection queues: events, answers to the command it handles, the batch of its registration. -/
theorem ConnTrans.offers {cfg : Config} {c : ConnId} {h h' : Hub} {ph ph' : ConnPhase} {ch : Choice}
    {os : List Obs} (ht : ConnTrans cfg c h ph ch h' ph' os) {o : Obs} (ho : o ∈ os) {c' : ConnId}
    {f : Envelope} (hoff : o.offer = some (c', f)) :
    (∃ ev, f = .event ev) ∨
      (∃ dev cmd pc, ph = .handling dev cmd pc ∧ c' = c ∧
        (answeredId f = some "" ∨ (answeredId f = some cmd.id ∧ pc.concludes = true))) ∨
      ∃ dev k snap events p, ph = .serving dev k (.register snap events) ∧ f = .snapshot p := by
  cases ht with
  | handling ht => exact (ht.offers ho hoff).imp_right fun hans => .inl ⟨_, _, _, rfl, hans⟩
  | serving ht =>
    cases ht with
    | register _ henq =>
      rcases List.mem_cons.mp ho with rfl | ho
      · cases hoff
      · obtain ⟨f', hf', hoff'⟩ := enqueueAll_obs henq o ho
        rw [hoff'] at hoff
        cases hoff
        rcases List.mem_cons.mp hf' with rfl | hf'
        · exact .inr (.inr ⟨_, _, _, _, _, rfl, rfl⟩)
        · obtain ⟨ev, -, rfl⟩ := List.mem_map.mp hf'
          exact .inl ⟨ev, rfl⟩
    | getSession | getEvents | getSince => exact absurd ho List.not_mem_nil
    | quit =>
      cases List.mem_singleton.mp ho
      cases hoff
  | pairing ht =>
    rw [ht.offers o ho] at hoff
    cases hoff
  | turnedAway hos =>
    obtain ⟨code, msg, rfl⟩ := hos o ho
    cases hoff
  | authenticated | unauthenticated | frame | skip | gone => exact absurd ho List.not_mem_nil

/-- **What is queued**, and by whom. -/
theorem StepTrans.offers {cfg : Config} {w w' : World} {a : Action} {os : List Obs}
    (h : StepTrans cfg w a w' os) {o : Obs} (ho : o ∈ os) {c : ConnId} {f : Envelope}
    (hoff : o.offer = some (c, f)) :
    (∃ ev, f = .event ev) ∨ ∃ c' ch ph, a = .conn c' ch ∧ w.conns[c']? = some ph ∧
      ((∃ dev cmd pc, ph = .handling dev cmd pc ∧ c = c' ∧
        (answeredId f = some "" ∨ (answeredId f = some cmd.id ∧ pc.concludes = true))) ∨
      ∃ dev k snap events p, ph = .serving dev k (.register snap events) ∧ f = .snapshot p) := by
  cases h with
  | conn hph ht => exact (ht.offers ho hoff).imp_right fun hconn => ⟨_, _, _, rfl, hph, hconn⟩
  | ingest ht => exact .inl (ht.offers ho hoff)
  | write _ hos =>
    rcases hos with ⟨f', rfl, -⟩ | rfl
    · cases List.mem_singleton.mp ho
      cases hoff
    · exact absurd ho List.not_mem_nil
  | accept | pairApproveGet | pairApproveLost | clock => exact absurd ho List.not_mem_nil
  | pairGenerate | pairApproveSet | pairRevoke =>
    cases List.mem_singleton.mp ho
    cases hoff

/-- **Every answer to a command is queued by a handler of the command**, for its own connection. -/
theorem StepTrans.answer_source {cfg : Config} {w w' : World} {a : Action} {os : List Obs}
    (h : StepTrans cfg w a w' os) {o : Obs} (ho : o ∈ os) {c : ConnId} {f : Envelope} {k : String}
    (hoff : o.offer = some (c, f)) (hk : answeredId f = some k) :
    k = "" ∨ ∃ ch dev cmd pc, a = .conn c ch ∧ w.conns[c]? = some (.handling dev cmd pc) ∧
      k = cmd.id ∧ pc.concludes = true := by
  rcases h.offers ho hoff with ⟨ev, rfl⟩ |
    ⟨c', ch, ph, rfl, hph, ⟨dev, cmd, pc, rfl, rfl, hans⟩ | ⟨dev, n, snap, events, p, rfl, rfl⟩⟩
  · cases hk
  · rw [hk] at hans
    rcases hans with hans | ⟨hans, hpc⟩
    · cases hans
      exact .inl rfl
    · cases hans
      exact .inr ⟨ch, dev, cmd, pc, rfl, hph, rfl, hpc⟩
  · cases hk

/-! ## Frames on their way -/

theorem enqueueRaw_send {cfg : Config} {h : Hub} {c d : ConnId} {f g : Envelope}
    (hg : g ∈ ((enqueueRaw cfg h c f).1.outbound d).send) :
    g ∈ (h.outbound d).send ∨ (enqueueRaw cfg h c f).2.offer = some (d, g) := by
  rw [enqueueRaw_offer]
  by_cases hd : d = c
  · subst hd
    have hout : (enqueueRaw cfg h d f).1.outbound d =
        (h.outbound d).offer cfg.clientQueueHighWater f := Function.update_self ..
    rw [hout, Outbound.offer] at hg
    split at hg
    · rcases List.mem_append.mp hg with hg | hg
      · exact .inl hg
      · exact .inr (by rw [List.mem_singleton.mp hg])
    · exact .inl hg
  · have hout : (enqueueRaw cfg h c f).1.outbound d = h.outbound d := Function.update_of_ne hd ..
    rw [hout] at hg
    exact .inl hg

theorem enqueueAll_send {cfg : Config} {c d : ConnId} {fs : List Envelope} {g : Envelope} :
    ∀ {h h' : Hub} {os : List Obs}, enqueueAll cfg h c fs = (h', os) → g ∈ (h'.outbound d).send →
      g ∈ (h.outbound d).send ∨ ∃ o ∈ os, o.offer = some (d, g) := by
  induction fs with
  | nil =>
    intro h h' os he hg
    cases he
    exact .inl hg
  | cons f fs ih =>
    intro h h' os he hg
    cases he
    rcases ih (h := (enqueueRaw cfg h c f).1) rfl hg with hold | ⟨o, ho, hoff⟩
    · rcases enqueueRaw_send hold with hold | hoff
      · exact .inl hold
      · exact .inr ⟨_, List.mem_cons_self, hoff⟩
    · exact .inr ⟨o, List.mem_cons_of_mem _ ho, hoff⟩

theorem BroadcastTrans.send {cfg : Config} {h h' : Hub} {ev : EventPayload} {pc : BroadcastPc}
    {pc' : Option BroadcastPc} {os : List Obs} (ht : BroadcastTrans cfg h ev pc h' pc' os) {d : ConnId}
    {g : Envelope} (hg : g ∈ (h'.outbound d).send) :
    g ∈ (h.outbound d).send ∨ ∃ o ∈ os, o.offer = some (d, g) := by
  cases ht with
  | copy | done => exact .inl hg
  | deliver => exact (enqueueRaw_send hg).imp_right fun hoff => ⟨_, List.mem_singleton_self _, hoff⟩

theorem HandleTrans.send {cfg : Config} {c : ConnId} {h h' : Hub} {dev : DeviceID} {cmd : CommandPayload}
    {pc : HandlerPc} {ch : Choice} {ph : ConnPhase} {os : List Obs}
    (ht : HandleTrans cfg c h dev cmd pc ch h' ph os) {d : ConnId} {g : Envelope}
    (hg : g ∈ (h'.outbound d).send) :
    g ∈ (h.outbound d).send ∨ ∃ o ∈ os, o.offer = some (d, g) := by
  cases ht with
  | noId => exact (enqueueRaw_send hg).imp_right fun hoff => ⟨_, List.mem_singleton_self _, hoff⟩
  | replay | ack | reject =>
    exact (enqueueRaw_send hg).imp_right fun hoff =>
      ⟨_, List.mem_cons_of_mem _ (List.mem_singleton_self _), hoff⟩
  | broadcast hb | broadcastDone hb => exact hb.send hg
  | execute hex =>
    cases hex with
    | @claim _ a => cases h2 : a.ask <;> (rw [h2] at hg; exact .inl hg)
    | proceed | refuse => exact .inl hg
  | suppress | accept | append | appendFails | command | commandFails => exact .inl hg

@[simp] theorem note_outbound (h : Hub) (ev : EventPayload) : (note h ev).1.outbound = h.outbound := by
  unfold note
  split <;> rfl

theorem IngestTrans.send {cfg : Config} {h h' : Hub} {ph ph' : IngestPhase} {ch : Choice} {os : List Obs}
    (ht : IngestTrans cfg h ph ch h' ph' os) {d : ConnId} {g : Envelope}
    (hg : g ∈ (h'.outbound d).send) :
    g ∈ (h.outbound d).send ∨ ∃ o ∈ os, o.offer = some (d, g) := by
  cases ht with
  | broadcast hb | broadcastDone hb => exact hb.send hg
  | note =>
    rw [note_outbound] at hg
    exact .inl hg
  | receive | append | appendFails => exact .inl hg

theorem ConnTrans.send {cfg : Config} {c : ConnId} {h h' : Hub} {ph ph' : ConnPhase} {ch : Choice}
    {os : List Obs} (ht : ConnTrans cfg c h ph ch h' ph' os) {d : ConnId} {g : Envelope}
    (hg : g ∈ (h'.outbound d).send) :
    g ∈ (h.outbound d).send ∨ ∃ o ∈ os, o.offer = some (d, g) := by
  cases ht with
  | handling ht => exact ht.send hg
  | pairing ht =>
    rw [ht.frame.2.2] at hg
    exact .inl hg
  | serving ht =>
    cases ht with
    | register hh1 henq =>
      rcases enqueueAll_send henq hg with hold | ⟨o, ho, hoff⟩
      · -- the queue of a client that registers is new
        subst hh1
        by_cases hd : d = c
        · subst hd
          simp at hold
        · simp only [Function.update_of_ne hd] at hold
          exact .inl hold
      · exact .inr ⟨o, List.mem_cons_of_mem _ ho, hoff⟩
    | getSession | getEvents | getSince | quit => exact .inl hg
  | authenticated | unauthenticated | turnedAway | frame | skip | gone => exact .inl hg

/-- A write loop takes frames off its queue. -/
theorem writeStep_send {h h' : Hub} {c : ConnId} {ch : WriteChoice} {os : List Obs}
    (hs : writeStep h c ch = some (h', os)) (d : ConnId) :
    (∀ g ∈ (h'.outbound d).send, g ∈ (h.outbound d).send) ∧
      ∀ g, .written d g ∈ os → g ∈ (h.outbound d).send := by
  have put {q : Outbound} (hq : ∀ g ∈ q.send, g ∈ (h.outbound c).send) :
      ∀ g ∈ (Function.update h.outbound c q d).send, g ∈ (h.outbound d).send := by
    intro g hg
    by_cases hd : d = c
    · subst hd
      rw [Function.update_self] at hg
      exact hq g hg
    · rwa [Function.update_of_ne hd] at hg
  unfold writeStep at hs
  simp only at hs
  split at hs
  · split at hs
    · rename_i f rest hsend
      cases hs
      refine ⟨put fun g hg => ?_, fun g hg => ?_⟩
      · rw [hsend]
        exact List.mem_cons_of_mem f hg
      · cases List.mem_singleton.mp hg
        rw [hsend]
        exact List.mem_cons_self
    · rename_i f rest hsend
      cases hs
      refine ⟨put fun g hg => ?_, fun g hg => absurd hg List.not_mem_nil⟩
      rw [hsend]
      exact List.mem_cons_of_mem f hg
    · split at hs
      · cases hs
        exact ⟨put fun g hg => hg, fun g hg => absurd hg List.not_mem_nil⟩
      · cases hs
    · cases hs
      exact ⟨put fun g hg => hg, fun g hg => absurd hg List.not_mem_nil⟩
    · cases hs
  · cases hs

/-- **A queue holds what it held and what was offered.** -/
theorem World.step_send {cfg : Config} {w w' : World} {a : Action} {os : List Obs}
    (hs : w.step cfg a = some (w', os)) {d : ConnId} {g : Envelope}
    (hg : g ∈ (w'.hub.outbound d).send) :
    g ∈ (w.hub.outbound d).send ∨ ∃ o ∈ os, o.offer = some (d, g) := by
  have hst : StepTrans cfg w a w' os := World.step_trans hs
  cases a with
  | write c ch =>
    obtain ⟨⟨h', os'⟩, hw, he⟩ := Option.map_eq_some_iff.mp hs
    cases he
    exact .inl ((writeStep_send hw d).1 g hg)
  | conn c ch =>
    cases hst with
    | conn _ ht => exact ht.send hg
  | ingest ch =>
    cases hst with
    | ingest ht => exact ht.send hg
  | _ =>
    cases hst
    all_goals exact .inl hg

/-- **A write loop writes what was in its queue.** -/
theorem World.step_written {cfg : Config} {w w' : World} {a : Action} {os : List Obs}
    (hs : w.step cfg a = some (w', os)) {d : ConnId} {g : Envelope} (hg : .written d g ∈ os) :
    g ∈ (w.hub.outbound d).send := by
  have hst : StepTrans cfg w a w' os := World.step_trans hs
  cases hst with
  | conn _ ht =>
    rcases ht.obs _ hg with hsrc | hsrc | hsrc
    · rename_i ph _ _ _
      cases ph <;> cases hsrc
    · cases hsrc
    · cases hsrc
  | ingest ht => rcases ht.obs _ hg with hsrc | hsrc <;> cases hsrc
  | write =>
    obtain ⟨⟨h', os'⟩, hw, he⟩ := Option.map_eq_some_iff.mp hs
    cases he
    exact (writeStep_send hw d).2 g hg
  | accept | pairApproveGet | pairApproveLost | clock => exact absurd hg List.not_mem_nil
  | pairGenerate | pairApproveSet | pairRevoke => cases List.mem_singleton.mp hg

/-- Handlers queue their answers. -/
theorem HandleTrans.direct {cfg : Config} {c : ConnId} {h h' : Hub} {dev : DeviceID} {cmd : CommandPayload}
    {pc : HandlerPc} {ch : Choice} {ph : ConnPhase} {os : List Obs}
    (ht : HandleTrans cfg c h dev cmd pc ch h' ph os) (d : ConnId) (f : Envelope) : .direct d f ∉ os := by
  intro ho
  cases ht with
  | noId => exact (mem_queued rfl).mp ho
  | replay | ack | reject =>
    rw [mem_answered rfl] at ho
    cases ho
  | execute hex => cases hex <;> simp at ho
  | broadcast hb | broadcastDone hb =>
    obtain ⟨c', hc'⟩ := hb.frame.2.2.2 _ ho
    cases hc'
  | suppress | accept | append | appendFails | command | commandFails => simp at ho

/-- What is written to a connection directly is an error that names no command, or a credential. -/
theorem ConnTrans.direct {cfg : Config} {c : ConnId} {h h' : Hub} {ph ph' : ConnPhase} {ch : Choice}
    {os : List Obs} (ht : ConnTrans cfg c h ph ch h' ph' os) {d : ConnId} {f : Envelope}
    (ho : .direct d f ∈ os) :
    answeredId f = some "" ∨ ∃ dev name credential, f = .paired dev name credential := by
  cases ht with
  | turnedAway hos =>
    obtain ⟨code, msg, he⟩ := hos _ ho
    cases he
    exact .inl rfl
  | pairing ht =>
    cases ht with
    | peek | ask | check | consumeLost => exact absurd ho List.not_mem_nil
    | consume | allowed | approve | consumeOwn => cases List.mem_singleton.mp ho
    | issue =>
      rcases List.mem_pair.mp ho with he | he
      · cases he
      · cases he
        exact .inr ⟨_, _, _, rfl⟩
    | issueFails =>
      rcases List.mem_pair.mp ho with he | he
      · cases he
      · cases he
        exact .inl rfl
    | quit _ hos =>
      rcases hos _ ho with ⟨code, msg, he⟩ | he
      · cases he
        exact .inl rfl
      · cases he
  | serving ht =>
    cases ht with
    | quit =>
      cases List.mem_singleton.mp ho
      exact .inl rfl
    | register _ henq =>
      rcases List.mem_cons.mp ho with he | ho
      · cases he
      · obtain ⟨f', -, hoff⟩ := enqueueAll_obs henq _ ho
        cases hoff
    | getSession | getEvents | getSince => exact absurd ho List.not_mem_nil
  | handling ht => exact absurd ho (ht.direct d f)
  | authenticated | unauthenticated | frame | skip | gone => exact absurd ho List.not_mem_nil

theorem StepTrans.direct {cfg : Config} {w w' : World} {a : Action} {os : List Obs}
    (h : StepTrans cfg w a w' os) {d : ConnId} {f : Envelope} (ho : .direct d f ∈ os) :
    answeredId f = some "" ∨ ∃ dev name credential, f = .paired dev name credential := by
  obtain ⟨ch, ph, h', ph', rfl, -, -, ht, -⟩ := h.of_conn ho (c := d) rfl
  exact ht.direct ho

/-! ## The session of a snapshot -/

/-- The snapshot a connection is about to send is of the daemon's session. -/
def HomeSnapshot (cfg : Config) (_ : ConnId) (ph : ConnPhase) (_ : List Obs) : Prop :=
  match ph with
  | .serving _ _ (.getSince snap) | .serving _ _ (.register snap _) => snap.sessionID = cfg.sessionID
  | _ => True

theorem homeSnapshot {cfg : Config} {P : List Obs → World → Action → Prop} {db : Store} {now : Int}
    {tr : List Obs} {w : World} (h : (system cfg).Run P [] (World.init cfg db now) tr w) :
    ∀ c ph, w.conns[c]? = some ph → HomeSnapshot cfg c ph tr := by
  refine phase_rule (fun _ hI => hI) trivial ?_ h
  intro t u c ch ph h' ph' os _ _ _ hI ht
  cases ht with
  | serving ht =>
    cases ht with
    | getEvents => rfl
    | getSince => exact hI
    | getSession | register | quit => trivial
  | pairing ht => cases ht <;> trivial
  | handling ht => cases ht <;> trivial
  | _ => trivial

/-- The snapshot of a registration is the one that was read. -/
theorem serveStep_register {cfg : Config} {c : ConnId} {h h' : Hub} {dev : DeviceID} {k : Int}
    {snap : Snapshot} {events : List EventPayload} {ch : Choice} {ph : ConnPhase} {os : List Obs}
    (hs : serveStep cfg c h dev k (.register snap events) ch = some (h', ph, os)) {o : Obs} (ho : o ∈ os)
    {d : ConnId} {p : SnapshotPayload} (hoff : o.offer = some (d, .snapshot p)) :
    p.sessionID = snap.sessionID := by
  cases ch with
  | call out =>
    cases hs
    rcases List.mem_cons.mp ho with rfl | ho
    · cases hoff
    · obtain ⟨f, hf, hoff'⟩ := enqueueAll_obs rfl o ho
      rw [hoff'] at hoff
      cases hoff
      rcases List.mem_cons.mp hf with hf | hf
      · cases hf
        rfl
      · obtain ⟨ev, -, hev⟩ := List.mem_map.mp hf
        cases hev
  | _ => cases hs

/-- **Every snapshot that is queued is of the daemon's session.** -/
theorem snapshot_session {cfg : Config} {P : List Obs → World → Action → Prop} {db : Store} {now : Int}
    {tr os : List Obs} {w w' : World} {a : Action}
    (h : (system cfg).Run P [] (World.init cfg db now) tr w) (hs : w.step cfg a = some (w', os)) {o : Obs}
    (ho : o ∈ os) {c : ConnId} {p : SnapshotPayload} (hoff : o.offer = some (c, .snapshot p)) :
    p.sessionID = cfg.sessionID := by
  rcases (World.step_trans hs).offers ho hoff with ⟨ev, hev⟩ |
    ⟨c', ch, ph, rfl, hph, ⟨dev, cmd, pc, rfl, rfl, hans⟩ | ⟨dev, n, snap, events, p', rfl, -⟩⟩
  · cases hev
  · rcases hans with hans | ⟨hans, -⟩ <;> cases hans
  · have hhome : snap.sessionID = cfg.sessionID := homeSnapshot h c' _ hph
    simp only [World.step, hph, Option.map_eq_some_iff] at hs
    obtain ⟨r, hr, he⟩ := hs
    cases he
    rw [← hhome]
    exact serveStep_register hr ho hoff

/-! ## The command a connection is working on -/

theorem World.step_conn {cfg : Config} {w w' : World} {c : ConnId} {ch : Choice} {os : List Obs}
    (hs : w.step cfg (.conn c ch) = some (w', os)) :
    ∃ ph h' ph', w.conns[c]? = some ph ∧ connStep cfg c w.hub ph ch = some (h', ph', os) ∧
      w' = { w with hub := h', conns := w.conns.set c ph' } := by
  simp only [World.step] at hs
  split at hs
  · cases hs
  · rename_i ph hph
    obtain ⟨⟨h', ph', os'⟩, hc, he⟩ := Option.map_eq_some_iff.mp hs
    cases he
    exact ⟨ph, h', ph', hph, hc, rfl⟩

/-- Only a connection in its read loop takes a command. -/
theorem connStep_frame {cfg : Config} {c : ConnId} {h h' : Hub} {ph ph' : ConnPhase} {cmd : CommandPayload}
    {os : List Obs} (hs : connStep cfg c h ph (.frame cmd) = some (h', ph', os)) :
    ∃ dev, ph = .reading dev ∧ h' = h ∧ ph' = .handling dev cmd .start ∧ os = [] := by
  cases ph with
  | reading dev =>
    cases hs
    exact ⟨dev, rfl, rfl, rfl, rfl⟩
  | readHello | closed => cases hs
  | pairing p pc => cases pc <;> cases hs
  | serving dev k pc => cases pc <;> cases hs
  | handling dev cmd' pc =>
    cases pc with
    | broadcast ev out pc =>
      cases pc with
      | copy => cases hs
      | send rest => cases rest <;> cases hs
    | _ => cases hs

/-- The id of the command a connection is working on. -/
def ConnPhase.workingOn : ConnPhase → List String
  | .handling _ cmd _ => [cmd.id]
  | _ => []

/-- **A connection works on one command until it is done with it.** -/
theorem connStep_workingOn {cfg : Config} {c : ConnId} {h h' : Hub} {ph ph' : ConnPhase} {ch : Choice}
    {os : List Obs} (hs : connStep cfg c h ph ch = some (h', ph', os)) (hch : ∀ cmd, ch ≠ .frame cmd) :
    ph'.workingOn = ph.workingOn ∨ ∃ dev cmd pc, ph = .handling dev cmd pc ∧ ph' = .reading dev ∧
      (cmd.id = "" ∨ pc.concludes = true) := by
  cases ph with
  | reading dev =>
    cases ch with
    | frame cmd => exact absurd rfl (hch cmd)
    | skip | gone =>
      cases hs
      exact .inl rfl
    | _ => cases hs
  | handling dev cmd pc =>
    cases connStep_trans hs with
    | handling ht =>
      rcases ht.returns with ⟨pc', rfl⟩ | ⟨rfl, hdone⟩
      · exact .inl rfl
      · exact .inr ⟨dev, cmd, pc, rfl, rfl, hdone⟩
  | readHello =>
    cases connStep_trans hs with
    | authenticated | unauthenticated | turnedAway => exact .inl rfl
  | pairing =>
    cases connStep_trans hs with
    | pairing ht => cases ht <;> exact .inl rfl
  | serving =>
    cases connStep_trans hs with
    | serving ht => cases ht <;> exact .inl rfl
  | closed => cases hs

/-- A connection comes to handle a command by reading it. -/
theorem connStep_handling {cfg : Config} {c : ConnId} {h h' : Hub} {ph : ConnPhase} {dev : DeviceID}
    {cmd : CommandPayload} {pc : HandlerPc} {ch : Choice} {os : List Obs}
    (hs : connStep cfg c h ph ch = some (h', .handling dev cmd pc, os)) :
    (ch = .frame cmd ∧ ph = .reading dev) ∨ ∃ pc₀, ph = .handling dev cmd pc₀ := by
  cases ph with
  | reading d =>
    cases ch with
    | frame cmd' =>
      cases hs
      exact .inl ⟨rfl, rfl⟩
    | _ => cases hs
  | handling d cmd' pc₀ =>
    cases connStep_trans hs with
    | handling ht =>
      rcases ht.returns with ⟨pc', he⟩ | ⟨he, -⟩
      · cases he
        exact .inr ⟨pc₀, rfl⟩
      · cases he
  | readHello => cases connStep_trans hs
  | pairing =>
    cases connStep_trans hs with
    | pairing ht => cases ht
  | serving =>
    cases connStep_trans hs with
    | serving ht => cases ht
  | closed => cases hs

/-- A key is recorded by the handler that has just read the command. -/
theorem StepTrans.accepts {cfg : Config} {w w' : World} {a : Action} {os : List Obs}
    (h : StepTrans cfg w a w' os) {c : ConnId} {dev : DeviceID} {k : String}
    (ho : .accepted c dev k ∈ os) :
    ∃ ch cmd, a = .conn c ch ∧ w.conns[c]? = some (.handling dev cmd .start) ∧ key cmd = k ∧
      cmd.id ≠ "" := by
  obtain ⟨ch, ph, h', ph', rfl, hph, -, ht, -⟩ := h.of_conn ho (c := c) rfl
  rcases ht.enters with ⟨d, cmd, pc, rfl, hth⟩ | ⟨-, hno, -⟩
  · cases hth with
    | accept hid =>
      cases List.mem_singleton.mp ho
      exact ⟨ch, cmd, rfl, hph, rfl, hid⟩
    | noId => exact ((mem_queued rfl).mp ho).elim
    | replay | ack | reject =>
      rw [mem_answered rfl] at ho
      cases ho
    | execute hex => cases hex <;> simp at ho
    | broadcast hb | broadcastDone hb =>
      obtain ⟨c', hc'⟩ := hb.frame.2.2.2 _ ho
      cases hc'
    | suppress | append | appendFails | command | commandFails => simp at ho
  · exact absurd rfl ((hno _ ho).2 c)

theorem key_ne_empty {cmd : CommandPayload} (h : cmd.id ≠ "") : key cmd ≠ "" := by
  unfold key
  split
  · exact h
  · assumption

/-- The empty key is never recorded. -/
theorem accepted_key_ne_empty {cfg : Config} {P : List Obs → World → Action → Prop} {db : Store}
    {now : Int} {tr : List Obs} {w : World} (h : (system cfg).Run P [] (World.init cfg db now) tr w)
    {c : ConnId} {dev : DeviceID} {k : String} (ho : .accepted c dev k ∈ tr) : k ≠ "" := by
  obtain ⟨t, u, a, u', os, -, -, hs, hmem, -⟩ := h.step_of_mem ho List.not_mem_nil
  obtain ⟨ch, cmd, -, -, rfl, hid⟩ := (World.step_trans hs).accepts hmem
  exact key_ne_empty hid

/-- A handler takes no frame. -/
theorem connStep_busy {cfg : Config} {c : ConnId} {h : Hub} {dev : DeviceID} {cmd : CommandPayload}
    {pc : HandlerPc} {r : Hub × ConnPhase × List Obs} {ch : Choice}
    (hs : connStep cfg c h (.handling dev cmd pc) ch = some r) :
    ch = .run ∨ (∃ out, ch = .call out) ∨ ∃ targets, ch = .order targets := by
  cases ch with
  | run => exact .inl rfl
  | call out => exact .inr (.inl ⟨out, rfl⟩)
  | order targets => exact .inr (.inr ⟨targets, rfl⟩)
  | _ =>
    cases pc with
    | broadcast ev out pc =>
      cases pc with
      | copy => cases hs
      | send rest => cases rest <;> cases hs
    | _ => cases hs

end Harness.Hub
