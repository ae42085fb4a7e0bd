/-
# Harness.Hub.Idempotency — retried commands, and what an ack promises.

A client resends every unacknowledged command on every send and on every reconnect, so copies of one
command can be in flight on several connections at once. `handleCommand` records the pair of device
and idempotency key under the hub's lock before it does anything else:

* `at_most_once` — for every pair at most one event enters the log and at most one command reaches the
  adapter, and a command is suppressed only by an earlier one of the same device and key;
* `acks_have_effect_iff` — but the pair is recorded BEFORE the command is validated and executed, and a
  replay is acknowledged on the record alone. The runs in which every ack has its event in the log are
  exactly those in which every replay finds the first receipt past its append.
-/
import Harness.Hub.Frame

namespace Harness.Hub

open Wire Auth Lib

/-! ## The key -/

/-- Device ids have one length, so the separator is unambiguous. -/
theorem idempKey_inj {d d' : DeviceID} {k k' : String} (h : idempKey d k = idempKey d' k') :
    d = d' ∧ k = k' := by
  have hl := congrArg String.toList h
  simp only [idempKey, String.toList_append] at hl
  rw [List.append_assoc, List.append_assoc] at hl
  obtain ⟨hd, hk⟩ := List.append_inj hl (d.hex.1.trans d'.hex.1.symm)
  refine ⟨DeviceID.ext (String.toList_inj.mp hd), String.toList_inj.mp ?_⟩
  exact List.append_cancel_left hk

/-! ## What the trace says about one key -/

/-- The first receipt of the key. -/
def Obs.acceptedFor (dev : DeviceID) (k : String) : Obs → Bool
  | .accepted _ d k' => decide (d = dev ∧ k' = k)
  | _ => false

/-- An event appended for the key. -/
def Obs.appendedFor (dev : DeviceID) (k : String) : Obs → Bool
  | .appended (.command _ d k') _ => decide (d = dev ∧ k' = k)
  | _ => false

/-- A command handed to the adapter for the key. -/
def Obs.handedFor (dev : DeviceID) (k : String) : Obs → Bool :=
  Obs.handedWith fun d k' _ => decide (d = dev ∧ k' = k)

/-- An ack for the key, on the first receipt or on a replay. -/
def Obs.ackedFor (dev : DeviceID) (k : String) : Obs → Bool
  | .acked _ d k' => decide (d = dev ∧ k' = k)
  | _ => false

/-- An error answered the command before it had any effect. An `agent_error` comes after the append. -/
def Obs.refusedFor (dev : DeviceID) (k : String) : Obs → Bool
  | .rejected _ d k' code => decide (d = dev ∧ k' = k) && decide (code ≠ .agentError)
  | _ => false

/-! ## The idempotency set -/

theorem HandleTrans.idempotency {cfg : Config} {c : ConnId} {h h' : Hub} {dev : DeviceID}
    {cmd : CommandPayload} {pc : HandlerPc} {ch : Choice} {ph : ConnPhase} {os : List Obs}
    (ht : HandleTrans cfg c h dev cmd pc ch h' ph os) :
    (h'.idempotency = h.idempotency ∧ ∀ c' d k, .accepted c' d k ∉ os) ∨
      (idempKey dev (key cmd) ∉ h.idempotency ∧
        h'.idempotency = insert (idempKey dev (key cmd)) h.idempotency ∧
        os = [.accepted c dev (key cmd)]) := by
  cases ht with
  | accept _ hnew => exact .inr ⟨hnew, rfl, rfl⟩
  | noId =>
    refine .inl ⟨rfl, fun c' d k hm => ?_⟩
    rw [mem_queued rfl] at hm
    cases hm
  | suppress | append | appendFails | command | commandFails =>
    refine .inl ⟨rfl, fun c' d k hm => ?_⟩
    simp at hm
  | replay | ack | reject =>
    refine .inl ⟨rfl, fun c' d k hm => ?_⟩
    rw [mem_answered rfl] at hm
    cases hm
  | execute hex =>
    cases hex with
    | @claim _ a =>
      refine .inl ⟨by cases a.ask <;> rfl, fun c' d k hm => ?_⟩
      simp at hm
    | proceed | refuse => exact .inl ⟨rfl, fun c' d k hm => absurd hm List.not_mem_nil⟩
  | broadcast hb | broadcastDone hb =>
    obtain ⟨hq, -, -, hos⟩ := hb.frame
    refine .inl ⟨hq.idempotency, fun c' d k hm => ?_⟩
    obtain ⟨t, ht⟩ := hos _ hm
    cases ht

theorem IngestTrans.idempotency {cfg : Config} {h h' : Hub} {ph ph' : IngestPhase} {ch : Choice}
    {os : List Obs} (ht : IngestTrans cfg h ph ch h' ph' os) : h'.idempotency = h.idempotency := by
  cases ht with
  | receive | append | appendFails => rfl
  | note =>
    unfold Hub.note
    split <;> rfl
  | broadcast hb | broadcastDone hb => exact hb.frame.1.idempotency

/-- The set grows by exactly the keys a step accepts, each of which was new. -/
theorem StepTrans.idempotency {cfg : Config} {w w' : World} {a : Action} {os : List Obs}
    (h : StepTrans cfg w a w' os) :
    (w'.hub.idempotency = w.hub.idempotency ∧ ∀ c d k, .accepted c d k ∉ os) ∨
      ∃ c d k, idempKey d k ∉ w.hub.idempotency ∧
        w'.hub.idempotency = insert (idempKey d k) w.hub.idempotency ∧ os = [.accepted c d k] := by
  rcases h.actors with ⟨c, dev, cmd, pc, ch, h', ph', -, -, ht, rfl⟩ | ⟨ch, h', ph', -, ht, rfl⟩ |
    ⟨hq, hno, -, -⟩
  · rcases ht.idempotency with hsame | hnew
    · exact .inl hsame
    · exact .inr ⟨c, dev, key cmd, hnew⟩
  · refine .inl ⟨ht.idempotency, fun c d k hm => ?_⟩
    rcases ht.obs _ hm with he | he <;> cases he
  · exact .inl ⟨hq.idempotency, fun c d k hm => (hno _ hm).2 c rfl⟩

/-- **The idempotency set is the set of accepted keys.** -/
theorem mem_idempotency {cfg : Config} {P : List Obs → World → Action → Prop} {db : Store} {now : Int}
    {tr : List Obs} {w : World} (h : (system cfg).Run P [] (World.init cfg db now) tr w)
    (dev : DeviceID) (k : String) :
    idempKey dev k ∈ w.hub.idempotency ↔ ∃ c, .accepted c dev k ∈ tr := by
  refine h.invariant
    (I := fun t u => idempKey dev k ∈ u.hub.idempotency ↔ ∃ c, .accepted c dev k ∈ t) ?_ ?_
  · simp [World.init]
  · intro t u a u' os _ ih _ hs
    rcases (World.step_trans hs).idempotency with ⟨hsame, hno⟩ | ⟨c, d, k', -, hins, rfl⟩
    · rw [hsame, ih]
      constructor
      · rintro ⟨c, hm⟩
        exact ⟨c, List.mem_append_left _ hm⟩
      · rintro ⟨c, hm⟩
        exact ⟨c, (List.mem_append.mp hm).resolve_right (hno c dev k)⟩
    · rw [hins, Finset.mem_insert, ih]
      constructor
      · rintro (heq | ⟨c', hm⟩)
        · obtain ⟨rfl, rfl⟩ := idempKey_inj heq
          exact ⟨c, List.mem_append_right _ List.mem_cons_self⟩
        · exact ⟨c', List.mem_append_left _ hm⟩
      · rintro ⟨c', hm⟩
        rcases List.mem_append.mp hm with hm | hm
        · exact .inr ⟨c', hm⟩
        · cases List.mem_singleton.mp hm
          exact .inl rfl

/-- **A key is accepted at most once.** -/
theorem accepted_once {cfg : Config} {P : List Obs → World → Action → Prop} {db : Store} {now : Int}
    {tr : List Obs} {w : World} (h : (system cfg).Run P [] (World.init cfg db now) tr w)
    (dev : DeviceID) (k : String) : tr.countP (Obs.acceptedFor dev k) ≤ 1 := by
  refine h.invariant (I := fun t _ => t.countP (Obs.acceptedFor dev k) ≤ 1) (Nat.zero_le 1) ?_
  intro t u a u' os hr ih _ hs
  rw [List.countP_append]
  rcases (World.step_trans hs).idempotency with ⟨-, hno⟩ | ⟨c, d, k', hnew, -, rfl⟩
  · have h0 : os.countP (Obs.acceptedFor dev k) = 0 := by
      rw [List.countP_eq_zero]
      intro o ho hp
      cases o <;> simp only [Obs.acceptedFor, Bool.false_eq_true] at hp
      exact hno _ _ _ ho
    omega
  · by_cases hk : d = dev ∧ k' = k
    · obtain ⟨rfl, rfl⟩ := hk
      -- a key that was not in the set was never accepted
      have h0 : t.countP (Obs.acceptedFor d k') = 0 := by
        rw [List.countP_eq_zero]
        intro o ho hp
        cases o <;> simp only [Obs.acceptedFor, Bool.false_eq_true, decide_eq_true_eq] at hp
        obtain ⟨rfl, rfl⟩ := hp
        exact hnew ((mem_idempotency hr _ _).mpr ⟨_, ho⟩)
      have h1 : [Obs.accepted c d k'].countP (Obs.acceptedFor d k') ≤ 1 := List.countP_le_length
      omega
    · have h0 : [Obs.accepted c d k'].countP (Obs.acceptedFor dev k) = 0 := by
        simp [Obs.acceptedFor, hk]
      omega

/-! ## From the first receipt to the adapter -/

/-- The handler may still append its event, or is about to refuse for good. -/
def HandlerPc.undecided : HandlerPc → Bool
  | .execute | .append _ => true
  | .reject code _ => decide (code ≠ .agentError)
  | _ => false

/-- A property of the handlers that work on one key. -/
def forKey (dev : DeviceID) (k : String) (p : HandlerPc → Bool) :
    DeviceID → CommandPayload → HandlerPc → Bool :=
  fun d cmd pc => decide (d = dev ∧ key cmd = k) && p pc

/-- The end of the first receipt of a key, one way or the other. -/
def Obs.decidedFor (dev : DeviceID) (k : String) (o : Obs) : Bool :=
  o.appendedFor dev k || o.refusedFor dev k

/-- An accepted key is worth exactly one append or one refusal. -/
theorem HandleTrans.decide_once {cfg : Config} {c : ConnId} {h h' : Hub} {d : DeviceID}
    {cmd : CommandPayload} {pc : HandlerPc} {ch : Choice} {ph : ConnPhase} {os : List Obs}
    (dev : DeviceID) (k : String) (ht : HandleTrans cfg c h d cmd pc ch h' ph os) :
    os.countP (Obs.decidedFor dev k) + (ph.inHandler (forKey dev k HandlerPc.undecided)).toNat =
      (forKey dev k HandlerPc.undecided d cmd pc).toNat + os.countP (Obs.acceptedFor dev k) := by
  have hqueue : IgnoresQueue (Obs.decidedFor dev k) := fun _ _ => ⟨rfl, rfl⟩
  have hqueue' : IgnoresQueue (Obs.acceptedFor dev k) := fun _ _ => ⟨rfl, rfl⟩
  cases ht with
  | execute hex =>
    cases hex with
    | refuse hcode => simp [ConnPhase.inHandler, forKey, HandlerPc.undecided, hcode]
    | claim | proceed =>
      simp [Obs.decidedFor, Obs.appendedFor, Obs.refusedFor, Obs.acceptedFor, ConnPhase.inHandler,
        forKey, HandlerPc.undecided]
  | replay | ack | reject =>
    rw [countP_answered hqueue, countP_answered hqueue']
    simp [Obs.decidedFor, Obs.appendedFor, Obs.refusedFor, Obs.acceptedFor, ConnPhase.inHandler,
      forKey, HandlerPc.undecided, Bool.and_assoc]
  | broadcast hb | broadcastDone hb =>
    rw [hb.countP hqueue, hb.countP hqueue']
    simp [ConnPhase.inHandler, forKey, HandlerPc.undecided]
  | noId =>
    rw [countP_queued hqueue, countP_queued hqueue']
    simp [ConnPhase.inHandler, forKey, HandlerPc.undecided]
  | accept | append =>
    rw [countP_one, countP_one]
    simp [Obs.decidedFor, Obs.appendedFor, Obs.refusedFor, Obs.acceptedFor, ConnPhase.inHandler,
      forKey, HandlerPc.undecided]
  | suppress | appendFails | command | commandFails =>
    simp [Obs.decidedFor, Obs.appendedFor, Obs.refusedFor, Obs.acceptedFor, ConnPhase.inHandler,
      forKey, HandlerPc.undecided]

/-- One step of the daemon decides first receipts, or leaves them to be decided. -/
theorem StepTrans.decide_ledger {cfg : Config} {w w' : World} {a : Action} {os : List Obs}
    (h : StepTrans cfg w a w' os) (dev : DeviceID) (k : String) :
    os.countP (Obs.decidedFor dev k) +
        w'.conns.countP (ConnPhase.inHandler (forKey dev k HandlerPc.undecided)) =
      w.conns.countP (ConnPhase.inHandler (forKey dev k HandlerPc.undecided)) +
        os.countP (Obs.acceptedFor dev k) := by
  have hdecided : HandlerOnly (Obs.decidedFor dev k) := by
    intro o ho
    cases o with
    | appended wr _ =>
      cases wr with
      | ingest => cases ho
      | command c _ _ => exact ⟨c, rfl⟩
    | rejected c _ _ _ => exact ⟨c, rfl⟩
    | _ => cases ho
  have haccepted : HandlerOnly (Obs.acceptedFor dev k) := by
    intro o ho
    cases o with
    | accepted c _ _ => exact ⟨c, rfl⟩
    | _ => cases ho
  -- the ledger of all handlers, from the ledger of one
  exact handler_ledger_eq hdecided haccepted (fun d cmd => by simp [forKey, HandlerPc.undecided])
    (fun ht => ht.decide_once dev k) h

/-- The first receipt of a key has been decided, or is still being decided, exactly as often as the key
was accepted. -/
theorem decided_eq_accepted {cfg : Config} {P : List Obs → World → Action → Prop} {db : Store}
    {now : Int} {tr : List Obs} {w : World} (h : (system cfg).Run P [] (World.init cfg db now) tr w)
    (dev : DeviceID) (k : String) :
    tr.countP (Obs.decidedFor dev k) +
        w.conns.countP (ConnPhase.inHandler (forKey dev k HandlerPc.undecided)) =
      tr.countP (Obs.acceptedFor dev k) := by
  refine h.invariant (I := fun t u => t.countP (Obs.decidedFor dev k) +
    u.conns.countP (ConnPhase.inHandler (forKey dev k HandlerPc.undecided)) =
      t.countP (Obs.acceptedFor dev k)) rfl ?_
  intro t u a u' os _ ih _ hs
  have hb := (World.step_trans hs).decide_ledger dev k
  rw [List.countP_append, List.countP_append]
  omega

theorem appendedFor_once {cfg : Config} {P : List Obs → World → Action → Prop} {db : Store} {now : Int}
    {tr : List Obs} {w : World} (h : (system cfg).Run P [] (World.init cfg db now) tr w)
    (dev : DeviceID) (k : String) : tr.countP (Obs.appendedFor dev k) ≤ 1 := by
  have hone := accepted_once h dev k
  have hled := decided_eq_accepted h dev k
  have hmono : tr.countP (Obs.appendedFor dev k) ≤ tr.countP (Obs.decidedFor dev k) :=
    List.countP_mono_left fun o _ ho => by rw [Obs.decidedFor, ho, Bool.true_or]
  omega

/-- A suppressed command had been accepted before, from the same device under the same key. -/
theorem suppressed_preceded {cfg : Config} {P : List Obs → World → Action → Prop} {db : Store}
    {now : Int} {tr : List Obs} {w : World} (h : (system cfg).Run P [] (World.init cfg db now) tr w) :
    Lts.Preceded (fun p o => ∀ c dev k, o = .suppressed c dev k → ∃ c', .accepted c' dev k ∈ p) tr := by
  refine h.invariant (I := fun t _ => Lts.Preceded
    (fun p o => ∀ c dev k, o = .suppressed c dev k → ∃ c', .accepted c' dev k ∈ p) t)
    (Lts.preceded_nil _) ?_
  intro t u a u' os hr ih _ hs
  refine Lts.preceded_append_of_mono ?_ ih ?_
  · intro p p' hp o hR c dev k ho
    obtain ⟨c', hm⟩ := hR c dev k ho
    exact ⟨c', hp.mem hm⟩
  · rintro o ho c dev k rfl
    obtain ⟨ch, ph, h', ph', rfl, hph, hsrc, ht, rfl⟩ := (World.step_trans hs).of_conn ho (c := c) rfl
    rcases ht.enters with
      ⟨d, cmd, pc, rfl, hth⟩ | ⟨-, hno, -⟩
    · have hseen : d = dev ∧ key cmd = k ∧ idempKey d (key cmd) ∈ u.hub.idempotency := by
        cases hth with
        | suppress _ hseen =>
          cases List.mem_singleton.mp ho
          exact ⟨rfl, rfl, hseen⟩
        | replay | ack | reject =>
          rw [mem_answered rfl] at ho
          cases ho
        | execute hex => cases hex <;> simp at ho
        | broadcast hb | broadcastDone hb =>
          obtain ⟨t, ht⟩ := hb.frame.2.2.2 _ ho
          cases ht
        | noId =>
          rw [mem_queued rfl] at ho
          cases ho
        | accept | append | appendFails | command | commandFails => simp at ho
      obtain ⟨rfl, rfl, hseen⟩ := hseen
      exact (mem_idempotency hr d (key cmd)).mp hseen
    · exact absurd rfl ((hno _ ho).2 c)

/-- **At-most-once execution.** For every device and key at most one event enters the log and at most
one command is handed to the adapter, over all connections; and a command is suppressed only because a
command of the same device with the same key was accepted before. -/
theorem at_most_once {cfg : Config} {db : Store} {now : Int} {tr : List Obs} {w : World}
    (h : (system cfg).Run Lts.Free [] (World.init cfg db now) tr w) :
    (∀ dev k, tr.countP (Obs.appendedFor dev k) ≤ 1 ∧ tr.countP (Obs.handedFor dev k) ≤ 1) ∧
      Lts.Preceded
        (fun p o => ∀ c dev k, o = .suppressed c dev k → ∃ c', .accepted c' dev k ∈ p) tr := by
  refine ⟨fun dev k => ⟨appendedFor_once h dev k, ?_⟩, suppressed_preceded h⟩
  calc tr.countP (Obs.handedFor dev k)
      ≤ tr.countP (Obs.appendedFor dev k) :=
        handed_le_appended h fun c d k' out ev _ _ hm => hm
    _ ≤ 1 := appendedFor_once h dev k

/-- Two connections of one phone send the same prompt, the second while the first is being handled. -/
def resend : List Action :=
  Sample.connect 0 "phone-secret" 0 ++ Sample.connect 1 "phone-secret" 0 ++
    [.conn 0 (Sample.command "c1" .sendPrompt [("text", .str "hi")]),
      .conn 1 (Sample.command "c1" .sendPrompt [("text", .str "hi")])] ++
    Sample.handle 0 [0, 1] ++ [.conn 1 .run, .conn 1 .run]

theorem at_most_once_resend :
    ∃ tr w, (system Sample.config).Run Lts.Free [] Sample.start tr w ∧
      tr.countP (Obs.handedFor Sample.phone "c1") = 1 ∧
      ((∀ dev k, tr.countP (Obs.appendedFor dev k) ≤ 1 ∧ tr.countP (Obs.handedFor dev k) ≤ 1) ∧
        Lts.Preceded
          (fun p o => ∀ c dev k, o = .suppressed c dev k → ∃ c', .accepted c' dev k ∈ p) tr) := by
  have hexec : ∃ tr, ((system Sample.config).exec (fun _ _ _ => true) [] Sample.start resend).map
      Prod.fst = some tr ∧ tr.countP (Obs.handedFor Sample.phone "c1") = 1 := ⟨_, rfl, by decide⟩
  obtain ⟨tr, he, hc⟩ := hexec
  obtain ⟨w, hr⟩ := Lts.run_of_exec_trace (fun _ _ _ _ => trivial) he
  exact ⟨tr, w, hr, hc, at_most_once hr⟩

/-! ## What an ack promises -/

/-- The event of the key is in the log of the trace. -/
def EffectIn (p : List Obs) (dev : DeviceID) (k : String) : Prop :=
  ∃ c ev, .appended (.command c dev k) ev ∈ p

/-- Every ack finds the event of its command in the log. -/
def AcksHaveEffect (tr : List Obs) : Prop :=
  Lts.Preceded (fun p o => ∀ c dev k, o = .acked c dev k → EffectIn p dev k) tr

/-- The first receipt of the key is past its append: no handler can still fail before it, and none has
refused it. -/
def Settled (dev : DeviceID) (k : String) (tr : List Obs) (w : World) : Prop :=
  (∀ ph ∈ w.conns, ph.inHandler (forKey dev k HandlerPc.undecided) = false) ∧
    ∀ o ∈ tr, o.refusedFor dev k = false

/-- The condition on a step: a replay that is about to be acknowledged finds its key settled. -/
def ReplaysSettled (tr : List Obs) (w : World) (a : Action) : Prop :=
  ∀ c ch dev cmd, a = .conn c ch → w.conns[c]? = some (.handling dev cmd .replay) →
    Settled dev (key cmd) tr w

theorem EffectIn.mono {p p' : List Obs} {dev : DeviceID} {k : String} (hp : p <+: p')
    (h : EffectIn p dev k) : EffectIn p' dev k := by
  obtain ⟨c, ev, hm⟩ := h
  exact ⟨c, ev, hp.mem hm⟩

theorem effectIn_iff {tr : List Obs} {dev : DeviceID} {k : String} :
    EffectIn tr dev k ↔ 0 < tr.countP (Obs.appendedFor dev k) := by
  rw [List.countP_pos_iff]
  constructor
  · rintro ⟨c, ev, hm⟩
    exact ⟨_, hm, by simp [Obs.appendedFor]⟩
  · rintro ⟨o, hm, ho⟩
    cases o with
    | appended wr ev =>
      cases wr with
      | ingest => cases ho
      | command c d k' =>
        simp only [Obs.appendedFor, decide_eq_true_eq] at ho
        obtain ⟨rfl, rfl⟩ := ho
        exact ⟨c, ev, hm⟩
    | _ => cases ho

theorem countP_decidedFor (dev : DeviceID) (k : String) (tr : List Obs) :
    tr.countP (Obs.decidedFor dev k) =
      tr.countP (Obs.appendedFor dev k) + tr.countP (Obs.refusedFor dev k) := by
  induction tr with
  | nil => rfl
  | cons o tr ih =>
    have hone : (o.decidedFor dev k).toNat =
        (o.appendedFor dev k).toNat + (o.refusedFor dev k).toNat := by
      unfold Obs.decidedFor
      cases o with
      | appended wr _ => cases wr <;> simp [Obs.appendedFor, Obs.refusedFor]
      | _ => simp [Obs.appendedFor, Obs.refusedFor]
    rw [← List.singleton_append, List.countP_append, List.countP_append, List.countP_append,
      countP_one, countP_one, countP_one]
    omega

/-- **A key that was accepted has its effect exactly when it is settled.** -/
theorem effectIn_iff_settled {cfg : Config} {P : List Obs → World → Action → Prop} {db : Store}
    {now : Int} {tr : List Obs} {w : World} (h : (system cfg).Run P [] (World.init cfg db now) tr w)
    {c : ConnId} {dev : DeviceID} {k : String} (hacc : .accepted c dev k ∈ tr) :
    EffectIn tr dev k ↔ Settled dev k tr w := by
  have hone := accepted_once h dev k
  have hpos : 0 < tr.countP (Obs.acceptedFor dev k) :=
    List.countP_pos_iff.mpr ⟨_, hacc, by simp [Obs.acceptedFor]⟩
  have hled := decided_eq_accepted h dev k
  have hsplit := countP_decidedFor dev k tr
  -- exactly one of: appended, refused, still being decided
  have hsettled : Settled dev k tr w ↔
      w.conns.countP (ConnPhase.inHandler (forKey dev k HandlerPc.undecided)) = 0 ∧
        tr.countP (Obs.refusedFor dev k) = 0 := by
    simp only [Settled, List.countP_eq_zero, Bool.not_eq_true]
  rw [effectIn_iff, hsettled]
  omega

/-- What the phase of a handler says about the past of its key. -/
def Grounded (_ : ConnId) (ph : ConnPhase) (tr : List Obs) : Prop :=
  match ph with
  | .handling dev cmd .replay => ∃ c, .accepted c dev (key cmd) ∈ tr
  | .handling dev cmd (.ack _ _) => EffectIn tr dev (key cmd)
  | _ => True

theorem grounded {cfg : Config} {P : List Obs → World → Action → Prop} {db : Store} {now : Int}
    {tr : List Obs} {w : World} (h : (system cfg).Run P [] (World.init cfg db now) tr w) :
    ∀ c ph, w.conns[c]? = some ph → Grounded c ph tr := by
  refine phase_rule ?_ trivial ?_ h
  · intro c ph t t' hp hg
    unfold Grounded at hg ⊢
    split at hg
    · obtain ⟨c', hm⟩ := hg
      exact ⟨c', hp.mem hm⟩
    · exact hg.mono hp
    · trivial
  · intro t u c ch ph h' ph' os hr _ _ _ ht
    cases ht with
    | handling hth =>
      cases hth with
      | suppress _ hseen =>
        obtain ⟨c', hm⟩ := (mem_idempotency hr _ _).mp hseen
        exact ⟨c', List.mem_append_left _ hm⟩
      | append => exact ⟨c, _, List.mem_append_right _ List.mem_cons_self⟩
      | execute hex => cases hex <;> trivial
      | _ => trivial
    | pairing ht => cases ht <;> trivial
    | serving ht => cases ht <;> trivial
    | _ => trivial

/-- An ack is the answer of a handler that appended, or of a replay. -/
theorem StepTrans.acked {cfg : Config} {w w' : World} {a : Action} {os : List Obs}
    (h : StepTrans cfg w a w' os) {c : ConnId} {dev : DeviceID} {k : String}
    (ho : .acked c dev k ∈ os) :
    ∃ ch cmd pc, a = .conn c ch ∧ w.conns[c]? = some (.handling dev cmd pc) ∧ k = key cmd ∧
      (pc = .replay ∨ ∃ ev out, pc = .ack ev out) := by
  obtain ⟨ch, ph, h', ph', rfl, hph, -, ht, -⟩ := h.of_conn ho (c := c) rfl
  rcases ht.enters with
    ⟨d, cmd, pc, rfl, hth⟩ | ⟨-, hno, -⟩
  · cases hth with
    | replay =>
      rw [mem_answered rfl] at ho
      cases ho
      exact ⟨ch, cmd, _, rfl, hph, rfl, .inl rfl⟩
    | ack =>
      rw [mem_answered rfl] at ho
      cases ho
      exact ⟨ch, cmd, _, rfl, hph, rfl, .inr ⟨_, _, rfl⟩⟩
    | reject =>
      rw [mem_answered rfl] at ho
      cases ho
    | noId =>
      rw [mem_queued rfl] at ho
      cases ho
    | execute hex => cases hex <;> simp at ho
    | broadcast hb | broadcastDone hb =>
      obtain ⟨t, ht⟩ := hb.frame.2.2.2 _ ho
      cases ht
    | suppress | accept | append | appendFails | command | commandFails => simp at ho
  · exact absurd rfl ((hno _ ho).2 c)

theorem acks_of_settled {cfg : Config} {db : Store} {now : Int} {tr : List Obs} {w : World}
    (h : (system cfg).Run ReplaysSettled [] (World.init cfg db now) tr w) : AcksHaveEffect tr := by
  refine h.invariant (I := fun t _ => AcksHaveEffect t) (Lts.preceded_nil _) ?_
  intro t u a u' os hr ih hP hs
  refine Lts.preceded_append_of_mono ?_ ih ?_
  · intro p p' hp o hR c dev k ho
    exact (hR c dev k ho).mono hp
  · rintro o ho c dev k rfl
    obtain ⟨ch, cmd, pc, rfl, hph, rfl, hpc⟩ := (World.step_trans hs).acked ho
    rcases hpc with rfl | ⟨ev, out, rfl⟩
    · -- a replay: its key was accepted, and the step's condition says it is settled
      obtain ⟨c', hacc⟩ := grounded hr c _ hph
      exact (effectIn_iff_settled hr hacc).mpr (hP c ch dev cmd rfl hph)
    · exact grounded hr c _ hph

/-- **An ack promises an effect exactly when replays find their keys settled.** The runs in which every
acknowledged command has its event in the log at that moment are the runs in which no replay is
acknowledged while the first receipt may still fail, or after it was refused. -/
theorem acks_have_effect_iff {cfg : Config} {db : Store} {now : Int} {tr : List Obs} {w : World} :
    (system cfg).Run ReplaysSettled [] (World.init cfg db now) tr w ↔
      (system cfg).Run Lts.Free [] (World.init cfg db now) tr w ∧ AcksHaveEffect tr := by
  constructor
  · intro h
    exact ⟨h.free, acks_of_settled h⟩
  · rintro ⟨h, hacks⟩
    induction h with
    | refl => exact .refl
    | @tail t os u u' a hr _ hs ih =>
      refine .tail (ih hacks.left) ?_ hs
      rintro c ch dev cmd rfl hph
      obtain ⟨c', hacc⟩ := grounded hr c _ hph
      -- the step acknowledges the replay, so the effect was there before it
      have hst : StepTrans cfg u (.conn c ch) u' os := World.step_trans hs
      have hos : ∃ o, os = [.acked c dev (key cmd), o] := by
        cases hst with
        | conn hph0 ht =>
          rw [hph] at hph0
          cases hph0
          cases ht with
          | handling ht =>
            cases ht
            exact ⟨_, rfl⟩
      obtain ⟨o, rfl⟩ := hos
      exact (effectIn_iff_settled hr hacc).mp (hacks t _ [o] rfl c dev (key cmd) rfl)

/-- An acknowledged key whose event is nowhere in the trace breaks the promise. -/
theorem not_acksHaveEffect {tr : List Obs} {dev : DeviceID} {k : String}
    (hack : 0 < tr.countP (Obs.ackedFor dev k)) (hno : tr.countP (Obs.appendedFor dev k) = 0) :
    ¬ AcksHaveEffect tr := by
  intro h
  obtain ⟨o, hm, ho⟩ := List.countP_pos_iff.mp hack
  cases o with
  | acked c d k' =>
    simp only [Obs.ackedFor, decide_eq_true_eq] at ho
    obtain ⟨rfl, rfl⟩ := ho
    obtain ⟨p, hp, hR⟩ := h.of_mem hm
    have heff := effectIn_iff.mp ((hR c d k' rfl).mono hp)
    omega
  | _ => cases ho

/-- A prompt whose append fails, and its copy on the phone's next connection. -/
def lostPrompt : List Action :=
  Sample.connect 0 "phone-secret" 0 ++
    [.conn 0 (Sample.command "c1" .sendPrompt [("text", .str "hi")]), .conn 0 .run, .conn 0 .run,
      .conn 0 (.call (.err "database is locked")), .conn 0 .run] ++
    Sample.connect 1 "phone-secret" 0 ++
    [.conn 1 (Sample.command "c1" .sendPrompt [("text", .str "hi")]), .conn 1 .run, .conn 1 .run]

/-- The copy is acknowledged although nothing was ever appended for it. -/
theorem lostPrompt_acked :
    ∃ tr w, (system Sample.config).Run Lts.Free [] Sample.start tr w ∧ ¬ AcksHaveEffect tr := by
  have hexec : ∃ tr, ((system Sample.config).exec (fun _ _ _ => true) [] Sample.start lostPrompt).map
      Prod.fst = some tr ∧ 0 < tr.countP (Obs.ackedFor Sample.phone "c1") ∧
      tr.countP (Obs.appendedFor Sample.phone "c1") = 0 := ⟨_, rfl, by decide, by decide⟩
  obtain ⟨tr, he, hack, hno⟩ := hexec
  obtain ⟨w, hr⟩ := Lts.run_of_exec_trace (fun _ _ _ _ => trivial) he
  exact ⟨tr, w, hr, not_acksHaveEffect hack hno⟩

end Harness.Hub
