/-
# Harness.Hub.AgentRefusal — what becomes of an answer the agent refuses.

An answer is recorded first and offered to the agent last: the claim, the append, the ack and the
broadcast come before `adapter.Command`. By then every screen shows the request as answered, and an error
of the adapter does not take that back: the maps, the log and with it the snapshot stay as the append left
them, and the sender is told by a late `agent_error` frame under the id of the command it already got an
ack for (`refusal_reported`). So what the log records as resolved by a client was offered to the agent
once, or is about to be, but the agent need not have taken it (`refusedAnswer_stays_resolved`).
-/
import Harness.Hub.AgentOrder
import Harness.Hub.PendingLog

namespace Harness.Hub

open Wire Auth Lib

/-! ## Answers recorded and answers offered -/

/-- A handler's append that records an answer with property `m`. -/
def Obs.recordedAnswer (m : DeviceID → String → Answer → Bool) : Obs → Bool
  | .appended (.command _ d k) ev => (resolutionOf ev).any fun r => m d k r.1
  | _ => false

/-- A call of the adapter with an answer with property `m`, taken or refused. -/
def Obs.offeredAnswer (m : DeviceID → String → Answer → Bool) : Obs → Bool :=
  Obs.handedWith fun d k out => (answerOf out).any (m d k)

/-- A handler that has recorded such an answer and not yet offered it. -/
def carries (m : DeviceID → String → Answer → Bool) : DeviceID → CommandPayload → HandlerPc → Bool :=
  committedTo fun d k out => (answerOf out).any (m d k)

/-- One handler offers what it recorded, once. -/
theorem HandleTrans.offer_recorded {cfg : Config} {c : ConnId} {h h' : Hub} {d : DeviceID}
    {cmd : CommandPayload} {pc : HandlerPc} {ch : Choice} {ph : ConnPhase} {os : List Obs}
    (m : DeviceID → String → Answer → Bool) (ht : HandleTrans cfg c h d cmd pc ch h' ph os) :
    os.countP (Obs.offeredAnswer m) + (ph.inHandler (carries m)).toNat =
      (carries m d cmd pc).toNat + os.countP (Obs.recordedAnswer m) := by
  have hqueue : IgnoresQueue (Obs.offeredAnswer m) := fun _ _ => ⟨rfl, rfl⟩
  have hqueue' : IgnoresQueue (Obs.recordedAnswer m) := fun _ _ => ⟨rfl, rfl⟩
  cases ht with
  | @append _ out ev st happ =>
    obtain ⟨-, hk, hp, -⟩ := Store.appendEvent_spec happ
    rw [countP_one, countP_one]
    show 0 + ((answerOf out).any (m d (key cmd))).toNat =
      0 + ((resolutionOf ev).any fun r => m d (key cmd) r.1).toNat
    rw [resolutionOf_commandEvent hk hp]
    cases answerOf out <;> rfl
  | execute hex => cases hex <;> rfl
  | replay | ack | reject =>
    rw [countP_answered hqueue, countP_answered hqueue']
    simp [Obs.offeredAnswer, Obs.handedWith, Obs.recordedAnswer, ConnPhase.inHandler, carries, committedTo,
      HandlerPc.committed]
  | broadcast hb | broadcastDone hb =>
    rw [hb.countP hqueue, hb.countP hqueue']
    simp [ConnPhase.inHandler, carries, committedTo, HandlerPc.committed]
  | noId =>
    rw [countP_queued hqueue, countP_queued hqueue']
    rfl
  | command | commandFails =>
    rw [countP_one, countP_one]
    simp [Obs.offeredAnswer, Obs.handedWith, Obs.recordedAnswer, ConnPhase.inHandler, carries, committedTo,
      HandlerPc.committed]
  | suppress | accept | appendFails => rfl

/-- **Every answer on record was offered to the agent**, or the handler that recorded it has not got there
yet. -/
theorem offered_eq_recorded {cfg : Config} {P : List Obs → World → Action → Prop} {db : Store} {now : Int}
    {tr : List Obs} {w : World} (h : (system cfg).Run P [] (World.init cfg db now) tr w)
    (m : DeviceID → String → Answer → Bool) :
    tr.countP (Obs.offeredAnswer m) + w.conns.countP (ConnPhase.inHandler (carries m)) =
      tr.countP (Obs.recordedAnswer m) := by
  have hoffered : HandlerOnly (Obs.offeredAnswer m) := by
    intro o ho
    cases o with
    | handed c _ _ _ _ => exact ⟨c, rfl⟩
    | _ => cases ho
  have hrecorded : HandlerOnly (Obs.recordedAnswer m) := by
    intro o ho
    cases o with
    | appended wr _ =>
      cases wr with
      | ingest => cases ho
      | command c _ _ => exact ⟨c, rfl⟩
    | _ => cases ho
  refine h.invariant (I := fun t u => t.countP (Obs.offeredAnswer m) +
    u.conns.countP (ConnPhase.inHandler (carries m)) = t.countP (Obs.recordedAnswer m)) rfl ?_
  intro t u a u' os _ ih _ hs
  have hb := handler_ledger_eq hoffered hrecorded (fun _ _ => rfl) (fun ht => ht.offer_recorded m)
    (World.step_trans hs)
  rw [List.countP_append, List.countP_append]
  omega

/-! ## What a handler has done when it reaches the adapter -/

/-- What the phase of a handler says about the past of its command. -/
def Answered (c : ConnId) (ph : ConnPhase) (tr : List Obs) : Prop :=
  match ph with
  | .handling dev cmd (.ack ev _) => .appended (.command c dev (key cmd)) ev ∈ tr
  | .handling dev cmd (.broadcast ev _ _) | .handling dev cmd (.command ev _) =>
      .appended (.command c dev (key cmd)) ev ∈ tr ∧ .acked c dev (key cmd) ∈ tr
  | _ => True

theorem answered {cfg : Config} {P : List Obs → World → Action → Prop} {db : Store} {now : Int}
    {tr : List Obs} {w : World} (h : (system cfg).Run P [] (World.init cfg db now) tr w) :
    ∀ c ph, w.conns[c]? = some ph → Answered c ph tr := by
  refine phase_rule ?_ trivial ?_ h
  · intro c ph t t' hp hI
    unfold Answered at hI ⊢
    split at hI
    · exact hp.mem hI
    · exact ⟨hp.mem hI.1, hp.mem hI.2⟩
    · exact ⟨hp.mem hI.1, hp.mem hI.2⟩
    · trivial
  · intro t u c ch ph h' ph' os _ _ _ hI ht
    cases ht with
    | handling hth =>
      cases hth with
      | append => exact List.mem_append_right _ List.mem_cons_self
      | ack => exact ⟨List.mem_append_left _ hI, List.mem_append_right _ List.mem_cons_self⟩
      | broadcast | broadcastDone => exact ⟨List.mem_append_left _ hI.1, List.mem_append_left _ hI.2⟩
      | execute hex => cases hex <;> trivial
      | _ => trivial
    | pairing ht => cases ht <;> trivial
    | serving ht => cases ht <;> trivial
    | _ => trivial

/-! ## A refusal -/

/-- The handler of connection `c` has recorded the answer `x` and stands before the adapter. -/
def World.Offers (w : World) (c : ConnId) (dev : DeviceID) (cmd : CommandPayload) (out : AgentCommand)
    (x : Answer) : Prop :=
  answerOf out = some x ∧ ∃ ev, w.conns[c]? = some (.handling dev cmd (.command ev out))

/-- A refusal leaves the request to the agent open: in every step in which `adapter.Command` fails for an
answer, the request is pending afterwards, in the maps and in the log. -/
def RefusalReopens (cfg : Config) (w' : World) (os : List Obs) : Prop :=
  ∀ c dev k out x, .handed c dev k out false ∈ os → answerOf out = some x →
    w'.hub.isPending x.ask = true ∧ pendingIn x.ask (w'.log cfg) = true

/-- **A refused answer stays on record and is reported late.** In every run: when a handler offers an
answer to the agent, its event is in the log under the device that sent it and its command is acked; if
the adapter then returns an error, the hub (the maps, the log, and so the snapshot) is left as it is, and
what the handler does next is to send `agent_error` with the adapter's message under the id of the
command. And the answers on record from clients are, one by one, those offered to the agent, taken or
refused, and those whose handler has yet to offer them. -/
theorem refusal_reported {cfg : Config} {db : Store} {now : Int} {tr : List Obs} {w : World}
    (h : (system cfg).Run Lts.Free [] (World.init cfg db now) tr w) :
    (∀ c dev cmd out x msg, w.Offers c dev cmd out x →
      (∃ ev ∈ w.log cfg, resolutionOf ev = some (x, dev.val) ∧
        .appended (.command c dev (key cmd)) ev ∈ tr) ∧ .acked c dev (key cmd) ∈ tr ∧
      ∃ w₁ w₂ o, (system cfg).step w (.conn c (.call (.err msg))) =
          some (w₁, [.handed c dev (key cmd) out false]) ∧
        w₁.hub = w.hub ∧ (system cfg).step w₁ (.conn c .run) =
          some (w₂, [.rejected c dev (key cmd) .agentError, o]) ∧
        o.offer = some (c, .error cmd.id .agentError msg)) ∧
    ∀ m, tr.countP (Obs.recordedAnswer m) =
      tr.countP (Obs.offeredAnswer m) + w.conns.countP (ConnPhase.inHandler (carries m)) := by
  refine ⟨fun c dev cmd out x msg hoff => ?_, fun m => (offered_eq_recorded h m).symm⟩
  obtain ⟨hout, ev, hph⟩ := hoff
  have hans : Answered c (.handling dev cmd (.command ev out)) tr := answered h c _ hph
  obtain ⟨happ, hack⟩ := hans
  have hlog : ev ∈ w.log cfg := by
    rw [log_eq_appended h]
    exact List.mem_filterMap.mpr ⟨_, happ, rfl⟩
  have hcontent : content ev = contentOf (dev, out) := faithful h c _ hph
  have hres : resolutionOf ev = some (x, dev.val) := by
    rw [resolutionOf_commandEvent (congrArg Prod.fst hcontent) (congrArg Prod.snd hcontent), hout]
    rfl
  let w₁ : World := { w with conns := w.conns.set c (.handling dev cmd (.reject .agentError msg)) }
  let w₂ : World := { w₁ with
    hub := (enqueueRaw cfg w.hub c (.error cmd.id .agentError msg)).1
    conns := w₁.conns.set c (.reading dev) }
  have hph₁ : w₁.conns[c]? = some (.handling dev cmd (.reject .agentError msg)) :=
    List.getElem?_set_self (List.getElem?_eq_some_iff.mp hph).1
  have hfail : (system cfg).step w (.conn c (.call (.err msg))) =
      some (w₁, [.handed c dev (key cmd) out false]) := by
    simp only [system, World.step, hph]
    rfl
  have hreport : (system cfg).step w₁ (.conn c .run) =
      some (w₂, [.rejected c dev (key cmd) .agentError,
        (enqueueRaw cfg w.hub c (.error cmd.id .agentError msg)).2]) := by
    simp only [system, World.step, hph₁]
    rfl
  exact ⟨⟨ev, hlog, hres, happ⟩, hack, w₁, w₂, _, hfail, rfl, hreport, enqueueRaw_offer cfg w.hub c _⟩

/-- The agent asks, and the phone's answer has come as far as the adapter. -/
def answerOffered : List Action :=
  Sample.connect 0 "phone-secret" 0 ++
    [.ingest (.adapterEvent .permissionRequest (.obj [("requestId", .str "r1")])), .ingest (.call .ok),
      .ingest .run, .ingest (.order [0]), .ingest .run, .ingest .run,
      .conn 0 (Sample.command "p1" .answerPermission [("requestId", .str "r1"), ("allow", .bool true)]),
      .conn 0 .run, .conn 0 .run, .conn 0 (.call .ok), .conn 0 .run, .conn 0 (.order [0]), .conn 0 .run,
      .conn 0 .run]

theorem refusal_reported_answerOffered :
    ∃ (tr : List Obs) (w : World) (dev : DeviceID) (cmd : CommandPayload) (out : AgentCommand),
      w.Offers 0 dev cmd out (.permission "r1" true) ∧
      (∃ ev ∈ w.log Sample.config, resolutionOf ev = some (.permission "r1" true, dev.val) ∧
        .appended (.command 0 dev (key cmd)) ev ∈ tr) ∧ .acked 0 dev (key cmd) ∈ tr ∧
      ∃ w₁ w₂ o, (system Sample.config).step w (.conn 0 (.call (.err "broken pipe"))) =
          some (w₁, [.handed 0 dev (key cmd) out false]) ∧
        w₁.hub = w.hub ∧ (system Sample.config).step w₁ (.conn 0 .run) =
          some (w₂, [.rejected 0 dev (key cmd) .agentError, o]) ∧
        o.offer = some (0, .error cmd.id .agentError "broken pipe") := by
  have hexec : ∃ r dev cmd ev out, (system Sample.config).exec (fun _ _ _ => true) [] Sample.start
      answerOffered = some r ∧ r.2.conns[0]? = some (.handling dev cmd (.command ev out)) ∧
      answerOf out = some (.permission "r1" true) := ⟨_, _, _, _, _, rfl, rfl, rfl⟩
  obtain ⟨⟨tr, w⟩, dev, cmd, ev, out, he, hph, hout⟩ := hexec
  have hr := Lts.run_of_exec (P := Lts.Free) (fun _ _ _ _ => trivial) he
  have hoff : World.Offers w 0 dev cmd out (.permission "r1" true) := ⟨hout, ev, hph⟩
  exact ⟨tr, w, dev, cmd, out, hoff, (refusal_reported hr).1 0 dev cmd out _ "broken pipe" hoff⟩

/-- The pipe to the agent is broken when the phone's answer gets there: the request stays resolved. -/
theorem refusedAnswer_stays_resolved :
    ∃ tr w w' os, (system Sample.config).Run Lts.Free [] Sample.start tr w ∧
      (system Sample.config).step w (.conn 0 (.call (.err "broken pipe"))) = some (w', os) ∧
      ¬ RefusalReopens Sample.config w' os := by
  have hexec : ∃ r w' os, (system Sample.config).exec (fun _ _ _ => true) [] Sample.start
      answerOffered = some r ∧
      (system Sample.config).step r.2 (.conn 0 (.call (.err "broken pipe"))) = some (w', os) ∧
      (∃ c dev k out, .handed c dev k out false ∈ os ∧ answerOf out = some (.permission "r1" true)) ∧
      w'.hub.isPending (.permission "r1") = false :=
    ⟨_, _, _, rfl, rfl, ⟨_, _, _, _, List.mem_cons_self, rfl⟩, by decide⟩
  obtain ⟨⟨tr, w⟩, w', os, he, hs, ⟨c, dev, k, out, ho, hout⟩, hnot⟩ := hexec
  refine ⟨tr, w, w', os, Lts.run_of_exec (fun _ _ _ _ => trivial) he, hs, fun hre => ?_⟩
  have hp := (hre c dev k out _ ho hout).1
  exact absurd (hnot.symm.trans hp) (by decide)

end Harness.Hub
