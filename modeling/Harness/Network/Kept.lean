/-
# Harness.Network.Kept — what the end of a promise says about the log.

A call on the client returns a promise. The application is told that its command succeeded, or that it
failed, and has nothing else to go by: it does not see the log. `promise_kept` says what it may conclude.
Where replays find their keys settled (`RepliesSettled`), a promise that resolves stands for an event in the
log that says what was asked; one that is rejected with `agent_error` stands for such an event too, of which
the agent did not want to know; and a command that is rejected with any other code has no event and gets none,
however often it was sent. The code is the one the application reads at the start of the error.

`Vouched` is the invariant: whatever answers a command, in a queue of the daemon or on its way, was said by a
handler of that device.
-/
import Harness.Client.Promises
import Harness.Network.Meaning

namespace Harness.Hub

open Wire Lib

/-- The frame answers a command, and the trace says so: a handler of the device has acknowledged it, or has
rejected it with that code. -/
def Vouched (dev : DeviceID) (p : List Obs) : Envelope → Prop
  | .ack id _ => ∃ c, .acked c dev id ∈ p
  | .error id code _ => id = "" ∨ ∃ c, .rejected c dev id code ∈ p
  | _ => True

theorem Vouched.mono {dev : DeviceID} {p p' : List Obs} (hsub : ∀ o ∈ p, o ∈ p') {f : Envelope}
    (h : Vouched dev p f) : Vouched dev p' f := by
  cases f with
  | ack id seq =>
    obtain ⟨c, hc⟩ := h
    exact ⟨c, hsub _ hc⟩
  | error id code msg => exact h.imp_right fun ⟨c, hc⟩ => ⟨c, hsub _ hc⟩
  | _ => trivial

/-- A handler says what it queues. -/
theorem HandleTrans.vouched {cfg : Config} {c : ConnId} {h h' : Hub} {dev : DeviceID} {cmd : CommandPayload}
    {pc : HandlerPc} {ch : Choice} {ph : ConnPhase} {os : List Obs}
    (ht : HandleTrans cfg c h dev cmd pc ch h' ph os) (hkey : key cmd = cmd.id) {o : Obs} (ho : o ∈ os)
    {d : ConnId} {f : Envelope} (hoff : o.offer = some (d, f)) : Vouched dev os f := by
  have queued {f' : Envelope} (ho : o = (enqueueRaw cfg h c f').2) : f = f' := by
    rw [ho, enqueueRaw_offer] at hoff
    cases hoff
    rfl
  cases ht with
  | noId =>
    obtain rfl := queued (List.mem_singleton.mp ho)
    exact .inl rfl
  | replay | ack =>
    rcases List.mem_pair.mp ho with rfl | ho
    · cases hoff
    · obtain rfl := queued ho
      rw [hkey]
      exact ⟨c, List.mem_cons_self⟩
  | reject =>
    rcases List.mem_pair.mp ho with rfl | ho
    · cases hoff
    · obtain rfl := queued ho
      rw [hkey]
      exact .inr ⟨c, List.mem_cons_self⟩
  | broadcast hb | broadcastDone hb =>
    obtain ⟨e, he⟩ := hb.frame.2.2.2 o ho
    rw [he] at hoff
    cases hoff
    trivial
  | execute hex =>
    cases hex with
    | claim =>
      cases List.mem_singleton.mp ho
      cases hoff
    | proceed | refuse => cases ho
  | suppress | accept | append | command | commandFails =>
    cases List.mem_singleton.mp ho
    cases hoff
  | appendFails => cases ho

/-- What is queued for a connection of the device is an event, a snapshot, or vouched for. -/
theorem StepTrans.vouched {cfg : Config} {w w' : World} {a : Action} {os : List Obs} {dev : DeviceID}
    (h : StepTrans cfg w a w' os) {c : ConnId}
    (hmine : ∀ d cmd pc, w.conns[c]? = some (.handling d cmd pc) → d = dev ∧ key cmd = cmd.id) {o : Obs}
    (ho : o ∈ os) {f : Envelope} (hoff : o.offer = some (c, f)) : Vouched dev os f := by
  rcases h.offers ho hoff with ⟨ev, rfl⟩ |
    ⟨c', ch, ph, rfl, hph, ⟨d, cmd, pc, rfl, rfl, -⟩ | ⟨d, n, snap, events, p, -, rfl⟩⟩
  · trivial
  · obtain ⟨rfl, hkey⟩ := hmine d cmd pc hph
    cases h with
    | conn hph0 ht =>
      obtain rfl := Option.some.inj (hph.symm.trans hph0)
      cases ht with
      | handling ht => exact ht.vouched hkey ho hoff
  · trivial

/-- No ack goes around the queue. -/
theorem ConnTrans.not_direct_ack {cfg : Config} {c : ConnId} {h h' : Hub} {ph ph' : ConnPhase} {ch : Choice}
    {os : List Obs} (ht : ConnTrans cfg c h ph ch h' ph' os) (d : ConnId) (id : String) (seq : Nat) :
    .direct d (.ack id seq) ∉ os := by
  intro ho
  cases ht with
  | turnedAway hos =>
    obtain ⟨code, msg, he⟩ := hos _ ho
    cases he
  | pairing ht =>
    cases ht with
    | quit _ hos => rcases hos _ ho with ⟨code, msg, he⟩ | he <;> cases he
    | issue | issueFails => rcases List.mem_pair.mp ho with he | he <;> cases he
    | consume | allowed | approve | consumeOwn => cases List.mem_singleton.mp ho
    | peek | ask | check | consumeLost => cases ho
  | serving ht =>
    cases ht with
    | quit => cases List.mem_singleton.mp ho
    | register _ henq =>
      rcases List.mem_cons.mp ho with he | ho
      · cases he
      · obtain ⟨f', -, hoff⟩ := enqueueAll_obs henq _ ho
        cases hoff
    | getSession | getEvents | getSince => cases ho
  | handling ht => exact ht.direct d _ ho
  | authenticated | unauthenticated | frame | skip | gone => cases ho

/-- What goes around the queue needs no voucher. -/
theorem StepTrans.direct_vouched {cfg : Config} {w w' : World} {a : Action} {os : List Obs}
    (h : StepTrans cfg w a w' os) {d : ConnId} {f : Envelope} (ho : .direct d f ∈ os) (dev : DeviceID)
    (p : List Obs) : Vouched dev p f := by
  rcases h.direct ho with hans | ⟨d', name, cred, rfl⟩
  · cases f with
    | ack id seq =>
      obtain ⟨ch, ph, h', ph', -, -, -, ht, -⟩ := h.of_conn ho (c := d) rfl
      exact (ht.not_direct_ack d id seq ho).elim
    | error id code msg => exact .inl (Option.some.inj hans)
    | _ => trivial
  · trivial

/-! ## Rejections -/

/-- An error is said by a handler that rejects. -/
theorem StepTrans.rejected {cfg : Config} {w w' : World} {a : Action} {os : List Obs}
    (h : StepTrans cfg w a w' os) {c : ConnId} {dev : DeviceID} {k : String} {code : ErrorCode}
    (ho : .rejected c dev k code ∈ os) :
    ∃ cmd msg, w.conns[c]? = some (.handling dev cmd (.reject code msg)) ∧ k = key cmd := by
  obtain ⟨ch, ph, h', ph', rfl, hph, -, ht, -⟩ := h.of_conn ho (c := c) rfl
  rcases ht.enters with ⟨d, cmd, pc, rfl, hth⟩ | ⟨-, hno, -⟩
  · cases hth with
    | reject =>
      rw [mem_answered rfl] at ho
      cases ho
      exact ⟨cmd, _, hph, rfl⟩
    | replay | ack =>
      rw [mem_answered rfl] at ho
      cases ho
    | noId => exact ((mem_queued rfl).mp ho).elim
    | execute hex => cases hex <;> simp at ho
    | broadcast hb | broadcastDone hb =>
      obtain ⟨d, hd⟩ := hb.frame.2.2.2 _ ho
      cases hd
    | suppress | accept | append | appendFails | command | commandFails => simp at ho
  · exact absurd rfl ((hno _ ho).2 c)

/-- A command that fails at the agent has its event. -/
theorem effect_of_agentError {cfg : Config} {P : List Obs → World → Action → Prop} {db : Store} {now : Int}
    {tr : List Obs} {w : World} (h : (system cfg).Run P [] (World.init cfg db now) tr w) {c : ConnId}
    {dev : DeviceID} {k : String} (ho : .rejected c dev k .agentError ∈ tr) : EffectIn tr dev k := by
  obtain ⟨t, u, a, u', os, hr, -, hs, hmem, hrest⟩ := h.step_of_mem ho List.not_mem_nil
  obtain ⟨cmd, msg, hph, rfl⟩ := (World.step_trans hs).rejected hmem
  have heff : EffectIn t dev (key cmd) := underway hr c _ hph rfl
  exact heff.mono ((List.prefix_append t os).trans hrest.prefix_trace)

/-- **A command that fails before the agent has no event**, and gets none. -/
theorem no_effect_of_refused {cfg : Config} {P : List Obs → World → Action → Prop} {db : Store} {now : Int}
    {tr : List Obs} {w : World} (h : (system cfg).Run P [] (World.init cfg db now) tr w) {c : ConnId}
    {dev : DeviceID} {k : String} {code : ErrorCode} (hcode : code ≠ .agentError)
    (ho : .rejected c dev k code ∈ tr) : ¬ EffectIn tr dev k := by
  rw [effectIn_iff]
  have hone := accepted_once h dev k
  have hled := decided_eq_accepted h dev k
  have hsplit := countP_decidedFor dev k tr
  have hrefused : 0 < tr.countP (Obs.refusedFor dev k) :=
    List.countP_pos_iff.mpr ⟨_, ho, by simp [Obs.refusedFor, hcode]⟩
  omega

end Harness.Hub

namespace Harness.Network

open Wire Lib
open Client (HarnessClient SocketId Request)
open Hub (Config ConnId Vouched EffectIn)

/-! ## Answers on their way -/

/-- Whatever waits for the client was said by the daemon. -/
def Answers (dev : DeviceID) (tr : List Obs) (w : World) : Prop :=
  ∀ (c : ConnId) f, w.peers[c]? ≠ some none → f ∈ (w.host.hub.outbound c).send ∨ f ∈ w.down c →
    Vouched dev (hostTrace tr) f

theorem Answers.host {cfg : Config} {dev : DeviceID} {t : List Obs} {w : World} {a : Hub.Action}
    {h' : Hub.World} {os : List Hub.Obs} {peers' : List (Option SocketId)} {up' : SocketId → List Client.Frame}
    (hw : Wired cfg dev t w) (h : Answers dev t w)
    (hpeers : ∀ c : ConnId, peers'[c]? ≠ some none → w.peers[c]? ≠ some none)
    (hs : w.host.step cfg a = some (h', os)) :
    Answers dev (t ++ os.map .host)
      { w with
        host := h', peers := peers', up := up'
        down := fun c => w.down c ++ os.filterMap (writtenTo c) } := by
  intro c f hc hf
  rw [hostTrace_append, hostTrace_host]
  have old (hold : f ∈ (w.host.hub.outbound c).send ∨ f ∈ w.down c) : Vouched dev (hostTrace t ++ os) f :=
    (h c f (hpeers c hc) hold).mono fun o ho => List.mem_append_left _ ho
  rcases hf with hf | hf
  · rcases Hub.World.step_send hs hf with hold | ⟨o, ho, hoff⟩
    · exact old (.inl hold)
    · refine Vouched.mono (fun o ho => List.mem_append_right _ ho)
        ((Hub.World.step_trans hs).vouched ?_ ho hoff)
      intro d cmd pc hph
      have hown : w.own c = true := hw.own_of_ne hph (hpeers c hc)
      exact ⟨(hw.mine c _ d hph rfl).mpr hown, (hw.working c d cmd pc hph hown).1.key⟩
  · rcases List.mem_append.mp hf with hold | hnew
    · exact old (.inr hold)
    · obtain ⟨o, ho, hwr⟩ := List.mem_filterMap.mp hnew
      rcases written_cases hwr with rfl | rfl
      · exact old (.inl (Hub.World.step_written hs ho))
      · exact (Hub.World.step_trans hs).direct_vouched ho dev _

theorem answers {cfg : Config} {dev : DeviceID} {P : List Obs → World → Action → Prop} {db : Store} {now : Int}
    {url : String} {authMode : Client.AuthMode} {identity : Option Client.Identity} {maxItems : Option Nat}
    {tr : List Obs} {w : World}
    (h : (system cfg dev).Run P [] (World.init cfg db now (.new url authMode identity maxItems)) tr w) :
    Answers dev tr w := by
  refine h.invariant ?_ ?_
  · rintro c f - (hf | hf) <;> cases hf
  · intro t u a u' os hr ih _ hs
    have keep {c' : HarnessClient} {up' : SocketId → List Client.Frame} {down' : ConnId → List Envelope}
        (cos : List Client.Obs) (hdown : ∀ c, ∀ f ∈ down' c, f ∈ u.down c) :
        Answers dev (t ++ cos.map .client) { u with client := c', up := up', down := down' } := by
      intro c f hc hf
      rw [hostTrace_append, hostTrace_client, List.append_nil]
      exact ih c f hc (hf.imp_right (hdown c f))
    cases step_move hs with
    | call ht => exact keep _ ht.down
    | deliver _ _ ht => exact keep _ ht.down
    | @accept a authorization ra ua peer h' os hnew hs' =>
      refine ih.host (wired hr) (fun c hc hnone => hc ?_) hs'
      obtain ⟨hlt, -⟩ := List.getElem?_eq_some_iff.mp hnone
      rw [List.getElem?_append_left hlt]
      exact hnone
    | read _ _ _ hs' | host _ _ hs' => exact ih.host (wired hr) (fun _ hc => hc) hs'

/-- The answer the client gives a promise was said by the daemon. -/
theorem settled_vouched {dev : DeviceID} {t : List Obs} {w : World} {ca : Client.Action} {c' : HarnessClient}
    {os : List Client.Obs} {down' : ConnId → List Envelope} (h : Answers dev t w) (ht : Turn w ca c' os down')
    {id : String} :
    (.resolved id ∈ os → ∃ c, .host (.acked c dev id) ∈ t) ∧
      ∀ code, .rejected id code ∈ os → ∃ c e, code = .str e.string ∧ .host (.rejected c dev id e) ∈ t := by
  have heard {f : Client.Inbound} (hd : Client.Delivered w.client ca f) :
      ∃ e, Vouched dev (hostTrace t) e ∧ Client.inboundOf e = f := by
    obtain ⟨c, e, hown, he, hin⟩ := ht.heard f hd
    refine ⟨e, h c e (fun hnone => ?_) (.inr he), hin⟩
    rw [World.own, hnone] at hown
    cases hown
  constructor
  · intro ho
    obtain ⟨ack, hd, hid⟩ := Client.settled_by ht.turn _ ho
    obtain ⟨e, hb, hin⟩ := heard hd
    cases e with
    | ack id' seq =>
      cases hin
      rw [get_ack] at hid
      cases hid
      obtain ⟨c, hc⟩ := hb
      exact ⟨c, mem_hostTrace.mp hc⟩
    | _ => cases hin
  · intro code ho
    obtain ⟨err, hd, hid, hcode⟩ := Client.settled_by ht.turn _ ho
    obtain ⟨e, hb, hin⟩ := heard hd
    cases e with
    | error id' e msg =>
      cases hin
      rw [get_error] at hid
      rw [get_error_code] at hcode
      split at hid
      · cases hid
      · rename_i hne
        cases hid
        obtain ⟨c, hc⟩ := hb.resolve_left hne
        exact ⟨c, e, hcode.symm, mem_hostTrace.mp hc⟩
    | _ => cases hin

/-! ## The run -/

/-- A promise ends by the word of the daemon. -/
theorem settled_said {cfg : Config} {dev : DeviceID} {P : List Obs → World → Action → Prop} {db : Store}
    {now : Int} {url : String} {authMode : Client.AuthMode} {identity : Option Client.Identity}
    {maxItems : Option Nat} {tr : List Obs} {w : World}
    (h : (system cfg dev).Run P [] (World.init cfg db now (.new url authMode identity maxItems)) tr w)
    {o : Client.Obs} (ho : .client o ∈ tr) {id : String} :
    (o = .resolved id → ∃ c, .host (.acked c dev id) ∈ tr) ∧
      ∀ code, o = .rejected id code → ∃ c e, code = .str e.string ∧ .host (.rejected c dev id e) ∈ tr := by
  obtain ⟨t, u, a, u', os, hr, -, hs, hmem, hrest⟩ := h.step_of_mem ho List.not_mem_nil
  have hpre : t <+: tr := (List.prefix_append t os).trans hrest.prefix_trace
  cases step_move hs with
  | call ht | deliver _ _ ht =>
    obtain ⟨o', ho', he⟩ := List.mem_map.mp hmem
    cases he
    obtain ⟨hres, hrej⟩ := settled_vouched (answers hr) ht
    constructor
    · rintro rfl
      obtain ⟨c, hc⟩ := hres ho'
      exact ⟨c, hpre.mem hc⟩
    · rintro code rfl
      obtain ⟨c, e, hcode, hc⟩ := hrej code ho'
      exact ⟨c, e, hcode, hpre.mem hc⟩
  | accept | read | host =>
    obtain ⟨o', -, he⟩ := List.mem_map.mp hmem
    cases he

/-- **`RepliesSettled asked dev`** — the condition on a step: the application draws the id of its request,
and a replay of the device that is about to be acknowledged finds its key settled. -/
structure RepliesSettled (asked : String → Request) (dev : DeviceID) (t : List Obs) (w : World) (a : Action) :
    Prop where
  draws : Draws asked t w a
  settled : ∀ c ch cmd, a = .host (.conn c ch) → w.host.conns[c]? = some (.handling dev cmd .replay) →
    Hub.Settled dev (Hub.key cmd) (hostTrace t) w.host

/-- No other code reads `agent_error`. -/
theorem string_agentError {e : ErrorCode} : e.string = "agent_error" ↔ e = .agentError := by
  cases e <;> decide

section Run

variable {cfg : Config} {dev : DeviceID} {asked : String → Request} {db : Store} {now : Int} {url : String}
  {authMode : Client.AuthMode} {identity : Option Client.Identity} {maxItems : Option Nat} {tr : List Obs}
  {w : World}

/-- An ack of the device stands for an event. -/
theorem effect_of_acked
    (h : (system cfg dev).Run (RepliesSettled asked dev) []
      (World.init cfg db now (.new url authMode identity maxItems)) tr w)
    {c : ConnId} {k : String} (ho : .host (.acked c dev k) ∈ tr) : EffectIn (hostTrace tr) dev k := by
  obtain ⟨t, u, a, u', os, hr, hP, hs, hmem, hrest⟩ := h.step_of_mem ho List.not_mem_nil
  have hpre : hostTrace t <+: hostTrace tr :=
    (List.IsPrefix.trans (List.prefix_append t os) hrest.prefix_trace).filterMap _
  apply EffectIn.mono hpre
  have hhost {ha : Hub.Action} {h' : Hub.World} {hos : List Hub.Obs} (hs' : u.host.step cfg ha = some (h', hos))
      (ho' : .acked c dev k ∈ hos) (hreplay : ∀ ch cmd, ha = .conn c ch →
        u.host.conns[c]? = some (.handling dev cmd .replay) →
          Hub.Settled dev (Hub.key cmd) (hostTrace t) u.host) : EffectIn (hostTrace t) dev k := by
    obtain ⟨ch, cmd, pc, rfl, hph, rfl, hpc⟩ := (Hub.World.step_trans hs').acked ho'
    have hground := Hub.grounded (host_run hr) c _ hph
    rcases hpc with rfl | ⟨ev, out, rfl⟩
    · -- a replay: its key was accepted, and the condition says it is settled
      obtain ⟨c', hacc⟩ := hground
      exact (Hub.effectIn_iff_settled (host_run hr) hacc).mpr (hreplay ch cmd rfl hph)
    · exact hground
  have hout {hos : List Hub.Obs} (hmem : .host (.acked c dev k) ∈ hos.map Obs.host) : .acked c dev k ∈ hos := by
    obtain ⟨o', ho', he⟩ := List.mem_map.mp hmem
    cases he
    exact ho'
  cases step_move hs with
  | call | deliver =>
    obtain ⟨o', -, he⟩ := List.mem_map.mp hmem
    cases he
  | accept _ hs' => exact hhost hs' (hout hmem) fun ch cmd he => by cases he
  | read _ _ _ hs' =>
    -- a connection at work reads nothing
    refine hhost hs' (hout hmem) fun ch cmd he hph' => ?_
    cases he
    obtain ⟨ph0, h1, ph', hph0, hcs, -⟩ := Hub.World.step_conn hs'
    obtain rfl := Option.some.inj (hph0.symm.trans hph')
    have hread := not_busy hcs
    rw [reads_incoming] at hread
    cases hread
  | host _ _ hs' =>
    exact hhost hs' (hout hmem) fun ch cmd he hph => hP.settled c ch cmd (congrArg Action.host he) hph

/-- The event of an effect says what was asked. -/
theorem event_of_effect
    (h : (system cfg dev).Run (RepliesSettled asked dev) []
      (World.init cfg db now (.new url authMode identity maxItems)) tr w)
    {k : String} (heff : EffectIn (hostTrace tr) dev k) :
    ∃ ev ∈ w.host.log cfg, (ev.kind, ev.payload) = Hub.commandEvent dev (asked k).asks := by
  obtain ⟨c, ev, ho⟩ := heff
  have hlog : ev ∈ w.host.log cfg := by
    rw [Hub.log_eq_appended (host_run h)]
    exact List.mem_filterMap.mpr ⟨_, ho, rfl⟩
  have htrue := truthful (h.mono fun _ _ _ hP => hP.draws)
  obtain ⟨p, -, hp⟩ := htrue.of_mem (mem_hostTrace.mp ho)
  obtain ⟨-, hsays⟩ := hp _ k rfl rfl
  exact ⟨ev, hlog, hsays⟩

/-- **What the application may conclude from a promise**: one that resolves has its event in the log; one that
is rejected was rejected by the daemon with the code the application reads, and its event is in the log when that
is `agent_error`, while with another code there is no event of the command in the whole run. -/
theorem promise_kept
    (h : (system cfg dev).Run (RepliesSettled asked dev) []
      (World.init cfg db now (.new url authMode identity maxItems)) tr w) (id : String) :
    (.client (.resolved id) ∈ tr →
      ∃ ev ∈ w.host.log cfg, (ev.kind, ev.payload) = Hub.commandEvent dev (asked id).asks) ∧
    ∀ code, .client (.rejected id code) ∈ tr →
      (∃ c e, code = .str e.string ∧ .host (.rejected c dev id e) ∈ tr) ∧
      (code = .str "agent_error" →
        ∃ ev ∈ w.host.log cfg, (ev.kind, ev.payload) = Hub.commandEvent dev (asked id).asks) ∧
      (code ≠ .str "agent_error" → ∀ c' ev, .host (.appended (.command c' dev id) ev) ∉ tr) := by
  constructor
  · intro ho
    obtain ⟨c, hc⟩ := (settled_said h ho).1 rfl
    exact event_of_effect h (effect_of_acked h hc)
  · intro code ho
    obtain ⟨c, e, rfl, hc⟩ := (settled_said h ho).2 code rfl
    refine ⟨⟨c, e, rfl, hc⟩, fun hagent => ?_, fun hagent c' ev hev => ?_⟩
    · obtain rfl := string_agentError.mp (Client.JsValue.str.inj hagent)
      exact event_of_effect h (Hub.effect_of_agentError (host_run h) (mem_hostTrace.mpr hc))
    · have hcode : e ≠ .agentError := fun he => hagent (congrArg _ (string_agentError.mpr he))
      exact Hub.no_effect_of_refused (host_run h) hcode (mem_hostTrace.mpr hc) ⟨c', ev, mem_hostTrace.mpr hev⟩

end Run

/-- A prompt, and an answer to a request nobody made. -/
def Sample.promptAndAnswer (id : String) : Request :=
  if id = "c1" then .sendPrompt "one" else .answerPermission "r9" true none

/-- The first is appended and handed over, and its ack received; the second is refused. -/
def Sample.answeredBoth : List Action :=
  .client (.connect none {}) :: Sample.join 0 ++
    [.client (.send (Sample.promptAndAnswer "c1") "c1"), .read 0 {} .ok, .host (.conn 0 .run),
      .host (.conn 0 .run), .host (.conn 0 (.call .ok)), .host (.conn 0 .run), .host (.conn 0 (.order [0])),
      .host (.conn 0 .run), .host (.conn 0 .run), .host (.conn 0 (.call .ok)), .host (.write 0 .send),
      .deliver 0 {}, .host (.write 0 .send), .deliver 0 {},
      .client (.send (Sample.promptAndAnswer "c2") "c2"), .read 0 {} .ok, .host (.conn 0 .run),
      .host (.conn 0 .run), .host (.conn 0 .run), .host (.write 0 .send), .deliver 0 {}]

/-- No replay is about to be acknowledged. -/
def noReplay (w : World) : Action → Bool
  | .host (.conn c _) =>
      match w.host.conns[c]? with
      | some (.handling _ _ .replay) => false
      | _ => true
  | _ => true

/-- What the application sends in that run. -/
def drawsBoth : Action → Bool
  | .client (.send (.sendPrompt text) id) => id == "c1" && text == "one"
  | .client (.send (.answerPermission r allow always) id) => id == "c2" && r == "r9" && allow && always.isNone
  | .client (.send _ _) => false
  | _ => true

theorem drawsBoth_draws {t : List Obs} {w : World} {a : Action} (h : drawsBoth a = true) :
    Draws Sample.promptAndAnswer t w a := by
  rintro req id rfl
  cases req with
  | sendPrompt text =>
    obtain ⟨hid, htext⟩ := Bool.and_eq_true_iff.mp h
    obtain rfl := eq_of_beq hid
    obtain rfl := eq_of_beq htext
    rfl
  | answerPermission r allow always =>
    simp only [drawsBoth, Bool.and_eq_true, beq_iff_eq, Option.isNone_iff_eq_none] at h
    obtain ⟨⟨⟨rfl, rfl⟩, rfl⟩, rfl⟩ := h
    rfl
  | _ => cases h

theorem repliesSettled_of_check {t : List Obs} {w : World} {a : Action} {dev : DeviceID}
    (ha : drawsBoth a = true) (h : noReplay w a = true) :
    RepliesSettled Sample.promptAndAnswer dev t w a where
  draws := drawsBoth_draws ha
  settled := by
    rintro c ch cmd rfl hph
    rw [noReplay, hph] at h
    cases h

/-- The ends of the promises, with the code of a rejection. -/
def ends (tr : List Obs) : List (String × Option String) := tr.filterMap fun o =>
  match o with
  | .client (.resolved id) => some (id, none)
  | .client (.rejected id code) => some (id, Client.optionalString code)
  | _ => none

theorem promise_kept_answeredBoth :
    ∃ tr w, (system Hub.Sample.config Hub.Sample.phone).Run
        (RepliesSettled Sample.promptAndAnswer Hub.Sample.phone) [] Sample.start tr w ∧
      ends tr = [("c1", none), ("c2", some "already_resolved")] ∧ ∀ id,
      (.client (.resolved id) ∈ tr → ∃ ev ∈ w.host.log Hub.Sample.config,
        (ev.kind, ev.payload) = Hub.commandEvent Hub.Sample.phone (Sample.promptAndAnswer id).asks) ∧
      ∀ code, .client (.rejected id code) ∈ tr →
        (∃ c e, code = .str e.string ∧ .host (.rejected c Hub.Sample.phone id e) ∈ tr) ∧
        (code = .str "agent_error" → ∃ ev ∈ w.host.log Hub.Sample.config,
          (ev.kind, ev.payload) = Hub.commandEvent Hub.Sample.phone (Sample.promptAndAnswer id).asks) ∧
        (code ≠ .str "agent_error" → ∀ c' ev, .host (.appended (.command c' Hub.Sample.phone id) ev) ∉ tr) := by
  have hexec : ((system Hub.Sample.config Hub.Sample.phone).exec (fun _ => noReplay) [] Sample.start
      Sample.answeredBoth).map (fun r => ends r.1) =
        some [("c1", none), ("c2", some "already_resolved")] := by decide +kernel
  obtain ⟨⟨tr, w⟩, hr, hends⟩ := Option.map_eq_some_iff.mp hexec
  have hall : ∀ a ∈ Sample.answeredBoth, drawsBoth a = true := List.all_eq_true.mp rfl
  have hrun := Lts.run_of_exec_mem (P := RepliesSettled Sample.promptAndAnswer Hub.Sample.phone)
    (fun a ha _ _ hno => repliesSettled_of_check (hall a ha) hno) hr
  exact ⟨tr, w, hrun, hends, promise_kept hrun⟩

end Harness.Network
