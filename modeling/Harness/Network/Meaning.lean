/-
# Harness.Network.Meaning — the agent hears what the user said.

A command is a method call on the client, an entry of its queue, a frame, a `json.RawMessage` in the
daemon, a body of `internal/protocol`, an event in the log and a call of the adapter; it may be sent three
times and be read on two connections. `heard_as_meant` says that nothing of it is lost or changed on the way
and nothing is made up: what the log and the agent get in the name of the device was asked for by the
application under that id, says the same, and reaches each of them once at most.

The ids come from `uuid()`, which does not repeat itself; here that is a function `asked` from the ids to
the requests they were drawn for (`Draws`).
-/
import Harness.Network.CommandOrder
import Harness.Network.Move
import Harness.Hub.PendingLog

namespace Harness.Client

open Wire

/-- What a request asks of the agent. -/
def Request.asks : Request → AgentCommand
  | .sendPrompt text => .sendPrompt { text := text }
  | .answerPermission requestId allow allowAlways =>
      .answerPermission { requestID := requestId, allow := allow, allowAlways := allowAlways.getD false }
  | .answerQuestion questionId text => .answerQuestion { questionID := questionId, text := text }
  | .setMode mode => .setMode { mode := mode }
  | .interrupt => .interrupt

theorem decode_answerPermission (requestId : String) (allow : Bool) (allowAlways : Option Bool) :
    AnswerPermissionBody.decode (some (Request.answerPermission requestId allow allowAlways).command.2) =
      some { requestID := requestId, allow := allow, allowAlways := allowAlways.getD false } := by
  cases allowAlways <;> rfl

/-- **The daemon reads a request as it was meant**, if it lets it through at all. -/
theorem execute_asks {c : Hub.ConnId} {h : Harness.Hub} {req : Request} {id : String} {out : AgentCommand}
    (hpc : (Hub.execute c h (req.payload id)).2.1 = .append out) : out = req.asks := by
  unfold Hub.execute at hpc
  cases req with
  | sendPrompt text =>
    cases hpc
    rfl
  | answerPermission requestId allow allowAlways =>
    -- an answer goes through only while its request is pending
    have hdec : AnswerPermissionBody.decode
        ((Request.answerPermission requestId allow allowAlways).payload id).payload = some _ :=
      decode_answerPermission requestId allow allowAlways
    simp only [Request.payload, Request.command] at hpc hdec
    rw [hdec] at hpc
    dsimp only at hpc
    split at hpc
    · cases hpc
      rfl
    · cases hpc
  | answerQuestion questionId text =>
    have hdec : AnswerQuestionBody.decode ((Request.answerQuestion questionId text).payload id).payload =
        some { questionID := questionId, text := text } := rfl
    simp only [Request.payload, Request.command] at hpc hdec
    rw [hdec] at hpc
    dsimp only at hpc
    split at hpc
    · cases hpc
      rfl
    · cases hpc
  | setMode mode =>
    have hdec : SetModeBody.decode ((Request.setMode mode).payload id).payload = some { mode := mode } := rfl
    simp only [Request.payload, Request.command] at hpc hdec
    rw [hdec] at hpc
    dsimp only at hpc
    split at hpc
    · cases hpc
    · cases hpc
      rfl
  | interrupt =>
    cases hpc
    rfl

/-- Only a call puts a command into the queue, the command of its request. -/
theorem HarnessClient.step_queued {c c' : HarnessClient} {a : Action} {os : List Obs}
    (h : c.step a = some (c', os)) {e : String × CommandPayload} (he : e ∈ c'.outbox.entries) :
    e ∈ c.outbox.entries ∨ ∃ req, a = .send req e.1 ∧ e.2 = req.payload e.1 := by
  obtain ⟨d, ht, rfl, -⟩ := c.step_trans h
  replace he : e ∈ d.outbox.entries := he
  cases ht with
  | silent h =>
    rw [h.outbox] at he
    exact .inl he
  | renewed h =>
    rw [h.outbox] at he
    exact .inl he
  | restored _ _ _ _ ho | applied _ _ _ _ _ _ ho =>
    rw [ho] at he
    exact .inl he
  | issued ha _ _ _ ho =>
    rw [ho, Lib.OrderedMap.mem_entries_set] at he
    rcases he with rfl | ⟨he, -⟩
    · exact .inr ⟨_, ha, rfl⟩
    · exact .inl he
  | accepted _ _ _ ho =>
    rw [ho] at he
    split at he
    · cases he
    · exact .inl he
  | discarded _ _ hc =>
    subst hc
    exact .inl he
  | settled _ _ _ hc | orphaned _ _ _ _ hc =>
    subst hc
    exact .inl (Lib.OrderedMap.mem_entries_delete.mp he).1

end Harness.Client

namespace Harness.Hub

open Wire

/-- The command a handler will append or has appended. -/
def HandlerPc.bound : HandlerPc → Option AgentCommand
  | .append out => some out
  | pc => pc.committed

/-- A handler gets its command from the switch, once. -/
theorem connStep_bound {cfg : Config} {c : ConnId} {h h' : Hub} {ph : ConnPhase} {ch : Choice} {dev : DeviceID}
    {cmd : CommandPayload} {pc : HandlerPc} {out : AgentCommand} {os : List Obs}
    (hs : connStep cfg c h ph ch = some (h', .handling dev cmd pc, os)) (hout : pc.bound = some out) :
    (execute c h cmd).2.1 = .append out ∨ ∃ pc₀, ph = .handling dev cmd pc₀ ∧ pc₀.bound = some out := by
  cases connStep_trans hs with
  | handling ht =>
    cases ht with
    | execute hex =>
      obtain ⟨-, hpc⟩ := handleStep_execute hs
      injection hpc with _ _ hpc
      cases hex with
      | claim | proceed =>
        cases hout
        exact .inl hpc.symm
      | refuse => cases hout
    | append | ack | broadcast | broadcastDone => exact .inr ⟨_, rfl, hout⟩
    | suppress | accept | appendFails | commandFails => cases hout
  | frame => cases hout
  | pairing ht => cases ht
  | serving ht => cases ht

/-- The command an observation is about: its event in the log, or its call of the adapter. -/
def Obs.commandOf : Obs → Option (DeviceID × String)
  | .appended (.command _ dev k) _ | .handed _ dev k _ _ => some (dev, k)
  | _ => none

/-- The observation says `out`: its event is the one of `out`, or `out` is what the adapter is called with. -/
def Obs.Says (out : AgentCommand) : Obs → Prop
  | .appended (.command _ dev _) ev => (ev.kind, ev.payload) = commandEvent dev out
  | .handed _ _ _ out' _ => out' = out
  | _ => False

/-- What a handler puts into the log, or hands over, is the command it is bound to. -/
theorem HandleTrans.said {cfg : Config} {c : ConnId} {h h' : Hub} {dev d : DeviceID} {cmd : CommandPayload}
    {pc : HandlerPc} {ch : Choice} {ph : ConnPhase} {os : List Obs} {o : Obs} {k : String}
    (ht : HandleTrans cfg c h dev cmd pc ch h' ph os) (ho : o ∈ os) (hof : o.commandOf = some (d, k)) :
    d = dev ∧ k = key cmd ∧ ∃ out, pc.bound = some out ∧ o.Says out := by
  have aside (hq : o.offer ≠ none) : False := by
    cases o <;> first | exact hq rfl | cases hof
  have answered {o' : Obs} {f : Envelope} (hmem : o ∈ [o', (enqueueRaw cfg h c f).2]) : o = o' :=
    (mem_answered (by_contra aside)).mp hmem
  cases ht with
  | @append _ out ev st happ =>
    cases List.mem_singleton.mp ho
    cases hof
    obtain ⟨-, hk, hp, -⟩ := Store.appendEvent_spec happ
    exact ⟨rfl, rfl, out, rfl, Prod.ext hk hp⟩
  | command | commandFails =>
    cases List.mem_singleton.mp ho
    cases hof
    exact ⟨rfl, rfl, _, rfl, rfl⟩
  | noId => exact ((mem_queued (by_contra aside)).mp ho).elim
  | replay | ack | reject =>
    cases answered ho
    cases hof
  | execute hex =>
    cases hex with
    | claim =>
      cases List.mem_singleton.mp ho
      cases hof
    | proceed | refuse => cases ho
  | broadcast hb | broadcastDone hb =>
    obtain ⟨c', hc'⟩ := hb.frame.2.2.2 _ ho
    refine (aside ?_).elim
    rw [hc']
    exact Option.some_ne_none _
  | suppress | accept =>
    cases List.mem_singleton.mp ho
    cases hof
  | appendFails => cases ho

theorem StepTrans.said {cfg : Config} {w w' : World} {a : Action} {os : List Obs}
    (h : StepTrans cfg w a w' os) {o : Obs} {dev : DeviceID} {k : String} (ho : o ∈ os)
    (hof : o.commandOf = some (dev, k)) :
    ∃ (c : ConnId) (cmd : CommandPayload) (pc : HandlerPc) (out : AgentCommand),
      w.conns[c]? = some (.handling dev cmd pc) ∧ k = key cmd ∧ pc.bound = some out ∧ o.Says out := by
  have hsrc : ∃ c, o.source = .handler c := by
    cases o with
    | appended wr ev =>
      cases wr with
      | command c d k' => exact ⟨c, rfl⟩
      | ingest => cases hof
    | handed c d k' out ok => exact ⟨c, rfl⟩
    | _ => cases hof
  obtain ⟨c, hc⟩ := hsrc
  rcases h.actors with ⟨c', d, cmd, pc, ch, h', ph', -, hph, ht, -⟩ | ⟨ch, h', ph', -, ht, -⟩ | ⟨-, hno, -⟩
  · obtain ⟨rfl, hk, out, hout, hsays⟩ := ht.said ho hof
    exact ⟨c', cmd, pc, out, hph, hk, hout, hsays⟩
  · rcases ht.obs o ho with hi | hq
    · cases hc.symm.trans hi
    · cases hc.symm.trans hq
  · exact absurd hc ((hno o ho).2 c)

end Harness.Hub

namespace Harness.Network

open Wire Lib
open Client (HarnessClient SocketId Request)
open Hub (Config ConnId)

/-- **`Draws asked`** — the condition on a step: a call of the application draws the id of its request. -/
def Draws (asked : String → Request) (_ : List Obs) (_ : World) (a : Action) : Prop :=
  ∀ req id, a = .client (.send req id) → req = asked id

/-- The command as the client made it. -/
def AsAsked (asked : String → Request) (cmd : CommandPayload) : Prop := cmd = (asked cmd.id).payload cmd.id

/-- Every command, wherever it is, is the one that was asked for under its id. -/
structure Meant (asked : String → Request) (w : World) : Prop where
  queue : ∀ e ∈ w.client.outbox.entries, e.2 = (asked e.1).payload e.1
  up : ∀ i, ∀ cmd ∈ Client.commands (w.up i), AsAsked asked cmd
  working : ∀ (c : ConnId) d cmd pc, w.host.conns[c]? = some (.handling d cmd pc) → w.own c = true →
    AsAsked asked cmd ∧ ∀ out, pc.bound = some out → out = (asked cmd.id).asks

theorem meant_init (asked : String → Request) (cfg : Config) (db : Store) (now : Int) (url : String)
    (authMode : Client.AuthMode) (identity : Option Client.Identity) (maxItems : Option Nat) :
    Meant asked (World.init cfg db now (.new url authMode identity maxItems)) where
  queue := by intro e he; cases he
  up := by intro i cmd h; cases h
  working := by intro c d cmd pc h; cases h

section Turn

variable {asked : String → Request} {w : World} {ca : Client.Action} {c' : HarnessClient}
  {os : List Client.Obs}

theorem Meant.queue_turn (h : Meant asked w) (hdraws : ∀ req id, ca = .send req id → req = asked id)
    (hs : w.client.step ca = some (c', os)) : ∀ e ∈ c'.outbox.entries, e.2 = (asked e.1).payload e.1 := by
  intro e he
  rcases HarnessClient.step_queued hs he with hold | ⟨req, rfl, hpay⟩
  · exact h.queue e hold
  · rwa [hdraws req e.1 rfl] at hpay

theorem Meant.turn {down' : ConnId → List Envelope} (h : Meant asked w)
    (hdraws : ∀ req id, ca = .send req id → req = asked id) (hs : w.client.step ca = some (c', os)) :
    Meant asked { w with client := c', up := fun i => w.up i ++ Client.sentFrames i os, down := down' } where
  queue := h.queue_turn hdraws hs
  up := by
    intro i cmd hcmd
    rw [Client.commands_append] at hcmd
    rcases List.mem_append.mp hcmd with hcmd | hcmd
    · exact h.up i cmd hcmd
    · -- what is sent is the queue
      rcases HarnessClient.step_sends hs i with hnil | hall
      · rw [hnil] at hcmd
        cases hcmd
      · rw [hall] at hcmd
        obtain ⟨e, he, rfl⟩ := List.mem_map.mp hcmd
        have hpay : e.2 = (asked e.1).payload e.1 := h.queue_turn hdraws hs e he
        have hid : e.2.id = e.1 := by rw [hpay]; rfl
        show e.2 = (asked e.2.id).payload e.2.id
        rw [hid]
        exact hpay
  working := h.working

end Turn

section Daemon

variable {cfg : Config} {asked : String → Request} {w : World} {a : Hub.Action} {h' : Hub.World}
  {os : List Hub.Obs}

/-- The switch gives a handler the command it was asked for. -/
theorem AsAsked.executed {cmd : CommandPayload} {c : ConnId} {h : Hub} {out : AgentCommand}
    (hcmd : AsAsked asked cmd) (hex : (Hub.execute c h cmd).2.1 = .append out) : out = (asked cmd.id).asks := by
  have hex' : (Hub.execute c h ((asked cmd.id).payload cmd.id)).2.1 = .append out := by
    rw [← hcmd]
    exact hex
  exact Client.execute_asks hex'

theorem Meant.host {up' : SocketId → List Client.Frame} {down' : ConnId → List Envelope} (h : Meant asked w)
    (hacc : ∀ authorization ra ua, a ≠ .accept authorization ra ua)
    (hframe : ∀ c cmd, a = .conn c (.frame cmd) → w.own c = true → AsAsked asked cmd)
    (hup : ∀ i, ∀ cmd ∈ Client.commands (up' i), cmd ∈ Client.commands (w.up i))
    (hs : w.host.step cfg a = some (h', os)) :
    Meant asked { w with host := h', up := up', down := down' } where
  queue := h.queue
  up := fun i cmd hcmd => h.up i cmd (hup i cmd hcmd)
  working := by
    intro c d cmd pc hph hown
    rcases phase_cases hacc hs hph with hold | ⟨ch, ph₀, h₁, rfl, hph₀, hc⟩
    · exact h.working c d cmd pc hold hown
    · have hcmd : AsAsked asked cmd := by
        rcases Hub.connStep_handling hc with ⟨rfl, -⟩ | ⟨pc₀, rfl⟩
        · exact hframe c cmd rfl hown
        · exact (h.working c d cmd pc₀ hph₀ hown).1
      refine ⟨hcmd, fun out hout => ?_⟩
      rcases Hub.connStep_bound hc hout with hex | ⟨pc₀, rfl, hout₀⟩
      · exact hcmd.executed hex
      · exact (h.working c d cmd pc₀ hph₀ hown).2 out hout₀

theorem Meant.accept {peer : Option SocketId} {authorization ra ua : String} {down' : ConnId → List Envelope}
    (h : Meant asked w) (hpool : w.peers.length = w.host.conns.length)
    (hs : w.host.step cfg (.accept authorization ra ua) = some (h', os)) :
    Meant asked { w with host := h', peers := w.peers ++ [peer], down := down' } := by
  obtain ⟨hc, rfl, rfl⟩ := accept_eq hs
  refine ⟨h.queue, h.up, ?_⟩
  intro c d cmd pc hph hown
  rcases getElem?_concat_cases hph with hph | ⟨-, he⟩
  · replace hown : (((w.peers ++ [peer])[c]?).join).isSome = true := hown
    rw [World.own_append hpool hph] at hown
    exact h.working c d cmd pc hph hown
  · cases he

end Daemon

theorem meant {cfg : Config} {dev : DeviceID} {asked : String → Request} {db : Store} {now : Int} {url : String}
    {authMode : Client.AuthMode} {identity : Option Client.Identity} {maxItems : Option Nat} {tr : List Obs}
    {w : World}
    (h : (system cfg dev).Run (Draws asked) [] (World.init cfg db now (.new url authMode identity maxItems))
      tr w) : Meant asked w := by
  refine h.invariant (I := fun _ u => Meant asked u)
    (meant_init asked cfg db now url authMode identity maxItems) ?_
  intro t u a u' os hr ih hP hs
  cases step_move hs with
  | call ht => exact ih.turn (fun req id he => hP req id (congrArg Action.client he)) ht.turn
  | deliver _ _ ht => exact ih.turn (fun req id he => by cases he) ht.turn
  | accept _ hs' => exact ih.accept (wired hr).pool hs'
  | @read c p out i ph f rest h' os hi hph hup hs' hdev =>
    refine ih.host (fun _ _ _ he => by cases he) ?_ (commands_update hup) hs'
    intro c' cmd he _
    injection he with _ hin
    obtain rfl := incoming_frame hin
    refine ih.up i cmd ?_
    rw [hup]
    exact List.mem_cons_self
  | host hacc hconn hs' =>
    refine ih.host hacc ?_ (fun _ _ hcmd => hcmd) hs'
    intro c cmd he hown
    have hread : reads (.frame cmd) = false := (hconn c _ he).1 hown
    cases hread

/-- What is said in the name of the device was issued, and is what was asked for. -/
def Truthful (asked : String → Request) (dev : DeviceID) (p : List Obs) (o : Obs) : Prop :=
  ∀ ho k, o = .host ho → ho.commandOf = some (dev, k) → k ∈ issued p ∧ ho.Says (asked k).asks

theorem Truthful.mono {asked : String → Request} {dev : DeviceID} {p p' : List Obs} (hp : p <+: p') {o : Obs}
    (h : Truthful asked dev p o) : Truthful asked dev p' o := by
  intro ho k he hof
  obtain ⟨hk, hsays⟩ := h ho k he hof
  obtain ⟨more, rfl⟩ := hp
  rw [issued_append]
  exact ⟨List.mem_append_left _ hk, hsays⟩

theorem truthful_step {cfg : Config} {dev : DeviceID} {asked : String → Request} {t : List Obs} {w : World}
    {a : Hub.Action} {h' : Hub.World} {os : List Hub.Obs} (hw : Wired cfg dev t w) (hm : Meant asked w)
    (hs : w.host.step cfg a = some (h', os)) : ∀ o ∈ os.map Obs.host, Truthful asked dev t o := by
  rintro o hos ho k rfl hof
  obtain ⟨ho', hmem, he⟩ := List.mem_map.mp hos
  cases he
  obtain ⟨c, cmd, pc, out, hph, rfl, hout, hsays⟩ := (Hub.World.step_trans hs).said hmem hof
  -- the device's connections are the client's
  have hown : w.own c = true := (hw.mine c _ dev hph rfl).mp rfl
  obtain ⟨hst, hiss⟩ := hw.working c dev cmd pc hph hown
  obtain ⟨-, hbound⟩ := hm.working c dev cmd pc hph hown
  rw [hst.key, ← hbound out hout]
  exact ⟨hiss, hsays⟩

/-- At every moment the daemon has said nothing in the name of the device but what was asked for. -/
theorem truthful {cfg : Config} {dev : DeviceID} {asked : String → Request} {db : Store} {now : Int}
    {url : String} {authMode : Client.AuthMode} {identity : Option Client.Identity} {maxItems : Option Nat}
    {tr : List Obs} {w : World}
    (h : (system cfg dev).Run (Draws asked) [] (World.init cfg db now (.new url authMode identity maxItems))
      tr w) : Lts.Preceded (Truthful asked dev) tr := by
  refine h.invariant (I := fun t _ => Lts.Preceded (Truthful asked dev) t) (Lts.preceded_nil _) ?_
  intro t u a u' os hr ih hP hs
  apply Lts.preceded_append_of_mono Truthful.mono ih
  cases step_move hs with
  | call ht | deliver _ _ ht =>
    rintro o ho ho' k rfl -
    obtain ⟨o', -, he⟩ := List.mem_map.mp ho
    cases he
  | accept _ hs' | read _ _ _ hs' | host _ _ hs' => exact truthful_step (wired hr) (meant hr) hs'

/-- **The agent hears what the user said**: an event the log gets from the device, and a command the agent
gets from it, has been asked for under its id and says what was asked; and under one id there is one event
and one call of the agent at most. -/
theorem heard_as_meant {cfg : Config} {dev : DeviceID} {asked : String → Request} {db : Store} {now : Int}
    {url : String} {authMode : Client.AuthMode} {identity : Option Client.Identity} {maxItems : Option Nat}
    {tr : List Obs} {w : World}
    (h : (system cfg dev).Run (Draws asked) [] (World.init cfg db now (.new url authMode identity maxItems))
      tr w) :
    Lts.Preceded (Truthful asked dev) tr ∧
      ∀ k, (hostTrace tr).countP (Hub.Obs.appendedFor dev k) ≤ 1 ∧
        (hostTrace tr).countP (Hub.Obs.handedFor dev k) ≤ 1 := by
  refine ⟨truthful h, fun k => ?_⟩
  have honce := Hub.appendedFor_once (host_run h) dev k
  have hhanded : (hostTrace tr).countP (Hub.Obs.handedFor dev k) ≤
      (hostTrace tr).countP (Hub.Obs.appendedFor dev k) :=
    Hub.handed_le_appended (host_run h) fun c d k' out ev _ _ hm => hm
  omega

/-- The two prompts of the phone, under the ids it draws for them. -/
def Sample.twoPrompts (id : String) : Request := .sendPrompt (if id = "c1" then "one" else "two")

/-- The application asks for nothing else. -/
def drawsTwo : Action → Bool
  | .client (.send (.sendPrompt text) id) => text == if id = "c1" then "one" else "two"
  | .client (.send _ _) => false
  | _ => true

theorem draws_of_check {t : List Obs} {w : World} {a : Action} (h : drawsTwo a = true) :
    Draws Sample.twoPrompts t w a := by
  rintro req id rfl
  cases req with
  | sendPrompt text => exact congrArg Request.sendPrompt (eq_of_beq h)
  | _ => cases h

/-- The old connection tells the agent, after the phone has connected again. -/
def Sample.handOver : List Action :=
  [.host (.conn 0 .run), .host (.conn 0 (.order [0, 1])), .host (.conn 0 .run), .host (.conn 0 .run),
    .host (.conn 0 .run), .host (.conn 0 (.call .ok))]

/-- The first prompt is sent twice, read twice, and heard once. -/
theorem heard_as_meant_resent :
    ∃ tr w, (system Hub.Sample.config Hub.Sample.phone).Run (Draws Sample.twoPrompts) [] Sample.start tr w ∧
      (hostTrace tr).countP (Hub.Obs.handedFor Hub.Sample.phone "c1") = 1 ∧
      Lts.Preceded (Truthful Sample.twoPrompts Hub.Sample.phone) tr ∧
      ∀ k, (hostTrace tr).countP (Hub.Obs.appendedFor Hub.Sample.phone k) ≤ 1 ∧
        (hostTrace tr).countP (Hub.Obs.handedFor Hub.Sample.phone k) ≤ 1 := by
  have hexec : ((system Hub.Sample.config Hub.Sample.phone).exec (fun _ _ _ => true) [] Sample.start
      (Sample.lost ++ Sample.finish ++ Sample.handOver ++ Sample.goOn)).map
        (fun r => (hostTrace r.1).countP (Hub.Obs.handedFor Hub.Sample.phone "c1")) = some 1 := by
    decide +kernel
  obtain ⟨⟨tr, w⟩, hr, hone⟩ := Option.map_eq_some_iff.mp hexec
  have hall : ∀ a ∈ Sample.lost ++ Sample.finish ++ Sample.handOver ++ Sample.goOn, drawsTwo a = true :=
    List.all_eq_true.mp rfl
  have hrun := Lts.run_of_exec_forall (P := Draws Sample.twoPrompts)
    (fun a ha _ _ => draws_of_check (hall a ha)) hr
  exact ⟨tr, w, hrun, hone, heard_as_meant hrun⟩

end Harness.Network
