/-
# Harness.Network.CommandOrder — the order of a device's commands in the log.

The client sends its queue whole and in order, the daemon reads a connection frame by frame and handles one
command at a time, and a command is received once. The order of issue is all the same not the order of the
log: a connection that was lost can still be at work on a command when the next connection replays it,
skips it as a replay, and goes on to the next command (`overtaken`).

`Lined` is what holds while no replay is acknowledged before its first receipt is decided. Every line a
command waits in (the queue of the client, the frames on a socket behind the command its connection works
on) is causal: an older command stands in front of it, or is decided. So when a command is received, all
that was issued before it has its place in the log already (`command_order`).
-/
import Harness.Hub.Delivery
import Harness.Network.Wiring
import Harness.Lib.Causal

namespace Harness.Network

open Wire Lib
open Client (HarnessClient SocketId)
open Hub (Config ConnId)

/-! ## The order of the log -/

/-- **The order of the log is the order of issue**: of two commands of the device with an event each, the one
that was issued before the other has the smaller seq. -/
def InOrder (dev : DeviceID) (tr : List Obs) : Prop :=
  ∀ a b, Before (issued tr) a b → ∀ c c' ev ev',
    .host (.appended (.command c dev a) ev) ∈ tr → .host (.appended (.command c' dev b) ev') ∈ tr →
      ev.seq < ev'.seq

/-- The condition on a step: a replay that is about to be acknowledged finds the first receipt of its command
decided. -/
def ReplaysWait (dev : DeviceID) (_ : List Obs) (w : World) (a : Action) : Prop :=
  ∀ c ch cmd, a = .host (.conn c ch) → w.host.conns[c]? = some (.handling dev cmd .replay) →
    w.host.undecided dev (Hub.key cmd) = 0

/-! ## Lines -/

/-- The command is decided. An empty id stands for no command. -/
def Over (dev : DeviceID) (h : Hub.World) (k : String) : Prop := k = "" ∨ h.Decided dev k

theorem Over.step {cfg : Config} {dev : DeviceID} {h h' : Hub.World} {a : Hub.Action} {os : List Hub.Obs}
    {k : String} (ho : Over dev h k) (hs : h.step cfg a = some (h', os)) : Over dev h' k :=
  ho.imp_right fun hd => hd.step (Hub.World.step_trans hs)

/-- **`w.Line l`** — the commands of one socket that wait at the daemon: the one its connection works on, and
those it has yet to read. -/
inductive World.Line (w : World) : List String → Prop
  | undialled {i : SocketId} (hi : some i ∉ w.peers) : w.Line (ids (w.up i))
  | dialled {c : ConnId} {i : SocketId} {ph : Hub.ConnPhase} (hi : w.peers[c]? = some (some i))
      (hph : w.host.conns[c]? = some ph) : w.Line (ph.workingOn ++ ids (w.up i))

/-- The invariant of the runs in which no replay is acknowledged too early. -/
structure Lined (dev : DeviceID) (tr : List Obs) (w : World) : Prop where
  queue : Causal (Before (issued tr)) (Over dev w.host) w.client.outbox.keys
  waiting : ∀ k ∈ issued tr, k ∈ w.client.outbox.keys ∨ Over dev w.host k
  lines : ∀ l, w.Line l → Causal (Before (issued tr)) (Over dev w.host) l
  answers : ∀ (c : ConnId) (f : Envelope) (k : String), w.peers[c]? ≠ some none →
    f ∈ (w.host.hub.outbound c).send ∨ f ∈ w.down c → Hub.answeredId f = some k → Over dev w.host k
  first : ∀ a b, Before (issued tr) a b → Hub.idempKey dev b ∈ w.host.hub.idempotency → Over dev w.host a
  inOrder : InOrder dev tr

theorem lined_init (cfg : Config) (dev : DeviceID) (db : Store) (now : Int) (url : String)
    (authMode : Client.AuthMode) (identity : Option Client.Identity) (maxItems : Option Nat) :
    Lined dev [] (World.init cfg db now (.new url authMode identity maxItems)) where
  queue := causal_nil
  waiting := by intro k hk; cases hk
  lines := by
    intro l hl
    cases hl with
    | undialled => exact causal_nil
    | dialled hi => cases hi
  answers := by rintro c f k - (h | h) <;> cases h
  first := by intro a b _ h; cases h
  inOrder := by intro a b _ c c' ev ev' h; cases h

/-! ### A turn of the client -/

/-- The id an ack carries. -/
theorem get_ack (id : String) (seq : Int) :
    Client.JsRecord.get (("commandId", .str id) :: Json.omitInt "seq" seq) "commandId" = .str id := by
  unfold Json.omitInt
  split
  · rfl
  · simp [Client.JsRecord.get, Client.JsValue.ofJson]

/-- The id an error frame carries, if it names a command. -/
theorem get_error (id : String) (code : ErrorCode) (message : String) :
    Client.JsRecord.get (Json.omitString "commandId" id ++
      [("code", .str code.string), ("message", .str message)]) "commandId" =
        if id = "" then .undefined else .str id := by
  rw [Client.JsRecord.get_append, ← Client.get_omitString]
  rfl

/-- The code an error frame carries. -/
theorem get_error_code (id : String) (code : ErrorCode) (message : String) :
    Client.JsRecord.get (Json.omitString "commandId" id ++
      [("code", .str code.string), ("message", .str message)]) "code" = .str code.string := by
  rw [Client.JsRecord.get_append]
  rfl

/-- What the client takes for the answer to a command is one. -/
theorem answered_of_settles {e : Envelope} {id : String} (h : (Client.inboundOf e).Settles id) :
    Hub.answeredId e = some id := by
  rcases h with ⟨ack, he, hid⟩ | ⟨err, he, hid⟩
  · cases e with
    | ack commandID seq =>
      cases he
      rw [get_ack] at hid
      cases hid
      rfl
    | _ => cases he
  · cases e with
    | error commandID code message =>
      cases he
      rw [get_error] at hid
      split at hid
      · cases hid
      · cases hid
        rfl
    | _ => cases he

section Turn

variable {cfg : Config} {dev : DeviceID} {t : List Obs} {w : World} {ca : Client.Action} {c' : HarnessClient}
  {os : List Client.Obs} {down' : ConnId → List Envelope}

/-- The client forgets a command only once it is decided. -/
theorem Lined.over_of_settles (h : Lined dev t w) (ht : Turn w ca c' os down') {f : Client.Inbound}
    {id : String} (hd : Client.Delivered w.client ca f) (hf : f.Settles id) : Over dev w.host id := by
  obtain ⟨c, e, hown, he, rfl⟩ := ht.heard f hd
  refine h.answers c e id (fun hnone => ?_) (.inr he) (answered_of_settles hf)
  rw [World.own, hnone] at hown
  cases hown

/-- What is older than a command that is issued again, or now, was issued. -/
theorem Before.issued_left {is : List String} {a id : String} (h : Before (is ++ [id]) a id) : a ∈ is := by
  rcases before_concat.mp h with hold | ⟨-, -, ha⟩
  · exact hold.mem_left
  · exact ha

theorem mem_hostTrace {t : List Obs} {o : Hub.Obs} : o ∈ hostTrace t ↔ .host o ∈ t := by
  unfold hostTrace
  rw [List.mem_filterMap]
  constructor
  · rintro ⟨_ | _, ho, he⟩
    · cases he
    · cases he
      exact ho
  · exact fun ho => ⟨_, ho, rfl⟩

/-- A command with an event is decided. -/
theorem decided_of_appended {h : Hub.World} {db : Store} {now : Int}
    (hrun : (Hub.system cfg).Run Lts.Free [] (Hub.World.init cfg db now) (hostTrace t) h)
    {c : ConnId} {k : String} {ev : EventPayload} (ho : .host (.appended (.command c dev k) ev) ∈ t) :
    h.Decided dev k :=
  Hub.decided_of_effect hrun ⟨c, ev, mem_hostTrace.mpr ho⟩

/-- The queue after a turn. -/
theorem Lined.queue_turn (hw : Wired cfg dev t w) (h : Lined dev t w) (ht : Turn w ca c' os down') :
    Causal (Before (issued (t ++ os.map .client))) (Over dev w.host) c'.outbox.keys ∧
      ∀ k ∈ issued (t ++ os.map .client), k ∈ c'.outbox.keys ∨ Over dev w.host k := by
  rw [issued_client]
  cases HarnessClient.step_requeued ht.turn with
  | @issued req id ho _ hos =>
    rw [hos, ho]
    constructor
    · rw [OrderedMap.keys_set]
      split
      · exact h.queue.issue hw.keys_issued [id]
      · exact (h.queue.issue hw.keys_issued [id]).concat fun a hab => h.waiting a (Before.issued_left hab)
    · intro k hk
      rw [OrderedMap.mem_keys_set]
      rcases List.mem_append.mp hk with hk | hk
      · exact (h.waiting k hk).imp_left .inr
      · exact .inl (.inl (List.mem_singleton.mp hk))
  | @settled f id hd hf ho _ hos =>
    have hover : Over dev w.host id := h.over_of_settles ht hd hf
    rw [hos, ho, List.append_nil]
    constructor
    · rw [OrderedMap.keys_delete]
      refine h.queue.filter fun a ha => ?_
      obtain rfl : a = id := by simpa using ha
      exact hover
    · intro k hk
      rw [OrderedMap.mem_keys_delete]
      by_cases he : k = id
      · exact .inr (he ▸ hover)
      · exact (h.waiting k hk).imp_left fun hmem => ⟨hmem, he⟩
  | accepted hd ho _ hos =>
    rw [hos, ho, hw.not_differs ht hd, List.append_nil]
    exact ⟨h.queue, h.waiting⟩
  | kept ho _ hos =>
    rw [hos, ho, List.append_nil]
    exact ⟨h.queue, h.waiting⟩

/-- What a turn sends stands behind what was sent before. -/
theorem line_turn {fs : SocketId → List Client.Frame} {l : List String}
    (hl : World.Line { w with client := c', up := fun i => w.up i ++ fs i, down := down' } l) :
    ∃ l₀ i, w.Line l₀ ∧ l = l₀ ++ ids (fs i) := by
  cases hl with
  | @undialled i hi => exact ⟨_, i, .undialled hi, ids_append _ _⟩
  | @dialled c i ph hi hph =>
    refine ⟨_, i, .dialled hi hph, ?_⟩
    rw [List.append_assoc, ← ids_append]

/-- Whatever waits at the daemon was issued. -/
theorem Wired.line_issued (h : Wired cfg dev t w) {l : List String} (hl : w.Line l) :
    ∀ k ∈ l, k ∈ issued t := by
  have sent (i : SocketId) : ∀ k ∈ ids (w.up i), k ∈ issued t := by
    intro k hk
    obtain ⟨cmd, hcmd, rfl⟩ := List.mem_map.mp hk
    exact (h.up i cmd hcmd).2
  intro k hk
  cases hl with
  | @undialled i hi => exact sent i k hk
  | @dialled c i ph hi hph =>
    rcases List.mem_append.mp hk with hk | hk
    · cases ph with
      | handling d cmd pc =>
        cases List.mem_singleton.mp hk
        exact (h.working c d cmd pc hph (World.own_of_peer (Option.join_eq_some_iff.mpr hi))).2
      | _ => cases hk
    · exact sent i k hk

theorem Lined.turn (hw : Wired cfg dev t w) (h : Lined dev t w) {db : Store} {now : Int}
    (hrun : (Hub.system cfg).Run Lts.Free [] (Hub.World.init cfg db now) (hostTrace t) w.host)
    (ht : Turn w ca c' os down') :
    Lined dev (t ++ os.map .client)
      { w with client := c', up := fun i => w.up i ++ Client.sentFrames i os, down := down' } where
  queue := (h.queue_turn hw ht).1
  waiting := (h.queue_turn hw ht).2
  lines := by
    intro l hl
    obtain ⟨l₀, i, hl₀, rfl⟩ := line_turn hl
    have hold : Causal (Before (issued (t ++ os.map .client))) (Over dev w.host) l₀ := by
      rw [issued_client]
      exact (h.lines l₀ hl₀).issue (hw.line_issued hl₀) _
    refine hold.append ?_
    rcases HarnessClient.step_sends ht.turn i with hnil | hall
    · rw [ids, hnil]
      exact causal_nil
    · rw [ids, hall, (hw.turn ht).ids_queue]
      exact (h.queue_turn hw ht).1
  answers := by
    intro c f k hc hf hk
    exact h.answers c f k hc (hf.imp_right (ht.down c f)) hk
  first := by
    intro a b hab hb
    rw [issued_client] at hab
    exact h.first a b (hab.of_append (hw.recorded b hb)) hb
  inOrder := by
    have old {o : Hub.Obs} (ho : .host o ∈ t ++ os.map .client) : .host o ∈ t := by
      rw [← mem_hostTrace, hostTrace_append, hostTrace_client, List.append_nil] at ho
      exact mem_hostTrace.mp ho
    intro a b hab c d ev ev' hev hev'
    rw [issued_client] at hab
    have hb : b ∈ issued t := hw.recorded b (decided_of_appended hrun (old hev')).1
    exact h.inOrder a b (hab.of_append hb) c d ev ev' (old hev) (old hev')

end Turn

/-! ### A step of the daemon -/

section Daemon

variable {cfg : Config} {dev : DeviceID} {t : List Obs} {w : World} {a : Hub.Action} {h' : Hub.World}
  {os : List Hub.Obs}

/-- The empty key never gets an event. -/
theorem appended_key_ne_empty {cfg : Config} {P : List Hub.Obs → Hub.World → Hub.Action → Prop} {db : Store}
    {now : Int} {t : List Hub.Obs} {h : Hub.World}
    (hrun : (Hub.system cfg).Run P [] (Hub.World.init cfg db now) t h) {c : ConnId} {dev : DeviceID}
    {k : String} {ev : EventPayload} (ho : .appended (.command c dev k) ev ∈ t) : k ≠ "" := by
  have hd : h.Decided dev k := Hub.decided_of_effect hrun ⟨c, ev, ho⟩
  obtain ⟨c', hacc⟩ := (Hub.mem_idempotency hrun dev k).mp hd.1
  exact Hub.accepted_key_ne_empty hrun hacc

/-- No event is appended for a command that is over. -/
theorem not_over_of_append {u : List Hub.Obs} {h : Hub.World} {db : Store} {now : Int}
    (hrun : (Hub.system cfg).Run Lts.Free [] (Hub.World.init cfg db now) u h)
    (hs : h.step cfg a = some (h', os)) {c : ConnId} {k : String} {ev : EventPayload}
    (ho : .appended (.command c dev k) ev ∈ os) : ¬ Over dev h k := by
  have hst : Hub.StepTrans cfg h a h' os := Hub.World.step_trans hs
  rintro (hempty | hd)
  · exact appended_key_ne_empty (hrun.tail trivial hs) (List.mem_append_right _ ho) hempty
  · rw [hst.appended_alone ho] at hst
    exact Hub.not_decided_of_append hst hd

/-- A step of the daemon that keeps the order of commands (`command_order`): what concludes on a connection of
the client is decided, and the lines lose at most what is over. -/
structure Conclusive (dev : DeviceID) (w : World) (a : Hub.Action) (h' : Hub.World)
    (up' : SocketId → List Client.Frame) : Prop where
  concluded : ∀ c ch d cmd pc, a = .conn c ch → w.host.conns[c]? = some (.handling d cmd pc) → w.own c = true →
    (cmd.id = "" ∨ pc.concludes = true) → Over dev h' cmd.id
  lines : ∀ down' l, World.Line { w with host := h', up := up', down := down' } l →
    w.Line l ∨ ∃ b, Over dev h' b ∧ w.Line (b :: l)

/-- Whatever answers a command says that it is over. -/
theorem Lined.answers_step (hw : Wired cfg dev t w) (h : Lined dev t w)
    {up' : SocketId → List Client.Frame} (hc : Conclusive dev w a h' up')
    (hs : w.host.step cfg a = some (h', os)) {c : ConnId} {f : Envelope} {k : String}
    (hpeer : w.peers[c]? ≠ some none)
    (hf : f ∈ (h'.hub.outbound c).send ∨ f ∈ w.down c ++ os.filterMap (writtenTo c))
    (hk : Hub.answeredId f = some k) : Over dev h' k := by
  have hst : Hub.StepTrans cfg w.host a h' os := Hub.World.step_trans hs
  have old (hold : f ∈ (w.host.hub.outbound c).send ∨ f ∈ w.down c) : Over dev h' k :=
    (h.answers c f k hpeer hold hk).step hs
  rcases hf with hf | hf
  · rcases Hub.World.step_send hs hf with hold | ⟨o, ho, hoff⟩
    · exact old (.inl hold)
    · rcases hst.answer_source ho hoff hk with rfl | ⟨ch, d, cmd, pc, ha, hph, rfl, hpc⟩
      · exact .inl rfl
      · exact hc.concluded c ch d cmd pc ha hph (hw.own_of_ne hph hpeer) (.inr hpc)
  · rcases List.mem_append.mp hf with hold | hnew
    · exact old (.inr hold)
    · obtain ⟨o, ho, hwr⟩ := List.mem_filterMap.mp hnew
      rcases written_cases hwr with rfl | rfl
      · exact old (.inl (Hub.World.step_written hs ho))
      · rcases hst.direct ho with hans | ⟨d, name, cred, rfl⟩
        · rw [hk] at hans
          exact .inl (Option.some.inj hans)
        · cases hk

/-- **When a command is received, all that was issued before it is over**: it stood at the head of its
line. -/
theorem Lined.first_step (hw : Wired cfg dev t w) (h : Lined dev t w)
    (hs : w.host.step cfg a = some (h', os)) {x b : String} (hxb : Before (issued t) x b)
    (hb : Hub.idempKey dev b ∈ h'.hub.idempotency) : Over dev h' x := by
  rcases hw.recorded_cases hs hb with hold | ⟨c, cmd, hown, hph, rfl⟩
  · exact (h.first x b hxb hold).step hs
  · obtain ⟨i, hi⟩ := Option.isSome_iff_exists.mp hown
    have hline : Causal (Before (issued t)) (Over dev w.host) ([cmd.id] ++ ids (w.up i)) :=
      h.lines _ (.dialled (Option.join_eq_some_iff.mp hi) hph)
    exact (hline.head hxb).step hs

/-- **An event that is appended comes after the events of all that was issued before**, and no event of
those is still to come. -/
theorem Lined.order_step (h : Lined dev t w) {db : Store} {now : Int}
    (hrun : (Hub.system cfg).Run Lts.Free [] (Hub.World.init cfg db now) (hostTrace t) w.host)
    (hs : w.host.step cfg a = some (h', os)) : InOrder dev (t ++ os.map .host) := by
  have hst : Hub.StepTrans cfg w.host a h' os := Hub.World.step_trans hs
  have split {o : Hub.Obs} (ho : .host o ∈ t ++ os.map .host) : .host o ∈ t ∨ o ∈ os := by
    rw [← mem_hostTrace, hostTrace_append, hostTrace_host, List.mem_append, mem_hostTrace] at ho
    exact ho
  intro x b hxb c c' ev ev' hev hev'
  rw [issued_host] at hxb
  rcases split hev with hev | hev
  · rcases split hev' with hev' | hev'
    · exact h.inOrder x b hxb c c' ev ev' hev hev'
    · rw [hst.appended_alone hev'] at hs
      exact Hub.seq_lt_of_append hrun hs (mem_hostTrace.mpr hev)
  · exfalso
    rcases split hev' with hev' | hev'
    · -- the later command was received already, so the earlier one is over
      have hover : Over dev w.host x := h.first x b hxb (decided_of_appended hrun hev').1
      exact not_over_of_append hrun hs hev hover
    · -- one step appends one event
      rw [hst.appended_alone hev, List.mem_singleton] at hev'
      cases hev'
      exact hxb.ne rfl

theorem Lined.host (hw : Wired cfg dev t w) (h : Lined dev t w) {db : Store} {now : Int}
    {up' : SocketId → List Client.Frame}
    (hrun : (Hub.system cfg).Run Lts.Free [] (Hub.World.init cfg db now) (hostTrace t) w.host)
    (hc : Conclusive dev w a h' up') (hs : w.host.step cfg a = some (h', os)) :
    Lined dev (t ++ os.map .host)
      { w with host := h', up := up', down := fun c => w.down c ++ os.filterMap (writtenTo c) } where
  queue := by
    rw [issued_host]
    exact h.queue.mono (fun _ ho => ho.step hs) fun _ _ _ hab => hab
  waiting := by
    rw [issued_host]
    exact fun k hk => (h.waiting k hk).imp_right (·.step hs)
  lines := by
    intro l hl
    rw [issued_host]
    have kept {m : List String} (hm : w.Line m) : Causal (Before (issued t)) (Over dev h') m :=
      (h.lines m hm).mono (fun _ ho => ho.step hs) fun _ _ _ hab => hab
    rcases hc.lines _ l hl with hold | ⟨b, hb, hold⟩
    · exact kept hold
    · exact (kept hold).tail hb
  answers := fun _ _ _ hpeer hf hk => h.answers_step hw hc hs hpeer hf hk
  first := by
    intro x b hxb hb
    rw [issued_host] at hxb
    exact h.first_step hw hs hxb hb
  inOrder := h.order_step hrun hs

theorem Lined.accept (hw : Wired cfg dev t w) (h : Lined dev t w) {authorization ra ua : String}
    {peer : Option SocketId} (hnew : ∀ i, peer = some i → some i ∉ w.peers)
    (hs : w.host.step cfg (.accept authorization ra ua) = some (h', os)) :
    Lined dev (t ++ os.map .host)
      { w with
        host := h', peers := w.peers ++ [peer]
        down := fun c => w.down c ++ os.filterMap (writtenTo c) } := by
  have kept (k : String) (ho : Over dev w.host k) : Over dev h' k := ho.step hs
  obtain ⟨hc, rfl, rfl⟩ := accept_eq hs
  simp only [List.map_nil, List.append_nil, List.filterMap_nil]
  have hlen : w.peers.length = w.host.conns.length := hw.pool
  refine ⟨h.queue.mono kept fun _ _ _ hab => hab, fun k hk => (h.waiting k hk).imp_right (kept k), ?_, ?_,
    fun x b hxb hb => kept x (h.first x b hxb hb), h.inOrder⟩
  · intro l hl
    refine (h.lines l ?_).mono kept fun _ _ _ hab => hab
    cases hl with
    | undialled hi => exact .undialled fun hmem => hi (List.mem_append_left _ hmem)
    | dialled hi hph =>
      rcases getElem?_concat_cases hi with hi | ⟨rfl, he⟩
      · rcases getElem?_concat_cases hph with hph | ⟨rfl, -⟩
        · exact .dialled hi hph
        · obtain ⟨hlt, -⟩ := List.getElem?_eq_some_iff.mp hi
          omega
      · rcases getElem?_concat_cases hph with hph | ⟨-, rfl⟩
        · obtain ⟨hlt, -⟩ := List.getElem?_eq_some_iff.mp hph
          omega
        · exact .undialled (hnew _ he.symm)
  · intro c f k hpeer hf hk
    refine kept k (h.answers c f k (fun hnone => hpeer ?_) hf hk)
    obtain ⟨hlt, -⟩ := List.getElem?_eq_some_iff.mp hnone
    rw [← hnone]
    exact List.getElem?_append_left hlt

/-! ### What concludes -/

/-- A connection that goes on concludes nothing that is not over, and its line loses at most that. -/
theorem Wired.conclusive (hw : Wired cfg dev t w) {db : Store} {now : Int}
    (hrun : (Hub.system cfg).Run Lts.Free [] (Hub.World.init cfg db now) (hostTrace t) w.host)
    (hacc : ∀ authorization ra ua, a ≠ .accept authorization ra ua)
    (hconn : ∀ c ch, a = .conn c ch → w.own c = true → reads ch = false)
    (hwait : ReplaysWait dev t w (.host a)) (hs : w.host.step cfg a = some (h', os)) :
    Conclusive dev w a h' w.up := by
  have hover : ∀ c ch d cmd pc, a = .conn c ch → w.host.conns[c]? = some (.handling d cmd pc) →
      w.own c = true → (cmd.id = "" ∨ pc.concludes = true) → Over dev h' cmd.id := by
    rintro c ch d cmd pc rfl hph hown (hid | hpc)
    · exact .inl hid
    · obtain rfl : d = dev := (hw.mine c _ d hph rfl).mpr hown
      rw [← (hw.working c d cmd pc hph hown).1.key]
      refine .inr (Hub.decided_of_concludes hrun trivial hph hpc ?_ hs)
      rintro rfl
      exact hwait c ch cmd rfl hph
  refine ⟨hover, ?_⟩
  intro down' l hl
  cases hl with
  | undialled hi => exact .inl (.undialled hi)
  | @dialled c i ph hi hph =>
    rcases phase_cases hacc hs hph with hold | ⟨ch, ph₀, h₁, rfl, hph₀, hcs⟩
    · exact .inl (.dialled hi hold)
    · have hown : w.own c = true := World.own_of_peer (Option.join_eq_some_iff.mpr hi)
      have hno : ∀ cmd, ch ≠ .frame cmd := by
        rintro cmd rfl
        cases hconn c _ rfl hown
      rcases Hub.connStep_workingOn hcs hno with hsame | ⟨d, cmd, pc, rfl, rfl, hdone⟩
      · rw [hsame]
        exact .inl (.dialled hi hph₀)
      · exact .inr ⟨cmd.id, hover c ch d cmd pc rfl hph₀ hown hdone, .dialled (w := w) hi hph₀⟩

end Daemon

theorem reads_incoming (ph : Hub.ConnPhase) (p : HelloPayload) (out : Hub.Outcome) (f : Client.Frame) :
    reads (incoming ph p out f) = true := by
  unfold incoming
  split
  · rfl
  · split <;> rfl

/-- A connection at work on a command reads nothing. -/
theorem not_busy {cfg : Config} {c : ConnId} {h : Hub} {dev : DeviceID} {cmd : CommandPayload}
    {pc : Hub.HandlerPc} {r : Hub × Hub.ConnPhase × List Hub.Obs} {ch : Hub.Choice}
    (hs : Hub.connStep cfg c h (.handling dev cmd pc) ch = some r) : reads ch = false := by
  rcases Hub.connStep_busy hs with rfl | ⟨out, rfl⟩ | ⟨targets, rfl⟩ <;> rfl

/-- Reading a frame takes it from the socket to the connection. -/
theorem line_read {cfg : Config} {c : ConnId} {h h' : Hub} {ph ph' : Hub.ConnPhase} {p : HelloPayload}
    {out : Hub.Outcome} {f : Client.Frame} {rest : List Client.Frame} {os : List Hub.Obs}
    (hs : Hub.connStep cfg c h ph (incoming ph p out f) = some (h', ph', os)) :
    ph'.workingOn ++ ids rest = ph.workingOn ++ ids (f :: rest) := by
  cases f with
  | command cmd =>
    obtain ⟨d, rfl, -, rfl, -⟩ := Hub.connStep_frame hs
    rfl
  | hello deviceId lastSeq pairingToken credential =>
    have hno : ∀ cmd, incoming ph p out (.hello deviceId lastSeq pairingToken credential) ≠ .frame cmd := by
      intro cmd he
      cases incoming_frame he
    rcases Hub.connStep_workingOn hs hno with hsame | ⟨d, cmd, pc, rfl, -, -⟩
    · rw [hsame]
      rfl
    · have hread := not_busy hs
      rw [reads_incoming] at hread
      cases hread

section Daemon

variable {cfg : Config} {dev : DeviceID} {t : List Obs} {w : World} {a : Hub.Action} {h' : Hub.World}
  {os : List Hub.Obs}

theorem Wired.conclusive_read (hw : Wired cfg dev t w) {c : ConnId} {i : SocketId} {ph : Hub.ConnPhase}
    {p : HelloPayload} {out : Hub.Outcome} {f : Client.Frame} {rest : List Client.Frame}
    (hi : w.peers[c]? = some (some i)) (hph : w.host.conns[c]? = some ph) (hup : w.up i = f :: rest)
    (hs : w.host.step cfg (.conn c (incoming ph p out f)) = some (h', os)) :
    Conclusive dev w (.conn c (incoming ph p out f)) h' (Function.update w.up i rest) := by
  obtain ⟨ph0, h1, ph', hph0, hcs, rfl⟩ := Hub.World.step_conn hs
  obtain rfl : ph = ph0 := Option.some.inj (hph.symm.trans hph0)
  have other {j : SocketId} (hj : j ≠ i) : Function.update w.up i rest j = w.up j :=
    Function.update_of_ne hj ..
  constructor
  · -- a connection that reads is not at work
    intro c' ch d cmd pc he hph' _ _
    injection he with hc hch
    subst hc
    obtain rfl : ph = .handling d cmd pc := Option.some.inj (hph.symm.trans hph')
    have hread := not_busy hcs
    rw [reads_incoming] at hread
    cases hread
  · intro down' l hl
    refine .inl ?_
    cases hl with
    | @undialled j hj =>
      have hne : j ≠ i := by
        rintro rfl
        exact hj (List.mem_of_getElem? hi)
      show w.Line (ids (Function.update w.up i rest j))
      rw [other hne]
      exact .undialled hj
    | @dialled c' j ph1 hj hph1 =>
      show w.Line (ph1.workingOn ++ ids (Function.update w.up i rest j))
      rcases getElem?_set_cases hph1 with ⟨rfl, rfl⟩ | ⟨hne, hold⟩
      · obtain rfl : i = j := Option.some.inj (Option.some.inj (hi.symm.trans hj))
        rw [Function.update_self, line_read hcs, ← hup]
        exact .dialled hi hph
      · have hji : j ≠ i := by
          rintro rfl
          exact hne (hw.apart _ _ _ hj hi)
        rw [other hji]
        exact .dialled hj hold

end Daemon

/-! ### The run -/

theorem lined_step {cfg : Config} {dev : DeviceID} {t os : List Obs} {w w' : World} {db : Store} {now : Int}
    {a : Action} (hw : Wired cfg dev t w) (h : Lined dev t w)
    (hrun : (Hub.system cfg).Run Lts.Free [] (Hub.World.init cfg db now) (hostTrace t) w.host)
    (hwait : ReplaysWait dev t w a) (hs : Trans cfg dev w a w' os) : Lined dev (t ++ os) w' := by
  cases hs with
  | turn ht => exact h.turn hw hrun ht
  | accept hnew hs => exact h.accept hw hnew hs
  | read hi hph hup hs => exact h.host hw hrun (hw.conclusive_read hi hph hup hs) hs
  | host hacc hconn hs =>
    exact h.host hw hrun (hw.conclusive hrun hacc (fun c ch he => (hconn c ch he).1) hwait hs) hs

/-- **The order of issue is the order of the log** in every run in which no replay of a command is
acknowledged while the first receipt of the same command, on another connection, is still to be decided. -/
theorem command_order {cfg : Config} {dev : DeviceID} {db : Store} {now : Int} {url : String}
    {authMode : Client.AuthMode} {identity : Option Client.Identity} {maxItems : Option Nat} {tr : List Obs}
    {w : World}
    (h : (system cfg dev).Run (ReplaysWait dev) [] (World.init cfg db now (.new url authMode identity maxItems))
      tr w) : InOrder dev tr := by
  have hlined : Lined dev tr w := by
    refine h.invariant (lined_init cfg dev db now url authMode identity maxItems) ?_
    intro t u a u' os hr ih hwait hs
    exact lined_step (wired hr) ih (host_run hr) hwait (step_trans hs)
  exact hlined.inOrder

/-! ### Runs of the phone -/

/-- Whether a replay that is about to be acknowledged waits. -/
def replayWaits (dev : DeviceID) (w : World) : Action → Bool
  | .host (.conn c _) =>
      match w.host.conns[c]? with
      | some (.handling _ cmd .replay) => w.host.undecided dev (Hub.key cmd) == 0
      | _ => true
  | _ => true

theorem replaysWait_of_check {dev : DeviceID} {t : List Obs} {w : World} {a : Action}
    (h : replayWaits dev w a = true) : ReplaysWait dev t w a := by
  intro c ch cmd he hph
  subst he
  rw [replayWaits, hph] at h
  exact eq_of_beq h

def Obs.loggedAs (dev : DeviceID) : Obs → Option (String × Nat)
  | .host (.appended (.command _ d k) ev) => if d = dev then some (k, ev.seq) else none
  | _ => none

/-- The commands of the device that have an event, with the seq of the event. -/
def logged (dev : DeviceID) (tr : List Obs) : List (String × Nat) := tr.filterMap (Obs.loggedAs dev)

theorem appended_of_logged {dev : DeviceID} {tr : List Obs} {k : String} {n : Nat}
    (h : (k, n) ∈ logged dev tr) : ∃ c ev, .host (.appended (.command c dev k) ev) ∈ tr ∧ ev.seq = n := by
  obtain ⟨o, ho, he⟩ := List.mem_filterMap.mp h
  unfold Obs.loggedAs at he
  split at he
  · split at he
    · rename_i hd
      cases he
      exact ⟨_, _, hd ▸ ho, rfl⟩
    · cases he
  · cases he

/-- The log is out of order. -/
theorem not_inOrder {dev : DeviceID} {tr : List Obs} {a b : String} {n m : Nat} (hab : Before (issued tr) a b)
    (ha : (a, n) ∈ logged dev tr) (hb : (b, m) ∈ logged dev tr) (hmn : m ≤ n) : ¬ InOrder dev tr := by
  intro h
  obtain ⟨c, ev, hev, rfl⟩ := appended_of_logged ha
  obtain ⟨c', ev', hev', rfl⟩ := appended_of_logged hb
  have hlt : ev.seq < ev'.seq := h a b hab c c' ev ev' hev hev'
  omega

namespace Sample

open Hub.Sample (phone config database)

def start : World := World.init config database 0 (.new "ws://192.168.1.2:7432/ws" .header none none)

/-- The next connection of the phone is dialled and catches up. -/
def join (c : Nat) : List Action :=
  [.dial c "Bearer phone-secret" "192.168.1.7:50112" "okhttp/4.12", .client (.opened c), .read c {} .ok,
    .host (.conn c (.call .ok)), .host (.conn c (.call .ok)), .host (.conn c (.call .ok)),
    .host (.conn c (.call .ok)), .host (.write c .send), .deliver c {}]

/-- The first prompt is received, the connection is lost, the phone connects again and sends the second. -/
def lost : List Action :=
  .client (.connect none {}) :: join 0 ++
    [.client (.send (.sendPrompt "one") "c1"), .read 0 {} .ok, .host (.conn 0 .run),
      .client (.closed 0 (some 1006) {}), .client (.timer {})] ++
    join 1 ++ [.client (.send (.sendPrompt "two") "c2")]

/-- The old connection appends the first prompt. -/
def finish : List Action := [.host (.conn 0 .run), .host (.conn 0 (.call .ok))]

/-- The new connection acknowledges the two copies of the first prompt and appends the second. -/
def goOn : List Action :=
  [.read 1 {} .ok, .host (.conn 1 .run), .host (.conn 1 .run), .read 1 {} .ok, .host (.conn 1 .run),
    .host (.conn 1 .run), .read 1 {} .ok, .host (.conn 1 .run), .host (.conn 1 .run),
    .host (.conn 1 (.call .ok))]

end Sample

/-- The old connection is done before the new one goes on. -/
theorem command_order_reconnect :
    ∃ tr w, (system Hub.Sample.config Hub.Sample.phone).Run (ReplaysWait Hub.Sample.phone) [] Sample.start tr w ∧
      logged Hub.Sample.phone tr = [("c1", 1), ("c2", 2)] ∧ InOrder Hub.Sample.phone tr := by
  have hexec : ((system Hub.Sample.config Hub.Sample.phone).exec (fun _ => replayWaits Hub.Sample.phone) []
      Sample.start (Sample.lost ++ Sample.finish ++ Sample.goOn)).map
        (fun r => logged Hub.Sample.phone r.1) = some [("c1", 1), ("c2", 2)] := by decide +kernel
  obtain ⟨⟨tr, w⟩, hr, hlog⟩ := Option.map_eq_some_iff.mp hexec
  have hrun := Lts.run_of_exec (P := ReplaysWait Hub.Sample.phone) (fun _ _ _ => replaysWait_of_check) hr
  exact ⟨tr, w, hrun, hlog, command_order hrun⟩

/-- **The second prompt overtakes the first**: the old connection has recorded the first prompt and has yet
to append it while the new connection skips its copies and appends the second. -/
theorem overtaken :
    ∃ tr w, (system Hub.Sample.config Hub.Sample.phone).Run Lts.Free [] Sample.start tr w ∧
      issued tr = ["c1", "c2"] ∧ logged Hub.Sample.phone tr = [("c2", 1), ("c1", 2)] ∧
      ¬ InOrder Hub.Sample.phone tr := by
  have hexec : ((system Hub.Sample.config Hub.Sample.phone).exec (fun _ _ _ => true) [] Sample.start
      (Sample.lost ++ Sample.goOn ++ Sample.finish)).map
        (fun r => (issued r.1, logged Hub.Sample.phone r.1)) =
      some (["c1", "c2"], [("c2", 1), ("c1", 2)]) := by decide +kernel
  obtain ⟨⟨tr, w⟩, hr, he⟩ := Option.map_eq_some_iff.mp hexec
  obtain ⟨hiss, hlog⟩ := Prod.mk.inj he
  have hrun := Lts.run_of_exec_forall (P := Lts.Free) (fun _ _ _ _ => trivial) hr
  refine ⟨tr, w, hrun, hiss, hlog, ?_⟩
  have hbefore : Before (issued tr) "c1" "c2" := by
    rw [hiss]
    exact ⟨["c1"], [], rfl, by decide, by decide⟩
  have hfirst : ("c1", 2) ∈ logged Hub.Sample.phone tr := hlog ▸ by decide
  have hsecond : ("c2", 1) ∈ logged Hub.Sample.phone tr := hlog ▸ by decide
  exact not_inOrder hbefore hfirst hsecond (by omega)

end Harness.Network
