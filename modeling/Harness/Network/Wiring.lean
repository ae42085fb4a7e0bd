/-
# Harness.Network.Wiring — what holds of the client and the daemon in every run.

`Wired` collects it: a connection of the daemon belongs to one socket of the client at most, the connections
served as the client's device are the client's own, whatever is queued, on its way or being handled carries
its id as its key and was issued, and the client knows one session only. A turn of the client and a step of
the daemon each keep it, whatever else they do (`wired`).
-/
import Harness.Network

namespace Harness.Network

open Wire Lib
open Client (HarnessClient SocketId)
open Hub (Config ConnId)

/-! ## The order of issue -/

/-- What the client does in a run of the whole. -/
def clientTrace (tr : List Obs) : List Client.Obs := tr.filterMap Obs.client?

/-- The ids of the commands the client issued, in order. -/
def issued (tr : List Obs) : List String := Client.issuedIds (clientTrace tr)

theorem issued_append (t os : List Obs) :
    issued (t ++ os) = issued t ++ Client.issuedIds (clientTrace os) := by
  rw [issued, clientTrace, List.filterMap_append, Client.issuedIds, List.filterMap_append]
  rfl

theorem clientTrace_client (os : List Client.Obs) : clientTrace (os.map .client) = os := by
  rw [clientTrace, List.filterMap_map]
  exact List.filterMap_some

theorem clientTrace_host (os : List Hub.Obs) : clientTrace (os.map .host) = [] := by
  rw [clientTrace, List.filterMap_map, List.filterMap_eq_nil_iff]
  exact fun _ _ => rfl

/-- Only the client issues. -/
theorem issued_host (t : List Obs) (os : List Hub.Obs) : issued (t ++ os.map .host) = issued t := by
  rw [issued_append, clientTrace_host]
  exact List.append_nil _

theorem issued_client (t : List Obs) (os : List Client.Obs) :
    issued (t ++ os.map .client) = issued t ++ Client.issuedIds os := by
  rw [issued_append, clientTrace_client]

/-! ## Whose connection, whose command -/

/-- The ids of the commands among some frames. -/
def ids (fs : List Client.Frame) : List String := (Client.commands fs).map (·.id)

theorem ids_append (fs gs : List Client.Frame) : ids (fs ++ gs) = ids fs ++ ids gs := by
  rw [ids, Client.commands_append, List.map_append]
  rfl

/-- A command as the client sends it. -/
def Stamped (cmd : CommandPayload) : Prop := cmd.idempotencyKey = cmd.id

theorem Stamped.key {cmd : CommandPayload} (h : Stamped cmd) : Hub.key cmd = cmd.id := by
  unfold Hub.key
  split
  · rfl
  · exact h

/-- The facts of the wiring. They hold in every run. -/
structure Wired (cfg : Config) (dev : DeviceID) (tr : List Obs) (w : World) : Prop where
  pool : w.peers.length = w.host.conns.length
  apart : ∀ (c c' : ConnId) (i : SocketId), w.peers[c]? = some (some i) → w.peers[c']? = some (some i) → c = c'
  mine : ∀ (c : ConnId) ph d, w.host.conns[c]? = some ph → ph.device = some d → (d = dev ↔ w.own c = true)
  queue : ∀ e ∈ w.client.outbox.entries, e.2.id = e.1 ∧ Stamped e.2 ∧ e.1 ∈ issued tr
  up : ∀ i, ∀ cmd ∈ Client.commands (w.up i), Stamped cmd ∧ cmd.id ∈ issued tr
  working : ∀ (c : ConnId) d cmd pc, w.host.conns[c]? = some (.handling d cmd pc) → w.own c = true →
    Stamped cmd ∧ cmd.id ∈ issued tr
  recorded : ∀ k, Hub.idempKey dev k ∈ w.host.hub.idempotency → k ∈ issued tr
  home : w.client.session.sessionId = .null ∨ w.client.session.sessionId = .str cfg.sessionID
  snapshots : ∀ c p, .snapshot p ∈ (w.host.hub.outbound c).send ∨ .snapshot p ∈ w.down c →
    p.sessionID = cfg.sessionID

theorem wired_init (cfg : Config) (dev : DeviceID) (db : Store) (now : Int) (url : String)
    (authMode : Client.AuthMode) (identity : Option Client.Identity) (maxItems : Option Nat) :
    Wired cfg dev [] (World.init cfg db now (.new url authMode identity maxItems)) where
  pool := rfl
  apart := by intro c c' i h; cases h
  mine := by intro c ph d h; cases h
  queue := by intro e he; cases he
  up := by intro i cmd h; cases h
  working := by intro c d cmd pc h; cases h
  recorded := by intro k h; cases h
  home := .inl rfl
  snapshots := by rintro c p (h | h) <;> cases h

/-! ### What follows -/

section Facts

variable {cfg : Config} {dev : DeviceID} {t : List Obs} {w : World}

theorem Wired.keys_issued (h : Wired cfg dev t w) : ∀ k ∈ w.client.outbox.keys, k ∈ issued t := by
  intro k hk
  obtain ⟨e, he, rfl⟩ := List.mem_map.mp hk
  exact (h.queue e he).2.2

/-- The ids of a queue that is sent. -/
theorem Wired.ids_queue (h : Wired cfg dev t w) :
    w.client.outbox.values.map (·.id) = w.client.outbox.keys := by
  unfold OrderedMap.values OrderedMap.keys
  rw [List.map_map]
  exact List.map_congr_left fun e he => (h.queue e he).1

/-- A connection the daemon serves, and that nobody else dialled, is the client's. -/
theorem Wired.own_of_ne (h : Wired cfg dev t w) {c : ConnId} {ph : Hub.ConnPhase}
    (hph : w.host.conns[c]? = some ph) (hc : w.peers[c]? ≠ some none) : w.own c = true := by
  obtain ⟨hlt, -⟩ := List.getElem?_eq_some_iff.mp hph
  have hlen : w.peers.length = w.host.conns.length := h.pool
  rw [World.own]
  cases hp : w.peers[c]? with
  | none =>
    rw [List.getElem?_eq_none_iff] at hp
    omega
  | some peer =>
    cases peer with
    | none => exact absurd hp hc
    | some i => rfl

end Facts

/-! ### A turn of the client -/

section Turn

variable {cfg : Config} {dev : DeviceID} {t : List Obs} {w : World} {ca : Client.Action} {c' : HarnessClient}
  {os : List Client.Obs} {down' : ConnId → List Envelope}

/-- The frame of the daemon behind what the client hears. -/
theorem Turn.frame (ht : Turn w ca c' os down') {snap : Client.JsRecord}
    (hd : Client.Delivered w.client ca (.snapshot snap)) :
    ∃ c p, .snapshot p ∈ w.down c ∧ snap = p.members := by
  obtain ⟨c, e, -, he, hin⟩ := ht.heard _ hd
  cases e with
  | snapshot p =>
    cases hin
    exact ⟨c, p, he, rfl⟩
  | _ => cases hin

theorem Wired.session (h : Wired cfg dev t w) (ht : Turn w ca c' os down') {snap : Client.JsRecord}
    (hd : Client.Delivered w.client ca (.snapshot snap)) : snap.get "sessionId" = .str cfg.sessionID := by
  obtain ⟨c, p, hp, rfl⟩ := ht.frame hd
  rw [Client.get_sessionId, h.snapshots c p (.inr hp)]

/-- The client knows one session only. -/
theorem Wired.not_differs (h : Wired cfg dev t w) (ht : Turn w ca c' os down') {snap : Client.JsRecord}
    (hd : Client.Delivered w.client ca (.snapshot snap)) : w.client.differs snap = false := by
  have hsess := h.session ht hd
  unfold HarnessClient.differs
  rw [hsess]
  rcases h.home with hnull | hstr
  · rw [hnull]
    rfl
  · rw [hstr]
    simp [Client.JsValue.strictEq]

/-- What the client queues is stamped and issued. -/
theorem Wired.queue_turn (h : Wired cfg dev t w) (ht : Turn w ca c' os down') :
    ∀ e ∈ c'.outbox.entries, e.2.id = e.1 ∧ Stamped e.2 ∧ e.1 ∈ issued (t ++ os.map .client) := by
  have old : ∀ e ∈ w.client.outbox.entries,
      e.2.id = e.1 ∧ Stamped e.2 ∧ e.1 ∈ issued (t ++ os.map .client) := by
    intro e he
    obtain ⟨hid, hst, hiss⟩ := h.queue e he
    rw [issued_client]
    exact ⟨hid, hst, List.mem_append_left _ hiss⟩
  intro e he
  cases HarnessClient.step_requeued ht.turn with
  | issued ho _ hos =>
    rw [ho, OrderedMap.mem_entries_set] at he
    rcases he with rfl | ⟨he, -⟩
    · refine ⟨rfl, rfl, ?_⟩
      rw [issued_client, hos]
      exact List.mem_append_right _ (List.mem_singleton_self _)
    · exact old e he
  | settled _ _ ho =>
    rw [ho, OrderedMap.mem_entries_delete] at he
    exact old e he.1
  | accepted hd ho =>
    rw [ho, h.not_differs ht hd] at he
    exact old e he
  | kept ho =>
    rw [ho] at he
    exact old e he

theorem Wired.turn (h : Wired cfg dev t w) (ht : Turn w ca c' os down') :
    Wired cfg dev (t ++ os.map .client)
      { w with client := c', up := fun i => w.up i ++ Client.sentFrames i os, down := down' } where
  pool := h.pool
  apart := h.apart
  mine := h.mine
  queue := h.queue_turn ht
  up := by
    intro i cmd hcmd
    rw [Client.commands_append] at hcmd
    rcases List.mem_append.mp hcmd with hcmd | hcmd
    · obtain ⟨hst, hiss⟩ := h.up i cmd hcmd
      rw [issued_client]
      exact ⟨hst, List.mem_append_left _ hiss⟩
    · rcases HarnessClient.step_sends ht.turn i with hnil | hall
      · rw [hnil] at hcmd
        cases hcmd
      · rw [hall] at hcmd
        obtain ⟨e, he, rfl⟩ := List.mem_map.mp hcmd
        obtain ⟨hid, hst, hiss⟩ := h.queue_turn ht e he
        exact ⟨hst, hid ▸ hiss⟩
  working := by
    intro c d cmd pc hph hown
    obtain ⟨hst, hiss⟩ := h.working c d cmd pc hph hown
    rw [issued_client]
    exact ⟨hst, List.mem_append_left _ hiss⟩
  recorded := by
    intro k hk
    rw [issued_client]
    exact List.mem_append_left _ (h.recorded k hk)
  home := by
    cases HarnessClient.step_requeued ht.turn with
    | issued _ hs | settled _ _ _ hs =>
      show c'.session.sessionId = _ ∨ c'.session.sessionId = _
      rw [hs]
      exact h.home
    | accepted hd _ hs => exact .inr (hs.trans (h.session ht hd))
    | kept _ hs =>
      rcases hs with hs | hs
      · show c'.session.sessionId = _ ∨ c'.session.sessionId = _
        rw [hs]
        exact h.home
      · exact .inl hs
  snapshots := fun c p hp => h.snapshots c p (hp.imp_right (ht.down c _))

end Turn

/-! ### A step of the daemon -/

/-- A new connection stands at its hello, and nothing else has changed. -/
theorem accept_eq {cfg : Config} {w h' : Hub.World} {authorization ra ua : String} {os : List Hub.Obs}
    (hs : w.step cfg (.accept authorization ra ua) = some (h', os)) :
    ∃ hc, h' = { w with conns := w.conns ++ [.readHello hc ra ua] } ∧ os = [] := by
  cases hs
  exact ⟨_, rfl, rfl⟩

/-- Every other step moves one connection, or none. -/
theorem conns_cases {cfg : Config} {w w' : Hub.World} {a : Hub.Action} {os : List Hub.Obs}
    (hacc : ∀ authorization ra ua, a ≠ .accept authorization ra ua)
    (hs : w.step cfg a = some (w', os)) :
    (∃ c ch ph h' ph', a = .conn c ch ∧ w.conns[c]? = some ph ∧
      Hub.connStep cfg c w.hub ph ch = some (h', ph', os) ∧
      w' = { w with hub := h', conns := w.conns.set c ph' }) ∨
    ((∀ c ch, a ≠ .conn c ch) ∧ w'.conns = w.conns) := by
  cases a with
  | conn c ch =>
    obtain ⟨ph, h', ph', hph, hc, he⟩ := Hub.World.step_conn hs
    exact .inl ⟨c, ch, ph, h', ph', rfl, hph, hc, he⟩
  | accept authorization ra ua => exact absurd rfl (hacc authorization ra ua)
  | _ =>
    refine .inr ⟨nofun, ?_⟩
    cases Hub.World.step_trans hs <;> rfl

/-- A new connection does not change whose the others are. -/
theorem World.own_append {w : World} {c : ConnId} {ph : Hub.ConnPhase} {peer : Option SocketId}
    (hpool : w.peers.length = w.host.conns.length) (hph : w.host.conns[c]? = some ph) :
    (((w.peers ++ [peer])[c]?).join).isSome = w.own c := by
  obtain ⟨hlt, -⟩ := List.getElem?_eq_some_iff.mp hph
  rw [World.own, List.getElem?_append_left (by omega)]

section Daemon

variable {cfg : Config} {dev : DeviceID} {t : List Obs} {w : World} {a : Hub.Action} {h' : Hub.World}
  {os : List Hub.Obs}

theorem Wired.accept (h : Wired cfg dev t w)
    {authorization ra ua : String} {peer : Option SocketId}
    (hnew : ∀ i, peer = some i → some i ∉ w.peers)
    (hs : w.host.step cfg (.accept authorization ra ua) = some (h', os)) :
    Wired cfg dev (t ++ os.map .host)
      { w with
        host := h', peers := w.peers ++ [peer]
        down := fun c => w.down c ++ os.filterMap (writtenTo c) } := by
  obtain ⟨hc, rfl, rfl⟩ := accept_eq hs
  simp only [List.map_nil, List.append_nil, List.filterMap_nil]
  refine ⟨?_, ?_, ?_, h.queue, h.up, ?_, h.recorded, h.home, h.snapshots⟩
  · rw [List.length_append, List.length_append, h.pool]
    rfl
  · intro c c' i hc hc'
    rcases getElem?_concat_cases hc with hc | ⟨rfl, hi⟩
    · rcases getElem?_concat_cases hc' with hc' | ⟨rfl, hi⟩
      · exact h.apart c c' i hc hc'
      · exact absurd (List.mem_of_getElem? hc) (hnew i hi.symm)
    · rcases getElem?_concat_cases hc' with hc' | ⟨rfl, -⟩
      · exact absurd (List.mem_of_getElem? hc') (hnew i hi.symm)
      · rfl
  · intro c ph d hph hd
    rcases getElem?_concat_cases hph with hph | ⟨rfl, rfl⟩
    · show d = dev ↔ (((w.peers ++ [peer])[c]?).join).isSome = true
      rw [World.own_append h.pool hph]
      exact h.mine c ph d hph hd
    · cases hd
  · intro c d cmd pc hph hown
    rcases getElem?_concat_cases hph with hph | ⟨rfl, he⟩
    · replace hown : (((w.peers ++ [peer])[c]?).join).isSome = true := hown
      rw [World.own_append h.pool hph] at hown
      exact h.working c d cmd pc hph hown
    · cases he

/-- The frames of a step of the daemon, on their way. -/
theorem snapshots_step {cfg : Config} {db : Store} {now : Int} {t : List Hub.Obs} {w h' : Hub.World}
    {a : Hub.Action} {os : List Hub.Obs} {down : ConnId → List Envelope}
    (hrun : (Hub.system cfg).Run Lts.Free [] (Hub.World.init cfg db now) t w)
    (hs : w.step cfg a = some (h', os))
    (h : ∀ c p, .snapshot p ∈ (w.hub.outbound c).send ∨ .snapshot p ∈ down c → p.sessionID = cfg.sessionID)
    (c : ConnId) (p : SnapshotPayload)
    (hp : .snapshot p ∈ (h'.hub.outbound c).send ∨
      .snapshot p ∈ down c ++ os.filterMap (writtenTo c)) : p.sessionID = cfg.sessionID := by
  rcases hp with hp | hp
  · rcases Hub.World.step_send hs hp with hold | ⟨o, ho, hoff⟩
    · exact h c p (.inl hold)
    · exact Hub.snapshot_session hrun hs ho hoff
  · rcases List.mem_append.mp hp with hold | hnew
    · exact h c p (.inr hold)
    · obtain ⟨o, ho, hw⟩ := List.mem_filterMap.mp hnew
      rcases written_cases hw with rfl | rfl
      · exact h c p (.inl (Hub.World.step_written hs ho))
      · rcases (Hub.World.step_trans hs).direct ho with hans | ⟨d, name, cred, he⟩
        · cases hans
        · cases he

/-- A phase is as it was, or the connection has just come to it. -/
theorem phase_cases {u u' : Hub.World} (hacc : ∀ authorization ra ua, a ≠ .accept authorization ra ua)
    (hs : u.step cfg a = some (u', os)) {c : ConnId} {ph' : Hub.ConnPhase} (hph : u'.conns[c]? = some ph') :
    u.conns[c]? = some ph' ∨ ∃ ch ph h', a = .conn c ch ∧ u.conns[c]? = some ph ∧
      Hub.connStep cfg c u.hub ph ch = some (h', ph', os) := by
  rcases conns_cases hacc hs with ⟨d, ch, ph, h', ph₁, rfl, hold, hc, rfl⟩ | ⟨-, hsame⟩
  · rcases getElem?_set_cases hph with ⟨rfl, rfl⟩ | ⟨-, hother⟩
    · exact .inr ⟨ch, ph, h', rfl, hold, hc⟩
    · exact .inl hother
  · exact .inl (hsame ▸ hph)

/-- A key of the device was recorded before, or it is the id of a command that a connection of the client has
just read. -/
theorem Wired.recorded_cases (h : Wired cfg dev t w) (hs : w.host.step cfg a = some (h', os)) {k : String}
    (hk : Hub.idempKey dev k ∈ h'.hub.idempotency) :
    Hub.idempKey dev k ∈ w.host.hub.idempotency ∨ ∃ c cmd, w.own c = true ∧
      w.host.conns[c]? = some (.handling dev cmd .start) ∧ cmd.id = k := by
  have hst : Hub.StepTrans cfg w.host a h' os := Hub.World.step_trans hs
  rcases hst.idempotency with ⟨hsame, -⟩ | ⟨c, d, k', -, hins, rfl⟩
  · exact .inl (hsame ▸ hk)
  · rw [hins, Finset.mem_insert] at hk
    rcases hk with heq | hold
    · obtain ⟨rfl, rfl⟩ := Hub.idempKey_inj heq
      obtain ⟨ch, cmd, rfl, hph, hkey, -⟩ := hst.accepts List.mem_cons_self
      -- the device's connections are the client's
      have hown : w.own c = true := (h.mine c _ dev hph rfl).mp rfl
      have hstamp : Stamped cmd := (h.working c dev cmd .start hph hown).1
      exact .inr ⟨c, cmd, hown, hph, hstamp.key.symm.trans hkey⟩
    · exact .inl hold

theorem Wired.host (h : Wired cfg dev t w) {db : Store} {now : Int} {up' : SocketId → List Client.Frame}
    (hrun : (Hub.system cfg).Run Lts.Free [] (Hub.World.init cfg db now) (hostTrace t) w.host)
    (hacc : ∀ authorization ra ua, a ≠ .accept authorization ra ua)
    (hdev : ∀ c ch, a = .conn c ch → World.belongs dev { w with host := h' } c = true)
    (hframe : ∀ c cmd, a = .conn c (.frame cmd) → w.own c = true → Stamped cmd ∧ cmd.id ∈ issued t)
    (hup : ∀ i, ∀ cmd ∈ Client.commands (up' i), cmd ∈ Client.commands (w.up i))
    (hs : w.host.step cfg a = some (h', os)) :
    Wired cfg dev (t ++ os.map .host)
      { w with host := h', up := up', down := fun c => w.down c ++ os.filterMap (writtenTo c) } where
  pool := by
    rw [h.pool]
    rcases conns_cases hacc hs with ⟨c, ch, ph, h1, ph', -, -, -, rfl⟩ | ⟨-, hsame⟩
    · exact (List.length_set ..).symm
    · exact (congrArg List.length hsame).symm
  apart := h.apart
  mine := by
    intro c ph d hph hd
    rcases phase_cases hacc hs hph with hold | ⟨ch, ph₀, h₁, rfl, -, -⟩
    · exact h.mine c ph d hold hd
    · exact World.belongs_iff.mp (hdev c ch rfl) ph d hph hd
  queue := by
    intro e he
    rw [issued_host]
    exact h.queue e he
  up := by
    intro i cmd hcmd
    rw [issued_host]
    exact h.up i cmd (hup i cmd hcmd)
  working := by
    intro c d cmd pc hph hown
    rw [issued_host]
    rcases phase_cases hacc hs hph with hold | ⟨ch, ph₀, h₁, rfl, hph₀, hc⟩
    · exact h.working c d cmd pc hold hown
    · rcases Hub.connStep_handling hc with ⟨rfl, -⟩ | ⟨pc₀, rfl⟩
      · exact hframe c cmd rfl hown
      · exact h.working c d cmd pc₀ hph₀ hown
  recorded := by
    intro k hk
    rw [issued_host]
    rcases h.recorded_cases hs hk with hold | ⟨c, cmd, hown, hph, rfl⟩
    · exact h.recorded k hold
    · exact (h.working c dev cmd .start hph hown).2
  home := h.home
  snapshots := snapshots_step hrun hs h.snapshots

end Daemon

/-- A command is taken for the command it is. -/
theorem incoming_frame {ph : Hub.ConnPhase} {p : HelloPayload} {out : Hub.Outcome} {f : Client.Frame}
    {cmd : CommandPayload} (h : incoming ph p out f = .frame cmd) : f = .command cmd := by
  unfold incoming at h
  split at h
  · cases h
    rfl
  · split at h <;> cases h

/-- What is left on a socket after a frame was read. -/
theorem commands_update {w : World} {i : SocketId} {f : Client.Frame} {rest : List Client.Frame}
    (hup : w.up i = f :: rest) (j : SocketId) :
    ∀ cmd ∈ Client.commands (Function.update w.up i rest j), cmd ∈ Client.commands (w.up j) := by
  intro cmd hcmd
  by_cases hj : j = i
  · subst hj
    rw [Function.update_self] at hcmd
    rw [hup, ← List.singleton_append, Client.commands_append]
    exact List.mem_append_right _ hcmd
  · rwa [Function.update_of_ne hj] at hcmd

theorem wired_step {cfg : Config} {dev : DeviceID} {t os : List Obs} {w w' : World} {db : Store} {now : Int}
    {a : Action} (h : Wired cfg dev t w)
    (hrun : (Hub.system cfg).Run Lts.Free [] (Hub.World.init cfg db now) (hostTrace t) w.host)
    (hs : Trans cfg dev w a w' os) : Wired cfg dev (t ++ os) w' := by
  cases hs with
  | turn ht => exact h.turn ht
  | accept hnew hs => exact h.accept hnew hs
  | @read c p out i ph f rest h' os hi hph hup hs hdev =>
    refine h.host hrun ?_ ?_ ?_ (commands_update hup) hs
    · intro authorization ra ua he
      cases he
    · intro c' ch he
      cases he
      exact hdev
    · intro c' cmd he _
      injection he with _ hin
      obtain rfl := incoming_frame hin
      refine h.up i cmd ?_
      rw [hup]
      exact List.mem_cons_self
  | host hacc hconn hs =>
    refine h.host hrun hacc (fun c ch he => (hconn c ch he).2) ?_ (fun _ _ hcmd => hcmd) hs
    intro c cmd he hown
    have hread : reads (.frame cmd) = false := (hconn c _ he).1 hown
    cases hread

theorem wired {cfg : Config} {dev : DeviceID} {P : List Obs → World → Action → Prop} {db : Store} {now : Int}
    {url : String} {authMode : Client.AuthMode} {identity : Option Client.Identity} {maxItems : Option Nat}
    {tr : List Obs} {w : World}
    (h : (system cfg dev).Run P [] (World.init cfg db now (.new url authMode identity maxItems)) tr w) :
    Wired cfg dev tr w :=
  h.invariant (wired_init cfg dev db now url authMode identity maxItems)
    fun _ _ _ _ _ hr ih _ hs => wired_step ih (host_run hr) (step_trans hs)

end Harness.Network
