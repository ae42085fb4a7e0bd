/-
# Harness.Network.CaughtUp — when everything has come to rest, the screen shows the whole log.

That the screen shows a beginning of the log leaves open that it stays behind. It does not, as long as the
client keeps its socket: what the daemon reads in the hello is the position the client was at, the daemon
catches up from there, every later event is broadcast, and no frame of the connection is lost while its two
ends are served. So once nothing is under way (no broadcast, no frame in the queue of the connection, none on
its way) the client has seen all of it (`caught_up`).

`Abreast` is the invariant: the hello on its way, the point the connection catches up from and every event written
to it lie behind the client's position, or are still on their way.
-/
import Harness.Hub.Queues
import Harness.Client.Position
import Harness.Network.Screen

namespace Harness.Hub

open Wire

/-- A connection that is still being set up takes no frame. -/
theorem serveStep_reads {cfg : Config} {c : ConnId} {h : Hub} {dev : DeviceID} {k : Int} {pc : ServePc}
    {ch : Choice} (hr : Network.reads ch = true) : serveStep cfg c h dev k pc ch = none := by
  cases ch with
  | hello | frame | skip => cases pc <;> rfl
  | _ => cases hr

/-- Registering is the last step of setting a connection up. -/
theorem StepTrans.registering {cfg : Config} {w w' : World} {a : Action} {os : List Obs}
    (h : StepTrans cfg w a w' os) {c : ConnId} {dev : DeviceID} {k : Int} (ho : .registered c dev k ∈ os) :
    ∃ pc, w.conns[c]? = some (.serving dev k pc) := by
  obtain ⟨ch, ph, h', ph', -, hph, hsrc, ht, -⟩ := h.of_conn ho (c := c) rfl
  cases ht with
  | @serving dev' k' pc _ _ _ _ ht =>
    cases ht with
    | register hh1 henq =>
      rcases List.mem_cons.mp ho with he | ho
      · cases he
        exact ⟨_, hph⟩
      · obtain ⟨f, -, hoff⟩ := enqueueAll_obs henq _ ho
        cases hoff
    | quit => cases List.mem_singleton.mp ho
    | getSession | getEvents | getSince => cases ho
  | _ => rcases hsrc with he | he <;> cases he

/-- A connection starts to be set up with the position its hello said. -/
theorem ConnTrans.set_up {cfg : Config} {c : ConnId} {h h' : Hub} {ph ph' : ConnPhase} {ch : Choice}
    {os : List Obs} (ht : ConnTrans cfg c h ph ch h' ph' os) {dev : DeviceID} {k : Int} {pc : ServePc}
    (hph : ph' = .serving dev k pc) :
    (∃ pc₀, ph = .serving dev k pc₀) ∨ ∃ p out, ch = .hello p out ∧ k = p.lastSeq := by
  cases ht with
  | @authenticated _ _ _ p out =>
    cases hph
    exact .inr ⟨p, out, rfl, rfl⟩
  | serving ht =>
    cases ht with
    | getSession | getEvents | getSince =>
      cases hph
      exact .inl ⟨_, rfl⟩
    | register | quit => cases hph
  | pairing ht => cases ht <;> cases hph
  | handling ht => cases ht <;> cases hph
  | unauthenticated | turnedAway | frame | skip | gone => cases hph

end Harness.Hub

namespace Harness.Network

open Wire Lib
open Client (HarnessClient SocketId SessionState SameStream applyAll newSessionState)
open Hub (Config ConnId)

/-! ## The condition -/

/-- **`Steady`** — the condition on a step: it is `Plain`; the daemon reads in a hello the position that the client
wrote into it; connections register without a gap; and `reset()` is for a client that is not connected. -/
structure Steady (cfg : Config) (t : List Obs) (w : World) (a : Action) : Prop extends Plain cfg t w a where
  position : ∀ (c : ConnId) p out i d k token credential rest, a = .read c p out →
    w.peers[c]? = some (some i) → w.up i = .hello d k token credential :: rest → (p.lastSeq : ℚ) = k
  gapless : ∀ ha, a = .host ha → Hub.RegistersWithoutGap cfg (hostTrace t) w.host ha
  kept : a = .client .reset → w.client.socket = none

/-- A frame that is taken for a hello is one. -/
theorem incoming_hello {ph : Hub.ConnPhase} {p q : HelloPayload} {out out' : Hub.Outcome} {f : Client.Frame}
    (h : incoming ph p out f = .hello q out') :
    q = p ∧ ∃ d k token credential, f = .hello d k token credential := by
  unfold incoming at h
  split at h
  · cases h
  · split at h
    · cases h
      exact ⟨rfl, _, _, _, _, rfl⟩
    · cases h

/-- The daemon's side of a steady run. -/
theorem host_gapless {cfg : Config} {dev : DeviceID} {db : Store} {now : Int} {client : HarnessClient}
    {tr : List Obs} {w : World}
    (h : (system cfg dev).Run (Steady cfg) [] (World.init cfg db now client) tr w) :
    (Hub.system cfg).Run (Hub.RegistersWithoutGap cfg) [] (Hub.World.init cfg db now) (hostTrace tr) w.host := by
  refine h.invariant (I := fun t u => (Hub.system cfg).Run (Hub.RegistersWithoutGap cfg) []
    (Hub.World.init cfg db now) (hostTrace t) u.host) .refl ?_
  intro t u a u' os _ ih hP hs
  rw [hostTrace_append]
  cases step_move hs with
  | call | deliver =>
    rw [hostTrace_client, List.append_nil]
    exact ih
  | accept _ hs' =>
    rw [hostTrace_host]
    refine ih.tail (a := .accept _ _ _) ?_ hs'
    intro c ch dev k snap batch he
    cases he
  | read hi hph hup hs' hdev =>
    rw [hostTrace_host]
    refine ih.tail (a := .conn _ _) ?_ hs'
    intro c ch dev k snap batch he hreg
    cases he
    -- a connection that registers reads nothing
    obtain ⟨ph, h₁, ph₁, hph₁, hc, -⟩ := Hub.World.step_conn hs'
    obtain rfl := Option.some.inj (hreg.symm.trans hph₁)
    cases (Hub.serveStep_reads (reads_incoming _ _ _ _)).symm.trans hc
  | host _ _ hs' =>
    rw [hostTrace_host]
    exact Lts.Run.tail ih (hP.gapless _ rfl) hs'

/-! ## The invariant -/

/-- **`Abreast`** — what lies between the client and the connection of its socket. -/
structure Abreast (cfg : Config) (t : List Obs) (w : World) : Prop where
  seated : w.client.Seated
  /-- of a socket that does not exist yet nothing is seen -/
  fresh : ∀ i, w.client.sockets.length ≤ i → w.up i = [] ∧ some i ∉ w.peers
  /-- the hello on its way -/
  greeted : ∀ i, w.client.socket = some i → ∀ d k token credential,
    .hello d k token credential ∈ w.up i → k ≤ w.client.session.lastSeq
  /-- the connection that is being set up -/
  asked : ∀ i (c : ConnId), w.client.socket = some i → w.peers[c]? = some (some i) →
    ∀ dev (k : Int) pc, w.host.conns[c]? = some (.serving dev k pc) → (k : ℚ) ≤ w.client.session.lastSeq
  registered : ∀ i (c : ConnId), w.client.socket = some i → w.peers[c]? = some (some i) →
    ∀ dev (k : Int), .registered c dev k ∈ hostTrace t → (k : ℚ) ≤ w.client.session.lastSeq
  heard : ∀ i (c : ConnId), w.client.socket = some i → w.peers[c]? = some (some i) →
    ∀ ev, .written c (.event ev) ∈ hostTrace t →
      .event ev ∈ w.down c ∨ (ev.seq : ℚ) ≤ w.client.session.lastSeq

theorem abreast_init (cfg : Config) (db : Store) (now : Int) (url : String) (authMode : Client.AuthMode)
    (identity : Option Client.Identity) (maxItems : Option Nat) :
    Abreast cfg [] (World.init cfg db now (.new url authMode identity maxItems)) where
  seated := ⟨fun _ hi => (by cases hi), fun hr => (by cases hr)⟩
  fresh := fun i _ => ⟨rfl, List.not_mem_nil⟩
  greeted := fun i hi => by cases hi
  asked := fun i c hi => by cases hi
  registered := fun i c hi => by cases hi
  heard := fun i c hi => by cases hi

/-- A frame that is sent on a socket was sent on it. -/
theorem mem_sentFrames {i : SocketId} {f : Client.Frame} {os : List Client.Obs}
    (h : f ∈ Client.sentFrames i os) : .sent i f ∈ os := by
  obtain ⟨o, ho, he⟩ := List.mem_filterMap.mp h
  unfold Client.Obs.sentOn at he
  split at he
  · rename_i j g
    split at he
    · rename_i hj
      cases he
      exact hj ▸ ho
    · cases he
  · cases he

/-! ### A turn of the client -/

section Turn

variable {cfg : Config} {t : List Obs} {w : World} {ca : Client.Action} {c' : HarnessClient}
  {os : List Client.Obs} {down' : ConnId → List Envelope}

/-- The position is never negative. -/
theorem Mirrors.nonneg (h : Mirrors cfg w) : 0 ≤ w.client.session.lastSeq := by
  obtain ⟨n, -, hn, -⟩ := h.shows
  rw [hn]
  exact Nat.cast_nonneg n

/-- A snapshot of the daemon's session starts no other session. -/
theorem Wired.base {dev : DeviceID} (h : Wired cfg dev t w) (ht : Turn w ca c' os down') {snap : Client.JsRecord}
    (hd : Client.Delivered w.client ca (.snapshot snap)) :
    Client.snapshotBase w.client.session snap = w.client.session := by
  have hsess := h.session ht hd
  exact Client.snapshotBase_same (h.home.imp_right fun he => he.trans hsess.symm) ⟨_, hsess⟩

/-- A turn leaves the position of a socket that was in use where it was, or moves it forward. What was written to
its connection and is no longer on its way is behind the position (`hheard`). -/
theorem Abreast.turn (h : Abreast cfg t w) (hsteps : Client.Steps True w.client ca c' os)
    (hpos : 0 ≤ c'.session.lastSeq)
    (hheard : ∀ i (c : ConnId) ev, w.client.socket = some i → c'.socket = some i → w.peers[c]? = some (some i) →
      .event ev ∈ w.down c → .event ev ∈ down' c ∨ (ev.seq : ℚ) ≤ c'.session.lastSeq) :
    Abreast cfg (t ++ os.map .client)
      { w with client := c', up := fun i => w.up i ++ Client.sentFrames i os, down := down' } := by
  -- the socket is the one that was in use, as its connection exists
  have same {i : SocketId} {c : ConnId} (hi : c'.socket = some i) (hc : w.peers[c]? = some (some i)) :
      w.client.socket = some i ∧ w.client.session.lastSeq ≤ c'.session.lastSeq := by
    rcases hsteps.position i hi with ⟨hold, hle⟩ | hnew
    · exact ⟨hold, hle trivial⟩
    · exact absurd (List.mem_of_getElem? hc) (h.fresh i hnew).2
  have htrace : hostTrace (t ++ os.map .client) = hostTrace t := by
    rw [hostTrace_append, hostTrace_client, List.append_nil]
  refine ⟨hsteps.seated, ?_, ?_, ?_, ?_, ?_⟩
  · intro i hi
    obtain ⟨hup, hpeer⟩ := h.fresh i (hsteps.length.trans hi)
    refine ⟨?_, hpeer⟩
    show w.up i ++ Client.sentFrames i os = []
    rw [hup, List.nil_append]
    apply List.eq_nil_iff_forall_not_mem.mpr
    intro f hf
    exact absurd (hsteps.lt (mem_sentFrames hf)) (not_lt.mpr (hsteps.length.trans hi))
  · intro i hi d k token credential hm
    rcases List.mem_append.mp hm with hold | hnew
    · rcases hsteps.position i hi with ⟨hcur, hle⟩ | hlen
      · exact (h.greeted i hcur d k token credential hold).trans (hle trivial)
      · rw [(h.fresh i hlen).1] at hold
        cases hold
    · obtain rfl | rfl := hsteps.hello (mem_sentFrames hnew)
      · exact hpos
      · exact le_refl _
  · intro i c hi hc dev k pc hph
    obtain ⟨hcur, hle⟩ := same hi hc
    exact (h.asked i c hcur hc dev k pc hph).trans hle
  · intro i c hi hc dev k hreg
    rw [htrace] at hreg
    obtain ⟨hcur, hle⟩ := same hi hc
    exact (h.registered i c hcur hc dev k hreg).trans hle
  · intro i c hi hc ev hw
    rw [htrace] at hw
    obtain ⟨hcur, hle⟩ := same hi hc
    rcases h.heard i c hcur hc ev hw with hdown | hbehind
    · exact hheard i c ev hcur hi hc hdown
    · exact .inr (hbehind.trans hle)

end Turn

/-! ### A step of the daemon -/

section Daemon

variable {cfg : Config} {t : List Obs} {w : World} {db : Store} {now : Int} {h' : Hub.World}
  {os : List Hub.Obs}

/-- A connection the daemon has not accepted yet has left no trace. -/
theorem no_trace {P : List Hub.Obs → Hub.World → Hub.Action → Prop} {tr : List Hub.Obs} {u : Hub.World}
    (hrun : (Hub.system cfg).Run P [] (Hub.World.init cfg db now) tr u) {c : ConnId}
    (hc : u.conns.length ≤ c) :
    (∀ dev k, .registered c dev k ∉ tr) ∧ ∀ f, .written c f ∉ tr := by
  have hnone : ∀ dev k, .registered c dev k ∉ tr := by
    intro dev k hm
    obtain ⟨ph, hph, -⟩ := Hub.registered_late hrun hm
    rw [List.getElem?_eq_none hc] at hph
    cases hph
  exact ⟨hnone, fun f hf => (Hub.unregistered hrun hnone).silent _ hf rfl⟩

/-- The daemon accepts a connection. -/
theorem Abreast.accept (h : Abreast cfg t w)
    (hrun : (Hub.system cfg).Run Lts.Free [] (Hub.World.init cfg db now) (hostTrace t) w.host)
    (hpool : w.peers.length = w.host.conns.length) {peer : Option SocketId} {authorization ra ua : String}
    (hnew : ∀ i, peer = some i → i < w.client.sockets.length ∧ some i ∉ w.peers)
    (hs : w.host.step cfg (.accept authorization ra ua) = some (h', os)) :
    Abreast cfg (t ++ os.map .host)
      { w with
        host := h', peers := w.peers ++ [peer]
        down := fun c => w.down c ++ os.filterMap (writtenTo c) } := by
  obtain ⟨hc, rfl, rfl⟩ := accept_eq hs
  simp only [List.map_nil, List.append_nil, List.filterMap_nil]
  refine ⟨h.seated, ?_, h.greeted, ?_, ?_, ?_⟩
  · intro i hi
    obtain ⟨hup, hpeer⟩ := h.fresh i hi
    refine ⟨hup, fun hm => ?_⟩
    rcases List.mem_append.mp hm with hold | hlast
    · exact hpeer hold
    · exact absurd (hnew i (List.mem_singleton.mp hlast).symm).1 (not_lt.mpr hi)
  · intro i c hi hpc dev k pc hph
    rcases getElem?_concat_cases hph with hph | ⟨-, he⟩
    · rcases getElem?_concat_cases hpc with hpc | ⟨rfl, -⟩
      · exact h.asked i c hi hpc dev k pc hph
      · have hlt := (List.getElem?_eq_some_iff.mp hph).1
        omega
    · cases he
  · intro i c hi hpc dev k hreg
    rcases getElem?_concat_cases hpc with hpc | ⟨rfl, -⟩
    · exact h.registered i c hi hpc dev k hreg
    · exact absurd hreg ((no_trace hrun hpool.ge).1 dev k)
  · intro i c hi hpc ev hw
    rcases getElem?_concat_cases hpc with hpc | ⟨rfl, -⟩
    · exact h.heard i c hi hpc ev hw
    · exact absurd hw ((no_trace hrun hpool.ge).2 _)

/-- Any other step: a connection of the client that starts to be set up has read its hello (`hread`). -/
theorem Abreast.host (h : Abreast cfg t w) {a : Hub.Action} {up' : SocketId → List Client.Frame}
    (hacc : ∀ authorization ra ua, a ≠ .accept authorization ra ua)
    (hup : ∀ i, ∀ f ∈ up' i, f ∈ w.up i)
    (hread : ∀ i (c : ConnId) p out, a = .conn c (.hello p out) → w.peers[c]? = some (some i) →
      w.client.socket = some i → (p.lastSeq : ℚ) ≤ w.client.session.lastSeq)
    (hs : w.host.step cfg a = some (h', os)) :
    Abreast cfg (t ++ os.map .host)
      { w with host := h', up := up', down := fun c => w.down c ++ os.filterMap (writtenTo c) } := by
  have hst : Hub.StepTrans cfg w.host a h' os := Hub.World.step_trans hs
  refine ⟨h.seated, ?_, ?_, ?_, ?_, ?_⟩
  · intro i hi
    obtain ⟨hnil, hpeer⟩ := h.fresh i hi
    refine ⟨?_, hpeer⟩
    apply List.eq_nil_iff_forall_not_mem.mpr
    intro f hf
    have hm := hup i f hf
    rw [hnil] at hm
    cases hm
  · intro i hi d k token credential hm
    exact h.greeted i hi d k token credential (hup i _ hm)
  · intro i c hi hpc dev k pc hph
    rcases phase_cases hacc hs hph with hold | ⟨ch, ph₀, h₁, rfl, hph₀, hc⟩
    · exact h.asked i c hi hpc dev k pc hold
    · rcases (Hub.connStep_trans hc).set_up rfl with ⟨pc₀, rfl⟩ | ⟨p, out, rfl, rfl⟩
      · exact h.asked i c hi hpc dev k pc₀ hph₀
      · exact hread i c p out rfl hpc hi
  · intro i c hi hpc dev k hreg
    rw [hostTrace_append, hostTrace_host] at hreg
    rcases List.mem_append.mp hreg with hold | hnew
    · exact h.registered i c hi hpc dev k hold
    · obtain ⟨pc, hph⟩ := hst.registering hnew
      exact h.asked i c hi hpc dev k pc hph
  · intro i c hi hpc ev hw
    rw [hostTrace_append, hostTrace_host] at hw
    rcases List.mem_append.mp hw with hold | hnew
    · exact (h.heard i c hi hpc ev hold).imp_left fun hm => List.mem_append_left _ hm
    · refine .inl (List.mem_append_right _ (List.mem_filterMap.mpr ⟨_, hnew, ?_⟩))
      exact if_pos rfl

end Daemon

/-! ## The run -/

/-- What is left on a socket after a frame was read was on it before. -/
theorem mem_update {w : World} {i : SocketId} {f : Client.Frame} {rest : List Client.Frame}
    (hup : w.up i = f :: rest) (j : SocketId) : ∀ g ∈ Function.update w.up i rest j, g ∈ w.up j := by
  intro g hg
  by_cases hj : j = i
  · subst hj
    rw [Function.update_self] at hg
    rw [hup]
    exact List.mem_cons_of_mem f hg
  · rwa [Function.update_of_ne hj] at hg

section Run

variable {cfg : Config} {dev : DeviceID} {db : Store} {now : Int} {url : String} {authMode : Client.AuthMode}
  {identity : Option Client.Identity} {tr : List Obs} {w : World}

/-- The events of a short log have small numbers. -/
theorem small_of_logged {t : List Hub.Obs} {u : Hub.World} {P : List Hub.Obs → Hub.World → Hub.Action → Prop}
    {n : Nat} (hrun : (Hub.system cfg).Run P [] (Hub.World.init cfg db now) t u) (hlen : (u.log cfg).length < n)
    {ev : EventPayload} (hev : ev ∈ u.log cfg) : ev.seq < n :=
  ((Hub.log_numbered hrun).bounds hev).2.trans_lt hlen

theorem abreast
    (h : (system cfg dev).Run (Steady cfg) [] (World.init cfg db now (.new url authMode identity none)) tr w) :
    Abreast cfg tr w := by
  refine h.invariant (I := fun t u => Abreast cfg t u) (abreast_init cfg db now url authMode identity none) ?_
  intro t u a u' os hr ih hP hs
  have hplain := hr.mono fun _ _ _ hp => hp.toPlain
  have hmirrors : Mirrors cfg u := mirrors hplain
  have hmirrors' : Mirrors cfg u' := mirrors (hplain.tail hP.toPlain hs)
  cases step_move hs with
  | call ht =>
    have hsteps := ih.seated.step ht.turn fun _ : True =>
      ⟨fun he => hP.kept (congrArg Action.client he), fun snap hd => (wired hr).base ht hd⟩
    exact ih.turn hsteps hmirrors'.nonneg fun i c ev _ _ _ hdown => .inl hdown
  | @deliver c₀ i₀ env f rest c' os hi hdown ht =>
    have hsteps := ih.seated.step ht.turn fun _ : True =>
      ⟨fun he => (by cases he), fun snap hd => (wired hr).base ht hd⟩
    refine ih.turn hsteps hmirrors'.nonneg ?_
    intro i c ev hcur hstill hpc hev
    by_cases hc : c = c₀
    · subst hc
      obtain rfl : i = i₀ := by
        rw [hpc] at hi
        exact Option.some.inj hi
      rw [hdown] at hev
      rcases List.mem_cons.mp hev with rfl | hrest
      · -- it is the event that arrives
        have hlog : ev ∈ u.host.log cfg := hmirrors.frames c ev (.inr (hdown ▸ List.mem_cons_self))
        have hsmall : ev.seq < 2 ^ 63 := small_of_logged (host_run hr) (hP.safe.trans (by norm_num)) hlog
        exact .inr (Client.heard_behind ih.seated hcur hsmall ht.turn hstill)
      · rw [Function.update_self]
        exact .inl hrest
    · rw [Function.update_of_ne hc]
      exact .inl hev
  | accept hnew hs' => exact ih.accept (host_run hr) (wired hr).pool hnew hs'
  | @read c p out i ph f rest h' os hi hph hup hs' hdev =>
    refine ih.host (fun _ _ _ he => by cases he) (mem_update hup) ?_ hs'
    intro j c' q out' he hpc hcur
    injection he with hc hin
    subst hc
    obtain ⟨rfl, d, k, token, credential, rfl⟩ := incoming_hello hin
    obtain rfl : i = j := Option.some.inj (Option.some.inj (hi.symm.trans hpc))
    rw [hP.position c q out i d k token credential rest rfl hi hup]
    refine ih.greeted i hcur d k token credential ?_
    rw [hup]
    exact List.mem_cons_self
  | host hacc hconn hs' =>
    refine ih.host hacc (fun _ _ hf => hf) ?_ hs'
    intro i c p out he hpc _
    have hown : u.own c = true := World.own_of_peer (Option.join_eq_some_iff.mpr hpc)
    have hread : reads (.hello p out) = false := (hconn c _ he).1 hown
    cases hread

/-- **`AtRest w i c`** — nothing is under way between the daemon and socket `i`, which connection `c` serves: no
event waits to be broadcast, no frame waits in the queue, none has been turned away from it, and none is on its
way. -/
structure AtRest (w : World) (i : SocketId) (c : ConnId) : Prop where
  socket : w.client.socket = some i
  peer : w.peers[c]? = some (some i)
  joined : c ∈ w.host.hub.clients
  settled : w.host.Settled
  writing : (w.host.hub.outbound c).writing = true
  room : (w.host.hub.outbound c).overflow = false
  queue : (w.host.hub.outbound c).send = []
  wire : w.down c = []

/-- **At rest nothing is missing**: the client has caught up with the log, and shows all of it. -/
theorem caught_up
    (h : (system cfg dev).Run (Steady cfg) [] (World.init cfg db now (.new url authMode identity none)) tr w)
    {i : SocketId} {c : ConnId} (hrest : AtRest w i c) :
    w.client.session.lastSeq = (w.host.log cfg).length ∧
      SameStream w.client.session (applyAll newSessionState (w.host.log cfg)) := by
  have hab := abreast h
  have hhost := host_gapless h
  obtain ⟨dev', k, hreg⟩ : ∃ dev' k, .registered c dev' k ∈ hostTrace tr := by
    by_contra hno
    have hunseen := Hub.unregistered hhost fun dev' k hm => hno ⟨dev', k, hm⟩
    exact hunseen.absent.clients hrest.joined
  have hall := Hub.all_written hhost hreg hrest.joined hrest.settled hrest.writing hrest.room hrest.queue
  have hk := hab.registered i c hrest.socket hrest.peer dev' k hreg
  -- every event of the log is behind the position
  have hbehind : ∀ ev ∈ w.host.log cfg, (ev.seq : ℚ) ≤ w.client.session.lastSeq := by
    intro ev hev
    rcases lt_or_ge k (ev.seq : Int) with hlt | hge
    · rcases hab.heard i c hrest.socket hrest.peer ev (hall ev hev hlt) with hdown | hle
      · rw [hrest.wire] at hdown
        cases hdown
      · exact hle
    · exact le_trans (by exact_mod_cast hge) hk
  obtain ⟨n, hn, hseq, hsame⟩ := (mirrors (h.mono fun _ _ _ hp => hp.toPlain)).shows
  have hend : n = (w.host.log cfg).length := by
    rcases List.eq_nil_or_concat' (w.host.log cfg) with hnil | ⟨init, ev, hlog⟩
    · rw [hnil] at hn ⊢
      exact Nat.le_zero.mp hn
    · have hnum : Lib.Fanout.Numbered EventPayload.seq (w.host.log cfg) := Hub.log_numbered hhost
      have hle := hbehind ev (by rw [hlog]; exact List.mem_append_right _ (List.mem_singleton_self _))
      rw [hlog] at hnum hn ⊢
      have hlast : ev.seq = init.length + 1 := hnum.last
      rw [hseq, hlast] at hle
      have hle' : init.length + 1 ≤ n := by exact_mod_cast hle
      rw [List.length_append, List.length_singleton] at hn ⊢
      omega
  subst hend
  rw [List.take_length] at hsame
  exact ⟨hseq, hsame⟩

end Run

/-! A phone that lost its connection comes back with what it has seen, and is shown what was said since. -/

def Sample.cameBack : List Action :=
  Sample.prompted ++
    [.host (.conn 0 .run), .host (.conn 0 (.call .ok)), .client (.closed 0 (some 1006) {}), .client (.timer {}),
      .dial 1 "Bearer phone-secret" "192.168.1.7:50112" "okhttp/4.12", .client (.opened 1),
      .read 1 { lastSeq := 1 } .ok, .host (.conn 1 (.call .ok)), .host (.conn 1 (.call .ok)),
      .host (.conn 1 (.call .ok)), .host (.conn 1 (.call .ok)), .host (.write 1 .send), .deliver 1 {},
      .client (.send (.sendPrompt "two") "c2"), .read 1 {} .ok] ++
    (Hub.Sample.handle 1 [1, 0]).map .host ++
    [.host (.write 1 .send), .deliver 1 {}, .host (.write 1 .send), .deliver 1 {}]

/-- No `reset()`, no event of the agent and no position of the application's own. -/
def steadyAction (a : Action) : Bool :=
  plainAction a && match a with
    | .client .reset => false
    | _ => true

/-- A hello is read as it was sent, and whoever registers finds nothing beyond its `k`. -/
def steadyStep (cfg : Config) (w : World) : Action → Bool
  | .read c p _ =>
      match (w.peers[c]?).join.map w.up with
      | some (.hello _ k _ _ :: _) => decide ((p.lastSeq : ℚ) = k)
      | _ => true
  | .host ha => Hub.registersCaughtUp cfg w.host ha
  | _ => true

theorem steady_of_check {cfg : Config} {t : List Obs} {w : World} {a : Action} (ha : steadyAction a = true)
    (hstep : (decide ((w.host.log cfg).length < 2 ^ 53) && steadyStep cfg w a) = true) : Steady cfg t w a where
  toPlain := plain_of_check (Bool.and_eq_true_iff.mp ha).1 (Bool.and_eq_true_iff.mp hstep).1
  position := by
    rintro c p out i d k token credential rest rfl hpc hup
    have hread := (Bool.and_eq_true_iff.mp hstep).2
    rw [steadyStep, hpc, Option.join_some, Option.map_some, hup] at hread
    exact of_decide_eq_true hread
  gapless := by
    rintro ha' rfl
    exact Hub.registersCaughtUp_sound cfg _ _ _ (Bool.and_eq_true_iff.mp hstep).2
  kept := by
    rintro rfl
    cases (Bool.and_eq_true_iff.mp ha).2

/-- `AtRest`, decided. -/
def World.atRest (w : World) (i : SocketId) (c : ConnId) : Bool :=
  decide (w.client.socket = some i) && decide (w.peers[c]? = some (some i)) && decide (c ∈ w.host.hub.clients) &&
    w.host.aloneWith none && (w.host.hub.outbound c).writing && !(w.host.hub.outbound c).overflow &&
    (w.host.hub.outbound c).send.isEmpty && (w.down c).isEmpty

theorem atRest_of_check {w : World} {i : SocketId} {c : ConnId} (h : w.atRest i c = true) : AtRest w i c := by
  simp only [World.atRest, Bool.and_eq_true, decide_eq_true_eq, Bool.not_eq_true', List.isEmpty_iff] at h
  obtain ⟨⟨⟨⟨⟨⟨⟨hsocket, hpeer⟩, hjoined⟩, halone⟩, hwriting⟩, hroom⟩, hqueue⟩, hwire⟩ := h
  exact ⟨hsocket, hpeer, hjoined, Hub.World.settled_of_aloneWith halone, hwriting, hroom, hqueue, hwire⟩

theorem caught_up_cameBack :
    ∃ tr w, (system Hub.Sample.config Hub.Sample.phone).Run (Steady Hub.Sample.config) [] Sample.start tr w ∧
      AtRest w 1 1 ∧ (w.host.log Hub.Sample.config).length = 2 ∧
      w.client.session.lastSeq = (w.host.log Hub.Sample.config).length ∧
      SameStream w.client.session (applyAll newSessionState (w.host.log Hub.Sample.config)) := by
  have hexec : ((system Hub.Sample.config Hub.Sample.phone).exec
      (fun _ w a => decide ((w.host.log Hub.Sample.config).length < 2 ^ 53) && steadyStep Hub.Sample.config w a) []
      Sample.start Sample.cameBack).map (fun r => (r.2.atRest 1 1, (r.2.host.log Hub.Sample.config).length)) =
      some (true, 2) := by decide +kernel
  obtain ⟨⟨tr, w⟩, hr, hend⟩ := Option.map_eq_some_iff.mp hexec
  obtain ⟨hrest, hlen⟩ := Prod.mk.inj hend
  have hall : ∀ a ∈ Sample.cameBack, steadyAction a = true := List.all_eq_true.mp rfl
  have hrun : (system Hub.Sample.config Hub.Sample.phone).Run (Steady Hub.Sample.config) [] Sample.start tr w :=
    Lts.run_of_exec_mem (fun a ha _ _ hstep => steady_of_check (hall a ha) hstep) hr
  exact ⟨tr, w, hrun, atRest_of_check hrest, hlen, caught_up hrun (atRest_of_check hrest)⟩

end Harness.Network
