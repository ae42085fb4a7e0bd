/-
# Harness.Network — one client, the daemon, and the frames between them.

The client of `Harness.Client` and the daemon of `Harness.Hub` as one system. A socket of the client becomes
a connection of the daemon when it is dialled. What the client sends on it waits in `up` until the connection
reads it, what the daemon writes to the connection waits in `down` until the client receives it; both are
first in, first out. A side that is gone reads no more, so what waits for it is lost.

The client is one device: its connections are the connections the daemon serves as `dev`. Other connections
of the daemon belong to other devices, or to nobody. What the daemon decodes from the client's hello and its
header is left open, apart from that.
-/
import Harness.Client.Flush
import Harness.Client.HostFrames
import Harness.Hub.Decision

namespace Harness.Network

open Wire Lib
open Client (HarnessClient SocketId)
open Hub (Config ConnId)

/-! ## The system -/

/-- `peers` says for each connection of the daemon which socket of the client it is, if any. -/
structure World where
  host : Hub.World
  client : HarnessClient
  peers : List (Option SocketId)
  up : SocketId → List Client.Frame
  down : ConnId → List Envelope

inductive Action where
  /-- a turn of the client that no frame starts -/
  | client (a : Client.Action)
  /-- the daemon accepts the websocket of socket `i` -/
  | dial (i : SocketId) (authorization remoteAddr userAgent : String)
  /-- a connection of the client reads the next frame; `p` and `out` are for a hello -/
  | read (c : ConnId) (p : HelloPayload) (out : Hub.Outcome)
  /-- the client receives the next frame of a connection -/
  | deliver (c : ConnId) (env : Client.Env)
  /-- anything else at the daemon -/
  | host (a : Hub.Action)

inductive Obs where
  | client (o : Client.Obs)
  | host (o : Hub.Obs)

def Obs.host? : Obs → Option Hub.Obs
  | .host o => some o
  | .client _ => none

def Obs.client? : Obs → Option Client.Obs
  | .client o => some o
  | .host _ => none

/-- The frame an observation puts on the wire to connection `c`. -/
def writtenTo (c : ConnId) : Hub.Obs → Option Envelope
  | .written d f | .direct d f => if d = c then some f else none
  | _ => none

/-- What a connection takes a frame of the client for. -/
def incoming (ph : Hub.ConnPhase) (p : HelloPayload) (out : Hub.Outcome) : Client.Frame → Hub.Choice
  | .command cmd => .frame cmd
  | .hello _ _ _ _ =>
      match ph with
      | .readHello _ _ _ => .hello p out
      | _ => .skip

/-- The choices that take a frame from the connection. -/
def reads : Hub.Choice → Bool
  | .hello _ _ | .frame _ | .skip => true
  | _ => false

namespace World

/-- The connection is the client's. -/
def own (w : World) (c : ConnId) : Bool := ((w.peers[c]?).join).isSome

/-- The device of the connection is the client's device exactly when the connection is the client's. -/
def belongs (dev : DeviceID) (w : World) (c : ConnId) : Bool :=
  match (w.host.conns[c]?).bind Hub.ConnPhase.device with
  | some d => decide (d = dev) == w.own c
  | none => true

def clientStep (w : World) (a : Client.Action) : Option (World × List Obs) :=
  (w.client.step a).map fun r =>
    ({ w with client := r.1, up := fun i => w.up i ++ Client.sentFrames i r.2 }, r.2.map .client)

def hostStep (cfg : Config) (w : World) (a : Hub.Action) : Option (World × List Obs) :=
  (w.host.step cfg a).map fun r =>
    ({ w with host := r.1, down := fun c => w.down c ++ r.2.filterMap (writtenTo c) }, r.2.map .host)

def step (cfg : Config) (dev : DeviceID) (w : World) : Action → Option (World × List Obs)
  | .client (.message _ _ _) => none
  | .client a => w.clientStep a
  | .dial i authorization remoteAddr userAgent =>
      if i < w.client.sockets.length ∧ some i ∉ w.peers then
        { w with peers := w.peers ++ [some i] }.hostStep cfg (.accept authorization remoteAddr userAgent)
      else none
  | .read c p out =>
      match (w.peers[c]?).join, w.host.conns[c]? with
      | some i, some ph =>
          match w.up i with
          | f :: rest =>
              ({ w with up := Function.update w.up i rest }.hostStep cfg
                (.conn c (incoming ph p out f))).filter fun r => belongs dev r.1 c
          | [] => none
      | _, _ => none
  | .deliver c env =>
      match (w.peers[c]?).join, w.down c with
      | some i, f :: rest =>
          { w with down := Function.update w.down c rest }.clientStep (Client.arrives i env f)
      | _, _ => none
  | .host (.accept authorization remoteAddr userAgent) =>
      { w with peers := w.peers ++ [none] }.hostStep cfg (.accept authorization remoteAddr userAgent)
  | .host (.conn c ch) =>
      if w.own c && reads ch then none
      else (w.hostStep cfg (.conn c ch)).filter fun r => belongs dev r.1 c
  | .host a => w.hostStep cfg a

end World

/-- The client, which is device `dev`, and the daemon. -/
def system (cfg : Config) (dev : DeviceID) : Lts World Action Obs where
  step := World.step cfg dev

/-- A daemon that has just started, and a client that has just been created. -/
def World.init (cfg : Config) (db : Store) (now : Int) (client : HarnessClient) : World where
  host := Hub.World.init cfg db now
  client := client
  peers := []
  up := fun _ => []
  down := fun _ => []

/-! ## What a step can do -/

/-- A turn of the client, with what it heard. -/
structure Turn (w : World) (ca : Client.Action) (c' : HarnessClient) (os : List Client.Obs)
    (down' : ConnId → List Envelope) : Prop where
  turn : w.client.step ca = some (c', os)
  down : ∀ c, ∀ f ∈ down' c, f ∈ w.down c
  heard : ∀ f, Client.Delivered w.client ca f →
    ∃ c e, w.own c = true ∧ e ∈ w.down c ∧ Client.inboundOf e = f

inductive Trans (cfg : Config) (dev : DeviceID) (w : World) : Action → World → List Obs → Prop
  | turn {a : Action} {ca : Client.Action} {c' : HarnessClient} {os : List Client.Obs}
      {down' : ConnId → List Envelope} (ht : Turn w ca c' os down') :
      Trans cfg dev w a
        { w with client := c', up := fun i => w.up i ++ Client.sentFrames i os, down := down' }
        (os.map .client)
  | accept {a : Action} {authorization ra ua : String} {peer : Option SocketId} {h' : Hub.World}
      {os : List Hub.Obs} (hnew : ∀ i, peer = some i → some i ∉ w.peers)
      (hs : w.host.step cfg (.accept authorization ra ua) = some (h', os)) :
      Trans cfg dev w a
        { w with
          host := h', peers := w.peers ++ [peer]
          down := fun c => w.down c ++ os.filterMap (writtenTo c) }
        (os.map .host)
  | read {c : ConnId} {p : HelloPayload} {out : Hub.Outcome} {i : SocketId} {ph : Hub.ConnPhase}
      {f : Client.Frame} {rest : List Client.Frame} {h' : Hub.World} {os : List Hub.Obs}
      (hi : w.peers[c]? = some (some i)) (hph : w.host.conns[c]? = some ph) (hup : w.up i = f :: rest)
      (hs : w.host.step cfg (.conn c (incoming ph p out f)) = some (h', os))
      (hdev : World.belongs dev { w with host := h' } c = true) :
      Trans cfg dev w (.read c p out)
        { w with
          host := h', up := Function.update w.up i rest
          down := fun c => w.down c ++ os.filterMap (writtenTo c) }
        (os.map .host)
  | host {a : Hub.Action} {h' : Hub.World} {os : List Hub.Obs}
      (hacc : ∀ authorization ra ua, a ≠ .accept authorization ra ua)
      (hconn : ∀ c ch, a = .conn c ch → (w.own c = true → reads ch = false) ∧
        World.belongs dev { w with host := h' } c = true)
      (hs : w.host.step cfg a = some (h', os)) :
      Trans cfg dev w (.host a)
        { w with host := h', down := fun c => w.down c ++ os.filterMap (writtenTo c) }
        (os.map .host)

/-- Whose device a connection of the client, and no other, is. -/
theorem World.belongs_iff {dev : DeviceID} {w : World} {c : ConnId} :
    w.belongs dev c = true ↔ ∀ ph d, w.host.conns[c]? = some ph → ph.device = some d →
      (d = dev ↔ w.own c = true) := by
  unfold World.belongs
  constructor
  · intro h ph d hph hd
    rw [hph, Option.bind_some, hd] at h
    by_cases he : d = dev <;> simpa [he] using h
  · intro h
    split
    · rename_i d hd
      obtain ⟨ph, hph, hpd⟩ := Option.bind_eq_some_iff.mp hd
      have hiff := h ph d hph hpd
      by_cases he : d = dev <;> simpa [he] using hiff
    · rfl

theorem hostStep_eq {cfg : Config} {w w' : World} {a : Hub.Action} {os : List Obs}
    (h : w.hostStep cfg a = some (w', os)) :
    ∃ h' hos, w.host.step cfg a = some (h', hos) ∧ os = hos.map .host ∧
      w' = { w with host := h', down := fun c => w.down c ++ hos.filterMap (writtenTo c) } := by
  obtain ⟨⟨h', hos⟩, hs, he⟩ := Option.map_eq_some_iff.mp h
  cases he
  exact ⟨h', hos, hs, rfl, rfl⟩

theorem clientStep_eq {w w' : World} {a : Client.Action} {os : List Obs}
    (h : w.clientStep a = some (w', os)) :
    ∃ c' cos, w.client.step a = some (c', cos) ∧ os = cos.map .client ∧
      w' = { w with client := c', up := fun i => w.up i ++ Client.sentFrames i cos } := by
  obtain ⟨⟨c', cos⟩, hs, he⟩ := Option.map_eq_some_iff.mp h
  cases he
  exact ⟨c', cos, hs, rfl, rfl⟩

/-- A turn that no frame starts hears nothing. -/
theorem turn_of_silent {w w' : World} {ca : Client.Action} {os : List Obs} {cfg : Config} {dev : DeviceID}
    {a : Action} (hno : ∀ i data env, ca ≠ .message i data env) (h : w.clientStep ca = some (w', os)) :
    Trans cfg dev w a w' os := by
  obtain ⟨c', cos, hs, rfl, rfl⟩ := clientStep_eq h
  exact .turn ⟨hs, fun _ _ hf => hf, fun f hd => absurd hd (Client.not_delivered hno)⟩

theorem World.own_of_peer {w : World} {c : ConnId} {i : SocketId} (h : (w.peers[c]?).join = some i) :
    w.own c = true := by
  rw [World.own, h]
  rfl

/-- A frame that arrives is the oldest one of its connection. -/
theorem turn_of_frame {w w' : World} {c : ConnId} {i : SocketId} {f : Envelope} {rest : List Envelope}
    {env : Client.Env} {os : List Obs} {cfg : Config} {dev : DeviceID} {a : Action}
    (hi : (w.peers[c]?).join = some i) (hdown : w.down c = f :: rest)
    (h : { w with down := Function.update w.down c rest }.clientStep (Client.arrives i env f) =
      some (w', os)) : Trans cfg dev w a w' os := by
  obtain ⟨c', cos, hs, rfl, rfl⟩ := clientStep_eq h
  have hrest (d : ConnId) : ∀ g ∈ Function.update w.down c rest d, g ∈ w.down d := by
    intro g hg
    by_cases hd : d = c
    · subst hd
      rw [Function.update_self] at hg
      rw [hdown]
      exact List.mem_cons_of_mem f hg
    · rwa [Function.update_of_ne hd] at hg
  refine .turn ⟨hs, hrest, fun g hd => ⟨c, f, World.own_of_peer hi, ?_, Client.delivered_arrives hd⟩⟩
  rw [hdown]
  exact List.mem_cons_self

theorem step_trans {cfg : Config} {dev : DeviceID} {w w' : World} {a : Action} {os : List Obs}
    (h : w.step cfg dev a = some (w', os)) : Trans cfg dev w a w' os := by
  unfold World.step at h
  split at h
  · cases h
  · -- a turn of its own
    rename_i ca hno
    exact turn_of_silent (fun i data env he => hno i data env he) h
  · -- a new connection of the client
    split at h
    · rename_i hnew
      obtain ⟨h', hos, hs, rfl, rfl⟩ := hostStep_eq h
      exact .accept (fun i hi => by cases hi; exact hnew.2) hs
    · cases h
  · -- a frame for the daemon
    split at h
    · rename_i i ph hi hph
      split at h
      · rename_i f rest hup
        obtain ⟨hstep, hdev⟩ := Option.filter_eq_some_iff.mp h
        obtain ⟨h', hos, hs, rfl, rfl⟩ := hostStep_eq hstep
        exact .read (Option.join_eq_some_iff.mp hi) hph hup hs hdev
      · cases h
    · cases h
  · -- a frame for the client
    split at h
    · rename_i hi hdown
      exact turn_of_frame hi hdown h
    · cases h
  · -- a new connection of somebody else
    obtain ⟨h', hos, hs, rfl, rfl⟩ := hostStep_eq h
    exact .accept nofun hs
  · -- a connection goes on
    rename_i c ch
    split at h
    · cases h
    · rename_i hread
      obtain ⟨hstep, hdev⟩ := Option.filter_eq_some_iff.mp h
      obtain ⟨h', hos, hs, rfl, rfl⟩ := hostStep_eq hstep
      refine .host nofun ?_ hs
      rintro c' ch' he
      cases he
      refine ⟨fun hown => ?_, hdev⟩
      rw [hown, Bool.true_and] at hread
      exact Bool.eq_false_iff.mpr hread
  · -- the rest of the daemon
    rename_i ha hacc hconn
    obtain ⟨h', hos, hs, rfl, rfl⟩ := hostStep_eq h
    exact .host hacc (fun c ch he => absurd he (hconn c ch)) hs

/-- A frame on its way to a connection was taken from its queue, or was written to it directly. -/
theorem written_cases {c : ConnId} {o : Hub.Obs} {f : Envelope} (h : writtenTo c o = some f) :
    o = .written c f ∨ o = .direct c f := by
  unfold writtenTo at h
  split at h
  · split at h
    · rename_i hd
      cases h
      exact .inl (hd ▸ rfl)
    · cases h
  · split at h
    · rename_i hd
      cases h
      exact .inr (hd ▸ rfl)
    · cases h
  · cases h

/-! ## The two sides of a run -/

/-- What the daemon does in a run of the whole. -/
def hostTrace (tr : List Obs) : List Hub.Obs := tr.filterMap Obs.host?

theorem hostTrace_append (t os : List Obs) : hostTrace (t ++ os) = hostTrace t ++ hostTrace os :=
  List.filterMap_append

theorem hostTrace_host (os : List Hub.Obs) : hostTrace (os.map .host) = os := by
  rw [hostTrace, List.filterMap_map]
  exact List.filterMap_some

theorem hostTrace_client (os : List Client.Obs) : hostTrace (os.map .client) = [] := by
  rw [hostTrace, List.filterMap_map, List.filterMap_eq_nil_iff]
  exact fun _ _ => rfl

/-- What the daemon does in one step of the whole. -/
theorem Trans.host_step {cfg : Config} {dev : DeviceID} {w w' : World} {a : Action} {os : List Obs}
    (h : Trans cfg dev w a w' os) :
    (w'.host = w.host ∧ hostTrace os = []) ∨ ∃ ha, w.host.step cfg ha = some (w'.host, hostTrace os) := by
  cases h with
  | turn => exact .inl ⟨rfl, hostTrace_client _⟩
  | accept _ hs | read _ _ _ hs | host _ _ hs =>
    rw [hostTrace_host]
    exact .inr ⟨_, hs⟩

/-- **The daemon's side of a run** is a run of the daemon. -/
theorem host_run {cfg : Config} {dev : DeviceID} {P : List Obs → World → Action → Prop} {db : Store}
    {now : Int} {client : HarnessClient} {tr : List Obs} {w : World}
    (h : (system cfg dev).Run P [] (World.init cfg db now client) tr w) :
    (Hub.system cfg).Run Lts.Free [] (Hub.World.init cfg db now) (hostTrace tr) w.host := by
  refine h.invariant (I := fun t u => (Hub.system cfg).Run Lts.Free [] (Hub.World.init cfg db now)
    (hostTrace t) u.host) .refl ?_
  intro t u a u' os _ ih _ hs
  rw [hostTrace_append]
  rcases (step_trans hs).host_step with ⟨hsame, hnil⟩ | ⟨ha, hstep⟩
  · rw [hsame, hnil, List.append_nil]
    exact ih
  · exact ih.tail trivial hstep

end Harness.Network
