/-
# Harness.Network.Move — a step of the whole, with the action it was.

`Trans` forgets which action of the client a turn was, which is all the wiring needs. A condition on the
actions, on what the application asks for or on what the agent emits, speaks of the action itself; `Move`
keeps it.
-/
import Harness.Network.Wiring

namespace Harness.Network

open Wire Lib
open Client (HarnessClient SocketId)
open Hub (Config ConnId)

inductive Move (cfg : Config) (dev : DeviceID) (w : World) : Action → World → List Obs → Prop
  | call {ca : Client.Action} {c' : HarnessClient} {os : List Client.Obs} (ht : Turn w ca c' os w.down) :
      Move cfg dev w (.client ca) { w with client := c', up := fun i => w.up i ++ Client.sentFrames i os }
        (os.map .client)
  | deliver {c : ConnId} {i : SocketId} {env : Client.Env} {f : Envelope} {rest : List Envelope}
      {c' : HarnessClient} {os : List Client.Obs} (hi : (w.peers[c]?).join = some i)
      (hdown : w.down c = f :: rest)
      (ht : Turn w (Client.arrives i env f) c' os (Function.update w.down c rest)) :
      Move cfg dev w (.deliver c env)
        { w with
          client := c', up := fun i => w.up i ++ Client.sentFrames i os
          down := Function.update w.down c rest }
        (os.map .client)
  | accept {a : Action} {authorization ra ua : String} {peer : Option SocketId} {h' : Hub.World}
      {os : List Hub.Obs} (hnew : ∀ i, peer = some i → i < w.client.sockets.length ∧ some i ∉ w.peers)
      (hs : w.host.step cfg (.accept authorization ra ua) = some (h', os)) :
      Move cfg dev w a
        { w with
          host := h', peers := w.peers ++ [peer]
          down := fun c => w.down c ++ os.filterMap (writtenTo c) }
        (os.map .host)
  | read {c : ConnId} {p : HelloPayload} {out : Hub.Outcome} {i : SocketId} {ph : Hub.ConnPhase}
      {f : Client.Frame} {rest : List Client.Frame} {h' : Hub.World} {os : List Hub.Obs}
      (hi : w.peers[c]? = some (some i)) (hph : w.host.conns[c]? = some ph) (hup : w.up i = f :: rest)
      (hs : w.host.step cfg (.conn c (incoming ph p out f)) = some (h', os))
      (hdev : World.belongs dev { w with host := h' } c = true) :
      Move cfg dev w (.read c p out)
        { w with
          host := h', up := Function.update w.up i rest
          down := fun c => w.down c ++ os.filterMap (writtenTo c) }
        (os.map .host)
  | host {a : Hub.Action} {h' : Hub.World} {os : List Hub.Obs}
      (hacc : ∀ authorization ra ua, a ≠ .accept authorization ra ua)
      (hconn : ∀ c ch, a = .conn c ch → (w.own c = true → reads ch = false) ∧
        World.belongs dev { w with host := h' } c = true)
      (hs : w.host.step cfg a = some (h', os)) :
      Move cfg dev w (.host a)
        { w with host := h', down := fun c => w.down c ++ os.filterMap (writtenTo c) }
        (os.map .host)

/-- The turn of a public call, a timer or a socket without a frame. -/
theorem turn_call {w : World} {ca : Client.Action} {c' : HarnessClient} {os : List Client.Obs}
    (hno : ∀ i data env, ca ≠ .message i data env) (hs : w.client.step ca = some (c', os)) :
    Turn w ca c' os w.down :=
  ⟨hs, fun _ _ hf => hf, fun _ hd => absurd hd (Client.not_delivered hno)⟩

/-- The turn in which a frame arrives, the oldest one of its connection. -/
theorem turn_arrives {w : World} {c : ConnId} {i : SocketId} {f : Envelope} {rest : List Envelope}
    {env : Client.Env} {c' : HarnessClient} {os : List Client.Obs} (hi : (w.peers[c]?).join = some i)
    (hdown : w.down c = f :: rest) (hs : w.client.step (Client.arrives i env f) = some (c', os)) :
    Turn w (Client.arrives i env f) c' os (Function.update w.down c rest) where
  turn := hs
  down := by
    intro d g hg
    by_cases hd : d = c
    · subst hd
      rw [Function.update_self] at hg
      rw [hdown]
      exact List.mem_cons_of_mem f hg
    · rwa [Function.update_of_ne hd] at hg
  heard := by
    intro g hg
    refine ⟨c, f, World.own_of_peer hi, ?_, Client.delivered_arrives hg⟩
    rw [hdown]
    exact List.mem_cons_self

theorem step_move {cfg : Config} {dev : DeviceID} {w w' : World} {a : Action} {os : List Obs}
    (h : w.step cfg dev a = some (w', os)) : Move cfg dev w a w' os := by
  unfold World.step at h
  split at h
  · cases h
  · -- a turn of its own
    rename_i ca hno
    obtain ⟨c', cos, hs, rfl, rfl⟩ := clientStep_eq h
    exact .call (turn_call (fun i data env he => hno i data env he) hs)
  · -- a new connection of the client
    split at h
    · rename_i hnew
      obtain ⟨h', hos, hs, rfl, rfl⟩ := hostStep_eq h
      exact .accept (fun i hi => by cases hi; exact hnew) hs
    · cases h
  · -- a frame for the daemon
    split at h
    · rename_i i ph hi hph
      split at h
      · rename_i f rest hup
        obtain ⟨hstep, hdev⟩ := Option.filter_eq_some_iff.mp h
        obtain ⟨h', hos, hs, rfl, rfl⟩ := hostStep_eq hstep
        exact .read (Option.join_eq_some_iff.mp hi) hph hup hs hdev
      · cases h
    · cases h
  · -- a frame for the client
    split at h
    · rename_i hi hdown
      obtain ⟨c', cos, hs, rfl, rfl⟩ := clientStep_eq h
      exact .deliver hi hdown (turn_arrives hi hdown hs)
    · cases h
  · -- a new connection of somebody else
    obtain ⟨h', hos, hs, rfl, rfl⟩ := hostStep_eq h
    exact .accept (fun i hi => by cases hi) hs
  · -- a connection goes on
    rename_i c ch
    split at h
    · cases h
    · rename_i hread
      obtain ⟨hstep, hdev⟩ := Option.filter_eq_some_iff.mp h
      obtain ⟨h', hos, hs, rfl, rfl⟩ := hostStep_eq hstep
      refine .host (fun _ _ _ he => by cases he) ?_ hs
      rintro c' ch' he
      cases he
      refine ⟨fun hown => ?_, hdev⟩
      rw [hown, Bool.true_and] at hread
      exact Bool.eq_false_iff.mpr hread
  · -- the rest of the daemon
    rename_i ha hacc hconn
    obtain ⟨h', hos, hs, rfl, rfl⟩ := hostStep_eq h
    exact .host hacc (fun c ch he => absurd he (hconn c ch)) hs

end Harness.Network
