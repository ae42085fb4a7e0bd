/-
# Harness.Client.Sockets — which socket drives the client.

The handlers of a normal socket act on the client, whichever socket they belong to; nothing compares it
with the current one. What keeps an older socket quiet is that its handlers were taken away, that its
close event has come, or that the client is closed by the user. A socket that has its handlers and no
close event yet is WIRED.

`detachAndClose` unwires the current socket. `connect()` and `close()` do not: after `connect()` in any
phase two sockets are wired, and after `close()` the old one stays wired until its close event. It is
silent there as long as `closedByUser` is set, which the next `connect()` and `reset()` clear.

`Lined` is the invariant of the runs that avoid this, and `only_current_drives` the law.
`wired_drives` is the reason for the condition: in any state a wired socket that is not the current one
has a callback that changes the client.
-/
import Harness.Client.HostFrames
import Harness.Client.Inversion

namespace Harness.Client

open Lib
open Wire (Json)

/-! ## Wired sockets -/

/-- A socket with the handlers of `attachNormal` that may still call them. -/
structure Socket.Wired (s : Socket) : Prop where
  role : s.role = .normal
  attached : s.attached = true
  unclosed : s.readyState ≠ .closed

/-- What the client has to do with sockets. -/
structure Wiring where
  sockets : List Socket
  current : Option SocketId
  closedByUser : Bool

def HarnessClient.wiring (c : HarnessClient) : Wiring := ⟨c.sockets, c.socket, c.closedByUser⟩

namespace Wiring

variable {w : Wiring}

def modify (w : Wiring) (i : SocketId) (f : Socket → Socket) : Wiring :=
  { w with sockets := w.sockets.modify i f }

/-- `detachAndClose`. -/
def detach (w : Wiring) (accepted : Bool) : Wiring :=
  match w.current with
  | none => w
  | some i =>
      { w with current := none }.modify i fun s =>
        let s := { s with attached := false }
        if accepted then s.close else s

/-- **`Lined w`** — a wired socket is the current one, or was closed by the user. -/
def Lined (w : Wiring) : Prop :=
  ∀ i s, w.sockets[i]? = some s → s.Wired →
    w.current = some i ∨ (w.closedByUser = true ∧ s.readyState = .closing)

/-- Only the current socket is wired. -/
def Settled (w : Wiring) : Prop :=
  ∀ (i : SocketId) (s : Socket), w.sockets[i]? = some s → s.Wired → w.current = some i

/-- No socket is wired. -/
def Unwired (w : Wiring) : Prop :=
  ∀ (i : SocketId) (s : Socket), w.sockets[i]? = some s → ¬ s.Wired

theorem Settled.lined (h : w.Settled) : w.Lined := fun i s hs hw => .inl (h i s hs hw)

/-- A change of one socket that wires nothing and opens nothing. -/
theorem Lined.modify (h : w.Lined) (i : SocketId) (f : Socket → Socket)
    (hf : ∀ s, w.sockets[i]? = some s → (f s).Wired →
      s.Wired ∧ (s.readyState = .closing → (f s).readyState = .closing)) : (w.modify i f).Lined := by
  intro j s hs hw
  simp only [Wiring.modify, List.getElem?_modify] at hs
  obtain ⟨s₀, hs₀, rfl⟩ := Option.map_eq_some_iff.mp hs
  by_cases hij : i = j
  · subst hij
    rw [if_pos rfl] at hw ⊢
    obtain ⟨hw₀, hclosing⟩ := hf s₀ hs₀ hw
    exact (h i s₀ hs₀ hw₀).imp_right fun hc => ⟨hc.1, hclosing hc.2⟩
  · rw [if_neg hij] at hw ⊢
    exact h j s₀ hs₀ hw

/-- `socket.close()` keeps a wired socket wired. -/
theorem wired_close {s : Socket} (h : s.close.Wired) :
    s.Wired ∧ s.close.readyState = .closing := by
  unfold Socket.close at h ⊢
  by_cases hc : s.readyState = .closed
  · rw [if_pos hc] at h
    exact absurd hc h.unclosed
  · rw [if_neg hc] at h ⊢
    exact ⟨⟨h.role, h.attached, hc⟩, rfl⟩

theorem Lined.closeSocket (h : w.Lined) (i : SocketId) : (w.modify i Socket.close).Lined :=
  h.modify i _ fun _ _ hw => ⟨(wired_close hw).1, fun _ => (wired_close hw).2⟩

/-- A terminal error counts as closed by the user. -/
theorem Lined.closedByUser (h : w.Lined) : Lined { w with closedByUser := true } :=
  fun i s hs hw => (h i s hs hw).imp_right fun hc => ⟨rfl, hc.2⟩

theorem getElem?_snoc {l : List Socket} {x s : Socket} {i : Nat} (h : (l ++ [x])[i]? = some s) :
    l[i]? = some s ∨ (i = l.length ∧ s = x) := by
  rw [List.getElem?_append] at h
  split at h
  · exact .inl h
  · obtain ⟨hi, rfl⟩ := List.getElem?_eq_some_iff.mp h
    simp only [List.length_singleton] at hi
    exact .inr ⟨by omega, by simp⟩

/-- A pairing socket is never wired. -/
theorem Lined.push (h : w.Lined) {x : Socket} (hx : x.role ≠ .normal) :
    Lined { w with sockets := w.sockets ++ [x] } := by
  intro i s hs hw
  rcases getElem?_snoc hs with hs | ⟨-, rfl⟩
  · exact h i s hs hw
  · exact absurd hw.role hx

/-- A new current socket, when no other is wired. -/
theorem Unwired.open (h : w.Unwired) (x : Socket) (closedByUser : Bool) :
    Lined ⟨w.sockets ++ [x], some w.sockets.length, closedByUser⟩ := by
  intro i s hs hw
  rcases getElem?_snoc hs with hs | ⟨rfl, -⟩
  · exact absurd hw (h i s hs)
  · exact .inl rfl

theorem Lined.detach (h : w.Lined) (accepted : Bool) : (w.detach accepted).Lined := by
  unfold Wiring.detach
  split
  · exact h
  · rename_i i hcur
    intro j s hs hw
    simp only [Wiring.modify, List.getElem?_modify] at hs
    obtain ⟨s₀, hs₀, rfl⟩ := Option.map_eq_some_iff.mp hs
    by_cases hij : i = j
    · -- the current socket has no handlers any more
      rw [if_pos hij] at hw
      cases accepted with
      | true => exact absurd (wired_close hw).1.attached Bool.false_ne_true
      | false => exact absurd hw.attached Bool.false_ne_true
    · rw [if_neg hij] at hw ⊢
      refine (h j s₀ hs₀ hw).imp_left fun hc => ?_
      rw [hcur] at hc
      exact absurd (Option.some.inj hc) hij

/-- The user closes: what was current is closed by the user from now on. -/
theorem Lined.close (h : w.Lined) :
    Lined
      { sockets := match w.current with
          | some i => w.sockets.modify i Socket.close
          | none => w.sockets
        current := none
        closedByUser := true } := by
  cases hcur : w.current with
  | none =>
      intro i s hs hw
      rcases h i s hs hw with hc | hc
      · rw [hcur] at hc
        cases hc
      · exact .inr ⟨rfl, hc.2⟩
  | some i =>
      intro j s hs hw
      simp only [List.getElem?_modify] at hs
      obtain ⟨s₀, hs₀, rfl⟩ := Option.map_eq_some_iff.mp hs
      by_cases hij : i = j
      · rw [if_pos hij] at hw ⊢
        exact .inr ⟨rfl, (wired_close hw).2⟩
      · rw [if_neg hij] at hw ⊢
        rcases h j s₀ hs₀ hw with hc | hc
        · rw [hcur] at hc
          exact absurd (Option.some.inj hc) hij
        · exact .inr ⟨rfl, hc.2⟩

end Wiring

/-! ## The methods, as far as sockets go -/

namespace HarnessClient

variable (c : HarnessClient)

@[simp] theorem wiring_emit (o : Obs) : (c.emit o).wiring = c.wiring := rfl

@[simp] theorem wiring_scheduleReconnect (env : Env) : (c.scheduleReconnect env).wiring = c.wiring := by
  unfold scheduleReconnect
  split <;> rfl

@[simp] theorem wiring_flushOutbox : c.flushOutbox.wiring = c.wiring := by
  obtain ⟨os, h, -⟩ := c.flushOutbox_spec
  rw [h]
  rfl

@[simp] theorem wiring_detachAndClose (env : Env) :
    (c.detachAndClose env).wiring = c.wiring.detach env.closeAccepted := by
  unfold detachAndClose Wiring.detach
  show _ = match c.socket with | none => _ | some i => _
  cases c.socket <;> rfl

@[simp] theorem wiring_setLastSeq (seq : JsNumber) : (c.setLastSeq seq).wiring = c.wiring := by
  unfold setLastSeq
  split
  · split <;> rfl
  · rfl

@[simp] theorem wiring_sendCommand (req : Request) (id : String) :
    (c.sendCommand req id).wiring = c.wiring := by
  unfold sendCommand
  split
  · rfl
  · exact wiring_flushOutbox _

theorem wiring_close : c.close.wiring =
    { sockets := match c.wiring.current with
        | some i => c.wiring.sockets.modify i Socket.close
        | none => c.wiring.sockets
      current := none
      closedByUser := true } := by
  unfold close
  show _ = Wiring.mk (match c.socket with | some i => _ | none => _) _ _
  cases c.socket <;> rfl

@[simp] theorem wiring_dropSession : c.dropSession.wiring = c.wiring := by
  unfold dropSession
  split <;> rfl

/-- Whether `openNormalSocket` gets a socket. -/
def opens (env : Env) : Bool :=
  !(c.authorization.any fun v => !v.templateOk) && env.socketError.isNone

/-- `openNormalSocket` gets a socket, which is current then, or changes nothing here. -/
theorem wiring_openNormalSocket (env : Env) :
    (c.opens env = true ∧ ∃ x : Socket, (x.Wired ∧ x.readyState = .connecting) ∧
      (c.openNormalSocket env).wiring =
        ⟨c.sockets ++ [x], some c.sockets.length, c.closedByUser⟩) ∨
      (c.opens env = false ∧ (c.openNormalSocket env).wiring = c.wiring) := by
  unfold openNormalSocket opens
  generalize hd : c.setPhase (if c.session.sessionId.isNull then .connecting else .reconnecting) = d
  have hauth : d.authorization = c.authorization := by
    rw [← hd]
    rfl
  have hw : d.dropSession.wiring = c.wiring := by
    rw [wiring_dropSession, ← hd]
    rfl
  dsimp only
  rw [hauth]
  cases c.authorization.any fun v => !v.templateOk with
  | true =>
      refine .inr ⟨rfl, ?_⟩
      rw [← hd]
      rfl
  | false =>
      cases herr : env.socketError with
      | some text =>
          refine .inr ⟨rfl, ?_⟩
          rw [if_neg Bool.false_ne_true, trySocket, herr]
          show (scheduleReconnect _ env).wiring = _
          rw [wiring_scheduleReconnect]
          exact hw
      | none =>
          refine .inl ⟨rfl, ?_⟩
          rw [if_neg Bool.false_ne_true, trySocket, herr]
          refine ⟨⟨.normal, d.dropSession.url, d.dropSession.authorization, .connecting, true⟩,
            ⟨⟨rfl, rfl, nofun⟩, rfl⟩, ?_⟩
          have hsockets : d.dropSession.sockets = c.sockets := congrArg Wiring.sockets hw
          have hclosed : d.dropSession.closedByUser = c.closedByUser := congrArg Wiring.closedByUser hw
          show Wiring.mk (d.dropSession.sockets ++ [_]) (some d.dropSession.sockets.length)
            d.dropSession.closedByUser = _
          rw [hsockets, hclosed]

@[simp] theorem wiring_handleSnapshot (snap : JsRecord) :
    (c.handleSnapshot snap).wiring = c.wiring := by
  unfold handleSnapshot
  dsimp only
  split
  · exact wiring_flushOutbox _
  · rfl

@[simp] theorem wiring_countGap (seq : JsNumber) : (c.countGap seq).wiring = c.wiring := by
  unfold countGap
  dsimp only
  split <;> split <;> rfl

theorem wiring_noteGap (seq : JsNumber) (env : Env) :
    (c.noteGap seq env).wiring = c.wiring.detach env.closeAccepted := by
  simp [noteGap]

@[simp] theorem wiring_acceptEvent (ev : EventPayload) : (c.acceptEvent ev).wiring = c.wiring := by
  unfold acceptEvent
  dsimp only
  split
  · exact wiring_flushOutbox _
  · rfl

theorem wiring_handleEvent (ev : JsRecord) (env : Env) :
    (c.handleEvent ev env).wiring = c.wiring ∨
      (c.handleEvent ev env).wiring = c.wiring.detach env.closeAccepted := by
  unfold handleEvent
  dsimp only
  split
  · exact .inl rfl
  · split
    · exact .inr (wiring_noteGap _ _ _)
    · split
      · exact .inr (wiring_noteGap _ _ _)
      · exact .inl (wiring_acceptEvent _ _)

theorem wiring_handleAck (ack : JsRecord) : (c.handleAck ack).wiring = c.wiring := by
  unfold handleAck
  split <;> rfl

theorem wiring_handleError (err : JsRecord) (env : Env) :
    (c.handleError err env).wiring = c.wiring ∨ (c.handleError err env).wiring =
      { c.wiring with closedByUser := true }.detach env.closeAccepted := by
  unfold handleError
  dsimp only
  split
  · split
    · exact .inr (wiring_detachAndClose _ env)
    · exact .inl rfl
  · split
    · exact .inl rfl
    · split <;> exact .inl rfl

end HarnessClient

/-! ## The discipline -/

/-- The action makes a client closed by the user open again. -/
def Action.revives : Action → Bool
  | .reset | .connect _ _ | .resume _ => true
  | _ => false

/-- The turn gets a new normal socket. -/
def HarnessClient.opening (c : HarnessClient) : Action → Bool
  | .connect identity env => { c with identity := identity.or c.identity }.opens env
  | .resume env =>
      match c.resumptions with
      | [] => false
      | identity :: _ => { c with identity := some identity }.opens env
  | .timer env => !c.closedByUser && c.opens env
  | _ => false

/-- **`Undisturbed`** — the condition on a step. `connect` and `reset` are called when no socket but the
current one is wired, a new socket is opened when that one is not wired either, and a frame does not
arrive on a socket the client closed. -/
structure Undisturbed (_ : List Obs) (c : HarnessClient) (a : Action) : Prop where
  revives : a.revives = true → c.wiring.Settled
  opens : c.opening a = true → c.wiring.Unwired
  frames : ∀ i data env s, a = .message i data env → c.sockets[i]? = some s → s.Wired →
    s.readyState = .closing → c.socket = some i

namespace HarnessClient

variable {c c' : HarnessClient}

theorem lined_openNormalSocket {env : Env} (h : c.wiring.Lined)
    (hopens : c.opens env = true → c.wiring.Unwired) : (c.openNormalSocket env).wiring.Lined := by
  rcases c.wiring_openNormalSocket env with ⟨hopen, x, -, hw⟩ | ⟨-, hw⟩
  · rw [hw]
    exact (hopens hopen).open x _
  · rw [hw]
    exact h

theorem lined_connect {identity : Option Identity} {env : Env} (h : c.wiring.Settled)
    (hopens : { c with identity := identity.or c.identity }.opens env = true → c.wiring.Unwired) :
    (c.connect identity env).wiring.Lined := by
  unfold connect
  refine lined_openNormalSocket ?_ hopens
  exact Wiring.Settled.lined h

theorem lined_pair {token : String} {url spki : Option String} {env : Env} (h : c.wiring.Lined) :
    (c.pair token url spki env).wiring.Lined := by
  unfold pair
  split
  · exact h
  · exact Wiring.Lined.push h nofun

theorem lined_resumePair {env : Env} (h : c.wiring.Settled)
    (hopens : c.opening (.resume env) = true → c.wiring.Unwired) :
    (c.resumePair env).wiring.Lined := by
  unfold opening at hopens
  unfold resumePair
  cases hr : c.resumptions with
  | nil => exact h.lined
  | cons identity rest =>
      rw [hr] at hopens
      refine lined_connect (c := { c with resumptions := rest }) ?_ ?_
      · exact h
      · exact hopens

theorem lined_finishPairing {i : SocketId} {role : SocketRole} {fn : HarnessClient → HarnessClient}
    (h : c.wiring.Lined) (hfn : ∀ d : HarnessClient, d.wiring.Lined → (fn d).wiring.Lined) :
    (c.finishPairing i role fn).wiring.Lined := by
  unfold finishPairing
  split
  · exact hfn _ (h.modify i _ fun s _ hw => absurd hw.role nofun)
  · exact h

theorem lined_pairingMessage {i : SocketId} {role : SocketRole} {e : Envelope}
    (h : c.wiring.Lined) : (c.pairingMessage i role e).wiring.Lined := by
  unfold pairingMessage
  split
  · exact lined_finishPairing h fun d hd => Wiring.Lined.closeSocket hd i
  · exact lined_finishPairing h fun d hd => Wiring.Lined.closeSocket hd i
  · exact h

theorem lined_handleEnvelope {e : Envelope} {env : Env} (h : c.wiring.Lined) :
    (c.handleEnvelope e env).wiring.Lined := by
  unfold handleEnvelope
  split
  · rw [wiring_handleSnapshot]
    exact h
  · rename_i ev _
    rcases c.wiring_handleEvent ev env with hw | hw
    · exact hw ▸ h
    · exact hw ▸ h.detach _
  · rw [wiring_handleAck]
    exact h
  · rename_i err _
    rcases c.wiring_handleError err env with hw | hw
    · exact hw ▸ h
    · exact hw ▸ h.closedByUser.detach _
  · exact h
  · exact h

theorem lined_onclose {i : SocketId} {role : SocketRole} {code : Option Nat} {env : Env}
    (h : c.wiring.Lined) : (c.onclose i role code env).wiring.Lined := by
  unfold onclose
  split
  · exact lined_finishPairing h fun d hd => hd
  · split
    · exact h
    · split
      · exact h
      · split
        · exact h
        · rw [wiring_scheduleReconnect]
          exact h

theorem lined_onmessage {i : SocketId} {role : SocketRole} {data : Option Json} {env : Env}
    (h : c.wiring.Lined) : (c.onmessage i role data env).wiring.Lined := by
  unfold onmessage
  split
  · exact h
  · split
    · exact lined_handleEnvelope h
    · exact lined_pairingMessage h

theorem lined_onerror {i : SocketId} {role : SocketRole} (h : c.wiring.Lined) :
    (c.onerror i role).wiring.Lined := by
  unfold onerror
  split
  · exact lined_finishPairing h fun d hd => hd
  · exact h

/-- A connecting socket becomes open. -/
theorem lined_opened {i : SocketId} {s : Socket} (h : c.wiring.Lined) (hi : c.sockets[i]? = some s)
    (hconn : s.readyState = .connecting) :
    ((c.modifySocket i fun s => { s with readyState := .open }).onopen i s.role).wiring.Lined := by
  have hopen : (c.modifySocket i fun s => { s with readyState := .open }).wiring.Lined := by
    refine h.modify i _ fun t ht hw => ?_
    obtain rfl : s = t := Option.some.inj (hi.symm.trans ht)
    refine ⟨⟨hw.role, hw.attached, ?_⟩, ?_⟩
    · rw [hconn]
      intro h
      cases h
    · rw [hconn]
      intro h
      cases h
  unfold onopen
  split <;> exact hopen

/-- A turn keeps the sockets lined up. -/
theorem lined_turn {tr : List Obs} {a : Action} (h : c.wiring.Lined) (hP : Undisturbed tr c a)
    (ht : c.turn a = some c') : c'.wiring.Lined := by
  cases a with
  | setIdentity identity =>
      cases ht
      exact h
  | setLastSeq seq =>
      cases ht
      rw [wiring_setLastSeq]
      exact h
  | reset =>
      cases ht
      exact Wiring.Settled.lined (hP.revives rfl)
  | connect identity env =>
      cases ht
      exact lined_connect (hP.revives rfl) hP.opens
  | close =>
      cases ht
      rw [wiring_close]
      exact h.close
  | pair token url spki env =>
      cases ht
      exact lined_pair h
  | send req id =>
      cases ht
      rw [wiring_sendCommand]
      exact h
  | resume env =>
      obtain rfl := of_turn_resume ht
      exact lined_resumePair (hP.revives rfl) hP.opens
  | opened i =>
      obtain ⟨s, hi, hconn, rfl⟩ := of_turn_opened ht
      exact lined_opened h hi hconn
  | message i data env =>
      obtain ⟨s, -, -, rfl⟩ := of_turn_message ht
      split
      · exact lined_onmessage h
      · exact h
  | closed i code env =>
      obtain ⟨s, -, -, rfl⟩ := of_turn_closed ht
      have hclosed : (c.modifySocket i fun s => { s with readyState := .closed }).wiring.Lined :=
        h.modify i _ fun s _ hw => absurd rfl hw.unclosed
      split
      · exact lined_onclose hclosed
      · exact hclosed
  | errored i =>
      obtain ⟨s, -, rfl⟩ := of_turn_errored ht
      split
      · exact lined_onerror h
      · exact h
  | closing i =>
      obtain rfl := of_turn_closing ht
      exact Wiring.Lined.closeSocket h i
  | timer env =>
      obtain ⟨-, rfl⟩ | ⟨hby, rfl⟩ := of_turn_timer ht
      · exact h
      · refine lined_openNormalSocket (c := { c with reconnectTimer := false, retryInMs := none }) h ?_
        intro hopens
        refine hP.opens ?_
        show (!c.closedByUser && c.opens env) = true
        rw [hby]
        exact hopens

end HarnessClient

theorem lined_step {tr os : List Obs} {c c' : HarnessClient} {a : Action} (h : c.wiring.Lined)
    (hP : Undisturbed tr c a) (hs : system.step c a = some (c', os)) : c'.wiring.Lined := by
  obtain ⟨d, hd, he⟩ := Option.map_eq_some_iff.mp hs
  cases he
  have hP' : Undisturbed tr { c with out := [] } a := ⟨hP.revives, hP.opens, hP.frames⟩
  have hlined : d.wiring.Lined := HarnessClient.lined_turn (c := { c with out := [] }) h hP' hd
  exact hlined

/-! ## Only the current socket drives -/

/-- The socket whose message, close or error callback runs. -/
def Action.callbackOf : Action → Option SocketId
  | .message i _ _ => some i
  | .closed i _ _ => some i
  | .errored i => some i
  | _ => none

/-- **`Untouched c c'`** — the connection, the session and the commands are as they were, and no
reconnect was scheduled. -/
structure Untouched (c c' : HarnessClient) : Prop where
  phase : c'.phase = c.phase
  session : c'.session = c.session
  pending : c'.pending = c.pending
  outbox : c'.outbox = c.outbox
  reconnectTimer : c'.reconnectTimer = c.reconnectTimer
  retryAttempt : c'.retryAttempt = c.retryAttempt
  retryInMs : c'.retryInMs = c.retryInMs

/-- A callback of a normal socket that is not wired, or is closing for a client closed by the user and
brings no frame, does nothing. -/
theorem idle_callback {c c' : HarnessClient} {a : Action} {os : List Obs} {i : SocketId} {s : Socket}
    (hs : system.step c a = some (c', os)) (ha : a.callbackOf = some i) (hi : c.sockets[i]? = some s)
    (hrole : s.role = .normal)
    (hquiet : s.Wired → c.closedByUser = true ∧ ∀ data env, a ≠ .message i data env) :
    Untouched c c' ∧ os = [] := by
  obtain ⟨d, hd, he⟩ := Option.map_eq_some_iff.mp hs
  cases he
  cases a with
  | message j data env =>
      cases ha
      obtain ⟨s', hi', hopen, rfl⟩ := HarnessClient.of_turn_message hd
      obtain rfl : s = s' := Option.some.inj (hi.symm.trans hi')
      split
      · rename_i hatt
        exact absurd rfl ((hquiet ⟨hrole, hatt, hopen⟩).2 data env)
      · exact ⟨⟨rfl, rfl, rfl, rfl, rfl, rfl, rfl⟩, rfl⟩
  | closed j code env =>
      cases ha
      obtain ⟨s', hi', hopen, rfl⟩ := HarnessClient.of_turn_closed hd
      obtain rfl : s = s' := Option.some.inj (hi.symm.trans hi')
      split
      · rename_i hatt
        rw [hrole, HarnessClient.onclose]
        have hby : (HarnessClient.modifySocket { c with out := [] } i fun s =>
            { s with readyState := .closed }).closedByUser = true :=
          (hquiet ⟨hrole, hatt, hopen⟩).1
        rw [if_pos hby]
        exact ⟨⟨rfl, rfl, rfl, rfl, rfl, rfl, rfl⟩, rfl⟩
      · exact ⟨⟨rfl, rfl, rfl, rfl, rfl, rfl, rfl⟩, rfl⟩
  | errored j =>
      cases ha
      obtain ⟨s', hi', rfl⟩ := HarnessClient.of_turn_errored hd
      obtain rfl : s = s' := Option.some.inj (hi.symm.trans hi')
      split
      · rw [hrole]
        exact ⟨⟨rfl, rfl, rfl, rfl, rfl, rfl, rfl⟩, rfl⟩
      · exact ⟨⟨rfl, rfl, rfl, rfl, rfl, rfl, rfl⟩, rfl⟩
  | _ => cases ha

theorem HarnessClient.handleSnapshot_session (c : HarnessClient) (snap : JsRecord) :
    (c.handleSnapshot snap).session = applySnapshot c.session snap := by
  unfold HarnessClient.handleSnapshot
  dsimp only
  split
  · obtain ⟨os, heq, -⟩ := (c.takeSnapshot snap).live_spec
    rw [heq]
    rfl
  · rfl

/-- A wired socket that is not the current one can change the client: it brings a snapshot. -/
theorem wired_drives {c : HarnessClient} {i : SocketId} {s : Socket} (hi : c.sockets[i]? = some s)
    (hw : s.Wired) : ∃ a c' os, a.callbackOf = some i ∧ system.step c a = some (c', os) ∧
      ¬ Untouched c c' := by
  obtain ⟨id, hid⟩ : ∃ id : String, c.session.sessionId ≠ .str id := by
    by_cases h : c.session.sessionId = .str "a"
    · exact ⟨"b", by simp [h]⟩
    · exact ⟨"a", h⟩
  let p : Wire.SnapshotPayload := ⟨id, "idle", "", 0, [], [], []⟩
  let c₀ : HarnessClient := { c with out := [] }
  have hturn : c₀.turn (hostFrame i (.snapshot p)) = some (c₀.handleSnapshot p.members) := by
    refine (HarnessClient.turn_message (c := c₀) hi hw.unclosed _ _).trans ?_
    rw [hw.attached, hw.role]
    rfl
  have hstep : system.step c (hostFrame i (.snapshot p)) =
      some ({ c₀.handleSnapshot p.members with out := [] }, (c₀.handleSnapshot p.members).out) := by
    show (c₀.turn _).map _ = _
    rw [hturn]
    rfl
  refine ⟨_, _, _, rfl, hstep, fun h => hid ?_⟩
  have hsess : (c₀.handleSnapshot p.members).session = c.session := h.session
  rw [HarnessClient.handleSnapshot_session] at hsess
  rw [← hsess]
  exact get_sessionId p

theorem lined_new (url : String) (authMode : AuthMode) (identity : Option Identity)
    (maxItems : Option Nat) : (HarnessClient.new url authMode identity maxItems).wiring.Lined := by
  intro i s hs
  cases hs

/-- **Only the current socket drives the client**, in every run of undisturbed steps: a callback of
any other normal socket leaves it alone. -/
theorem only_current_drives {url : String} {authMode : AuthMode} {identity : Option Identity}
    {maxItems : Option Nat} {tr : List Obs} {c : HarnessClient}
    (h : system.Run Undisturbed [] (.new url authMode identity maxItems) tr c) :
    ∀ a i s c' os, Undisturbed tr c a → system.step c a = some (c', os) → a.callbackOf = some i →
      c.sockets[i]? = some s → s.role = .normal → c.socket ≠ some i → Untouched c c' ∧ os = [] := by
  have hlined : c.wiring.Lined :=
    h.invariant (I := fun _ u => u.wiring.Lined) (lined_new url authMode identity maxItems)
      fun t u a u' os _ ih hP hs => lined_step ih hP hs
  intro a i s c' os hP hs ha hi hrole hne
  refine idle_callback hs ha hi hrole fun hw => ?_
  obtain ⟨hby, hclosing⟩ := (hlined i s hi hw).resolve_left hne
  refine ⟨hby, ?_⟩
  rintro data env rfl
  exact hne (hP.frames i data env s rfl hi hw hclosing)

/-- No socket is wired, except perhaps `current`. -/
def quietBut (c : HarnessClient) (current : Option SocketId) : Bool :=
  (List.range c.sockets.length).all fun i =>
    (c.sockets[i]?).all fun s =>
      s.role != .normal || !s.attached || s.readyState == .closed || current == some i

/-- What `Undisturbed` asks of a step, evaluated. -/
def undisturbedCheck (c : HarnessClient) (a : Action) : Bool :=
  (!a.revives || quietBut c c.socket) && (!c.opening a || quietBut c none) &&
    match a with
    | .message i _ _ => c.socket == some i || (c.sockets[i]?).all fun s => s.readyState != .closing
    | _ => true

theorem quietBut_wired {c : HarnessClient} {current : Option SocketId} (h : quietBut c current = true)
    {i : SocketId} {s : Socket} (hi : c.sockets[i]? = some s) (hw : s.Wired) : current = some i := by
  have hlt : i < c.sockets.length := (List.getElem?_eq_some_iff.mp hi).1
  have hall := List.all_eq_true.mp h i (List.mem_range.mpr hlt)
  simpa [hi, hw.role, hw.attached, hw.unclosed] using hall

theorem undisturbed_of_check {tr : List Obs} {c : HarnessClient} {a : Action}
    (h : undisturbedCheck c a = true) : Undisturbed tr c a := by
  simp only [undisturbedCheck, Bool.and_eq_true] at h
  obtain ⟨⟨hrevives, hopens⟩, hframes⟩ := h
  refine ⟨fun ha i s hi hw => ?_, fun ha i s hi hw => ?_, ?_⟩
  · rw [ha, Bool.not_true, Bool.false_or] at hrevives
    exact quietBut_wired hrevives hi hw
  · rw [ha, Bool.not_true, Bool.false_or] at hopens
    cases quietBut_wired hopens hi hw
  · rintro i data env s rfl hi hw hclosing
    simpa [hi, hclosing] using hframes

namespace Sample

/-- Connected, lost, connected again by the timer, and closed by the user. -/
def closedByUser : List Action :=
  [.connect none {}, .opened 0, .closed 0 (some 1006) {}, .timer {}, .opened 1,
    hostFrame 1 (.snapshot ⟨"s1", "idle", "", 0, [], [], []⟩), .close]

/-- `connect()` while connected, as the app does in the foreground. -/
def connectedTwice : List Action :=
  [.connect none {}, .opened 0, .connect none {}, .opened 1,
    hostFrame 1 (.snapshot ⟨"s1", "idle", "", 0, [], [], []⟩)]

end Sample

theorem only_current_drives_closedByUser :
    ∃ tr c c' os,
      system.Run Undisturbed [] (.new "wss://host:7432/ws" .hello none none) tr c ∧
      system.step c (.closed 1 (some 1000) {}) = some (c', os) ∧ c.socket = none ∧
      Untouched c c' ∧ os = [] := by
  have hexec : ((system.exec (fun _ => undisturbedCheck) []
      (.new "wss://host:7432/ws" .hello none none) Sample.closedByUser).map fun r =>
        (r.2.socket, (r.2.sockets[1]?).map (·.role),
          (system.step r.2 (.closed 1 (some 1000) {})).isSome,
          undisturbedCheck r.2 (.closed 1 (some 1000) {}))) =
      some (none, some .normal, true, true) := by decide +kernel
  obtain ⟨r, hr, hfacts⟩ := Option.map_eq_some_iff.mp hexec
  simp only [Prod.mk.injEq] at hfacts
  obtain ⟨hsocket, hrole, hstep, hcheck⟩ := hfacts
  have hrun := Lts.run_of_exec (P := Undisturbed) (fun _ _ _ => undisturbed_of_check) hr
  obtain ⟨⟨c', os⟩, hs⟩ := Option.isSome_iff_exists.mp hstep
  obtain ⟨s, hi, hnormal⟩ := Option.map_eq_some_iff.mp hrole
  have hne : r.2.socket ≠ some 1 := by rw [hsocket]; nofun
  exact ⟨r.1, r.2, c', os, hrun, hs, hsocket,
    only_current_drives hrun _ 1 s c' os (undisturbed_of_check hcheck) hs rfl hi hnormal hne⟩

/-- The close event of the older socket takes a live client into a reconnect. -/
theorem older_socket_drives :
    ¬ ∀ tr c, system.Run Lts.Free [] (.new "wss://host:7432/ws" .hello none none) tr c →
      ∀ a i s c' os, system.step c a = some (c', os) → a.callbackOf = some i →
        c.sockets[i]? = some s → s.role = .normal → c.socket ≠ some i → Untouched c c' := by
  intro h
  have hexec : ((system.exec (fun _ _ _ => true) []
      (.new "wss://host:7432/ws" .hello none none) Sample.connectedTwice).map fun r =>
        (r.2.socket, (r.2.sockets[0]?).map (·.role), r.2.phase,
          (system.step r.2 (.closed 0 (some 1006) {})).map fun x => x.1.phase)) =
      some (some 1, some .normal, .live, some .reconnecting) := by decide +kernel
  obtain ⟨r, hr, hfacts⟩ := Option.map_eq_some_iff.mp hexec
  simp only [Prod.mk.injEq] at hfacts
  obtain ⟨hsocket, hrole, hphase, hstep⟩ := hfacts
  have hrun := Lts.run_of_exec (P := Lts.Free) (fun _ _ _ _ => trivial) hr
  obtain ⟨⟨c', os⟩, hs, hphase'⟩ := Option.map_eq_some_iff.mp hstep
  obtain ⟨s, hi, hnormal⟩ := Option.map_eq_some_iff.mp hrole
  have hne : r.2.socket ≠ some 0 := by rw [hsocket]; decide
  have hsame := (h _ _ hrun _ 0 s c' os hs rfl hi hnormal hne).phase
  have hlive : ConnPhase.reconnecting = .live := hphase'.symm.trans (hsame.trans hphase)
  cases hlive

end Harness.Client
