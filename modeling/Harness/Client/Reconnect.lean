/-
# Harness.Client.Reconnect — a reconnect against the host's log.

The host answers a hello with a snapshot of its current session and every event of that session after
`hello.lastSeq`. The client's `lastSeq` counts in the session the client remembers, which need not be
the host's: each start of the daemon is a new session.

`attempt` is one connection, from opening the socket to the last frame of the answer, and `reconnect`
is a connection with those the client triggers itself. Two connections always settle it: a gap in the
first comes from a `lastSeq` of another session, and the second is asked for with `lastSeq` 0.

`reconnect_reaches_tip` says when the client ends at the tip. In the session it remembers, and in any
session when it remembers none, its `lastSeq` must not be past the tip. In another session the snapshot
sets `lastSeq` back to 0 after the hello was sent: with a log that is not longer than what the hello
named, the host has nothing to send, and the client waits in `syncing` for events that do not come.
-/
import Harness.Client.Convergence
import Harness.Client.Sockets
import Mathlib.Data.Rat.Floor

namespace Harness.Client

open Lib
open Wire (HostLog Json)

/-! ## The host's answer -/

/-- What the host enqueues for a hello: the snapshot, then every event after `lastSeq`. -/
def answer (L : HostLog) (p : Wire.SnapshotPayload) (lastSeq : ℚ) : List Wire.Envelope :=
  .snapshot p :: (L.events.filter fun ev => decide (lastSeq < ev.seq)).map .event

/-- All of `as`, in order. -/
def perform (tr : List Obs) (c : HarnessClient) (as : List Action) : Option (List Obs × HarnessClient) :=
  system.exec (fun _ _ _ => true) tr c as

/-- One connection: the turn that opens the socket, its open event, and the host's answer to the hello
that is sent then. -/
def attempt (L : HostLog) (p : Wire.SnapshotPayload) (env : Env) (tr : List Obs) (c : HarnessClient)
    (a : Action) : Option (List Obs × HarnessClient) :=
  let i := c.sockets.length
  match system.step c a with
  | none => none
  | some (c₁, os) =>
      match system.step c₁ (.opened i) with
      | some (c₂, [.sent j (.hello deviceId lastSeq token credential)]) =>
          perform (tr ++ os ++ [.sent j (.hello deviceId lastSeq token credential)]) c₂
            ((answer L p lastSeq).map (arrives i env))
      | _ => none

/-- A connection started by `a`, and those the reconnect timer starts after it, with no new host
events. `envs` is what the platform does in the `n`-th. -/
def reconnect (L : HostLog) (p : Wire.SnapshotPayload) :
    Nat → (Nat → Env) → List Obs → HarnessClient → Action → Option (List Obs × HarnessClient)
  | 0, _, _, _, _ => none
  | n + 1, envs, tr, c, a =>
      match attempt L p (envs 0) tr c a with
      | none => none
      | some (tr', c') =>
          if c'.reconnectTimer then
            reconnect L p n (fun k => envs (k + 1)) tr' c' (.timer (envs 1))
          else some (tr', c')

/-- **`AtTip L tr c`** — the client is live, its position is the host's, and every queued command was
sent on the current socket. -/
structure AtTip (L : HostLog) (tr : List Obs) (c : HarnessClient) : Prop where
  live : c.phase = .live
  lastSeq : c.session.lastSeq = L.length
  flushed : ∃ i, c.socket = some i ∧ ∀ cmd ∈ c.outbox.values, .sent i (.command cmd) ∈ tr

/-- The session a socket is opened in: a pending full resync has dropped it. -/
def HarnessClient.openingSession (c : HarnessClient) : SessionState :=
  if c.fullResync then newSessionState else c.session

/-- The client remembers no session, or the one with this id. -/
def SessionState.knows (s : SessionState) (id : String) : Bool :=
  s.sessionId.isNull || s.sessionId.strictEq (.str id)

/-- **`Reaches s p`** — the condition: in its own session the client is not past the tip; in another
session the log is empty, or longer than what the client saw of its own. -/
def Reaches (s : SessionState) (p : Wire.SnapshotPayload) : Prop :=
  if s.knows p.sessionID then s.lastSeq ≤ p.lastSeq else p.lastSeq = 0 ∨ s.lastSeq < p.lastSeq

/-! ## The log after a position -/

/-- The events after a position are a tail of the log. -/
theorem filter_eq_drop {T : Type} (f : T → Bool) :
    ∀ (l : List T) (t : Nat), (∀ i (h : i < l.length), f l[i] = decide (t ≤ i)) →
      l.filter f = l.drop t := by
  intro l
  induction l with
  | nil => intro t _; simp
  | cons x xs ih =>
      intro t h
      have hx : f x = decide (t ≤ 0) := h 0 (Nat.zero_lt_succ _)
      cases t with
      | zero =>
          rw [List.filter_cons_of_pos (by rw [hx]; rfl), ih 0 fun i hi => ?_]
          · rfl
          · have := h (i + 1) (Nat.succ_lt_succ hi)
            simpa using this
      | succ t =>
          rw [List.filter_cons_of_neg (by rw [hx]; simp), ih t fun i hi => ?_]
          · rfl
          · have := h (i + 1) (Nat.succ_lt_succ hi)
            simpa using this

theorem filter_after (L : HostLog) {k : ℚ} (hk : 0 ≤ k) :
    (L.events.filter fun ev => decide (k < ev.seq)) = L.events.drop ⌊k⌋₊ := by
  refine filter_eq_drop _ _ _ fun i hi => ?_
  rw [L.numbered i hi, decide_eq_decide, ← Nat.floor_lt hk, Nat.lt_succ_iff]

/-! ## Frames on a standing connection -/

/-- **`Linked i c`** — socket `i` is current and open, and no reconnect is scheduled. -/
structure Linked (i : SocketId) (c : HarnessClient) : Prop where
  socket : c.socket = some i
  wired : ∃ x, c.sockets[i]? = some x ∧ x.Wired ∧ x.readyState = .open
  byUser : c.closedByUser = false
  header : (c.authorization.any fun v => !v.templateOk) = false
  timer : c.reconnectTimer = false

theorem Linked.congr {i : SocketId} {c c' : HarnessClient} (h : Linked i c)
    (hw : c'.wiring = c.wiring) (hauth : c'.authorization = c.authorization)
    (ht : c'.reconnectTimer = c.reconnectTimer) : Linked i c' where
  socket := (congrArg Wiring.current hw).trans h.socket
  wired := by
    rw [show c'.sockets = c.sockets from congrArg Wiring.sockets hw]
    exact h.wired
  byUser := (congrArg Wiring.closedByUser hw).trans h.byUser
  header := hauth ▸ h.header
  timer := ht.trans h.timer

/-- What a turn hands over: the state with nothing seen, and what was seen. -/
def HarnessClient.handover (d : HarnessClient) : HarnessClient × List Obs :=
  ({ d with out := [] }, d.out)

/-- A message on a wired socket is handled. -/
theorem step_message {c : HarnessClient} {i : SocketId} {x : Socket} (hx : c.sockets[i]? = some x)
    (hw : x.Wired) (data : Option Json) (env : Env) :
    system.step c (.message i data env) =
      some ({ c with out := [] }.onmessage i .normal data env).handover := by
  show (HarnessClient.turn { c with out := [] } _).map _ = _
  have hturn : HarnessClient.turn { c with out := [] } (.message i data env) =
      some ({ c with out := [] }.onmessage i .normal data env) := by
    rw [HarnessClient.turn_message (c := { c with out := [] }) hx hw.unclosed, hw.attached, hw.role]
    rfl
  rw [hturn]
  rfl

/-- A message on a socket without handlers does nothing. -/
theorem step_unheard {c : HarnessClient} {i : SocketId} {x : Socket} (hx : c.sockets[i]? = some x)
    (hatt : x.attached = false) (hopen : x.readyState ≠ .closed) (hout : c.out = [])
    (data : Option Json) (env : Env) : system.step c (.message i data env) = some (c, []) := by
  have hc : { c with out := [] } = c := by
    cases c
    cases hout
    rfl
  show (HarnessClient.turn { c with out := [] } _).map _ = _
  rw [hc]
  have hturn : c.turn (.message i data env) = some c := by
    rw [HarnessClient.turn_message hx hopen, hatt]
    rfl
  rw [hturn, Option.map_some, hc, hout]

/-- The client becomes live on an open socket: the queue is sent. -/
theorem Linked.goes_live {i : SocketId} {c : HarnessClient} (h : Linked i c) :
    ∃ os, (c.setPhase .live).flushOutbox = { c with phase := .live, out := c.out ++ os } ∧
      ∀ cmd ∈ c.outbox.values, .sent i (.command cmd) ∈ os := by
  obtain ⟨x, hx, -, hopen⟩ := h.wired
  refine ⟨.notified .live c.session.sessionId c.session.lastSeq ::
    c.outbox.values.map fun cmd => .sent i (.command cmd), ?_, ?_⟩
  · have hready : (c.setPhase .live).readyState i = some .open := by
      show (c.sockets[i]?).map _ = _
      rw [hx, Option.map_some, hopen]
    unfold HarnessClient.flushOutbox
    rw [show (c.setPhase .live).socket = some i from h.socket]
    dsimp only
    rw [if_pos ⟨rfl, hready⟩]
    simp [HarnessClient.setPhase, HarnessClient.notify, HarnessClient.emit, h.socket]
  · intro cmd hcmd
    exact List.mem_cons_of_mem _ (List.mem_map_of_mem hcmd)

/-- **`Settles c i c' os`** — what a frame did: the connection stands, and the client is live with its
queue sent when it has reached the tip, else in phase `waiting`. -/
structure Settles (i : SocketId) (waiting : ConnPhase) (c' : HarnessClient) (os : List Obs) : Prop where
  linked : Linked i c'
  live : c'.session.tipSeq ≤ c'.session.lastSeq →
    c'.phase = .live ∧ ∀ cmd ∈ c'.outbox.values, .sent i (.command cmd) ∈ os
  waiting : ¬ c'.session.tipSeq ≤ c'.session.lastSeq → c'.phase = waiting

/-- The snapshot of the answer. -/
theorem snapshot_arrives {i : SocketId} {c : HarnessClient} (h : Linked i c)
    (p : Wire.SnapshotPayload) (env : Env) :
    ∃ c' os, system.step c (arrives i env (.snapshot p)) = some (c', os) ∧
      Settles i .syncing c' os ∧ c'.session = applySnapshot c.session p.members := by
  obtain ⟨x, hx, hw, -⟩ := h.wired
  have hstep := step_message hx hw (some (Wire.Envelope.toJson (.snapshot p))) env
  have hmsg : { c with out := [] }.onmessage i .normal (some (Wire.Envelope.toJson (.snapshot p))) env =
      { c with out := [] }.handleSnapshot p.members := rfl
  rw [hmsg] at hstep
  generalize hd : { c with out := [] }.handleSnapshot p.members = d at hstep
  have hsess : d.session = applySnapshot c.session p.members := by
    rw [← hd, HarnessClient.handleSnapshot_session]
  refine ⟨_, _, hstep, ?_, hsess⟩
  have htaken : Linked i (HarnessClient.takeSnapshot { c with out := [] } p.members) :=
    h.congr rfl rfl rfl
  unfold HarnessClient.handleSnapshot at hd
  dsimp only at hd
  split at hd
  · rename_i htip
    obtain ⟨os, heq, hos⟩ := htaken.goes_live
    rw [heq] at hd
    subst hd
    refine ⟨htaken.congr rfl rfl rfl, fun _ => ⟨rfl, fun cmd hcmd => ?_⟩, fun hn => absurd htip hn⟩
    exact List.mem_append_right _ (hos cmd hcmd)
  · rename_i htip
    subst hd
    exact ⟨htaken.congr rfl rfl rfl, fun hle => absurd hle htip, fun _ => rfl⟩

/-- The turn of an event frame on a standing connection. -/
theorem Linked.step_event {i : SocketId} {c : HarnessClient} (h : Linked i c)
    (ev : Wire.EventPayload) (env : Env) :
    system.step c (arrives i env (.event ev)) =
      some ({ c with out := [] }.handleEvent (eventMembers ev) env).handover := by
  obtain ⟨x, hx, hw, -⟩ := h.wired
  have hstep := step_message hx hw (some (Wire.Envelope.toJson (.event ev))) env
  exact hstep

/-- The next event of the log. -/
theorem event_arrives {i : SocketId} {c : HarnessClient} (h : Linked i c) (hphase : c.phase ≠ .live)
    {ev : Wire.EventPayload} (hsmall : ev.seq < 2 ^ 63) (hgt : c.session.lastSeq < ev.seq)
    (hle : (ev.seq : ℚ) ≤ c.session.lastSeq + 1) (env : Env) :
    ∃ c' os, system.step c (arrives i env (.event ev)) = some (c', os) ∧ Settles i c.phase c' os ∧
      c'.session.lastSeq = ev.seq ∧ c'.session.tipSeq = c.session.tipSeq := by
  have hstep := h.step_event ev env
  have haccept : { c with out := [] }.handleEvent (eventMembers ev) env =
      { c with out := [] }.acceptEvent (HarnessClient.eventOf (eventMembers ev) ev.seq) := by
    rw [HarnessClient.handleEvent_of_lt (c := { c with out := [] }) (seqOf_eventMembers hsmall) hgt]
    exact if_neg (not_lt.mpr hle)
  rw [haccept] at hstep
  generalize hd : HarnessClient.acceptEvent { c with out := [] }
    (HarnessClient.eventOf (eventMembers ev) ev.seq) = d at hstep
  have hlast := HarnessClient.nextSession_lastSeq { c with out := [] }
    (HarnessClient.eventOf (eventMembers ev) ev.seq)
  have htip := HarnessClient.nextSession_tipSeq { c with out := [] }
    (HarnessClient.eventOf (eventMembers ev) ev.seq)
  unfold HarnessClient.acceptEvent at hd
  generalize HarnessClient.nextSession { c with out := [] }
    (HarnessClient.eventOf (eventMembers ev) ev.seq) = session at hd hlast htip
  dsimp only at hd
  have hnext : Linked i
      (HarnessClient.emit { c with out := [], session := session, gapSeq := none, gapCount := 0 }
        (.applied c.session.sessionId ev.seq)) :=
    h.congr rfl rfl rfl
  split at hd
  · rename_i hcond
    obtain ⟨os, heq, hos⟩ := hnext.goes_live
    have hd' := heq.symm.trans hd
    subst hd'
    refine ⟨_, _, hstep, ⟨hnext.congr rfl rfl rfl, fun _ => ⟨rfl, fun cmd hcmd => ?_⟩,
      fun hn => absurd hcond.1 hn⟩, hlast, htip⟩
    exact List.mem_append_right _ (hos cmd hcmd)
  · rename_i hcond
    subst hd
    refine ⟨_, _, hstep, ⟨hnext.congr rfl rfl rfl, fun hreach => absurd ⟨hreach, hphase⟩ hcond,
      fun _ => rfl⟩, hlast, htip⟩

/-- **`Parted c c'`** — what a gap leaves: the current socket is detached, a reconnect is scheduled, and
session and queue are as they were. -/
structure Parted (i : SocketId) (c c' : HarnessClient) : Prop where
  session : c'.session = c.session
  byUser : c'.closedByUser = false
  header : (c'.authorization.any fun v => !v.templateOk) = false
  timer : c'.reconnectTimer = true
  out : c'.out = []
  deaf : ∃ x, c'.sockets[i]? = some x ∧ x.attached = false ∧ x.readyState ≠ .closed

theorem Linked.detached {i : SocketId} {c : HarnessClient} (h : Linked i c) (accepted : Bool) :
    ∃ x, (c.wiring.detach accepted).sockets[i]? = some x ∧ x.attached = false ∧
      x.readyState ≠ .closed := by
  obtain ⟨x, hx, hw, hopen⟩ := h.wired
  unfold Wiring.detach
  rw [show c.wiring.current = some i from h.socket]
  show ∃ y, (c.sockets.modify i _)[i]? = some y ∧ _
  rw [List.getElem?_modify, hx]
  refine ⟨_, congrArg some (if_pos rfl), ?_⟩
  cases accepted with
  | true =>
      have hclose : Socket.close { x with attached := false } =
          { x with attached := false, readyState := .closing } := if_neg hw.unclosed
      show (Socket.close { x with attached := false }).attached = false ∧
        (Socket.close { x with attached := false }).readyState ≠ .closed
      rw [hclose]
      exact ⟨rfl, nofun⟩
  | false => exact ⟨rfl, by rw [if_neg Bool.false_ne_true]; exact hopen ▸ nofun⟩

theorem authorization_detachAndClose (c : HarnessClient) (env : Env) :
    (c.detachAndClose env).authorization = c.authorization := by
  unfold HarnessClient.detachAndClose
  cases c.socket <;> rfl

theorem authorization_countGap (c : HarnessClient) (seq : JsNumber) :
    (c.countGap seq).authorization = c.authorization := by
  unfold HarnessClient.countGap
  dsimp only
  split <;> split <;> rfl

theorem closedByUser_detach (w : Wiring) (accepted : Bool) :
    (w.detach accepted).closedByUser = w.closedByUser := by
  unfold Wiring.detach
  split <;> rfl

/-- A client that the user did not close schedules. -/
theorem scheduleReconnect_open {c : HarnessClient} (h : c.closedByUser = false) (env : Env) :
    (c.scheduleReconnect env).reconnectTimer = true ∧
      (c.scheduleReconnect env).authorization = c.authorization := by
  unfold HarnessClient.scheduleReconnect
  rw [if_neg (by rw [h]; exact Bool.false_ne_true)]
  exact ⟨rfl, rfl⟩

/-- An event that is not the next one. -/
theorem gap_arrives {i : SocketId} {c : HarnessClient} (h : Linked i c) {ev : Wire.EventPayload}
    (hsmall : ev.seq < 2 ^ 63) (hgap : c.session.lastSeq + 1 < ev.seq) (env : Env) :
    ∃ c' os, system.step c (arrives i env (.event ev)) = some (c', os) ∧ Parted i c c' := by
  have hstep := h.step_event ev env
  have hnote : { c with out := [] }.handleEvent (eventMembers ev) env =
      { c with out := [] }.noteGap (.finite ev.seq) env := by
    have hgt : c.session.lastSeq < ev.seq := by linarith
    rw [HarnessClient.handleEvent_of_lt (c := { c with out := [] }) (seqOf_eventMembers hsmall) hgt]
    exact if_pos hgap
  rw [hnote] at hstep
  have hwiring := HarnessClient.wiring_noteGap { c with out := [] } (.finite ev.seq) env
  have hsilent := HarnessClient.noteGap_silent { c with out := [] } (.finite ev.seq) env
  have hbyUser : ∀ d : HarnessClient, d.wiring = c.wiring.detach env.closeAccepted →
      d.closedByUser = false := by
    intro d hd
    calc d.closedByUser = (c.wiring.detach env.closeAccepted).closedByUser :=
          congrArg Wiring.closedByUser hd
      _ = c.closedByUser := closedByUser_detach _ _
      _ = false := h.byUser
  obtain ⟨htimer, hauth⟩ := scheduleReconnect_open
    (c := ((HarnessClient.countGap { c with out := [] } (.finite ev.seq)).emit
      (.gap (.finite ev.seq))).detachAndClose env)
    (hbyUser _ (by rw [HarnessClient.wiring_detachAndClose, HarnessClient.wiring_emit,
      HarnessClient.wiring_countGap]; rfl)) env
  refine ⟨_, _, hstep, hsilent.session, hbyUser _ hwiring, ?_, htimer, rfl, ?_⟩
  · have hsame : (HarnessClient.noteGap { c with out := [] } (.finite ev.seq) env).authorization =
        c.authorization := by
      refine hauth.trans ((authorization_detachAndClose _ _).trans ?_)
      exact authorization_countGap _ _
    show (HarnessClient.authorization _).any _ = false
    exact hsame ▸ h.header
  · obtain ⟨x, hx, hrest⟩ := h.detached env.closeAccepted
    refine ⟨x, ?_, hrest⟩
    have hsock := congrArg Wiring.sockets hwiring
    exact (congrArg (·[i]?) hsock).trans hx

/-! ## Lists of frames -/

theorem perform_cons {tr os : List Obs} {c c' : HarnessClient} {a : Action} {as : List Action}
    (h : system.step c a = some (c', os)) : perform tr c (a :: as) = perform (tr ++ os) c' as := by
  simp only [perform, Lts.exec, if_true, h]

/-- Frames nobody hears. -/
theorem perform_unheard {c : HarnessClient} {i : SocketId} {x : Socket} (hx : c.sockets[i]? = some x)
    (hatt : x.attached = false) (hopen : x.readyState ≠ .closed) (hout : c.out = []) (env : Env)
    (tr : List Obs) (es : List Wire.Envelope) :
    perform tr c (es.map (arrives i env)) = some (tr, c) := by
  induction es with
  | nil => rfl
  | cons e es ih =>
      have hstep : system.step c (arrives i env e) = some (c, []) :=
        step_unheard hx hatt hopen hout _ env
      rw [List.map_cons, perform_cons hstep, List.append_nil]
      exact ih

/-- Event `j + 1` of the log, when it is due. -/
theorem next_arrives (L : HostLog) {i : SocketId} (env : Env) {j : Nat} (hj : j < L.events.length)
    {c : HarnessClient} (h : Linked i c) (hphase : c.phase = .syncing)
    (hlt : c.session.lastSeq < j + 1) (hge : (j : ℚ) ≤ c.session.lastSeq) :
    ∃ c' os, system.step c (arrives i env (.event L.events[j])) = some (c', os) ∧
      Settles i .syncing c' os ∧ c'.session.lastSeq = (j + 1 : ℕ) ∧
      c'.session.tipSeq = c.session.tipSeq := by
  have hseq : (L.events[j].seq : ℚ) = j + 1 := by
    rw [L.numbered j hj]
    push_cast
    rfl
  have hlive : c.phase ≠ .live := by
    rw [hphase]
    nofun
  obtain ⟨c', os, hstep, hset, hlast, htip⟩ := event_arrives h hlive (L.seq_lt hj)
    (by rw [hseq]; exact hlt) (by rw [hseq]; linarith) env
  rw [hphase] at hset
  exact ⟨c', os, hstep, hset, by rw [hlast, L.numbered j hj], htip⟩

/-- The rest of the log, when its first event is due: the client goes live at its end. The induction is
on the number of events that follow it. -/
theorem perform_rest (L : HostLog) {i : SocketId} (env : Env) (n : Nat) :
    ∀ (j : Nat) (tr : List Obs) (c : HarnessClient), L.length = j + 1 + n → Linked i c →
      c.phase = .syncing → c.session.tipSeq = L.length → c.session.lastSeq < j + 1 →
      (j : ℚ) ≤ c.session.lastSeq →
      ∃ tr' c', perform tr c (((L.events.drop j).map .event).map (arrives i env)) = some (tr', c') ∧
        Linked i c' ∧ AtTip L tr' c' := by
  induction n with
  | zero =>
      intro j tr c hlen hlinked hphase htip hlt hge
      have hj : j < L.events.length := by
        show j < L.length
        omega
      obtain ⟨c', os, hstep, hset, hlast, htip'⟩ := next_arrives L env hj hlinked hphase hlt hge
      have hreach : c'.session.lastSeq = L.length := by rw [hlast, hlen]
      obtain ⟨hlive, hsent⟩ := hset.live (by rw [htip', htip, hreach])
      refine ⟨tr ++ os, c', ?_, hset.linked, hlive, hreach, i, hset.linked.socket, fun cmd hcmd => ?_⟩
      · rw [List.drop_eq_getElem_cons hj, List.map_cons, List.map_cons, perform_cons hstep,
          List.drop_of_length_le (show L.length ≤ j + 1 by omega)]
        rfl
      · exact List.mem_append_right _ (hsent cmd hcmd)
  | succ n ih =>
      intro j tr c hlen hlinked hphase htip hlt hge
      have hj : j < L.events.length := by
        show j < L.length
        omega
      obtain ⟨c', os, hstep, hset, hlast, htip'⟩ := next_arrives L env hj hlinked hphase hlt hge
      have hbehind : ¬ c'.session.tipSeq ≤ c'.session.lastSeq := by
        rw [htip', htip, hlast, not_le, Nat.cast_lt]
        omega
      rw [List.drop_eq_getElem_cons hj, List.map_cons, List.map_cons, perform_cons hstep]
      refine ih (j + 1) _ c' (by omega) hset.linked (hset.waiting hbehind) (htip'.trans htip) ?_ ?_
      · rw [hlast]
        push_cast
        linarith
      · rw [hlast]

/-! ## Opening a connection -/

/-- What opening a socket does besides, when it gets one. -/
theorem openNormalSocket_opens {c : HarnessClient} {env : Env} (h : c.opens env = true) :
    (c.openNormalSocket env).session = c.openingSession ∧
      (c.openNormalSocket env).authorization = c.authorization ∧
      (c.openNormalSocket env).reconnectTimer = c.reconnectTimer := by
  simp only [HarnessClient.opens, Bool.and_eq_true, Bool.not_eq_true', Option.isNone_iff_eq_none] at h
  obtain ⟨hauth, herr⟩ := h
  unfold HarnessClient.openNormalSocket
  generalize hd : c.setPhase (if c.session.sessionId.isNull then .connecting else .reconnecting) = d
  dsimp only
  have hauth' : (d.authorization.any fun v => !v.templateOk) = false := by
    rw [← hd]
    exact hauth
  rw [hauth', if_neg Bool.false_ne_true, HarnessClient.trySocket, herr, ← hd]
  unfold HarnessClient.openingSession HarnessClient.dropSession
  show _ ∧ _ ∧ _
  cases hf : c.fullResync with
  | true =>
      rw [show (c.setPhase _).fullResync = true from hf]
      exact ⟨rfl, rfl, rfl⟩
  | false =>
      rw [show (c.setPhase _).fullResync = false from hf]
      exact ⟨rfl, rfl, rfl⟩

/-- **`Placed c c'`** — a turn opened the next socket, and it is current. -/
structure Placed (c c' : HarnessClient) : Prop where
  socket : c'.socket = some c.sockets.length
  placed : ∃ x, c'.sockets[c.sockets.length]? = some x ∧ x.Wired ∧ x.readyState = .connecting
  byUser : c'.closedByUser = false
  header : (c'.authorization.any fun v => !v.templateOk) = false
  timer : c'.reconnectTimer = false
  session : c'.session = c.openingSession

/-- Only the sockets and the session to open with matter of the client before. -/
theorem Placed.of_eq {c₀ c c' : HarnessClient} (h : Placed c₀ c') (hsockets : c₀.sockets = c.sockets)
    (hsession : c₀.openingSession = c.openingSession) : Placed c c' where
  socket := by rw [h.socket, hsockets]
  placed := by
    rw [← hsockets]
    exact h.placed
  byUser := h.byUser
  header := h.header
  timer := h.timer
  session := h.session.trans hsession

theorem placed_openNormalSocket {c : HarnessClient} (env : Env) (h : c.opens env = true)
    (hby : c.closedByUser = false) (ht : c.reconnectTimer = false) :
    Placed c (c.openNormalSocket env) := by
  obtain ⟨hsess, hauth, htimer⟩ := openNormalSocket_opens h
  rcases c.wiring_openNormalSocket env with ⟨-, x, ⟨hw, hconn⟩, hwiring⟩ | ⟨hno, -⟩
  · refine ⟨congrArg Wiring.current hwiring, ⟨x, ?_, hw, hconn⟩,
      (congrArg Wiring.closedByUser hwiring).trans hby, ?_, htimer.trans ht, hsess⟩
    · have hsock := congrArg Wiring.sockets hwiring
      exact (congrArg (·[c.sockets.length]?) hsock).trans List.getElem?_concat_length
    · rw [hauth]
      simp only [HarnessClient.opens, Bool.and_eq_true, Bool.not_eq_true'] at h
      exact h.1
  · rw [h] at hno
    cases hno

theorem placed_connect {c : HarnessClient} (identity : Option Identity) (env : Env)
    (h : { c with identity := identity.or c.identity }.opens env = true) :
    Placed c (c.connect identity env) := by
  have hplaced := placed_openNormalSocket
    (c := { c with
      identity := identity.or c.identity
      closedByUser := false
      gapCount := 0
      retryAttempt := 0
      retryInMs := none
      reconnectTimer := false }) env h rfl rfl
  exact hplaced.of_eq rfl rfl

/-- An action that opens a socket, when it is enabled. -/
theorem opening_step {c : HarnessClient} {a : Action} (hopen : c.opening a = true)
    (hen : (system.step c a).isSome = true) :
    ∃ c' os, system.step c a = some (c', os) ∧ Placed c c' := by
  obtain ⟨⟨c', os⟩, hs⟩ := Option.isSome_iff_exists.mp hen
  refine ⟨c', os, hs, ?_⟩
  obtain ⟨d, hd, he⟩ := Option.map_eq_some_iff.mp hs
  cases he
  have hplaced : Placed c d := by
    cases a with
    | connect identity env =>
        cases hd
        have h := placed_connect (c := { c with out := [] }) identity env hopen
        exact h.of_eq rfl rfl
    | resume env =>
        obtain rfl := HarnessClient.of_turn_resume hd
        unfold HarnessClient.opening at hopen
        unfold HarnessClient.resumePair
        cases hr : c.resumptions with
        | nil =>
            rw [hr] at hopen
            cases hopen
        | cons identity rest =>
            rw [hr] at hopen
            have h := placed_connect (c := { c with out := [], resumptions := rest })
              (some identity) env hopen
            exact h.of_eq rfl rfl
    | timer env =>
        have hand : (!c.closedByUser && c.opens env) = true := hopen
        simp only [Bool.and_eq_true, Bool.not_eq_true'] at hand
        obtain ⟨hby, -⟩ | ⟨-, rfl⟩ := HarnessClient.of_turn_timer hd
        · exact absurd (hand.1.symm.trans hby) Bool.false_ne_true
        · have h := placed_openNormalSocket
            (c := { c with out := [], reconnectTimer := false, retryInMs := none }) env
            hand.2 hand.1 rfl
          exact h.of_eq rfl rfl
    | _ => cases hopen
  exact ⟨hplaced.socket, hplaced.placed, hplaced.byUser, hplaced.header, hplaced.timer,
    hplaced.session⟩

/-- The open event of a socket just placed: the hello names the position. -/
theorem Placed.opened {c₀ c : HarnessClient} (h : Placed c₀ c) :
    ∃ c' deviceId credential, system.step c (.opened c₀.sockets.length) =
        some (c', [.sent c₀.sockets.length (.hello deviceId c.session.lastSeq none credential)]) ∧
      Linked c₀.sockets.length c' ∧ c'.session = c.session := by
  obtain ⟨x, hx, hw, hconn⟩ := h.placed
  have hsocket := h.socket
  generalize c₀.sockets.length = i at hx hsocket ⊢
  have hturn : HarnessClient.turn { c with out := [] } (.opened i) =
      some ((HarnessClient.modifySocket { c with out := [] } i fun s =>
        { s with readyState := .open }).onopen i .normal) := by
    rw [HarnessClient.turn_opened (c := { c with out := [] }) hx hconn, hw.role]
  have hstep : system.step c (.opened i) = some ((HarnessClient.modifySocket { c with out := [] } i
      fun s => { s with readyState := .open }).onopen i .normal).handover := by
    show (HarnessClient.turn { c with out := [] } _).map _ = _
    rw [hturn]
    rfl
  refine ⟨_, _, _, hstep, ⟨hsocket, ?_, h.byUser, h.header, h.timer⟩, rfl⟩
  refine ⟨{ x with readyState := .open }, ?_, ⟨hw.role, hw.attached, nofun⟩, rfl⟩
  show (c.sockets.modify i _)[i]? = _
  rw [List.getElem?_modify, hx]
  exact congrArg some (if_pos rfl)

/-- One connection, down to the answer to its hello. -/
theorem attempt_eq (L : HostLog) (p : Wire.SnapshotPayload) (env : Env) (tr : List Obs)
    {c : HarnessClient} {a : Action} (hopen : c.opening a = true)
    (hen : (system.step c a).isSome = true) :
    ∃ tr₁ c₁, attempt L p env tr c a = perform tr₁ c₁
        ((answer L p c.openingSession.lastSeq).map (arrives c.sockets.length env)) ∧
      Linked c.sockets.length c₁ ∧ c₁.session = c.openingSession := by
  obtain ⟨c₁, os, hs, h⟩ := opening_step hopen hen
  obtain ⟨c₂, deviceId, credential, hs₂, hlinked, hsess⟩ := h.opened
  rw [h.session] at hs₂ hsess
  refine ⟨tr ++ os ++ [.sent c.sockets.length
    (.hello deviceId c.openingSession.lastSeq none credential)], c₂, ?_, hlinked, hsess⟩
  unfold attempt
  rw [hs]
  dsimp only
  rw [hs₂]

/-! ## One connection -/

/-- The position after the snapshot: the client's own, or 0. -/
theorem snapshotBase_lastSeq (s : SessionState) (p : Wire.SnapshotPayload) :
    (snapshotBase s p.members).lastSeq = if s.knows p.sessionID then s.lastSeq else 0 := by
  unfold snapshotBase SessionState.knows
  rw [get_sessionId, JsValue.strictEq_comm]
  cases s.sessionId.isNull <;> cases s.sessionId.strictEq (.str p.sessionID) <;> rfl

/-- **`Concluded`** — how a connection ends: without a reconnect, at the tip exactly when the condition
holds; or at a gap, in the host's session at position 0. -/
inductive Concluded (L : HostLog) (p : Wire.SnapshotPayload) (s : SessionState) (tr : List Obs)
    (c : HarnessClient) : Prop
  | settled (ht : c.reconnectTimer = false) (htip : AtTip L tr c ↔ Reaches s p)
  | parted (hother : s.knows p.sessionID = false) (hreach : Reaches s p)
      (hknows : c.session.knows p.sessionID = true) (hlast : c.session.lastSeq = 0)
      (hby : c.closedByUser = false) (hauth : (c.authorization.any fun v => !v.templateOk) = false)
      (ht : c.reconnectTimer = true)

/-- The snapshot is the last frame: the client has the host's position already, or waits in vain. -/
theorem concluded_snapshot {L : HostLog} {p : Wire.SnapshotPayload} (hp : p.lastSeq = L.length)
    {s : SessionState} (hk : 0 ≤ s.lastSeq) {i : SocketId} {tr os : List Obs} {c : HarnessClient}
    (hset : Settles i .syncing c os) (htip : c.session.tipSeq = L.length)
    (hlast : c.session.lastSeq = if s.knows p.sessionID then s.lastSeq else 0)
    (hend : L.length ≤ ⌊s.lastSeq⌋₊) : Concluded L p s (tr ++ os) c := by
  have hpast : (L.length : ℚ) ≤ s.lastSeq := (Nat.cast_le.mpr hend).trans (Nat.floor_le hk)
  refine .settled hset.linked.timer ⟨fun h => ?_, fun h => ?_⟩
  · have hat := h.lastSeq
    rw [hlast] at hat
    unfold Reaches
    rw [hp]
    split at hat
    · rename_i hknows
      rw [if_pos hknows]
      exact hat.le
    · rename_i hknows
      rw [if_neg hknows]
      exact .inl (by exact_mod_cast hat.symm)
  · have hat : c.session.lastSeq = L.length := by
      unfold Reaches at h
      rw [hp] at h
      by_cases hknows : s.knows p.sessionID = true
      · rw [if_pos hknows] at h hlast
        rw [hlast]
        exact le_antisymm h hpast
      · rw [if_neg hknows] at h hlast
        rcases h with h | h
        · rw [hlast, h, Nat.cast_zero]
        · exact absurd h (not_lt.mpr hpast)
    obtain ⟨hlive, hsent⟩ := hset.live (by rw [htip, hat])
    exact ⟨hlive, hat, i, hset.linked.socket, fun cmd hcmd => List.mem_append_right _ (hsent cmd hcmd)⟩

/-- The snapshot has set the position back, and the first event that follows leaves a gap. -/
theorem concluded_gap {L : HostLog} {p : Wire.SnapshotPayload} {s : SessionState} {i : SocketId}
    {c : HarnessClient} (hlinked : Linked i c) (env : Env) (tr : List Obs) {j : Nat}
    (hj : j < L.events.length) (hgap : c.session.lastSeq < j) (hother : s.knows p.sessionID = false)
    (hreach : Reaches s p) (hknows : c.session.knows p.sessionID = true)
    (hlast : c.session.lastSeq = 0) :
    ∃ tr' c', perform tr c (((L.events.drop j).map .event).map (arrives i env)) = some (tr', c') ∧
      Concluded L p s tr' c' := by
  have hseq : c.session.lastSeq + 1 < L.events[j].seq := by
    rw [L.numbered j hj]
    push_cast
    linarith
  obtain ⟨c', os, hstep, hparted⟩ := gap_arrives hlinked (L.seq_lt hj) hseq env
  obtain ⟨x, hx, hatt, hopen⟩ := hparted.deaf
  rw [List.drop_eq_getElem_cons hj, List.map_cons, List.map_cons, perform_cons hstep,
    perform_unheard hx hatt hopen hparted.out]
  refine ⟨_, _, rfl, .parted hother hreach ?_ ?_ hparted.byUser hparted.header hparted.timer⟩
  · rw [hparted.session]
    exact hknows
  · rw [hparted.session]
    exact hlast

theorem attempt_concludes (L : HostLog) (p : Wire.SnapshotPayload) (hp : p.lastSeq = L.length)
    (env : Env) (tr : List Obs) {c : HarnessClient} {a : Action} (hopen : c.opening a = true)
    (hen : (system.step c a).isSome = true) (hk : 0 ≤ c.openingSession.lastSeq) :
    ∃ tr' c', attempt L p env tr c a = some (tr', c') ∧ Concluded L p c.openingSession tr' c' := by
  obtain ⟨tr₁, c₁, heq, hlinked, hsess⟩ := attempt_eq L p env tr hopen hen
  generalize c.openingSession = s at heq hsess hk ⊢
  generalize c.sockets.length = i at heq hlinked
  obtain ⟨c₂, os, hstep, hset, hsess₂⟩ := snapshot_arrives hlinked p env
  rw [hsess, read_snapshot s p (hp ▸ L.int64)] at hsess₂
  have htip : c₂.session.tipSeq = L.length := by rw [hsess₂, ← hp]
  have hlast : c₂.session.lastSeq = if s.knows p.sessionID then s.lastSeq else 0 := by
    rw [← snapshotBase_lastSeq, hsess₂]
  have hknows : c₂.session.knows p.sessionID = true := by
    rw [hsess₂]
    simp [SessionState.knows, JsValue.strictEq]
  have hle : c₂.session.lastSeq ≤ s.lastSeq := by
    rw [hlast]
    split
    · exact le_refl _
    · exact hk
  rw [heq, answer, List.map_cons, perform_cons hstep, filter_after L hk]
  generalize hj : ⌊s.lastSeq⌋₊ = j
  by_cases hend : L.length ≤ j
  · -- there is no event after the client's position
    rw [List.drop_of_length_le hend]
    exact ⟨_, _, rfl, concluded_snapshot hp hk hset htip hlast (hj ▸ hend)⟩
  · have hlt : j < L.length := not_le.mp hend
    have hfloor : s.lastSeq < j + 1 := hj ▸ Nat.lt_floor_add_one s.lastSeq
    have hbefore : s.lastSeq < L.length := by
      have hcast : ((j + 1 : ℕ) : ℚ) ≤ L.length := Nat.cast_le.mpr hlt
      push_cast at hcast
      linarith
    have hreach : Reaches s p := by
      unfold Reaches
      rw [hp]
      split
      · exact hbefore.le
      · exact .inr hbefore
    have hsync : c₂.phase = .syncing := by
      refine hset.waiting (not_le.mpr ?_)
      rw [htip]
      exact hle.trans_lt hbefore
    by_cases hdue : (j : ℚ) ≤ c₂.session.lastSeq
    · -- the first event is due, and so are the others
      obtain ⟨n, hn⟩ : ∃ n, L.length = j + 1 + n := ⟨L.length - (j + 1), by omega⟩
      obtain ⟨tr', c', hperf, hlinked', hat⟩ := perform_rest L env n j (tr₁ ++ os) c₂ hn hset.linked
        hsync htip (hle.trans_lt hfloor) hdue
      exact ⟨tr', c', hperf, .settled hlinked'.timer ⟨fun _ => hreach, fun _ => hat⟩⟩
    · have hother : s.knows p.sessionID = false := by
        rw [Bool.eq_false_iff]
        intro hk'
        rw [hlast, if_pos hk', ← hj] at hdue
        exact hdue (Nat.floor_le hk)
      rw [hother, if_neg Bool.false_ne_true] at hlast
      exact concluded_gap hset.linked env _ hlt (not_le.mp hdue) hother hreach hknows hlast

/-! ## To the tip -/

/-- Positions are never negative. -/
theorem lastSeq_nonneg {tr : List Obs} {c₀ c : HarnessClient} (h : system.Run Lts.Free [] c₀ tr c)
    (h0 : 0 ≤ c₀.session.lastSeq) : 0 ≤ c.session.lastSeq := by
  refine h.invariant (I := fun _ u => 0 ≤ u.session.lastSeq) h0 ?_
  intro t u a u' os _ ih _ hs
  obtain ⟨d, ht, rfl, -⟩ := u.step_trans hs
  show 0 ≤ d.session.lastSeq
  cases ht with
  | silent h' => rw [h'.session]; exact ih
  | renewed h' => rw [h'.session]; exact le_refl _
  | restored _ hlt _ hs' => rw [hs']; exact ih.trans hlt.le
  | issued _ _ _ hs' => rw [hs']; exact ih
  | @accepted snap _ _ hs' =>
      rw [hs']
      show 0 ≤ (snapshotBase u.session snap).lastSeq
      unfold snapshotBase
      split
      · exact le_refl _
      · exact ih
  | applied _ _ hgt _ _ hs' =>
      rw [hs', HarnessClient.nextSession_lastSeq]
      exact ih.trans hgt.le
  | discarded _ _ hc => rw [hc]; exact ih
  | settled _ _ _ hc => rw [hc]; exact ih
  | orphaned _ _ _ _ hc => rw [hc]; exact ih

theorem openingSession_nonneg {c : HarnessClient} (h : 0 ≤ c.session.lastSeq) :
    0 ≤ c.openingSession.lastSeq := by
  unfold HarnessClient.openingSession
  split
  · exact le_refl _
  · exact h

/-- After a gap the next connection reaches the tip. -/
theorem second_reaches {L : HostLog} {p : Wire.SnapshotPayload} (hp : p.lastSeq = L.length)
    {env : Env} (henv : env.socketError = none) (env' : Env) (tr : List Obs) {c : HarnessClient}
    (hknows : c.session.knows p.sessionID = true) (hlast : c.session.lastSeq = 0)
    (hby : c.closedByUser = false) (hauth : (c.authorization.any fun v => !v.templateOk) = false)
    (ht : c.reconnectTimer = true) :
    ∃ tr' c', attempt L p env' tr c (.timer env) = some (tr', c') ∧ c'.reconnectTimer = false ∧
      AtTip L tr' c' := by
  have hopens : c.opens env = true := by
    simp [HarnessClient.opens, hauth, henv]
  have hopen : c.opening (.timer env) = true := by
    show (!c.closedByUser && c.opens env) = true
    rw [hby, hopens]
    rfl
  have hen : (system.step c (.timer env)).isSome = true := by
    show ((HarnessClient.turn { c with out := [] } _).map _).isSome = true
    simp [HarnessClient.turn, ht]
  have hopening : c.openingSession.knows p.sessionID = true ∧ c.openingSession.lastSeq = 0 := by
    unfold HarnessClient.openingSession
    split
    · exact ⟨rfl, rfl⟩
    · exact ⟨hknows, hlast⟩
  obtain ⟨tr', c', heq, hconc⟩ := attempt_concludes L p hp env' tr hopen hen (by rw [hopening.2])
  have hreach : Reaches c.openingSession p := by
    unfold Reaches
    rw [if_pos hopening.1, hopening.2]
    exact Nat.cast_nonneg _
  cases hconc with
  | settled ht' htip => exact ⟨tr', c', heq, ht', htip.mpr hreach⟩
  | parted hother =>
      rw [hopening.1] at hother
      cases hother

/-- **A reconnect brings the client to the tip** exactly when `Reaches` holds of the session the socket
is opened in. Two connections are enough, whatever the platform does. -/
theorem reconnect_reaches_tip {url : String} {authMode : AuthMode} {identity : Option Identity}
    {maxItems : Option Nat} {tr : List Obs} {c : HarnessClient}
    (h : system.Run Lts.Free [] (.new url authMode identity maxItems) tr c)
    (L : HostLog) (p : Wire.SnapshotPayload) (hp : p.lastSeq = L.length) {a : Action}
    (hopen : c.opening a = true) (hen : (system.step c a).isSome = true)
    (envs : Nat → Env) (henv : ∀ k, (envs k).socketError = none) (n : Nat) :
    ∃ tr' c', reconnect L p (n + 2) envs [] c a = some (tr', c') ∧
      (AtTip L tr' c' ↔ Reaches c.openingSession p) := by
  have hk := openingSession_nonneg (lastSeq_nonneg h (le_refl _))
  obtain ⟨tr₁, c₁, heq, hconc⟩ := attempt_concludes L p hp (envs 0) [] hopen hen hk
  rw [reconnect, heq]
  cases hconc with
  | settled ht htip => exact ⟨tr₁, c₁, if_neg (by rw [ht]; exact Bool.false_ne_true), htip⟩
  | parted _ hreach hknows hlast hby hauth ht =>
      obtain ⟨tr₂, c₂, heq₂, ht₂, hat⟩ :=
        second_reaches hp (henv 1) (envs 1) tr₁ hknows hlast hby hauth ht
      refine ⟨tr₂, c₂, ?_, fun _ => hreach, fun _ => hat⟩
      dsimp only
      rw [if_pos ht, reconnect, heq₂]
      exact if_neg (by rw [ht₂]; exact Bool.false_ne_true)

namespace Sample

/-- The snapshot of a session with three events. -/
def tipThree (id : String) : Wire.SnapshotPayload := ⟨id, "idle", "", 3, [], [], []⟩

/-- A client that saw `n` events of session `s1` before the connection was lost. -/
def lostAfter (n : Nat) : List Action :=
  [.connect none {}, .opened 0, hostFrame 0 (.snapshot (tipThree "s1"))] ++
    (log.events.take n).map (fun ev => hostFrame 0 (.event ev)) ++ [.closed 0 (some 1006) {}]

end Sample

theorem reconnect_reaches_tip_newSession :
    ∃ tr c tr' c',
      system.Run Lts.Free [] (.new "wss://host:7432/ws" .hello none none) tr c ∧
      c.session.lastSeq = 2 ∧
      reconnect Sample.log (Sample.tipThree "s2") 2 (fun _ => {}) [] c (.timer {}) = some (tr', c') ∧
      AtTip Sample.log tr' c' := by
  have hexec : ((system.exec (fun _ _ _ => true) [] (.new "wss://host:7432/ws" .hello none none)
      (Sample.lostAfter 2)).map fun r =>
        (r.2.session.lastSeq, r.2.opening (.timer {}), (system.step r.2 (.timer {})).isSome,
          r.2.fullResync, r.2.session.knows "s2")) =
      some (2, true, true, false, false) := by decide +kernel
  obtain ⟨r, hr, hfacts⟩ := Option.map_eq_some_iff.mp hexec
  simp only [Prod.mk.injEq] at hfacts
  obtain ⟨hlast, hopen, hen, hresync, hknows⟩ := hfacts
  have hrun := Lts.run_of_exec (P := Lts.Free) (fun _ _ _ _ => trivial) hr
  obtain ⟨tr', c', heq, htip⟩ := reconnect_reaches_tip hrun Sample.log (Sample.tipThree "s2") rfl
    hopen hen (fun _ => {}) (fun _ => rfl) 0
  refine ⟨r.1, r.2, tr', c', hrun, hlast, heq, htip.mpr ?_⟩
  have hsession : r.2.openingSession = r.2.session := if_neg (by rw [hresync]; nofun)
  unfold Reaches
  rw [hsession, show (Sample.tipThree "s2").sessionID = "s2" from rfl, hknows,
    if_neg Bool.false_ne_true, hlast]
  exact .inr (by norm_num [Sample.tipThree])

/-- A client that saw three events of the old session, and a new one with three events: the host sends
none, and the client stays in `syncing`. -/
theorem reconnect_stuck_syncing :
    ¬ ∀ tr c, system.Run Lts.Free [] (.new "wss://host:7432/ws" .hello none none) tr c →
      ∀ (L : HostLog) (p : Wire.SnapshotPayload), p.lastSeq = L.length → ∀ a, c.opening a = true →
        (system.step c a).isSome = true → ∀ envs : Nat → Env, (∀ k, (envs k).socketError = none) →
          ∃ n tr' c', reconnect L p n envs [] c a = some (tr', c') ∧ AtTip L tr' c' := by
  intro h
  have hexec : ((system.exec (fun _ _ _ => true) [] (.new "wss://host:7432/ws" .hello none none)
      (Sample.lostAfter 3)).map fun r =>
        (r.2.opening (.timer {}), (system.step r.2 (.timer {})).isSome,
          (attempt Sample.log (Sample.tipThree "s2") {} [] r.2 (.timer {})).map fun x =>
            (x.2.reconnectTimer, x.2.phase))) =
      some (true, true, some (false, .syncing)) := by decide +kernel
  obtain ⟨r, hr, hfacts⟩ := Option.map_eq_some_iff.mp hexec
  simp only [Prod.mk.injEq] at hfacts
  obtain ⟨hopen, hen, hattempt⟩ := hfacts
  obtain ⟨⟨tr₁, c₁⟩, heq, hend⟩ := Option.map_eq_some_iff.mp hattempt
  obtain ⟨ht, hphase⟩ := Prod.mk.inj hend
  have hrun := Lts.run_of_exec (P := Lts.Free) (fun _ _ _ _ => trivial) hr
  obtain ⟨n, tr', c', hrec, hat⟩ := h _ _ hrun Sample.log (Sample.tipThree "s2") rfl _ hopen hen
    (fun _ => {}) fun _ => rfl
  cases n with
  | zero => cases hrec
  | succ n =>
      rw [reconnect, heq] at hrec
      dsimp only at hrec ht
      rw [ht, if_neg Bool.false_ne_true] at hrec
      cases hrec
      have hlive := hat.live
      rw [hphase] at hlive
      cases hlive

end Harness.Client
