/-
# Harness.Client.Inversion — what one turn can do.

Most of what the client does leaves the session, the outbox and the promises alone: phases, sockets,
timers, errors. `Silent` says so of one state change, it composes, and every helper method is silent.
What is left are the eight ways a turn touches them, the constructors of `Trans`:

    renewed   the session is dropped (`reset()`, or a full resync as a socket is opened)
    restored  `setLastSeq` moves `lastSeq` forward
    issued    a command is queued
    accepted  a snapshot is taken in
    applied   the next event is applied
    discarded an event is dropped as a duplicate
    settled   an ack or an error frame settles a command
    orphaned  the same, but the rejection throws before it is made

`turn_trans` is the case analysis of the model, done once. The laws of the client are proved over
`Trans`.
-/
import Harness.Client.System

namespace Harness.Client

open Lib
open Wire (Json CommandKind CommandPayload)

/-! ## Quiet observations -/

/-- An observation that concerns neither a command nor the stream. What listeners are told is the
position of `s`. -/
def Obs.Quiet (s : SessionState) : Obs → Prop
  | .created _ | .sent _ (.hello _ _ _ _) | .refused | .gap _ | .paired _ | .pairRejected
  | .threw => True
  | .notified _ sessionId lastSeq => sessionId = s.sessionId ∧ lastSeq = s.lastSeq
  | _ => False

/-- Quiet, or a queued command going out. -/
def Obs.Resent (c : HarnessClient) (o : Obs) : Prop :=
  o.Quiet c.session ∨ ∃ i cmd, o = .sent i (.command cmd) ∧ cmd ∈ c.outbox.values

/-- **`Silent c c'`** — the session, the outbox and the promises are as they were, and what was seen
is quiet. -/
structure Silent (c c' : HarnessClient) : Prop where
  maxItems : c'.maxItems = c.maxItems
  session : c'.session = c.session
  outbox : c'.outbox = c.outbox
  pending : c'.pending = c.pending
  out : ∃ os, c'.out = c.out ++ os ∧ ∀ o ∈ os, o.Quiet c.session

namespace Silent

variable {c c₁ c₂ : HarnessClient}

theorem refl (c : HarnessClient) : Silent c c :=
  ⟨rfl, rfl, rfl, rfl, [], (List.append_nil _).symm, by simp⟩

/-- From a state with nothing seen, all that is seen is quiet. -/
theorem seen (h : Silent c c₁) (hout : c.out = []) : ∀ o ∈ c₁.out, o.Quiet c.session := by
  obtain ⟨os, ho, hq⟩ := h.out
  rw [ho, hout]
  exact hq

theorem trans (h : Silent c c₁) (h' : Silent c₁ c₂) : Silent c c₂ where
  maxItems := h'.maxItems.trans h.maxItems
  session := h'.session.trans h.session
  outbox := h'.outbox.trans h.outbox
  pending := h'.pending.trans h.pending
  out := by
    obtain ⟨os, ho, hq⟩ := h.out
    obtain ⟨os', ho', hq'⟩ := h'.out
    refine ⟨os ++ os', by rw [ho', ho, List.append_assoc], ?_⟩
    intro o hmem
    rcases List.mem_append.mp hmem with hm | hm
    · exact hq o hm
    · rw [← h.session]
      exact hq' o hm

/-- A change of other fields only. -/
theorem update (h : Silent c c₁) (hm : c₂.maxItems = c₁.maxItems) (hs : c₂.session = c₁.session)
    (ho : c₂.outbox = c₁.outbox) (hp : c₂.pending = c₁.pending) (hout : c₂.out = c₁.out) :
    Silent c c₂ :=
  h.trans ⟨hm, hs, ho, hp, [], by rw [hout, List.append_nil], by simp⟩

/-- The same, with one more observation. -/
theorem updateSeen (h : Silent c c₁) (hm : c₂.maxItems = c₁.maxItems)
    (hs : c₂.session = c₁.session) (ho : c₂.outbox = c₁.outbox) (hp : c₂.pending = c₁.pending) {o : Obs}
    (hout : c₂.out = c₁.out ++ [o]) (hq : o.Quiet c.session) : Silent c c₂ :=
  h.trans ⟨hm, hs, ho, hp, [o], hout, by rw [h.session]; simpa using hq⟩

theorem emit (h : Silent c c₁) {o : Obs} (ho : o.Quiet c.session := by trivial) : Silent c (c₁.emit o) :=
  h.updateSeen rfl rfl rfl rfl rfl ho

theorem setPhase (h : Silent c c₁) (phase : ConnPhase) : Silent c (c₁.setPhase phase) :=
  h.updateSeen rfl rfl rfl rfl rfl ⟨h.session ▸ rfl, h.session ▸ rfl⟩

theorem modifySocket (h : Silent c c₁) (i : SocketId) (f : Socket → Socket) :
    Silent c (c₁.modifySocket i f) :=
  h.update rfl rfl rfl rfl rfl

theorem createSocket (h : Silent c c₁) (role : SocketRole) (authorization : Option JsValue) :
    Silent c (c₁.createSocket role authorization) :=
  h.updateSeen rfl rfl rfl rfl rfl trivial

theorem scheduleReconnect (h : Silent c c₁) (env : Env) : Silent c (c₁.scheduleReconnect env) := by
  unfold HarnessClient.scheduleReconnect
  split
  · exact h
  · exact Silent.update ((h.update rfl rfl rfl rfl rfl).setPhase .reconnecting) rfl rfl rfl rfl rfl

theorem detachAndClose (h : Silent c c₁) (env : Env) : Silent c (c₁.detachAndClose env) := by
  unfold HarnessClient.detachAndClose
  split
  · exact h
  · exact h.update rfl rfl rfl rfl rfl

end Silent

namespace HarnessClient

variable (c : HarnessClient)

theorem notify_silent : Silent c c.notify := (Silent.refl c).emit ⟨rfl, rfl⟩

theorem close_silent : Silent c c.close := by
  unfold close
  refine Silent.setPhase (Silent.update (.refl c) ?_ ?_ ?_ ?_ ?_) .idle <;>
    cases c.socket <;> rfl

theorem pair_silent (token : String) (url spki : Option String) (env : Env) :
    Silent c (c.pair token url spki env) := by
  have h : Silent c { { c with url := url.getD c.url }.setPhase .pairing with error := none } :=
    (((Silent.refl c).update rfl rfl rfl rfl rfl).setPhase .pairing).update rfl rfl rfl rfl rfl
  unfold pair
  split
  · exact h.emit
  · exact h.createSocket _ _

theorem finishPairing_silent (i : SocketId) (role : SocketRole) (fn : HarnessClient → HarnessClient)
    (h : ∀ d, Silent d (fn d)) : Silent c (c.finishPairing i role fn) := by
  unfold finishPairing
  split
  · exact ((Silent.refl c).modifySocket _ _).trans (h _)
  · exact .refl c

theorem pairingMessage_silent (i : SocketId) (role : SocketRole) (e : Envelope) :
    Silent c (c.pairingMessage i role e) := by
  unfold pairingMessage
  split
  · refine finishPairing_silent _ _ _ _ fun d => ?_
    exact (Silent.refl d).updateSeen rfl rfl rfl rfl rfl trivial
  · refine finishPairing_silent _ _ _ _ fun d => ?_
    refine ((Silent.refl d).modifySocket _ _).emit ?_
    split <;> trivial
  · exact .refl c

theorem onopen_silent (i : SocketId) (role : SocketRole) : Silent c (c.onopen i role) := by
  unfold onopen
  split <;> exact (Silent.refl c).emit

theorem onclose_silent (i : SocketId) (role : SocketRole) (code : Option Nat) (env : Env) :
    Silent c (c.onclose i role code env) := by
  unfold onclose
  split
  · exact finishPairing_silent _ _ _ _ fun d => (Silent.refl d).emit
  · split
    · exact .refl c
    · split
      · exact (Silent.refl c).setPhase _
      · split
        · exact .refl c
        · exact (Silent.refl c).scheduleReconnect _

theorem onerror_silent (i : SocketId) (role : SocketRole) : Silent c (c.onerror i role) := by
  unfold onerror
  split
  · exact finishPairing_silent _ _ _ _ fun d => (Silent.refl d).emit
  · exact .refl c

theorem countGap_silent (seq : JsNumber) : Silent c (c.countGap seq) := by
  unfold countGap
  dsimp only
  split <;> split <;> exact (Silent.refl c).update rfl rfl rfl rfl rfl

theorem noteGap_silent (seq : JsNumber) (env : Env) : Silent c (c.noteGap seq env) :=
  ((c.countGap_silent seq).emit.detachAndClose env).scheduleReconnect env

/-- Flushing sends what is queued and changes nothing. -/
theorem flushOutbox_spec : ∃ os, c.flushOutbox = { c with out := c.out ++ os } ∧
    ∀ o ∈ os, ∃ i cmd, o = .sent i (.command cmd) ∧ cmd ∈ c.outbox.values := by
  unfold flushOutbox
  split
  · exact ⟨[], by simp, by simp⟩
  · rename_i i _
    split
    · refine ⟨_, rfl, ?_⟩
      intro o ho
      obtain ⟨cmd, hcmd, rfl⟩ := List.mem_map.mp ho
      exact ⟨i, cmd, rfl, hcmd⟩
    · exact ⟨[], by simp, by simp⟩

end HarnessClient

/-! ## Opening a socket -/

/-- **`Renewed c c'`** — the session is dropped, commands and promises stay. -/
structure Renewed (c c' : HarnessClient) : Prop where
  maxItems : c'.maxItems = c.maxItems
  session : c'.session = newSessionState
  outbox : c'.outbox = c.outbox
  pending : c'.pending = c.pending
  out : ∃ os, c'.out = c.out ++ os ∧ ∀ o ∈ os, o.Quiet c.session ∨ o.Quiet newSessionState

theorem Renewed.seen {c c' : HarnessClient} (h : Renewed c c') (hout : c.out = []) :
    ∀ o ∈ c'.out, o.Quiet c.session ∨ o.Quiet newSessionState := by
  obtain ⟨os, ho, hq⟩ := h.out
  rw [ho, hout]
  exact hq

theorem Silent.renewed {c c₁ c₂ : HarnessClient} (h : Silent c c₁) (h' : Renewed c₁ c₂) :
    Renewed c c₂ where
  maxItems := h'.maxItems.trans h.maxItems
  session := h'.session
  outbox := h'.outbox.trans h.outbox
  pending := h'.pending.trans h.pending
  out := by
    obtain ⟨os, ho, hq⟩ := h.out
    obtain ⟨os', ho', hq'⟩ := h'.out
    refine ⟨os ++ os', by rw [ho', ho, List.append_assoc], ?_⟩
    intro o hmem
    rcases List.mem_append.mp hmem with hm | hm
    · exact .inl (hq o hm)
    · rw [← h.session]
      exact hq' o hm

/-- A silent change after the session was dropped. -/
theorem Silent.after_renewal {c c₁ c₂ : HarnessClient} (hm : c₁.maxItems = c.maxItems)
    (hs : c₁.session = newSessionState) (ho : c₁.outbox = c.outbox) (hp : c₁.pending = c.pending)
    (hout : c₁.out = c.out) (h : Silent c₁ c₂) : Renewed c c₂ where
  maxItems := h.maxItems.trans hm
  session := h.session.trans hs
  outbox := h.outbox.trans ho
  pending := h.pending.trans hp
  out := by
    obtain ⟨os, hos, hq⟩ := h.out
    refine ⟨os, by rw [hos, hout], fun o hm => .inr ?_⟩
    rw [← hs]
    exact hq o hm

namespace HarnessClient

variable (c : HarnessClient)

theorem trySocket_silent (env : Env) : Silent c (c.trySocket env) := by
  unfold trySocket
  split
  · rename_i text _
    have h : Silent c { c with error := some ⟨.str "socket_error", .str text⟩ } :=
      Silent.update (.refl c) rfl rfl rfl rfl rfl
    exact h.scheduleReconnect env
  · have h : Silent c { c with socket := some c.sockets.length } :=
      Silent.update (.refl c) rfl rfl rfl rfl rfl
    exact h.createSocket _ _

/-- A pending full resync drops the session, otherwise opening a socket is silent. -/
theorem openNormalSocket_cases (env : Env) :
    Silent c (c.openNormalSocket env) ∨ Renewed c (c.openNormalSocket env) := by
  unfold openNormalSocket
  generalize hd : c.setPhase (if c.session.sessionId.isNull then .connecting else .reconnecting) = d
  have h : Silent c d := hd ▸ (Silent.refl c).setPhase _
  dsimp only
  split
  · exact .inl h.emit
  · unfold dropSession
    split
    · refine .inr (h.renewed (Silent.after_renewal ?_ ?_ ?_ ?_ ?_ (trySocket_silent _ env))) <;> rfl
    · exact .inl (h.trans (trySocket_silent _ env))

theorem connect_cases (identity : Option Identity) (env : Env) :
    Silent c (c.connect identity env) ∨ Renewed c (c.connect identity env) := by
  have h : Silent c
      { c with
        identity := identity.or c.identity, closedByUser := false, gapCount := 0,
        retryAttempt := 0, retryInMs := none, reconnectTimer := false } :=
    (Silent.refl c).update rfl rfl rfl rfl rfl
  exact (openNormalSocket_cases _ env).imp h.trans h.renewed

theorem resumePair_cases (env : Env) :
    Silent c (c.resumePair env) ∨ Renewed c (c.resumePair env) := by
  unfold resumePair
  split
  · exact .inl (.refl c)
  · rename_i identity rest _
    have h : Silent c { c with resumptions := rest } := Silent.update (.refl c) rfl rfl rfl rfl rfl
    exact (connect_cases { c with resumptions := rest } (some identity) env).imp h.trans h.renewed

end HarnessClient

/-! ## The turns -/

/-- **`Delivered c a f`** — the turn hands `f` to `handleEnvelope`: it arrives on a normal socket that
has its handlers. -/
def Delivered (c : HarnessClient) (a : Action) (f : Inbound) : Prop :=
  ∃ i data env s e, a = .message i data env ∧ c.sockets[i]? = some s ∧ s.readyState ≠ .closed ∧
    s.attached = true ∧ s.role = .normal ∧ data.bind parseEnvelope = some e ∧ e.inbound = f

theorem not_delivered {c : HarnessClient} {a : Action} {f : Inbound}
    (h : ∀ i data env, a ≠ .message i data env) : ¬ Delivered c a f := by
  rintro ⟨i, data, env, s, e, ha, -⟩
  exact h i data env ha

/-- What a turn does to the session, the outbox and the promises. -/
inductive Trans (c : HarnessClient) (a : Action) (c' : HarnessClient) : Prop
  | silent (h : Silent c c')
  | renewed (h : Renewed c c')
  | restored {q : ℚ} (ha : a = .setLastSeq (.finite q)) (hlt : c.session.lastSeq < q)
      (hm : c'.maxItems = c.maxItems) (hs : c'.session = { c.session with lastSeq := q })
      (ho : c'.outbox = c.outbox) (hp : c'.pending = c.pending)
      (hout : c'.out = c.out ++ [.notified c.phase c.session.sessionId q])
  | issued {req : Request} {id : String} (ha : a = .send req id)
      (hroom : c.outbox.size < HarnessClient.maxOutbox) (hm : c'.maxItems = c.maxItems)
      (hs : c'.session = c.session)
      (ho : c'.outbox = c.outbox.set id
        { id := id, idempotencyKey := id, kind := req.command.1, payload := some req.command.2 })
      (hp : c'.pending = c.pending.set id ⟨false⟩)
      (hout : ∃ os, c'.out = c.out ++ .issued id c.session.sessionId :: os ∧
        ∀ o ∈ os, o.Resent c')
  | accepted {snap : JsRecord} (ha : Delivered c a (.snapshot snap))
      (hm : c'.maxItems = c.maxItems) (hs : c'.session = applySnapshot c.session snap)
      (ho : c'.outbox = if c.differs snap then ∅ else c.outbox) (hp : c'.pending = c.pending)
      (hout : ∃ os, c'.out = c.out ++ .accepted (snap.get "sessionId") c.session.sessionId :: os ∧
        ∀ o ∈ os, o.Resent c')
  | applied {ev : JsRecord} {q : ℚ} (ha : Delivered c a (.event ev))
      (hseq : HarnessClient.seqOf ev = .finite q) (hgt : c.session.lastSeq < q)
      (hle : q ≤ c.session.lastSeq + 1) (hm : c'.maxItems = c.maxItems)
      (hs : c'.session = c.nextSession (HarnessClient.eventOf ev q)) (ho : c'.outbox = c.outbox)
      (hp : c'.pending = c.pending)
      (hout : ∃ os, c'.out = c.out ++ .applied c.session.sessionId q :: os ∧ ∀ o ∈ os, o.Resent c')
  | discarded {ev : JsRecord} (ha : Delivered c a (.event ev))
      (hle : (HarnessClient.seqOf ev).le c.session.lastSeq = true)
      (hc : c' = c.emit (.discarded c.session.sessionId (HarnessClient.seqOf ev)))
  | settled {f : Inbound} {id : String} {o : Obs} (ha : Delivered c a f)
      (hf : (∃ ack, f = .ack ack ∧ ack.get "commandId" = .str id ∧ o = .resolved id) ∨
        ∃ err, f = .error err ∧ err.get "commandId" = .str id ∧ o = .rejected id (err.get "code") ∧
          ((err.get "code").templateOk && (err.get "message").templateOk) = true)
      (hp : c.pending.get id = some ⟨false⟩) (hc : c' = (c.settle id).emit o)
  | orphaned {err : JsRecord} {id : String} (ha : Delivered c a (.error err))
      (hid : err.get "commandId" = .str id) (hp : c.pending.get id = some ⟨false⟩)
      (hbad : ((err.get "code").templateOk && (err.get "message").templateOk) = false)
      (hc : c' = (c.settle id).emit .threw)

theorem HarnessClient.nextSession_of_none {c : HarnessClient} (h : c.maxItems = none)
    (ev : EventPayload) : c.nextSession ev = applyEvent c.session ev := by
  unfold HarnessClient.nextSession
  rw [h]

theorem HarnessClient.nextSession_sessionId (c : HarnessClient) (ev : EventPayload) :
    (c.nextSession ev).sessionId = c.session.sessionId := by
  unfold HarnessClient.nextSession
  cases c.maxItems <;> exact applyEvent_sessionId _ _

theorem HarnessClient.nextSession_lastSeq (c : HarnessClient) (ev : EventPayload) :
    (c.nextSession ev).lastSeq = ev.seq := by
  unfold HarnessClient.nextSession
  cases c.maxItems <;> exact applyEvent_lastSeq _ _

theorem HarnessClient.nextSession_tipSeq (c : HarnessClient) (ev : EventPayload) :
    (c.nextSession ev).tipSeq = c.session.tipSeq := by
  unfold HarnessClient.nextSession
  cases c.maxItems <;> exact applyEvent_tipSeq _ _

/-- `maxItems` is a constant of the client. -/
theorem Trans.maxItems {c c' : HarnessClient} {a : Action} (h : Trans c a c') :
    c'.maxItems = c.maxItems := by
  cases h with
  | silent h => exact h.maxItems
  | renewed h => exact h.maxItems
  | restored _ _ hm => exact hm
  | issued _ _ hm => exact hm
  | accepted _ hm => exact hm
  | applied _ _ _ _ hm => exact hm
  | discarded _ _ hc => rw [hc]; rfl
  | settled _ _ _ hc => rw [hc]; rfl
  | orphaned _ _ _ _ hc => rw [hc]; rfl

theorem Trans.of_opened {c c' : HarnessClient} {a : Action} (h : Silent c c' ∨ Renewed c c') :
    Trans c a c' := by
  rcases h with h | h
  · exact .silent h
  · exact .renewed h

namespace HarnessClient

variable (c : HarnessClient)

theorem setLastSeq_trans (seq : JsNumber) : Trans c (.setLastSeq seq) (c.setLastSeq seq) := by
  unfold setLastSeq
  split
  · rename_i q
    split
    · exact .silent (.refl c)
    · rename_i h
      exact .restored rfl (not_le.mp h) rfl rfl rfl rfl rfl
  · exact .silent (.refl c)

theorem reset_trans : Trans c .reset c.reset :=
  .renewed ⟨rfl, rfl, rfl, rfl, [], (List.append_nil _).symm, by simp⟩

/-- A flush at the end of a turn: only frames of queued commands are added. -/
theorem flushOutbox_resent : ∃ os, c.flushOutbox = { c with out := c.out ++ os } ∧
    ∀ o ∈ os, o.Resent c := by
  obtain ⟨os, h, hos⟩ := c.flushOutbox_spec
  exact ⟨os, h, fun o ho => .inr (hos o ho)⟩

theorem sendCommand_trans (req : Request) (id : String) :
    Trans c (.send req id) (c.sendCommand req id) := by
  unfold sendCommand
  split
  · exact .silent (Silent.refl c).emit
  · rename_i h
    dsimp only
    obtain ⟨os, heq, hos⟩ := flushOutbox_resent
      (emit
        { c with
          outbox := c.outbox.set id
            { id := id, idempotencyKey := id, kind := req.command.1, payload := some req.command.2 }
          pending := c.pending.set id ⟨false⟩ } (.issued id c.session.sessionId))
    rw [heq]
    refine .issued rfl (not_le.mp h) rfl rfl rfl rfl ⟨os, ?_, hos⟩
    simp [emit]

/-- The turn became live, or told its listeners: what was seen after `c`. -/
theorem live_spec : ∃ os, (c.setPhase .live).flushOutbox =
      { c with phase := .live, out := c.out ++ os } ∧ ∀ o ∈ os, o.Resent c := by
  obtain ⟨os, heq, hos⟩ := (c.setPhase .live).flushOutbox_resent
  refine ⟨.notified .live c.session.sessionId c.session.lastSeq :: os, ?_, ?_⟩
  · rw [heq]
    simp [setPhase, notify, emit]
  · intro o ho
    rcases List.mem_cons.mp ho with rfl | ho
    · exact .inl ⟨rfl, rfl⟩
    · exact hos o ho

theorem handleSnapshot_trans {a : Action} {snap : JsRecord} (ha : Delivered c a (.snapshot snap)) :
    Trans c a (c.handleSnapshot snap) := by
  unfold handleSnapshot
  dsimp only
  split
  · obtain ⟨os, heq, hos⟩ := (c.takeSnapshot snap).live_spec
    rw [heq]
    refine .accepted ha rfl rfl rfl rfl ⟨os, ?_, hos⟩
    simp [takeSnapshot, emit]
  · refine .accepted ha rfl rfl rfl rfl ⟨[.notified .syncing (c.takeSnapshot snap).session.sessionId
      (c.takeSnapshot snap).session.lastSeq], ?_, ?_⟩
    · simp [takeSnapshot, setPhase, notify, emit]
    · intro o ho
      rw [List.mem_singleton.mp ho]
      exact .inl ⟨rfl, rfl⟩

theorem acceptEvent_trans {a : Action} {ev : JsRecord} {q : ℚ} (ha : Delivered c a (.event ev))
    (hseq : seqOf ev = .finite q) (hgt : c.session.lastSeq < q) (hle : q ≤ c.session.lastSeq + 1) :
    Trans c a (c.acceptEvent (eventOf ev q)) := by
  unfold acceptEvent
  dsimp only
  split
  · obtain ⟨os, heq, hos⟩ := live_spec
      (emit { c with session := c.nextSession (eventOf ev q), gapSeq := none, gapCount := 0 }
        (.applied c.session.sessionId (eventOf ev q).seq))
    rw [heq]
    refine .applied ha hseq hgt hle rfl rfl rfl rfl ⟨os, ?_, hos⟩
    simp [emit, eventOf]
  · refine .applied ha hseq hgt hle rfl rfl rfl rfl
      ⟨[.notified c.phase (c.nextSession (eventOf ev q)).sessionId
        (c.nextSession (eventOf ev q)).lastSeq], ?_, ?_⟩
    · simp [notify, emit, eventOf]
    · intro o ho
      rw [List.mem_singleton.mp ho]
      exact .inl ⟨rfl, rfl⟩

theorem handleEvent_trans {a : Action} {ev : JsRecord} (env : Env)
    (ha : Delivered c a (.event ev)) : Trans c a (c.handleEvent ev env) := by
  unfold handleEvent
  dsimp only
  split
  · rename_i h
    exact .discarded ha h rfl
  · rename_i h
    split
    · exact .silent (noteGap_silent _ _ _)
    · rename_i q hq
      split
      · exact .silent (noteGap_silent _ _ _)
      · rename_i hle
        refine c.acceptEvent_trans ha hq ?_ (not_lt.mp hle)
        simpa [hq, JsNumber.le] using h

theorem unsettled_eq {v : JsValue} {id : String} (h : c.unsettled v = some id) :
    v = .str id ∧ c.pending.get id = some ⟨false⟩ := by
  unfold unsettled at h
  split at h
  · rename_i s
    split at h
    · rename_i p hp
      split at h
      · cases h
      · rename_i hset
        cases h
        refine ⟨rfl, ?_⟩
        rw [hp]
        cases p
        simp_all
    · cases h
  · cases h

theorem handleAck_trans {a : Action} {ack : JsRecord} (ha : Delivered c a (.ack ack)) :
    Trans c a (c.handleAck ack) := by
  unfold handleAck
  split
  · rename_i id h
    obtain ⟨hid, hp⟩ := c.unsettled_eq h
    exact .settled ha (.inl ⟨ack, rfl, hid, rfl⟩) hp rfl
  · exact .silent (.refl c)

theorem handleError_trans {a : Action} {err : JsRecord} (env : Env)
    (ha : Delivered c a (.error err)) : Trans c a (c.handleError err env) := by
  unfold handleError
  dsimp only
  split
  · split
    · have h : Silent c
          { c with error := some ⟨err.get "code", err.get "message"⟩, closedByUser := true } :=
        Silent.update (.refl c) rfl rfl rfl rfl rfl
      exact .silent ((h.detachAndClose env).setPhase _)
    · have h : Silent c { c with error := some ⟨err.get "code", err.get "message"⟩ } :=
        Silent.update (.refl c) rfl rfl rfl rfl rfl
      exact .silent (h.trans (notify_silent _))
  · split
    · exact .silent (.refl c)
    · rename_i id h
      obtain ⟨hid, hp⟩ := c.unsettled_eq h
      split
      · rename_i hok
        exact .settled ha (.inr ⟨err, rfl, hid, rfl, hok⟩) hp rfl
      · rename_i hbad
        exact .orphaned ha hid hp (by simpa using hbad) rfl

theorem onmessage_trans {i : SocketId} {s : Socket} {data : Option Json} {env : Env}
    (hs : c.sockets[i]? = some s) (hopen : s.readyState ≠ .closed) (hatt : s.attached = true) :
    Trans c (.message i data env) (c.onmessage i s.role data env) := by
  unfold onmessage
  split
  · exact .silent (.refl c)
  · rename_i e he
    split
    · rename_i hrole
      have hd : Delivered c (.message i data env) e.inbound :=
        ⟨i, data, env, s, e, rfl, hs, hopen, hatt, hrole, he, rfl⟩
      unfold handleEnvelope
      split
      · rename_i h
        exact c.handleSnapshot_trans (h ▸ hd)
      · rename_i h
        exact c.handleEvent_trans env (h ▸ hd)
      · rename_i h
        exact c.handleAck_trans (h ▸ hd)
      · rename_i h
        exact c.handleError_trans env (h ▸ hd)
      · exact .silent (.refl c)
      · exact .silent (.refl c)
    · exact .silent (pairingMessage_silent _ _ _ _)

/-- **The inversion of a turn.** -/
theorem turn_trans {a : Action} {c' : HarnessClient} (h : c.turn a = some c') : Trans c a c' := by
  cases a with
  | setIdentity identity =>
      cases h
      have hs : Silent c { c with identity := identity } := Silent.update (.refl c) rfl rfl rfl rfl rfl
      exact .silent (hs.trans (notify_silent _))
  | setLastSeq seq =>
      cases h
      exact c.setLastSeq_trans seq
  | reset =>
      cases h
      exact c.reset_trans
  | connect identity env =>
      cases h
      exact .of_opened (c.connect_cases identity env)
  | close =>
      cases h
      exact .silent c.close_silent
  | pair token url spki env =>
      cases h
      exact .silent (c.pair_silent token url spki env)
  | send req id =>
      cases h
      exact c.sendCommand_trans req id
  | resume env =>
      obtain rfl := of_turn_resume h
      exact .of_opened (c.resumePair_cases env)
  | opened i =>
      obtain ⟨s, -, -, rfl⟩ := of_turn_opened h
      exact .silent (((Silent.refl c).modifySocket _ _).trans (onopen_silent _ _ _))
  | message i data env =>
      obtain ⟨s, hs, hopen, rfl⟩ := of_turn_message h
      split
      · rename_i hatt
        exact c.onmessage_trans hs hopen hatt
      · exact .silent (.refl c)
  | closed i code env =>
      obtain ⟨s, -, -, rfl⟩ := of_turn_closed h
      have hm : Silent c (c.modifySocket i fun s => { s with readyState := .closed }) :=
        (Silent.refl c).modifySocket i _
      split
      · exact .silent (hm.trans (onclose_silent _ _ _ _ _))
      · exact .silent hm
  | errored i =>
      obtain ⟨s, -, rfl⟩ := of_turn_errored h
      split
      · exact .silent (onerror_silent _ _ _)
      · exact .silent (.refl c)
  | closing i =>
      obtain rfl := of_turn_closing h
      exact .silent ((Silent.refl c).modifySocket _ _)
  | timer env =>
      have hs : Silent c { c with reconnectTimer := false, retryInMs := none } :=
        Silent.update (.refl c) rfl rfl rfl rfl rfl
      obtain ⟨-, rfl⟩ | ⟨-, rfl⟩ := of_turn_timer h
      · exact .silent hs
      · exact .of_opened ((openNormalSocket_cases _ env).imp hs.trans hs.renewed)

/-- A step is a turn that started with nothing seen. -/
theorem step_trans {a : Action} {c' : HarnessClient} {os : List Obs}
    (h : c.step a = some (c', os)) :
    ∃ d, Trans { c with out := [] } a d ∧ c' = { d with out := [] } ∧ os = d.out := by
  obtain ⟨d, hd, he⟩ := Option.map_eq_some_iff.mp h
  cases he
  exact ⟨d, turn_trans _ hd, rfl, rfl⟩

end HarnessClient

end Harness.Client
