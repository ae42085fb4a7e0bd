/-
# Harness.Client.Lifecycle — what stops the client, and what keeps it going.

`close()` and a terminal error frame stop the client: both set `closedByUser`, which the timer, the close
handler and `scheduleReconnect` look at. `closed_stays_closed` says which callbacks leave a stopped
client alone. Three things are not covered by the flag. The message handler of a socket does not look at
it, and `close()` leaves that handler in place, where `detachAndClose` takes it away; a `pair` that was
in flight goes on to `connect`; and `reset()` clears the flag, so that after `close()` and `reset()`, which
is how the apps forget a device, the close event of the old socket schedules a reconnect.

`never_wedges` is the other half: a client that was not stopped and claims to be on its way has a timer
running, or a socket whose close event will start one.
-/
import Harness.Client.Identity
import Harness.Client.Sockets

namespace Harness.Client

open Lib
open Wire (Json)

/-! ## Stopping -/

/-- What the platform runs: callbacks of sockets and timers, and the rest of a `pair`. -/
def Action.isCallback : Action → Bool
  | .resume _ | .opened _ | .message _ _ _ | .closed _ _ _ | .errored _ | .closing _ | .timer _ => true
  | _ => false

/-- The calls that are meant to start a stopped client. -/
def Action.reopens : Action → Bool
  | .connect _ _ | .pair _ _ _ _ => true
  | _ => false

/-- The frame is a terminal error. -/
def Inbound.isTerminal : Inbound → Bool
  | .error err => (err.get "commandId").isFalsy && isTerminalCode (err.get "code")
  | _ => false

/-- **`c.Stops a`** — the turn is `close()`, or handles a terminal error. -/
def HarnessClient.Stops (c : HarnessClient) (a : Action) : Prop :=
  a = .close ∨ ∃ f, Delivered c a f ∧ f.isTerminal = true

/-- What a stopped client must not be seen doing, in a turn that starts in `phase`. -/
def Obs.Disturbs (phase : ConnPhase) : Obs → Prop
  | .created _ | .applied _ _ => True
  | .notified p _ _ => p ≠ phase
  | _ => False

/-- **`Inert c c' os`** — the turn created no socket, did not change the phase and applied no event. -/
structure Inert (c c' : HarnessClient) (os : List Obs) : Prop where
  phase : c'.phase = c.phase
  seen : ∀ o ∈ os, ¬ o.Disturbs c.phase

namespace HarnessClient

variable (c : HarnessClient)

/-- The event comes right after `lastSeq`. -/
def isNext (ev : JsRecord) : Bool :=
  match seqOf ev with
  | .finite q => decide (c.session.lastSeq < q ∧ q ≤ c.session.lastSeq + 1)
  | .infinite _ => false

/-- The frame leaves a stopped client alone. -/
def harmlessFrame : Inbound → Bool
  | .snapshot _ => false
  | .event ev => (seqOf ev).le c.session.lastSeq || (c.closedByUser && !c.isNext ev)
  | .error err => !(Inbound.error err).isTerminal || c.phase == .unauthorized
  | .ack _ | .paired _ | .other => true

/-- The socket, if it is wired, hands what it gets to the client. -/
def wired (i : SocketId) : Bool :=
  (c.sockets[i]?).any fun s => s.role == .normal && s.attached && s.readyState != .closed

/-- **`c.harmless a`** — the callback leaves a stopped client alone: no pairing is continued, no wired
socket brings a snapshot, the next event or the first terminal error, and what would reconnect finds
`closedByUser` still set. -/
def harmless : Action → Bool
  | .resume _ => false
  | .timer _ => c.closedByUser
  | .closed i _ _ => !c.wired i || c.closedByUser || c.phase == .unauthorized
  | .message i data _ => !c.wired i || (data.bind parseEnvelope).all fun e => c.harmlessFrame e.inbound
  | _ => true

/-! ## The phase after a method -/

theorem openNormalSocket_phase (env : Env) :
    (c.openNormalSocket env).phase = .connecting ∨ (c.openNormalSocket env).phase = .reconnecting := by
  unfold openNormalSocket
  generalize hd : c.setPhase (if c.session.sessionId.isNull then .connecting else .reconnecting) = d
  have hphase : d.phase = .connecting ∨ d.phase = .reconnecting := by
    rw [← hd]
    show (if _ then _ else _) = _ ∨ (if _ then _ else _) = _
    split
    · exact .inl rfl
    · exact .inr rfl
  have hdrop : d.dropSession.phase = d.phase := by
    unfold dropSession
    split <;> rfl
  dsimp only
  split
  · exact hphase
  · unfold trySocket
    split
    · unfold scheduleReconnect
      split
      · show d.dropSession.phase = _ ∨ d.dropSession.phase = _
        rwa [hdrop]
      · exact .inr rfl
    · show d.dropSession.phase = _ ∨ d.dropSession.phase = _
      rwa [hdrop]

theorem resumePair_phase {env : Env} (h : c.resumptions.isEmpty = false) :
    (c.resumePair env).phase = .connecting ∨ (c.resumePair env).phase = .reconnecting := by
  unfold resumePair
  split
  · rename_i hr
    rw [hr] at h
    cases h
  · exact openNormalSocket_phase _ env

theorem flushOutbox_phase : c.flushOutbox.phase = c.phase := by
  obtain ⟨os, h, -⟩ := c.flushOutbox_spec
  rw [h]

theorem handleSnapshot_phase (snap : JsRecord) :
    (c.handleSnapshot snap).phase = .live ∨ (c.handleSnapshot snap).phase = .syncing := by
  unfold handleSnapshot
  dsimp only
  split
  · exact .inl (flushOutbox_phase _)
  · exact .inr rfl

theorem detachAndClose_phase (env : Env) : (c.detachAndClose env).phase = c.phase := by
  unfold detachAndClose
  split <;> rfl

theorem detachAndClose_out (env : Env) : (c.detachAndClose env).out = c.out := by
  unfold detachAndClose
  split <;> rfl

theorem detachAndClose_closedByUser (env : Env) :
    (c.detachAndClose env).closedByUser = c.closedByUser := by
  unfold detachAndClose
  split <;> rfl

theorem scheduleReconnect_phase (env : Env) (h : c.closedByUser = false) :
    (c.scheduleReconnect env).phase = .reconnecting := by
  unfold scheduleReconnect
  rw [h]
  rfl

theorem countGap_closedByUser (seq : JsNumber) : (c.countGap seq).closedByUser = c.closedByUser :=
  congrArg Wiring.closedByUser (c.wiring_countGap seq)

theorem noteGap_phase (seq : JsNumber) (env : Env) (h : c.closedByUser = false) :
    (c.noteGap seq env).phase = .reconnecting := by
  refine scheduleReconnect_phase _ env ?_
  rw [detachAndClose_closedByUser]
  exact (c.countGap_closedByUser seq).trans h

theorem applied_mem_acceptEvent (ev : EventPayload) :
    .applied c.session.sessionId ev.seq ∈ (c.acceptEvent ev).out := by
  unfold acceptEvent
  dsimp only
  split
  · obtain ⟨os, heq, -⟩ := live_spec
      (emit { c with session := c.nextSession ev, gapSeq := none, gapCount := 0 }
        (.applied c.session.sessionId ev.seq))
    rw [heq]
    simp [emit]
  · simp [notify, emit]

/-- A normal socket closes for a client that is idle and was not stopped. -/
theorem onclose_phase (i : SocketId) (code : Option Nat) (env : Env) (hby : c.closedByUser = false)
    (hidle : c.phase = .idle) :
    (c.onclose i .normal code env).phase = .unauthorized ∨
      (c.onclose i .normal code env).phase = .reconnecting := by
  unfold onclose
  dsimp only
  rw [if_neg (by simp [hby])]
  split
  · exact .inl rfl
  · rw [if_neg (by simp [hidle])]
    exact .inr (c.scheduleReconnect_phase env hby)

theorem isTerminal_error {err : JsRecord} : (Inbound.error err).isTerminal = true ↔
    (err.get "commandId").isFalsy = true ∧ isTerminalCode (err.get "code") = true := by
  simp [Inbound.isTerminal]

/-- The terminal branch of `handleError`. -/
theorem handleError_terminal {err : JsRecord} (h : (Inbound.error err).isTerminal = true) (env : Env) :
    (c.handleError err env).phase = .unauthorized := by
  obtain ⟨hfalsy, hcode⟩ := isTerminal_error.mp h
  unfold handleError
  dsimp only
  rw [if_pos hfalsy, if_pos hcode]
  rfl

theorem handleEnvelope_terminal {e : Envelope} (h : e.inbound.isTerminal = true) (env : Env) :
    (c.handleEnvelope e env).phase = .unauthorized := by
  unfold handleEnvelope
  cases he : e.inbound with
  | error err => exact c.handleError_terminal (he ▸ h) env
  | _ =>
      rw [he] at h
      cases h

/-! ## Harmless turns -/

variable {c}

/-- Only the phase at the start counts. -/
theorem inert_start {c₁ d : HarnessClient} {os : List Obs} (h : Inert c₁ d os)
    (hphase : c₁.phase = c.phase) : Inert c d os := by
  refine ⟨h.phase.trans hphase, ?_⟩
  rw [← hphase]
  exact h.seen

/-- What a turn adds to be seen, when it does not touch the phase. -/
theorem inert_emit {d : HarnessClient} {o : Obs} (hout : c.out = []) (hphase : d.phase = c.phase)
    (hseen : d.out = c.out ++ [o]) (ho : ¬ o.Disturbs c.phase) : Inert c d d.out := by
  refine ⟨hphase, ?_⟩
  rw [hseen, hout]
  simpa using ho

theorem inert_unseen {d : HarnessClient} (hout : c.out = []) (hphase : d.phase = c.phase)
    (hseen : d.out = c.out) : Inert c d d.out := by
  refine ⟨hphase, ?_⟩
  rw [hseen, hout]
  simp

/-- A gap noted by a stopped client closes its socket and schedules nothing. -/
theorem inert_noteGap (hout : c.out = []) (hby : c.closedByUser = true) (seq : JsNumber) (env : Env) :
    Inert c (c.noteGap seq env) (c.noteGap seq env).out := by
  obtain ⟨hphase, hout'⟩ : (c.countGap seq).phase = c.phase ∧ (c.countGap seq).out = c.out := by
    unfold countGap
    dsimp only
    split <;> split <;> exact ⟨rfl, rfl⟩
  have hw : (((c.countGap seq).emit (.gap seq)).detachAndClose env).closedByUser = true := by
    rw [detachAndClose_closedByUser]
    exact (c.countGap_closedByUser seq).trans hby
  have hnote : c.noteGap seq env = ((c.countGap seq).emit (.gap seq)).detachAndClose env := by
    unfold noteGap scheduleReconnect
    rw [if_pos hw]
  rw [hnote]
  refine inert_emit (o := .gap seq) hout ?_ ?_ (by simp [Obs.Disturbs])
  · rw [detachAndClose_phase]
    exact hphase
  · rw [detachAndClose_out]
    exact congrArg (· ++ [Obs.gap seq]) hout'

theorem inert_handleEvent (hout : c.out = []) {ev : JsRecord} {env : Env}
    (h : c.harmlessFrame (.event ev) = true) :
    Inert c (c.handleEvent ev env) (c.handleEvent ev env).out := by
  rw [harmlessFrame, Bool.or_eq_true, Bool.and_eq_true, Bool.not_eq_true'] at h
  unfold handleEvent
  dsimp only
  split
  · exact inert_emit hout rfl rfl (by simp [Obs.Disturbs])
  · rename_i hnew
    obtain ⟨hby, hnext⟩ := h.resolve_left hnew
    split
    · exact inert_noteGap hout hby _ env
    · rename_i q hq
      split
      · exact inert_noteGap hout hby _ env
      · rename_i hle
        rw [hq, JsNumber.le, decide_eq_true_eq, not_le] at hnew
        simp [isNext, hq, hnew, not_lt.mp hle] at hnext

theorem inert_handleError (hout : c.out = []) {err : JsRecord} {env : Env}
    (h : c.harmlessFrame (.error err) = true) :
    Inert c (c.handleError err env) (c.handleError err env).out := by
  rw [harmlessFrame, Bool.or_eq_true, Bool.not_eq_true', beq_iff_eq] at h
  unfold handleError
  dsimp only
  split
  · rename_i hfalsy
    split
    · rename_i hcode
      have hterminal := isTerminal_error.mpr ⟨hfalsy, hcode⟩
      have hphase : c.phase = .unauthorized := h.resolve_left (by simp [hterminal])
      refine inert_emit (o := .notified .unauthorized c.session.sessionId c.session.lastSeq) hout
        hphase.symm ?_ (by simp [Obs.Disturbs, hphase])
      have hsilent := (Silent.update (.refl c) rfl rfl rfl rfl rfl : Silent c
        { c with error := some ⟨err.get "code", err.get "message"⟩, closedByUser := true }).detachAndClose env
      simp only [setPhase, notify, emit, detachAndClose_out, hsilent.session]
    · exact inert_emit hout rfl rfl (by simp [Obs.Disturbs])
  · split
    · exact inert_unseen hout rfl rfl
    · split
      · exact inert_emit hout rfl rfl (by simp [Obs.Disturbs])
      · exact inert_emit hout rfl rfl (by simp [Obs.Disturbs])

theorem inert_handleEnvelope (hout : c.out = []) {e : Envelope} {env : Env}
    (h : c.harmlessFrame e.inbound = true) :
    Inert c (c.handleEnvelope e env) (c.handleEnvelope e env).out := by
  unfold handleEnvelope
  split
  · rename_i he
    rw [he] at h
    cases h
  · rename_i he
    exact inert_handleEvent hout (he ▸ h)
  · unfold handleAck
    split
    · exact inert_emit hout rfl rfl (by simp [Obs.Disturbs])
    · exact inert_unseen hout rfl rfl
  · rename_i he
    exact inert_handleError hout (he ▸ h)
  · exact inert_unseen hout rfl rfl
  · exact inert_unseen hout rfl rfl

/-- The handlers of a pairing attempt settle it, at most. -/
theorem inert_finishPairing (hout : c.out = []) {i : SocketId} {role : SocketRole}
    {fn : HarnessClient → HarnessClient}
    (hfn : ∀ d : HarnessClient, d.out = [] → Inert d (fn d) (fn d).out) :
    Inert c (c.finishPairing i role fn) (c.finishPairing i role fn).out := by
  unfold finishPairing
  split
  · exact inert_start (hfn _ hout) rfl
  · exact inert_unseen hout rfl rfl

theorem inert_pairingMessage (hout : c.out = []) (i : SocketId) (role : SocketRole) (e : Envelope) :
    Inert c (c.pairingMessage i role e) (c.pairingMessage i role e).out := by
  unfold pairingMessage
  split
  · refine inert_finishPairing hout fun d hd => ?_
    exact inert_emit hd rfl rfl (by simp [Obs.Disturbs])
  · refine inert_finishPairing hout fun d hd => inert_emit hd rfl rfl ?_
    split <;> simp [Obs.Disturbs]
  · exact inert_unseen hout rfl rfl

theorem wired_iff {i : SocketId} {s : Socket} (hi : c.sockets[i]? = some s) :
    c.wired i = true ↔ s.Wired := by
  rw [wired, hi]
  simp only [Option.any_some, Bool.and_eq_true, beq_iff_eq, bne_iff_ne]
  constructor
  · rintro ⟨⟨hrole, hatt⟩, hopen⟩
    exact ⟨hrole, hatt, hopen⟩
  · rintro ⟨hrole, hatt, hopen⟩
    exact ⟨⟨hrole, hatt⟩, hopen⟩

theorem inert_onmessage (hout : c.out = []) {i : SocketId} {s : Socket} {data : Option Json} {env : Env}
    (hw : s.role = .normal → ∀ e, data.bind parseEnvelope = some e → c.harmlessFrame e.inbound = true) :
    Inert c (c.onmessage i s.role data env) (c.onmessage i s.role data env).out := by
  unfold onmessage
  split
  · exact inert_unseen hout rfl rfl
  · rename_i e he
    split
    · rename_i hrole
      exact inert_handleEnvelope hout (hw hrole e he)
    · exact inert_pairingMessage hout _ _ _

theorem inert_onclose (hout : c.out = []) {i : SocketId} {role : SocketRole} {code : Option Nat}
    {env : Env} (hw : role = .normal → c.closedByUser = true ∨ c.phase = .unauthorized) :
    Inert c (c.onclose i role code env) (c.onclose i role code env).out := by
  unfold onclose
  split
  · refine inert_finishPairing hout fun d hd => inert_emit hd rfl rfl ?_
    simp [Obs.Disturbs]
  · split
    · exact inert_unseen hout rfl rfl
    · rename_i hby
      have hphase : c.phase = .unauthorized := (hw rfl).resolve_left hby
      split
      · exact inert_emit hout hphase.symm rfl (by simp [Obs.Disturbs, hphase])
      · rw [if_pos (.inl hphase)]
        exact inert_unseen hout rfl rfl

/-- A harmless callback leaves the client alone. -/
theorem inert_turn {a : Action} {d : HarnessClient} (hout : c.out = []) (hcall : a.isCallback = true)
    (ha : c.harmless a = true) (ht : c.turn a = some d) : Inert c d d.out := by
  cases a with
  | setIdentity _ => cases hcall
  | setLastSeq _ => cases hcall
  | reset => cases hcall
  | connect _ _ => cases hcall
  | close => cases hcall
  | pair _ _ _ _ => cases hcall
  | send _ _ => cases hcall
  | resume env => cases ha
  | opened i =>
      obtain ⟨s, -, -, rfl⟩ := of_turn_opened ht
      unfold onopen
      split <;> exact inert_emit hout rfl rfl (by simp [Obs.Disturbs])
  | message i data env =>
      obtain ⟨s, hi, hopen, rfl⟩ := of_turn_message ht
      split
      · rename_i hatt
        refine inert_onmessage hout fun hrole e he => ?_
        rw [harmless, (wired_iff hi).mpr ⟨hrole, hatt, hopen⟩, he] at ha
        exact ha
      · exact inert_unseen hout rfl rfl
  | closed i code env =>
      obtain ⟨s, hi, hopen, rfl⟩ := of_turn_closed ht
      split
      · rename_i hatt
        refine inert_start (inert_onclose (c := c.modifySocket i _) hout fun hrole => ?_) rfl
        rw [harmless, (wired_iff hi).mpr ⟨hrole, hatt, hopen⟩] at ha
        simpa [modifySocket] using ha
      · exact inert_unseen hout rfl rfl
  | errored i =>
      obtain ⟨s, -, rfl⟩ := of_turn_errored ht
      split
      · unfold onerror
        split
        · refine inert_finishPairing hout fun d hd => inert_emit hd rfl rfl ?_
          simp [Obs.Disturbs]
        · exact inert_unseen hout rfl rfl
      · exact inert_unseen hout rfl rfl
  | closing i =>
      obtain rfl := of_turn_closing ht
      exact inert_unseen hout rfl rfl
  | timer env =>
      obtain ⟨-, rfl⟩ | ⟨hby, rfl⟩ := of_turn_timer ht
      · exact inert_unseen hout rfl rfl
      · rw [harmless, hby] at ha
        cases ha

/-! ## The other callbacks -/

/-- The phase of a stopped client. -/
def AtRest (phase : ConnPhase) : Prop := phase = .idle ∨ phase = .unauthorized

/-- A turn that ends in another phase. -/
theorem disturbed_of_phase {d : HarnessClient} {os : List Obs} (h : d.phase ≠ c.phase) :
    ¬ Inert c d os :=
  fun hi => h hi.phase

/-- The client opens a socket: it is on its way again. -/
theorem disturbed_of_opening {d : HarnessClient} {os : List Obs} (hrest : AtRest c.phase)
    (h : d.phase = .connecting ∨ d.phase = .reconnecting) : ¬ Inert c d os := by
  refine disturbed_of_phase ?_
  rcases hrest with hc | hc <;> rcases h with hd | hd <;> rw [hc, hd] <;> decide

theorem disturbed_handleEvent (hrest : AtRest c.phase) {ev : JsRecord} {env : Env}
    (h : c.harmlessFrame (.event ev) = false) :
    ¬ Inert c (c.handleEvent ev env) (c.handleEvent ev env).out := by
  rw [harmlessFrame, Bool.or_eq_false_iff] at h
  obtain ⟨hnew, hnext⟩ := h
  -- what is not the next event is a gap, and no flag keeps it from reconnecting
  have hgap (seq : JsNumber) (hisNext : c.isNext ev = false) :
      ¬ Inert c (c.noteGap seq env) (c.noteGap seq env).out := by
    have hby : c.closedByUser = false := by simpa [hisNext] using hnext
    exact disturbed_of_opening hrest (.inr (c.noteGap_phase seq env hby))
  unfold handleEvent
  dsimp only
  rw [if_neg (by simp [hnew])]
  split
  · rename_i hq
    exact hgap _ (by rw [isNext, hq])
  · rename_i q hq
    split
    · rename_i hlt
      refine hgap _ ?_
      rw [isNext, hq]
      exact decide_eq_false fun hle => absurd hlt (not_lt.mpr hle.2)
    · intro hi
      exact hi.seen _ (c.applied_mem_acceptEvent (eventOf ev q)) trivial

theorem disturbed_handleEnvelope (hrest : AtRest c.phase) {e : Envelope} {env : Env}
    (h : c.harmlessFrame e.inbound = false) :
    ¬ Inert c (c.handleEnvelope e env) (c.handleEnvelope e env).out := by
  unfold handleEnvelope
  split
  · rename_i snap _
    refine disturbed_of_phase ?_
    rcases hrest with hc | hc <;> rcases c.handleSnapshot_phase snap with hd | hd <;> rw [hc, hd] <;> decide
  · rename_i he
    exact disturbed_handleEvent hrest (he ▸ h)
  · rename_i he
    rw [he] at h
    cases h
  · rename_i err he
    rw [he, harmlessFrame, Bool.or_eq_false_iff, Bool.not_eq_false', beq_eq_false_iff_ne] at h
    refine disturbed_of_phase ?_
    rw [c.handleError_terminal h.1 env]
    exact h.2.symm
  · rename_i he
    rw [he] at h
    cases h
  · rename_i he
    rw [he] at h
    cases h

/-- A callback that is not harmless is noticed. -/
theorem disturbed_turn {a : Action} {d : HarnessClient} (hrest : AtRest c.phase)
    (ha : c.harmless a = false) (ht : c.turn a = some d) : ¬ Inert c d d.out := by
  cases a with
  | setIdentity _ => cases ha
  | setLastSeq _ => cases ha
  | reset => cases ha
  | connect _ _ => cases ha
  | close => cases ha
  | pair _ _ _ _ => cases ha
  | send _ _ => cases ha
  | opened _ => cases ha
  | errored _ => cases ha
  | closing _ => cases ha
  | resume env =>
      obtain rfl := of_turn_resume ht
      refine disturbed_of_opening hrest (c.resumePair_phase ?_)
      simp only [turn] at ht
      split at ht
      · cases ht
      · rename_i hr
        exact Bool.eq_false_iff.mpr hr
  | timer env =>
      obtain ⟨hby, rfl⟩ | ⟨-, rfl⟩ := of_turn_timer ht
      · rw [harmless, hby] at ha
        cases ha
      · exact disturbed_of_opening hrest (openNormalSocket_phase _ env)
  | message i data env =>
      obtain ⟨s, hi, -, rfl⟩ := of_turn_message ht
      rw [harmless, Bool.or_eq_false_iff, Bool.not_eq_false', wired_iff hi] at ha
      obtain ⟨hw, hframe⟩ := ha
      rw [if_pos hw.attached, hw.role, onmessage]
      cases he : data.bind parseEnvelope with
      | none =>
          rw [he] at hframe
          cases hframe
      | some e =>
          rw [he] at hframe
          exact disturbed_handleEnvelope hrest hframe
  | closed i code env =>
      obtain ⟨s, hi, -, rfl⟩ := of_turn_closed ht
      rw [harmless, Bool.or_eq_false_iff, Bool.or_eq_false_iff, Bool.not_eq_false', wired_iff hi,
        beq_eq_false_iff_ne] at ha
      obtain ⟨⟨hw, hby⟩, hphase⟩ := ha
      have hidle : c.phase = .idle := hrest.resolve_right hphase
      rw [if_pos hw.attached, hw.role]
      refine disturbed_of_phase ?_
      rw [hidle]
      rcases onclose_phase (c.modifySocket i _) i code env hby hidle with h | h
      · rw [h]
        decide
      · rw [h]
        decide

end HarnessClient

/-! ## Closed stays closed -/

/-- **`Lulled`** — the condition on a step of a stopped client: the caller does not start it again, and
what the platform runs is harmless. -/
structure Lulled (_ : List Obs) (c : HarnessClient) (a : Action) : Prop where
  reopens : a.reopens = false
  harmless : c.harmless a = true

theorem inert_step {c c' : HarnessClient} {a : Action} {os : List Obs} (hcall : a.isCallback = true)
    (ha : c.harmless a = true) (hs : system.step c a = some (c', os)) : Inert c c' os := by
  obtain ⟨d, hd, he⟩ := Option.map_eq_some_iff.mp hs
  cases he
  have h : Inert { c with out := [] } d d.out := HarnessClient.inert_turn rfl hcall ha hd
  exact ⟨h.phase, h.seen⟩

theorem disturbed_step {c c' : HarnessClient} {a : Action} {os : List Obs}
    (hrest : HarnessClient.AtRest c.phase) (ha : c.harmless a = false)
    (hs : system.step c a = some (c', os)) : ¬ Inert c c' os := by
  obtain ⟨d, hd, he⟩ := Option.map_eq_some_iff.mp hs
  cases he
  have h : ¬ Inert { c with out := [] } d d.out := HarnessClient.disturbed_turn hrest ha hd
  exact fun hi => h ⟨hi.phase, hi.seen⟩

/-- A stopped client rests. -/
theorem atRest_of_stops {c c' : HarnessClient} {a : Action} {os : List Obs} (h : c.Stops a)
    (hs : system.step c a = some (c', os)) : HarnessClient.AtRest c'.phase := by
  obtain ⟨d, hd, he⟩ := Option.map_eq_some_iff.mp hs
  cases he
  rcases h with rfl | ⟨f, ⟨i, data, env, s, e, rfl, hi, hopen, hatt, hrole, hdata, rfl⟩, hterm⟩
  · cases hd
    exact .inl rfl
  · have hturn := HarnessClient.turn_message (c := { c with out := [] }) hi hopen data env
    obtain rfl := Option.some.inj (hd.symm.trans hturn)
    rw [if_pos hatt, hrole, HarnessClient.onmessage, hdata]
    exact .inr (HarnessClient.handleEnvelope_terminal _ hterm env)

/-- The client rests until the caller starts it again. -/
theorem atRest_step {tr os : List Obs} {c c' : HarnessClient} {a : Action}
    (h : HarnessClient.AtRest c.phase) (hP : Lulled tr c a) (hs : system.step c a = some (c', os)) :
    HarnessClient.AtRest c'.phase := by
  by_cases hcall : a.isCallback = true
  · rw [(inert_step hcall hP.harmless hs).phase]
    exact h
  · obtain ⟨d, hd, he⟩ := Option.map_eq_some_iff.mp hs
    cases he
    cases a with
    | setIdentity identity =>
        cases hd
        exact h
    | setLastSeq seq =>
        cases hd
        show HarnessClient.AtRest (HarnessClient.setLastSeq _ seq).phase
        unfold HarnessClient.setLastSeq
        split
        · split <;> exact h
        · exact h
    | reset =>
        cases hd
        exact h
    | close =>
        cases hd
        exact .inl rfl
    | send req id =>
        cases hd
        show HarnessClient.AtRest (HarnessClient.sendCommand _ req id).phase
        unfold HarnessClient.sendCommand
        split
        · exact h
        · rw [HarnessClient.flushOutbox_phase]
          exact h
    | connect identity env => cases hP.reopens
    | pair token url spki env => cases hP.reopens
    | _ => exact absurd rfl hcall

/-- **Closed stays closed.** After the client was stopped, and as long as every step is lulled, a callback
leaves it alone exactly when it is harmless. -/
theorem closed_stays_closed {c₀ c₁ : HarnessClient} {a₀ : Action} {os₀ : List Obs} (hstop : c₀.Stops a₀)
    (hs₀ : system.step c₀ a₀ = some (c₁, os₀)) {tr : List Obs} {c : HarnessClient}
    (hrun : system.Run Lulled os₀ c₁ tr c) :
    ∀ a c' os, a.isCallback = true → system.step c a = some (c', os) →
      (Inert c c' os ↔ c.harmless a = true) := by
  have hrest : HarnessClient.AtRest c.phase :=
    hrun.invariant (I := fun _ u => HarnessClient.AtRest u.phase) (atRest_of_stops hstop hs₀)
      fun t u a u' os _ ih hP hs => atRest_step ih hP hs
  intro a c' os hcall hs
  constructor
  · intro hi
    by_contra hharm
    exact disturbed_step hrest (Bool.eq_false_iff.mpr hharm) hs hi
  · intro hharm
    exact inert_step hcall hharm hs

namespace Sample

def shortSnapshot : Wire.Envelope := .snapshot ⟨"s1", "idle", "", 0, [], [], []⟩

/-- A live client. -/
def live : List Action := [.connect none {}, .opened 0, hostFrame 0 shortSnapshot]

/-- The close event of the socket that was just closed. -/
def closeEvent : Action := .closed 0 (some 1000) {}

/-- What a host answers to a pairing token. -/
def pairedFrame : Wire.Envelope := .paired (Wire.generateID (Vector.replicate 16 0)) "phone" "cred"

/-- The user pairs, and gives up before the host has answered. -/
def pairing : List Action := [.pair "token" none none {}, .opened 0]

end Sample

/-- The close event after `close()`. -/
theorem closed_stays_closed_close :
    ∃ c₀ c₁ c' os₀ os, system.step c₀ .close = some (c₁, os₀) ∧
      system.step c₁ Sample.closeEvent = some (c', os) ∧ c₁.closedByUser = true ∧
      (Inert c₁ c' os ↔ c₁.harmless Sample.closeEvent = true) := by
  have hexec : ((system.exec (fun _ _ _ => true) []
      (.new "wss://host:7432/ws" .hello none none) Sample.live).bind fun r =>
        (system.step r.2 .close).map fun x =>
          (x.1.closedByUser, (system.step x.1 Sample.closeEvent).isSome)) = some (true, true) := by
    decide +kernel
  obtain ⟨r, -, hr⟩ := Option.bind_eq_some_iff.mp hexec
  obtain ⟨⟨c₁, os₀⟩, hs₀, hfacts⟩ := Option.map_eq_some_iff.mp hr
  simp only [Prod.mk.injEq] at hfacts
  obtain ⟨⟨c', os⟩, hs⟩ := Option.isSome_iff_exists.mp hfacts.2
  exact ⟨r.2, c₁, c', os₀, os, hs₀, hs, hfacts.1,
    closed_stays_closed (.inl rfl) hs₀ .refl _ c' os rfl hs⟩

/-- The host's answer arrives after `close()`: `pair` goes on, and connects. -/
theorem pairing_reopens :
    ¬ ∀ c₀ a₀ c₁ os₀, c₀.Stops a₀ → system.step c₀ a₀ = some (c₁, os₀) →
      ∀ tr c, system.Run (fun _ _ a => a.reopens = false) os₀ c₁ tr c →
        ∀ a c' os, a.isCallback = true → system.step c a = some (c', os) → Inert c c' os := by
  intro h
  have hexec : ((system.exec (fun _ _ _ => true) []
      (.new "wss://host:7432/ws" .hello none none) Sample.pairing).bind fun r =>
        (system.step r.2 .close).bind fun x =>
          (system.step x.1 (hostFrame 0 Sample.pairedFrame)).bind fun y =>
            (system.step y.1 (.resume {})).map fun z => (y.1.phase, z.1.phase)) =
      some (.idle, .connecting) := by decide +kernel
  obtain ⟨r, -, hr⟩ := Option.bind_eq_some_iff.mp hexec
  obtain ⟨⟨c₁, os₀⟩, hs₀, hx⟩ := Option.bind_eq_some_iff.mp hr
  obtain ⟨⟨c, os⟩, hs₁, hy⟩ := Option.bind_eq_some_iff.mp hx
  obtain ⟨⟨c', os'⟩, hs, hfacts⟩ := Option.map_eq_some_iff.mp hy
  simp only [Prod.mk.injEq] at hfacts
  have hrun : system.Run (fun _ _ a => a.reopens = false) os₀ c₁ (os₀ ++ os) c := .single rfl hs₁
  have hphase := (h r.2 .close c₁ os₀ (.inl rfl) hs₀ _ c hrun (.resume {}) c' os' rfl hs).phase
  rw [hfacts.1, hfacts.2] at hphase
  cases hphase

/-! ## What keeps the client going -/

/-- An identity as the type of `connect` has it: the credential is a string. -/
def Identity.Typed (identity : Identity) : Prop := ∃ credential, identity.credential = .str credential

/-- **`Plain`** — `pair()` and `reset()` are not used. -/
def Plain (_ : List Obs) (_ : HarnessClient) : Action → Prop
  | .setIdentity identity | .connect identity _ => ∀ id ∈ identity, id.Typed
  | .reset | .pair _ _ _ _ | .resume _ => False
  | _ => True

/-- The phases in which the client is connected, or says it will be. -/
def ConnPhase.isActive : ConnPhase → Bool
  | .connecting | .syncing | .live | .reconnecting => true
  | _ => false

/-- **`c.Driven`** — a reconnect timer is running, or the close event of some socket will start one. -/
def HarnessClient.Driven (c : HarnessClient) : Prop :=
  c.reconnectTimer = true ∨ ∃ (i : SocketId) (s : Socket), c.sockets[i]? = some s ∧ s.Wired

/-- **`c.Sustained`** — a client that was not stopped is driven while its phase is an active one; its
sockets are normal ones, and its identity can be sent. -/
structure HarnessClient.Sustained (c : HarnessClient) : Prop where
  identity : ∀ id ∈ c.identity, id.Typed
  normal : ∀ s ∈ c.sockets, s.role = .normal
  driven : c.closedByUser = false → c.phase.isActive = true → c.Driven

namespace HarnessClient

variable {c c' : HarnessClient}

/-- Nothing this is about was touched. -/
theorem Sustained.same (h : c.Sustained) (hidentity : c'.identity = c.identity)
    (hwiring : c'.wiring = c.wiring) (hphase : c'.phase = c.phase)
    (htimer : c'.reconnectTimer = c.reconnectTimer) : c'.Sustained where
  identity := hidentity ▸ h.identity
  normal := by
    have hsockets : c'.sockets = c.sockets := congrArg Wiring.sockets hwiring
    rw [hsockets]
    exact h.normal
  driven hby hactive := by
    have hsockets : c'.sockets = c.sockets := congrArg Wiring.sockets hwiring
    have hdriven := h.driven ((congrArg Wiring.closedByUser hwiring).symm.trans hby) (hphase ▸ hactive)
    unfold Driven
    rw [htimer, hsockets]
    exact hdriven

theorem modify_normal {l : List Socket} (h : ∀ s ∈ l, s.role = .normal) (i : SocketId)
    {f : Socket → Socket} (hrole : ∀ s, (f s).role = s.role) :
    ∀ s ∈ l.modify i f, s.role = .normal := by
  intro s hs
  obtain ⟨j, hj, rfl⟩ := List.mem_iff_getElem.mp hs
  rw [List.getElem_modify]
  split
  · rw [hrole]
    exact h _ (List.getElem_mem _)
  · exact h _ (List.getElem_mem _)

theorem close_role (s : Socket) : s.close.role = s.role := by
  unfold Socket.close
  split <;> rfl

/-- A change of one socket that keeps it wired. -/
theorem Sustained.modifySocket (h : c.Sustained) (i : SocketId) (f : Socket → Socket)
    (hrole : ∀ s, (f s).role = s.role)
    (hf : ∀ s : Socket, c.sockets[i]? = some s → s.Wired → (f s).Wired) :
    (c.modifySocket i f).Sustained where
  identity := h.identity
  normal := modify_normal h.normal i hrole
  driven hby hactive := by
    refine (h.driven hby hactive).imp_right ?_
    rintro ⟨j, s, hs, hw⟩
    by_cases hij : i = j
    · subst hij
      refine ⟨i, f s, ?_, hf s hs hw⟩
      simp [HarnessClient.modifySocket, hs]
    · refine ⟨j, s, ?_, hw⟩
      simp [HarnessClient.modifySocket, hij, hs]

theorem wired_closing {s : Socket} (h : s.Wired) : s.close.Wired := by
  unfold Socket.close
  rw [if_neg h.unclosed]
  exact ⟨h.role, h.attached, by simp⟩

/-! ### What a handler leaves alone -/

variable (c)

theorem scheduleReconnect_timer (env : Env) (h : c.closedByUser = false) :
    (c.scheduleReconnect env).reconnectTimer = true := by
  unfold scheduleReconnect
  rw [h]
  rfl

theorem flushOutbox_timer : c.flushOutbox.reconnectTimer = c.reconnectTimer := by
  obtain ⟨os, h, -⟩ := c.flushOutbox_spec
  rw [h]

theorem noteGap_timer (seq : JsNumber) (env : Env) (h : c.closedByUser = false) :
    (c.noteGap seq env).reconnectTimer = true := by
  refine scheduleReconnect_timer _ env ?_
  rw [detachAndClose_closedByUser]
  exact (c.countGap_closedByUser seq).trans h

/-- The current socket is detached only by a client that is stopped, or has its timer running. -/
theorem noteGap_wiring (seq : JsNumber) (env : Env) :
    ∃ b, (c.noteGap seq env).wiring = Wiring.detach { c.wiring with closedByUser := b } env.closeAccepted ∧
      (b = true ∨ (c.noteGap seq env).reconnectTimer = true) := by
  refine ⟨c.closedByUser, c.wiring_noteGap seq env, ?_⟩
  cases hby : c.closedByUser with
  | true => exact .inl rfl
  | false => exact .inr (c.noteGap_timer seq env hby)

theorem handleEnvelope_wiring (e : Envelope) (env : Env) :
    (c.handleEnvelope e env).wiring = c.wiring ∨
      ∃ b, (c.handleEnvelope e env).wiring =
          Wiring.detach { c.wiring with closedByUser := b } env.closeAccepted ∧
        (b = true ∨ (c.handleEnvelope e env).reconnectTimer = true) := by
  unfold handleEnvelope
  split
  · exact .inl (c.wiring_handleSnapshot _)
  · unfold handleEvent
    dsimp only
    split
    · exact .inl rfl
    · split
      · exact .inr (c.noteGap_wiring _ env)
      · split
        · exact .inr (c.noteGap_wiring _ env)
        · exact .inl (c.wiring_acceptEvent _)
  · exact .inl (c.wiring_handleAck _)
  · rcases c.wiring_handleError _ env with h | h
    · exact .inl h
    · exact .inr ⟨true, h, .inl rfl⟩
  · exact .inl rfl
  · exact .inl rfl

variable {c}

/-- Detaching changes no role. -/
theorem detach_normal {w : Wiring} {accepted : Bool} (h : ∀ s ∈ w.sockets, s.role = .normal) :
    ∀ s ∈ (w.detach accepted).sockets, s.role = .normal := by
  unfold Wiring.detach
  split
  · exact h
  · refine modify_normal h _ fun s => ?_
    cases accepted with
    | true => exact close_role _
    | false => rfl

/-- A frame on a wired socket: the socket stays wired, or the timer runs, or the client is stopped. -/
theorem Sustained.handleEnvelope (h : c.Sustained) {i : SocketId} {s : Socket}
    (hi : c.sockets[i]? = some s) (hw : s.Wired) (e : Envelope) (env : Env) :
    (c.handleEnvelope e env).Sustained := by
  have hidentity : ∀ id ∈ (c.handleEnvelope e env).identity, id.Typed := by
    rw [(c.handleEnvelope_keeps e env).identity]
    exact h.identity
  rcases c.handleEnvelope_wiring e env with hwiring | ⟨b, hwiring, hb⟩
  · have hsockets : (c.handleEnvelope e env).sockets = c.sockets := congrArg Wiring.sockets hwiring
    refine ⟨hidentity, ?_, fun _ _ => .inr ⟨i, s, ?_, hw⟩⟩
    · rw [hsockets]
      exact h.normal
    · rw [hsockets]
      exact hi
  · refine ⟨hidentity, ?_, fun hby _ => .inl (hb.resolve_left ?_)⟩
    · have hsockets : (c.handleEnvelope e env).sockets = _ := congrArg Wiring.sockets hwiring
      rw [hsockets]
      exact detach_normal h.normal
    · rintro rfl
      have hclosed : (c.handleEnvelope e env).closedByUser = _ := congrArg Wiring.closedByUser hwiring
      rw [hby] at hclosed
      unfold Wiring.detach at hclosed
      split at hclosed <;> cases hclosed

/-- A string goes into the header. -/
theorem authorization_typed (h : ∀ id ∈ c.identity, id.Typed) :
    (c.authorization.any fun v => !v.templateOk) = false := by
  unfold authorization
  split
  · cases hid : c.identity with
    | none => rfl
    | some identity =>
        obtain ⟨credential, hc⟩ := h identity hid
        rw [Option.map_some, Option.any_some, hc]
        rfl
  · rfl

/-- Without a socket there is the timer. -/
theorem openNormalSocket_timer {env : Env} (hby : c.closedByUser = false)
    (hauth : (c.authorization.any fun v => !v.templateOk) = false) (h : c.opens env = false) :
    (c.openNormalSocket env).reconnectTimer = true := by
  obtain ⟨text, herr⟩ : ∃ text, env.socketError = some text := by
    rw [opens, hauth] at h
    exact Option.ne_none_iff_exists'.mp fun hnone => by simp [hnone] at h
  unfold openNormalSocket
  generalize hd : c.setPhase (if c.session.sessionId.isNull then .connecting else .reconnecting) = d
  have hauth' : (d.authorization.any fun v => !v.templateOk) = false := by
    rw [← hd]
    exact hauth
  have hby' : d.dropSession.closedByUser = false := by
    refine (congrArg Wiring.closedByUser (wiring_dropSession d)).trans ?_
    rw [← hd]
    exact hby
  dsimp only
  rw [hauth', if_neg Bool.false_ne_true, trySocket, herr]
  exact scheduleReconnect_timer _ env hby'

theorem Sustained.openNormalSocket (hidentity : ∀ id ∈ c.identity, id.Typed)
    (hnormal : ∀ s ∈ c.sockets, s.role = .normal) (hby : c.closedByUser = false) (env : Env) :
    (c.openNormalSocket env).Sustained := by
  have hid : ∀ id ∈ (c.openNormalSocket env).identity, id.Typed := by
    rw [(c.openNormalSocket_keeps env).identity]
    exact hidentity
  rcases c.wiring_openNormalSocket env with ⟨-, x, ⟨hx, -⟩, hw⟩ | ⟨hopens, hw⟩
  · have hsockets : (c.openNormalSocket env).sockets = c.sockets ++ [x] := congrArg Wiring.sockets hw
    refine ⟨hid, ?_, fun _ _ => .inr ⟨c.sockets.length, x, ?_, hx⟩⟩
    · rw [hsockets]
      intro s hs
      rcases List.mem_append.mp hs with hs | hs
      · exact hnormal s hs
      · rw [List.mem_singleton.mp hs]
        exact hx.role
    · rw [hsockets]
      simp
  · refine ⟨hid, ?_, fun _ _ => .inl (openNormalSocket_timer hby (authorization_typed hidentity) hopens)⟩
    have hsockets : (c.openNormalSocket env).sockets = c.sockets := congrArg Wiring.sockets hw
    rw [hsockets]
    exact hnormal

/-- The close handler of a normal socket: the timer is started, or the phase is not an active one. -/
theorem onclose_driven (i : SocketId) (code : Option Nat) (env : Env)
    (hby : (c.onclose i .normal code env).closedByUser = false)
    (hactive : (c.onclose i .normal code env).phase.isActive = true) :
    (c.onclose i .normal code env).reconnectTimer = true := by
  unfold onclose at *
  dsimp only at *
  split at hby
  · rename_i hclosed
    rw [hclosed] at hby
    cases hby
  · rename_i hopen
    rw [if_neg hopen] at hactive ⊢
    split at hactive
    · cases hactive
    · rename_i hcode
      rw [if_neg hcode] at *
      split at hactive
      · rename_i hphase
        rcases hphase with hp | hp <;> rw [hp] at hactive <;> cases hactive
      · rename_i hphase
        rw [if_neg hphase]
        exact c.scheduleReconnect_timer env (Bool.eq_false_iff.mpr hopen)

theorem onclose_sockets (i : SocketId) (code : Option Nat) (env : Env) :
    (c.onclose i .normal code env).sockets = c.sockets := by
  unfold onclose
  dsimp only
  split
  · rfl
  · split
    · rfl
    · split
      · rfl
      · exact congrArg Wiring.sockets (c.wiring_scheduleReconnect env)

/-- `close()` stops the client. -/
theorem Sustained.close (h : c.Sustained) : c.close.Sustained := by
  have hsockets : c.close.sockets = _ := congrArg Wiring.sockets c.wiring_close
  have hclosed : c.close.closedByUser = true := congrArg Wiring.closedByUser c.wiring_close
  refine ⟨c.close_keeps.identity ▸ h.identity, ?_, fun hby => ?_⟩
  · rw [hsockets]
    split
    · exact modify_normal h.normal _ close_role
    · exact h.normal
  · rw [hclosed] at hby
    cases hby

/-- **A turn sustains the client.** -/
theorem Sustained.turn {tr : List Obs} {a : Action} (h : c.Sustained) (hP : Plain tr c a)
    (ht : c.turn a = some c') : c'.Sustained := by
  cases a with
  | setIdentity identity =>
      cases ht
      exact ⟨hP, h.normal, h.driven⟩
  | setLastSeq seq =>
      cases ht
      refine h.same (c.setLastSeq_keeps seq).identity (c.wiring_setLastSeq seq) ?_ ?_ <;>
        unfold setLastSeq <;> split
      all_goals first
        | rfl
        | split <;> rfl
  | reset => exact hP.elim
  | connect identity env =>
      cases ht
      refine Sustained.openNormalSocket (c := { c with
        identity := identity.or c.identity, closedByUser := false, gapCount := 0,
        retryAttempt := 0, retryInMs := none, reconnectTimer := false }) ?_ h.normal rfl env
      intro id hid
      cases identity with
      | none => exact h.identity id hid
      | some identity => exact hP id hid
  | close =>
      cases ht
      exact h.close
  | pair token url spki env => exact hP.elim
  | send req id =>
      cases ht
      refine h.same (c.sendCommand_keeps req id).identity (c.wiring_sendCommand req id) ?_ ?_ <;>
        unfold sendCommand <;> split
      all_goals first
        | rfl
        | exact flushOutbox_phase _
        | exact flushOutbox_timer _
  | resume env => exact hP.elim
  | opened i =>
      obtain ⟨s, hi, hconn, rfl⟩ := of_turn_opened ht
      have hopen : (c.modifySocket i fun s => { s with readyState := .open }).Sustained :=
        h.modifySocket i _ (fun _ => rfl) fun s _ hw => ⟨hw.role, hw.attached, by simp⟩
      unfold onopen
      split <;> exact hopen.same rfl rfl rfl rfl
  | message i data env =>
      obtain ⟨s, hi, hopen, rfl⟩ := of_turn_message ht
      split
      · rename_i hatt
        have hrole : s.role = .normal := h.normal s (List.mem_of_getElem? hi)
        rw [hrole, onmessage]
        split
        · exact h
        · exact h.handleEnvelope hi ⟨hrole, hatt, hopen⟩ _ env
      · exact h
  | closed i code env =>
      obtain ⟨s, hi, hopen, rfl⟩ := of_turn_closed ht
      have hnormal : ∀ s ∈ (c.modifySocket i fun s => { s with readyState := .closed }).sockets,
          s.role = .normal := modify_normal h.normal i fun _ => rfl
      split
      · rw [h.normal s (List.mem_of_getElem? hi)]
        refine ⟨?_, ?_, fun hby hactive => .inl (onclose_driven i code env hby hactive)⟩
        · rw [(HarnessClient.onclose_keeps _ i .normal code env).identity]
          exact h.identity
        · rw [onclose_sockets]
          exact hnormal
      · rename_i hatt
        -- the socket had no handlers, so it was not wired
        refine h.modifySocket i _ (fun _ => rfl) fun t ht hw => ?_
        obtain rfl : s = t := Option.some.inj (hi.symm.trans ht)
        exact absurd hw.attached hatt
  | errored i =>
      obtain ⟨s, hi, rfl⟩ := of_turn_errored ht
      split
      · rw [h.normal s (List.mem_of_getElem? hi)]
        exact h
      · exact h
  | closing i =>
      obtain rfl := of_turn_closing ht
      exact h.modifySocket i _ close_role fun s _ hw => wired_closing hw
  | timer env =>
      obtain ⟨hby, rfl⟩ | ⟨hby, rfl⟩ := of_turn_timer ht
      · exact ⟨h.identity, h.normal, fun hopen => by rw [show c.closedByUser = false from hopen] at hby; cases hby⟩
      · exact Sustained.openNormalSocket (c := { c with reconnectTimer := false, retryInMs := none })
          h.identity h.normal hby env

end HarnessClient

theorem sustained_step {tr os : List Obs} {c c' : HarnessClient} {a : Action} (h : c.Sustained)
    (hP : Plain tr c a) (hs : system.step c a = some (c', os)) : c'.Sustained := by
  obtain ⟨d, hd, he⟩ := Option.map_eq_some_iff.mp hs
  cases he
  have hP' : Plain tr { c with out := [] } a := hP
  have hdriven : d.Sustained :=
    HarnessClient.Sustained.turn (c := { c with out := [] }) (h.same rfl rfl rfl rfl) hP' hd
  exact hdriven.same rfl rfl rfl rfl

/-- **The client never wedges.** While it is connected, or says it will be, a reconnect timer is running
or the close event of some socket will start one. -/
theorem never_wedges {url : String} {authMode : AuthMode} {identity : Option Identity}
    {maxItems : Option Nat} (hid : ∀ id ∈ identity, id.Typed) {tr : List Obs} {c : HarnessClient}
    (h : system.Run Plain [] (.new url authMode identity maxItems) tr c)
    (hby : c.closedByUser = false) (hactive : c.phase.isActive = true) :
    c.reconnectTimer = true ∨
      ∃ (i : SocketId) (s : Socket), c.sockets[i]? = some s ∧ s.readyState ≠ .closed ∧
        s.attached = true ∧ s.role = .normal := by
  have hsustained : c.Sustained := by
    refine h.invariant (I := fun _ u => u.Sustained) ⟨hid, by simp [HarnessClient.new], ?_⟩
      fun t u a u' os _ ih hP hs => sustained_step ih hP hs
    intro _ hidle
    cases hidle
  refine (hsustained.driven hby hactive).imp_right ?_
  rintro ⟨i, s, hi, hw⟩
  exact ⟨i, s, hi, hw.unclosed, hw.attached, hw.role⟩

namespace Sample

/-- A stored identity. -/
def identity : Identity := ⟨.str "d1", .str "cred-1", "wss://host:7432/ws", none, .str "phone"⟩

/-- Connected with a header, lost, and no socket to be had when the timer fires. -/
def refused : List Action :=
  [.connect none {}, .opened 0, hostFrame 0 shortSnapshot, .closed 0 (some 1006) {},
    .timer { socketError := some "refused" }]

end Sample

theorem never_wedges_refused :
    ∃ tr c, system.Run Plain [] (.new "wss://host:7432/ws" .header (some Sample.identity) none) tr c ∧
      c.phase = .reconnecting ∧
      (c.reconnectTimer = true ∨
        ∃ (i : SocketId) (s : Socket), c.sockets[i]? = some s ∧ s.readyState ≠ .closed ∧
          s.attached = true ∧ s.role = .normal) := by
  have hexec : ((system.exec (fun _ _ _ => true) []
      (.new "wss://host:7432/ws" .header (some Sample.identity) none) Sample.refused).map fun r =>
        (r.2.phase, r.2.closedByUser)) = some (.reconnecting, false) := by decide +kernel
  obtain ⟨r, hr, hfacts⟩ := Option.map_eq_some_iff.mp hexec
  simp only [Prod.mk.injEq] at hfacts
  have hplain : ∀ a ∈ Sample.refused, ∀ tr c, Plain tr c a := by
    intro a ha tr c
    simp only [Sample.refused, List.mem_cons, List.not_mem_nil, or_false] at ha
    rcases ha with rfl | rfl | rfl | rfl | rfl <;> simp [Plain, hostFrame]
  have hrun := Lts.run_of_exec_forall hplain hr
  refine ⟨r.1, r.2, hrun, hfacts.1, never_wedges ?_ hrun hfacts.2 (by rw [hfacts.1]; rfl)⟩
  intro id hid
  obtain rfl := Option.mem_some.mp hid
  exact ⟨"cred-1", rfl⟩

end Harness.Client
