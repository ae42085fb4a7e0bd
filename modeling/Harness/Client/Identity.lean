/-
# Harness.Client.Identity — what a turn does to the identity.

The identity is set by `setIdentity`, by a `connect` that is given one, and by the `paired` frame that a pairing
accepts; the rest of that `pair` connects with it. Everything else leaves it alone, and that is `Keeps`.
-/
import Harness.Client.Inversion

namespace Harness.Client

/-- **`Keeps c c'`** — the same identity, and the same ones that a `pair` has still to connect with. -/
structure Keeps (c c' : HarnessClient) : Prop where
  authMode : c'.authMode = c.authMode
  identity : c'.identity = c.identity
  resumptions : c'.resumptions = c.resumptions

namespace Keeps

theorem refl (c : HarnessClient) : Keeps c c := ⟨rfl, rfl, rfl⟩

theorem trans {c c' c'' : HarnessClient} (h : Keeps c c') (h' : Keeps c' c'') : Keeps c c'' :=
  ⟨h'.authMode.trans h.authMode, h'.identity.trans h.identity, h'.resumptions.trans h.resumptions⟩

/-- The same, the last part first. -/
theorem after {c c' c'' : HarnessClient} (h' : Keeps c' c'') (h : Keeps c c') : Keeps c c'' := h.trans h'

end Keeps

namespace HarnessClient

variable (c : HarnessClient)

theorem setPhase_keeps (phase : ConnPhase) : Keeps c (c.setPhase phase) := ⟨rfl, rfl, rfl⟩

theorem scheduleReconnect_keeps (env : Env) : Keeps c (c.scheduleReconnect env) := by
  unfold scheduleReconnect
  split <;> exact ⟨rfl, rfl, rfl⟩

theorem flushOutbox_keeps : Keeps c c.flushOutbox := by
  obtain ⟨os, h, -⟩ := c.flushOutbox_spec
  rw [h]
  exact ⟨rfl, rfl, rfl⟩

theorem detachAndClose_keeps (env : Env) : Keeps c (c.detachAndClose env) := by
  unfold detachAndClose
  split <;> exact ⟨rfl, rfl, rfl⟩

theorem dropSession_keeps : Keeps c c.dropSession := by
  unfold dropSession
  split <;> exact ⟨rfl, rfl, rfl⟩

theorem trySocket_keeps (env : Env) : Keeps c (c.trySocket env) := by
  unfold trySocket
  split
  · exact (scheduleReconnect_keeps _ env).after ⟨rfl, rfl, rfl⟩
  · exact ⟨rfl, rfl, rfl⟩

theorem openNormalSocket_keeps (env : Env) : Keeps c (c.openNormalSocket env) := by
  unfold openNormalSocket
  generalize hd : c.setPhase (if c.session.sessionId.isNull then .connecting else .reconnecting) = d
  have hphase : Keeps c d := by
    rw [← hd]
    exact ⟨rfl, rfl, rfl⟩
  dsimp only
  split
  · exact hphase.trans ⟨rfl, rfl, rfl⟩
  · exact hphase.trans (d.dropSession_keeps.trans (trySocket_keeps _ env))

theorem close_keeps : Keeps c c.close := by
  unfold close
  cases c.socket <;> exact ⟨rfl, rfl, rfl⟩

theorem sendCommand_keeps (req : Request) (id : String) : Keeps c (c.sendCommand req id) := by
  unfold sendCommand
  split
  · exact ⟨rfl, rfl, rfl⟩
  · exact (flushOutbox_keeps _).after ⟨rfl, rfl, rfl⟩

theorem setLastSeq_keeps (seq : JsNumber) : Keeps c (c.setLastSeq seq) := by
  unfold setLastSeq
  split
  · split <;> exact ⟨rfl, rfl, rfl⟩
  · exact ⟨rfl, rfl, rfl⟩

theorem pair_keeps (token : String) (url spki : Option String) (env : Env) :
    Keeps c (c.pair token url spki env) := by
  unfold pair
  split <;> exact ⟨rfl, rfl, rfl⟩

/-! ## Frames -/

theorem handleSnapshot_keeps (snap : JsRecord) : Keeps c (c.handleSnapshot snap) := by
  unfold handleSnapshot
  dsimp only
  split
  · exact (flushOutbox_keeps _).after ⟨rfl, rfl, rfl⟩
  · exact ⟨rfl, rfl, rfl⟩

theorem noteGap_keeps (seq : JsNumber) (env : Env) : Keeps c (c.noteGap seq env) := by
  have hcount : Keeps c ((c.countGap seq).emit (.gap seq)) := by
    unfold countGap
    dsimp only
    split <;> split <;> exact ⟨rfl, rfl, rfl⟩
  exact hcount.trans ((detachAndClose_keeps _ env).trans (scheduleReconnect_keeps _ env))

theorem acceptEvent_keeps (ev : EventPayload) : Keeps c (c.acceptEvent ev) := by
  unfold acceptEvent
  dsimp only
  split
  · exact (flushOutbox_keeps _).after ⟨rfl, rfl, rfl⟩
  · exact ⟨rfl, rfl, rfl⟩

theorem handleEvent_keeps (ev : JsRecord) (env : Env) : Keeps c (c.handleEvent ev env) := by
  unfold handleEvent
  dsimp only
  split
  · exact ⟨rfl, rfl, rfl⟩
  · split
    · exact c.noteGap_keeps _ env
    · split
      · exact c.noteGap_keeps _ env
      · exact c.acceptEvent_keeps _

theorem handleError_keeps (err : JsRecord) (env : Env) : Keeps c (c.handleError err env) := by
  unfold handleError
  dsimp only
  split
  · split
    · exact (setPhase_keeps _ _).after ((detachAndClose_keeps _ env).after ⟨rfl, rfl, rfl⟩)
    · exact ⟨rfl, rfl, rfl⟩
  · split
    · exact .refl c
    · split <;> exact ⟨rfl, rfl, rfl⟩

theorem handleEnvelope_keeps (e : Envelope) (env : Env) : Keeps c (c.handleEnvelope e env) := by
  unfold handleEnvelope
  split
  · exact c.handleSnapshot_keeps _
  · exact c.handleEvent_keeps _ env
  · unfold handleAck
    split <;> exact ⟨rfl, rfl, rfl⟩
  · exact c.handleError_keeps _ env
  · exact .refl c
  · exact .refl c

theorem finishRejected_keeps (i : SocketId) (role : SocketRole) :
    Keeps c (c.finishPairing i role fun c => c.emit .pairRejected) := by
  unfold finishPairing
  split <;> exact ⟨rfl, rfl, rfl⟩

theorem onclose_keeps (i : SocketId) (role : SocketRole) (code : Option Nat) (env : Env) :
    Keeps c (c.onclose i role code env) := by
  unfold onclose
  split
  · exact c.finishRejected_keeps i _
  · split
    · exact .refl c
    · split
      · exact ⟨rfl, rfl, rfl⟩
      · split
        · exact .refl c
        · exact c.scheduleReconnect_keeps env

end HarnessClient

/-! ## Turns -/

/-- **`Pairs c a f`** — the turn hands `f` to a pairing that is not settled. -/
def Pairs (c : HarnessClient) (a : Action) (f : Inbound) : Prop :=
  ∃ i data env s token spki e, a = .message i data env ∧ c.sockets[i]? = some s ∧ s.attached = true ∧
    s.role = .pairing token spki false ∧ data.bind parseEnvelope = some e ∧ e.inbound = f

/-- **`Hands a`** — the turn is handed an identity by its caller, or by a `pair` that goes on. -/
def Action.Hands : Action → Prop
  | .setIdentity _ | .connect (some _) _ | .resume _ => True
  | _ => False

namespace HarnessClient

/-- **A turn leaves the identity alone**, unless it is handed one or a pairing accepts one. -/
theorem turn_keeps {c c' : HarnessClient} {a : Action} (ha : ¬ a.Hands)
    (hpair : ∀ p, ¬ Pairs c a (.paired p)) (ht : c.turn a = some c') : Keeps c c' := by
  cases a with
  | setIdentity identity => exact absurd trivial ha
  | setLastSeq seq =>
      cases ht
      exact c.setLastSeq_keeps seq
  | reset =>
      cases ht
      exact ⟨rfl, rfl, rfl⟩
  | connect identity env =>
      cases identity with
      | some identity => exact absurd trivial ha
      | none =>
          cases ht
          exact (openNormalSocket_keeps _ env).after ⟨rfl, rfl, rfl⟩
  | close =>
      cases ht
      exact c.close_keeps
  | pair token url spki env =>
      cases ht
      exact c.pair_keeps token url spki env
  | send req id =>
      cases ht
      exact c.sendCommand_keeps req id
  | resume env => exact absurd trivial ha
  | opened i =>
      obtain ⟨s, -, -, rfl⟩ := of_turn_opened ht
      unfold onopen
      split <;> exact ⟨rfl, rfl, rfl⟩
  | message i data env =>
      obtain ⟨s, hs, -, rfl⟩ := of_turn_message ht
      split
      · rename_i hatt
        unfold onmessage
        split
        · exact .refl c
        · rename_i e he
          split
          · exact c.handleEnvelope_keeps e env
          · rename_i hrole
            unfold pairingMessage finishPairing
            split
            · rename_i p hin
              split
              · -- a pairing that is not settled accepts the frame
                rename_i hnew
                exact absurd ⟨i, data, env, s, _, _, e, rfl, hs, hatt, hnew, he, hin⟩ (hpair p)
              · exact .refl c
            · split <;> exact ⟨rfl, rfl, rfl⟩
            · exact .refl c
      · exact .refl c
  | closed i code env =>
      obtain ⟨s, -, -, rfl⟩ := of_turn_closed ht
      split
      · exact (onclose_keeps _ i s.role code env).after ⟨rfl, rfl, rfl⟩
      · exact ⟨rfl, rfl, rfl⟩
  | errored i =>
      obtain ⟨s, -, rfl⟩ := of_turn_errored ht
      split
      · unfold onerror
        split
        · exact c.finishRejected_keeps i _
        · exact .refl c
      · exact .refl c
  | closing i =>
      obtain rfl := of_turn_closing ht
      exact ⟨rfl, rfl, rfl⟩
  | timer env =>
      obtain ⟨-, rfl⟩ | ⟨-, rfl⟩ := of_turn_timer ht
      · exact ⟨rfl, rfl, rfl⟩
      · exact (openNormalSocket_keeps _ env).after ⟨rfl, rfl, rfl⟩

/-- A pairing that accepts a frame stores the identity it says, and `pair` has still to connect with it. -/
theorem turn_issues {c c' : HarnessClient} {a : Action} {p : JsRecord} (hpair : Pairs c a (.paired p))
    (ht : c.turn a = some c') :
    ∃ issued, c'.identity = some issued ∧ c'.resumptions = c.resumptions ++ [issued] ∧
      issued.deviceId = p.get "deviceId" ∧ issued.credential = p.get "credential" := by
  obtain ⟨i, data, env, s, token, spki, e, rfl, hs, hatt, hrole, he, hin⟩ := hpair
  obtain ⟨s', hs', -, rfl⟩ := of_turn_message ht
  obtain rfl := Option.some.inj (hs.symm.trans hs')
  rw [if_pos hatt, onmessage, he]
  simp only [hrole, pairingMessage, hin, finishPairing, issue, emit, modifySocket]
  exact ⟨_, rfl, rfl, rfl, rfl⟩

theorem turn_paired {c c' : HarnessClient} {a : Action} {p : JsRecord} (hpair : Pairs c a (.paired p))
    (ht : c.turn a = some c') :
    ∃ issued, c'.identity = some issued ∧ c'.resumptions = c.resumptions ++ [issued] := by
  obtain ⟨issued, hid, hres, -⟩ := turn_issues hpair ht
  exact ⟨issued, hid, hres⟩

/-- `pair` goes on. -/
theorem resumePair_identity {c : HarnessClient} {issued : Identity} {rest : List Identity}
    (h : c.resumptions = issued :: rest) (env : Env) :
    (c.resumePair env).identity = some issued ∧ (c.resumePair env).resumptions = rest := by
  unfold resumePair
  rw [h]
  have hkeeps := openNormalSocket_keeps
    { c with
      identity := some issued
      closedByUser := false
      gapCount := 0
      retryAttempt := 0
      retryInMs := none
      reconnectTimer := false
      resumptions := rest } env
  exact ⟨hkeeps.identity, hkeeps.resumptions⟩

end HarnessClient

end Harness.Client
