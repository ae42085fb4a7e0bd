/-
# Harness.Client.Position — what a turn does on the sockets, and where the client stands on the one it uses.

What a client sends is little: a hello on a socket that has just opened, and commands on the current socket while
it is open. No other turn opens a socket, and one that has closed stays closed. `Steps` says so of a step.

`lastSeq` can go back: a full resync drops the session, and so does `reset()`. But a full resync is only ever
waiting while the client has no socket, and it is carried out as the next socket is created. So as long as the
client uses one socket, and nobody calls `reset()` meanwhile (`Stays`), its position on that socket only moves
forward, and an event that was heard on it is behind the position (`heard_behind`).
-/
import Harness.Client.Reconnect
import Harness.Client.Tail

namespace Harness.Client

open Lib
open Wire (Json CommandKind CommandPayload)

/-- **`Seated c`** — the current socket is one of `attachNormal` with its handlers, and no full resync waits while
there is one. -/
structure HarnessClient.Seated (c : HarnessClient) : Prop where
  normal : ∀ i, c.socket = some i → ∃ s, c.sockets[i]? = some s ∧ s.role = .normal ∧ s.attached = true
  resync : c.fullResync = true → c.socket = none

/-- No frame but a command, on the current socket of `c`, which is open. -/
def Obs.CommandOn (c : HarnessClient) (o : Obs) : Prop :=
  ∀ i f, o = .sent i f → c.socket = some i ∧ c.readyState i = some .open ∧ ∃ cmd, f = .command cmd

/-- A socket that exists is open. -/
theorem HarnessClient.lt_of_readyState {c : HarnessClient} {i : SocketId} {r : ReadyState}
    (h : c.readyState i = some r) : i < c.sockets.length := by
  obtain ⟨s, hs, -⟩ := Option.map_eq_some_iff.mp h
  exact (List.getElem?_eq_some_iff.mp hs).1

/-- **`Advances K c c'`** — a seated client stays seated; no socket of it opens, though one may be created; it has
sent nothing but commands, on the current socket; and, given `K`, its position on a socket it keeps has not gone
back. -/
structure Advances (K : Prop) (c c' : HarnessClient) : Prop where
  seated : c'.Seated
  length : c.sockets.length ≤ c'.sockets.length
  ages : ∀ i r, c'.readyState i = some r →
    c.readyState i = some r ∨ r = .closing ∨ r = .closed ∨ (r = .connecting ∧ c.sockets.length ≤ i)
  position : ∀ i, c'.socket = some i →
    (c.socket = some i ∧ (K → c.session.lastSeq ≤ c'.session.lastSeq)) ∨ c.sockets.length ≤ i
  out : ∃ os, c'.out = c.out ++ os ∧ ∀ o ∈ os, o.CommandOn c

/-- A modification that leaves sockets as they are, or closes them. -/
theorem readyState_modify {l : List Socket} {i j : SocketId} {f : Socket → Socket} {r : ReadyState}
    (hf : ∀ s, (f s).readyState = s.readyState ∨ (f s).readyState = .closing ∨ (f s).readyState = .closed)
    (h : ((l.modify i f)[j]?).map (·.readyState) = some r) :
    (l[j]?).map (·.readyState) = some r ∨ r = .closing ∨ r = .closed := by
  rw [List.getElem?_modify] at h
  cases hj : l[j]? with
  | none =>
    rw [hj] at h
    cases h
  | some s =>
    rw [hj] at h
    by_cases hij : i = j
    · obtain rfl : (f s).readyState = r := by simpa [hij] using h
      rcases hf s with hsame | hclosed
      · exact .inl (congrArg some hsame.symm)
      · exact .inr hclosed
    · exact .inl (by simpa [hij] using h)

/-- `close()` leaves a socket closing, or closed. -/
theorem readyState_close (s : Socket) :
    s.close.readyState = s.readyState ∨ s.close.readyState = .closing ∨ s.close.readyState = .closed := by
  unfold Socket.close
  split
  · exact .inl rfl
  · exact .inr (.inl rfl)

namespace Advances

variable {K : Prop} {c c₁ c₂ : HarnessClient}

theorem refl (h : c.Seated) : Advances K c c where
  seated := h
  length := le_refl _
  ages := fun _ _ hr => .inl hr
  position := fun _ hi => .inl ⟨hi, fun _ => le_refl _⟩
  out := ⟨[], (List.append_nil _).symm, List.forall_mem_nil _⟩

/-- A socket that is open now was open before. -/
theorem of_open (h : Advances K c c₁) {i : SocketId} (hi : c₁.readyState i = some .open) :
    c.readyState i = some .open := by
  rcases h.ages i .open hi with hold | he | he | ⟨he, -⟩
  · exact hold
  · cases he
  · cases he
  · cases he

/-- A command for the current socket was for the current socket before. -/
theorem commandOn (h : Advances K c c₁) {o : Obs} (ho : o.CommandOn c₁) : o.CommandOn c := by
  intro i f he
  obtain ⟨hcur, hopen, hf⟩ := ho i f he
  have hold := h.of_open hopen
  rcases h.position i hcur with ⟨hi, -⟩ | hnew
  · exact ⟨hi, hold, hf⟩
  · exact absurd (HarnessClient.lt_of_readyState hold) (not_lt.mpr hnew)

theorem trans (h₁ : Advances K c c₁) (h₂ : Advances K c₁ c₂) : Advances K c c₂ where
  seated := h₂.seated
  length := h₁.length.trans h₂.length
  ages := by
    intro i r hr
    rcases h₂.ages i r hr with hmid | hclosing | hclosed | ⟨hwaits, hnew⟩
    · exact h₁.ages i r hmid
    · exact .inr (.inl hclosing)
    · exact .inr (.inr (.inl hclosed))
    · exact .inr (.inr (.inr ⟨hwaits, h₁.length.trans hnew⟩))
  position := by
    intro i hi
    rcases h₂.position i hi with ⟨hold, hle⟩ | hnew
    · rcases h₁.position i hold with ⟨hfirst, hle'⟩ | hnew
      · exact .inl ⟨hfirst, fun hK => (hle' hK).trans (hle hK)⟩
      · exact .inr hnew
    · exact .inr (h₁.length.trans hnew)
  out := by
    obtain ⟨os, ho, hall⟩ := h₁.out
    obtain ⟨os', ho', hall'⟩ := h₂.out
    refine ⟨os ++ os', by rw [ho', ho, List.append_assoc], fun o hm => ?_⟩
    rcases List.mem_append.mp hm with hm | hm
    · exact hall o hm
    · exact h₁.commandOn (hall' o hm)

/-- Other fields have changed, and `os` was seen. -/
theorem keep (h : Advances K c c₁) (hsockets : c₂.sockets = c₁.sockets) (hsocket : c₂.socket = c₁.socket)
    (hresync : c₂.fullResync = c₁.fullResync) (hlast : K → c₁.session.lastSeq ≤ c₂.session.lastSeq) {os : List Obs}
    (hout : c₂.out = c₁.out ++ os) (hos : ∀ o ∈ os, o.CommandOn c₁) : Advances K c c₂ := by
  refine h.trans ⟨⟨fun i hi => ?_, fun hr => ?_⟩, ?_, fun i r hr => .inl ?_,
    fun i hi => .inl ⟨hsocket ▸ hi, hlast⟩, os, hout, hos⟩
  · rw [hsockets]
    exact h.seated.normal i (hsocket ▸ hi)
  · rw [hsocket]
    exact h.seated.resync (hresync ▸ hr)
  · rw [hsockets]
  · unfold HarnessClient.readyState at hr ⊢
    rwa [hsockets] at hr

/-- The same, with nothing seen. -/
theorem update (h : Advances K c c₁) (hsockets : c₂.sockets = c₁.sockets) (hsocket : c₂.socket = c₁.socket)
    (hresync : c₂.fullResync = c₁.fullResync) (hlast : K → c₁.session.lastSeq ≤ c₂.session.lastSeq)
    (hout : c₂.out = c₁.out) : Advances K c c₂ :=
  h.keep hsockets hsocket hresync hlast (hout.trans (List.append_nil _).symm) (List.forall_mem_nil _)

theorem emit (h : Advances K c c₁) {o : Obs} (ho : o.CommandOn c₁) : Advances K c (c₁.emit o) :=
  h.keep rfl rfl rfl (fun _ => le_refl _) rfl (List.forall_mem_singleton.mpr ho)

theorem setPhase (h : Advances K c c₁) (phase : ConnPhase) : Advances K c (c₁.setPhase phase) :=
  h.keep rfl rfl rfl (fun _ => le_refl _) rfl (List.forall_mem_singleton.mpr fun _ _ he => by cases he)

/-- A socket that is not normal changes as it likes, a normal one keeps its handlers; neither opens. -/
theorem modifySocket (h : Advances K c c₁) {i : SocketId} {f : Socket → Socket}
    (hf : ∀ s, c₁.sockets[i]? = some s → s.role = .normal → (f s).role = .normal ∧ (f s).attached = s.attached)
    (hready : ∀ s, (f s).readyState = s.readyState ∨ (f s).readyState = .closing ∨ (f s).readyState = .closed) :
    Advances K c (c₁.modifySocket i f) := by
  have hlen : (c₁.modifySocket i f).sockets.length = c₁.sockets.length := List.length_modify ..
  refine h.trans ⟨⟨fun j hj => ?_, h.seated.resync⟩, hlen.ge, fun j r hr => ?_,
    fun j hj => .inl ⟨hj, fun _ => le_refl _⟩, [], (List.append_nil _).symm, List.forall_mem_nil _⟩
  · obtain ⟨s, hs, hrole, hatt⟩ := h.seated.normal j hj
    have hget : (c₁.modifySocket i f).sockets[j]? = some (if i = j then f s else s) := by
      show (c₁.sockets.modify i f)[j]? = _
      rw [List.getElem?_modify, hs]
      rfl
    refine ⟨_, hget, ?_⟩
    split
    · rename_i hij
      obtain ⟨hr, ha⟩ := hf s (hij ▸ hs) hrole
      exact ⟨hr, ha.trans hatt⟩
    · exact ⟨hrole, hatt⟩
  · rcases readyState_modify hready hr with hold | hclosing | hclosed
    · exact .inl hold
    · exact .inr (.inl hclosing)
    · exact .inr (.inr (.inl hclosed))

/-- No socket is current any more. -/
theorem leave (h : Advances K c c₁) (hnone : c₂.socket = none) (hlen : c₂.sockets.length = c₁.sockets.length)
    (hready : ∀ i r, c₂.readyState i = some r → c₁.readyState i = some r ∨ r = .closing ∨ r = .closed)
    {os : List Obs} (hout : c₂.out = c₁.out ++ os) (hos : ∀ o ∈ os, ∀ i f, o ≠ .sent i f) :
    Advances K c c₂ := by
  refine h.trans ⟨⟨fun i hi => ?_, fun _ => hnone⟩, hlen.ge, fun i r hr => ?_, fun i hi => ?_, os, hout,
    fun o ho i f he => absurd he (hos o ho i f)⟩
  · rw [hnone] at hi
    cases hi
  · rcases hready i r hr with hold | hclosing | hclosed
    · exact .inl hold
    · exact .inr (.inl hclosing)
    · exact .inr (.inr (.inl hclosed))
  · rw [hnone] at hi
    cases hi

theorem scheduleReconnect (h : Advances K c c₁) (env : Env) : Advances K c (c₁.scheduleReconnect env) := by
  unfold HarnessClient.scheduleReconnect
  split
  · exact h
  · exact Advances.update ((h.update rfl rfl rfl (fun _ => le_refl _) rfl).setPhase .reconnecting)
      rfl rfl rfl (fun _ => le_refl _) rfl

theorem detachAndClose (h : Advances K c c₁) (env : Env) : Advances K c (c₁.detachAndClose env) := by
  unfold HarnessClient.detachAndClose
  split
  · exact h
  · refine h.leave rfl (List.length_modify ..) (fun i r hr => readyState_modify (fun s => ?_) hr)
      (List.append_nil _).symm (List.forall_mem_nil _)
    split
    · exact readyState_close { s with attached := false }
    · exact .inl rfl

/-- A new socket waits to open. -/
theorem readyState_concat {l : List Socket} {x : Socket} (hx : x.readyState = .connecting) {i : SocketId}
    {r : ReadyState} (h : ((l ++ [x])[i]?).map (·.readyState) = some r) :
    (l[i]?).map (·.readyState) = some r ∨ r = .closing ∨ r = .closed ∨ (r = .connecting ∧ l.length ≤ i) := by
  rcases lt_or_ge i l.length with hlt | hge
  · rw [List.getElem?_append_left hlt] at h
    exact .inl h
  · rw [List.getElem?_append_right hge] at h
    obtain ⟨s, hs, rfl⟩ := Option.map_eq_some_iff.mp h
    obtain rfl := List.mem_singleton.mp (List.mem_of_getElem? hs)
    exact .inr (.inr (.inr ⟨hx, hge⟩))

/-- A pairing socket is created. -/
theorem createPairing (h : Advances K c c₁) {token : String} {spki : Option String} {settled : Bool}
    {authorization : Option JsValue} :
    Advances K c (c₁.createSocket (.pairing token spki settled) authorization) := by
  refine h.trans ⟨⟨fun i hi => ?_, h.seated.resync⟩, ?_, fun i r hr => readyState_concat rfl hr,
    fun i hi => .inl ⟨hi, fun _ => le_refl _⟩, [.created _], rfl, ?_⟩
  · obtain ⟨s, hs, hrest⟩ := h.seated.normal i hi
    refine ⟨s, ?_, hrest⟩
    exact (List.getElem?_append_left (List.getElem?_eq_some_iff.mp hs).1).trans hs
  · show _ ≤ (c₁.sockets ++ [_]).length
    rw [List.length_append]
    exact Nat.le_add_right _ _
  · exact List.forall_mem_singleton.mpr fun _ _ he => by cases he

end Advances

/-- The action is not a `reset()` of a client in use, and what it hears is of the session the client is in. -/
structure Stays (c : HarnessClient) (a : Action) : Prop where
  reset : a = .reset → c.socket = none
  base : ∀ snap, Delivered c a (.snapshot snap) → snapshotBase c.session snap = c.session

/-! ## The methods -/

namespace HarnessClient

variable {c : HarnessClient} {K : Prop}

theorem Seated.flushOutbox (h : c.Seated) : Advances K c c.flushOutbox := by
  unfold HarnessClient.flushOutbox
  split
  · exact .refl h
  · rename_i i hcur
    split
    · rename_i hready
      refine (Advances.refl h).keep rfl rfl rfl (fun _ => le_refl _) rfl ?_
      intro o ho j f hsent
      obtain ⟨cmd, -, rfl⟩ := List.mem_map.mp ho
      cases hsent
      exact ⟨hcur, hready.2, cmd, rfl⟩
    · exact .refl h

theorem Seated.goLive (h : c.Seated) : Advances K c (c.setPhase .live).flushOutbox :=
  let hphase := (Advances.refl h).setPhase .live
  hphase.trans hphase.seated.flushOutbox

/-- A new normal socket is current, if there is one. -/
theorem Seated.trySocket (h : c.Seated) (hresync : c.fullResync = false) (env : Env) :
    Advances K c (c.trySocket env) := by
  unfold HarnessClient.trySocket
  split
  · rename_i text _
    have hset : Advances K c { c with error := some ⟨.str "socket_error", .str text⟩ } :=
      (Advances.refl h).update rfl rfl rfl (fun _ => le_refl _) rfl
    exact hset.scheduleReconnect env
  · refine ⟨⟨fun i hi => ?_, fun hr => ?_⟩, ?_, fun i r hr => Advances.readyState_concat rfl hr, fun i hi => ?_,
      [.created _], rfl, ?_⟩
    · cases hi
      exact ⟨_, List.getElem?_concat_length, rfl, rfl⟩
    · cases hresync.symm.trans hr
    · show _ ≤ (c.sockets ++ [_]).length
      rw [List.length_append]
      exact Nat.le_add_right _ _
    · cases hi
      exact .inr (le_refl _)
    · exact List.forall_mem_singleton.mpr fun _ _ he => by cases he

/-- The session is dropped while there is no socket. -/
theorem Seated.dropSession (h : c.Seated) :
    Advances K c c.dropSession ∧ c.dropSession.fullResync = false := by
  unfold HarnessClient.dropSession
  cases hr : c.fullResync with
  | true =>
    have hnone : c.socket = none := h.resync hr
    refine ⟨?_, rfl⟩
    exact (Advances.refl h).leave hnone rfl (fun _ _ hr => .inl hr) (List.append_nil _).symm
      (List.forall_mem_nil _)
  | false => exact ⟨.refl h, hr⟩

theorem Seated.openNormalSocket (h : c.Seated) (env : Env) : Advances K c (c.openNormalSocket env) := by
  unfold HarnessClient.openNormalSocket
  generalize hd : c.setPhase (if c.session.sessionId.isNull then .connecting else .reconnecting) = d
  have hphase : Advances K c d := hd ▸ (Advances.refl h).setPhase _
  dsimp only
  split
  · exact hphase.emit (o := .threw) fun _ _ he => by cases he
  · obtain ⟨hdrop, hresync⟩ := hphase.seated.dropSession
    exact hphase.trans (hdrop.trans (hdrop.seated.trySocket hresync env))

theorem Seated.connect (h : c.Seated) (identity : Option Identity) (env : Env) :
    Advances K c (c.connect identity env) := by
  unfold HarnessClient.connect
  have hset : Advances K c
      { c with
        identity := identity.or c.identity, closedByUser := false, gapCount := 0, retryAttempt := 0,
        retryInMs := none, reconnectTimer := false } :=
    (Advances.refl h).update rfl rfl rfl (fun _ => le_refl _) rfl
  exact hset.trans (hset.seated.openNormalSocket env)

theorem Seated.resumePair (h : c.Seated) (env : Env) : Advances K c (c.resumePair env) := by
  unfold HarnessClient.resumePair
  split
  · exact .refl h
  · rename_i identity rest _
    have hset : Advances K c { c with resumptions := rest } :=
      (Advances.refl h).update rfl rfl rfl (fun _ => le_refl _) rfl
    exact hset.trans (hset.seated.connect (some identity) env)

theorem Seated.close (h : c.Seated) : Advances K c c.close := by
  have hlen : c.close.sockets.length = c.sockets.length := by
    unfold HarnessClient.close
    cases c.socket with
    | none => rfl
    | some i => exact List.length_modify ..
  have hout : c.close.out = c.out ++ [.notified .idle c.session.sessionId c.session.lastSeq] := by
    unfold HarnessClient.close
    cases c.socket <;> rfl
  refine (Advances.refl h).leave rfl hlen (fun i r hr => ?_) hout
    (List.forall_mem_singleton.mpr fun _ _ he => by cases he)
  unfold HarnessClient.close at hr
  cases hcur : c.socket with
  | none =>
    rw [hcur] at hr
    exact .inl hr
  | some j =>
    rw [hcur] at hr
    exact readyState_modify readyState_close hr

theorem Seated.pair (h : c.Seated) (token : String) (url spki : Option String) (env : Env) :
    Advances K c (c.pair token url spki env) := by
  have hset : Advances K c { { c with url := url.getD c.url }.setPhase .pairing with error := none } :=
    Advances.update (((Advances.refl h).update rfl rfl rfl (fun _ => le_refl _) rfl).setPhase .pairing) rfl rfl rfl
      (fun _ => le_refl _) rfl
  unfold HarnessClient.pair
  split
  · exact hset.emit fun _ _ he => by cases he
  · exact hset.createPairing

theorem Seated.setLastSeq (h : c.Seated) (seq : JsNumber) : Advances K c (c.setLastSeq seq) := by
  unfold HarnessClient.setLastSeq
  split
  · split
    · exact .refl h
    · rename_i hlt
      exact (Advances.refl h).keep rfl rfl rfl (fun _ => (not_le.mp hlt).le) rfl
        (List.forall_mem_singleton.mpr fun _ _ he => by cases he)
  · exact .refl h

theorem Seated.sendCommand (h : c.Seated) (req : Request) (id : String) :
    Advances K c (c.sendCommand req id) := by
  unfold HarnessClient.sendCommand
  split
  · exact (Advances.refl h).emit fun _ _ he => by cases he
  · have hqueued : Advances K c
        { c with
          outbox := c.outbox.set id
            { id := id, idempotencyKey := id, kind := req.command.1, payload := some req.command.2 }
          pending := c.pending.set id ⟨false⟩ } := (Advances.refl h).update rfl rfl rfl (fun _ => le_refl _) rfl
    have hissued := hqueued.emit (o := .issued id c.session.sessionId) fun _ _ he => by cases he
    exact hissued.trans hissued.seated.flushOutbox

/-! ## Frames -/

theorem Seated.handleSnapshot (h : c.Seated) {snap : JsRecord}
    (hbase : K → snapshotBase c.session snap = c.session) : Advances K c (c.handleSnapshot snap) := by
  have hlast (hK : K) : (applySnapshot c.session snap).lastSeq = c.session.lastSeq := by
    show (snapshotBase c.session snap).lastSeq = _
    rw [hbase hK]
  have htaken : Advances K c (c.takeSnapshot snap) :=
    (Advances.refl h).keep rfl rfl rfl (fun hK => (hlast hK).ge) rfl
      (List.forall_mem_singleton.mpr fun _ _ he => by cases he)
  unfold HarnessClient.handleSnapshot
  dsimp only
  split
  · exact htaken.trans htaken.seated.goLive
  · exact htaken.setPhase .syncing

/-- After a gap there is no socket. -/
theorem noteGap_socket (c : HarnessClient) (seq : JsNumber) (env : Env) : (c.noteGap seq env).socket = none := by
  have hcur : (c.noteGap seq env).wiring.current = none := by
    rw [wiring_noteGap, Wiring.detach]
    split
    · assumption
    · rfl
  exact hcur

theorem Seated.noteGap (h : c.Seated) (seq : JsNumber) (env : Env) : Advances K c (c.noteGap seq env) := by
  have hlen : (c.noteGap seq env).sockets.length = c.sockets.length := by
    have hsockets : (c.noteGap seq env).sockets = (c.wiring.detach env.closeAccepted).sockets :=
      congrArg Wiring.sockets (wiring_noteGap c seq env)
    rw [hsockets, Wiring.detach]
    split
    · rfl
    · exact List.length_modify ..
  have hready (i : SocketId) (r : ReadyState) (hr : (c.noteGap seq env).readyState i = some r) :
      c.readyState i = some r ∨ r = .closing ∨ r = .closed := by
    have hsockets : (c.noteGap seq env).sockets = (c.wiring.detach env.closeAccepted).sockets :=
      congrArg Wiring.sockets (wiring_noteGap c seq env)
    unfold readyState at hr
    rw [hsockets, Wiring.detach] at hr
    split at hr
    · exact .inl hr
    · refine readyState_modify (fun s => ?_) hr
      split
      · exact readyState_close { s with attached := false }
      · exact .inl rfl
  have hseen : ∃ os, (c.noteGap seq env).out = c.out ++ os ∧ ∀ o ∈ os, ∀ i f, o ≠ .sent i f := by
    have hcount : (c.countGap seq).out = c.out := by
      unfold countGap
      dsimp only
      split <;> split <;> rfl
    have hdetach (d : HarnessClient) : (d.detachAndClose env).out = d.out := by
      unfold detachAndClose
      split <;> rfl
    have hgap : (((c.countGap seq).emit (.gap seq)).detachAndClose env).out = c.out ++ [.gap seq] := by
      rw [hdetach]
      show (c.countGap seq).out ++ _ = _
      rw [hcount]
    unfold HarnessClient.noteGap HarnessClient.scheduleReconnect
    split
    · exact ⟨[.gap seq], hgap, List.forall_mem_singleton.mpr fun _ _ he => by cases he⟩
    · refine ⟨[.gap seq, _], (congrArg (· ++ [_]) hgap).trans (List.append_assoc _ _ _), fun o ho => ?_⟩
      rcases List.mem_pair.mp ho with rfl | rfl
      · exact fun _ _ he => by cases he
      · exact fun _ _ he => by cases he
  obtain ⟨os, hout, hos⟩ := hseen
  exact (Advances.refl h).leave (noteGap_socket c seq env) hlen hready hout hos

theorem Seated.acceptEvent (h : c.Seated) {ev : EventPayload} (hgt : c.session.lastSeq < ev.seq) :
    Advances K c (c.acceptEvent ev) := by
  have hle : c.session.lastSeq ≤ (c.nextSession ev).lastSeq := by
    rw [nextSession_lastSeq]
    exact hgt.le
  have happlied : Advances K c
      (emit { c with session := c.nextSession ev, gapSeq := none, gapCount := 0 }
        (.applied c.session.sessionId ev.seq)) :=
    (Advances.refl h).keep rfl rfl rfl (fun _ => hle) rfl (List.forall_mem_singleton.mpr fun _ _ he => by cases he)
  unfold HarnessClient.acceptEvent
  dsimp only
  split
  · exact happlied.trans happlied.seated.goLive
  · exact happlied.emit fun _ _ he => by cases he

theorem Seated.handleEvent (h : c.Seated) (ev : JsRecord) (env : Env) : Advances K c (c.handleEvent ev env) := by
  unfold HarnessClient.handleEvent
  dsimp only
  split
  · exact (Advances.refl h).emit fun _ _ he => by cases he
  · rename_i hnew
    split
    · exact h.noteGap _ env
    · rename_i q hq
      split
      · exact h.noteGap _ env
      · have hlt : c.session.lastSeq < q := by simpa [hq, JsNumber.le] using hnew
        exact h.acceptEvent hlt

theorem Seated.settle (h : c.Seated) (id : String) : Advances K c (c.settle id) :=
  (Advances.refl h).update rfl rfl rfl (fun _ => le_refl _) rfl

theorem Seated.handleAck (h : c.Seated) (ack : JsRecord) : Advances K c (c.handleAck ack) := by
  unfold HarnessClient.handleAck
  split
  · exact (h.settle _).emit fun _ _ he => by cases he
  · exact .refl h

theorem Seated.handleError (h : c.Seated) (err : JsRecord) (env : Env) :
    Advances K c (c.handleError err env) := by
  unfold HarnessClient.handleError
  dsimp only
  split
  · split
    · have hset : Advances K c
          { c with error := some ⟨err.get "code", err.get "message"⟩, closedByUser := true } :=
        (Advances.refl h).update rfl rfl rfl (fun _ => le_refl _) rfl
      exact (hset.detachAndClose env).setPhase _
    · have hset : Advances K c { c with error := some ⟨err.get "code", err.get "message"⟩ } :=
        (Advances.refl h).update rfl rfl rfl (fun _ => le_refl _) rfl
      exact hset.emit fun _ _ he => by cases he
  · split
    · exact .refl h
    · split
      · exact (h.settle _).emit fun _ _ he => by cases he
      · exact (h.settle _).emit fun _ _ he => by cases he

theorem Seated.handleEnvelope (h : c.Seated) (e : Envelope) (env : Env)
    (hbase : K → ∀ snap, e.inbound = .snapshot snap → snapshotBase c.session snap = c.session) :
    Advances K c (c.handleEnvelope e env) := by
  unfold HarnessClient.handleEnvelope
  split
  · rename_i snap hin
    exact h.handleSnapshot fun hK => hbase hK snap hin
  · exact h.handleEvent _ env
  · exact h.handleAck _
  · exact h.handleError _ env
  · exact .refl h
  · exact .refl h

/-! ## Callbacks -/

/-- What a pairing socket does when its attempt is settled; `i` is a pairing socket. -/
theorem Seated.finishPairing (h : c.Seated) {i : SocketId} {role : SocketRole} {fn : HarnessClient → HarnessClient}
    (hrole : ∀ s, c.sockets[i]? = some s → s.role = .normal → role = .normal)
    (hfn : ∀ d : HarnessClient, Advances K c d → Advances K c (fn d)) :
    Advances K c (c.finishPairing i role fn) := by
  unfold HarnessClient.finishPairing
  split
  · refine hfn _ ((Advances.refl h).modifySocket (fun s hs hn => ?_) fun _ => .inl rfl)
    cases hrole s hs hn
  · exact .refl h

theorem closeSocket_keeps (s : Socket) : s.close.role = s.role ∧ s.close.attached = s.attached := by
  unfold Socket.close
  split <;> exact ⟨rfl, rfl⟩

theorem Seated.pairingMessage (h : c.Seated) {i : SocketId} {role : SocketRole} {e : Envelope}
    (hrole : ∀ s, c.sockets[i]? = some s → s.role = .normal → role = .normal) :
    Advances K c (c.pairingMessage i role e) := by
  have hclose (d : HarnessClient) (hd : Advances K c d) : Advances K c (d.modifySocket i Socket.close) := by
    refine hd.modifySocket (fun s _ hn => ?_) readyState_close
    obtain ⟨hr, ha⟩ := closeSocket_keeps s
    exact ⟨hr.trans hn, ha⟩
  unfold HarnessClient.pairingMessage
  split
  · refine h.finishPairing hrole fun d hd => ?_
    exact (hclose d hd).keep rfl rfl rfl (fun _ => le_refl _) rfl
      (List.forall_mem_singleton.mpr fun _ _ he => by cases he)
  · refine h.finishPairing hrole fun d hd => (hclose d hd).emit ?_
    split
    · exact fun _ _ he => by cases he
    · exact fun _ _ he => by cases he
  · exact .refl h

theorem Seated.onmessage (h : c.Seated) {i : SocketId} {role : SocketRole} {data : Option Json} {env : Env}
    (hrole : ∀ s, c.sockets[i]? = some s → s.role = .normal → role = .normal)
    (hbase : K → ∀ e snap, role = .normal → data.bind parseEnvelope = some e → e.inbound = .snapshot snap →
      snapshotBase c.session snap = c.session) : Advances K c (c.onmessage i role data env) := by
  unfold HarnessClient.onmessage
  split
  · exact .refl h
  · rename_i e he
    split
    · exact h.handleEnvelope e env fun hK snap hin => hbase hK e snap rfl he hin
    · exact h.pairingMessage hrole

theorem Seated.onclose (h : c.Seated) {i : SocketId} {role : SocketRole} {code : Option Nat} {env : Env}
    (hrole : ∀ s, c.sockets[i]? = some s → s.role = .normal → role = .normal) :
    Advances K c (c.onclose i role code env) := by
  unfold HarnessClient.onclose
  split
  · exact h.finishPairing hrole fun d hd => hd.emit fun _ _ he => by cases he
  · split
    · exact .refl h
    · split
      · exact (Advances.refl h).setPhase _
      · split
        · exact .refl h
        · exact (Advances.refl h).scheduleReconnect env

theorem Seated.onerror (h : c.Seated) {i : SocketId} {role : SocketRole}
    (hrole : ∀ s, c.sockets[i]? = some s → s.role = .normal → role = .normal) :
    Advances K c (c.onerror i role) := by
  unfold HarnessClient.onerror
  split
  · exact h.finishPairing hrole fun d hd => hd.emit fun _ _ he => by cases he
  · exact .refl h

/-- The socket whose handlers run has the role they were made for. -/
theorem role_of_get {i : SocketId} {s : Socket} (hi : c.sockets[i]? = some s) :
    ∀ s', c.sockets[i]? = some s' → s'.role = .normal → s.role = .normal := by
  intro s' hi' hn
  obtain rfl : s = s' := Option.some.inj (hi.symm.trans hi')
  exact hn

/-- **A turn moves forward**, unless it is the one that opens a socket. -/
theorem Seated.turn (h : c.Seated) {a : Action} {d : HarnessClient} (ht : c.turn a = some d)
    (hopened : ∀ i, a ≠ .opened i) (hstays : K → Stays c a) : Advances K c d := by
  cases a with
  | setIdentity identity =>
    cases ht
    have hset : Advances K c { c with identity := identity } :=
      (Advances.refl h).update rfl rfl rfl (fun _ => le_refl _) rfl
    exact hset.emit fun _ _ he => by cases he
  | setLastSeq seq =>
    cases ht
    exact h.setLastSeq seq
  | reset =>
    cases ht
    refine ⟨⟨h.normal, fun hr => by cases hr⟩, le_refl _, fun _ _ hr => .inl hr,
      fun i hi => .inl ⟨hi, fun hK => ?_⟩, [], (List.append_nil _).symm, List.forall_mem_nil _⟩
    cases hi.symm.trans ((hstays hK).reset rfl)
  | connect identity env =>
    cases ht
    exact h.connect identity env
  | close =>
    cases ht
    exact h.close
  | pair token url spki env =>
    cases ht
    exact h.pair token url spki env
  | send req id =>
    cases ht
    exact h.sendCommand req id
  | resume env =>
    obtain rfl := of_turn_resume ht
    exact h.resumePair env
  | opened i => exact absurd rfl (hopened i)
  | message i data env =>
    obtain ⟨s, hi, hopen, rfl⟩ := of_turn_message ht
    split
    · rename_i hatt
      refine h.onmessage (role_of_get hi) fun hK e snap hrole he hin => (hstays hK).base snap ?_
      exact ⟨i, data, env, s, e, rfl, hi, hopen, hatt, hrole, he, hin⟩
    · exact .refl h
  | closed i code env =>
    obtain ⟨s, hi, -, rfl⟩ := of_turn_closed ht
    have hclosed : Advances K c (c.modifySocket i fun s => { s with readyState := .closed }) :=
      (Advances.refl h).modifySocket (fun s _ hn => ⟨hn, rfl⟩) fun _ => .inr (.inr rfl)
    split
    · refine hclosed.trans (hclosed.seated.onclose fun s' hi' hn => ?_)
      have hget : (c.modifySocket i fun s => { s with readyState := .closed }).sockets[i]? =
          some { s with readyState := .closed } := by
        show (c.sockets.modify i _)[i]? = _
        rw [List.getElem?_modify, hi]
        simp
      obtain rfl := Option.some.inj (hget.symm.trans hi')
      exact hn
    · exact hclosed
  | errored i =>
    obtain ⟨s, hi, rfl⟩ := of_turn_errored ht
    split
    · exact h.onerror (role_of_get hi)
    · exact .refl h
  | closing i =>
    obtain rfl := of_turn_closing ht
    refine (Advances.refl h).modifySocket (fun s _ hn => ?_) readyState_close
    obtain ⟨hr, ha⟩ := closeSocket_keeps s
    exact ⟨hr.trans hn, ha⟩
  | timer env =>
    have hset : Advances K c { c with reconnectTimer := false, retryInMs := none } :=
      (Advances.refl h).update rfl rfl rfl (fun _ => le_refl _) rfl
    obtain ⟨-, rfl⟩ | ⟨-, rfl⟩ := of_turn_timer ht
    · exact hset
    · exact hset.trans (hset.seated.openNormalSocket env)

end HarnessClient

/-! ## Steps -/

/-- The hello of a socket. -/
def HarnessClient.greeting (c : HarnessClient) : SocketRole → Frame
  | .pairing token _ _ => .hello (.str "") 0 (some token) none
  | .normal =>
      let deviceId : JsValue :=
        match c.identity with
        | none => .str ""
        | some identity =>
            match identity.deviceId with
            | .undefined => .str ""
            | .null => .str ""
            | v => v
      .hello deviceId c.session.lastSeq none (if c.authMode = .hello then c.identity.map (·.credential) else none)

theorem HarnessClient.onopen_greets (c : HarnessClient) (i : SocketId) (role : SocketRole) :
    c.onopen i role = c.sendEnvelope i (c.greeting role) := by
  cases role <;> rfl

/-- **`Steps K c a c' os`** — what a step from `c` to `c'`, seeing `os`, has to do with the sockets. -/
structure Steps (K : Prop) (c : HarnessClient) (a : Action) (c' : HarnessClient) (os : List Obs) : Prop where
  seated : c'.Seated
  length : c.sockets.length ≤ c'.sockets.length
  ages : ∀ i r, c'.readyState i = some r → c.readyState i = some r ∨ r = .closing ∨ r = .closed ∨
    (r = .connecting ∧ c.sockets.length ≤ i) ∨ (r = .open ∧ a = .opened i)
  position : ∀ i, c'.socket = some i →
    (c.socket = some i ∧ (K → c.session.lastSeq ≤ c'.session.lastSeq)) ∨ c.sockets.length ≤ i
  /-- a command for the current socket, or the hello of a socket that opens -/
  sent : (∀ i f, .sent i f ∈ os → c.socket = some i ∧ c.readyState i = some .open ∧ ∃ cmd, f = .command cmd) ∨
    ∃ i s, a = .opened i ∧ c.sockets[i]? = some s ∧ s.readyState = .connecting ∧
      os = [.sent i (c.greeting s.role)] ∧ c'.session = c.session

theorem Advances.steps {K : Prop} {c d : HarnessClient} {a : Action} (hout : c.out = []) (h : Advances K c d) :
    Steps K c a d d.out where
  seated := h.seated
  length := h.length
  ages := by
    intro i r hr
    rcases h.ages i r hr with hold | hclosing | hclosed | hnew
    · exact .inl hold
    · exact .inr (.inl hclosing)
    · exact .inr (.inr (.inl hclosed))
    · exact .inr (.inr (.inr (.inl hnew)))
  position := h.position
  sent := by
    obtain ⟨os, ho, hall⟩ := h.out
    rw [hout, List.nil_append] at ho
    exact .inl fun i f hs => hall _ (ho ▸ hs) i f rfl

/-- The turn of the open event sends the hello, and changes nothing else. -/
theorem opened_steps {K : Prop} {c d : HarnessClient} (h : c.Seated) (hout : c.out = []) {i : SocketId}
    (ht : c.turn (.opened i) = some d) : Steps K c (.opened i) d d.out := by
  obtain ⟨s, hi, hwaits, rfl⟩ := HarnessClient.of_turn_opened ht
  rw [HarnessClient.onopen_greets]
  refine ⟨⟨fun j hj => ?_, h.resync⟩, (List.length_modify ..).ge, fun j r hr => ?_,
    fun j hj => .inl ⟨hj, fun _ => le_refl _⟩, .inr ⟨i, s, rfl, hi, hwaits, ?_, rfl⟩⟩
  · obtain ⟨s', hs', hrole, hatt⟩ := h.normal j hj
    have hget : (c.sockets.modify i fun s => { s with readyState := .open })[j]? =
        some (if i = j then { s' with readyState := .open } else s') := by
      rw [List.getElem?_modify, hs']
      rfl
    refine ⟨_, hget, ?_⟩
    split <;> exact ⟨hrole, hatt⟩
  · replace hr :
        ((c.sockets.modify i fun s => { s with readyState := .open })[j]?).map (·.readyState) = some r := hr
    rw [List.getElem?_modify] at hr
    by_cases hij : i = j
    · subst hij
      rw [hi] at hr
      obtain rfl : ReadyState.open = r := by simpa using hr
      exact .inr (.inr (.inr (.inr ⟨rfl, rfl⟩)))
    · refine .inl ?_
      rw [HarnessClient.readyState]
      simpa [hij] using hr
  · show c.out ++ [Obs.sent i (c.greeting s.role)] = _
    rw [hout]
    rfl

theorem HarnessClient.Seated.step {K : Prop} {c c' : HarnessClient} (h : c.Seated) {a : Action} {os : List Obs}
    (hs : c.step a = some (c', os)) (hstays : K → Stays c a) : Steps K c a c' os := by
  obtain ⟨d, ht, he⟩ := Option.map_eq_some_iff.mp hs
  cases he
  have hclear : HarnessClient.Seated { c with out := [] } := ⟨h.normal, h.resync⟩
  have hsteps : Steps K { c with out := [] } a d d.out := by
    by_cases hopened : ∃ i, a = .opened i
    · obtain ⟨i, rfl⟩ := hopened
      exact opened_steps hclear rfl ht
    · exact (hclear.turn ht (fun i he => hopened ⟨i, he⟩)
        fun hK => ⟨(hstays hK).reset, (hstays hK).base⟩).steps rfl
  exact ⟨⟨hsteps.seated.normal, hsteps.seated.resync⟩, hsteps.length, hsteps.ages, hsteps.position,
    hsteps.sent⟩

/-- Frames are sent on sockets that exist. -/
theorem Steps.lt {K : Prop} {c c' : HarnessClient} {a : Action} {os : List Obs} (h : Steps K c a c' os)
    {i : SocketId} {f : Frame} (hs : .sent i f ∈ os) : i < c.sockets.length := by
  rcases h.sent with hall | ⟨j, s, -, hj, -, rfl, -⟩
  · exact HarnessClient.lt_of_readyState (hall i f hs).2.1
  · cases List.mem_singleton.mp hs
    exact (List.getElem?_eq_some_iff.mp hj).1

/-- A hello says the position the client is at, or it is one for pairing. -/
theorem Steps.hello {K : Prop} {c c' : HarnessClient} {a : Action} {os : List Obs} (h : Steps K c a c' os)
    {i : SocketId} {d : JsValue} {k : ℚ} {token : Option String} {credential : Option JsValue}
    (hs : .sent i (.hello d k token credential) ∈ os) : k = 0 ∨ k = c'.session.lastSeq := by
  rcases h.sent with hall | ⟨j, s, -, -, -, rfl, hsess⟩
  · obtain ⟨-, -, cmd, he⟩ := hall i _ hs
    cases he
  · have he : Obs.sent i (.hello d k token credential) = .sent j (c.greeting s.role) := List.mem_singleton.mp hs
    rw [hsess]
    cases hrole : s.role with
    | pairing token spki settled =>
      rw [hrole] at he
      cases he
      exact .inl rfl
    | normal =>
      rw [hrole] at he
      injection he with _ he
      injection he with _ hk
      exact .inr hk

/-- **An event that was heard is behind the position**, if the socket it was heard on is still in use. -/
theorem heard_behind {c c' : HarnessClient} (h : c.Seated) {i : SocketId} (hcur : c.socket = some i) {env : Env}
    {ev : Wire.EventPayload} (hsmall : ev.seq < 2 ^ 63) {os : List Obs}
    (hs : c.step (arrives i env (.event ev)) = some (c', os)) (hstill : c'.socket = some i) :
    (ev.seq : ℚ) ≤ c'.session.lastSeq := by
  obtain ⟨d, ht, he⟩ := Option.map_eq_some_iff.mp hs
  cases he
  obtain ⟨s, hi, hopen, hrole, hatt⟩ : ∃ s, c.sockets[i]? = some s ∧ s.readyState ≠ .closed ∧
      s.role = .normal ∧ s.attached = true := by
    obtain ⟨s, hi, hopen, -⟩ := HarnessClient.of_turn_message ht
    obtain ⟨s', hi', hrole, hatt⟩ := h.normal i hcur
    obtain rfl : s = s' := Option.some.inj (hi.symm.trans hi')
    exact ⟨s, hi, hopen, hrole, hatt⟩
  have hd : HarnessClient.handleEvent { c with out := [] } (eventMembers ev) env = d := by
    rw [arrives, HarnessClient.turn_message (c := { c with out := [] }) hi hopen, if_pos hatt, hrole] at ht
    exact Option.some.inj ht
  have hseq : HarnessClient.seqOf (eventMembers ev) = .finite ev.seq := seqOf_eventMembers hsmall
  show (ev.seq : ℚ) ≤ d.session.lastSeq
  rcases lt_or_ge c.session.lastSeq ev.seq with hgt | hle
  · rw [HarnessClient.handleEvent_of_lt (c := { c with out := [] }) hseq hgt] at hd
    split at hd
    · -- a gap: the socket is given up
      have hnone := HarnessClient.noteGap_socket { c with out := [] } (.finite ev.seq) env
      rw [hd] at hnone
      cases hnone.symm.trans hstill
    · subst hd
      rw [(HarnessClient.acceptEvent_session _ _).1, HarnessClient.nextSession_lastSeq]
      exact le_refl _
  · have hdup : d.session = c.session := by
      subst hd
      unfold HarnessClient.handleEvent
      rw [hseq]
      dsimp only
      rw [if_pos (by simpa [JsNumber.le] using hle)]
      rfl
    rw [hdup]
    exact hle

end Harness.Client
