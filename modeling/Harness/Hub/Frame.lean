/-
# Harness.Hub.Frame — what a step leaves alone, and what the trace records of the rest.

Most steps of the daemon touch neither the log nor the pending maps nor the idempotency set: they are
`Quiet`. The others are four — a new idempotency key, a claimed request, an append, a noted request.

The trace is the other half of the bookkeeping. Every observation of a connection was made by that
connection's goroutine (`StepTrans.of_conn`), the log is exactly the sequence of appended events
(`log_eq_appended`), and a bound on what one goroutine spends is a bound on what all of them spend
(`thread_ledger`).
-/
import Harness.Hub.Inversion
import Harness.Lib.Threads

namespace Harness.Hub

open Wire Auth Lib

/-! ## Quiet steps -/

/-- `h'` differs from `h` at most in the clock, the client set, the queues, and the tables of devices
and pairing tokens. -/
structure Quiet (h h' : Hub) : Prop where
  events : h'.store.events = h.store.events
  sessions : h'.store.sessions = h.store.sessions
  pending : h'.pending = h.pending
  pendingQuestions : h'.pendingQuestions = h.pendingQuestions
  idempotency : h'.idempotency = h.idempotency

theorem Quiet.refl (h : Hub) : Quiet h h := ⟨rfl, rfl, rfl, rfl, rfl⟩

theorem Quiet.trans {h h' h'' : Hub} (h₁ : Quiet h h') (h₂ : Quiet h' h'') : Quiet h h'' :=
  ⟨h₂.events.trans h₁.events, h₂.sessions.trans h₁.sessions, h₂.pending.trans h₁.pending,
    h₂.pendingQuestions.trans h₁.pendingQuestions, h₂.idempotency.trans h₁.idempotency⟩

theorem Quiet.isPending {h h' : Hub} (hq : Quiet h h') (a : Ask) : h'.isPending a = h.isPending a := by
  cases a with
  | permission r => simp only [Hub.isPending, hq.pending]
  | question q => simp only [Hub.isPending, hq.pendingQuestions]

/-- A change of the device and token tables only. -/
theorem Quiet.of_store {h : Hub} {st : Store} (he : st.events = h.store.events)
    (hs : st.sessions = h.store.sessions) : Quiet h { h with store := st } :=
  ⟨he, hs, rfl, rfl, rfl⟩

/-! ## Queues -/

/-- The frame an observation offers to a client, whether it was queued or dropped. -/
def Obs.offer : Obs → Option (ConnId × Envelope)
  | .enqueued c f => some (c, f)
  | .dropped c f => some (c, f)
  | _ => none

theorem enqueueRaw_obs (cfg : Config) (h : Hub) (c : ConnId) (f : Envelope) :
    (enqueueRaw cfg h c f).2 = .enqueued c f ∨ (enqueueRaw cfg h c f).2 = .dropped c f := by
  unfold enqueueRaw
  split
  · exact .inl rfl
  · exact .inr rfl

@[simp] theorem enqueueRaw_offer (cfg : Config) (h : Hub) (c : ConnId) (f : Envelope) :
    (enqueueRaw cfg h c f).2.offer = some (c, f) := by
  rcases enqueueRaw_obs cfg h c f with he | he <;> rw [he] <;> rfl

/-- The fate of a frame is a queue observation. -/
theorem mem_queued {cfg : Config} {h : Hub} {c : ConnId} {f : Envelope} {o : Obs}
    (hoff : o.offer = none) : o ∈ [(enqueueRaw cfg h c f).2] ↔ False := by
  refine ⟨fun ho => ?_, False.elim⟩
  rw [List.mem_singleton.mp ho, enqueueRaw_offer] at hoff
  cases hoff

/-- An answer is one observation and the fate of the frame that carries it. -/
theorem mem_answered {cfg : Config} {h : Hub} {c : ConnId} {f : Envelope} {o o' : Obs}
    (hoff : o.offer = none) : o ∈ [o', (enqueueRaw cfg h c f).2] ↔ o = o' := by
  constructor
  · intro ho
    rcases List.mem_pair.mp ho with rfl | rfl
    · rfl
    · rw [enqueueRaw_offer] at hoff
      cases hoff
  · rintro rfl
    exact List.mem_cons_self

/-- What every queue observation satisfies, the one of `enqueueRaw` satisfies. -/
theorem enqueueRaw_motive {motive : Obs → Prop} (cfg : Config) (h : Hub) {c : ConnId} {f : Envelope}
    (hq : motive (.enqueued c f)) (hd : motive (.dropped c f)) :
    motive (enqueueRaw cfg h c f).2 := by
  rcases enqueueRaw_obs cfg h c f with he | he <;> rw [he] <;> assumption

/-- The same of an observation followed by an answer to the client. -/
theorem answered_motive {motive : Obs → Prop} (cfg : Config) (h : Hub) {c : ConnId} {f : Envelope}
    {o : Obs} (ho : motive o) (hq : motive (.enqueued c f)) (hd : motive (.dropped c f)) :
    ∀ o' ∈ [o, (enqueueRaw cfg h c f).2], motive o' := by
  intro o' ho'
  rcases List.mem_pair.mp ho' with rfl | rfl
  · exact ho
  · exact enqueueRaw_motive cfg h hq hd

theorem enqueueRaw_quiet (cfg : Config) (h : Hub) (c : ConnId) (f : Envelope) :
    Quiet h (enqueueRaw cfg h c f).1 :=
  ⟨rfl, rfl, rfl, rfl, rfl⟩

/-- Offering a batch changes the client's queue only, and offers its frames in order. -/
theorem enqueueAll_spec {cfg : Config} {c : ConnId} {fs : List Envelope} :
    ∀ {h h' : Hub} {os : List Obs}, enqueueAll cfg h c fs = (h', os) →
      Quiet h h' ∧ h'.clients = h.clients ∧ h'.store = h.store ∧
        os.map Obs.offer = fs.map fun f => some (c, f) := by
  induction fs with
  | nil =>
    intro h h' os he
    cases he
    exact ⟨Quiet.refl h, rfl, rfl, rfl⟩
  | cons f fs ih =>
    intro h h' os he
    cases he
    obtain ⟨hq, hc, hst, hos⟩ := ih (h := (enqueueRaw cfg h c f).1) rfl
    refine ⟨(enqueueRaw_quiet cfg h c f).trans hq, hc, hst, ?_⟩
    rw [List.map_cons, List.map_cons, enqueueRaw_offer, hos]

theorem enqueueAll_obs {cfg : Config} {c : ConnId} {fs : List Envelope} {h h' : Hub} {os : List Obs}
    (he : enqueueAll cfg h c fs = (h', os)) : ∀ o ∈ os, ∃ f ∈ fs, o.offer = some (c, f) := by
  intro o ho
  obtain ⟨-, -, -, hos⟩ := enqueueAll_spec he
  have hm : o.offer ∈ os.map Obs.offer := List.mem_map_of_mem ho
  rw [hos] at hm
  obtain ⟨f, hf, hof⟩ := List.mem_map.mp hm
  exact ⟨f, hf, hof.symm⟩

/-! ## Frames of the goroutines -/

theorem BroadcastTrans.frame {cfg : Config} {h h' : Hub} {ev : EventPayload} {pc : BroadcastPc}
    {pc' : Option BroadcastPc} {os : List Obs} (ht : BroadcastTrans cfg h ev pc h' pc' os) :
    Quiet h h' ∧ h'.clients = h.clients ∧ h'.store = h.store ∧
      ∀ o ∈ os, ∃ c, o.offer = some (c, .event ev) := by
  cases ht with
  | copy => exact ⟨Quiet.refl h, rfl, rfl, fun o ho => absurd ho List.not_mem_nil⟩
  | deliver =>
    refine ⟨enqueueRaw_quiet _ _ _ _, rfl, rfl, fun o ho => ?_⟩
    rw [List.mem_singleton.mp ho]
    exact ⟨_, enqueueRaw_offer _ _ _ _⟩
  | done => exact ⟨Quiet.refl h, rfl, rfl, fun o ho => absurd ho List.not_mem_nil⟩

theorem consumePairingToken_log {db db' : Store} {token : String} {now : Int} {r : Option String}
    (h : consumePairingToken db token now = (r, db')) :
    db'.events = db.events ∧ db'.sessions = db.sessions ∧ db'.devices = db.devices := by
  cases r with
  | none =>
    rcases consumePairingToken_none h with rfl | rfl <;> exact ⟨rfl, rfl, rfl⟩
  | some n =>
    obtain ⟨-, rfl⟩ := consumePairingToken_some h
    exact ⟨rfl, rfl, rfl⟩

theorem approvePendingToken_log {db db' : Store} {token name : String}
    (h : db.approvePendingToken token name = some db') :
    db'.events = db.events ∧ db'.sessions = db.sessions ∧ db'.devices = db.devices := by
  unfold Store.approvePendingToken at h
  split at h
  · cases h
  · cases h
    exact ⟨rfl, rfl, rfl⟩

theorem createPendingToken_log {db db' : Store} {token : String} {exp : Int}
    (h : db.createPendingToken token exp = some db') :
    db'.events = db.events ∧ db'.sessions = db.sessions ∧ db'.devices = db.devices := by
  unfold Store.createPendingToken at h
  split at h
  · cases h
  · cases h
    exact ⟨rfl, rfl, rfl⟩

theorem PairTrans.frame {cfg : Config} {c : ConnId} {h h' : Hub} {p : Attempt} {pc : PairPc}
    {ch : Choice} {ph : ConnPhase} {os : List Obs} (ht : PairTrans cfg c h p pc ch h' ph os) :
    Quiet h h' ∧ h'.clients = h.clients ∧ h'.outbound = h.outbound := by
  have keep {st : Store} (hst : st = h.store ∨ st = h.store.deletePendingToken p.token) :
      Quiet h { h with store := st } := by
    rcases hst with rfl | rfl <;> exact Quiet.of_store rfl rfl
  cases ht with
  | peek | allowed | check | issueFails => exact ⟨Quiet.refl h, rfl, rfl⟩
  | consume hcons =>
    obtain ⟨he, hs, -⟩ := consumePairingToken_log hcons
    exact ⟨Quiet.of_store he hs, rfl, rfl⟩
  | ask hst => exact ⟨keep hst, rfl, rfl⟩
  | approve happ =>
    obtain ⟨he, hs, -⟩ := approvePendingToken_log happ
    exact ⟨Quiet.of_store he hs, rfl, rfl⟩
  | consumeOwn hcons =>
    obtain ⟨he, hs, -⟩ := consumePairingToken_log hcons
    exact ⟨Quiet.of_store he hs, rfl, rfl⟩
  | consumeLost _ hst => exact ⟨keep hst, rfl, rfl⟩
  | issue hiss =>
    cases hiss
    exact ⟨Quiet.of_store rfl rfl, rfl, rfl⟩
  | quit hst _ => exact ⟨keep hst, rfl, rfl⟩

theorem ServeTrans.frame {cfg : Config} {c : ConnId} {h h' : Hub} {dev : DeviceID} {k : Int}
    {pc : ServePc} {ph : ConnPhase} {os : List Obs} (ht : ServeTrans cfg c h dev k pc h' ph os) :
    Quiet h h' ∧ h'.store = h.store := by
  cases ht with
  | getSession | getEvents | getSince | quit => exact ⟨Quiet.refl h, rfl⟩
  | register hh1 henq =>
    subst hh1
    obtain ⟨hq, -, hst, -⟩ := enqueueAll_spec henq
    exact ⟨⟨hq.events, hq.sessions, hq.pending, hq.pendingQuestions, hq.idempotency⟩, hst⟩

/-! ## Observations and the goroutines that make them -/

/-- Which code makes an observation. Queue observations are made by whoever broadcasts, acknowledges
or catches up. -/
inductive Source where
  | handler (c : ConnId)
  | pairing (c : ConnId)
  | serving (c : ConnId)
  | direct (c : ConnId)
  | queue
  | ingest
  | writer
  | operator
  deriving DecidableEq

def Obs.source : Obs → Source
  | .accepted c _ _ | .suppressed c _ _ | .claimed c _ | .appended (.command c _ _) _
  | .acked c _ _ | .rejected c _ _ _ | .handed c _ _ _ _ => .handler c
  | .approverSaid c _ _ | .approved (.conn c) _ | .consumed c _ | .issued c _ _ _
  | .issueFailed c _ => .pairing c
  | .registered c _ _ => .serving c
  | .direct c _ => .direct c
  | .enqueued _ _ | .dropped _ _ => .queue
  | .noted _ | .appended .ingest _ => .ingest
  | .written _ _ => .writer
  | .tokenCreated _ | .approved .outOfBand _ | .revoked _ => .operator

/-- The connection whose goroutine the code runs in. -/
def Source.conn? : Source → Option ConnId
  | .handler c | .pairing c | .serving c | .direct c => some c
  | _ => none

/-- The code a connection goroutine runs where it stands. -/
def ConnPhase.source (c : ConnId) : ConnPhase → Source
  | .handling _ _ _ => .handler c
  | .pairing _ _ => .pairing c
  | .serving _ _ _ => .serving c
  | _ => .direct c

theorem Obs.source_of_offer {o : Obs} {x : ConnId × Envelope} (h : o.offer = some x) :
    o.source = .queue := by
  cases o <;> simp_all [Obs.offer, Obs.source]

/-- A count that queue observations do not enter. -/
def IgnoresQueue (p : Obs → Bool) : Prop :=
  ∀ c f, p (.enqueued c f) = false ∧ p (.dropped c f) = false

theorem IgnoresQueue.of_offer {p : Obs → Bool} (hp : IgnoresQueue p) {o : Obs}
    {x : ConnId × Envelope} (h : o.offer = some x) : p o = false := by
  cases o with
  | enqueued c f => exact (hp c f).1
  | dropped c f => exact (hp c f).2
  | _ => cases h

theorem countP_queued {cfg : Config} {h : Hub} {c : ConnId} {f : Envelope} {p : Obs → Bool}
    (hp : IgnoresQueue p) : [(enqueueRaw cfg h c f).2].countP p = 0 := by
  rw [countP_one, hp.of_offer (enqueueRaw_offer _ _ _ _)]
  rfl

theorem countP_answered {cfg : Config} {h : Hub} {c : ConnId} {f : Envelope} {o : Obs}
    {p : Obs → Bool} (hp : IgnoresQueue p) : [o, (enqueueRaw cfg h c f).2].countP p = (p o).toNat := by
  have hq : p (enqueueRaw cfg h c f).2 = false := hp.of_offer (enqueueRaw_offer _ _ _ _)
  rw [List.countP_cons, List.countP_cons, hq]
  cases p o <;> rfl

theorem BroadcastTrans.countP {cfg : Config} {h h' : Hub} {ev : EventPayload} {pc : BroadcastPc}
    {pc' : Option BroadcastPc} {os : List Obs} (ht : BroadcastTrans cfg h ev pc h' pc' os)
    {p : Obs → Bool} (hp : IgnoresQueue p) : os.countP p = 0 := by
  obtain ⟨-, -, -, hos⟩ := ht.frame
  rw [List.countP_eq_zero]
  intro o ho
  obtain ⟨c, hc⟩ := hos o ho
  rw [hp.of_offer hc]
  exact Bool.false_ne_true

theorem IngestTrans.obs {cfg : Config} {h h' : Hub} {ph ph' : IngestPhase} {ch : Choice}
    {os : List Obs} (ht : IngestTrans cfg h ph ch h' ph' os) :
    ∀ o ∈ os, o.source = .ingest ∨ o.source = .queue := by
  intro o ho
  cases ht with
  | receive | appendFails => exact absurd ho List.not_mem_nil
  | append _ =>
    rw [List.mem_singleton.mp ho]
    exact .inl rfl
  | note =>
    unfold Hub.note at ho
    split at ho
    · rw [List.mem_singleton.mp ho]
      exact .inl rfl
    · rw [List.mem_singleton.mp ho]
      exact .inl rfl
    · exact absurd ho List.not_mem_nil
  | broadcast hb | broadcastDone hb =>
    obtain ⟨-, -, -, hos⟩ := hb.frame
    obtain ⟨c, hc⟩ := hos o ho
    exact .inr (Obs.source_of_offer hc)

/-- The observations of connection `c`'s goroutine are made by the code it stands in, are frames
written directly to `c`, or are queue observations. -/
theorem ConnTrans.obs {cfg : Config} {c : ConnId} {h h' : Hub} {ph ph' : ConnPhase} {ch : Choice}
    {os : List Obs} (ht : ConnTrans cfg c h ph ch h' ph' os) :
    ∀ o ∈ os, o.source = ph.source c ∨ o.source = .direct c ∨ o.source = .queue := by
  intro o ho
  cases ht with
  | authenticated | unauthenticated | frame | skip | gone => exact absurd ho List.not_mem_nil
  | turnedAway hos =>
    obtain ⟨code, msg, rfl⟩ := hos o ho
    exact .inl rfl
  | pairing ht =>
    cases ht with
    | peek | ask | check | consumeLost => exact absurd ho List.not_mem_nil
    | consume | allowed | approve | consumeOwn =>
      rw [List.mem_singleton.mp ho]
      exact .inl rfl
    | issue | issueFails =>
      rcases List.mem_pair.mp ho with rfl | rfl
      · exact .inl rfl
      · exact .inr (.inl rfl)
    | quit _ hos =>
      rcases hos o ho with ⟨code, msg, rfl⟩ | rfl
      · exact .inr (.inl rfl)
      · exact .inl rfl
  | serving ht =>
    cases ht with
    | getSession | getEvents | getSince => exact absurd ho List.not_mem_nil
    | register _ henq =>
      rcases List.mem_cons.mp ho with rfl | ho
      · exact .inl rfl
      · obtain ⟨f, -, hf⟩ := enqueueAll_obs henq o ho
        exact .inr (.inr (Obs.source_of_offer hf))
    | quit =>
      rw [List.mem_singleton.mp ho]
      exact .inr (.inl rfl)
  | handling ht =>
    cases ht with
    | appendFails => exact absurd ho List.not_mem_nil
    | noId =>
      rw [List.mem_singleton.mp ho]
      exact .inr (.inr (Obs.source_of_offer (enqueueRaw_offer _ _ _ _)))
    | suppress | accept | append | command | commandFails =>
      rw [List.mem_singleton.mp ho]
      exact .inl rfl
    | replay | ack | reject =>
      rcases List.mem_pair.mp ho with rfl | rfl
      · exact .inl rfl
      · exact .inr (.inr (Obs.source_of_offer (enqueueRaw_offer _ _ _ _)))
    | execute hex =>
      cases hex with
      | claim =>
        rw [List.mem_singleton.mp ho]
        exact .inl rfl
      | proceed | refuse => exact absurd ho List.not_mem_nil
    | broadcast hb | broadcastDone hb =>
      obtain ⟨-, -, -, hos⟩ := hb.frame
      obtain ⟨c', hc'⟩ := hos o ho
      exact .inr (.inr (Obs.source_of_offer hc'))

/-- **Every observation of a connection is made by that connection's goroutine**, in the phase the
observation belongs to. -/
theorem StepTrans.of_conn {cfg : Config} {w w' : World} {a : Action} {os : List Obs}
    (h : StepTrans cfg w a w' os) {o : Obs} (ho : o ∈ os) {c : ConnId}
    (hc : o.source.conn? = some c) :
    ∃ ch ph h' ph', a = .conn c ch ∧ w.conns[c]? = some ph ∧
      (o.source = ph.source c ∨ o.source = .direct c) ∧
      ConnTrans cfg c w.hub ph ch h' ph' os ∧
      w' = { w with hub := h', conns := w.conns.set c ph' } := by
  -- a source that belongs to no connection is not the source of `o`
  have no : ∀ {src : Source}, o.source = src → src.conn? = none → False := by
    rintro src rfl hn
    rw [hc] at hn
    cases hn
  cases h with
  | @conn c' ch ph ph' h' _ hph ht =>
    have hown := ht.obs o ho
    have hc' : c' = c := by
      rcases hown with he | he | he
      · rw [he] at hc
        cases ph <;> simpa [ConnPhase.source, Source.conn?] using hc
      · rw [he] at hc
        simpa [Source.conn?] using hc
      · exact (no he rfl).elim
    subst hc'
    refine ⟨ch, ph, h', ph', rfl, hph, ?_, ht, rfl⟩
    rcases hown with he | he | he
    · exact .inl he
    · exact .inr he
    · exact (no he rfl).elim
  | ingest ht =>
    rcases ht.obs o ho with he | he
    · exact (no he rfl).elim
    · exact (no he rfl).elim
  | write hw hos =>
    rcases hos with ⟨f, rfl, -⟩ | rfl
    · rw [List.mem_singleton.mp ho] at hc
      cases hc
    · exact absurd ho List.not_mem_nil
  | accept | pairApproveGet | pairApproveLost | clock => exact absurd ho List.not_mem_nil
  | pairGenerate | pairApproveSet | pairRevoke =>
    rw [List.mem_singleton.mp ho] at hc
    cases hc

/-- **The phase rule.** A property of a connection's phase that only needs to look back holds of every
connection in every run, if the goroutine's own steps keep it. -/
theorem phase_rule {cfg : Config} {P : List Obs → World → Action → Prop} {db : Store} {now : Int}
    {I : ConnId → ConnPhase → List Obs → Prop}
    (mono : ∀ {c ph t t'}, t <+: t' → I c ph t → I c ph t')
    (new : ∀ {c hc ra ua t}, I c (.readHello hc ra ua) t)
    (step : ∀ {t u c ch ph h' ph' os}, (system cfg).Run P [] (World.init cfg db now) t u →
      P t u (.conn c ch) → u.conns[c]? = some ph → I c ph t →
      ConnTrans cfg c u.hub ph ch h' ph' os → I c ph' (t ++ os))
    {tr : List Obs} {w : World} (h : (system cfg).Run P [] (World.init cfg db now) tr w) :
    ∀ c ph, w.conns[c]? = some ph → I c ph tr := by
  refine h.invariant (I := fun t u => ∀ c ph, u.conns[c]? = some ph → I c ph t) ?_ ?_
  · intro c ph hph
    simp [World.init] at hph
  · intro t u a u' os hr ih hP hs c ph hph
    have old (hold : u.conns[c]? = some ph) : I c ph (t ++ os) :=
      mono (List.prefix_append t os) (ih c ph hold)
    cases World.step_trans hs with
    | conn hph0 ht =>
      rcases getElem?_set_cases hph with ⟨rfl, rfl⟩ | ⟨-, hold⟩
      · exact step hr hP hph0 (ih _ _ hph0) ht
      · exact old hold
    | accept =>
      rcases getElem?_concat_cases hph with hold | ⟨rfl, rfl⟩
      · exact old hold
      · exact new
    | _ => exact old hph

/-! ## The handler's books -/

/-- Lift a property of handler positions to the phases of a connection. -/
def ConnPhase.inHandler (q : DeviceID → CommandPayload → HandlerPc → Bool) : ConnPhase → Bool
  | .handling dev cmd pc => q dev cmd pc
  | _ => false

/-- Neither the handlers' nor the ingestion loop's observation. -/
def Obs.Aside (o : Obs) : Prop := o.source ≠ .ingest ∧ ∀ c, o.source ≠ .handler c

/-- Outside `handleCommand` a goroutine is quiet, and it enters `handleCommand` at its start only. -/
theorem ConnTrans.enters {cfg : Config} {c : ConnId} {h h' : Hub} {ph ph' : ConnPhase} {ch : Choice}
    {os : List Obs} (ht : ConnTrans cfg c h ph ch h' ph' os) :
    (∃ dev cmd pc, ph = .handling dev cmd pc ∧ HandleTrans cfg c h dev cmd pc ch h' ph' os) ∨
      (Quiet h h' ∧ (∀ o ∈ os, o.Aside) ∧
        ∀ q : DeviceID → CommandPayload → HandlerPc → Bool, (∀ dev cmd, q dev cmd .start = false) →
          ph.inHandler q = false ∧ ph'.inHandler q = false) := by
  have hobs := ht.obs
  have aside (hsrc : ∀ c', ph.source c ≠ .handler c') : ∀ o ∈ os, o.Aside := by
    intro o ho
    rcases hobs o ho with h1 | h1 | h1
    · refine ⟨?_, fun c' => h1 ▸ hsrc c'⟩
      rw [h1]
      cases ph <;> exact nofun
    · rw [Obs.Aside, h1]
      exact ⟨nofun, fun _ => nofun⟩
    · rw [Obs.Aside, h1]
      exact ⟨nofun, fun _ => nofun⟩
  cases ht with
  | handling ht => exact .inl ⟨_, _, _, rfl, ht⟩
  | frame => exact .inr ⟨Quiet.refl h, aside fun _ => nofun, fun q hq => ⟨rfl, hq _ _⟩⟩
  | authenticated | unauthenticated | turnedAway | skip =>
    exact .inr ⟨Quiet.refl h, aside fun _ => nofun, fun q hq => ⟨rfl, rfl⟩⟩
  | gone => exact .inr ⟨⟨rfl, rfl, rfl, rfl, rfl⟩, aside fun _ => nofun, fun q hq => ⟨rfl, rfl⟩⟩
  | pairing ht =>
    exact .inr ⟨ht.frame.1, aside fun _ => nofun, fun q hq => ⟨rfl, by cases ht <;> rfl⟩⟩
  | serving ht =>
    exact .inr ⟨ht.frame.1, aside fun _ => nofun, fun q hq => ⟨rfl, by cases ht <;> rfl⟩⟩

/-- **Who moves.** A step of the daemon is a step of one handler, a step of the ingestion loop, or a
quiet step that neither makes their observations nor moves them. -/
theorem StepTrans.actors {cfg : Config} {w w' : World} {a : Action} {os : List Obs}
    (h : StepTrans cfg w a w' os) :
    (∃ c dev cmd pc ch h' ph', a = .conn c ch ∧ w.conns[c]? = some (.handling dev cmd pc) ∧
      HandleTrans cfg c w.hub dev cmd pc ch h' ph' os ∧
      w' = { w with hub := h', conns := w.conns.set c ph' }) ∨
    (∃ ch h' ph', a = .ingest ch ∧ IngestTrans cfg w.hub w.ingest ch h' ph' os ∧
      w' = { w with hub := h', ingest := ph' }) ∨
    (Quiet w.hub w'.hub ∧ (∀ o ∈ os, o.Aside) ∧ w'.ingest = w.ingest ∧
      ∀ q : DeviceID → CommandPayload → HandlerPc → Bool, (∀ dev cmd, q dev cmd .start = false) →
        w'.conns.countP (ConnPhase.inHandler q) = w.conns.countP (ConnPhase.inHandler q)) := by
  have same (q : DeviceID → CommandPayload → HandlerPc → Bool)
      (_ : ∀ dev cmd, q dev cmd .start = false) :
      w.conns.countP (ConnPhase.inHandler q) = w.conns.countP (ConnPhase.inHandler q) := rfl
  have operator {o : Obs} (ho : o.source = .operator) : ∀ o' ∈ [o], o'.Aside := by
    rw [List.forall_mem_singleton, Obs.Aside, ho]
    exact ⟨nofun, fun _ => nofun⟩
  cases h with
  | @conn c ch ph ph' h' _ hph ht =>
    rcases ht.enters with ⟨dev, cmd, pc, rfl, hth⟩ | ⟨hq, hno, hout⟩
    · exact .inl ⟨c, dev, cmd, pc, ch, h', ph', rfl, hph, hth, rfl⟩
    · refine .inr (.inr ⟨hq, hno, rfl, fun q hstart => ?_⟩)
      have hmove := countP_set_add (y := ph') (p := ConnPhase.inHandler q) hph
      rw [(hout q hstart).1, (hout q hstart).2] at hmove
      exact hmove
  | ingest ht => exact .inr (.inl ⟨_, _, _, rfl, ht, rfl⟩)
  | accept =>
    refine .inr (.inr ⟨Quiet.refl _, List.forall_mem_nil _, rfl, fun q _ => ?_⟩)
    show (w.conns ++ [_]).countP (ConnPhase.inHandler q) = _
    simp [ConnPhase.inHandler]
  | write hw hos =>
    refine .inr (.inr ⟨⟨rfl, rfl, rfl, rfl, rfl⟩, fun o ho => ?_, rfl, same⟩)
    rcases hos with ⟨f, rfl, -⟩ | rfl
    · rw [List.mem_singleton.mp ho]
      exact ⟨nofun, fun _ => nofun⟩
    · exact absurd ho List.not_mem_nil
  | pairGenerate hst =>
    obtain ⟨he, hs, -⟩ := createPendingToken_log hst
    exact .inr (.inr ⟨Quiet.of_store he hs, operator rfl, rfl, same⟩)
  | pairApproveSet hst =>
    obtain ⟨he, hs, -⟩ := approvePendingToken_log hst
    exact .inr (.inr ⟨Quiet.of_store he hs, operator rfl, rfl, same⟩)
  | pairRevoke => exact .inr (.inr ⟨Quiet.of_store rfl rfl, operator rfl, rfl, same⟩)
  | pairApproveGet | pairApproveLost => exact .inr (.inr ⟨Quiet.refl _, List.forall_mem_nil _, rfl, same⟩)
  | clock => exact .inr (.inr ⟨⟨rfl, rfl, rfl, rfl, rfl⟩, List.forall_mem_nil _, rfl, same⟩)

/-- The number of handlers with property `q` moves with the handler that steps. -/
theorem StepTrans.handler_or_not {cfg : Config} {w w' : World} {a : Action} {os : List Obs}
    (h : StepTrans cfg w a w' os) {q : DeviceID → CommandPayload → HandlerPc → Bool}
    (hstart : ∀ dev cmd, q dev cmd .start = false) :
    (∃ c dev cmd pc ch h' ph', HandleTrans cfg c w.hub dev cmd pc ch h' ph' os ∧
      w'.conns.countP (ConnPhase.inHandler q) + (q dev cmd pc).toNat =
        w.conns.countP (ConnPhase.inHandler q) + (ph'.inHandler q).toNat) ∨
    ((∀ o ∈ os, ∀ c, o.source ≠ .handler c) ∧
      w'.conns.countP (ConnPhase.inHandler q) = w.conns.countP (ConnPhase.inHandler q)) := by
  rcases h.actors with ⟨c, dev, cmd, pc, ch, h', ph', -, hph, ht, rfl⟩ | ⟨ch, h', ph', -, ht, rfl⟩ |
    ⟨-, hno, -, hsame⟩
  · exact .inl ⟨c, dev, cmd, pc, ch, h', ph', ht,
      countP_set_add (y := ph') (p := ConnPhase.inHandler q) hph⟩
  · refine .inr ⟨fun o ho c he => ?_, rfl⟩
    rcases ht.obs o ho with h1 | h1
    · rw [he] at h1
      cases h1
    · rw [he] at h1
      cases h1
  · exact .inr ⟨fun o ho => (hno o ho).2, hsame q hstart⟩

/-- An observation only handlers make. -/
def HandlerOnly (p : Obs → Bool) : Prop := ∀ o, p o = true → ∃ c, o.source = .handler c

theorem HandlerOnly.countP_eq_zero {p : Obs → Bool} (hp : HandlerOnly p) {os : List Obs}
    (hno : ∀ o ∈ os, ∀ c, o.source ≠ .handler c) : os.countP p = 0 := by
  rw [List.countP_eq_zero]
  intro o ho hpo
  obtain ⟨c, hc⟩ := hp o hpo
  exact hno o ho c hc

/-- **The handler ledger.** If one step of `handleCommand` covers its spending with what its position
held or with what it earns, then so does every step of the daemon, all handlers taken together. -/
theorem handler_ledger {cfg : Config} {earn spend : Obs → Bool}
    {q : DeviceID → CommandPayload → HandlerPc → Bool} (hspend : HandlerOnly spend)
    (hstart : ∀ dev cmd, q dev cmd .start = false)
    (hstep : ∀ {c h dev cmd pc ch h' ph' os}, HandleTrans cfg c h dev cmd pc ch h' ph' os →
      os.countP spend + (ph'.inHandler q).toNat ≤ (q dev cmd pc).toNat + os.countP earn)
    {w w' : World} {a : Action} {os : List Obs} (h : StepTrans cfg w a w' os) :
    os.countP spend + w'.conns.countP (ConnPhase.inHandler q) ≤
      w.conns.countP (ConnPhase.inHandler q) + os.countP earn := by
  rcases h.handler_or_not hstart with ⟨c, dev, cmd, pc, ch, h', ph', ht, hmove⟩ | ⟨hno, hsame⟩
  · have hs := hstep ht
    omega
  · rw [hspend.countP_eq_zero hno, hsame]
    omega

/-- The exact ledger: nothing earned is lost. -/
theorem handler_ledger_eq {cfg : Config} {earn spend : Obs → Bool}
    {q : DeviceID → CommandPayload → HandlerPc → Bool} (hspend : HandlerOnly spend)
    (hearn : HandlerOnly earn) (hstart : ∀ dev cmd, q dev cmd .start = false)
    (hstep : ∀ {c h dev cmd pc ch h' ph' os}, HandleTrans cfg c h dev cmd pc ch h' ph' os →
      os.countP spend + (ph'.inHandler q).toNat = (q dev cmd pc).toNat + os.countP earn)
    {w w' : World} {a : Action} {os : List Obs} (h : StepTrans cfg w a w' os) :
    os.countP spend + w'.conns.countP (ConnPhase.inHandler q) =
      w.conns.countP (ConnPhase.inHandler q) + os.countP earn := by
  rcases h.handler_or_not hstart with ⟨c, dev, cmd, pc, ch, h', ph', ht, hmove⟩ | ⟨hno, hsame⟩
  · have hs := hstep ht
    omega
  · rw [hspend.countP_eq_zero hno, hearn.countP_eq_zero hno, hsame]
    omega

/-- The command of a handler whose event is in the log and which has not reached the adapter. -/
def HandlerPc.committed : HandlerPc → Option AgentCommand
  | .ack _ out | .broadcast _ out _ | .command _ out => some out
  | _ => none

/-- A handler that is committed to a command with property `m`. -/
def committedTo (m : DeviceID → String → AgentCommand → Bool) :
    DeviceID → CommandPayload → HandlerPc → Bool :=
  fun d cmd pc => pc.committed.any (m d (key cmd))

/-- A command handed to the adapter with property `m`. -/
def Obs.handedWith (m : DeviceID → String → AgentCommand → Bool) : Obs → Bool
  | .handed _ d k out _ => m d k out
  | _ => false

/-- **Handing over is paid for by an append**: one handler hands its command over once, after its
event entered the log. -/
theorem HandleTrans.hand_over {cfg : Config} {c : ConnId} {h h' : Hub} {d : DeviceID}
    {cmd : CommandPayload} {pc : HandlerPc} {ch : Choice} {ph : ConnPhase} {os : List Obs}
    (ht : HandleTrans cfg c h d cmd pc ch h' ph os)
    {m : DeviceID → String → AgentCommand → Bool} {earn : Obs → Bool}
    (hearn : ∀ c d k out ev, ev.kind = (commandEvent d out).1 → ev.payload = (commandEvent d out).2 →
      m d k out = true → earn (.appended (.command c d k) ev) = true) :
    os.countP (Obs.handedWith m) + (ph.inHandler (committedTo m)).toNat ≤
      (committedTo m d cmd pc).toNat + os.countP earn := by
  have hqueue : IgnoresQueue (Obs.handedWith m) := fun _ _ => ⟨rfl, rfl⟩
  cases ht with
  | @append _ out ev st happ =>
    -- the append earns what the committed handler will spend
    obtain ⟨-, hk, hp, -⟩ := Store.appendEvent_spec happ
    have he := hearn c d (key cmd) out ev hk hp
    cases hm : m d (key cmd) out with
    | false => simp [Obs.handedWith, ConnPhase.inHandler, committedTo, HandlerPc.committed, hm]
    | true =>
      simp [Obs.handedWith, ConnPhase.inHandler, committedTo, HandlerPc.committed, hm, he hm]
  | execute hex => cases hex <;> simp [Obs.handedWith, ConnPhase.inHandler, committedTo,
      HandlerPc.committed]
  | replay | ack | reject =>
    rw [countP_answered hqueue]
    simp [Obs.handedWith, ConnPhase.inHandler, committedTo, HandlerPc.committed]
  | broadcast hb | broadcastDone hb =>
    rw [hb.countP hqueue]
    simp [ConnPhase.inHandler, committedTo, HandlerPc.committed]
  | @command _ _ out | @commandFails _ out _ =>
    cases hm : m d (key cmd) out <;>
      simp [Obs.handedWith, ConnPhase.inHandler, committedTo, HandlerPc.committed, hm]
  | noId =>
    rw [countP_queued hqueue]
    simp [ConnPhase.inHandler]
  | suppress | accept | appendFails =>
    simp [Obs.handedWith, ConnPhase.inHandler, committedTo, HandlerPc.committed]

/-- One step of the daemon hands over what it was committed to, or what it appends. -/
theorem StepTrans.hand_over {cfg : Config} {w w' : World} {a : Action} {os : List Obs}
    (h : StepTrans cfg w a w' os)
    {m : DeviceID → String → AgentCommand → Bool} {earn : Obs → Bool}
    (hearn : ∀ c d k out ev, ev.kind = (commandEvent d out).1 → ev.payload = (commandEvent d out).2 →
      m d k out = true → earn (.appended (.command c d k) ev) = true) :
    os.countP (Obs.handedWith m) + w'.conns.countP (ConnPhase.inHandler (committedTo m)) ≤
      w.conns.countP (ConnPhase.inHandler (committedTo m)) + os.countP earn := by
  refine handler_ledger ?_ (fun _ _ => rfl) (fun ht => ht.hand_over hearn) h
  intro o ho
  cases o with
  | handed c _ _ _ _ => exact ⟨c, rfl⟩
  | _ => cases ho

/-- Over a whole run, the commands handed over are covered by the events appended for them. -/
theorem handed_le_appended {cfg : Config} {P : List Obs → World → Action → Prop} {db : Store}
    {now : Int} {tr : List Obs} {w : World} (h : (system cfg).Run P [] (World.init cfg db now) tr w)
    {m : DeviceID → String → AgentCommand → Bool} {earn : Obs → Bool}
    (hearn : ∀ c d k out ev, ev.kind = (commandEvent d out).1 → ev.payload = (commandEvent d out).2 →
      m d k out = true → earn (.appended (.command c d k) ev) = true) :
    tr.countP (Obs.handedWith m) ≤ tr.countP earn := by
  have hled : tr.countP (Obs.handedWith m) + w.conns.countP (ConnPhase.inHandler (committedTo m)) ≤
      0 + tr.countP earn := by
    refine h.ledger earn (Obs.handedWith m)
      (fun w => w.conns.countP (ConnPhase.inHandler (committedTo m))) 0 ?_ ?_
    · simp [World.init]
    · exact fun t u a u' os _ _ hs => (World.step_trans hs).hand_over hearn
  omega

/-! ## The log -/

/-- The event an observation puts into the log. -/
def Obs.appendedEvent : Obs → Option EventPayload
  | .appended _ ev => some ev
  | _ => none

theorem Obs.source_of_appended {o : Obs} {ev : EventPayload} (h : o.appendedEvent = some ev) :
    o.source = .ingest ∨ ∃ c, o.source = .handler c := by
  cases o with
  | appended wr ev =>
    cases wr with
    | ingest => exact .inl rfl
    | command c dev k => exact .inr ⟨c, rfl⟩
  | _ => cases h

theorem filterMap_appended_nil {os : List Obs} (h : ∀ o ∈ os, o.Aside) :
    os.filterMap Obs.appendedEvent = [] := by
  rw [List.filterMap_eq_nil_iff]
  intro o ho
  cases he : o.appendedEvent with
  | none => rfl
  | some ev =>
    rcases Obs.source_of_appended he with hi | ⟨c, hc⟩
    · exact absurd hi (h o ho).1
    · exact absurd hc ((h o ho).2 c)

theorem filterMap_appended_queue {os : List Obs} (h : ∀ o ∈ os, o.source = .queue) :
    os.filterMap Obs.appendedEvent = [] :=
  filterMap_appended_nil fun o ho => by
    rw [Obs.Aside, h o ho]
    exact ⟨nofun, fun _ => nofun⟩

/-- The log after an append under the session of the daemon. -/
theorem appendEvent_log {cfg : Config} {db db' : Store} {kind : EventKind} {payload : Json}
    {now : Int} {ev : EventPayload}
    (h : db.appendEvent cfg.sessionID kind payload now = some (ev, db')) :
    db'.events cfg.sessionID = db.events cfg.sessionID ++ [ev] := by
  obtain ⟨-, -, -, he, -⟩ := Store.appendEvent_spec h
  rw [he, Function.update_self]

@[simp] theorem note_store (h : Hub) (ev : EventPayload) : (note h ev).1.store = h.store := by
  unfold note
  split <;> rfl

theorem note_appended (h : Hub) (ev : EventPayload) :
    (note h ev).2.filterMap Obs.appendedEvent = [] := by
  unfold note
  split <;> rfl

@[simp] theorem claim_store (h : Hub) (a : Ask) : (h.claim a).store = h.store := by
  cases a <;> rfl

theorem BroadcastTrans.appended {cfg : Config} {h h' : Hub} {ev : EventPayload} {pc : BroadcastPc}
    {pc' : Option BroadcastPc} {os : List Obs} (ht : BroadcastTrans cfg h ev pc h' pc' os) :
    os.filterMap Obs.appendedEvent = [] := by
  obtain ⟨-, -, -, hos⟩ := ht.frame
  refine filterMap_appended_queue fun o ho => ?_
  obtain ⟨c, hc⟩ := hos o ho
  exact Obs.source_of_offer hc

/-- A handler appends in one place only. -/
theorem HandleTrans.appended {cfg : Config} {c : ConnId} {h h' : Hub} {dev : DeviceID}
    {cmd : CommandPayload} {pc : HandlerPc} {ch : Choice} {ph : ConnPhase} {os : List Obs}
    (ht : HandleTrans cfg c h dev cmd pc ch h' ph os) :
    (∃ out ev st, pc = .append out ∧ ph = .handling dev cmd (.ack ev out) ∧
      h.store.appendEvent cfg.sessionID (commandEvent dev out).1 (commandEvent dev out).2 h.now =
        some (ev, st) ∧
      h' = { h with store := st } ∧ os = [.appended (.command c dev (key cmd)) ev]) ∨
    (os.filterMap Obs.appendedEvent = [] ∧ h'.store = h.store) := by
  have answered {o : Obs} {f : Envelope} (ho : o.appendedEvent = none) :
      [o, (enqueueRaw cfg h c f).2].filterMap Obs.appendedEvent = [] :=
    List.filterMap_eq_nil_iff.mpr
      (answered_motive (motive := fun o => o.appendedEvent = none) cfg h ho rfl rfl)
  cases ht with
  | append happ => exact .inl ⟨_, _, _, rfl, rfl, happ, rfl, rfl⟩
  | execute hex =>
    cases hex with
    | claim => exact .inr ⟨rfl, claim_store h _⟩
    | proceed | refuse => exact .inr ⟨rfl, rfl⟩
  | broadcast hb | broadcastDone hb => exact .inr ⟨hb.appended, hb.frame.2.2.1⟩
  | replay | ack | reject => exact .inr ⟨answered rfl, rfl⟩
  | noId =>
    refine .inr ⟨filterMap_appended_queue fun o ho => ?_, rfl⟩
    rw [List.mem_singleton.mp ho]
    exact Obs.source_of_offer (enqueueRaw_offer _ _ _ _)
  | suppress | accept | appendFails | command | commandFails => exact .inr ⟨rfl, rfl⟩

theorem HandleTrans.log {cfg : Config} {c : ConnId} {h h' : Hub} {dev : DeviceID}
    {cmd : CommandPayload} {pc : HandlerPc} {ch : Choice} {ph : ConnPhase} {os : List Obs}
    (ht : HandleTrans cfg c h dev cmd pc ch h' ph os) :
    h'.store.events cfg.sessionID =
      h.store.events cfg.sessionID ++ os.filterMap Obs.appendedEvent := by
  rcases ht.appended with ⟨out, ev, st, -, -, happ, rfl, rfl⟩ | ⟨hnil, hst⟩
  · exact appendEvent_log happ
  · rw [hnil, hst, List.append_nil]

theorem IngestTrans.log {cfg : Config} {h h' : Hub} {ph ph' : IngestPhase} {ch : Choice}
    {os : List Obs} (ht : IngestTrans cfg h ph ch h' ph' os) :
    h'.store.events cfg.sessionID =
      h.store.events cfg.sessionID ++ os.filterMap Obs.appendedEvent := by
  cases ht with
  | append happ => exact appendEvent_log happ
  | note => rw [note_store, note_appended, List.append_nil]
  | broadcast hb | broadcastDone hb => rw [hb.appended, hb.frame.2.2.1, List.append_nil]
  | receive | appendFails => simp

/-- **The log grows by exactly the events a step appends.** -/
theorem StepTrans.log {cfg : Config} {w w' : World} {a : Action} {os : List Obs}
    (h : StepTrans cfg w a w' os) : w'.log cfg = w.log cfg ++ os.filterMap Obs.appendedEvent := by
  rcases h.actors with ⟨c, dev, cmd, pc, ch, h', ph', -, -, ht, rfl⟩ | ⟨ch, h', ph', -, ht, rfl⟩ |
    ⟨hq, hno, -, -⟩
  · exact ht.log
  · exact ht.log
  · rw [filterMap_appended_nil hno, List.append_nil]
    exact congrFun hq.events cfg.sessionID

/-- One step appends at most one event, and observes nothing else when it does. -/
theorem StepTrans.appends {cfg : Config} {w w' : World} {a : Action} {os : List Obs}
    (h : StepTrans cfg w a w' os) :
    os.filterMap Obs.appendedEvent = [] ∨ ∃ wr ev, os = [.appended wr ev] := by
  rcases h.actors with ⟨c, dev, cmd, pc, ch, h', ph', -, -, ht, -⟩ | ⟨ch, h', ph', -, ht, -⟩ |
    ⟨-, hno, -, -⟩
  · rcases ht.appended with ⟨out, ev, st, -, -, -, -, rfl⟩ | ⟨hnil, -⟩
    · exact .inr ⟨_, ev, rfl⟩
    · exact .inl hnil
  · generalize w.ingest = ph at ht
    cases ht with
    | append => exact .inr ⟨_, _, rfl⟩
    | receive | appendFails => exact .inl rfl
    | note => exact .inl (note_appended _ _)
    | broadcast hb | broadcastDone hb => exact .inl hb.appended
  · exact .inl (filterMap_appended_nil hno)

/-- **A property of every prefix of the log** is one of the log at every moment. -/
theorem prefix_rule {cfg : Config} {P : List Obs → World → Action → Prop} {db : Store} {now : Int}
    {I : List EventPayload → Prop} (h0 : I [])
    (hlog : ∀ {t u}, (system cfg).Run P [] (World.init cfg db now) t u → I (u.log cfg))
    {tr : List Obs} {w : World} (h : (system cfg).Run P [] (World.init cfg db now) tr w) :
    ∀ p, p <+: w.log cfg → I p := by
  refine h.invariant (I := fun _ u => ∀ p, p <+: u.log cfg → I p) ?_ ?_
  · intro p hp
    rw [World.log_init] at hp
    rw [List.prefix_nil.mp hp]
    exact h0
  · intro t u a u' os hr ih hP hs p hp
    have hst : StepTrans cfg u a u' os := World.step_trans hs
    have hnow : I (u'.log cfg) := hlog (hr.tail hP hs)
    rw [hst.log] at hp hnow
    rcases hst.appends with hnil | ⟨wr, ev, rfl⟩
    · rw [hnil, List.append_nil] at hp
      exact ih p hp
    · rcases List.prefix_concat_iff.mp hp with rfl | hold
      · exact hnow
      · exact ih p hold

/-- Handlers and the ingestion loop leave the tables of devices and pairing tokens alone. -/
theorem HandleTrans.tables {cfg : Config} {c : ConnId} {h h' : Hub} {dev : DeviceID}
    {cmd : CommandPayload} {pc : HandlerPc} {ch : Choice} {ph : ConnPhase} {os : List Obs}
    (ht : HandleTrans cfg c h dev cmd pc ch h' ph os) :
    h'.store.devices = h.store.devices ∧ h'.store.pendingTokens = h.store.pendingTokens := by
  rcases ht.appended with ⟨out, ev, st, -, -, happ, rfl, -⟩ | ⟨-, hst⟩
  · exact (Store.appendEvent_spec happ).2.2.2.2
  · rw [hst]
    exact ⟨rfl, rfl⟩

theorem IngestTrans.tables {cfg : Config} {h h' : Hub} {ph ph' : IngestPhase} {ch : Choice}
    {os : List Obs} (ht : IngestTrans cfg h ph ch h' ph' os) :
    h'.store.devices = h.store.devices ∧ h'.store.pendingTokens = h.store.pendingTokens := by
  cases ht with
  | receive | appendFails => exact ⟨rfl, rfl⟩
  | append happ => exact (Store.appendEvent_spec happ).2.2.2.2
  | note =>
    rw [note_store]
    exact ⟨rfl, rfl⟩
  | broadcast hb | broadcastDone hb =>
    rw [hb.frame.2.2.1]
    exact ⟨rfl, rfl⟩

/-- In a daemon that started with an empty log, the log is the sequence of appended events. -/
theorem log_eq_appended {cfg : Config} {P : List Obs → World → Action → Prop} {db : Store} {now : Int}
    {tr : List Obs} {w : World} (h : (system cfg).Run P [] (World.init cfg db now) tr w) :
    w.log cfg = tr.filterMap Obs.appendedEvent := by
  refine h.invariant (I := fun t u => u.log cfg = t.filterMap Obs.appendedEvent)
    (World.log_init cfg db now) ?_
  intro t u a u' os _ ih _ hs
  rw [(World.step_trans hs).log, ih, List.filterMap_append]

end Harness.Hub
