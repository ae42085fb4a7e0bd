/-
# Harness.Hub.Delivery — what a connected client is offered.

A client that says `hello` with `lastSeq = k` reads its catch-up batch, registers, and from then on gets
what is broadcast. Two laws are expected of this: nothing with `seq > k` is lost, and what comes, comes in
log order. Neither holds of every run:

* an event that is appended AND whose broadcast copies the client set between the catch-up read and the
  registration reaches the client in neither way (`lostWhileConnecting_lost`);
* two goroutines that append in one order may broadcast in the other (`overtaking_disorders`).

Both laws hold of every run that avoids exactly this: `catch_up_complete` and `offered_in_order`.
-/
import Harness.Hub.Flights

namespace Harness.Hub

open Wire Lib

/-! ## The numbers of the log -/

/-- The session row counts its events, which are numbered from 1. -/
def Counted (cfg : Config) (db : Store) : Prop :=
  (∃ sess, db.sessions cfg.sessionID = some sess ∧
    sess.lastSeq = (db.events cfg.sessionID).length) ∧
    Fanout.Numbered EventPayload.seq (db.events cfg.sessionID)

theorem counted_append {cfg : Config} {db db' : Store} {kind : EventKind} {payload : Json} {now : Int}
    {ev : EventPayload} (h : db.appendEvent cfg.sessionID kind payload now = some (ev, db'))
    (hc : Counted cfg db) : Counted cfg db' := by
  obtain ⟨⟨sess, hs, hseq, status, -, hs'⟩, -, -, -, -⟩ := Store.appendEvent_spec h
  obtain ⟨⟨sess₀, hs₀, hlen⟩, hnum⟩ := hc
  rw [hs₀, Option.some.injEq] at hs
  subst hs
  have hlog := appendEvent_log h
  refine ⟨⟨⟨status, sess₀.lastSeq + 1⟩, by rw [hs', Function.update_self], ?_⟩, ?_⟩
  · rw [hlog, List.length_append, hlen, List.length_singleton]
  · rw [hlog, Fanout.Numbered, List.length_append, List.length_singleton, List.range'_concat,
      List.map_append, hnum, List.map_singleton, hseq, hlen, Nat.one_mul, Nat.add_comm]

theorem Counted.congr {cfg : Config} {db db' : Store} (he : db'.events = db.events)
    (hs : db'.sessions = db.sessions) (hc : Counted cfg db) : Counted cfg db' := by
  rw [Counted, he, hs]
  exact hc

theorem counted {cfg : Config} {P : List Obs → World → Action → Prop} {db : Store} {now : Int}
    {tr : List Obs} {w : World} (h : (system cfg).Run P [] (World.init cfg db now) tr w) :
    Counted cfg w.hub.store := by
  refine h.invariant (I := fun _ u => Counted cfg u.hub.store) ?_ ?_
  · refine ⟨⟨⟨"idle", 0⟩, ?_, ?_⟩, ?_⟩
    · simp [World.init, Store.createSession]
    · simp [World.init, Store.createSession]
    · simp [World.init, Store.createSession, Fanout.Numbered]
  · intro t u a u' os _ ih _ hs
    rcases (World.step_trans hs).actors with ⟨c, dev, cmd, pc, ch, h', ph', -, -, ht, rfl⟩ |
      ⟨ch, h', ph', -, ht, rfl⟩ | ⟨hq, -, -, -⟩
    · rcases ht.appended with ⟨out, ev, st, -, -, happ, rfl, -⟩ | ⟨-, hst⟩
      · exact counted_append happ ih
      · exact ih.congr (by rw [hst]) (by rw [hst])
    · generalize u.ingest = ph at ht
      cases ht with
      | append happ => exact counted_append happ ih
      | receive | appendFails => exact ih
      | note =>
        show Counted cfg (note u.hub _).1.store
        rw [note_store]
        exact ih
      | broadcast hb | broadcastDone hb =>
        show Counted cfg h'.store
        rw [hb.frame.2.2.1]
        exact ih
    · exact ih.congr hq.events hq.sessions

/-- **The log is numbered from 1 without holes.** -/
theorem log_numbered {cfg : Config} {P : List Obs → World → Action → Prop} {db : Store} {now : Int}
    {tr : List Obs} {w : World} (h : (system cfg).Run P [] (World.init cfg db now) tr w) :
    Fanout.Numbered EventPayload.seq (w.log cfg) := (counted h).2

/-- **A new event has a larger seq than all that were appended before.** -/
theorem seq_lt_of_append {cfg : Config} {P : List Obs → World → Action → Prop} {db : Store} {now : Int}
    {tr : List Obs} {w w' : World} {a : Action} {wr wr' : Writer} {ev ev' : EventPayload}
    (h : (system cfg).Run P [] (World.init cfg db now) tr w)
    (hs : w.step cfg a = some (w', [.appended wr' ev'])) (ho : .appended wr ev ∈ tr) : ev.seq < ev'.seq := by
  have hlog : w'.log cfg = w.log cfg ++ [ev'] := (World.step_trans hs).log
  have hnum : Fanout.Numbered EventPayload.seq (w'.log cfg) :=
    log_numbered (h.free.tail trivial hs)
  rw [hlog] at hnum
  have hev : ev ∈ w.log cfg := by
    rw [log_eq_appended h]
    exact List.mem_filterMap.mpr ⟨_, ho, rfl⟩
  have hle : ev.seq ≤ (w.log cfg).length := (hnum.init.bounds hev).2
  have hlast : ev'.seq = (w.log cfg).length + 1 := hnum.last
  omega

/-- Every event a goroutine is broadcasting is in the log. -/
theorem flights_logged {cfg : Config} {P : List Obs → World → Action → Prop} {db : Store} {now : Int}
    {tr : List Obs} {w : World} (h : (system cfg).Run P [] (World.init cfg db now) tr w) :
    Fanout.Logged (w.fanout cfg tr) := by
  refine h.invariant (I := fun t u => Fanout.Logged (u.fanout cfg t)) ?_ ?_
  · intro t f hf
    cases t with
    | ingest => cases hf
    | conn c => simp [World.fanout, World.flight, World.init] at hf
  · intro t u a u' os _ ih _ hs
    rcases (World.step_trans hs).fanout t with ⟨heq, -⟩ | ⟨l, hstep, -⟩
    · rw [heq]
      exact ih
    · exact ih.step hstep

/-- What a connection about to register has read: the part of an earlier log beyond `k`. -/
def CatchUp (tr : List Obs) : ConnPhase → Prop
  | .serving _ k (.register _ events) =>
      ∃ p, p <+: tr.filterMap Obs.appendedEvent ∧ events = p.filter fun ev => decide (k < ev.seq)
  | _ => True

theorem catch_up_read {cfg : Config} {P : List Obs → World → Action → Prop} {db : Store} {now : Int}
    {tr : List Obs} {w : World} (h : (system cfg).Run P [] (World.init cfg db now) tr w) :
    ∀ (c : ConnId) ph, w.conns[c]? = some ph → CatchUp tr ph := by
  refine phase_rule (I := fun _ ph tr => CatchUp tr ph) ?_ trivial ?_ h
  · intro c ph t t' ht hI
    unfold CatchUp at hI ⊢
    split at hI
    · obtain ⟨p, hp, he⟩ := hI
      obtain ⟨r, rfl⟩ := ht
      rw [List.filterMap_append]
      exact ⟨p, hp.trans (List.prefix_append _ _), he⟩
    · trivial
  · intro t u c ch ph h' ph' os hr _ _ _ ht
    cases ht with
    | serving ht =>
      cases ht with
      | getSince =>
        refine ⟨u.log cfg, ?_, Store.getEventsSince_unlimited _ _ _⟩
        rw [log_eq_appended hr, List.append_nil]
      | _ => trivial
    | pairing ht => cases ht <;> trivial
    | handling ht => cases ht <;> trivial
    | _ => trivial

/-- The catch-up batch is numbered without holes, and is in the log. -/
theorem catch_up_batch {cfg : Config} {P : List Obs → World → Action → Prop} {db : Store} {now : Int}
    {tr : List Obs} {w : World} (h : (system cfg).Run P [] (World.init cfg db now) tr w) {c : ConnId}
    {dev : DeviceID} {k : Int} {snap : Snapshot} {batch : List EventPayload}
    (hph : w.conns[c]? = some (.serving dev k (.register snap batch))) :
    (∀ ev ∈ batch, ev ∈ w.log cfg) ∧
      ∃ a n, batch.map EventPayload.seq = List.range' a n := by
  obtain ⟨p, hp, rfl⟩ := catch_up_read h c _ hph
  rw [← log_eq_appended h] at hp
  refine ⟨fun ev hev => hp.mem (List.mem_filter.mp hev).1, k.toNat + 1, p.length - k.toNat, ?_⟩
  have hnum : Fanout.Numbered EventPayload.seq p := by
    obtain ⟨q, hq⟩ := hp
    have hlog := log_numbered h
    rw [← hq] at hlog
    exact hlog.left
  -- a negative `k` asks for the whole log
  rw [← hnum.since k.toNat]
  refine congrArg _ (List.filter_congr fun ev hev => ?_)
  have := hnum.bounds hev
  rw [decide_eq_decide]
  omega

/-- What is offered to a client without overflow is enqueued. -/
theorem enqueued_of_offered {tr : List Obs} {c : ConnId} {ev : EventPayload}
    (h : ev ∈ tr.filterMap (Obs.eventTo c)) (hdrop : ∀ f, .dropped c f ∉ tr) :
    .enqueued c (.event ev) ∈ tr := by
  obtain ⟨o, ho, he⟩ := List.mem_filterMap.mp h
  unfold Obs.eventTo at he
  split at he
  · rename_i c' ev' hoff
    split at he
    · rename_i hc
      cases he
      subst hc
      cases o with
      | enqueued =>
        cases hoff
        exact ho
      | dropped => cases hoff; exact absurd ho (hdrop _)
      | _ => cases hoff
    · cases he
  · cases he

/-! ## Nothing is lost while a client connects -/

/-- No appended event is still waiting to be broadcast. -/
def World.Settled (w : World) : Prop := ∀ t, w.flight t = none

/-- The goroutines that may hold a flight. -/
def World.threads (w : World) : List Thread := .ingest :: (List.range w.conns.length).map .conn

theorem World.mem_threads {w : World} {t : Thread} {f : Flight} (h : w.flight t = some f) :
    t ∈ w.threads := by
  cases t with
  | ingest => exact List.mem_cons_self
  | conn c =>
    obtain ⟨ph, hph, -⟩ := Option.bind_eq_some_iff.mp h
    have hlt : c < w.conns.length := (List.getElem?_eq_some_iff.mp hph).1
    exact List.mem_cons_of_mem _ (List.mem_map_of_mem (List.mem_range.mpr hlt))

/-- Every goroutine but the one that moves holds nothing. -/
def World.aloneWith (w : World) (th : Option Thread) : Bool :=
  w.threads.all fun t => decide (some t = th) || (w.flight t).isNone

theorem World.flight_of_aloneWith {w : World} {th : Option Thread} (h : w.aloneWith th = true)
    {t : Thread} {f : Flight} (hf : w.flight t = some f) : some t = th := by
  have ht := List.all_eq_true.mp h t (World.mem_threads hf)
  rw [hf, Option.isNone_some, Bool.or_false] at ht
  exact of_decide_eq_true ht

theorem World.settled_of_aloneWith {w : World} (h : w.aloneWith none = true) : w.Settled := by
  intro t
  cases hf : w.flight t with
  | none => rfl
  | some f => cases World.flight_of_aloneWith h hf

/-- The condition on a step: a connection that registers has missed nothing. What the log holds beyond
`k` is in the batch it read, or its broadcast has not copied the client set. -/
def RegistersWithoutGap (cfg : Config) (tr : List Obs) (w : World) (a : Action) : Prop :=
  ∀ c ch dev k snap batch, a = .conn c ch →
    w.conns[c]? = some (.serving dev k (.register snap batch)) →
    ∀ ev ∈ w.log cfg, k < ev.seq → ev ∈ batch ∨ (w.fanout cfg tr).Uncopied ev

/-- **No event is lost while a client connects**, in every run in which clients register without a
gap. -/
theorem catch_up_complete {cfg : Config} {db : Store} {now : Int} {tr : List Obs} {w : World}
    (h : (system cfg).Run (RegistersWithoutGap cfg) [] (World.init cfg db now) tr w) {c : ConnId}
    {dev : DeviceID} {k : Int} (hreg : .registered c dev k ∈ tr) (hc : c ∈ w.hub.clients)
    (hdrop : ∀ f, .dropped c f ∉ tr) (hsettled : w.Settled) :
    ∀ ev ∈ w.log cfg, k < ev.seq → .enqueued c (.event ev) ∈ tr := by
  have hcov : Fanout.Covered (fun ev => k < (ev.seq : Int)) (w.view cfg tr c) := by
    refine view_rule (J := fun k v => Fanout.Covered (fun ev => k < (ev.seq : Int)) v) ?_ ?_ h hreg hc
    · intro t u ch dev k snap batch _ hP hph
      exact hP c ch dev k snap batch rfl hph
    · intro t u a o t' u' k _ _ hv _ _ hJ
      exact hJ.step hv
  intro ev hev hk
  -- covered, and nothing is on its way: it has been offered
  rcases hcov ev hev hk with hoff | ⟨t, ht⟩
  · exact enqueued_of_offered hoff hdrop
  · have hnone : (w.fanout cfg tr).flight t = none := hsettled t
    rw [hnone] at ht
    exact ht.elim

/-- Two clients connect to an empty log; then an event of the agent and a prompt are broadcast. -/
def twoScreens : List Action :=
  Sample.connect 0 "phone-secret" 0 ++ Sample.connect 1 "tablet-secret" 0 ++
    [.ingest (.adapterEvent .permissionRequest (.obj [("requestId", .str "r1")])), .ingest (.call .ok),
      .ingest .run, .ingest (.order [0, 1]), .ingest .run, .ingest .run, .ingest .run,
      .conn 0 (Sample.command "p1" .sendPrompt [("text", .str "hello")])] ++ Sample.handle 0 [0, 1]

/-- A decision: whoever registers finds nothing beyond its `k`. -/
def registersCaughtUp (cfg : Config) (w : World) : Action → Bool
  | .conn c _ =>
      match w.conns[c]? with
      | some (.serving _ k (.register _ _)) => (w.log cfg).all fun ev => decide (ev.seq ≤ k)
      | _ => true
  | _ => true

theorem registersCaughtUp_sound (cfg : Config) (t : List Obs) (w : World) (a : Action)
    (h : registersCaughtUp cfg w a = true) : RegistersWithoutGap cfg t w a := by
  rintro c ch dev k snap batch rfl hph ev hev hk
  simp only [registersCaughtUp, hph, List.all_eq_true, decide_eq_true_eq] at h
  have := h ev hev
  omega

def Obs.registration : Obs → Option (ConnId × Int)
  | .registered c _ k => some (c, k)
  | _ => none

def Obs.droppedTo (c : ConnId) : Obs → Bool
  | .dropped c' _ => decide (c' = c)
  | _ => false

theorem registered_of_registration {tr : List Obs} {c : ConnId} {k : Int}
    (h : (c, k) ∈ tr.filterMap Obs.registration) : ∃ dev, .registered c dev k ∈ tr := by
  obtain ⟨o, ho, he⟩ := List.mem_filterMap.mp h
  cases o with
  | registered c' dev k' =>
    cases he
    exact ⟨dev, ho⟩
  | _ => cases he

theorem not_dropped {tr : List Obs} {c : ConnId} (h : tr.countP (Obs.droppedTo c) = 0) :
    ∀ f, .dropped c f ∉ tr := by
  intro f hf
  exact List.countP_eq_zero.mp h _ hf (by simp [Obs.droppedTo])

theorem catch_up_complete_twoScreens :
    ∃ tr w, (system Sample.config).Run (RegistersWithoutGap Sample.config) [] Sample.start tr w ∧
      (w.log Sample.config).map EventPayload.seq = [1, 2] ∧
      ∀ ev ∈ w.log Sample.config, (0 : Int) < ev.seq → .enqueued 0 (.event ev) ∈ tr := by
  have hexec : ∃ r, (system Sample.config).exec (fun _ => registersCaughtUp Sample.config) []
      Sample.start twoScreens = some r ∧ (0, 0) ∈ r.1.filterMap Obs.registration ∧
      0 ∈ r.2.hub.clients ∧ r.1.countP (Obs.droppedTo 0) = 0 ∧ r.2.aloneWith none = true ∧
      (r.2.log Sample.config).map EventPayload.seq = [1, 2] :=
    ⟨_, rfl, by decide, by decide, by decide, by decide, by decide⟩
  obtain ⟨⟨tr, w⟩, he, hreg, hc, hdrop, hsettled, hlog⟩ := hexec
  have hr := Lts.run_of_exec (registersCaughtUp_sound Sample.config) he
  obtain ⟨dev, hreg⟩ := registered_of_registration hreg
  exact ⟨tr, w, hr, hlog, catch_up_complete hr hreg hc (not_dropped hdrop)
    (World.settled_of_aloneWith hsettled)⟩

/-- The agent asks for permission between the catch-up read of a connecting client and its
registration. -/
def lostWhileConnecting : List Action :=
  (Sample.connect 0 "phone-secret" 0).take 5 ++
    [.ingest (.adapterEvent .permissionRequest (.obj [("requestId", .str "r1")])), .ingest (.call .ok),
      .ingest .run, .ingest (.order []), .ingest .run, .conn 0 (.call .ok)]

theorem lostWhileConnecting_lost :
    ∃ tr w dev, (system Sample.config).Run Lts.Free [] Sample.start tr w ∧
      .registered 0 dev 0 ∈ tr ∧ 0 ∈ w.hub.clients ∧ (∀ f, .dropped 0 f ∉ tr) ∧ w.Settled ∧
      ∃ ev ∈ w.log Sample.config, (0 : Int) < ev.seq ∧ .enqueued 0 (.event ev) ∉ tr := by
  have hexec : ∃ r, (system Sample.config).exec (fun _ _ _ => true) [] Sample.start
      lostWhileConnecting = some r ∧ (0, 0) ∈ r.1.filterMap Obs.registration ∧ 0 ∈ r.2.hub.clients ∧
      r.1.countP (Obs.droppedTo 0) = 0 ∧ r.2.aloneWith none = true ∧
      (r.2.log Sample.config).map EventPayload.seq = [1] ∧
      (r.1.filterMap (Obs.eventTo 0)).length = 0 :=
    ⟨_, rfl, by decide, by decide, by decide, by decide, by decide, by decide⟩
  obtain ⟨⟨tr, w⟩, he, hreg, hc, hdrop, hsettled, hlog, hnone⟩ := hexec
  have hr := Lts.run_of_exec (P := Lts.Free) (fun _ _ _ _ => trivial) he
  obtain ⟨dev, hreg⟩ := registered_of_registration hreg
  refine ⟨tr, w, dev, hr, hreg, hc, not_dropped hdrop, World.settled_of_aloneWith hsettled, ?_⟩
  obtain ⟨ev, hev, hseq⟩ : ∃ ev ∈ w.log Sample.config, ev.seq = 1 := by
    have hm : 1 ∈ (w.log Sample.config).map EventPayload.seq := by rw [hlog]; exact List.mem_cons_self
    exact List.mem_map.mp hm
  refine ⟨ev, hev, by omega, fun hm => ?_⟩
  have hoff : ev ∈ tr.filterMap (Obs.eventTo 0) :=
    List.mem_filterMap.mpr ⟨_, hm, by simp [Obs.eventTo, Obs.offer]⟩
  rw [List.eq_nil_of_length_eq_zero hnone] at hoff
  exact absurd hoff List.not_mem_nil

/-! ## The live tail is offered in log order -/

/-- The condition on a step: an event is offered to a client in its turn, and a client registers without
a hole. -/
structure OffersInTurn (cfg : Config) (tr : List Obs) (w : World) (a : Action) : Prop where
  deliver : ∀ t c ev rest, a.thread = some t → w.flight t = some ⟨ev, some (c :: rest)⟩ →
    c ∈ w.hub.clients → Fanout.InTurn EventPayload.seq (w.view cfg tr c) ev
  register : ∀ c ch dev k snap batch, a = .conn c ch →
    w.conns[c]? = some (.serving dev k (.register snap batch)) →
    Fanout.NoHole EventPayload.seq ⟨w.log cfg, fun ev => (w.fanout cfg tr).Uncopied ev, batch⟩

/-- The events enqueued to a client, in order. -/
def enqueuedEvents (c : ConnId) (tr : List Obs) : List EventPayload :=
  tr.filterMap fun
    | .enqueued c' (.event ev) => if c' = c then some ev else none
    | _ => none

theorem enqueuedEvents_eq {c : ConnId} {tr : List Obs} (hdrop : ∀ f, .dropped c f ∉ tr) :
    enqueuedEvents c tr = tr.filterMap (Obs.eventTo c) := by
  refine List.filterMap_congr fun o ho => ?_
  cases o with
  | enqueued c' f => cases f <;> rfl
  | dropped c' f =>
    cases f with
    | event ev =>
      have hc : c' ≠ c := fun he => hdrop _ (he ▸ ho)
      exact (if_neg hc).symm
    | _ => rfl
  | _ => rfl

/-- **Every client is offered the live tail in log order**, in every run in which offers are in turn:
after dropping the events whose seq is not greater than one already enqueued the seqs are contiguous, and
no event is enqueued for the first time after its successor. -/
theorem offered_in_order {cfg : Config} {db : Store} {now : Int} {tr : List Obs} {w : World}
    (h : (system cfg).Run (OffersInTurn cfg) [] (World.init cfg db now) tr w) {c : ConnId}
    (hc : c ∈ w.hub.clients) (hdrop : ∀ f, .dropped c f ∉ tr) :
    Fanout.Contiguous EventPayload.seq (enqueuedEvents c tr) ∧
      Fanout.InOrder EventPayload.seq (enqueuedEvents c tr) := by
  obtain ⟨dev, k, hreg⟩ : ∃ dev k, .registered c dev k ∈ tr := by
    by_contra hno
    push Not at hno
    exact (absent_of_unregistered h hno).clients hc
  have hord : Fanout.Ordered EventPayload.seq (w.view cfg tr c) := by
    refine view_rule (J := fun _ v => Fanout.Ordered EventPayload.seq v) ?_ ?_ h hreg hc
    · intro t u ch dev k snap batch hr hP hph
      obtain ⟨hbatch, a, n, hrange⟩ := catch_up_batch hr hph
      exact Fanout.Ordered.join hbatch hrange (fun ev hev => (flights_logged hr).of_uncopied hev)
        (hP.register c ch dev k snap batch rfl hph)
    · intro t u a o t' u' _ hP hr' hv hcl hdel hJ
      refine hJ.step hv (log_numbered hr') fun ev he => ?_
      obtain ⟨th, rest, hth, hf⟩ := hdel ev he
      exact hP.deliver th c ev rest hth hf hcl
  rw [enqueuedEvents_eq hdrop]
  exact ⟨hord.contiguous, hord.inOrder⟩

/-- A decision: whoever registers finds an empty log. -/
def registersFirst (cfg : Config) (w : World) : Action → Bool
  | .conn c _ =>
      match w.conns[c]? with
      | some (.serving _ _ (.register _ batch)) => (w.log cfg).isEmpty && batch.isEmpty
      | _ => true
  | _ => true

/-- A decision: nobody else is broadcasting, and whoever registers finds an empty log. -/
def offersAlone (cfg : Config) (w : World) (a : Action) : Bool :=
  w.aloneWith a.thread && registersFirst cfg w a

theorem offersAlone_sound (cfg : Config) (tr : List Obs) (w : World) (a : Action)
    (h : offersAlone cfg w a = true) : OffersInTurn cfg tr w a := by
  rw [offersAlone, Bool.and_eq_true] at h
  refine ⟨fun t c ev rest ht hf _ => ?_, ?_⟩
  · -- the only event on its way is the one being offered
    rintro x ⟨t', hx⟩ hlt
    rcases hf' : w.flight t' with _ | ⟨ev', rest'⟩
    · have hnone : (w.fanout cfg tr).flight t' = none := hf'
      rw [hnone] at hx
      exact hx.elim
    · have hsome : (w.fanout cfg tr).flight t' = some ⟨ev', rest'⟩ := hf'
      have hsame := World.flight_of_aloneWith h.1 hf'
      rw [ht, Option.some.injEq] at hsame
      subst hsame
      rw [hf, Option.some.injEq, Fanout.Flight.mk.injEq] at hf'
      rw [hsome] at hx
      have hev : ev' = x := by
        cases rest' with
        | none => exact hx.1
        | some _ => exact hx.1
      rw [← hev, ← hf'.1] at hlt
      exact absurd hlt (lt_irrefl _)
  · rintro c ch dev k snap batch rfl hph
    have h2 := h.2
    simp only [registersFirst, hph, Bool.and_eq_true, List.isEmpty_iff] at h2
    obtain ⟨hlog, rfl⟩ := h2
    rw [hlog]
    exact ⟨List.forall_mem_nil _, fun _ _ _ hb => absurd hb List.not_mem_nil,
      fun _ _ hm => absurd hm List.not_mem_nil⟩

theorem offered_in_order_twoScreens :
    ∃ tr w, (system Sample.config).Run (OffersInTurn Sample.config) [] Sample.start tr w ∧
      (enqueuedEvents 1 tr).map EventPayload.seq = [1, 2] ∧
      Fanout.Contiguous EventPayload.seq (enqueuedEvents 1 tr) ∧
      Fanout.InOrder EventPayload.seq (enqueuedEvents 1 tr) := by
  have hexec : ∃ r, (system Sample.config).exec (fun _ => offersAlone Sample.config) []
      Sample.start twoScreens = some r ∧ 1 ∈ r.2.hub.clients ∧ r.1.countP (Obs.droppedTo 1) = 0 ∧
      (enqueuedEvents 1 r.1).map EventPayload.seq = [1, 2] :=
    ⟨_, rfl, by decide, by decide, by decide⟩
  obtain ⟨⟨tr, w⟩, he, hc, hdrop, hseq⟩ := hexec
  have hr := Lts.run_of_exec (offersAlone_sound Sample.config) he
  exact ⟨tr, w, hr, hseq, offered_in_order hr hc (not_dropped hdrop)⟩

/-- After one event of the agent both devices send a prompt. The phone appends first, the tablet
broadcasts first. -/
def overtaking : List Action :=
  Sample.connect 0 "phone-secret" 0 ++ Sample.connect 1 "tablet-secret" 0 ++
    [.ingest (.adapterEvent .turnComplete (.obj [])), .ingest (.call .ok), .ingest .run,
      .ingest (.order [0, 1]), .ingest .run, .ingest .run, .ingest .run,
      .conn 0 (Sample.command "p1" .sendPrompt [("text", .str "one")]),
      .conn 1 (Sample.command "t1" .sendPrompt [("text", .str "two")]),
      .conn 0 .run, .conn 0 .run, .conn 0 (.call .ok)] ++ Sample.handle 1 [0, 1] ++
    [.conn 0 .run, .conn 0 (.order [0, 1]), .conn 0 .run, .conn 0 .run, .conn 0 .run]

/-- Connection 0 gets seq 3 before seq 2. -/
theorem overtaking_disorders :
    ∃ tr w, (system Sample.config).Run Lts.Free [] Sample.start tr w ∧ 0 ∈ w.hub.clients ∧
      (∀ f, .dropped 0 f ∉ tr) ∧ ¬ Fanout.Contiguous EventPayload.seq (enqueuedEvents 0 tr) ∧
      ¬ Fanout.InOrder EventPayload.seq (enqueuedEvents 0 tr) := by
  have hexec : ∃ r, (system Sample.config).exec (fun _ _ _ => true) [] Sample.start overtaking =
      some r ∧ 0 ∈ r.2.hub.clients ∧ r.1.countP (Obs.droppedTo 0) = 0 ∧
      (enqueuedEvents 0 r.1).map EventPayload.seq = [1, 3, 2] ∧
      (Fanout.retained EventPayload.seq (enqueuedEvents 0 r.1)).map EventPayload.seq = [1, 3] :=
    ⟨_, rfl, by decide, by decide, by decide, by decide⟩
  obtain ⟨⟨tr, w⟩, he, hc, hdrop, hseq, hkept⟩ := hexec
  have hr := Lts.run_of_exec (P := Lts.Free) (fun _ _ _ _ => trivial) he
  refine ⟨tr, w, hr, hc, not_dropped hdrop, ?_, ?_⟩
  · rintro ⟨a, n, hrange⟩
    rw [hkept] at hrange
    rcases n with _ | _ | n <;> simp [List.range'_succ] at hrange
    omega
  · intro hord
    generalize enqueuedEvents 0 tr = l at hseq hord
    obtain _ | ⟨x, _ | ⟨y, _ | ⟨z, l⟩⟩⟩ := l
    · simp at hseq
    · simp at hseq
    · simp at hseq
    · simp only [List.map_cons, List.cons.injEq] at hseq
      obtain ⟨hx, hy, hz, -⟩ := hseq
      have hmem := hord [x, y] z l rfl ⟨y, List.mem_cons_of_mem _ List.mem_cons_self, by omega⟩
      rcases List.mem_pair.mp hmem with rfl | rfl
      · omega
      · omega

end Harness.Hub
