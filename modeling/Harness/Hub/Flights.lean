/-
# Harness.Hub.Flights — the daemon as a fan-out of its log.

Appending an event and broadcasting it are different steps of a goroutine, and registering a client is a
third thing between two reads of another goroutine. `World.fanout` forgets everything about the daemon
but that: the log, the client set, the events that are appended but not yet broadcast, and the events
every client was offered.

`StepTrans.fanout` is the refinement: a step of the daemon is a step of `Lib.Fanout`, or changes nothing
of it. `view_rule` is what the delivery laws use of it: a property of what one client sees holds while
the client stays, if it holds when the client registers and is kept by the steps of its view.
-/
import Harness.Hub.Frame
import Harness.Lib.Fanout

namespace Harness.Hub

open Wire Lib

/-! ## The abstraction -/

/-- The goroutines that publish. -/
inductive Thread where
  | ingest
  | conn (c : ConnId)
  deriving DecidableEq

abbrev Flight := Fanout.Flight ConnId EventPayload

/-- The clients still to be served, once the client set is copied. -/
def BroadcastPc.rest : BroadcastPc → Option (List ConnId)
  | .copy => none
  | .send rest => some rest

/-- The appended event a handler has not finished broadcasting. -/
def HandlerPc.flight : HandlerPc → Option Flight
  | .ack ev _ => some ⟨ev, none⟩
  | .broadcast ev _ pc => some ⟨ev, pc.rest⟩
  | _ => none

def ConnPhase.flight : ConnPhase → Option Flight
  | .handling _ _ pc => pc.flight
  | _ => none

def IngestPhase.flight : IngestPhase → Option Flight
  | .note ev => some ⟨ev, none⟩
  | .broadcast ev pc => some ⟨ev, pc.rest⟩
  | _ => none

def World.flight (w : World) : Thread → Option Flight
  | .ingest => w.ingest.flight
  | .conn c => (w.conns[c]?).bind ConnPhase.flight

/-- The event an observation offers to client `c`, queued or dropped. -/
def Obs.eventTo (c : ConnId) (o : Obs) : Option EventPayload :=
  match o.offer with
  | some (c', .event ev) => if c' = c then some ev else none
  | _ => none

/-- The daemon as a fan-out. -/
def World.fanout (cfg : Config) (w : World) (tr : List Obs) :
    Fanout.State Thread ConnId EventPayload where
  log := w.log cfg
  clients := {c | c ∈ w.hub.clients}
  flight := w.flight
  offered c := tr.filterMap (Obs.eventTo c)

/-! ## How the abstraction moves -/

theorem World.flight_set {w : World} {c : ConnId} {ph : ConnPhase} (hph : w.conns[c]? = some ph)
    (h' : Hub) (ph' : ConnPhase) :
    World.flight { w with hub := h', conns := w.conns.set c ph' } =
      Function.update w.flight (.conn c) ph'.flight := by
  have hset := bind_getElem?_set hph ph' ConnPhase.flight
  funext t
  cases t with
  | ingest => rw [Function.update_of_ne (by simp)]; rfl
  | conn c' =>
    have hc' := congrFun hset c'
    by_cases hc : c' = c
    · subst hc
      rw [Function.update_self] at hc' ⊢
      exact hc'
    · rw [Function.update_of_ne hc] at hc'
      rw [Function.update_of_ne (by simpa using hc)]
      exact hc'

theorem World.flight_ingest (w : World) (h' : Hub) (ph' : IngestPhase) :
    World.flight { w with hub := h', ingest := ph' } =
      Function.update w.flight .ingest ph'.flight := by
  funext t
  cases t with
  | ingest => rw [Function.update_self]; rfl
  | conn c => rw [Function.update_of_ne (by simp)]; rfl

theorem World.flight_conn {w : World} {c : ConnId} {ph : ConnPhase} (hph : w.conns[c]? = some ph) :
    w.flight (.conn c) = ph.flight := by
  rw [World.flight, hph, Option.bind_some]

/-- A goroutine that holds the same flight as before leaves the flights alone. -/
theorem World.flight_same {w : World} {t : Thread} {x : Option Flight} (h : w.flight t = x) :
    Function.update w.flight t x = w.flight := by
  rw [← h, Function.update_eq_self]

theorem eventTo_queued (cfg : Config) (h : Hub) (t c : ConnId) (ev : EventPayload) :
    [(enqueueRaw cfg h t (.event ev)).2].filterMap (Obs.eventTo c) = if t = c then [ev] else [] := by
  rw [List.filterMap_cons, Obs.eventTo, enqueueRaw_offer]
  by_cases htc : t = c
  · simp [htc]
  · simp [htc]

/-- The steps of a broadcast are those of a flight. -/
theorem BroadcastTrans.fanout {cfg : Config} {w w' : World} {os : List Obs} (tr : List Obs)
    {ev : EventPayload} {pc : BroadcastPc} {h' : Hub} {pc' : Option BroadcastPc} {t : Thread}
    (hb : BroadcastTrans cfg w.hub ev pc h' pc' os) (hhub : w'.hub = h')
    (hold : w.flight t = some ⟨ev, pc.rest⟩)
    (hnew : w'.flight = Function.update w.flight t (pc'.map fun p => ⟨ev, p.rest⟩)) :
    ∃ l, Fanout.Step (w.fanout cfg tr) l (w'.fanout cfg (tr ++ os)) ∧
      (∀ t' c e, l = .deliver t' c e → t' = t) ∧ ∀ c batch, l ≠ .join c batch := by
  have hlog : w'.log cfg = w.log cfg := by rw [World.log, World.log, hhub, hb.frame.2.2.1]
  have hcl : w'.hub.clients = w.hub.clients := by rw [hhub, hb.frame.2.1]
  have hfan (offered : ConnId → List EventPayload)
      (hoff : ∀ c, (tr ++ os).filterMap (Obs.eventTo c) = offered c) :
      w'.fanout cfg (tr ++ os) = { w.fanout cfg tr with
        flight := Function.update w.flight t (pc'.map fun p => ⟨ev, p.rest⟩)
        offered := offered } := by
    simp only [World.fanout, hlog, hcl, hnew, hoff]
  cases hb with
  | copy hset hnd =>
    refine ⟨.copy t, ?_, fun _ _ _ he => (by cases he), fun _ _ he => (by cases he)⟩
    rw [hfan (fun c => tr.filterMap (Obs.eventTo c)) fun c => by rw [List.append_nil]]
    exact .copy hold hset
  | @deliver c rest =>
    refine ⟨.deliver t c ev, ?_, fun t' c' e he => ?_, fun _ _ he => (by cases he)⟩
    · rw [hfan (Function.update (fun c => tr.filterMap (Obs.eventTo c)) c
        (tr.filterMap (Obs.eventTo c) ++ [ev])) fun c' => ?_]
      · exact .deliver hold
      · rw [List.filterMap_append, eventTo_queued]
        by_cases hc : c' = c
        · subst hc
          rw [Function.update_self, if_pos rfl]
        · rw [Function.update_of_ne hc, if_neg (Ne.symm hc), List.append_nil]
    · cases he
      rfl
  | done =>
    refine ⟨.finish t, ?_, fun _ _ _ he => (by cases he), fun _ _ he => (by cases he)⟩
    rw [hfan (fun c => tr.filterMap (Obs.eventTo c)) fun c => by rw [List.append_nil]]
    exact .finish hold

/-! ## Refinement -/

/-- The goroutine that moves. -/
def Action.thread : Action → Option Thread
  | .conn c _ => some (.conn c)
  | .ingest _ => some .ingest
  | _ => none

/-- What the label of a fan-out step says about the step of the daemon it stands for. -/
inductive LabelOf (w : World) (a : Action) (os : List Obs) :
    Fanout.Label Thread ConnId EventPayload → Prop
  | move {l : Fanout.Label Thread ConnId EventPayload} (hjoin : ∀ c batch, l ≠ .join c batch)
      (hthread : ∀ t c e, l = .deliver t c e → a.thread = some t)
      (hos : ∀ c dev k, .registered c dev k ∉ os) : LabelOf w a os l
  | join {c : ConnId} {ch : Choice} {dev : DeviceID} {k : Int} {snap : Snapshot}
      {batch : List EventPayload} (ha : a = .conn c ch)
      (hph : w.conns[c]? = some (.serving dev k (.register snap batch)))
      (hreg : .registered c dev k ∈ os)
      (hos : ∀ c' dev' k', .registered c' dev' k' ∈ os → c' = c ∧ dev' = dev ∧ k' = k) :
      LabelOf w a os (.join c batch)

/-- A step of the daemon, as a step of its fan-out. -/
def FanoutStep (cfg : Config) (w : World) (a : Action) (w' : World) (tr os : List Obs) : Prop :=
  (w'.fanout cfg (tr ++ os) = w.fanout cfg tr ∧ ∀ c dev k, .registered c dev k ∉ os) ∨
    ∃ l, Fanout.Step (w.fanout cfg tr) l (w'.fanout cfg (tr ++ os)) ∧ LabelOf w a os l

/-! ## Idle steps -/

/-- An observation the fan-out does not see. -/
structure Obs.Idle (o : Obs) : Prop where
  appended : o.appendedEvent = none
  event : ∀ c ev, o.offer ≠ some (c, .event ev)
  registered : ∀ c dev k, o ≠ .registered c dev k

/-- The fate of a frame that is not an event. -/
theorem idle_queued (cfg : Config) (h : Hub) (c : ConnId) {f : Envelope} (hf : ∀ ev, f ≠ .event ev) :
    (enqueueRaw cfg h c f).2.Idle := by
  refine enqueueRaw_motive (motive := Obs.Idle) cfg h ⟨rfl, fun c' ev he => ?_, nofun⟩
    ⟨rfl, fun c' ev he => ?_, nofun⟩
  · cases he
    exact hf ev rfl
  · cases he
    exact hf ev rfl

theorem idle_answered (cfg : Config) (h : Hub) (c : ConnId) {o : Obs} {f : Envelope} (ho : o.Idle)
    (hf : ∀ ev, f ≠ .event ev) : ∀ o' ∈ [o, (enqueueRaw cfg h c f).2], o'.Idle := by
  have hne : ∀ c' ev, some (c, f) ≠ some (c', .event ev) := by
    rintro c' ev he
    cases he
    exact hf ev rfl
  exact answered_motive (motive := Obs.Idle) cfg h ho ⟨rfl, hne, nofun⟩ ⟨rfl, hne, nofun⟩

theorem Obs.Idle.eventTo {o : Obs} (h : o.Idle) (c : ConnId) : o.eventTo c = none := by
  unfold Obs.eventTo
  split
  · rename_i c' ev he
    exact absurd he (h.event c' ev)
  · rfl

/-- A step with idle observations that leaves clients and flights alone changes nothing of the fan-out. -/
theorem StepTrans.fanout_same {cfg : Config} {w w' : World} {a : Action} {os tr : List Obs}
    (h : StepTrans cfg w a w' os) (hcl : w'.hub.clients = w.hub.clients)
    (hfl : w'.flight = w.flight) (hidle : ∀ o ∈ os, o.Idle) : FanoutStep cfg w a w' tr os := by
  have hlog : w'.log cfg = w.log cfg := by
    rw [h.log, List.filterMap_eq_nil_iff.mpr fun o ho => (hidle o ho).appended, List.append_nil]
  have hoffered (c : ConnId) :
      (tr ++ os).filterMap (Obs.eventTo c) = tr.filterMap (Obs.eventTo c) := by
    rw [List.filterMap_append, List.filterMap_eq_nil_iff.mpr fun o ho => (hidle o ho).eventTo c,
      List.append_nil]
  refine .inl ⟨?_, fun c dev k ho => (hidle _ ho).registered c dev k rfl⟩
  simp only [World.fanout, hlog, hcl, hfl, hoffered]

/-! ## Publishing, delivering, registering -/

/-- A batch is offered in order to its client only. -/
theorem eventTo_batch {os : List Obs} {c : ConnId} {payload : SnapshotPayload}
    {events : List EventPayload}
    (h : os.map Obs.offer = (.snapshot payload :: events.map .event).map fun f => some (c, f))
    (c' : ConnId) : os.filterMap (Obs.eventTo c') = if c' = c then events else [] := by
  have hcomp : os.filterMap (Obs.eventTo c') = (os.map Obs.offer).filterMap fun x =>
      match x with
      | some (c₀, .event ev) => if c₀ = c' then some ev else none
      | _ => none := by
    rw [List.filterMap_map]
    rfl
  rw [hcomp, h, List.map_cons, List.filterMap_cons_none rfl, List.map_map, List.filterMap_map]
  by_cases hc : c' = c
  · subst hc
    rw [if_pos rfl]
    refine (List.filterMap_congr fun ev _ => ?_).trans List.filterMap_some
    exact if_pos rfl
  · rw [if_neg hc, List.filterMap_eq_nil_iff]
    exact fun ev _ => if_neg (Ne.symm hc)

theorem not_registered_of_source {os : List Obs} (h : ∀ o ∈ os, ∀ c, o.source ≠ .serving c) (c : ConnId)
    (dev : DeviceID) (k : Int) : .registered c dev k ∉ os :=
  fun ho => h _ ho c rfl

/-- The append of a goroutine starts its flight. -/
theorem fanout_publish {cfg : Config} {w w' : World} {a : Action} {tr : List Obs} {t : Thread}
    {wr : Writer} {ev : EventPayload} (h : StepTrans cfg w a w' [.appended wr ev])
    (hcl : w'.hub.clients = w.hub.clients) (hold : w.flight t = none)
    (hnew : w'.flight = Function.update w.flight t (some ⟨ev, none⟩)) :
    FanoutStep cfg w a w' tr [.appended wr ev] := by
  have hlog : w'.log cfg = w.log cfg ++ [ev] := h.log
  have hoff (c : ConnId) : (tr ++ [Obs.appended wr ev]).filterMap (Obs.eventTo c) =
      tr.filterMap (Obs.eventTo c) := by
    rw [List.filterMap_append]
    exact List.append_nil _
  have hfan : w'.fanout cfg (tr ++ [.appended wr ev]) = { w.fanout cfg tr with
      log := w.log cfg ++ [ev], flight := Function.update w.flight t (some ⟨ev, none⟩) } := by
    simp only [World.fanout, hlog, hcl, hnew, hoff]
  refine .inr ⟨.publish t ev, ?_, .move nofun nofun fun c dev k ho => ?_⟩
  · rw [hfan]
    exact .publish hold
  · cases List.mem_singleton.mp ho

theorem BroadcastTrans.fanoutStep {cfg : Config} {w w' : World} {tr os : List Obs} {ev : EventPayload}
    {pc : BroadcastPc} {h' : Hub} {pc' : Option BroadcastPc} {t : Thread} {a : Action}
    (hb : BroadcastTrans cfg w.hub ev pc h' pc' os) (hhub : w'.hub = h')
    (hold : w.flight t = some ⟨ev, pc.rest⟩)
    (hnew : w'.flight = Function.update w.flight t (pc'.map fun p => ⟨ev, p.rest⟩))
    (ha : a.thread = some t) : FanoutStep cfg w a w' tr os := by
  obtain ⟨l, hs, hthread, hjoin⟩ := hb.fanout tr hhub hold hnew
  refine .inr ⟨l, hs, .move hjoin (fun t' c e he => ?_) (not_registered_of_source fun o ho c => ?_)⟩
  · rw [hthread t' c e he, ha]
  · obtain ⟨c', hc'⟩ := hb.frame.2.2.2 o ho
    rw [Obs.source_of_offer hc']
    exact nofun

/-- A handler publishes the event of its command. -/
theorem HandleTrans.fanout {cfg : Config} {c : ConnId} {w : World} {h' : Hub} {dev : DeviceID}
    {cmd : CommandPayload} {pc : HandlerPc} {ch : Choice} {ph : ConnPhase} {os tr : List Obs}
    (hph : w.conns[c]? = some (.handling dev cmd pc))
    (ht : HandleTrans cfg c w.hub dev cmd pc ch h' ph os) :
    FanoutStep cfg w (.conn c ch) { w with hub := h', conns := w.conns.set c ph } tr os := by
  have hst : StepTrans cfg w (.conn c ch) { w with hub := h', conns := w.conns.set c ph } os :=
    .conn hph (.handling ht)
  have hfl := World.flight_set hph h' ph
  have hold := World.flight_conn hph
  -- a handler that moves without touching its flight
  have same (hcl : h'.clients = w.hub.clients) (hsame : ph.flight = pc.flight)
      (hidle : ∀ o ∈ os, o.Idle) :
      FanoutStep cfg w (.conn c ch) { w with hub := h', conns := w.conns.set c ph } tr os := by
    refine hst.fanout_same hcl ?_ hidle
    rw [hfl, hsame]
    exact World.flight_same hold
  cases ht with
  | append happ => exact fanout_publish hst rfl hold hfl
  | broadcast hb => exact hb.fanoutStep rfl hold hfl rfl
  | broadcastDone hb => exact hb.fanoutStep rfl hold hfl rfl
  | noId => exact same rfl rfl (List.forall_mem_singleton.mpr (idle_queued cfg w.hub c nofun))
  | appendFails => exact same rfl rfl (List.forall_mem_nil _)
  | suppress | accept | command | commandFails =>
    exact same rfl rfl (List.forall_mem_singleton.mpr ⟨rfl, nofun, nofun⟩)
  | replay | ack | reject => exact same rfl rfl (idle_answered cfg w.hub c ⟨rfl, nofun, nofun⟩ nofun)
  | execute hex =>
    cases hex with
    | @claim _ a =>
      have hcl : (w.hub.claim a.ask).clients = w.hub.clients := by cases a <;> rfl
      exact same hcl rfl (List.forall_mem_singleton.mpr ⟨rfl, nofun, nofun⟩)
    | proceed | refuse => exact same rfl rfl (List.forall_mem_nil _)

/-- Registering is joining. -/
theorem ServeTrans.fanout {cfg : Config} {c : ConnId} {w : World} {h' : Hub} {dev : DeviceID} {k : Int}
    {pc : ServePc} {ch : Choice} {ph : ConnPhase} {os tr : List Obs}
    (hph : w.conns[c]? = some (.serving dev k pc))
    (ht : ServeTrans cfg c w.hub dev k pc h' ph os) :
    FanoutStep cfg w (.conn c ch) { w with hub := h', conns := w.conns.set c ph } tr os := by
  have hst : StepTrans cfg w (.conn c ch) { w with hub := h', conns := w.conns.set c ph } os :=
    .conn hph (.serving ht)
  have hfl := World.flight_set hph h' ph
  have hsame (hno : ph.flight = none) : World.flight { w with hub := h', conns := w.conns.set c ph } =
      w.flight := by
    rw [hfl, hno]
    exact World.flight_same (World.flight_conn hph)
  cases ht with
  | getSession | getEvents | getSince => exact hst.fanout_same rfl (hsame rfl) (List.forall_mem_nil _)
  | quit => exact hst.fanout_same rfl (hsame rfl) (List.forall_mem_singleton.mpr ⟨rfl, nofun, nofun⟩)
  | @register snap events payload h1 _ os' hh1 henq =>
    -- the batch goes to the queue of `c` in the critical section that registers `c`
    obtain ⟨hq, hcl, hst', hos⟩ := enqueueAll_spec henq
    refine .inr ⟨.join c events, ?_, .join rfl hph List.mem_cons_self fun c' dev' k' ho => ?_⟩
    · have hlog : h'.store.events cfg.sessionID = w.log cfg := by
        rw [hst', hh1]
        rfl
      have hclients : {x | x ∈ h'.clients} = insert c {x | x ∈ w.hub.clients} := by
        ext x
        rw [hcl, hh1]
        exact Finset.mem_insert
      have hoff : (fun c' => (tr ++ .registered c dev k :: os').filterMap (Obs.eventTo c')) =
          Function.update (fun c => tr.filterMap (Obs.eventTo c)) c
            (tr.filterMap (Obs.eventTo c) ++ events) := by
        funext c'
        rw [List.filterMap_append, List.filterMap_cons_none rfl, eventTo_batch hos]
        by_cases hc : c' = c
        · subst hc
          rw [Function.update_self, if_pos rfl]
        · rw [Function.update_of_ne hc, if_neg hc, List.append_nil]
      have hfan : World.fanout cfg { w with hub := h', conns := w.conns.set c (.reading dev) }
          (tr ++ .registered c dev k :: os') = { w.fanout cfg tr with
            clients := insert c (w.fanout cfg tr).clients
            offered := Function.update (w.fanout cfg tr).offered c
              ((w.fanout cfg tr).offered c ++ events) } := by
        simp only [World.fanout, World.log, hlog, hclients, hsame rfl, hoff]
      rw [hfan]
      exact .join
    · rcases List.mem_cons.mp ho with he | ho
      · cases he
        exact ⟨rfl, rfl, rfl⟩
      · obtain ⟨f, -, hf⟩ := enqueueAll_obs henq _ ho
        cases hf

/-- Pairing shows the fan-out nothing. -/
theorem PairTrans.idle {cfg : Config} {c : ConnId} {h h' : Hub} {p : Attempt} {pc : PairPc} {ch : Choice}
    {ph : ConnPhase} {os : List Obs} (ht : PairTrans cfg c h p pc ch h' ph os) : ∀ o ∈ os, o.Idle := by
  cases ht with
  | peek | ask | check | consumeLost => exact List.forall_mem_nil _
  | consume | allowed | approve | consumeOwn => exact List.forall_mem_singleton.mpr ⟨rfl, nofun, nofun⟩
  | issue | issueFails =>
    intro o ho
    rcases List.mem_pair.mp ho with rfl | rfl
    · exact ⟨rfl, nofun, nofun⟩
    · exact ⟨rfl, nofun, nofun⟩
  | quit _ hos =>
    intro o ho
    rcases hos o ho with ⟨code, msg, rfl⟩ | rfl
    · exact ⟨rfl, nofun, nofun⟩
    · exact ⟨rfl, nofun, nofun⟩

/-- Entering a request into its pending map shows the fan-out nothing. -/
theorem note_idle (h : Hub) (ev : EventPayload) :
    (Hub.note h ev).1.clients = h.clients ∧ ∀ o ∈ (Hub.note h ev).2, o.Idle := by
  unfold Hub.note
  split
  · exact ⟨rfl, List.forall_mem_singleton.mpr ⟨rfl, nofun, nofun⟩⟩
  · exact ⟨rfl, List.forall_mem_singleton.mpr ⟨rfl, nofun, nofun⟩⟩
  · exact ⟨rfl, List.forall_mem_nil _⟩

/-- The ingestion loop publishes what the agent emits. -/
theorem IngestTrans.fanout {cfg : Config} {w : World} {h' : Hub} {ch : Choice} {ph' : IngestPhase}
    {os tr : List Obs} (ht : IngestTrans cfg w.hub w.ingest ch h' ph' os) :
    FanoutStep cfg w (.ingest ch) { w with hub := h', ingest := ph' } tr os := by
  have hst : StepTrans cfg w (.ingest ch) { w with hub := h', ingest := ph' } os := .ingest ht
  have hfl := World.flight_ingest w h' ph'
  have hold : w.flight .ingest = w.ingest.flight := rfl
  generalize w.ingest = ph at ht hold
  -- the loop moves without touching its flight
  have same (hcl : h'.clients = w.hub.clients) (hsame : ph'.flight = ph.flight)
      (hidle : ∀ o ∈ os, o.Idle) :
      FanoutStep cfg w (.ingest ch) { w with hub := h', ingest := ph' } tr os := by
    refine hst.fanout_same hcl ?_ hidle
    rw [hfl, hsame]
    exact World.flight_same hold
  cases ht with
  | receive => exact same rfl rfl (List.forall_mem_nil _)
  | append happ => exact fanout_publish hst rfl hold hfl
  | appendFails => exact same rfl rfl (List.forall_mem_nil _)
  | @note ev =>
    obtain ⟨hcl, hidle⟩ := note_idle w.hub ev
    exact same hcl rfl hidle
  | broadcast hb => exact hb.fanoutStep rfl hold hfl rfl
  | broadcastDone hb => exact hb.fanoutStep rfl hold hfl rfl

/-- A connection that is gone leaves. -/
theorem fanout_leave {cfg : Config} {w : World} {c : ConnId} {dev : DeviceID} {ch : Choice}
    {tr : List Obs} (hph : w.conns[c]? = some (.reading dev)) :
    FanoutStep cfg w (.conn c ch) { w with
      hub := { w.hub with clients := w.hub.clients.erase c }, conns := w.conns.set c .closed } tr [] := by
  refine .inr ⟨.leave c, ?_, .move nofun nofun fun _ _ _ => List.not_mem_nil⟩
  have hclients : {x | x ∈ w.hub.clients.erase c} = {x | x ∈ w.hub.clients} \ {c} := by
    ext x
    show x ∈ w.hub.clients.erase c ↔ x ∈ w.hub.clients ∧ x ∉ ({c} : Set ConnId)
    rw [Finset.mem_erase, Set.mem_singleton_iff, and_comm]
  have hfl : World.flight { w with
      hub := { w.hub with clients := w.hub.clients.erase c }, conns := w.conns.set c .closed } =
      w.flight := by
    have hold : w.flight (.conn c) = none := World.flight_conn hph
    rw [World.flight_set hph]
    exact World.flight_same hold
  have hfan : World.fanout cfg { w with
      hub := { w.hub with clients := w.hub.clients.erase c }, conns := w.conns.set c .closed }
      (tr ++ []) = { w.fanout cfg tr with clients := (w.fanout cfg tr).clients \ {c} } := by
    simp only [World.fanout, World.log, hclients, hfl, List.append_nil]
  rw [hfan]
  exact .leave

/-- **The daemon refines the fan-out of its log.** -/
theorem StepTrans.fanout {cfg : Config} {w w' : World} {a : Action} {os : List Obs}
    (h : StepTrans cfg w a w' os) (tr : List Obs) : FanoutStep cfg w a w' tr os := by
  have hst := h
  cases h with
  | accept =>
    refine hst.fanout_same rfl ?_ (List.forall_mem_nil _)
    funext t
    cases t with
    | ingest => rfl
    | conn c => exact congrFun (bind_getElem?_concat (f := ConnPhase.flight) rfl) c
  | @conn c ch ph ph' h' _ hph ht =>
    have keep (hold : ph.flight = none) (hnew : ph'.flight = none) :
        World.flight { w with hub := h', conns := w.conns.set c ph' } = w.flight := by
      rw [World.flight_set hph, hnew, ← hold]
      exact World.flight_same (World.flight_conn hph)
    cases ht with
    | authenticated | unauthenticated | frame | skip =>
      exact hst.fanout_same rfl (keep rfl rfl) (List.forall_mem_nil _)
    | turnedAway hos =>
      refine hst.fanout_same rfl (keep rfl rfl) ?_
      intro o ho
      obtain ⟨code, msg, rfl⟩ := hos o ho
      exact ⟨rfl, nofun, nofun⟩
    | pairing ht =>
      have hnone : ph'.flight = none := by cases ht <;> rfl
      exact hst.fanout_same ht.frame.2.1 (keep rfl hnone) ht.idle
    | serving ht => exact ht.fanout hph
    | gone => exact fanout_leave hph
    | handling ht => exact ht.fanout hph
  | ingest ht => exact ht.fanout
  | write hw hos =>
    refine hst.fanout_same rfl rfl ?_
    intro o ho
    rcases hos with ⟨f, rfl, -⟩ | rfl
    · rw [List.mem_singleton.mp ho]
      exact ⟨rfl, nofun, nofun⟩
    · exact absurd ho List.not_mem_nil
  | pairGenerate | pairApproveSet | pairRevoke =>
    exact hst.fanout_same rfl rfl (List.forall_mem_singleton.mpr ⟨rfl, nofun, nofun⟩)
  | pairApproveGet | pairApproveLost | clock => exact hst.fanout_same rfl rfl (List.forall_mem_nil _)

/-! ## Before and after registration -/

/-- Where a connection can stand once its client was registered. -/
def ConnPhase.late : ConnPhase → Bool
  | .reading _ | .handling _ _ _ | .closed => true
  | _ => false

theorem ConnTrans.late {cfg : Config} {c : ConnId} {h h' : Hub} {ph ph' : ConnPhase} {ch : Choice}
    {os : List Obs} (ht : ConnTrans cfg c h ph ch h' ph' os) (hl : ph.late = true) :
    ph'.late = true := by
  cases ht with
  | handling ht => cases ht <;> rfl
  | frame | skip | gone => rfl
  | _ => cases hl

/-- Registering takes a goroutine from its catch-up to its read loop. -/
theorem ConnTrans.registers {cfg : Config} {c c' : ConnId} {h h' : Hub} {ph ph' : ConnPhase}
    {ch : Choice} {os : List Obs} (ht : ConnTrans cfg c h ph ch h' ph' os) {dev : DeviceID} {k : Int}
    (ho : .registered c' dev k ∈ os) : ph.late = false ∧ ph'.late = true := by
  have hsrc := ht.obs _ ho
  cases ht with
  | serving ht =>
    cases ht with
    | register => exact ⟨rfl, rfl⟩
    | getSession | getEvents | getSince => exact absurd ho List.not_mem_nil
    | quit => cases List.mem_singleton.mp ho
  | _ => rcases hsrc with he | he | he <;> cases he

/-- A registered connection is past its registration. -/
theorem registered_late {cfg : Config} {P : List Obs → World → Action → Prop} {db : Store} {now : Int}
    {tr : List Obs} {w : World} (h : (system cfg).Run P [] (World.init cfg db now) tr w) {c : ConnId}
    {dev : DeviceID} {k : Int} (hreg : .registered c dev k ∈ tr) :
    ∃ ph, w.conns[c]? = some ph ∧ ph.late = true := by
  refine h.invariant (I := fun t u => .registered c dev k ∈ t →
    ∃ ph, u.conns[c]? = some ph ∧ ph.late = true) (fun h0 => absurd h0 List.not_mem_nil) ?_ hreg
  intro t u a u' os _ ih _ hs ho
  have hst : StepTrans cfg u a u' os := World.step_trans hs
  rcases List.mem_append.mp ho with hold | hnew
  · obtain ⟨ph, hph, hl⟩ := ih hold
    cases hst with
    | @conn c' ch ph₀ ph' h' _ hph₀ ht =>
      by_cases hc : c' = c
      · subst hc
        rw [hph₀, Option.some.injEq] at hph
        subst hph
        have hlt := (List.getElem?_eq_some_iff.mp hph₀).1
        exact ⟨ph', by simp [hlt], ht.late hl⟩
      · exact ⟨ph, by simp only [List.getElem?_set_ne hc, hph], hl⟩
    | accept =>
      have hlt := (List.getElem?_eq_some_iff.mp hph).1
      exact ⟨ph, by simp only [List.getElem?_append_left hlt, hph], hl⟩
    | _ => exact ⟨ph, hph, hl⟩
  · obtain ⟨ch, ph, h', ph', rfl, hph, -, ht, rfl⟩ := hst.of_conn hnew (c := c) rfl
    have hlt := (List.getElem?_eq_some_iff.mp hph).1
    exact ⟨ph', by simp [hlt], (ht.registers hnew).2⟩

/-- A connection that is not past its registration was never registered. -/
theorem unregistered_before {cfg : Config} {P : List Obs → World → Action → Prop} {db : Store}
    {now : Int} {tr : List Obs} {w : World} (h : (system cfg).Run P [] (World.init cfg db now) tr w)
    {c : ConnId} {ph : ConnPhase} (hph : w.conns[c]? = some ph) (hl : ph.late = false) (dev : DeviceID)
    (k : Int) : .registered c dev k ∉ tr := by
  intro hm
  obtain ⟨ph', hph', hl'⟩ := registered_late h hm
  rw [hph, Option.some.injEq] at hph'
  subst hph'
  rw [hl] at hl'
  cases hl'

theorem fanout_init_absent (cfg : Config) (db : Store) (now : Int) (c : ConnId) :
    Fanout.Absent ((World.init cfg db now).fanout cfg []) c := by
  refine ⟨Finset.notMem_empty c, fun t ev rest hf => ?_, rfl⟩
  cases t with
  | ingest => cases hf
  | conn c' => simp [World.fanout, World.flight, World.init] at hf

/-- The daemon has nothing to do with a connection that was never registered. -/
theorem absent_of_unregistered {cfg : Config} {P : List Obs → World → Action → Prop} {db : Store}
    {now : Int} {tr : List Obs} {w : World} (h : (system cfg).Run P [] (World.init cfg db now) tr w)
    {c : ConnId} (hno : ∀ dev k, .registered c dev k ∉ tr) : Fanout.Absent (w.fanout cfg tr) c := by
  refine h.invariant (I := fun t u => (∀ dev k, .registered c dev k ∉ t) →
    Fanout.Absent (u.fanout cfg t) c) (fun _ => fanout_init_absent cfg db now c) ?_ hno
  intro t u a u' os _ ih _ hs hno
  have hold := ih fun dev k hm => hno dev k (List.mem_append_left _ hm)
  rcases (World.step_trans hs).fanout t with ⟨heq, -⟩ | ⟨l, hstep, hl⟩
  · rw [heq]
    exact hold
  · refine hold.step hstep fun batch he => ?_
    cases hl with
    | move hjoin => exact hjoin c batch he
    | @join c₀ ch dev k snap batch' ha hph hreg =>
      cases he
      exact hno dev k (List.mem_append_right _ hreg)

/-- What client `c` sees of the daemon. -/
abbrev World.view (cfg : Config) (w : World) (tr : List Obs) (c : ConnId) : Fanout.View EventPayload :=
  (w.fanout cfg tr).view c

/-- **The view rule.** A property of what a client sees, which may depend on the device and the catch-up
point it registered with, holds while the client stays, if it holds when the client registers and is
kept by the steps of its view. -/
theorem view_rule {cfg : Config} {P : List Obs → World → Action → Prop} {db : Store} {now : Int}
    {c : ConnId} {J : Int → Fanout.View EventPayload → Prop}
    (join : ∀ {t u ch dev k snap batch}, (system cfg).Run P [] (World.init cfg db now) t u →
      P t u (.conn c ch) → u.conns[c]? = some (.serving dev k (.register snap batch)) →
      J k ⟨u.log cfg, fun e => (u.fanout cfg t).Uncopied e, batch⟩)
    (step : ∀ {t u a o t' u' k}, P t u a → (system cfg).Run P [] (World.init cfg db now) t' u' →
      Fanout.View.Step (u.view cfg t c) o (u'.view cfg t' c) → c ∈ u.hub.clients →
      (∀ e, o = some e → ∃ th rest, a.thread = some th ∧ u.flight th = some ⟨e, some (c :: rest)⟩) →
      J k (u.view cfg t c) → J k (u'.view cfg t' c))
    {tr : List Obs} {w : World} (h : (system cfg).Run P [] (World.init cfg db now) tr w)
    {dev : DeviceID} {k : Int} (hreg : .registered c dev k ∈ tr) (hc : c ∈ w.hub.clients) :
    J k (w.view cfg tr c) := by
  refine h.invariant (I := fun t u => .registered c dev k ∈ t → c ∈ u.hub.clients →
    J k (u.view cfg t c)) (fun h0 => absurd h0 List.not_mem_nil) ?_ hreg hc
  intro t u a u' os hr ih hP hs hreg hc
  have hr' := hr.tail hP hs
  rcases (World.step_trans hs).fanout t with ⟨heq, hno⟩ | ⟨l, hstep, hl⟩
  · have hold : .registered c dev k ∈ t := (List.mem_append.mp hreg).resolve_right (hno c dev k)
    have hcl : c ∈ (u.fanout cfg t).clients := heq ▸ hc
    rw [World.view, heq]
    exact ih hold hcl
  · -- unless `c` registers in this step, it is a step of its view
    have stay (hno : ∀ batch, l ≠ .join c batch) (hold : .registered c dev k ∈ t)
        (hthread : ∀ th e, l = .deliver th c e → a.thread = some th) : J k (u'.view cfg (t ++ os) c) := by
      have hcl : c ∈ u.hub.clients := by
        by_contra hc0
        obtain ⟨batch, he⟩ := hstep.joined (c := c) hc0 hc
        exact hno batch he
      obtain ⟨o, hv, hdel⟩ := hstep.view (c := c) hcl hc hno
      refine step hP hr' hv hcl (fun e he => ?_) (ih hold hcl)
      obtain ⟨th, rest, hle, hf⟩ := hdel e he
      exact ⟨th, rest, hthread th e hle, hf⟩
    cases hl with
    | move hjoin hthread hos =>
      exact stay (hjoin c) ((List.mem_append.mp hreg).resolve_right (hos c dev k))
        fun th e => hthread th c e
    | @join c₀ ch dev₀ k₀ snap batch ha hph hr0 hos =>
      by_cases hcc : c₀ = c
      · -- `c` itself registers, for the first time
        subst hcc
        have hfirst := unregistered_before hr hph rfl
        obtain ⟨-, -, rfl⟩ := hos c₀ dev k ((List.mem_append.mp hreg).resolve_left (hfirst dev k))
        rw [World.view, hstep.view_join (absent_of_unregistered hr hfirst)]
        subst ha
        exact join hr hP hph
      · refine stay (fun batch he => hcc ?_) ((List.mem_append.mp hreg).resolve_right fun hm => ?_) nofun
        · cases he
          rfl
        · exact hcc (hos c dev k hm).1.symm

end Harness.Hub
