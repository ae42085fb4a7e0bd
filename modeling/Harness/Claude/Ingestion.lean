/-
# Harness.Claude.Ingestion — from the agent's output to the log.

Between a line on stdout and an event in the log stand the reader, which emits the events of the line one by
one, a channel of 256 events that is sent to without blocking, and the ingestion loop of the hub. Here they
run together with the whole daemon: the reader and the loop take their steps in any order, and every call of
`AppendEvent` may fail.

An event is lost in two ways: it is emitted while the channel is full, or its append fails. `agent_events_logged`
says that these are the only two.
-/
import Harness.Claude.Adapter
import Harness.Hub.Delivery
import Harness.Lib.Transit

namespace Harness.Claude

open Wire Lib Hub

structure State where
  adapter : Adapter
  world : World

inductive Action where
  /-- `readStdout` has the next line -/
  | line (bytes : List UInt8)
  /-- the reader emits the next event of its line -/
  | emit
  /-- the ingestion loop receives from the channel -/
  | receive
  /-- any other step of the daemon -/
  | hub (a : Hub.Action)

inductive Obs where
  | handled (bodies : List HostBody)
  | dropped (b : HostBody)
  /-- the append of an event failed -/
  | skipped (kind : EventKind) (payload : Json)
  | hub (o : Hub.Obs)

/-- The event the ingestion loop gave up, which is one it had received and no longer has. -/
def skips : IngestPhase → IngestPhase → List Obs
  | .append kind payload, .idle => [.skipped kind payload]
  | _, _ => []

/-- The receive of the ingestion loop, which takes its event from the channel. -/
def receives : Hub.Action → Bool
  | .ingest (.adapterEvent _ _) => true
  | _ => false

def hubStep (cfg : Config) (s : State) (a : Hub.Action) : Option (State × List Obs) :=
  (s.world.step cfg a).map fun r =>
    ({ s with world := r.1 }, skips s.world.ingest r.1.ingest ++ r.2.map .hub)

def system (codec : Codec) (cfg : Config) : Lts State Action Obs where
  step s
    | .line bytes =>
        match s.adapter.emitting with
        | [] =>
            let adapter := s.adapter.read codec bytes
            some ({ s with adapter := adapter }, [.handled adapter.emitting])
        | _ :: _ => none
    | .emit =>
        match s.adapter.emitting with
        | [] => none
        | b :: rest =>
            let r := emit s.adapter.events b
            some ({ s with adapter := { s.adapter with emitting := rest, events := r.1 } },
              if r.2 then [] else [.dropped b])
    | .receive =>
        match s.adapter.events with
        | [] => none
        | e :: rest =>
            hubStep cfg { s with adapter := { s.adapter with events := rest } }
              (.ingest (.adapterEvent e.1 e.2))
    | .hub a => if receives a then none else hubStep cfg s a

def start (cfg : Config) (db : Store) (now : Int) : State where
  adapter := {}
  world := World.init cfg db now

/-! ## The account of the events -/

/-- The events an observation says `handleStreamJSON` produced. -/
def Obs.produced : Obs → List (EventKind × Json)
  | .handled bodies => bodies.map event
  | _ => []

/-- The event an observation says the ingestion loop stored. -/
def Obs.stored : Obs → List (EventKind × Json)
  | .hub (.appended .ingest ev) => [(ev.kind, ev.payload)]
  | _ => []

def Obs.lost : Obs → Bool
  | .dropped _ | .skipped _ _ => true
  | _ => false

/-- The event the ingestion loop is about to append. -/
def inHand : IngestPhase → List (EventKind × Json)
  | .append kind payload => [(kind, payload)]
  | _ => []

/-- The events on their way, oldest first. -/
def State.transit (s : State) : List (EventKind × Json) :=
  inHand s.world.ingest ++ (s.adapter.events ++ s.adapter.emitting.map event)

/-- Everything has been consumed. -/
def State.Drained (s : State) : Prop :=
  s.world.ingest = .idle ∧ s.adapter.events = [] ∧ s.adapter.emitting = []

@[simp] theorem skips_self (ph : IngestPhase) : skips ph ph = [] := by
  cases ph <;> rfl

theorem stored_nil {os : List Hub.Obs} (h : os.filterMap Hub.Obs.appendedEvent = []) :
    (os.map Obs.hub).flatMap Obs.stored = [] := by
  rw [List.flatMap_map, List.flatMap_eq_nil_iff]
  intro o ho
  have hnone : o.appendedEvent = none := List.filterMap_eq_nil_iff.mp h o ho
  unfold Obs.stored
  split
  · rename_i heq
    cases heq
    cases hnone
  · rfl

@[simp] theorem countP_lost_hub (os : List Hub.Obs) : (os.map Obs.hub).countP Obs.lost = 0 := by
  rw [List.countP_eq_zero]
  intro o ho
  obtain ⟨o', -, rfl⟩ := List.mem_map.mp ho
  exact Bool.false_ne_true

/-- A step that stores nothing and leaves the ingestion loop with the same event in hand. -/
theorem move_stay {ph ph' : IngestPhase} {os : List Hub.Obs} (rest : List (EventKind × Json))
    (hskip : skips ph ph' = []) (hhand : inHand ph' = inHand ph)
    (hos : os.filterMap Hub.Obs.appendedEvent = []) :
    Transit.Move (inHand ph ++ rest) [] ((skips ph ph' ++ os.map Obs.hub).flatMap Obs.stored)
      ((skips ph ph' ++ os.map Obs.hub).countP Obs.lost) (inHand ph' ++ rest) := by
  rw [hskip, hhand, List.nil_append, stored_nil hos, countP_lost_hub]
  exact .stay

/-- **`Moved ph ph' os`** — what a step of the daemon does to the event in hand: it stores it, gives it up,
or leaves it alone. -/
def Moved (ph ph' : IngestPhase) (os : List Hub.Obs) : Prop :=
  ∀ rest, Transit.Move (inHand ph ++ rest) []
    ((skips ph ph' ++ os.map Obs.hub).flatMap Obs.stored)
    ((skips ph ph' ++ os.map Obs.hub).countP Obs.lost) (inHand ph' ++ rest)

/-- The ingestion loop, apart from its receive. -/
theorem ingest_moved {cfg : Config} {h h' : Hub} {ph ph' : IngestPhase} {ch : Choice}
    {os : List Hub.Obs} (ht : IngestTrans cfg h ph ch h' ph' os)
    (hch : receives (.ingest ch) = false) : Moved ph ph' os := by
  intro rest
  cases ht with
  | receive => cases hch
  | @append kind payload _ ev _ happ =>
    obtain ⟨-, hk, hp, -⟩ := Store.appendEvent_spec happ
    have hev : (ev.kind, ev.payload) = (kind, payload) := by rw [hk, hp]
    show Transit.Move ((kind, payload) :: rest) [] [(ev.kind, ev.payload)] 0 rest
    rw [hev]
    exact .deliver rfl
  | @appendFails kind payload =>
    show Transit.Move ((kind, payload) :: rest) [] [] 1 rest
    exact .lose (l := []) rfl
  | note => exact move_stay rest rfl rfl (note_appended _ _)
  | broadcast hb | broadcastDone hb => exact move_stay rest rfl rfl hb.appended

/-- A step of the daemon other than the receive of the ingestion loop. -/
theorem hub_moved {cfg : Config} {w w' : World} {a : Hub.Action} {os : List Hub.Obs}
    (hs : w.step cfg a = some (w', os)) (ha : receives a = false) :
    Moved w.ingest w'.ingest os := by
  rcases (World.step_trans hs).actors with ⟨c, dev, cmd, pc, ch, h', ph', -, -, ht, rfl⟩ |
    ⟨ch, h', ph', rfl, ht, rfl⟩ | ⟨-, hno, hsame, -⟩
  · intro rest
    rcases ht.appended with ⟨out, ev, st, -, -, -, -, rfl⟩ | ⟨hnil, -⟩
    · -- a command's event is not the ingestion loop's
      show Transit.Move _ [] ((skips w.ingest w.ingest ++ _).flatMap Obs.stored) _ _
      rw [skips_self]
      exact .stay
    · exact move_stay rest (skips_self _) rfl hnil
  · exact ingest_moved ht ha
  · intro rest
    rw [hsame]
    exact move_stay rest (skips_self _) rfl (filterMap_appended_nil hno)

/-- The receive of the ingestion loop. -/
theorem ingestStep_receive {cfg : Config} {h h' : Hub} {ph ph' : IngestPhase} {kind : EventKind}
    {payload : Json} {os : List Hub.Obs}
    (hs : ingestStep cfg h ph (.adapterEvent kind payload) = some (h', ph', os)) :
    ph = .idle ∧ ph' = .append kind payload ∧ os = [] := by
  cases ph with
  | idle =>
    cases hs
    exact ⟨rfl, rfl, rfl⟩
  | append => cases hs
  | note => cases hs
  | broadcast ev pc =>
    have hnone : broadcastStep cfg h ev pc (.adapterEvent kind payload) = none := by
      cases pc with
      | copy => rfl
      | send targets => cases targets <;> rfl
    simp [ingestStep, hnone] at hs

theorem produced_hubStep (obs : List Hub.Obs) (ph ph' : IngestPhase) :
    (skips ph ph' ++ obs.map Obs.hub).flatMap Obs.produced = [] := by
  rw [List.flatMap_eq_nil_iff]
  intro o ho
  rcases List.mem_append.mp ho with ho | ho
  · unfold skips at ho
    split at ho
    · rw [List.mem_singleton.mp ho]
      rfl
    · cases ho
  · obtain ⟨o', -, rfl⟩ := List.mem_map.mp ho
    rfl

theorem hubStep_move {cfg : Config} {s s' : State} {a : Hub.Action} {os : List Obs}
    (hs : hubStep cfg s a = some (s', os)) (ha : receives a = false) :
    Transit.Move s.transit (os.flatMap Obs.produced) (os.flatMap Obs.stored) (os.countP Obs.lost)
      s'.transit := by
  simp only [hubStep, Option.map_eq_some_iff, Prod.mk.injEq] at hs
  obtain ⟨⟨w, obs⟩, hstep, rfl, rfl⟩ := hs
  rw [produced_hubStep]
  exact hub_moved hstep ha _

/-- **One step moves the events on their way.** -/
theorem step_move {codec : Codec} {cfg : Config} {s s' : State} {a : Action} {os : List Obs}
    (hs : (system codec cfg).step s a = some (s', os)) :
    Transit.Move s.transit (os.flatMap Obs.produced) (os.flatMap Obs.stored) (os.countP Obs.lost)
      s'.transit := by
  cases a with
  | line bytes =>
    simp only [system] at hs
    split at hs
    · rename_i hnil
      cases hs
      -- the line's events join the end of the queue
      have hfeed : Transit.Move s.transit _ [] 0
          (s.transit ++ (handleStreamJSON codec bytes).map event) := .feed _
      rw [State.transit, hnil, List.map_nil, List.append_nil, List.append_assoc] at hfeed
      show Transit.Move s.transit ((handleStreamJSON codec bytes).map event ++ []) [] 0 _
      rw [List.append_nil, State.transit, hnil, List.map_nil, List.append_nil]
      exact hfeed
    · cases hs
  | emit =>
    simp only [system] at hs
    split at hs
    · cases hs
    · rename_i b rest hb
      cases hs
      show Transit.Move (inHand s.world.ingest ++ (s.adapter.events ++ s.adapter.emitting.map event)) _ _ _
        (inHand s.world.ingest ++ ((emit s.adapter.events b).1 ++ rest.map event))
      rw [hb, List.map_cons]
      unfold emit
      split
      · rw [List.append_assoc]
        exact .stay
      · rw [← List.append_assoc, ← List.append_assoc]
        exact .lose rfl
  | receive =>
    simp only [system] at hs
    split at hs
    · cases hs
    · rename_i e rest he
      simp only [hubStep, World.step, Option.map_map, Option.map_eq_some_iff, Function.comp_apply,
        Prod.mk.injEq] at hs
      obtain ⟨⟨h', ph', obs⟩, hstep, rfl, rfl⟩ := hs
      obtain ⟨hidle, rfl, rfl⟩ := ingestStep_receive hstep
      show Transit.Move (inHand s.world.ingest ++ (s.adapter.events ++ _))
        ((skips s.world.ingest _ ++ _).flatMap _) ((skips s.world.ingest _ ++ _).flatMap _)
        ((skips s.world.ingest _ ++ _).countP _) (e :: (rest ++ _))
      rw [hidle, he]
      exact .stay
  | hub a =>
    simp only [system] at hs
    split at hs
    · cases hs
    · rename_i ha
      exact hubStep_move hs (Bool.eq_false_iff.mpr ha)

theorem books {codec : Codec} {cfg : Config} {db : Store} {now : Int} {tr : List Obs} {s : State}
    (h : (system codec cfg).Run Lts.Free [] (start cfg db now) tr s) :
    Transit.Books (tr.flatMap Obs.produced) (tr.flatMap Obs.stored) (tr.countP Obs.lost) s.transit :=
  Transit.books_of_run Obs.produced Obs.stored Obs.lost State.transit h rfl fun _ _ _ _ _ _ hs =>
    step_move hs

/-! ## The ingestion loop catches up -/

/-- A database whose row counts its events takes one more. -/
theorem append_succeeds {cfg : Config} {db : Store} (h : Counted cfg db) (kind : EventKind)
    (payload : Json) (now : Int) :
    ∃ ev st, db.appendEvent cfg.sessionID kind payload now = some (ev, st) := by
  obtain ⟨⟨sess, hsess, hlen⟩, hnum⟩ := h
  have hfree : ¬ ((db.events cfg.sessionID).any (·.seq == sess.lastSeq + 1)) = true := by
    rw [List.any_eq_true]
    rintro ⟨e, he, heq⟩
    have hle := (hnum.bounds he).2
    rw [beq_iff_eq] at heq
    omega
  unfold Store.appendEvent
  simp only [hsess]
  rw [if_neg hfree]
  exact ⟨_, _, rfl⟩

section

variable {codec : Codec} {cfg : Config}

/-- A state that differs from `s` in the channel, the hub and where the ingestion loop stands. -/
def State.ingesting (s : State) (events : List (EventKind × Json)) (h : Hub) (ph : IngestPhase) : State where
  adapter := { s.adapter with events := events }
  world := { s.world with hub := h, ingest := ph }

/-- A step of the ingestion loop as a step of the whole. -/
theorem step_ingesting (s : State) (events : List (EventKind × Json)) {h h' : Hub} {ph ph' : IngestPhase}
    {ch : Choice} {os : List Hub.Obs} (hs : ingestStep cfg h ph ch = some (h', ph', os))
    (hch : receives (.ingest ch) = false) :
    (system codec cfg).step (s.ingesting events h ph) (.hub (.ingest ch)) =
      some (s.ingesting events h' ph', skips ph ph' ++ os.map .hub) := by
  simp [system, hubStep, World.step, hch, hs, State.ingesting]

/-- **`Reaches codec cfg s s'`** — some schedule leads from `s` to `s'`. -/
def Reaches (codec : Codec) (cfg : Config) (s s' : State) : Prop :=
  ∀ tr, ∃ tr', (system codec cfg).Run Lts.Free tr s tr' s'

theorem Reaches.step {s s' : State} {a : Action} {os : List Obs}
    (hs : (system codec cfg).step s a = some (s', os)) : Reaches codec cfg s s' :=
  fun _ => ⟨_, .single trivial hs⟩

theorem Reaches.trans {s s' s'' : State} (h : Reaches codec cfg s s') (h' : Reaches codec cfg s' s'') :
    Reaches codec cfg s s'' := by
  intro tr
  obtain ⟨tr', hr⟩ := h tr
  obtain ⟨tr'', hr'⟩ := h' tr'
  exact ⟨tr'', hr.trans hr'⟩

variable (codec cfg)

/-- A broadcast is served to its end. -/
theorem send_finishes (s : State) (events : List (EventKind × Json)) (ev : EventPayload)
    (targets : List ConnId) :
    ∀ h : Hub, ∃ h', h'.store = h.store ∧
      Reaches codec cfg (s.ingesting events h (.broadcast ev (.send targets)))
        (s.ingesting events h' .idle) := by
  induction targets with
  | nil =>
    intro h
    have hstep : ingestStep cfg h (.broadcast ev (.send [])) .run = some (h, .idle, []) := rfl
    exact ⟨h, rfl, .step (step_ingesting s events hstep rfl)⟩
  | cons t targets ih =>
    intro h
    have hstep : ingestStep cfg h (.broadcast ev (.send (t :: targets))) .run =
        some ((enqueueRaw cfg h t (.event ev)).1, .broadcast ev (.send targets),
          [(enqueueRaw cfg h t (.event ev)).2]) := rfl
    obtain ⟨h', hstore, hreach⟩ := ih (enqueueRaw cfg h t (.event ev)).1
    exact ⟨h', hstore, (Reaches.step (step_ingesting s events hstep rfl)).trans hreach⟩

variable {cfg}

/-- The oldest event of the channel is received, stored and broadcast. -/
theorem event_consumed (s : State) (e : EventKind × Json) (rest : List (EventKind × Json)) {h : Hub}
    (hc : Counted cfg h.store) :
    ∃ h', Counted cfg h'.store ∧
      Reaches codec cfg (s.ingesting (e :: rest) h .idle) (s.ingesting rest h' .idle) := by
  obtain ⟨ev, st, happ⟩ := append_succeeds hc e.1 e.2 h.now
  have hreceive : (system codec cfg).step (s.ingesting (e :: rest) h .idle) .receive =
      some (s.ingesting rest h (.append e.1 e.2), []) := rfl
  have happend : ingestStep cfg h (.append e.1 e.2) (.call .ok) =
      some ({ h with store := st }, .note ev, [.appended .ingest ev]) := by
    simp [ingestStep, happ]
  have hnote : ingestStep cfg { h with store := st } (.note ev) .run =
      some ((note { h with store := st } ev).1, .broadcast ev .copy, (note { h with store := st } ev).2) :=
    rfl
  have hcopy (h : Hub) : ingestStep cfg h (.broadcast ev .copy) (.order h.clients.toList) =
      some (h, .broadcast ev (.send h.clients.toList), []) := by
    simp [ingestStep, broadcastStep, Finset.nodup_toList]
  obtain ⟨h', hstore, hsend⟩ := send_finishes codec cfg s rest ev
    (note { h with store := st } ev).1.clients.toList (note { h with store := st } ev).1
  refine ⟨h', ?_, ?_⟩
  · rw [hstore, note_store]
    exact counted_append happ hc
  · have hstored := (Reaches.step hreceive).trans
      ((Reaches.step (step_ingesting s rest happend rfl)).trans
        (Reaches.step (step_ingesting s rest hnote rfl)))
    exact hstored.trans ((Reaches.step (step_ingesting s rest (hcopy _) rfl)).trans hsend)

/-- **The channel can always be emptied**, whatever clients are connected and however full it is. -/
theorem drains (s : State) (hemit : s.adapter.emitting = []) (events : List (EventKind × Json)) :
    ∀ h : Hub, Counted cfg h.store →
      ∃ s', s'.Drained ∧ Reaches codec cfg (s.ingesting events h .idle) s' := by
  induction events with
  | nil => exact fun h _ => ⟨s.ingesting [] h .idle, ⟨rfl, rfl, hemit⟩, fun tr => ⟨tr, .refl⟩⟩
  | cons e rest ih =>
    intro h hc
    obtain ⟨h', hc', hreach⟩ := event_consumed codec s e rest hc
    obtain ⟨s', hd, hreach'⟩ := ih h' hc'
    exact ⟨s', hd, hreach.trans hreach'⟩

end

/-! ## When nothing is lost -/

/-- **`Kept s a`** — the step loses nothing: an event is emitted while the channel has room, and the call of
`AppendEvent` that the ingestion loop makes succeeds. -/
def Kept (_ : List Obs) (s : State) : Action → Prop
  | .emit => s.adapter.events.length < eventBuffer
  | .hub (.ingest (.call (.err _))) => False
  | _ => True

theorem ingest_same {cfg : Config} {w w' : World} {a : Hub.Action} {os : List Hub.Obs}
    (hs : w.step cfg a = some (w', os)) (ha : ∀ ch, a ≠ .ingest ch) : w'.ingest = w.ingest := by
  rcases (World.step_trans hs).actors with ⟨_, _, _, _, _, _, _, -, -, -, rfl⟩ |
    ⟨ch, _, _, rfl, -, -⟩ | ⟨-, -, hsame, -⟩
  · rfl
  · exact absurd rfl (ha ch)
  · exact hsame

/-- The ingestion loop gives an event up when a call fails, and only then. -/
theorem skips_ingestStep {cfg : Config} {h h' : Hub} {ph ph' : IngestPhase} {ch : Choice}
    {os : List Hub.Obs} (hs : ingestStep cfg h ph ch = some (h', ph', os)) :
    skips ph ph' = [] ↔ ∀ msg, ch ≠ .call (.err msg) := by
  constructor
  · rintro hnil msg rfl
    cases ph with
    | append =>
      cases hs
      cases hnil
    | broadcast ev pc =>
      have hnone : broadcastStep cfg h ev pc (.call (.err msg)) = none := by
        cases pc with
        | copy => rfl
        | send targets => cases targets <;> rfl
      simp [ingestStep, hnone] at hs
    | _ => cases hs
  · intro hch
    cases ingestStep_trans hs with
    | appendFails =>
      cases ch with
      | call out =>
        cases out with
        | err msg => exact absurd rfl (hch msg)
        | ok =>
          simp only [ingestStep] at hs
          split at hs
          · cases hs
          · simp at hs
      | _ => cases hs
    | receive => rfl
    | append => rfl
    | note => rfl
    | broadcast => rfl
    | broadcastDone => rfl

theorem countP_hubStep (ph ph' : IngestPhase) (os : List Hub.Obs) :
    (skips ph ph' ++ os.map Obs.hub).countP Obs.lost = 0 ↔ skips ph ph' = [] := by
  rw [List.countP_append, countP_lost_hub, Nat.add_zero]
  unfold skips
  split
  · simp [Obs.lost]
  · simp

/-- The guard on a step of the ingestion loop. -/
theorem kept_ingest {tr : List Obs} {s : State} {ch : Choice} :
    Kept tr s (.hub (.ingest ch)) ↔ ∀ msg, ch ≠ .call (.err msg) := by
  cases ch with
  | call out => cases out <;> simp [Kept]
  | _ => simp [Kept]

theorem kept_iff {codec : Codec} {cfg : Config} {tr : List Obs} {s s' : State} {a : Action}
    {os : List Obs} (hs : (system codec cfg).step s a = some (s', os)) :
    Kept tr s a ↔ os.countP Obs.lost = 0 := by
  cases a with
  | line bytes =>
    simp only [system] at hs
    split at hs
    · cases hs
      exact iff_of_true trivial rfl
    · cases hs
  | emit =>
    simp only [system] at hs
    split at hs
    · cases hs
    · cases hs
      simp only [Kept, emit]
      split
      · rename_i hroom
        exact iff_of_true hroom rfl
      · rename_i hfull
        exact iff_of_false hfull (by simp [Obs.lost])
  | receive =>
    simp only [system] at hs
    split at hs
    · cases hs
    · simp only [hubStep, World.step, Option.map_map, Option.map_eq_some_iff, Function.comp_apply,
        Prod.mk.injEq] at hs
      obtain ⟨⟨h', ph', obs⟩, hstep, rfl, rfl⟩ := hs
      obtain ⟨hidle, -, -⟩ := ingestStep_receive hstep
      refine iff_of_true trivial ((countP_hubStep ..).mpr ?_)
      rw [hidle]
      rfl
  | hub a =>
    simp only [system, hubStep] at hs
    split at hs
    · cases hs
    · simp only [Option.map_eq_some_iff, Prod.mk.injEq] at hs
      obtain ⟨⟨w, obs⟩, hstep, rfl, rfl⟩ := hs
      rw [countP_hubStep]
      by_cases ha : ∃ ch, a = .ingest ch
      · obtain ⟨ch, rfl⟩ := ha
        simp only [World.step, Option.map_eq_some_iff, Prod.mk.injEq] at hstep
        obtain ⟨⟨h', ph', obs'⟩, hstep, rfl, -⟩ := hstep
        exact kept_ingest.trans (skips_ingestStep hstep).symm
      · have hne : ∀ ch, a ≠ .ingest ch := fun ch heq => ha ⟨ch, heq⟩
        rw [ingest_same hstep hne]
        refine iff_of_true ?_ (skips_self _)
        unfold Kept
        split
        · rename_i heq
          cases heq
        · rename_i heq
          exact absurd (Action.hub.inj heq) (hne _)
        · trivial

/-- A run whose observations tell of no loss is a run in which every step keeps its events. -/
theorem run_kept_iff {codec : Codec} {cfg : Config} {db : Store} {now : Int} {tr : List Obs} {s : State}
    (h : (system codec cfg).Run Lts.Free [] (start cfg db now) tr s) :
    (system codec cfg).Run Kept [] (start cfg db now) tr s ↔ tr.countP Obs.lost = 0 := by
  constructor
  · intro hkept
    refine hkept.invariant (I := fun t _ => t.countP Obs.lost = 0) rfl ?_
    intro t u a u' os _ ih hP hs
    rw [List.countP_append, ih, (kept_iff hs).mp hP]
  · induction h with
    | refl => exact fun _ => .refl
    | tail _ _ hs ih =>
      intro hzero
      rw [List.countP_append, Nat.add_eq_zero_iff] at hzero
      exact (ih hzero.1).tail ((kept_iff hs).mpr hzero.2) hs

theorem transit_of_drained {s : State} (h : s.Drained) : s.transit = [] := by
  rw [State.transit, h.1, h.2.1, h.2.2]
  rfl

/-- **No agent event is lost exactly when none is emitted into a full channel and no append of the
ingestion loop fails.** Once everything has been consumed, the events the loop appended are those
`handleStreamJSON` produced, in the same order, if and only if every step kept its events; in every run they
are a sublist of those. -/
theorem agent_events_logged {codec : Codec} {cfg : Config} {db : Store} {now : Int} {tr : List Obs}
    {s : State} (h : (system codec cfg).Run Lts.Free [] (start cfg db now) tr s) (hd : s.Drained) :
    (tr.flatMap Obs.stored).Sublist (tr.flatMap Obs.produced) ∧
    (tr.flatMap Obs.stored = tr.flatMap Obs.produced ↔
      (system codec cfg).Run Kept [] (start cfg db now) tr s) := by
  have hbooks := books h
  rw [transit_of_drained hd] at hbooks
  refine ⟨?_, hbooks.settled.trans (run_kept_iff h).symm⟩
  have horder := hbooks.order
  rwa [List.append_nil] at horder

namespace Sample

def toolResult : List UInt8 := "\x7b\"type\":\"tool_result\"\x7d".toUTF8.data.toList

def permissionRequest : List UInt8 :=
  "\x7b\"type\":\"permission_request\",\"request_id\":\"r1\",\"kind\":\"Bash\"\x7d".toUTF8.data.toList

/-- What `encoding/json` makes of the two lines. -/
def codec : Codec where
  unmarshal line :=
    if line = toolResult then .ok [("type", .str "tool_result")]
    else if line = permissionRequest then
      .ok [("type", .str "permission_request"), ("request_id", .str "r1"), ("kind", .str "Bash")]
    else .error "invalid character"
  marshal _ := "null"
  int n := n.mantissa

def start : State := Claude.start Hub.Sample.config Hub.Sample.database 0

/-- The state in which `n` results of tools wait in the channel. -/
def waiting (n : Nat) : State :=
  start.ingesting (List.replicate n (event (.toolCallEnd {}))) start.world.hub .idle

/-- One line, from its emission to the end of the broadcast. -/
def oneResult : List Action :=
  [.line toolResult, .emit, .receive, .hub (.ingest (.call .ok)), .hub (.ingest .run),
    .hub (.ingest (.order [])), .hub (.ingest .run)]

end Sample

/-- A step loses nothing, as far as a decision can see. -/
def keeps (s : State) : Action → Bool
  | .emit => decide (s.adapter.events.length < eventBuffer)
  | .hub (.ingest (.call (.err _))) => false
  | _ => true

theorem keeps_sound (tr : List Obs) (s : State) (a : Action) (h : keeps s a = true) : Kept tr s a := by
  unfold keeps at h
  split at h
  · have hroom : s.adapter.events.length < eventBuffer := of_decide_eq_true h
    exact hroom
  · cases h
  · rename_i hemit herr
    unfold Kept
    split
    · exact absurd rfl hemit
    · exact absurd rfl (herr _)
    · trivial

theorem agent_events_logged_oneResult :
    ∃ tr s, (system Sample.codec Hub.Sample.config).Run Kept [] Sample.start tr s ∧
      tr.flatMap Obs.stored = tr.flatMap Obs.produced ∧ (tr.flatMap Obs.stored).length = 1 := by
  have hexec : ∃ r, (system Sample.codec Hub.Sample.config).exec (fun _ => keeps) [] Sample.start
      Sample.oneResult = some r ∧ r.2.world.ingest = .idle ∧ r.2.adapter.events = [] ∧
      r.2.adapter.emitting = [] ∧ (r.1.flatMap Obs.stored).length = 1 :=
    ⟨_, rfl, rfl, rfl, rfl, rfl⟩
  obtain ⟨⟨tr, s⟩, he, hidle, hevents, hemitting, hlength⟩ := hexec
  have hrun := Lts.run_of_exec keeps_sound he
  exact ⟨tr, s, hrun, (agent_events_logged hrun.free ⟨hidle, hevents, hemitting⟩).2.mpr hrun, hlength⟩

open Sample in
/-- Lines come faster than the ingestion loop runs. -/
theorem fills (n : Nat) (hn : n ≤ eventBuffer) :
    Reaches Sample.codec Hub.Sample.config Sample.start (waiting n) := by
  induction n with
  | zero => exact fun tr => ⟨tr, .refl⟩
  | succ n ih =>
    have hline : (system Sample.codec Hub.Sample.config).step (waiting n) (.line toolResult) =
        some ({ waiting n with adapter := { (waiting n).adapter with emitting := [.toolCallEnd {}] } },
          [.handled [.toolCallEnd {}]]) := rfl
    have hroom : (List.replicate n (event (.toolCallEnd {}))).length < eventBuffer := by
      rw [List.length_replicate]
      exact hn
    have hemit : (system Sample.codec Hub.Sample.config).step
        { waiting n with adapter := { (waiting n).adapter with emitting := [.toolCallEnd {}] } } .emit =
        some (waiting (n + 1), []) := by
      simp only [system, waiting, State.ingesting, emit]
      rw [if_pos hroom, List.replicate_succ']
      rfl
    exact (ih (Nat.le_of_succ_le hn)).trans ((Reaches.step hline).trans (Reaches.step hemit))

/-- The ingestion loop does not run while 257 lines are read: the channel takes 256 results of tools, and the
permission request that follows them is dropped. -/
theorem permission_request_dropped :
    ∃ tr s, (system Sample.codec Hub.Sample.config).Run Lts.Free []
        (start Hub.Sample.config Hub.Sample.database 0) tr s ∧ s.Drained ∧
      .dropped (.permissionRequest ⟨"r1", "Bash", ""⟩) ∈ tr ∧
      tr.flatMap Obs.stored ≠ tr.flatMap Obs.produced := by
  obtain ⟨t, hfill⟩ := fills eventBuffer (Nat.le_refl _) []
  let request : HostBody := .permissionRequest ⟨"r1", "Bash", ""⟩
  have hline : (system Sample.codec Hub.Sample.config).step (Sample.waiting eventBuffer)
      (.line Sample.permissionRequest) =
      some ({ Sample.waiting eventBuffer with
        adapter := { (Sample.waiting eventBuffer).adapter with emitting := [request] } },
        [.handled [request]]) := rfl
  have hfull : ¬ (List.replicate eventBuffer (event (.toolCallEnd {}))).length < eventBuffer := by
    rw [List.length_replicate]
    exact Nat.lt_irrefl _
  have hemit : (system Sample.codec Hub.Sample.config).step
      { Sample.waiting eventBuffer with
        adapter := { (Sample.waiting eventBuffer).adapter with emitting := [request] } } .emit =
      some (Sample.waiting eventBuffer, [.dropped request]) := by
    simp only [system, Sample.waiting, State.ingesting, emit]
    rw [if_neg hfull]
    rfl
  have hrun := (hfill.tail trivial hline).tail trivial hemit
  have hcounted : Counted Hub.Sample.config Sample.start.world.hub.store :=
    counted (P := Lts.Free) .refl
  obtain ⟨s, hd, hreach⟩ := drains Sample.codec Sample.start rfl
    (List.replicate eventBuffer (event (.toolCallEnd {}))) Sample.start.world.hub hcounted
  obtain ⟨tr, hrest⟩ := hreach (t ++ [.handled [request]] ++ [.dropped request])
  have hmem : .dropped request ∈ tr :=
    hrest.prefix_trace.mem (List.mem_append_right _ List.mem_cons_self)
  refine ⟨tr, s, hrun.trans hrest, hd, hmem, fun heq => ?_⟩
  have hbooks := books (hrun.trans hrest)
  rw [transit_of_drained hd] at hbooks
  have hzero := hbooks.settled.mp heq
  exact List.countP_eq_zero.mp hzero _ hmem rfl

end Harness.Claude
