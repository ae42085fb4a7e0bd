/-
# Harness.Hub.AgentOrder — the order in which the agent hears of commands.

`handleCommand` appends the event of a command, which fixes its place in the log, and calls the adapter
some steps later. Handlers of several connections overtake each other in between, so that the agent may
hear of two commands in the other order than every screen shows them (`overtakenModes_disagree`).

The events that are in the log and not yet with the agent stand in a LINE, in log order. As long as a
handler hands its command over from the head of the line, or past events with the same content only, the
agent's commands are a prefix of the log's (`in_line`), and when no handler is in progress they are the
log's (`agent_order`).
-/
import Harness.Hub.Delivery

namespace Harness.Hub

open Wire Lib

/-! ## What is recorded and what is handed over -/

/-- The event a handler has appended for a command the adapter has not been given yet. -/
def HandlerPc.undelivered : HandlerPc → Option EventPayload
  | .ack ev _ | .broadcast ev _ _ | .command ev _ => some ev
  | _ => none

def ConnPhase.undelivered : ConnPhase → Option EventPayload
  | .handling _ _ pc => pc.undelivered
  | _ => none

def World.undelivered (w : World) (c : ConnId) : Option EventPayload :=
  (w.conns[c]?).bind ConnPhase.undelivered

/-- The event of a command, when `handleCommand` appends it. -/
def Obs.recorded : Obs → Option EventPayload
  | .appended (.command _ _ _) ev => some ev
  | _ => none

/-- The command handed to the adapter, and the device that sent it. -/
def Obs.handedOver : Obs → Option (DeviceID × AgentCommand)
  | .handed _ dev _ out _ => some (dev, out)
  | _ => none

/-- The events of commands, in the order of the log. -/
def commandEvents (tr : List Obs) : List EventPayload := tr.filterMap Obs.recorded

/-- The commands handed to the adapter, in order. -/
def handedCommands (tr : List Obs) : List (DeviceID × AgentCommand) := tr.filterMap Obs.handedOver

/-- What an event says. -/
def content (ev : EventPayload) : EventKind × Json := (ev.kind, ev.payload)

/-- What the log says of a command. -/
def contentOf (x : DeviceID × AgentCommand) : EventKind × Json := commandEvent x.1 x.2

/-- A step of the daemon as the agent's line sees it. -/
inductive LineStep (w : World) (a : Action) (w' : World) : List Obs → Prop
  | record {c : ConnId} {dev : DeviceID} {k : String} {ev : EventPayload}
      (hold : w.undelivered c = none)
      (hnew : w'.undelivered = Function.update w.undelivered c (some ev)) :
      LineStep w a w' [.appended (.command c dev k) ev]
  | hand {c : ConnId} {dev : DeviceID} {cmd : CommandPayload} {ev : EventPayload} {out : AgentCommand}
      {ch : Choice} {ok : Bool} (ha : a = .conn c ch)
      (hph : w.conns[c]? = some (.handling dev cmd (.command ev out)))
      (hnew : w'.undelivered = Function.update w.undelivered c none) :
      LineStep w a w' [.handed c dev (key cmd) out ok]
  | other {os : List Obs} (hsame : w'.undelivered = w.undelivered)
      (hos : ∀ o ∈ os, o.recorded = none ∧ o.handedOver = none) : LineStep w a w' os

theorem World.undelivered_conn {w : World} {c : ConnId} {ph : ConnPhase}
    (hph : w.conns[c]? = some ph) : w.undelivered c = ph.undelivered := by
  rw [World.undelivered, hph, Option.bind_some]

theorem World.undelivered_set {w : World} {c : ConnId} {ph : ConnPhase} (hph : w.conns[c]? = some ph)
    (h' : Hub) (ph' : ConnPhase) :
    World.undelivered { w with hub := h', conns := w.conns.set c ph' } =
      Function.update w.undelivered c ph'.undelivered :=
  bind_getElem?_set hph ph' ConnPhase.undelivered

/-- Only handlers record and hand over. -/
theorem line_free_of_source {o : Obs} (h : ∀ c, o.source ≠ .handler c) :
    o.recorded = none ∧ o.handedOver = none := by
  cases o with
  | appended wr ev =>
    cases wr with
    | ingest => exact ⟨rfl, rfl⟩
    | command c dev k => exact absurd rfl (h c)
  | handed c => exact absurd rfl (h c)
  | _ => exact ⟨rfl, rfl⟩

theorem HandleTrans.lineStep {cfg : Config} {c : ConnId} {w : World} {h' : Hub} {dev : DeviceID}
    {cmd : CommandPayload} {pc : HandlerPc} {ch : Choice} {ph : ConnPhase} {os : List Obs}
    (hph : w.conns[c]? = some (.handling dev cmd pc))
    (ht : HandleTrans cfg c w.hub dev cmd pc ch h' ph os) :
    LineStep w (.conn c ch) { w with hub := h', conns := w.conns.set c ph } os := by
  have hset := World.undelivered_set hph h' ph
  have hold := World.undelivered_conn hph
  -- a handler whose place in the line does not change
  have stay (hsame : ph.undelivered = pc.undelivered)
      (hos : ∀ o ∈ os, o.recorded = none ∧ o.handedOver = none) :
      LineStep w (.conn c ch) { w with hub := h', conns := w.conns.set c ph } os := by
    refine .other ?_ hos
    rw [hset, hsame]
    exact Function.update_eq_self_iff.mpr hold.symm
  have queued {f : Envelope} : (enqueueRaw cfg w.hub c f).2.recorded = none ∧
      (enqueueRaw cfg w.hub c f).2.handedOver = none :=
    enqueueRaw_motive (motive := fun o => o.recorded = none ∧ o.handedOver = none) cfg w.hub
      ⟨rfl, rfl⟩ ⟨rfl, rfl⟩
  have answered {o : Obs} {f : Envelope} (ho : o.recorded = none ∧ o.handedOver = none) :
      ∀ o' ∈ [o, (enqueueRaw cfg w.hub c f).2], o'.recorded = none ∧ o'.handedOver = none :=
    answered_motive (motive := fun o => o.recorded = none ∧ o.handedOver = none) cfg w.hub ho
      ⟨rfl, rfl⟩ ⟨rfl, rfl⟩
  cases ht with
  | append => exact .record hold hset
  | command | commandFails => exact .hand rfl hph hset
  | noId => exact stay rfl (List.forall_mem_singleton.mpr queued)
  | replay | ack | reject => exact stay rfl (answered ⟨rfl, rfl⟩)
  | suppress | accept => exact stay rfl (List.forall_mem_singleton.mpr ⟨rfl, rfl⟩)
  | appendFails => exact stay rfl (List.forall_mem_nil _)
  | execute hex =>
    cases hex with
    | claim => exact stay rfl (List.forall_mem_singleton.mpr ⟨rfl, rfl⟩)
    | proceed | refuse => exact stay rfl (List.forall_mem_nil _)
  | broadcast hb | broadcastDone hb =>
    refine stay rfl fun o ho => line_free_of_source fun c' => ?_
    obtain ⟨c₀, hc₀⟩ := hb.frame.2.2.2 o ho
    rw [Obs.source_of_offer hc₀]
    exact nofun

theorem ConnPhase.inHandler_undelivered (ph : ConnPhase) :
    ph.inHandler (fun _ _ pc => pc.undelivered.isSome) = ph.undelivered.isSome := by
  cases ph <;> rfl

theorem StepTrans.lineStep {cfg : Config} {w w' : World} {a : Action} {os : List Obs}
    (h : StepTrans cfg w a w' os) : LineStep w a w' os := by
  have free (hno : ∀ o ∈ os, ∀ c, o.source ≠ .handler c) :
      ∀ o ∈ os, o.recorded = none ∧ o.handedOver = none :=
    fun o ho => line_free_of_source (hno o ho)
  cases h with
  | @conn c ch ph ph' h' _ hph ht =>
    rcases ht.enters with ⟨dev, cmd, pc, rfl, hth⟩ | ⟨-, hno, hout⟩
    · exact hth.lineStep hph
    · refine .other ?_ (free fun o ho => (hno o ho).2)
      have hnone := hout (fun _ _ pc => pc.undelivered.isSome) fun _ _ => rfl
      rw [ph.inHandler_undelivered, ph'.inHandler_undelivered, Option.isSome_eq_false_iff,
        Option.isSome_eq_false_iff, Option.isNone_iff_eq_none, Option.isNone_iff_eq_none] at hnone
      rw [World.undelivered_set hph, hnone.2, ← hnone.1]
      exact Function.update_eq_self_iff.mpr (World.undelivered_conn hph).symm
  | ingest ht =>
    refine .other rfl (free fun o ho c => ?_)
    rcases ht.obs o ho with he | he <;> rw [he] <;> exact nofun
  | accept =>
    exact .other (bind_getElem?_concat (f := ConnPhase.undelivered) rfl) (List.forall_mem_nil _)
  | write hw hos =>
    refine .other rfl fun o ho => ?_
    rcases hos with ⟨f, rfl, -⟩ | rfl
    · rw [List.mem_singleton.mp ho]
      exact ⟨rfl, rfl⟩
    · exact absurd ho List.not_mem_nil
  | pairGenerate | pairApproveSet | pairRevoke =>
    refine .other rfl fun o ho => ?_
    rw [List.mem_singleton.mp ho]
    exact ⟨rfl, rfl⟩
  | pairApproveGet | pairApproveLost | clock => exact .other rfl (List.forall_mem_nil _)

/-- What a handler is about to hand over is what it recorded. -/
def Faithful : ConnPhase → Prop
  | .handling dev _ (.ack ev out) | .handling dev _ (.broadcast ev out _)
  | .handling dev _ (.command ev out) => content ev = contentOf (dev, out)
  | _ => True

theorem faithful {cfg : Config} {P : List Obs → World → Action → Prop} {db : Store} {now : Int}
    {tr : List Obs} {w : World} (h : (system cfg).Run P [] (World.init cfg db now) tr w) :
    ∀ (c : ConnId) ph, w.conns[c]? = some ph → Faithful ph := by
  refine phase_rule (I := fun _ ph _ => Faithful ph) (fun _ hI => hI) trivial ?_ h
  intro t u c ch ph h' ph' os _ _ _ hI ht
  cases ht with
  | handling ht =>
    cases ht with
    | append happ =>
      obtain ⟨-, hk, hp, -⟩ := Store.appendEvent_spec happ
      exact Prod.ext hk hp
    | ack | broadcast | broadcastDone => exact hI
    | execute hex => cases hex <;> trivial
    | _ => trivial
  | pairing ht => cases ht <;> trivial
  | serving ht => cases ht <;> trivial
  | _ => trivial

/-! ## The line -/

/-- The assumptions: the adapter takes every command, and emits no `mode_changed` of its own. -/
structure AgentAccepts (w : World) (a : Action) : Prop where
  succeeds : ∀ c msg dev cmd ev out, a = .conn c (.call (.err msg)) →
    w.conns[c]? ≠ some (.handling dev cmd (.command ev out))
  modes : ∀ kind payload, a = .ingest (.adapterEvent kind payload) → kind ≠ .modeChanged

/-- The condition on a step: a command is handed over after the commands recorded before it, or past
commands with the same content only. -/
def HandsOverInTurn (w : World) (a : Action) : Prop :=
  ∀ c ch dev cmd ev out, a = .conn c ch →
    w.conns[c]? = some (.handling dev cmd (.command ev out)) →
    ∀ c' ev', w.undelivered c' = some ev' → ev'.seq < ev.seq → content ev' = content ev

/-- The line of undelivered events, each with the connection whose handler holds it: it is in log order,
and the log's commands are those the agent has got, followed by the line. -/
structure InLine (cfg : Config) (tr : List Obs) (w : World) (line : List (ConnId × EventPayload)) :
    Prop where
  members : ∀ c ev, (c, ev) ∈ line ↔ w.undelivered c = some ev
  sorted : line.Pairwise fun x y => x.2.seq < y.2.seq
  logged : ∀ x ∈ line, x.2 ∈ w.log cfg
  balance : (commandEvents tr).map content =
    (handedCommands tr).map contentOf ++ line.map fun x => content x.2

theorem InLine.init (cfg : Config) (db : Store) (now : Int) :
    InLine cfg [] (World.init cfg db now) [] := by
  refine ⟨fun c ev => ⟨fun h => absurd h List.not_mem_nil, fun h => ?_⟩, .nil,
    List.forall_mem_nil _, rfl⟩
  simp [World.undelivered, World.init] at h

/-- A recorded command joins at the end. -/
theorem InLine.record {cfg : Config} {tr : List Obs} {w w' : World}
    {line : List (ConnId × EventPayload)} (h : InLine cfg tr w line) {c : ConnId} {dev : DeviceID}
    {k : String} {ev : EventPayload} (hold : w.undelivered c = none)
    (hnew : w'.undelivered = Function.update w.undelivered c (some ev))
    (hlog : w'.log cfg = w.log cfg ++ [ev]) (hnum : Fanout.Numbered EventPayload.seq (w'.log cfg)) :
    InLine cfg (tr ++ [.appended (.command c dev k) ev]) w' (line ++ [(c, ev)]) := by
  rw [hlog] at hnum
  refine ⟨fun c' ev' => ?_, ?_, fun x hx => ?_, ?_⟩
  · rw [hnew, List.mem_append, h.members, List.mem_singleton, Prod.mk.injEq]
    by_cases hc : c' = c
    · subst hc
      rw [Function.update_self, hold, Option.some.injEq]
      simp [eq_comm]
    · rw [Function.update_of_ne hc]
      simp [hc]
  · rw [List.pairwise_append]
    refine ⟨h.sorted, List.pairwise_singleton _ _, fun x hx y hy => ?_⟩
    rw [List.mem_singleton.mp hy]
    show x.2.seq < ev.seq
    have hb := hnum.init.bounds (h.logged x hx)
    have hl := hnum.last
    omega
  · rw [hlog]
    rcases List.mem_append.mp hx with hx | hx
    · exact List.mem_append_left _ (h.logged x hx)
    · rw [List.mem_singleton.mp hx]
      exact List.mem_append_right _ List.mem_cons_self
  · rw [commandEvents, handedCommands, List.filterMap_append, List.filterMap_append, List.map_append,
      List.map_append, ← commandEvents, h.balance, ← handedCommands]
    simp [Obs.recorded, Obs.handedOver]

/-- A command that is handed over leaves the line, from where it stands. -/
theorem InLine.hand {cfg : Config} {tr : List Obs} {w w' : World}
    {line : List (ConnId × EventPayload)} (h : InLine cfg tr w line) {c : ConnId} {dev : DeviceID}
    {k : String} {ev : EventPayload} {out : AgentCommand} {ok : Bool}
    (hold : w.undelivered c = some ev) (hout : content ev = contentOf (dev, out))
    (hturn : ∀ c' ev', w.undelivered c' = some ev' → ev'.seq < ev.seq →
      content ev' = content ev)
    (hnew : w'.undelivered = Function.update w.undelivered c none) (hlog : w'.log cfg = w.log cfg) :
    ∃ line', InLine cfg (tr ++ [.handed c dev k out ok]) w' line' := by
  -- the line before and behind the command
  obtain ⟨l₁, l₂, rfl⟩ := List.append_of_mem ((h.members c ev).mpr hold)
  have hsorted := h.sorted
  rw [List.pairwise_append] at hsorted
  obtain ⟨h1, h2, h12⟩ := hsorted
  rw [List.pairwise_cons] at h2
  refine ⟨l₁ ++ l₂, ⟨fun c' ev' => ?_, ?_, fun x hx => ?_, ?_⟩⟩
  · have hm := h.members c' ev'
    rw [List.mem_append, List.mem_cons] at hm
    rw [hnew, List.mem_append]
    by_cases hc : c' = c
    · subst hc
      rw [Function.update_self]
      refine ⟨fun hx => ?_, nofun⟩
      -- the connection holds one event only
      have hev : ev' = ev := by
        have hsome := hm.mp (hx.imp_right .inr)
        rw [hold] at hsome
        exact (Option.some.inj hsome).symm
      subst hev
      rcases hx with hx | hx
      · exact absurd (h12 _ hx _ List.mem_cons_self) (lt_irrefl _)
      · exact absurd (h2.1 _ hx) (lt_irrefl _)
    · rw [Function.update_of_ne hc, ← hm, Prod.mk.injEq]
      simp [hc]
  · rw [List.pairwise_append]
    exact ⟨h1, h2.2, fun x hx y hy => h12 x hx y (List.mem_cons_of_mem _ hy)⟩
  · rw [hlog]
    refine h.logged x ?_
    rcases List.mem_append.mp hx with hx | hx
    · exact List.mem_append_left _ hx
    · exact List.mem_append_right _ (List.mem_cons_of_mem _ hx)
  · have hout' : (l₁ ++ (c, ev) :: l₂).map (fun x => content x.2) =
        content ev :: (l₁ ++ l₂).map fun x => content x.2 := by
      refine map_take_out fun x hx => ?_
      refine hturn x.1 x.2 ((h.members _ _).mp (List.mem_append_left _ hx)) ?_
      exact h12 x hx _ List.mem_cons_self
    have hc := h.balance
    rw [hout', hout] at hc
    rw [commandEvents, handedCommands, List.filterMap_append, List.filterMap_append, List.map_append,
      List.map_append, ← commandEvents, hc, ← handedCommands]
    simp [Obs.recorded, Obs.handedOver]

/-- **The line is kept**, in every run in which commands are handed over in turn. -/
theorem in_line {cfg : Config} {db : Store} {now : Int} {tr : List Obs} {w : World}
    (h : (system cfg).Run (fun _ u a => AgentAccepts u a ∧ HandsOverInTurn u a) []
      (World.init cfg db now) tr w) : ∃ line, InLine cfg tr w line := by
  refine h.invariant (I := fun t u => ∃ line, InLine cfg t u line) ⟨[], InLine.init cfg db now⟩ ?_
  rintro t u a u' os hr ⟨line, ih⟩ hP hs
  have hst : StepTrans cfg u a u' os := World.step_trans hs
  have hlog := hst.log
  cases hst.lineStep with
  | record hold hnew => exact ⟨_, ih.record hold hnew hlog (log_numbered (hr.tail hP hs))⟩
  | @hand c dev cmd ev out ch ok ha hph hnew =>
    have hsame : u'.log cfg = u.log cfg := hlog.trans (List.append_nil _)
    exact ih.hand (World.undelivered_conn hph) (faithful hr c _ hph)
      (hP.2 c ch dev cmd ev out ha hph) hnew hsame
  | other hsame hos =>
    have hrec : os.filterMap Obs.recorded = [] :=
      List.filterMap_eq_nil_iff.mpr fun o ho => (hos o ho).1
    have hhand : os.filterMap Obs.handedOver = [] :=
      List.filterMap_eq_nil_iff.mpr fun o ho => (hos o ho).2
    refine ⟨line, ⟨fun c ev => ?_, ih.sorted, fun x hx => ?_, ?_⟩⟩
    · rw [hsame]
      exact ih.members c ev
    · rw [hlog]
      exact List.mem_append_left _ (ih.logged x hx)
    · rw [commandEvents, handedCommands, List.filterMap_append, List.filterMap_append, hrec, hhand,
        List.append_nil, List.append_nil]
      exact ih.balance

/-! ## The mode -/

/-- The mode after some recorded contents: the last one set. -/
def lastMode (xs : List (EventKind × Json)) : String :=
  xs.foldl (fun m x => if x.1 = .modeChanged then (ModeChangedBody.decode x.2).mode else m) ""

/-- The mode after some commands handed to the adapter: the last one set. -/
def lastModeHanded (xs : List (DeviceID × AgentCommand)) : String :=
  xs.foldl (fun m x => match x.2 with | .setMode body => body.mode | _ => m) ""

/-- `GetSnapshot` reports the last mode of the log. -/
theorem snapshotOf_mode (sid : String) (sess : Session) (events : List EventPayload) :
    (Store.snapshotOf sid sess events).mode = lastMode (events.map content) := by
  have hfold : ∀ acc : Store.SnapshotFold, (events.foldl Store.SnapshotFold.step acc).mode =
      (events.map content).foldl
        (fun m x => if x.1 = .modeChanged then (ModeChangedBody.decode x.2).mode else m) acc.mode := by
    induction events with
    | nil => exact fun _ => rfl
    | cons ev events ih =>
      intro acc
      rw [List.foldl_cons, ih, List.map_cons, List.foldl_cons]
      congr 1
      show (Store.SnapshotFold.step acc ev).mode =
        if ev.kind = .modeChanged then (ModeChangedBody.decode ev.payload).mode else acc.mode
      cases hk : ev.kind <;> simp [Store.SnapshotFold.step, hk]
  exact hfold _

theorem lastMode_contentOf (xs : List (DeviceID × AgentCommand)) :
    lastMode (xs.map contentOf) = lastModeHanded xs := by
  rw [lastMode, lastModeHanded, List.foldl_map]
  congr 1
  funext m x
  obtain ⟨dev, out⟩ := x
  cases out <;> simp [contentOf, commandEvent]

/-- What the ingestion loop is about to append is not a mode change, when the adapter emits none. -/
def IngestPhase.modeless : IngestPhase → Prop
  | .append kind _ => kind ≠ .modeChanged
  | _ => True

theorem lastMode_concat (xs : List (EventKind × Json)) (x : EventKind × Json) :
    lastMode (xs ++ [x]) =
      if x.1 = .modeChanged then (ModeChangedBody.decode x.2).mode else lastMode xs := by
  rw [lastMode, List.foldl_append, List.foldl_cons, List.foldl_nil, lastMode]

/-- A recorded command is an appended event. -/
theorem recorded_nil {os : List Obs} (h : os.filterMap Obs.appendedEvent = []) :
    os.filterMap Obs.recorded = [] := by
  rw [List.filterMap_eq_nil_iff] at h ⊢
  intro o ho
  have hno := h o ho
  cases o with
  | appended wr ev => cases hno
  | _ => rfl

/-- When the adapter sets no mode, the commands of the log set the mode of the log. -/
theorem lastMode_log {cfg : Config} {P : List Obs → World → Action → Prop} {db : Store} {now : Int}
    (hP : ∀ t u a, P t u a → AgentAccepts u a) {tr : List Obs} {w : World}
    (h : (system cfg).Run P [] (World.init cfg db now) tr w) :
    lastMode ((w.log cfg).map content) = lastMode ((commandEvents tr).map content) := by
  refine (h.invariant (I := fun t u => u.ingest.modeless ∧
    lastMode ((u.log cfg).map content) = lastMode ((commandEvents t).map content))
    ⟨trivial, by rw [World.log_init]; rfl⟩ ?_).2
  rintro t u a u' os _ ⟨ihm, ih⟩ hPa hs
  have hst : StepTrans cfg u a u' os := World.step_trans hs
  have quiet (hnil : os.filterMap Obs.appendedEvent = []) :
      lastMode ((u'.log cfg).map content) = lastMode ((commandEvents (t ++ os)).map content) := by
    rw [hst.log, hnil, List.append_nil, commandEvents, List.filterMap_append, recorded_nil hnil,
      List.append_nil]
    exact ih
  rcases hst.actors with ⟨c, dev, cmd, pc, ch, h', ph', -, -, ht, rfl⟩ | ⟨ch, h', ph', rfl, ht, rfl⟩ |
    ⟨-, hno, hsame, -⟩
  · refine ⟨ihm, ?_⟩
    rcases ht.appended with ⟨out, ev, st, -, -, -, -, rfl⟩ | ⟨hnil, -⟩
    · -- a command enters the log and the commands of the log
      have hlog : World.log cfg { u with hub := h', conns := u.conns.set c ph' } = u.log cfg ++ [ev] :=
        hst.log
      rw [hlog, commandEvents, List.filterMap_append, List.map_append, List.map_append]
      show lastMode (_ ++ [content ev]) = lastMode (_ ++ [content ev])
      rw [lastMode_concat, lastMode_concat, ih, commandEvents]
    · exact quiet hnil
  · generalize hph : u.ingest = ph at ht
    rw [hph] at ihm
    cases ht with
    | receive => exact ⟨(hP _ _ _ hPa).modes _ _ rfl, quiet rfl⟩
    | @append kind payload _ ev st happ =>
      -- an event of the agent enters the log, and sets no mode
      obtain ⟨-, hk, -⟩ := Store.appendEvent_spec happ
      have hlog : World.log cfg { u with hub := { u.hub with store := st }, ingest := .note ev } =
          u.log cfg ++ [ev] := hst.log
      refine ⟨trivial, ?_⟩
      rw [hlog, List.map_append, List.map_singleton, lastMode_concat, if_neg, ih, commandEvents,
        commandEvents, List.filterMap_append]
      · exact congrArg (fun l => lastMode (l.map content)) (List.append_nil _).symm
      · show ev.kind ≠ .modeChanged
        rw [hk]
        exact ihm
    | appendFails => exact ⟨trivial, quiet rfl⟩
    | note => exact ⟨trivial, quiet (note_appended _ _)⟩
    | broadcast hb | broadcastDone hb => exact ⟨trivial, quiet hb.appended⟩
  · rw [hsame]
    exact ⟨ihm, quiet (filterMap_appended_nil hno)⟩

/-! ## The order -/

/-- No `handleCommand` is in progress. -/
def World.Idle (w : World) : Prop :=
  ∀ c : ConnId, ∀ dev cmd pc, w.conns[c]? ≠ some (.handling dev cmd pc)

theorem World.Idle.undelivered {w : World} (h : w.Idle) (c : ConnId) : w.undelivered c = none := by
  rw [World.undelivered]
  cases hph : w.conns[c]? with
  | none => rfl
  | some ph =>
    cases ph with
    | handling dev cmd pc => exact absurd hph (h c dev cmd pc)
    | _ => rfl

/-- The events of commands are part of the log, in its order. -/
theorem commandEvents_sublist (tr : List Obs) :
    (commandEvents tr).Sublist (tr.filterMap Obs.appendedEvent) := by
  induction tr with
  | nil => exact .slnil
  | cons o tr ih =>
    rw [commandEvents]
    cases o with
    | appended wr ev =>
      cases wr with
      | ingest => exact ih.cons _
      | command => exact ih.cons_cons _
    | _ => exact ih

/-- **The agent sees commands in the order the log records them**, in every run in which commands are
handed over in turn: whenever no handler is in progress, what the adapter was handed is, in content and
order, what the log records of commands, and the mode it was last set to is the mode `GetSnapshot`
reports. -/
theorem agent_order {cfg : Config} {db : Store} {now : Int} {tr : List Obs} {w : World}
    (h : (system cfg).Run (fun _ u a => AgentAccepts u a ∧ HandsOverInTurn u a) []
      (World.init cfg db now) tr w) (hidle : w.Idle) :
    (handedCommands tr).map contentOf = (commandEvents tr).map content ∧
      (commandEvents tr).Sublist (w.log cfg) ∧ ((commandEvents tr).map (·.seq)).Pairwise (· < ·) ∧
      ∀ snap, w.hub.store.getSnapshot cfg.sessionID = some snap →
        snap.mode = lastModeHanded (handedCommands tr) := by
  obtain ⟨line, hline⟩ := in_line h
  -- without a handler in progress nobody stands in the line
  have hnil : line = [] := by
    rw [List.eq_nil_iff_forall_not_mem]
    rintro ⟨c, ev⟩ hx
    rw [hline.members, hidle.undelivered] at hx
    cases hx
  have hbal : (commandEvents tr).map content = (handedCommands tr).map contentOf := by
    rw [hline.balance, hnil, List.map_nil, List.append_nil]
  have hsub : (commandEvents tr).Sublist (w.log cfg) := by
    rw [log_eq_appended h]
    exact commandEvents_sublist tr
  refine ⟨hbal.symm, hsub, ?_, fun snap hsnap => ?_⟩
  · refine List.Pairwise.sublist (hsub.map _) ?_
    rw [log_numbered h]
    exact List.pairwise_lt_range'
  · obtain ⟨sess, -, rfl⟩ := Option.map_eq_some_iff.mp hsnap
    rw [snapshotOf_mode, ← lastMode_contentOf, ← hbal]
    exact lastMode_log (fun _ _ _ hP => hP.1) h

/-! ## Two runs -/

/-- A decision of the assumptions. -/
def agentAccepts (w : World) : Action → Bool
  | .conn c (.call (.err _)) =>
      match w.conns[c]? with
      | some (.handling _ _ (.command _ _)) => false
      | _ => true
  | .ingest (.adapterEvent kind _) => decide (kind ≠ .modeChanged)
  | _ => true

theorem agentAccepts_sound {w : World} {a : Action} (h : agentAccepts w a = true) :
    AgentAccepts w a := by
  constructor
  · rintro c msg dev cmd ev out rfl hph
    simp [agentAccepts, hph] at h
  · rintro kind payload rfl
    exact of_decide_eq_true h

/-- A decision: only one handler is between its append and the adapter. -/
def handsOverAlone (w : World) : Action → Bool
  | .conn c _ =>
      (List.range w.conns.length).all fun c' => decide (c' = c) || (w.undelivered c').isNone
  | _ => true

theorem handsOverAlone_sound {w : World} {a : Action} (h : handsOverAlone w a = true) :
    HandsOverInTurn w a := by
  rintro c ch dev cmd ev out rfl hph c' ev' hun hlt
  obtain ⟨ph', hph', -⟩ := Option.bind_eq_some_iff.mp hun
  have hc' := List.all_eq_true.mp h c' (List.mem_range.mpr (List.getElem?_eq_some_iff.mp hph').1)
  rw [hun, Option.isNone_some, Bool.or_false] at hc'
  have hcc : c' = c := of_decide_eq_true hc'
  subst hcc
  rw [World.undelivered_conn hph] at hun
  cases hun
  exact absurd hlt (lt_irrefl _)

/-- A decision of `World.Idle`. -/
def World.idle (w : World) : Bool :=
  w.conns.all fun ph => !ph.inHandler fun _ _ _ => true

theorem World.idle_sound {w : World} (h : w.idle = true) : w.Idle := by
  intro c dev cmd pc hph
  have hno := List.all_eq_true.mp h _ (List.mem_of_getElem? hph)
  simp [ConnPhase.inHandler] at hno

/-- The phone sets a mode, then the tablet prompts. -/
def modeThenPrompt : List Action :=
  Sample.connect 0 "phone-secret" 0 ++ Sample.connect 1 "tablet-secret" 0 ++
    [.conn 0 (Sample.command "p1" .setMode [("mode", .str "plan")])] ++ Sample.handle 0 [0, 1] ++
    [.conn 1 (Sample.command "t1" .sendPrompt [("text", .str "go on")])] ++ Sample.handle 1 [1, 0]

theorem agent_order_modeThenPrompt :
    ∃ tr w, (system Sample.config).Run (fun _ u a => AgentAccepts u a ∧ HandsOverInTurn u a) []
      Sample.start tr w ∧ (handedCommands tr).length = 2 ∧
      (handedCommands tr).map contentOf = (commandEvents tr).map content ∧
      (commandEvents tr).Sublist (w.log Sample.config) ∧
      ((commandEvents tr).map (·.seq)).Pairwise (· < ·) ∧
      ∀ snap, w.hub.store.getSnapshot Sample.config.sessionID = some snap →
        snap.mode = lastModeHanded (handedCommands tr) := by
  have hexec : ∃ r, (system Sample.config).exec (fun _ u a => agentAccepts u a && handsOverAlone u a) []
      Sample.start modeThenPrompt = some r ∧ r.2.idle = true ∧ (handedCommands r.1).length = 2 :=
    ⟨_, rfl, by decide, by decide⟩
  obtain ⟨⟨tr, w⟩, he, hidle, htwo⟩ := hexec
  have hr := Lts.run_of_exec (P := fun _ u a => AgentAccepts u a ∧ HandsOverInTurn u a)
    (fun _ _ _ hok => ⟨agentAccepts_sound (Bool.and_eq_true_iff.mp hok).1,
      handsOverAlone_sound (Bool.and_eq_true_iff.mp hok).2⟩) he
  exact ⟨tr, w, hr, htwo, agent_order hr (World.idle_sound hidle)⟩

/-- Both devices set a mode. The phone's is recorded first and handed over last. -/
def overtakenModes : List Action :=
  Sample.connect 0 "phone-secret" 0 ++ Sample.connect 1 "tablet-secret" 0 ++
    [.conn 0 (Sample.command "p1" .setMode [("mode", .str "bypassPermissions")]),
      .conn 1 (Sample.command "t1" .setMode [("mode", .str "plan")]),
      .conn 0 .run, .conn 0 .run, .conn 0 (.call .ok)] ++ Sample.handle 1 [0, 1] ++
    [.conn 0 .run, .conn 0 (.order [0, 1]), .conn 0 .run, .conn 0 .run, .conn 0 .run,
      .conn 0 (.call .ok)]

/-- Every screen shows `plan`, the agent runs with `bypassPermissions`. -/
theorem overtakenModes_disagree :
    ∃ tr w, (system Sample.config).Run (fun _ u a => AgentAccepts u a) [] Sample.start tr w ∧ w.Idle ∧
      (handedCommands tr).map contentOf ≠ (commandEvents tr).map content ∧
      ∃ snap, w.hub.store.getSnapshot Sample.config.sessionID = some snap ∧ snap.mode = "plan" ∧
        lastModeHanded (handedCommands tr) = "bypassPermissions" := by
  have hexec : ∃ r, (system Sample.config).exec (fun _ u a => agentAccepts u a) [] Sample.start
      overtakenModes = some r ∧ r.2.idle = true ∧
      (r.2.hub.store.getSnapshot Sample.config.sessionID).map (·.mode) = some "plan" ∧
      lastMode ((commandEvents r.1).map content) = "plan" ∧
      lastModeHanded (handedCommands r.1) = "bypassPermissions" :=
    ⟨_, rfl, by decide, by decide, by decide, by decide⟩
  obtain ⟨⟨tr, w⟩, he, hidle, hsnap, hlog, hhanded⟩ := hexec
  have hr := Lts.run_of_exec (P := fun _ u a => AgentAccepts u a)
    (fun _ _ _ hok => agentAccepts_sound hok) he
  obtain ⟨snap, hs, hmode⟩ := Option.map_eq_some_iff.mp hsnap
  refine ⟨tr, w, hr, World.idle_sound hidle, fun heq => ?_, snap, hs, hmode, hhanded⟩
  have hlast := lastMode_contentOf (handedCommands tr)
  rw [heq, hlog, hhanded] at hlast
  exact absurd hlast (by decide)

end Harness.Hub
