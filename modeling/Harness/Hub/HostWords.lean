/-
# Harness.Hub.HostWords — the log of a daemon whose agent speaks the protocol.

What enters the log comes from an adapter or from a command. An adapter that emits the bodies of
`internal/protocol` and nothing else (`Speaks`) keeps the log a log of host events, because a command is
appended as one too: `handleCommand` marshals the body itself, and refuses the one command that would not
be one, a change to the empty mode (`HostWords.step`).

And what is offered to a client as an event is in the log already (`event_offered_logged`).
-/
import Harness.Hub.Decision
import Harness.Hub.PendingLog
import Harness.Wire.Encode

namespace Harness.Hub

open Wire Lib

/-- The event is one of `internal/protocol`, under its kind. -/
def HostWord (kind : EventKind) (payload : Json) : Prop := ∃ b : HostBody, kind = b.kind ∧ payload = b.toJson

/-- The adapter emits host events. -/
def Speaks (a : Action) : Prop :=
  ∀ kind payload, a = .ingest (.adapterEvent kind payload) → HostWord kind payload

/-- The log is a log of host events, and so is what is about to be appended. -/
structure HostWords (cfg : Config) (w : World) : Prop where
  log : ∀ ev ∈ w.log cfg, HostEvent ev
  commands : ∀ (c : ConnId) dev cmd out, w.conns[c]? = some (.handling dev cmd (.append out)) →
    HostWord (commandEvent dev out).1 (commandEvent dev out).2
  emitted : ∀ kind payload, w.ingest = .append kind payload → HostWord kind payload

theorem hostWords_init (cfg : Config) (db : Store) (now : Int) : HostWords cfg (World.init cfg db now) where
  log := by
    rw [World.log_init]
    exact List.forall_mem_nil _
  commands := by intro c dev cmd out h; cases h
  emitted := by intro kind payload h; cases h

/-- **The switch of `handleCommand`** lets through commands only whose event is a host event. -/
theorem execute_words {c : ConnId} {h : Hub} {cmd : CommandPayload} {out : AgentCommand}
    (hpc : (execute c h cmd).2.1 = .append out) (dev : DeviceID) :
    HostWord (commandEvent dev out).1 (commandEvent dev out).2 := by
  unfold execute at hpc
  split at hpc
  · -- `send_prompt`
    split at hpc <;> cases hpc
    exact ⟨.userPrompt _, rfl, rfl⟩
  · -- `answer_permission`
    split at hpc
    · cases hpc
    · split at hpc <;> cases hpc
      exact ⟨.permissionResolved _, rfl, rfl⟩
  · -- `answer_question`
    split at hpc
    · cases hpc
    · split at hpc <;> cases hpc
      exact ⟨.questionResolved _, rfl, rfl⟩
  · -- `set_mode`, unless the mode is empty
    split at hpc
    · cases hpc
    · split at hpc
      · cases hpc
      · rename_i hmode
        cases hpc
        exact ⟨.modeChanged _ hmode, rfl, rfl⟩
  · -- `interrupt`
    cases hpc
    exact ⟨.statusChange _, rfl, rfl⟩
  · cases hpc

/-- A handler comes to its append through the switch. -/
theorem connStep_append {cfg : Config} {c : ConnId} {h h' : Hub} {ph : ConnPhase} {ch : Choice} {dev : DeviceID}
    {cmd : CommandPayload} {out : AgentCommand} {os : List Obs}
    (hs : connStep cfg c h ph ch = some (h', .handling dev cmd (.append out), os)) :
    HostWord (commandEvent dev out).1 (commandEvent dev out).2 := by
  cases connStep_trans hs with
  | handling ht =>
    cases ht with
    | execute hex =>
      obtain ⟨-, hpc⟩ := handleStep_execute hs
      injection hpc with _ _ hpc
      exact execute_words hpc.symm dev
  | pairing ht => cases ht
  | serving ht => cases ht

/-- The ingestion loop appends what the adapter emitted. -/
theorem ingestStep_received {cfg : Config} {h h' : Hub} {ph : IngestPhase} {ch : Choice} {kind : EventKind}
    {payload : Json} {os : List Obs} (hs : ingestStep cfg h ph ch = some (h', .append kind payload, os)) :
    ch = .adapterEvent kind payload := by
  cases ph with
  | idle =>
    cases ch with
    | adapterEvent k p =>
      cases hs
      rfl
    | _ => cases hs
  | append k p =>
    cases ch with
    | call out =>
      cases out with
      | ok =>
        simp only [ingestStep] at hs
        split at hs <;> cases hs
      | err m => cases hs
    | _ => cases hs
  | note ev => cases ch <;> cases hs
  | broadcast ev pc =>
    obtain ⟨r, -, he⟩ := Option.map_eq_some_iff.mp hs
    injection he with _ he
    injection he with he _
    split at he <;> cases he

/-- The ingestion loop appends the event it has in hand, if it appends. -/
theorem IngestTrans.appended {cfg : Config} {h h' : Hub} {ph ph' : IngestPhase} {ch : Choice} {os : List Obs}
    (ht : IngestTrans cfg h ph ch h' ph' os) :
    (∃ kind payload ev st, ph = .append kind payload ∧
      h.store.appendEvent cfg.sessionID kind payload h.now = some (ev, st) ∧ os = [.appended .ingest ev]) ∨
    os.filterMap Obs.appendedEvent = [] := by
  cases ht with
  | append happ => exact .inl ⟨_, _, _, _, rfl, happ, rfl⟩
  | note => exact .inr (note_appended _ _)
  | broadcast hb | broadcastDone hb => exact .inr hb.appended
  | receive | appendFails => exact .inr rfl

/-- A stored event has the kind and the payload it was appended with. -/
theorem HostWord.stored {cfg : Config} {db st : Store} {kind : EventKind} {payload : Json} {now : Int}
    {ev : EventPayload} (h : HostWord kind payload)
    (happ : db.appendEvent cfg.sessionID kind payload now = some (ev, st)) : HostEvent ev := by
  obtain ⟨-, hk, hp, -⟩ := Store.appendEvent_spec happ
  obtain ⟨b, rfl, rfl⟩ := h
  exact ⟨b, hk, hp⟩

/-- What a step appends is a host event. -/
theorem HostWords.appended {cfg : Config} {w w' : World} {a : Action} {os : List Obs} (h : HostWords cfg w)
    (hs : w.step cfg a = some (w', os)) : ∀ ev ∈ os.filterMap Obs.appendedEvent, HostEvent ev := by
  intro ev hev
  rcases (World.step_trans hs).actors with ⟨c, dev, cmd, pc, ch, h', ph', -, hph, ht, -⟩ |
    ⟨ch, h', ph', -, ht, -⟩ | ⟨-, hno, -, -⟩
  · rcases ht.appended with ⟨out, ev', st, rfl, -, happ, -, rfl⟩ | ⟨hnil, -⟩
    · rw [List.mem_singleton.mp hev]
      exact (h.commands c dev cmd out hph).stored happ
    · rw [hnil] at hev
      cases hev
  · rcases ht.appended with ⟨kind, payload, ev', st, hph, happ, rfl⟩ | hnil
    · rw [List.mem_singleton.mp hev]
      exact (h.emitted kind payload hph).stored happ
    · rw [hnil] at hev
      cases hev
  · rw [filterMap_appended_nil hno] at hev
    cases hev

/-- **One step of the daemon** keeps the log in host words, while the agent speaks them. -/
theorem HostWords.step {cfg : Config} {w w' : World} {a : Action} {os : List Obs} (h : HostWords cfg w)
    (hsp : Speaks a) (hs : w.step cfg a = some (w', os)) : HostWords cfg w' where
  log := by
    intro ev hev
    rw [(World.step_trans hs).log] at hev
    rcases List.mem_append.mp hev with hev | hev
    · exact h.log ev hev
    · exact h.appended hs ev hev
  commands := by
    intro c dev cmd out hph
    cases a with
    | conn c' ch =>
      obtain ⟨ph, h', ph', -, hc, rfl⟩ := World.step_conn hs
      rcases getElem?_set_cases hph with ⟨-, rfl⟩ | ⟨-, hold⟩
      · exact connStep_append hc
      · exact h.commands c dev cmd out hold
    | accept authorization ra ua =>
      cases hs
      rcases getElem?_concat_cases hph with hold | ⟨-, he⟩
      · exact h.commands c dev cmd out hold
      · cases he
    | _ =>
      refine h.commands c dev cmd out ?_
      rw [← hph]
      cases World.step_trans hs <;> rfl
  emitted := by
    intro kind payload hph
    cases a with
    | ingest ch =>
      obtain ⟨r, hi, he⟩ := Option.map_eq_some_iff.mp hs
      cases he
      obtain ⟨h', ph', os'⟩ := r
      replace hph : ph' = .append kind payload := hph
      rw [hph] at hi
      exact hsp kind payload (congrArg Action.ingest (ingestStep_received hi))
    | _ =>
      refine h.emitted kind payload ?_
      rw [← hph]
      cases World.step_trans hs <;> rfl

/-! ## Events on offer -/

section Offers

variable {cfg : Config} {c d : ConnId} {h h' : Hub} {os : List Obs} {o : Obs} {ev : EventPayload}

theorem BroadcastTrans.event_offered {ev' : EventPayload} {pc : BroadcastPc} {pc' : Option BroadcastPc}
    (ht : BroadcastTrans cfg h ev' pc h' pc' os) (ho : o ∈ os) (hoff : o.offer = some (d, .event ev)) :
    ev' = ev := by
  obtain ⟨t, hto⟩ := ht.frame.2.2.2 o ho
  rw [hto] at hoff
  cases hoff
  rfl

/-- A handler offers the event it broadcasts. -/
theorem HandleTrans.event_offered {dev : DeviceID} {cmd : CommandPayload} {pc : HandlerPc} {ch : Choice}
    {ph : ConnPhase} (ht : HandleTrans cfg c h dev cmd pc ch h' ph os) (ho : o ∈ os)
    (hoff : o.offer = some (d, .event ev)) : ∃ rest, pc.flight = some ⟨ev, rest⟩ := by
  cases ht with
  | broadcast hb | broadcastDone hb =>
    obtain rfl := hb.event_offered ho hoff
    exact ⟨_, rfl⟩
  | noId =>
    rw [List.mem_singleton.mp ho, enqueueRaw_offer] at hoff
    cases hoff
  | replay | ack | reject =>
    rcases List.mem_pair.mp ho with rfl | rfl
    · cases hoff
    · rw [enqueueRaw_offer] at hoff
      cases hoff
  | execute hex =>
    cases hex with
    | claim =>
      cases List.mem_singleton.mp ho
      cases hoff
    | proceed | refuse => cases ho
  | appendFails => cases ho
  | suppress | accept | append | command | commandFails =>
    cases List.mem_singleton.mp ho
    cases hoff

theorem IngestTrans.event_offered {ph ph' : IngestPhase} {ch : Choice}
    (ht : IngestTrans cfg h ph ch h' ph' os) (ho : o ∈ os) (hoff : o.offer = some (d, .event ev)) :
    ∃ rest, ph.flight = some ⟨ev, rest⟩ := by
  cases ht with
  | broadcast hb | broadcastDone hb =>
    obtain rfl := hb.event_offered ho hoff
    exact ⟨_, rfl⟩
  | note =>
    unfold Hub.note at ho
    split at ho <;> simp only [List.mem_singleton, List.not_mem_nil] at ho
    · cases ho
      cases hoff
    · cases ho
      cases hoff
  | append =>
    cases List.mem_singleton.mp ho
    cases hoff
  | receive | appendFails => cases ho

/-- A registration offers the events that were read. -/
theorem ServeTrans.event_offered {dev : DeviceID} {k : Int} {pc : ServePc} {ph : ConnPhase}
    (ht : ServeTrans cfg c h dev k pc h' ph os) (ho : o ∈ os) (hoff : o.offer = some (d, .event ev)) :
    ∃ snap events, pc = .register snap events ∧ ev ∈ events := by
  cases ht with
  | @register snap events payload h1 h2 os hh1 henq =>
    rcases List.mem_cons.mp ho with rfl | ho
    · cases hoff
    · obtain ⟨f, hf, hof⟩ := enqueueAll_obs henq o ho
      rw [hof] at hoff
      cases hoff
      rcases List.mem_cons.mp hf with hf | hf
      · cases hf
      · obtain ⟨ev', hev', he⟩ := List.mem_map.mp hf
        cases he
        exact ⟨snap, events, rfl, hev'⟩
  | getSession | getEvents | getSince => cases ho
  | quit =>
    cases List.mem_singleton.mp ho
    cases hoff

end Offers

/-- **What is offered to a client as an event is in the log.** -/
theorem event_offered_logged {cfg : Config} {P : List Obs → World → Action → Prop} {db : Store} {now : Int}
    {tr os : List Obs} {w w' : World} {a : Action}
    (h : (system cfg).Run P [] (World.init cfg db now) tr w) (hs : w.step cfg a = some (w', os)) {o : Obs}
    (ho : o ∈ os) {c : ConnId} {ev : EventPayload} (hoff : o.offer = some (c, .event ev)) :
    ev ∈ w.log cfg := by
  have aloft {t : Thread} {rest : Option (List ConnId)} (hf : w.flight t = some ⟨ev, rest⟩) :
      ev ∈ w.log cfg := flights_logged h t _ hf
  cases World.step_trans hs with
  | @conn c' ch ph ph' h' os hph ht =>
    cases ht with
    | handling ht =>
      obtain ⟨rest, hf⟩ := ht.event_offered ho hoff
      exact aloft ((World.flight_conn hph).trans hf)
    | serving ht =>
      obtain ⟨snap, events, rfl, hev⟩ := ht.event_offered ho hoff
      exact (catch_up_batch h hph).1 ev hev
    | pairing ht =>
      rw [ht.offers o ho] at hoff
      cases hoff
    | turnedAway hos =>
      obtain ⟨code, msg, rfl⟩ := hos o ho
      cases hoff
    | authenticated | unauthenticated | frame | skip | gone => cases ho
  | ingest ht =>
    obtain ⟨rest, hf⟩ := ht.event_offered ho hoff
    exact aloft (t := .ingest) hf
  | write _ hos =>
    rcases hos with ⟨f, rfl, -⟩ | rfl
    · cases List.mem_singleton.mp ho
      cases hoff
    · cases ho
  | accept | pairApproveGet | pairApproveLost | clock => cases ho
  | pairGenerate | pairApproveSet | pairRevoke =>
    cases List.mem_singleton.mp ho
    cases hoff

end Harness.Hub
