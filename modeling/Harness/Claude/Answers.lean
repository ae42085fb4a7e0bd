/-
# Harness.Claude.Answers — a permission, from the agent that asks to the agent that is told.

The agent asks on its stdout and hears on its stdin. In between the request becomes an event of the log, some
device answers it, and the answer is handed to `Command`. Here the two ends are compared: what the agent is
told about a request it has asked for, no more often than it asked (`answered_as_asked`), and a device has said
so on the record.

`Hub.AdapterNeverResolves` is what `Hub.first_write_wins` assumes of the adapter: it resolves nothing itself. Of
this adapter it is shown (`handleStreamJSON_announces`), whatever the agent writes.
-/
import Harness.Claude.Stdin
import Harness.Hub.PendingLog

namespace Harness.Claude.Stdin

open Wire Lib
open Hub (Config ConnId Ask requests resolves resolutionOf)

/-! ## What the adapter emits -/

/-- The body resolves nothing. -/
def Announces (b : HostBody) : Prop := b.kind ≠ .permissionResolved ∧ b.kind ≠ .questionResolved

section Lines

variable {codec : Codec}

theorem textDelta_announces (content : String) : ∀ b ∈ textDelta content, Announces b := by
  unfold textDelta
  split <;> simp [Announces, HostBody.kind]

theorem contentBlock_announces (block : Json) : ∀ b ∈ contentBlock codec block, Announces b := by
  unfold contentBlock
  split
  · split
    · exact textDelta_announces _
    · simp [Announces, HostBody.kind]
    · simp
  · simp

theorem emitTextFromMessage_announces (msg : Option Json) :
    ∀ b ∈ emitTextFromMessage codec msg, Announces b := by
  unfold emitTextFromMessage
  split
  · simp
  · split
    · intro b hb
      obtain ⟨block, -, hblock⟩ := List.mem_flatMap.mp hb
      exact contentBlock_announces block b hblock
    · exact textDelta_announces _

theorem handlePartialEvent_announces (ev : Option Json) : ∀ b ∈ handlePartialEvent ev, Announces b := by
  unfold handlePartialEvent
  split
  · simp
  · split
    · exact textDelta_announces _
    · simp

theorem handleControlRequest_announces (raw : List (String × Json)) :
    ∀ b ∈ handleControlRequest codec raw, Announces b := by
  unfold handleControlRequest
  split
  · simp
  · split <;> simp [Announces, HostBody.kind]

theorem handleMessage_announces (raw : List (String × Json)) :
    ∀ b ∈ handleMessage codec raw, Announces b := by
  unfold handleMessage
  split
  · split <;> simp [Announces, HostBody.kind]
  · exact emitTextFromMessage_announces _
  · exact handlePartialEvent_announces _
  · cases object (member raw "usage") <;> simp [usageUpdate, Announces, HostBody.kind]
  · exact handleControlRequest_announces raw
  · simp
  all_goals first | exact textDelta_announces _ | simp [usageUpdate, Announces, HostBody.kind]

/-- **Whatever the agent writes, nothing is resolved by it.** -/
theorem handleStreamJSON_announces (line : List UInt8) : ∀ b ∈ handleStreamJSON codec line, Announces b := by
  unfold handleStreamJSON
  split
  · simp [Announces, HostBody.kind]
  · exact handleMessage_announces _

end Lines

/-! ## The daemon's part of a run -/

def hubObs : Claude.Obs → Option Hub.Obs
  | .hub o => some o
  | _ => none

def hubTrace (tr : List Claude.Obs) : List Hub.Obs := tr.filterMap hubObs

/-- The events of the lines read, as `handleStreamJSON` produced them. -/
def asked : Claude.Obs → List HostBody
  | .handled bodies => bodies
  | _ => []

section

variable {codec : Codec} {cfg : Config} {db : Store} {now : Int} {tr : List Claude.Obs}

theorem hubObs_hubStep (ph ph' : Hub.IngestPhase) (obs : List Hub.Obs) :
    (skips ph ph' ++ obs.map Claude.Obs.hub).filterMap hubObs = obs := by
  have hskip : (skips ph ph').filterMap hubObs = [] := by
    unfold skips
    split <;> rfl
  rw [List.filterMap_append, hskip, List.nil_append, List.filterMap_map]
  exact List.filterMap_some

/-- What a step of the adapter and the daemon is to the daemon: nothing, or a step, which takes an event from
the adapter only if the adapter has put it into the channel. -/
theorem hub_step {d d' : Claude.State} {a : Claude.Action} {os : List Claude.Obs}
    (hs : (Claude.system codec cfg).step d a = some (d', os)) :
    (d'.world = d.world ∧ os.filterMap hubObs = []) ∨
      ∃ b, d.world.step cfg b = some (d'.world, os.filterMap hubObs) ∧
        ∀ kind payload, b = .ingest (.adapterEvent kind payload) → (kind, payload) ∈ d.adapter.events := by
  have inner {d₁ : Claude.State} {b : Hub.Action} (hb : Claude.hubStep cfg d₁ b = some (d', os)) :
      d₁.world.step cfg b = some (d'.world, os.filterMap hubObs) := by
    simp only [Claude.hubStep, Option.map_eq_some_iff, Prod.mk.injEq] at hb
    obtain ⟨⟨w, obs⟩, hw, rfl, rfl⟩ := hb
    rw [hubObs_hubStep]
    exact hw
  cases a with
  | line bytes =>
    simp only [Claude.system] at hs
    split at hs <;> cases hs
    exact .inl ⟨rfl, rfl⟩
  | emit =>
    simp only [Claude.system] at hs
    split at hs <;> cases hs
    refine .inl ⟨rfl, ?_⟩
    split <;> rfl
  | receive =>
    simp only [Claude.system] at hs
    split at hs
    · cases hs
    · rename_i e rest he
      have hw := inner hs
      refine .inr ⟨_, hw, fun kind payload heq => ?_⟩
      cases heq
      rw [he]
      exact List.mem_cons_self
  | hub b =>
    simp only [Claude.system] at hs
    split at hs
    · cases hs
    · rename_i hno
      refine .inr ⟨b, inner hs, fun kind payload heq => ?_⟩
      subst heq
      exact absurd rfl hno

theorem daemon_run {s : State} (h : (system codec cfg).Run Lts.Free [] (start cfg db now) tr s) :
    (Claude.system codec cfg).Run Lts.Free [] (Claude.start cfg db now) tr s.daemon := by
  induction h with
  | refl => exact .refl
  | tail _ _ hs ih =>
    rcases step_daemon hs with ⟨b, hb⟩ | ⟨hsame, rfl⟩
    · exact ih.tail trivial hb
    · rw [hsame, List.append_nil]
      exact ih

/-- What is produced for the lines is what `handleStreamJSON` makes of them. -/
theorem produced_announces {d : Claude.State}
    (h : (Claude.system codec cfg).Run Lts.Free [] (Claude.start cfg db now) tr d) :
    ∀ b ∈ tr.flatMap asked, Announces b := by
  refine h.invariant (I := fun t _ => ∀ b ∈ t.flatMap asked, Announces b) (List.forall_mem_nil _) ?_
  intro t u a u' os _ ih _ hs
  rw [List.flatMap_append, List.forall_mem_append]
  refine ⟨ih, ?_⟩
  have silent {d₁ : Claude.State} {b : Hub.Action} (hb : Claude.hubStep cfg d₁ b = some (u', os)) :
      ∀ b ∈ os.flatMap asked, Announces b := by
    simp only [Claude.hubStep, Option.map_eq_some_iff, Prod.mk.injEq] at hb
    obtain ⟨r, -, -, rfl⟩ := hb
    intro b hb
    obtain ⟨o, ho, hbo⟩ := List.mem_flatMap.mp hb
    cases o with
    | handled bodies =>
      rcases List.mem_append.mp ho with ho | ho
      · unfold skips at ho
        split at ho <;> simp at ho
      · simp at ho
    | _ => cases hbo
  cases a with
  | line bytes =>
    simp only [Claude.system] at hs
    split at hs <;> cases hs
    show ∀ b ∈ handleStreamJSON codec bytes ++ [], Announces b
    rw [List.append_nil]
    exact handleStreamJSON_announces bytes
  | emit =>
    simp only [Claude.system] at hs
    split at hs <;> cases hs
    split <;> exact List.forall_mem_nil _
  | receive =>
    simp only [Claude.system] at hs
    split at hs
    · cases hs
    · exact silent hs
  | hub b =>
    simp only [Claude.system] at hs
    split at hs
    · cases hs
    · exact silent hs

theorem produced_eq (o : Claude.Obs) : o.produced = (asked o).map event := by
  cases o <;> rfl

theorem flatMap_produced (tr : List Claude.Obs) : tr.flatMap Obs.produced = (tr.flatMap asked).map event := by
  rw [List.map_flatMap]
  exact List.flatMap_congr fun o _ => produced_eq o

/-- **The daemon's run**, with an adapter that resolves nothing. -/
theorem hub_run {d : Claude.State}
    (h : (Claude.system codec cfg).Run Lts.Free [] (Claude.start cfg db now) tr d) :
    (Hub.system cfg).Run Hub.AdapterNeverResolves [] (Hub.World.init cfg db now) (hubTrace tr) d.world := by
  induction h with
  | refl => exact .refl
  | @tail t os u u' a hr _ hs ih =>
    rw [hubTrace, List.filterMap_append]
    rcases hub_step hs with ⟨hsame, hnil⟩ | ⟨b, hb, hfrom⟩
    · rw [hnil, List.append_nil, hsame]
      exact ih
    · refine ih.tail (fun kind payload heq => ?_) hb
      have hchannel := hfrom kind payload heq
      have htransit : (kind, payload) ∈ u.transit :=
        List.mem_append_right _ (List.mem_append_left _ hchannel)
      have hfed : (kind, payload) ∈ t.flatMap Obs.produced :=
        (books hr).order.mem (List.mem_append_right _ htransit)
      rw [flatMap_produced] at hfed
      obtain ⟨body, hbody, heq⟩ := List.mem_map.mp hfed
      cases heq
      exact produced_announces hr body hbody

end

/-! ## From the log back to the lines -/

/-- The event asks for the permission `r`. -/
def asksFor (r : String) : HostBody → Bool
  | .permissionRequest body => decide (body.requestID = r)
  | _ => false

/-- An event on its way announces the request `a`. -/
def announces (a : Ask) (x : EventKind × Json) : Bool := requests a ⟨0, 0, x.1, x.2⟩

theorem announces_event (r : String) (b : HostBody) : announces (.permission r) (event b) = asksFor r b := by
  cases b <;> simp [announces, event, requests, Hub.requestOf, HostBody.kind, HostBody.toJson, asksFor]

/-- **What the log announces was stored for the agent.** -/
theorem announced_le {cfg : Config} {P : List Hub.Obs → Hub.World → Hub.Action → Prop} {db : Store}
    {now : Int} {tr : List Hub.Obs} {w : Hub.World}
    (h : (Hub.system cfg).Run P [] (Hub.World.init cfg db now) tr w) (a : Ask) :
    (w.log cfg).countP (requests a) ≤ (tr.flatMap fun o => Obs.stored (.hub o)).countP (announces a) := by
  refine h.invariant (I := fun t u =>
    (u.log cfg).countP (requests a) ≤ (t.flatMap fun o => Obs.stored (.hub o)).countP (announces a)) ?_ ?_
  · rw [Hub.World.log_init]
    exact Nat.zero_le _
  · intro t u act u' os _ ih _ hs
    have hst : Hub.StepTrans cfg u act u' os := Hub.World.step_trans hs
    have hstep : (os.filterMap Hub.Obs.appendedEvent).countP (requests a) ≤
        (os.flatMap fun o => Obs.stored (.hub o)).countP (announces a) := by
      rcases hst.actors with ⟨c, dev, cmd, pc, ch, h', ph', -, -, ht, -⟩ | ⟨ch, h', ph', -, ht, -⟩ |
        ⟨-, hno, -, -⟩
      · rcases ht.appended with ⟨out, ev, st, -, -, happ, -, rfl⟩ | ⟨hnil, -⟩
        · -- a command announces nothing
          obtain ⟨-, hk, -, -⟩ := Store.appendEvent_spec happ
          show List.countP (requests a) [ev] ≤ _
          rw [List.countP_singleton, Hub.requests_commandEvent a hk]
          exact Nat.zero_le _
        · rw [hnil]
          exact Nat.zero_le _
      · rcases hst.appends with hnil | ⟨wr, ev, rfl⟩
        · rw [hnil]
          exact Nat.zero_le _
        · cases wr with
          | ingest =>
            have hsame : requests a ev = announces a (ev.kind, ev.payload) := Hub.requests_congr rfl rfl
            show List.countP (requests a) [ev] ≤ List.countP (announces a) [(ev.kind, ev.payload)]
            rw [List.countP_singleton, List.countP_singleton, hsame]
          | command c dev k =>
            rcases ht.obs _ (List.mem_singleton_self _) with he | he <;> cases he
      · rw [Hub.filterMap_appended_nil hno]
        exact Nat.zero_le _
    rw [hst.log, List.countP_append, List.flatMap_append, List.countP_append]
    omega

theorem stored_hubTrace (tr : List Claude.Obs) :
    ((hubTrace tr).flatMap fun o => Obs.stored (.hub o)) = tr.flatMap Obs.stored := by
  induction tr with
  | nil => rfl
  | cons o tr ih =>
    rw [List.flatMap_cons, ← ih]
    cases o <;> rfl

/-! ## From the handler to the agent's stdin -/

/-- What a message says about a permission, to the agent that reads it: which request, and whether it is
allowed. -/
def decision (msg : Json) : Option (String × Bool) :=
  match object (some msg) with
  | none => none
  | some m =>
      if str (member m "type") = "control_response" then
        let response := (object (member m "response")).getD []
        let answer := (object (member response "response")).getD []
        some (str (member response "request_id"), decide (str (member answer "behavior") = "allow"))
      else none

/-- The permissions the agent has been told about. -/
def State.replies (s : State) : List (String × Bool) :=
  (messages s.input.written).filterMap fun m => m.bind decision

/-- What a command says about a permission. -/
def verdict : AgentCommand → Option (String × Bool)
  | .answerPermission body => some (body.requestID, body.allow)
  | _ => none

theorem decision_message (cmd : AgentCommand) : (message cmd).toOption.bind decision = verdict cmd := by
  cases cmd with
  | answerPermission body =>
    obtain ⟨r, allow, always⟩ := body
    cases allow <;> rfl
  | _ => rfl

/-- A device has answered that request so, on the record. -/
def answeredBy (d : String × Bool) : Hub.Obs → Bool
  | .appended (.command _ dev _) ev => decide (resolutionOf ev = some (.permission d.1 d.2, dev.val))
  | _ => false

section

variable {codec : Codec} {cfg : Config} {db : Store} {now : Int} {tr : List Claude.Obs} {s : State}

theorem replies_eq (h : (system codec cfg).Run Lts.Free [] (start cfg db now) tr s) :
    s.replies = (tr.filterMap delivered).filterMap verdict := by
  obtain ⟨ms, hms, hread, -⟩ := (told h).messages
  have hverdict : (tr.filterMap delivered).filterMap verdict =
      ((tr.filterMap delivered).map message).filterMap fun r => r.toOption.bind decision := by
    rw [List.filterMap_map]
    exact List.filterMap_congr fun cmd _ => (decision_message cmd).symm
  rw [State.replies, hread, hverdict, hms, List.filterMap_map, List.filterMap_map]
  rfl

/-- **What the agent is told was recorded first.** -/
theorem replies_le (h : (system codec cfg).Run Lts.Free [] (start cfg db now) tr s) {m : String × Bool → Bool}
    {earn : Hub.Obs → Bool}
    (hearn : ∀ (c : ConnId) (dev : DeviceID) (k : String) (d : String × Bool) (ev : EventPayload), m d = true →
      resolutionOf ev = some (.permission d.1 d.2, dev.val) → earn (.appended (.command c dev k) ev) = true) :
    s.replies.countP m ≤ (hubTrace tr).countP earn := by
  have hhanded : s.replies.countP m ≤
      (hubTrace tr).countP (Hub.Obs.handedWith fun _ _ out => (verdict out).any m) := by
    rw [replies_eq h, List.countP_filterMap, List.countP_filterMap, hubTrace, List.countP_filterMap]
    refine List.countP_mono_left fun o _ ho => ?_
    unfold delivered at ho
    split at ho
    · rename_i cmd _
      show (verdict cmd).any m = true
      cases hv : verdict cmd with
      | none => simp [hv] at ho
      | some d => simpa [hv] using ho
    · cases ho
  refine hhanded.trans (Hub.handed_le_appended (hub_run (daemon_run h)) ?_)
  intro c dev k out ev hk hp hm
  have hres := Hub.resolutionOf_commandEvent hk hp
  cases out with
  | answerPermission body => exact hearn c dev k (body.requestID, body.allow) ev hm hres
  | _ => cases hm

/-- **The agent is told about a permission no more often than it asked for it**, and never what no device has
said: every answer on its stdin is an event of the log that a device's command put there, with that verdict. -/
theorem answered_as_asked (h : (system codec cfg).Run Lts.Free [] (start cfg db now) tr s) :
    (∀ r, s.replies.countP (fun d => decide (d.1 = r)) ≤ (tr.flatMap asked).countP (asksFor r)) ∧
      ∀ d, s.replies.count d ≤ (hubTrace tr).countP (answeredBy d) := by
  have hdaemon := daemon_run h
  have hhub := hub_run hdaemon
  refine ⟨fun r => ?_, fun d => ?_⟩
  · have hlog : s.replies.countP (fun d => decide (d.1 = r)) ≤
        (s.daemon.world.log cfg).countP (resolves (.permission r)) := by
      rw [Hub.log_eq_appended hhub, List.countP_filterMap]
      refine replies_le h fun c dev k d ev hd hev => ?_
      simpa [Hub.Obs.appendedEvent, resolves, hev, Hub.Answer.ask] using hd
    have hopen := Hub.resolved_add_open_le hhub (.permission r)
    have hstored := announced_le hhub (.permission r)
    have hproduced : (tr.flatMap Obs.stored ++ s.daemon.transit).countP (announces (.permission r)) ≤
        (tr.flatMap Obs.produced).countP (announces (.permission r)) := (books hdaemon).order.countP_le
    have hasked : (tr.flatMap Obs.produced).countP (announces (.permission r)) =
        (tr.flatMap asked).countP (asksFor r) := by
      rw [flatMap_produced, List.countP_map]
      exact List.countP_congr fun b _ => by rw [Function.comp_apply, announces_event]
    rw [stored_hubTrace] at hstored
    rw [List.countP_append, hasked] at hproduced
    omega
  · refine replies_le h fun c dev k d' ev hd hev => ?_
    obtain rfl : d' = d := by simpa using hd
    exact decide_eq_true hev

end

namespace Sample

/-- The agent asks, both devices answer, and the phone is first. -/
def race : List Action :=
  hub (Hub.Sample.connect 0 "phone-secret" 0 ++ Hub.Sample.connect 1 "tablet-secret" 0) ++
    [.daemon (.line Claude.Sample.permissionRequest), .daemon .emit, .daemon .receive] ++
    hub [.ingest (.call .ok), .ingest .run, .ingest (.order [0, 1]), .ingest .run, .ingest .run, .ingest .run,
      .conn 0 (Hub.Sample.command "p1" .answerPermission [("requestId", .str "r1"), ("allow", .bool true)]),
      .conn 1 (Hub.Sample.command "t1" .answerPermission [("requestId", .str "r1")])] ++
    deliver 0 [0, 1] .done ++ hub [.conn 1 .run, .conn 1 .run, .conn 1 .run]

end Sample

theorem answered_as_asked_race :
    ∃ tr s, (system Claude.Sample.codec Hub.Sample.config).Run Lts.Free [] Sample.start tr s ∧
      s.replies = [("r1", true)] ∧
      (∀ r, s.replies.countP (fun d => decide (d.1 = r)) ≤ (tr.flatMap asked).countP (asksFor r)) ∧
      ∀ d, s.replies.count d ≤ (hubTrace tr).countP (answeredBy d) := by
  have hexec : ∃ r, (system Claude.Sample.codec Hub.Sample.config).exec (fun _ _ _ => true) [] Sample.start
      Sample.race = some r ∧ (r.1.filterMap delivered).filterMap verdict = [("r1", true)] :=
    ⟨_, rfl, by decide⟩
  obtain ⟨⟨tr, s⟩, he, hverdict⟩ := hexec
  have hrun := Lts.run_of_exec_forall (fun _ _ _ _ => trivial) he
  exact ⟨tr, s, hrun, (replies_eq hrun).trans hverdict, answered_as_asked hrun⟩

end Harness.Claude.Stdin
