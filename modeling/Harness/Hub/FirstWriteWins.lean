/-
# Harness.Hub.FirstWriteWins — one answer per request.

Several devices may answer the same permission request or question. The hub lets the first one through:
under its lock an answer claims the pending entry, and only a claimed answer is appended and handed to
the agent. The claim, the append and the call of the adapter are separate steps that interleave with
the ingestion loop, which appends a request before it enters it into the pending map; ids may be
reused.

The books balance because every request is in exactly one place: announced in the log and not yet
noted, pending, claimed by a handler, or resolved in the log. `first_write_wins` reads off that in every
prefix of the log no request is resolved more often than it was announced, and that the answers the
agent gets are, with their verdicts and devices, distinct resolutions of the log.
-/
import Harness.Hub.Frame

namespace Harness.Hub

open Wire Auth Lib

/-! ## Requests, resolutions and answers -/

/-- The event announces the request `a`. -/
def requests (a : Ask) (ev : EventPayload) : Bool := decide (requestOf ev = some a)

/-- The event resolves the request `a`. -/
def resolves (a : Ask) (ev : EventPayload) : Bool :=
  (resolutionOf ev).any fun r => decide (r.1.ask = a)

/-- The answer an observation hands to the agent, and the device that sent it. -/
def Obs.answerHanded : Obs → Option (Answer × String)
  | .handed _ dev _ out _ => (answerOf out).map fun a => (a, dev.val)
  | _ => none

/-- The assumption on the adapter: it announces requests, it never resolves one. -/
def AdapterNeverResolves (_ : List Obs) (_ : World) (a : Action) : Prop :=
  ∀ kind payload, a = .ingest (.adapterEvent kind payload) →
    kind ≠ .permissionResolved ∧ kind ≠ .questionResolved

/-- The event of a command records the command's answer under the device that sent it. -/
theorem resolutionOf_commandEvent {ev : EventPayload} {dev : DeviceID} {out : AgentCommand}
    (hk : ev.kind = (commandEvent dev out).1) (hp : ev.payload = (commandEvent dev out).2) :
    resolutionOf ev = (answerOf out).map fun a => (a, dev.val) := by
  unfold resolutionOf
  cases out with
  | answerPermission body =>
    rw [hk, hp]
    simp [commandEvent, answerOf]
  | answerQuestion body =>
    rw [hk, hp]
    simp [commandEvent, answerOf]
  | _ =>
    rw [hk]
    rfl

/-! ## The pending maps -/

@[simp] theorem isPending_permission {h : Hub} {r : String} :
    h.isPending (.permission r) = true ↔ r ∈ h.pending := decide_eq_true_iff

@[simp] theorem isPending_question {h : Hub} {q : String} :
    h.isPending (.question q) = true ↔ q ∈ h.pendingQuestions := decide_eq_true_iff

theorem isPending_claim (h : Hub) (a b : Ask) :
    (h.claim a).isPending b = true ↔ b ≠ a ∧ h.isPending b = true := by
  cases a <;> cases b <;> simp [Hub.claim, AList.mem_erase]

theorem isPending_note (h : Hub) (ev : EventPayload) (a : Ask) :
    (note h ev).1.isPending a = true ↔ requestOf ev = some a ∨ h.isPending a = true := by
  unfold note
  split
  · rename_i hk
    cases a with
    | permission r =>
      simp only [requestOf, hk, isPending_permission, AList.mem_insert, Option.some.injEq,
        Ask.permission.injEq]
      exact or_congr_left eq_comm
    | question q => simp [requestOf, hk]
  · rename_i hk
    cases a with
    | permission r => simp [requestOf, hk]
    | question q =>
      simp only [requestOf, hk, isPending_question, AList.mem_insert, Option.some.injEq,
        Ask.question.injEq]
      exact or_congr_left eq_comm
  · rename_i hperm hques
    have hnone : requestOf ev = none := by
      unfold requestOf
      split
      · exact (hperm ‹_›).elim
      · exact (hques ‹_›).elim
      · rfl
    simp [hnone]

/-! ## The books of one request -/

/-- The handler has claimed the request `a` and not yet appended its resolution. -/
def claims (a : Ask) : DeviceID → CommandPayload → HandlerPc → Bool
  | _, _, .append out => (answerOf out).any fun x => decide (x.ask = a)
  | _, _, _ => false

/-- The ingestion loop has appended the request `a` and not yet entered it into the pending map. -/
def IngestPhase.noting (a : Ask) : IngestPhase → Bool
  | .note ev => requests a ev
  | _ => false

/-- Where an announced request can be before it is resolved. -/
def World.open (a : Ask) (w : World) : Nat :=
  (w.hub.isPending a).toNat + w.conns.countP (ConnPhase.inHandler (claims a)) +
    (w.ingest.noting a).toNat

theorem resolves_commandEvent {ev : EventPayload} {dev : DeviceID} {out : AgentCommand} (a : Ask)
    (hk : ev.kind = (commandEvent dev out).1) (hp : ev.payload = (commandEvent dev out).2) :
    resolves a ev = (answerOf out).any fun x => decide (x.ask = a) := by
  rw [resolves, resolutionOf_commandEvent hk hp]
  cases answerOf out <;> rfl

/-- A handler moves a request from pending to claimed, and from claimed to resolved. -/
theorem HandleTrans.answers {cfg : Config} {c : ConnId} {h h' : Hub} {dev : DeviceID}
    {cmd : CommandPayload} {pc : HandlerPc} {ch : Choice} {ph : ConnPhase} {os : List Obs}
    (ht : HandleTrans cfg c h dev cmd pc ch h' ph os) (a : Ask) :
    (os.filterMap Obs.appendedEvent).countP (resolves a) + (h'.isPending a).toNat +
        (ph.inHandler (claims a)).toNat ≤
      (h.isPending a).toNat + (claims a dev cmd pc).toNat := by
  rcases ht.appended with ⟨out, ev, st, rfl, rfl, happ, rfl, rfl⟩ | ⟨hnil, -⟩
  · -- the claimed answer becomes a resolution
    obtain ⟨-, hk, hp, -⟩ := Store.appendEvent_spec happ
    show [ev].countP (resolves a) + (h.isPending a).toNat + 0 ≤ _
    rw [countP_one, resolves_commandEvent a hk hp]
    show _ ≤ (h.isPending a).toNat + ((answerOf out).any fun x => decide (x.ask = a)).toNat
    omega
  · rw [hnil, List.countP_nil, Nat.zero_add]
    cases ht with
    | append => cases hnil
    | execute hex =>
      cases hex with
      | @claim out x hout hpend =>
        -- the pending entry becomes a claim
        show ((h.claim x.ask).isPending a).toNat + ((answerOf out).any _).toNat ≤
          (h.isPending a).toNat + 0
        rw [hout, Option.any_some]
        by_cases hx : x.ask = a
        · have hgone : (h.claim x.ask).isPending a = false := by
            rw [Bool.eq_false_iff, Ne, isPending_claim]
            exact fun hc => hc.1 hx.symm
          rw [hgone, ← hx, hpend]
          simp
        · have hsame : (h.claim x.ask).isPending a = h.isPending a := by
            rw [Bool.eq_iff_iff, isPending_claim]
            exact and_iff_right fun he => hx he.symm
          rw [hsame, decide_eq_false hx]
          exact Nat.le_refl _
      | proceed hout =>
        show (h.isPending a).toNat + ((answerOf _).any _).toNat ≤ (h.isPending a).toNat + 0
        rw [hout]
        exact Nat.le_refl _
      | refuse => exact Nat.le_refl _
    | broadcast hb | broadcastDone hb =>
      rw [hb.frame.1.isPending]
      exact Nat.le_refl _
    | appendFails =>
      -- a claimed answer that cannot be stored is lost: the request stays unresolved
      exact Nat.le_add_right _ _
    | _ => exact Nat.le_refl _

/-- The ingestion loop moves a request from announced to pending. -/
theorem IngestTrans.answers {cfg : Config} {h h' : Hub} {ph ph' : IngestPhase} {ch : Choice}
    {os : List Obs} (ht : IngestTrans cfg h ph ch h' ph' os)
    (hkind : ∀ kind payload, ph = .append kind payload →
      kind ≠ .permissionResolved ∧ kind ≠ .questionResolved) (a : Ask) :
    (os.filterMap Obs.appendedEvent).countP (resolves a) + (h'.isPending a).toNat +
        (ph'.noting a).toNat ≤
      (h.isPending a).toNat + (ph.noting a).toNat +
        (os.filterMap Obs.appendedEvent).countP (requests a) := by
  cases ht with
  | receive | appendFails => simp [IngestPhase.noting]
  | @append kind payload ch ev st happ =>
    obtain ⟨-, hk, -⟩ := Store.appendEvent_spec happ
    obtain ⟨h1, h2⟩ := hkind kind payload rfl
    have hno : resolves a ev = false := by
      unfold resolves resolutionOf
      rw [hk]
      cases kind <;> first | rfl | contradiction
    show [ev].countP (resolves a) + (h.isPending a).toNat + (requests a ev).toNat ≤
      (h.isPending a).toNat + 0 + [ev].countP (requests a)
    rw [countP_one, countP_one, hno]
    simp
  | @note ev ch =>
    rw [note_appended]
    show 0 + ((Hub.note h ev).1.isPending a).toNat + 0 ≤ (h.isPending a).toNat + (requests a ev).toNat + 0
    have hnote : (Hub.note h ev).1.isPending a = (requests a ev || h.isPending a) := by
      rw [Bool.eq_iff_iff, isPending_note, Bool.or_eq_true, requests, decide_eq_true_iff]
    rw [hnote]
    cases requests a ev <;> cases h.isPending a <;> decide
  | broadcast hb | broadcastDone hb =>
    rw [hb.appended, hb.frame.1.isPending]
    simp [IngestPhase.noting]

/-- **One step keeps the books of every request.** -/
theorem StepTrans.answers {cfg : Config} {w w' : World} {act : Action} {os : List Obs}
    (h : StepTrans cfg w act w' os)
    (hkind : ∀ kind payload, w.ingest = .append kind payload →
      kind ≠ .permissionResolved ∧ kind ≠ .questionResolved) (a : Ask) :
    (os.filterMap Obs.appendedEvent).countP (resolves a) + w'.open a ≤
      w.open a + (os.filterMap Obs.appendedEvent).countP (requests a) := by
  rcases h.actors with ⟨c, dev, cmd, pc, ch, h', ph', -, hph, ht, rfl⟩ | ⟨ch, h', ph', -, ht, rfl⟩ |
    ⟨hq, hno, hi, hsame⟩
  · have hb := ht.answers a
    have hmove : (w.conns.set c ph').countP (ConnPhase.inHandler (claims a)) +
        (claims a dev cmd pc).toNat =
          w.conns.countP (ConnPhase.inHandler (claims a)) + (ph'.inHandler (claims a)).toNat :=
      countP_set_add hph
    simp only [World.open]
    omega
  · have hb := ht.answers hkind a
    simp only [World.open]
    omega
  · rw [World.open, World.open, hq.isPending, hsame _ fun _ _ => rfl, hi, filterMap_appended_nil hno]
    simp

/-! ## Runs -/

/-- Under the assumption the ingestion loop never holds a resolution. -/
theorem ingest_never_resolves {cfg : Config} {db : Store} {now : Int} {tr : List Obs} {w : World}
    (h : (system cfg).Run AdapterNeverResolves [] (World.init cfg db now) tr w) :
    ∀ kind payload, w.ingest = .append kind payload →
      kind ≠ .permissionResolved ∧ kind ≠ .questionResolved := by
  refine h.invariant (I := fun _ u => ∀ kind payload, u.ingest = .append kind payload →
    kind ≠ .permissionResolved ∧ kind ≠ .questionResolved) (fun _ _ hi => by cases hi) ?_
  intro t u a u' os _ ih hP hs kind payload hi
  have hst : StepTrans cfg u a u' os := World.step_trans hs
  rcases hst.actors with ⟨c, dev, cmd, pc, ch, h', ph', -, -, -, rfl⟩ |
    ⟨ch, h', ph', rfl, ht, rfl⟩ | ⟨-, -, hsame, -⟩
  · exact ih kind payload hi
  · obtain rfl : ph' = .append kind payload := hi
    generalize u.ingest = ph at ht
    cases ht with
    | receive => exact hP kind payload rfl
  · exact ih kind payload (hsame ▸ hi)

/-- In every state the log has resolved a request at most as often as it announced it, with room for
what is still open. -/
theorem resolved_add_open_le {cfg : Config} {db : Store} {now : Int} {tr : List Obs} {w : World}
    (h : (system cfg).Run AdapterNeverResolves [] (World.init cfg db now) tr w) (a : Ask) :
    (w.log cfg).countP (resolves a) + w.open a ≤ (w.log cfg).countP (requests a) := by
  refine h.invariant (I := fun _ u =>
    (u.log cfg).countP (resolves a) + u.open a ≤ (u.log cfg).countP (requests a)) ?_ ?_
  · rw [World.log_init]
    cases a <;> simp [World.open, World.init, Hub.isPending, IngestPhase.noting]
  · intro t u act u' os hr ih _ hs
    have hst : StepTrans cfg u act u' os := World.step_trans hs
    have hb := hst.answers (ingest_never_resolves hr) a
    rw [hst.log, List.countP_append, List.countP_append]
    omega

/-- The answers handed over are, with multiplicities, among the resolutions of the log. -/
theorem answers_subperm {cfg : Config} {P : List Obs → World → Action → Prop} {db : Store} {now : Int}
    {tr : List Obs} {w : World} (h : (system cfg).Run P [] (World.init cfg db now) tr w) :
    (tr.filterMap Obs.answerHanded).Subperm ((w.log cfg).filterMap resolutionOf) := by
  rw [log_eq_appended h, List.filterMap_filterMap]
  refine filterMap_subperm fun x => ?_
  have hhanded : (fun o : Obs => decide (o.answerHanded = some x)) =
      Obs.handedWith fun d _ out => decide (((answerOf out).map fun a => (a, d.val)) = some x) := by
    funext o
    cases o <;> rfl
  rw [hhanded]
  refine handed_le_appended h fun c d k out ev hk hp hm => ?_
  show decide (resolutionOf ev = some x) = true
  rw [resolutionOf_commandEvent hk hp]
  exact hm

/-- **First write wins.** While the adapter itself resolves nothing: in every prefix of the log a
request is resolved at most as often as it was announced; the agent gets at most as many answers to a
request as the log resolves it; and the answers it gets, with their verdicts and the devices that sent
them, are distinct resolutions of the log. -/
theorem first_write_wins {cfg : Config} {db : Store} {now : Int} {tr : List Obs} {w : World}
    (h : (system cfg).Run AdapterNeverResolves [] (World.init cfg db now) tr w) :
    (∀ p, p <+: w.log cfg → ∀ a, p.countP (resolves a) ≤ p.countP (requests a)) ∧
    (∀ a, (tr.filterMap Obs.answerHanded).countP (fun x => decide (x.1.ask = a)) ≤
      (w.log cfg).countP (resolves a)) ∧
    (tr.filterMap Obs.answerHanded).Subperm ((w.log cfg).filterMap resolutionOf) := by
  have hsub := answers_subperm h
  refine ⟨fun p hp a => ?_, fun a => ?_, hsub⟩
  · refine prefix_rule (I := fun p => p.countP (resolves a) ≤ p.countP (requests a))
      (Nat.le_refl _) (fun hr => ?_) h p hp
    have hle := resolved_add_open_le hr a
    omega
  · have hcount : (w.log cfg).countP (resolves a) =
        ((w.log cfg).filterMap resolutionOf).countP fun x => decide (x.1.ask = a) := by
      rw [List.countP_filterMap]
      refine List.countP_congr fun ev _ => ?_
      rw [resolves]
      cases resolutionOf ev <;> simp
    rw [hcount]
    exact hsub.countP_le _

/-- The agent asks once, and both devices answer while neither has been handled. -/
def race : List Action :=
  Sample.connect 0 "phone-secret" 0 ++ Sample.connect 1 "tablet-secret" 0 ++
    [.ingest (.adapterEvent .permissionRequest (.obj [("requestId", .str "r1")])), .ingest (.call .ok),
      .ingest .run, .ingest (.order [0, 1]), .ingest .run, .ingest .run, .ingest .run,
      .conn 0 (Sample.command "p1" .answerPermission [("requestId", .str "r1"), ("allow", .bool true)]),
      .conn 1 (Sample.command "t1" .answerPermission [("requestId", .str "r1")]),
      .conn 0 .run, .conn 1 .run, .conn 1 .run, .conn 0 .run, .conn 0 .run, .conn 1 (.call .ok),
      .conn 1 .run, .conn 1 (.order [0, 1]), .conn 1 .run, .conn 1 .run, .conn 1 .run,
      .conn 1 (.call .ok)]

/-- What `AdapterNeverResolves` asks of a step, evaluated. -/
def neverResolves : Action → Bool
  | .ingest (.adapterEvent kind _) => kind ≠ .permissionResolved ∧ kind ≠ .questionResolved
  | _ => true

/-- The tablet's claim came first, so the agent hears its refusal and nothing else. -/
theorem first_write_wins_race :
    ∃ tr w, (system Sample.config).Run AdapterNeverResolves [] Sample.start tr w ∧
      tr.filterMap Obs.answerHanded = [(.permission "r1" false, Sample.tablet.val)] ∧
      (∀ p, p <+: w.log Sample.config → ∀ a, p.countP (resolves a) ≤ p.countP (requests a)) ∧
      (∀ a, (tr.filterMap Obs.answerHanded).countP (fun x => decide (x.1.ask = a)) ≤
        (w.log Sample.config).countP (resolves a)) ∧
      (tr.filterMap Obs.answerHanded).Subperm ((w.log Sample.config).filterMap resolutionOf) := by
  have hok : ∀ t u a, neverResolves a = true → AdapterNeverResolves t u a := by
    rintro t u a h kind payload rfl
    exact of_decide_eq_true h
  have hexec : ∃ tr,
      ((system Sample.config).exec (fun _ _ => neverResolves) [] Sample.start race).map Prod.fst = some tr ∧
      tr.filterMap Obs.answerHanded = [(.permission "r1" false, Sample.tablet.val)] :=
    ⟨_, rfl, by decide⟩
  obtain ⟨tr, he, hans⟩ := hexec
  obtain ⟨w, hr⟩ := Lts.run_of_exec_trace hok he
  exact ⟨tr, w, hr, hans, first_write_wins hr⟩

end Harness.Hub
