/-
# Harness.Hub.PendingLog — the pending maps against the log.

What is pending is kept twice: in the maps of the hub, where an answer finds its request, and in the log,
from which `GetSnapshot` derives what a connecting client is shown. The two are updated one after the
other, in opposite orders: the ingestion loop appends a request and then enters it into the map, an answer
leaves the map and then is appended. In between the request is in flight, and no harm is done as long as
every flight lands.

`pending_agrees` says when they do. A request stays in the log alone when the append of its answer fails
after the claim (`lostAnswer_disagrees`); it stays in the map alone when the agent announces the id a
second time while an answer to the first is in flight, or resolves a request itself.
-/
import Harness.Hub.Delivery
import Harness.Hub.FirstWriteWins

namespace Harness.Hub

open Wire Auth Lib

/-! ## What a log leaves pending -/

/-- The request `a` is pending after the log `L`: announced, and not resolved since. -/
def pendingIn (a : Ask) (L : List EventPayload) : Bool :=
  L.foldl (fun b ev => requests a ev || b && !resolves a ev) false

theorem pendingIn_append (a : Ask) (L : List EventPayload) (ev : EventPayload) :
    pendingIn a (L ++ [ev]) = (requests a ev || pendingIn a L && !resolves a ev) := by
  rw [pendingIn, List.foldl_concat]
  rfl

/-- The event of a command announces nothing. -/
theorem requests_commandEvent {ev : EventPayload} {dev : DeviceID} {out : AgentCommand} (a : Ask)
    (hk : ev.kind = (commandEvent dev out).1) : requests a ev = false := by
  unfold requests requestOf
  rw [hk]
  cases out <;> rfl

/-- What a stored event announces or resolves depends on its kind and payload only. -/
theorem requests_congr {a : Ask} {ev ev' : EventPayload} (hk : ev.kind = ev'.kind)
    (hp : ev.payload = ev'.payload) : requests a ev = requests a ev' := by
  unfold requests requestOf
  rw [hk, hp]

theorem resolves_congr {a : Ask} {ev ev' : EventPayload} (hk : ev.kind = ev'.kind)
    (hp : ev.payload = ev'.payload) : resolves a ev = resolves a ev' := by
  unfold resolves resolutionOf
  rw [hk, hp]

/-! ## What a snapshot reports -/

/-- The snapshot shows the request as pending. -/
def reports (snap : Snapshot) : Ask → Prop
  | .permission r => ∃ v ∈ snap.pendingPermissions, v.requestID = r
  | .question q => ∃ v ∈ snap.pendingQuestions, v.questionID = q

/-- Membership in the maps of the loop in `GetSnapshot`. -/
def holds (acc : Store.SnapshotFold) : Ask → Bool
  | .permission r => decide (r ∈ acc.pending)
  | .question q => decide (q ∈ acc.pendingQ)

/-- The loop of `GetSnapshot` files every view under its own id. -/
structure Filed (acc : Store.SnapshotFold) : Prop where
  permissions : ∀ e ∈ acc.pending.entries, e.2.requestID = e.1
  questions : ∀ e ∈ acc.pendingQ.entries, e.2.questionID = e.1

theorem holds_step (acc : Store.SnapshotFold) (ev : EventPayload) (a : Ask) :
    holds (acc.step ev) a = (requests a ev || holds acc a && !resolves a ev) := by
  unfold Store.SnapshotFold.step requests requestOf resolves resolutionOf
  rw [Bool.eq_iff_iff]
  cases hk : ev.kind with
  | permissionRequest =>
    cases a with
    | permission r =>
      simp only [holds, AList.mem_insert, decide_eq_true_iff, Bool.or_eq_true, Option.some.injEq,
        Ask.permission.injEq, Option.any_none, Bool.not_false, Bool.and_true]
      exact or_congr_left eq_comm
    | question q => simp [holds]
  | question =>
    cases a with
    | permission r => simp [holds]
    | question q =>
      simp only [holds, AList.mem_insert, decide_eq_true_iff, Bool.or_eq_true, Option.some.injEq,
        Ask.question.injEq, Option.any_none, Bool.not_false, Bool.and_true]
      exact or_congr_left eq_comm
  | permissionResolved =>
    cases a with
    | permission r =>
      simp only [holds, AList.mem_erase, decide_eq_true_iff, Bool.or_eq_true, Bool.and_eq_true,
        Option.any_some, Answer.ask, Ask.permission.injEq, Bool.not_eq_true', decide_eq_false_iff_not,
        reduceCtorEq, false_or]
      exact and_comm.trans (and_congr_right fun _ => not_congr eq_comm)
    | question q => simp [holds, Answer.ask]
  | questionResolved =>
    cases a with
    | permission r => simp [holds, Answer.ask]
    | question q =>
      simp only [holds, AList.mem_erase, decide_eq_true_iff, Bool.or_eq_true, Bool.and_eq_true,
        Option.any_some, Answer.ask, Ask.question.injEq, Bool.not_eq_true', decide_eq_false_iff_not,
        reduceCtorEq, false_or]
      exact and_comm.trans (and_congr_right fun _ => not_congr eq_comm)
  | _ => cases a <;> simp [holds]

theorem Filed.step {acc : Store.SnapshotFold} (h : Filed acc) (ev : EventPayload) :
    Filed (acc.step ev) := by
  unfold Store.SnapshotFold.step
  cases ev.kind with
  | permissionRequest =>
    refine ⟨fun e he => ?_, h.questions⟩
    rcases List.mem_cons.mp he with rfl | he
    · rfl
    · exact h.permissions e ((List.kerase_sublist _ _).subset he)
  | question =>
    refine ⟨h.permissions, fun e he => ?_⟩
    rcases List.mem_cons.mp he with rfl | he
    · rfl
    · exact h.questions e ((List.kerase_sublist _ _).subset he)
  | permissionResolved =>
    exact ⟨fun e he => h.permissions e ((List.kerase_sublist _ _).subset he), h.questions⟩
  | questionResolved =>
    exact ⟨h.permissions, fun e he => h.questions e ((List.kerase_sublist _ _).subset he)⟩
  | _ => exact ⟨h.permissions, h.questions⟩

theorem foldl_step_spec (L : List EventPayload) (acc : Store.SnapshotFold) (h : Filed acc) (a : Ask) :
    Filed (L.foldl Store.SnapshotFold.step acc) ∧
      holds (L.foldl Store.SnapshotFold.step acc) a =
        L.foldl (fun b ev => requests a ev || b && !resolves a ev) (holds acc a) := by
  induction L generalizing acc with
  | nil => exact ⟨h, rfl⟩
  | cons ev L ih =>
    have hih := ih (acc.step ev) (h.step ev)
    rw [holds_step] at hih
    exact hih

/-- The values of a map whose views are filed under their ids are the ids in the map. -/
theorem exists_mem_values {V : Type} {m : GoMap V} {id : V → String}
    (hfiled : ∀ e ∈ m.entries, id e.2 = e.1) (k : String) : (∃ v ∈ m.values, id v = k) ↔ k ∈ m := by
  rw [AList.mem_keys]
  constructor
  · rintro ⟨v, hv, rfl⟩
    obtain ⟨e, he, rfl⟩ := List.mem_map.mp hv
    rw [hfiled e he]
    exact List.mem_keys_of_mem he
  · intro hk
    obtain ⟨v, hv⟩ := List.exists_of_mem_keys hk
    exact ⟨v, List.mem_map_of_mem (f := fun e : (_ : String) × V => e.2) hv, hfiled _ hv⟩

/-- **A snapshot reports as pending what its log leaves pending.** -/
theorem reports_snapshotOf (sid : String) (sess : Session) (L : List EventPayload) (a : Ask) :
    reports (Store.snapshotOf sid sess L) a ↔ pendingIn a L = true := by
  have hnil : ∀ {V : Type}, ∀ e ∈ (∅ : GoMap V).entries, False := fun _ he => List.not_mem_nil he
  obtain ⟨hfiled, hholds⟩ := foldl_step_spec L
    ⟨sess.status, "", sess.lastSeq, ∅, ∅⟩
    ⟨fun e he => (hnil e he).elim, fun e he => (hnil e he).elim⟩ a
  have hinit : holds ⟨sess.status, "", sess.lastSeq, ∅, ∅⟩ a = false := by
    cases a <;> simp [holds]
  rw [hinit] at hholds
  rw [pendingIn, ← hholds]
  cases a with
  | permission r => exact (exists_mem_values hfiled.permissions r).trans decide_eq_true_iff.symm
  | question q => exact (exists_mem_values hfiled.questions q).trans decide_eq_true_iff.symm

/-! ## Requests in flight -/

/-- The request a command frame answers. -/
def askOf (cmd : CommandPayload) : Option Ask :=
  match cmd.kind with
  | .answerPermission => (AnswerPermissionBody.decode cmd.payload).map fun b => .permission b.requestID
  | .answerQuestion => (AnswerQuestionBody.decode cmd.payload).map fun b => .question b.questionID
  | _ => none

/-- The number of handlers that have claimed the request and not yet appended its resolution. -/
def World.claimants (a : Ask) (w : World) : Nat := w.conns.countP (ConnPhase.inHandler (claims a))

/-- What the adapter emits, as an event that is not in the log yet. -/
def emitted (kind : EventKind) (payload : Json) : EventPayload := ⟨0, 0, kind, payload⟩

/-- Every request in flight lands:
* the append of an answer fails only when the log no longer shows the request as pending;
* an answer does not claim a request that the ingestion loop has appended and not yet noted;
* the agent does not announce a request while a handler has claimed it, and does not itself resolve a
  pending one. -/
def FlightsLand (cfg : Config) (_ : List Obs) (w : World) : Action → Prop
  | .conn c (.call (.err _)) => ∀ dev cmd out x, w.conns[c]? = some (.handling dev cmd (.append out)) →
      answerOf out = some x → pendingIn x.ask (w.log cfg) = false
  -- an answer to a request that is not pending claims nothing, and may come in at any time
  | .conn c .run => ∀ dev cmd a, w.conns[c]? = some (.handling dev cmd .execute) → askOf cmd = some a →
      w.hub.isPending a = true → w.ingest.noting a = false
  | .ingest (.call .ok) => ∀ kind payload a, w.ingest = .append kind payload →
      (requests a (emitted kind payload) = true → w.claimants a = 0) ∧
      (resolves a (emitted kind payload) = true → w.hub.isPending a = false)
  | _ => True

/-- Where a request is: what is pending or about to be noted is pending in the log; what is pending in
the log is pending, about to be noted, or claimed; and what is claimed is neither of the former. -/
structure Placed (cfg : Config) (a : Ask) (w : World) : Prop where
  logged : w.hub.isPending a = true ∨ w.ingest.noting a = true → pendingIn a (w.log cfg) = true
  found : pendingIn a (w.log cfg) = true →
    w.hub.isPending a = true ∨ w.ingest.noting a = true ∨ 0 < w.claimants a
  apart : 0 < w.claimants a → w.hub.isPending a = false ∧ w.ingest.noting a = false

theorem Placed.congr {cfg : Config} {a : Ask} {w w' : World} (h : Placed cfg a w)
    (hp : w'.hub.isPending a = w.hub.isPending a) (hn : w'.ingest.noting a = w.ingest.noting a)
    (hc : w'.claimants a = w.claimants a)
    (hl : pendingIn a (w'.log cfg) = pendingIn a (w.log cfg)) : Placed cfg a w' := by
  refine ⟨?_, ?_, ?_⟩
  · rw [hp, hn, hl]
    exact h.logged
  · rw [hp, hn, hl, hc]
    exact h.found
  · rw [hp, hn, hc]
    exact h.apart

/-- The step of a connection, from the connection's phase. -/
theorem step_conn {cfg : Config} {w w' : World} {c : ConnId} {ch : Choice} {ph : ConnPhase} {os : List Obs}
    (hph : w.conns[c]? = some ph) (hs : w.step cfg (.conn c ch) = some (w', os)) :
    ∃ h' ph', connStep cfg c w.hub ph ch = some (h', ph', os) ∧
      w' = { w with hub := h', conns := w.conns.set c ph' } := by
  simp only [World.step, hph, Option.map_eq_some_iff] at hs
  obtain ⟨⟨h', ph', os'⟩, hc, he⟩ := hs
  cases he
  exact ⟨h', ph', hc, rfl⟩

/-- A handler that executes an answer claims the request its command names. -/
theorem execute_claims {c : ConnId} {h : Hub} {cmd : CommandPayload} {out : AgentCommand} {x : Answer}
    (hpc : (execute c h cmd).2.1 = .append out) (hx : answerOf out = some x) : askOf cmd = some x.ask := by
  unfold execute at hpc
  unfold askOf
  cases hk : cmd.kind with
  | answerPermission =>
    simp only [hk] at hpc ⊢
    cases hd : AnswerPermissionBody.decode cmd.payload with
    | none => simp [hd] at hpc
    | some body =>
      simp only [hd] at hpc
      split at hpc
      · cases hpc
        cases hx
        rfl
      · cases hpc
  | answerQuestion =>
    simp only [hk] at hpc ⊢
    cases hd : AnswerQuestionBody.decode cmd.payload with
    | none => simp [hd] at hpc
    | some body =>
      simp only [hd] at hpc
      split at hpc
      · cases hpc
        cases hx
        rfl
      · cases hpc
  | sendPrompt =>
    simp only [hk] at hpc
    split at hpc <;> cases hpc
    cases hx
  | setMode =>
    simp only [hk] at hpc
    split at hpc
    · cases hpc
    · split at hpc <;> cases hpc
      cases hx
  | interrupt =>
    simp only [hk] at hpc
    cases hpc
    cases hx
  | other s =>
    simp only [hk] at hpc
    cases hpc

theorem handleStep_execute {cfg : Config} {c : ConnId} {h h' : Hub} {dev : DeviceID}
    {cmd : CommandPayload} {ch : Choice} {ph : ConnPhase} {os : List Obs}
    (hs : handleStep cfg c h dev cmd .execute ch = some (h', ph, os)) :
    ch = .run ∧ ph = .handling dev cmd (execute c h cmd).2.1 := by
  cases ch with
  | run =>
    cases hs
    exact ⟨rfl, rfl⟩
  | _ => cases hs

/-- The append of a handler fails by the choice of the environment only. -/
theorem handleStep_appendFails {cfg : Config} {c : ConnId} {h h' : Hub} {dev : DeviceID}
    {cmd : CommandPayload} {out : AgentCommand} {ch : Choice} {code : ErrorCode} {msg : String}
    {os : List Obs}
    (hs : handleStep cfg c h dev cmd (.append out) ch = some (h', .handling dev cmd (.reject code msg), os)) :
    ∃ m, ch = .call (.err m) := by
  cases ch with
  | call r =>
    cases r with
    | err m => exact ⟨m, rfl⟩
    | ok =>
      simp only [handleStep] at hs
      split at hs <;> cases hs
  | _ => cases hs

theorem World.claimants_set {w : World} {c : ConnId} {ph : ConnPhase} (h' : Hub) (ph' : ConnPhase)
    (hph : w.conns[c]? = some ph) (a : Ask) :
    World.claimants a { w with hub := h', conns := w.conns.set c ph' } + (ph.inHandler (claims a)).toNat =
      w.claimants a + (ph'.inHandler (claims a)).toNat :=
  countP_set_add hph

/-- The same, from one point of a handler to another. -/
theorem World.claimants_handling {w : World} {c : ConnId} {dev : DeviceID} {cmd : CommandPayload}
    {pc : HandlerPc} (h' : Hub) (pc' : HandlerPc) (hph : w.conns[c]? = some (.handling dev cmd pc))
    (a : Ask) :
    World.claimants a { w with hub := h', conns := w.conns.set c (.handling dev cmd pc') } +
        (claims a dev cmd pc).toNat = w.claimants a + (claims a dev cmd pc').toNat :=
  World.claimants_set h' _ hph a

section

variable {cfg : Config} {a : Ask} {w : World} {c : ConnId} {dev : DeviceID} {cmd : CommandPayload}

/-- A handler that moves no claim and leaves the maps and the log alone. -/
theorem Placed.quiet {pc : HandlerPc} {h' : Hub} {ph' : ConnPhase} (hI : Placed cfg a w)
    (hph : w.conns[c]? = some (.handling dev cmd pc))
    (hclaim : (ph'.inHandler (claims a)).toNat = (claims a dev cmd pc).toNat)
    (hp : h'.isPending a = w.hub.isPending a) (hst : h'.store.events = w.hub.store.events) :
    Placed cfg a { w with hub := h', conns := w.conns.set c ph' } := by
  have hmove := World.claimants_set h' ph' hph a
  have hold : ((ConnPhase.handling dev cmd pc).inHandler (claims a)).toNat =
      (claims a dev cmd pc).toNat := rfl
  refine hI.congr hp rfl (by omega) ?_
  show pendingIn a (h'.store.events cfg.sessionID) = _
  rw [hst]
  rfl

/-- The pending entry becomes a claim; nothing of it is being noted. -/
theorem Placed.claim {out : AgentCommand} {x : Answer} (hI : Placed cfg x.ask w)
    (hph : w.conns[c]? = some (.handling dev cmd .execute)) (hout : answerOf out = some x)
    (hpend : w.hub.isPending x.ask = true) (hnote : w.ingest.noting x.ask = false) :
    Placed cfg x.ask
      { w with hub := w.hub.claim x.ask, conns := w.conns.set c (.handling dev cmd (.append out)) } := by
  have hmove := World.claimants_handling (w.hub.claim x.ask) (.append out) hph x.ask
  have hold : claims x.ask dev cmd .execute = false := rfl
  have hnew : claims x.ask dev cmd (.append out) = true := by
    show (answerOf out).any _ = true
    rw [hout]
    exact decide_eq_true rfl
  rw [hold, hnew, Bool.toNat_false, Bool.toNat_true] at hmove
  refine ⟨fun _ => ?_, fun _ => .inr (.inr (by omega)), fun _ => ⟨?_, hnote⟩⟩
  · show pendingIn x.ask ((w.hub.claim x.ask).store.events cfg.sessionID) = true
    rw [claim_store]
    exact hI.logged (.inl hpend)
  · show (w.hub.claim x.ask).isPending x.ask = false
    rw [Bool.eq_false_iff, Ne, isPending_claim]
    exact fun hc => hc.1 rfl

/-- The event of the command is appended: a claim becomes a resolution. -/
theorem Placed.resolve {out : AgentCommand} {ev : EventPayload} {st : Store} {now : Int}
    (hI : Placed cfg a w) (hph : w.conns[c]? = some (.handling dev cmd (.append out)))
    (happ : w.hub.store.appendEvent cfg.sessionID (commandEvent dev out).1 (commandEvent dev out).2 now =
      some (ev, st)) :
    Placed cfg a
      { w with
        hub := { w.hub with store := st }
        conns := w.conns.set c (.handling dev cmd (.ack ev out)) } := by
  obtain ⟨-, hk, hp, -⟩ := Store.appendEvent_spec happ
  have hreq : requests a ev = false := requests_commandEvent a hk
  have hres : resolves a ev = claims a dev cmd (.append out) := resolves_commandEvent a hk hp
  have hmove := World.claimants_handling { w.hub with store := st } (.ack ev out) hph a
  have hnew : claims a dev cmd (.ack ev out) = false := rfl
  have hlog : pendingIn a (st.events cfg.sessionID) =
      (pendingIn a (w.log cfg) && !claims a dev cmd (.append out)) := by
    rw [appendEvent_log happ, pendingIn_append, hreq, hres, Bool.false_or]
    rfl
  rw [hnew, Bool.toNat_false] at hmove
  cases hcl : claims a dev cmd (.append out) with
  | true =>
    rw [hcl, Bool.not_true, Bool.and_false] at hlog
    rw [hcl, Bool.toNat_true] at hmove
    obtain ⟨hnp, hnn⟩ := hI.apart (by omega)
    refine ⟨fun h => ?_, fun h => ?_, fun _ => ⟨hnp, hnn⟩⟩
    · rcases h with h | h
      · exact absurd (hnp.symm.trans h) (by decide)
      · exact absurd (hnn.symm.trans h) (by decide)
    · exact absurd (hlog.symm.trans h) (by decide)
  | false =>
    rw [hcl, Bool.not_false, Bool.and_true] at hlog
    rw [hcl, Bool.toNat_false] at hmove
    exact hI.congr (by cases a <;> rfl) rfl hmove hlog

/-- The append failed: a claim is lost, and the log does not miss it. -/
theorem Placed.lose {out : AgentCommand} {code : ErrorCode} {msg : String} (hI : Placed cfg a w)
    (hph : w.conns[c]? = some (.handling dev cmd (.append out)))
    (hno : ∀ x, answerOf out = some x → pendingIn x.ask (w.log cfg) = false) :
    Placed cfg a { w with conns := w.conns.set c (.handling dev cmd (.reject code msg)) } := by
  have hmove := World.claimants_handling w.hub (.reject code msg) hph a
  have hnew : claims a dev cmd (.reject code msg) = false := rfl
  cases hcl : claims a dev cmd (.append out) with
  | false =>
    refine hI.quiet hph ?_ rfl rfl
    rw [hcl]
    rfl
  | true =>
    have hany : (answerOf out).any (fun x => decide (x.ask = a)) = true := hcl
    cases hx : answerOf out with
    | none =>
      rw [hx] at hany
      cases hany
    | some x =>
      rw [hx, Option.any_some, decide_eq_true_iff] at hany
      have hlog := hno x hx
      rw [hany] at hlog
      rw [hnew, hcl, Bool.toNat_false, Bool.toNat_true] at hmove
      refine ⟨hI.logged, fun h => absurd (hlog.symm.trans h) (by decide), fun h => hI.apart ?_⟩
      omega

end

/-- A handler keeps every request in its place. -/
theorem Placed.handle {cfg : Config} {a : Ask} {t os : List Obs} {w : World} {c : ConnId} {dev : DeviceID}
    {cmd : CommandPayload} {pc : HandlerPc} {ch : Choice} {h' : Hub} {ph' : ConnPhase}
    (hI : Placed cfg a w) (hP : FlightsLand cfg t w (.conn c ch))
    (hph : w.conns[c]? = some (.handling dev cmd pc))
    (hs : handleStep cfg c w.hub dev cmd pc ch = some (h', ph', os)) :
    Placed cfg a { w with hub := h', conns := w.conns.set c ph' } := by
  have ht := handleStep_trans hs
  cases ht with
  | noId | replay | ack | reject | suppress | command | commandFails => exact hI.quiet hph rfl rfl rfl
  | accept => exact hI.quiet hph rfl (by cases a <;> rfl) rfl
  | broadcast hb | broadcastDone hb =>
    exact hI.quiet hph rfl (hb.frame.1.isPending a) hb.frame.1.events
  | @execute _ _ _ _ hex =>
    obtain ⟨rfl, hpc⟩ := handleStep_execute hs
    cases hex with
    | refuse => exact hI.quiet hph rfl rfl rfl
    | @proceed out hout =>
      refine hI.quiet hph ?_ rfl rfl
      show ((answerOf out).any _).toNat = 0
      rw [hout]
      rfl
    | @claim out x hout hpend =>
      have hpc' : (execute c w.hub cmd).2.1 = .append out := by
        injection hpc with _ _ hpc
        exact hpc.symm
      by_cases hx : x.ask = a
      · subst hx
        exact hI.claim hph hout hpend (hP dev cmd x.ask hph (execute_claims hpc' hout) hpend)
      · refine hI.quiet hph ?_ ?_ (by rw [claim_store])
        · show ((answerOf out).any _).toNat = 0
          rw [hout, Option.any_some, decide_eq_false hx]
          rfl
        · rw [Bool.eq_iff_iff, isPending_claim]
          exact and_iff_right fun he => hx he.symm
  | append happ => exact hI.resolve hph happ
  | appendFails =>
    obtain ⟨m, rfl⟩ := handleStep_appendFails hs
    exact hI.lose hph fun x => hP dev cmd _ x hph

theorem ingestStep_append {cfg : Config} {h h' : Hub} {kind : EventKind} {payload : Json} {ch : Choice}
    {ev : EventPayload} {os : List Obs}
    (hs : ingestStep cfg h (.append kind payload) ch = some (h', .note ev, os)) : ch = .call .ok := by
  cases ch with
  | call r =>
    cases r with
    | ok => rfl
    | err m => cases hs
  | _ => cases hs

/-- A request is noted as pending. -/
theorem Placed.note {cfg : Config} {a : Ask} {w : World} {ev : EventPayload} (hI : Placed cfg a w)
    (hph : w.ingest = .note ev) :
    Placed cfg a { w with hub := (note w.hub ev).1, ingest := .broadcast ev .copy } := by
  have hn : w.ingest.noting a = requests a ev := by
    rw [hph]
    rfl
  have hp : (Hub.note w.hub ev).1.isPending a = true ↔
      w.hub.isPending a = true ∨ w.ingest.noting a = true := by
    rw [isPending_note, hn, requests, decide_eq_true_iff]
    exact or_comm
  have hlog : ({ w with hub := (Hub.note w.hub ev).1, ingest := .broadcast ev .copy } : World).log cfg =
      w.log cfg := by
    simp [World.log]
  refine ⟨fun h => ?_, fun h => ?_, fun h => ⟨?_, rfl⟩⟩
  · rw [hlog]
    rcases h with h | h
    · exact hI.logged (hp.mp h)
    · cases h
  · rw [hlog] at h
    rcases hI.found h with h | h | h
    · exact .inl (hp.mpr (.inl h))
    · exact .inl (hp.mpr (.inr h))
    · exact .inr (.inr h)
  · obtain ⟨hnp, hnn⟩ := hI.apart h
    show (Hub.note w.hub ev).1.isPending a = false
    rw [Bool.eq_false_iff, Ne, hp, hnp, hnn]
    exact fun h => h.elim Bool.false_ne_true Bool.false_ne_true

/-- An event of the adapter is appended. What it announces is not claimed, what it resolves is not
pending. -/
theorem Placed.emit {cfg : Config} {a : Ask} {w : World} {kind : EventKind} {payload : Json}
    {ev : EventPayload} {st : Store} {now : Int} (hI : Placed cfg a w)
    (hph : w.ingest = .append kind payload)
    (happ : w.hub.store.appendEvent cfg.sessionID kind payload now = some (ev, st))
    (hfree : requests a ev = true → w.claimants a = 0)
    (hidle : resolves a ev = true → w.hub.isPending a = false) :
    Placed cfg a { w with hub := { w.hub with store := st }, ingest := .note ev } := by
  have hn : w.ingest.noting a = false := by
    rw [hph]
    rfl
  have hp : ({ w.hub with store := st } : Hub).isPending a = w.hub.isPending a := by cases a <;> rfl
  have hlog : pendingIn a (st.events cfg.sessionID) =
      (requests a ev || pendingIn a (w.log cfg) && !resolves a ev) := by
    rw [appendEvent_log happ, pendingIn_append]
    rfl
  cases hr : requests a ev with
  | true =>
    -- announced: pending in the log, and about to be noted
    rw [hr, Bool.true_or] at hlog
    exact ⟨fun _ => hlog, fun _ => .inr (.inl hr), fun h => absurd (hfree hr) h.ne'⟩
  | false =>
    rw [hr, Bool.false_or] at hlog
    cases hv : resolves a ev with
    | false =>
      rw [hv, Bool.not_false, Bool.and_true] at hlog
      exact hI.congr hp (hr.trans hn.symm) rfl hlog
    | true =>
      -- resolved by the agent: it was not pending
      have hnp := hp.trans (hidle hv)
      rw [hv, Bool.not_true, Bool.and_false] at hlog
      refine ⟨fun h => ?_, fun h => absurd (hlog.symm.trans h) (by decide), fun _ => ⟨hnp, hr⟩⟩
      rcases h with h | h
      · exact absurd (hnp.symm.trans h) (by decide)
      · exact absurd (hr.symm.trans h) (by decide)

/-- The ingestion loop keeps every request in its place. -/
theorem Placed.ingest {cfg : Config} {a : Ask} {t os : List Obs} {w : World} {ch : Choice} {h' : Hub}
    {ph' : IngestPhase} (hI : Placed cfg a w) (hP : FlightsLand cfg t w (.ingest ch))
    (hs : ingestStep cfg w.hub w.ingest ch = some (h', ph', os)) :
    Placed cfg a { w with hub := h', ingest := ph' } := by
  have ht := ingestStep_trans hs
  have hnoting : ∀ ph, w.ingest = ph → w.ingest.noting a = ph.noting a := by
    rintro ph rfl
    rfl
  generalize hph : w.ingest = ph at ht hs
  cases ht with
  | receive | appendFails => exact hI.congr rfl (hnoting _ hph).symm rfl rfl
  | broadcast hb | broadcastDone hb =>
    refine hI.congr (hb.frame.1.isPending a) (hnoting _ hph).symm rfl ?_
    show pendingIn a (h'.store.events cfg.sessionID) = _
    rw [hb.frame.1.events]
    rfl
  | note => exact hI.note hph
  | @append kind payload _ ev st happ =>
    obtain rfl := ingestStep_append hs
    obtain ⟨-, hk, hp, -⟩ := Store.appendEvent_spec happ
    obtain ⟨hfree, hidle⟩ := hP kind payload a hph
    refine hI.emit hph happ (fun hr => hfree ?_) (fun hv => hidle ?_)
    · rw [← requests_congr (a := a) hk hp]
      exact hr
    · rw [← resolves_congr (a := a) hk hp]
      exact hv

/-- **Every request is in its place** in every state of a run whose flights land. -/
theorem placed {cfg : Config} {db : Store} {now : Int} {tr : List Obs} {w : World}
    (h : (system cfg).Run (FlightsLand cfg) [] (World.init cfg db now) tr w) (a : Ask) :
    Placed cfg a w := by
  refine h.invariant (I := fun _ u => Placed cfg a u) ?_ ?_
  · have hno : World.claimants a (World.init cfg db now) = 0 := rfl
    refine ⟨fun h => ?_, fun h => ?_, fun h => absurd hno h.ne'⟩
    · rcases h with h | h
      · cases a <;> simp [World.init, Hub.isPending] at h
      · cases h
    · rw [World.log_init] at h
      cases h
  · intro t u act u' os _ ih hP hs
    have hst : StepTrans cfg u act u' os := World.step_trans hs
    rcases hst.actors with ⟨c, dev, cmd, pc, ch, h', ph', rfl, hph, -, -⟩ | ⟨ch, h', ph', rfl, -, -⟩ |
      ⟨hq, hno, hi, hsame⟩
    · obtain ⟨h₁, ph₁, hc, rfl⟩ := step_conn hph hs
      exact ih.handle hP hph hc
    · have hs' : (ingestStep cfg u.hub u.ingest ch).map
          (fun r => ({ u with hub := r.1, ingest := r.2.1 }, r.2.2)) = some (u', os) := hs
      obtain ⟨⟨h₁, ph₁, os₁⟩, hing, he⟩ := Option.map_eq_some_iff.mp hs'
      cases he
      exact ih.ingest hP hing
    · refine ih.congr (hq.isPending a) (by rw [hi]) (hsame _ fun _ _ => rfl) ?_
      rw [hst.log, filterMap_appended_nil hno, List.append_nil]

/-! ## Agreement -/

/-- No handler and no ingestion is in progress. -/
def World.Quiescent (w : World) : Prop :=
  w.ingest = .idle ∧ ∀ ph ∈ w.conns, ∀ dev cmd pc, ph ≠ .handling dev cmd pc

/-- The pending maps hold exactly the requests `GetSnapshot` reports as pending. -/
def PendingAgrees (cfg : Config) (w : World) : Prop :=
  ∃ snap, w.hub.store.getSnapshot cfg.sessionID = some snap ∧
    ∀ a, w.hub.isPending a = true ↔ reports snap a

/-- **The pending maps agree with the log**, whenever no handler and no ingestion is in progress, in every
run whose flights land. -/
theorem pending_agrees {cfg : Config} {db : Store} {now : Int} {tr : List Obs} {w : World}
    (h : (system cfg).Run (FlightsLand cfg) [] (World.init cfg db now) tr w) (hq : w.Quiescent) :
    PendingAgrees cfg w := by
  obtain ⟨⟨sess, hsess, -⟩, -⟩ := counted h
  refine ⟨_, by rw [Store.getSnapshot, hsess, Option.map_some], fun a => ?_⟩
  rw [reports_snapshotOf]
  have hI := placed h a
  have hidle : w.ingest.noting a = false := by
    rw [hq.1]
    rfl
  have hfree : w.claimants a = 0 := by
    rw [World.claimants, List.countP_eq_zero]
    intro ph hph hcl
    cases ph with
    | handling dev cmd pc => exact hq.2 _ hph dev cmd pc rfl
    | _ => cases hcl
  constructor
  · exact fun hp => hI.logged (.inl hp)
  · intro hlog
    rcases hI.found hlog with hp | hn | hc
    · exact hp
    · exact absurd (hidle.symm.trans hn) (by decide)
    · exact absurd hfree hc.ne'

/-! ## Two runs -/

def ConnPhase.isHandling : ConnPhase → Bool
  | .handling _ _ _ => true
  | _ => false

def IngestPhase.isIdle : IngestPhase → Bool
  | .idle => true
  | _ => false

/-- A test for quiescence. -/
def quiescent (w : World) : Bool := w.ingest.isIdle && w.conns.all fun ph => !ph.isHandling

theorem quiescent_sound {w : World} (h : quiescent w = true) : w.Quiescent := by
  rw [quiescent, Bool.and_eq_true, List.all_eq_true] at h
  refine ⟨?_, fun ph hph dev cmd pc he => ?_⟩
  · cases hi : w.ingest with
    | idle => rfl
    | _ =>
      rw [hi] at h
      cases h.1
  · have hno := h.2 ph hph
    rw [he] at hno
    cases hno

/-- A test for the assumption: no call fails, the agent announces while no handler runs and resolves
nothing, and no handler moves while a request is being noted. -/
def flightsLand (_ : List Obs) (w : World) : Action → Bool
  | .conn _ (.call (.err _)) => false
  | .conn _ .run =>
      match w.ingest with
      | .note _ => false
      | _ => true
  | .ingest (.call .ok) =>
      (w.conns.all fun ph => !ph.isHandling) &&
        match w.ingest with
        | .append .permissionResolved _ | .append .questionResolved _ => false
        | _ => true
  | _ => true

theorem flightsLand_sound (cfg : Config) (t : List Obs) (w : World) (act : Action)
    (h : flightsLand t w act = true) : FlightsLand cfg t w act := by
  unfold flightsLand at h
  unfold FlightsLand
  split at h
  · cases h
  · intro dev cmd a _ _ _
    cases hi : w.ingest with
    | note ev =>
      rw [hi] at h
      cases h
    | _ => rfl
  · rw [Bool.and_eq_true, List.all_eq_true] at h
    intro kind payload a hi
    refine ⟨fun _ => ?_, fun hres => ?_⟩
    · rw [World.claimants, List.countP_eq_zero]
      intro ph hph hcl
      have hno := h.1 ph hph
      cases ph with
      | handling => cases hno
      | _ => cases hcl
    · exfalso
      rw [hi] at h
      revert hres
      unfold resolves resolutionOf emitted
      cases kind with
      | permissionResolved | questionResolved => cases h.2
      | _ => exact nofun
  · trivial

/-- The agent asks for a permission and poses a question; the phone answers the first. -/
def answerOne : List Action :=
  Sample.connect 0 "phone-secret" 0 ++
    [.ingest (.adapterEvent .permissionRequest (.obj [("requestId", .str "r1")])), .ingest (.call .ok),
      .ingest .run, .ingest (.order [0]), .ingest .run, .ingest .run,
      .ingest (.adapterEvent .question (.obj [("questionId", .str "q1")])), .ingest (.call .ok),
      .ingest .run, .ingest (.order [0]), .ingest .run, .ingest .run,
      .conn 0 (Sample.command "p1" .answerPermission [("requestId", .str "r1"), ("allow", .bool true)])] ++
    Sample.handle 0 [0]

theorem pending_agrees_answerOne :
    ∃ w : World, w.hub.isPending (.permission "r1") = false ∧ w.hub.isPending (.question "q1") = true ∧
      PendingAgrees Sample.config w := by
  have hexec : ∃ r, (system Sample.config).exec flightsLand [] Sample.start answerOne = some r ∧
      quiescent r.2 = true ∧ r.2.hub.isPending (.permission "r1") = false ∧
      r.2.hub.isPending (.question "q1") = true := ⟨_, rfl, by decide, by decide, by decide⟩
  obtain ⟨⟨tr, w⟩, he, hq, hr1, hq1⟩ := hexec
  have hr := Lts.run_of_exec (flightsLand_sound Sample.config) he
  exact ⟨w, hr1, hq1, pending_agrees hr (quiescent_sound hq)⟩

theorem not_pendingAgrees {cfg : Config} {w : World} {a : Ask} (hp : w.hub.isPending a = false)
    (hl : pendingIn a (w.log cfg) = true) : ¬ PendingAgrees cfg w := by
  rintro ⟨snap, hsnap, hiff⟩
  obtain ⟨sess, -, rfl⟩ := Option.map_eq_some_iff.mp hsnap
  have hrep := (reports_snapshotOf cfg.sessionID sess (w.hub.store.events cfg.sessionID) a).mpr hl
  rw [(hiff a).mpr hrep] at hp
  cases hp

/-- The agent asks for a permission, and the append of the phone's answer fails. -/
def lostAnswer : List Action :=
  Sample.connect 0 "phone-secret" 0 ++
    [.ingest (.adapterEvent .permissionRequest (.obj [("requestId", .str "r1")])), .ingest (.call .ok),
      .ingest .run, .ingest (.order [0]), .ingest .run, .ingest .run,
      .conn 0 (Sample.command "p1" .answerPermission [("requestId", .str "r1"), ("allow", .bool true)]),
      .conn 0 .run, .conn 0 .run, .conn 0 (.call (.err "database is locked")), .conn 0 .run]

/-- The snapshot goes on showing the request, and nobody can answer it. -/
theorem lostAnswer_disagrees :
    ∃ tr w, (system Sample.config).Run Lts.Free [] Sample.start tr w ∧ w.Quiescent ∧
      ¬ PendingAgrees Sample.config w := by
  have hexec : ∃ r, (system Sample.config).exec (fun _ _ _ => true) [] Sample.start lostAnswer = some r ∧
      quiescent r.2 = true ∧ r.2.hub.isPending (.permission "r1") = false ∧
      pendingIn (.permission "r1") (r.2.log Sample.config) = true :=
    ⟨_, rfl, by decide, by decide, by decide⟩
  obtain ⟨⟨tr, w⟩, he, hq, hp, hl⟩ := hexec
  exact ⟨tr, w, Lts.run_of_exec (fun _ _ _ _ => trivial) he, quiescent_sound hq, not_pendingAgrees hp hl⟩

end Harness.Hub
