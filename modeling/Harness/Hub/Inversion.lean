/-
# Harness.Hub.Inversion — what a step can do, said once.

The step functions of `Conn` and `World` are read backwards here: `PairTrans`, `ServeTrans`,
`HandleTrans`, `BroadcastTrans` and `IngestTrans` list, by name, every way the corresponding step
function can succeed, with the guard it passed, the shared state it leaves and what is observed.
Every invariant of the hub is proved by cases on these relations, never by unfolding a step function.

Exits that end a connection are gathered in one constructor (`quit`): they write an error frame to
the connection and have no other effect than possibly deleting an expired token.
-/
import Harness.Hub.World

namespace Harness.Hub

open Wire Auth

/-! ## Broadcast -/

inductive BroadcastTrans (cfg : Config) (h : Hub) (ev : EventPayload) :
    BroadcastPc → Hub → Option BroadcastPc → List Obs → Prop
  | copy {targets : List ConnId} (hset : ∀ c, c ∈ targets ↔ c ∈ h.clients) (hnd : targets.Nodup) :
      BroadcastTrans cfg h ev .copy h (some (.send targets)) []
  | deliver {t : ConnId} {rest : List ConnId} :
      BroadcastTrans cfg h ev (.send (t :: rest)) (enqueueRaw cfg h t (.event ev)).1
        (some (.send rest)) [(enqueueRaw cfg h t (.event ev)).2]
  | done : BroadcastTrans cfg h ev (.send []) h none []

theorem broadcastStep_trans {cfg : Config} {h h' : Hub} {ev : EventPayload} {pc : BroadcastPc}
    {ch : Choice} {pc' : Option BroadcastPc} {os : List Obs}
    (hs : broadcastStep cfg h ev pc ch = some (h', pc', os)) : BroadcastTrans cfg h ev pc h' pc' os := by
  unfold broadcastStep at hs
  split at hs
  · split at hs
    · rename_i hord
      cases hs
      exact .copy (fun c => by rw [← hord.2, List.mem_toFinset]) hord.1
    · cases hs
  · cases hs
    exact .deliver
  · cases hs
    exact .done
  · cases hs

/-! ## Pairing -/

/-- An observation of a refused connection: an error frame, or the approver's refusal. -/
def Refusal (c : ConnId) (token : String) (o : Obs) : Prop :=
  (∃ code msg, o = .direct c (.error "" code msg)) ∨ o = .approverSaid c token false

inductive PairTrans (cfg : Config) (c : ConnId) (h : Hub) (p : Attempt) :
    PairPc → Choice → Hub → ConnPhase → List Obs → Prop
  | peek {ch : Choice} : PairTrans cfg c h p .peek ch h (.pairing p .consume) []
  | consume {name : String} {st : Store}
      (hcons : consumePairingToken h.store p.token h.now = (some name, st)) :
      PairTrans cfg c h p .consume (.call .ok) { h with store := st } (.pairing p (.issue name))
        [.consumed c p.token]
  | ask {ch : Choice} {st : Store}
      (hst : st = h.store ∨ st = h.store.deletePendingToken p.token) :
      PairTrans cfg c h p .consume ch { h with store := st } (.pairing p .request) []
  | allowed {ch : Choice} {name : String} :
      PairTrans cfg c h p .request ch h (.pairing p (.approveGet name))
        [.approverSaid c p.token true]
  | check {ch : Choice} {name : String} :
      PairTrans cfg c h p (.approveGet name) ch h (.pairing p (.approveSet name)) []
  | approve {ch : Choice} {name : String} {st : Store}
      (happ : h.store.approvePendingToken p.token name = some st) :
      PairTrans cfg c h p (.approveSet name) ch { h with store := st }
        (.pairing p (.consumeApproved name)) [.approved (.conn c) p.token]
  | consumeOwn {ch : Choice} {name n : String} {st : Store}
      (hcons : consumePairingToken h.store p.token h.now = (some n, st)) :
      PairTrans cfg c h p (.consumeApproved name) ch { h with store := st } (.pairing p (.issue n))
        [.consumed c p.token]
  /-- the second consumption hands nothing out, and the pairing goes on -/
  | consumeLost {ch : Choice} {name : String} {st : Store}
      (hlost : ch = .call .ok → (consumePairingToken h.store p.token h.now).1 = none)
      (hst : st = h.store ∨ st = h.store.deletePendingToken p.token) :
      PairTrans cfg c h p (.consumeApproved name) ch { h with store := st }
        (.pairing p (.issue name)) []
  | issue {ch : Choice} {name cred : String} {dev : DeviceID} {raw : Vector UInt8 32} {st : Store}
      (hiss : issueCredential h.store cfg.hashCredential dev name raw h.now = (cred, st)) :
      PairTrans cfg c h p (.issue name) ch { h with store := st } .closed
        [.issued c p.token dev cred, .direct c (.paired dev name cred)]
  | issueFails {ch : Choice} {name msg : String} :
      PairTrans cfg c h p (.issue name) ch h .closed
        [.issueFailed c p.token, .direct c (.error "" .serverError msg)]
  | quit {pc : PairPc} {ch : Choice} {st : Store} {os : List Obs}
      (hst : st = h.store ∨ st = h.store.deletePendingToken p.token)
      (hos : ∀ o ∈ os, Refusal c p.token o) :
      PairTrans cfg c h p pc ch { h with store := st } .closed os

private theorem quit_same {cfg : Config} {c : ConnId} {h : Hub} {p : Attempt} {pc : PairPc}
    {ch : Choice} {os : List Obs} (hos : ∀ o ∈ os, Refusal c p.token o) :
    PairTrans cfg c h p pc ch h .closed os := by
  have hq : PairTrans cfg c h p pc ch { h with store := h.store } .closed os := .quit (.inl rfl) hos
  exact hq

private theorem refusal_error {c : ConnId} {token msg : String} {code : ErrorCode} :
    ∀ o ∈ [Obs.direct c (.error "" code msg)], Refusal c token o :=
  fun _ ho => .inl ⟨code, msg, List.mem_singleton.mp ho⟩

/-- The first component of a consumption decides, the second is the tables afterwards. -/
private theorem consumed_or_not {db : Store} {token : String} {now : Int} {out : Outcome}
    {r : Option String × Store}
    (hr : r = if out = .ok then consumePairingToken db token now else (none, db)) :
    (∃ n st, r = (some n, st) ∧ out = .ok ∧ consumePairingToken db token now = (some n, st)) ∨
      ∃ st, r = (none, st) ∧ (out = .ok → (consumePairingToken db token now).1 = none) ∧
        (st = db ∨ st = db.deletePendingToken token) := by
  subst hr
  by_cases ho : out = .ok
  · rw [if_pos ho]
    rcases hc : consumePairingToken db token now with ⟨_ | n, st⟩
    · exact .inr ⟨st, rfl, fun _ => rfl, consumePairingToken_none hc⟩
    · exact .inl ⟨n, st, rfl, ho, rfl⟩
  · rw [if_neg ho]
    exact .inr ⟨db, rfl, fun h => absurd h ho, .inl rfl⟩

theorem pairStep_trans {cfg : Config} {c : ConnId} {h h' : Hub} {p : Attempt} {pc : PairPc}
    {ch : Choice} {ph : ConnPhase} {os : List Obs}
    (hs : pairStep cfg c h p pc ch = some (h', ph, os)) : PairTrans cfg c h p pc ch h' ph os := by
  unfold pairStep at hs
  split at hs
  · -- the peek
    split at hs
    · cases hs
      exact .peek
    · cases hs
      exact quit_same refusal_error
  · cases hs
    exact quit_same refusal_error
  · -- the first consumption
    rename_i out
    simp only at hs
    generalize hr : (if out = .ok then consumePairingToken h.store p.token h.now
      else (none, h.store)) = r at hs
    rcases consumed_or_not hr.symm with ⟨n, st, rfl, rfl, hcons⟩ | ⟨st, rfl, -, hst⟩
    · cases hs
      exact .consume hcons
    · simp only at hs
      split at hs
      · cases hs
        exact .ask hst
      · cases hs
        exact .quit hst refusal_error
  · -- the approver refuses
    cases hs
    refine quit_same fun o ho => ?_
    rcases List.mem_cons.mp ho with rfl | ho
    · exact .inr rfl
    · exact refusal_error o ho
  · -- the approver allows
    cases hs
    exact .allowed
  · -- the check of `ApprovePairingToken`
    split at hs
    · cases hs
      exact .check
    · cases hs
      exact quit_same refusal_error
  · -- its update
    split at hs
    · rename_i happ
      cases hs
      split at happ
      · exact .approve happ
      · cases happ
    · cases hs
      exact quit_same refusal_error
  · -- the second consumption, whose failure is no exit
    rename_i out
    simp only at hs
    generalize hr : (if out = .ok then consumePairingToken h.store p.token h.now
      else (none, h.store)) = r at hs
    rcases consumed_or_not hr.symm with ⟨n, st, rfl, -, hcons⟩ | ⟨st, rfl, hlost, hst⟩
    · cases hs
      exact .consumeOwn hcons
    · cases hs
      refine .consumeLost (fun hch => hlost ?_) hst
      cases hch
      rfl
  · -- the random source fails
    cases hs
    exact quit_same fun o ho => absurd ho List.not_mem_nil
  · -- the devices table fails
    cases hs
    exact .issueFails
  · -- the credential
    cases hs
    exact .issue rfl
  · cases hs

/-! ## Serving -/

inductive ServeTrans (cfg : Config) (c : ConnId) (h : Hub) (dev : DeviceID) (k : Int) :
    ServePc → Hub → ConnPhase → List Obs → Prop
  | getSession {sess : Session} (hsess : h.store.sessions cfg.sessionID = some sess) :
      ServeTrans cfg c h dev k .getSession h (.serving dev k (.getEvents sess)) []
  | getEvents {sess : Session} :
      ServeTrans cfg c h dev k (.getEvents sess) h
        (.serving dev k (.getSince
          (Store.snapshotOf cfg.sessionID sess (h.store.events cfg.sessionID)))) []
  | getSince {snap : Snapshot} :
      ServeTrans cfg c h dev k (.getSince snap) h
        (.serving dev k (.register snap (h.store.getEventsSince cfg.sessionID k 0))) []
  | register {snap : Snapshot} {events : List EventPayload} {payload : SnapshotPayload} {h1 h2 : Hub}
      {os : List Obs}
      (hh1 : h1 = { h with
        clients := insert c h.clients
        outbound := Function.update h.outbound c { writing := true } })
      (henq : enqueueAll cfg h1 c (.snapshot payload :: events.map .event) = (h2, os)) :
      ServeTrans cfg c h dev k (.register snap events) h2 (.reading dev) (.registered c dev k :: os)
  | quit {pc : ServePc} {msg : String} :
      ServeTrans cfg c h dev k pc h .closed [.direct c (.error "" .serverError msg)]

theorem serveStep_trans {cfg : Config} {c : ConnId} {h h' : Hub} {dev : DeviceID} {k : Int}
    {pc : ServePc} {ch : Choice} {ph : ConnPhase} {os : List Obs}
    (hs : serveStep cfg c h dev k pc ch = some (h', ph, os)) :
    ServeTrans cfg c h dev k pc h' ph os := by
  unfold serveStep at hs
  split at hs
  · -- the session row
    split at hs
    · cases hs
      exact .quit
    · rename_i sess hsess
      cases hs
      exact .getSession hsess
  · cases hs
    exact .quit
  · -- the events
    cases hs
    exact .getEvents
  · cases hs
    exact .quit
  · -- the catch-up
    cases hs
    exact .getSince
  · cases hs
    exact .quit
  · -- the registration
    cases hs
    exact .register rfl rfl
  · cases hs

/-! ## Handling a command -/

/-- What the switch of `handleCommand` does before the append. -/
inductive ExecuteTrans (c : ConnId) (h : Hub) : Hub → HandlerPc → List Obs → Prop
  /-- an answer claims its pending request -/
  | claim {out : AgentCommand} {a : Answer} (hout : answerOf out = some a)
      (hpend : h.isPending a.ask = true) :
      ExecuteTrans c h (h.claim a.ask) (.append out) [.claimed c a.ask]
  /-- a prompt, a mode change or an interrupt needs nothing -/
  | proceed {out : AgentCommand} (hout : answerOf out = none) : ExecuteTrans c h h (.append out) []
  | refuse {code : ErrorCode} {msg : String} (hcode : code ≠ .agentError) :
      ExecuteTrans c h h (.reject code msg) []

theorem execute_trans {c : ConnId} {h h' : Hub} {cmd : CommandPayload} {pc : HandlerPc}
    {os : List Obs} (hs : execute c h cmd = (h', pc, os)) : ExecuteTrans c h h' pc os := by
  unfold execute at hs
  split at hs
  · -- `send_prompt`
    split at hs
    · cases hs
      exact .refuse (by decide)
    · cases hs
      exact .proceed rfl
  · -- `answer_permission`
    split at hs
    · cases hs
      exact .refuse (by decide)
    · rename_i body _
      split at hs
      · rename_i hpend
        cases hs
        exact ExecuteTrans.claim (a := .permission body.requestID body.allow) rfl hpend
      · cases hs
        exact .refuse (by decide)
  · -- `answer_question`
    split at hs
    · cases hs
      exact .refuse (by decide)
    · rename_i body _
      split at hs
      · rename_i hpend
        cases hs
        exact ExecuteTrans.claim (a := .question body.questionID body.text) rfl hpend
      · cases hs
        exact .refuse (by decide)
  · -- `set_mode`: an empty mode is refused like a payload that does not decode
    split at hs
    · cases hs
      exact .refuse (by decide)
    · split at hs
      · cases hs
        exact .refuse (by decide)
      · cases hs
        exact .proceed rfl
  · -- `interrupt`
    cases hs
    exact .proceed rfl
  · -- an unknown kind
    cases hs
    exact .refuse (by decide)

inductive HandleTrans (cfg : Config) (c : ConnId) (h : Hub) (dev : DeviceID) (cmd : CommandPayload) :
    HandlerPc → Choice → Hub → ConnPhase → List Obs → Prop
  | noId {ch : Choice} (hid : cmd.id = "") :
      HandleTrans cfg c h dev cmd .start ch
        (enqueueRaw cfg h c (.error "" .badRequest "command id required")).1 (.reading dev)
        [(enqueueRaw cfg h c (.error "" .badRequest "command id required")).2]
  | suppress {ch : Choice} (hid : cmd.id ≠ "") (hseen : idempKey dev (key cmd) ∈ h.idempotency) :
      HandleTrans cfg c h dev cmd .start ch h (.handling dev cmd .replay)
        [.suppressed c dev (key cmd)]
  | accept {ch : Choice} (hid : cmd.id ≠ "") (hnew : idempKey dev (key cmd) ∉ h.idempotency) :
      HandleTrans cfg c h dev cmd .start ch
        { h with idempotency := insert (idempKey dev (key cmd)) h.idempotency }
        (.handling dev cmd .execute) [.accepted c dev (key cmd)]
  | replay {ch : Choice} :
      HandleTrans cfg c h dev cmd .replay ch (enqueueRaw cfg h c (.ack cmd.id 0)).1 (.reading dev)
        [.acked c dev (key cmd), (enqueueRaw cfg h c (.ack cmd.id 0)).2]
  | execute {ch : Choice} {h' : Hub} {pc : HandlerPc} {os : List Obs}
      (hex : ExecuteTrans c h h' pc os) :
      HandleTrans cfg c h dev cmd .execute ch h' (.handling dev cmd pc) os
  | append {ch : Choice} {out : AgentCommand} {ev : EventPayload} {st : Store}
      (happ : h.store.appendEvent cfg.sessionID (commandEvent dev out).1 (commandEvent dev out).2 h.now =
        some (ev, st)) :
      HandleTrans cfg c h dev cmd (.append out) ch { h with store := st }
        (.handling dev cmd (.ack ev out)) [.appended (.command c dev (key cmd)) ev]
  | appendFails {ch : Choice} {out : AgentCommand} {msg : String} :
      HandleTrans cfg c h dev cmd (.append out) ch h
        (.handling dev cmd (.reject .serverError msg)) []
  | ack {ch : Choice} {ev : EventPayload} {out : AgentCommand} :
      HandleTrans cfg c h dev cmd (.ack ev out) ch (enqueueRaw cfg h c (.ack cmd.id ev.seq)).1
        (.handling dev cmd (.broadcast ev out .copy))
        [.acked c dev (key cmd), (enqueueRaw cfg h c (.ack cmd.id ev.seq)).2]
  | broadcast {ch : Choice} {ev : EventPayload} {out : AgentCommand} {pc pc' : BroadcastPc} {h' : Hub}
      {os : List Obs} (hb : BroadcastTrans cfg h ev pc h' (some pc') os) :
      HandleTrans cfg c h dev cmd (.broadcast ev out pc) ch h'
        (.handling dev cmd (.broadcast ev out pc')) os
  | broadcastDone {ch : Choice} {ev : EventPayload} {out : AgentCommand} {pc : BroadcastPc} {h' : Hub}
      {os : List Obs} (hb : BroadcastTrans cfg h ev pc h' none os) :
      HandleTrans cfg c h dev cmd (.broadcast ev out pc) ch h' (.handling dev cmd (.command ev out)) os
  | command {ch : Choice} {ev : EventPayload} {out : AgentCommand} :
      HandleTrans cfg c h dev cmd (.command ev out) ch h (.reading dev)
        [.handed c dev (key cmd) out true]
  | commandFails {ev : EventPayload} {out : AgentCommand} {msg : String} :
      HandleTrans cfg c h dev cmd (.command ev out) (.call (.err msg)) h
        (.handling dev cmd (.reject .agentError msg)) [.handed c dev (key cmd) out false]
  | reject {ch : Choice} {code : ErrorCode} {msg : String} :
      HandleTrans cfg c h dev cmd (.reject code msg) ch (enqueueRaw cfg h c (.error cmd.id code msg)).1
        (.reading dev)
        [.rejected c dev (key cmd) code, (enqueueRaw cfg h c (.error cmd.id code msg)).2]

theorem handleStep_trans {cfg : Config} {c : ConnId} {h h' : Hub} {dev : DeviceID}
    {cmd : CommandPayload} {pc : HandlerPc} {ch : Choice} {ph : ConnPhase} {os : List Obs}
    (hs : handleStep cfg c h dev cmd pc ch = some (h', ph, os)) :
    HandleTrans cfg c h dev cmd pc ch h' ph os := by
  unfold handleStep at hs
  split at hs
  · -- the start: the id, then the key
    split at hs
    · rename_i hid
      cases hs
      exact .noId hid
    · rename_i hid
      split at hs
      · rename_i hseen
        cases hs
        exact .suppress hid hseen
      · rename_i hnew
        cases hs
        exact .accept hid hnew
  · -- a replay
    cases hs
    exact .replay
  · -- the switch
    cases hs
    exact .execute (execute_trans rfl)
  · -- the append
    simp only at hs
    split at hs
    · cases hs
    · rename_i ev st happ
      cases hs
      exact .append happ
  · -- the append fails
    cases hs
    exact .appendFails
  · -- the ack
    cases hs
    exact .ack
  · -- the broadcast, until it is done
    simp only [Option.map_eq_some_iff] at hs
    obtain ⟨⟨h1, pc', os'⟩, hb, he⟩ := hs
    cases he
    cases pc' with
    | none => exact .broadcastDone (broadcastStep_trans hb)
    | some pc' => exact .broadcast (broadcastStep_trans hb)
  · -- the adapter
    cases hs
    exact .command
  · -- the adapter fails
    cases hs
    exact .commandFails
  · -- an error frame
    cases hs
    exact .reject
  · cases hs

/-! ## A connection -/

inductive ConnTrans (cfg : Config) (c : ConnId) (h : Hub) :
    ConnPhase → Choice → Hub → ConnPhase → List Obs → Prop
  | authenticated {hc ra ua : String} {p : HelloPayload} {out : Outcome} {dev : DeviceID}
      (hcred : effectiveCredential hc p ≠ "")
      (hval : validateCredential h.store cfg.hashCredential (effectiveCredential hc p) = some dev)
      (hdev : p.deviceID = "" ∨ p.deviceID = dev.val) :
      ConnTrans cfg c h (.readHello hc ra ua) (.hello p out) h (.serving dev p.lastSeq .getSession) []
  | unauthenticated {hc ra ua : String} {p : HelloPayload} {out : Outcome}
      (htok : p.pairingToken ≠ "") :
      ConnTrans cfg c h (.readHello hc ra ua) (.hello p out) h
        (.pairing ⟨p.pairingToken, ra, ua⟩ .peek) []
  | turnedAway {hc ra ua : String} {ch : Choice} {os : List Obs}
      (hos : ∀ o ∈ os, ∃ code msg, o = .direct c (.error "" code msg)) :
      ConnTrans cfg c h (.readHello hc ra ua) ch h .closed os
  | pairing {p : Attempt} {pc : PairPc} {ch : Choice} {h' : Hub} {ph : ConnPhase} {os : List Obs}
      (ht : PairTrans cfg c h p pc ch h' ph os) : ConnTrans cfg c h (.pairing p pc) ch h' ph os
  | serving {dev : DeviceID} {k : Int} {pc : ServePc} {ch : Choice} {h' : Hub} {ph : ConnPhase}
      {os : List Obs} (ht : ServeTrans cfg c h dev k pc h' ph os) :
      ConnTrans cfg c h (.serving dev k pc) ch h' ph os
  | frame {dev : DeviceID} {ch : Choice} {cmd : CommandPayload} :
      ConnTrans cfg c h (.reading dev) ch h (.handling dev cmd .start) []
  | skip {dev : DeviceID} {ch : Choice} : ConnTrans cfg c h (.reading dev) ch h (.reading dev) []
  | gone {dev : DeviceID} {ch : Choice} :
      ConnTrans cfg c h (.reading dev) ch { h with clients := h.clients.erase c } .closed []
  | handling {dev : DeviceID} {cmd : CommandPayload} {pc : HandlerPc} {ch : Choice} {h' : Hub}
      {ph : ConnPhase} {os : List Obs} (ht : HandleTrans cfg c h dev cmd pc ch h' ph os) :
      ConnTrans cfg c h (.handling dev cmd pc) ch h' ph os

/-- The four ways out of `handleConnection`'s dispatch. -/
theorem handleConnection_trans {cfg : Config} {c : ConnId} {h : Hub} {hc ra ua : String}
    {p : HelloPayload} {out : Outcome} {ph : ConnPhase} {os : List Obs}
    (hs : handleConnection cfg c h hc ra ua p out = (ph, os)) :
    ConnTrans cfg c h (.readHello hc ra ua) (.hello p out) h ph os := by
  unfold handleConnection at hs
  simp only at hs
  split at hs
  · rename_i dev hval
    split at hval
    · rename_i hguard
      split at hs
      · cases hs
        exact .turnedAway fun o ho => ⟨_, _, List.mem_singleton.mp ho⟩
      · rename_i hdev
        cases hs
        exact .authenticated hguard.1 hval (by
          rw [not_and_or, not_not, not_not] at hdev
          exact hdev)
    · cases hval
  · split at hs
    · cases hs
      exact .turnedAway fun o ho => ⟨_, _, List.mem_singleton.mp ho⟩
    · rename_i htok
      cases hs
      exact .unauthenticated htok

theorem connStep_trans {cfg : Config} {c : ConnId} {h h' : Hub} {ph ph' : ConnPhase} {ch : Choice}
    {os : List Obs} (hs : connStep cfg c h ph ch = some (h', ph', os)) :
    ConnTrans cfg c h ph ch h' ph' os := by
  unfold connStep at hs
  split at hs
  · cases hs
    exact handleConnection_trans rfl
  · cases hs
    exact .turnedAway fun o ho => absurd ho List.not_mem_nil
  · exact .pairing (pairStep_trans hs)
  · exact .serving (serveStep_trans hs)
  · cases hs
    exact .frame
  · cases hs
    exact .skip
  · cases hs
    exact .gone
  · exact .handling (handleStep_trans hs)
  · cases hs

/-! ## Ingestion -/

inductive IngestTrans (cfg : Config) (h : Hub) :
    IngestPhase → Choice → Hub → IngestPhase → List Obs → Prop
  | receive {kind : EventKind} {payload : Json} :
      IngestTrans cfg h .idle (.adapterEvent kind payload) h (.append kind payload) []
  | append {kind : EventKind} {payload : Json} {ch : Choice} {ev : EventPayload} {st : Store}
      (happ : h.store.appendEvent cfg.sessionID kind payload h.now = some (ev, st)) :
      IngestTrans cfg h (.append kind payload) ch { h with store := st } (.note ev)
        [.appended .ingest ev]
  | appendFails {kind : EventKind} {payload : Json} {ch : Choice} :
      IngestTrans cfg h (.append kind payload) ch h .idle []
  | note {ev : EventPayload} {ch : Choice} :
      IngestTrans cfg h (.note ev) ch (note h ev).1 (.broadcast ev .copy) (note h ev).2
  | broadcast {ev : EventPayload} {pc pc' : BroadcastPc} {ch : Choice} {h' : Hub} {os : List Obs}
      (hb : BroadcastTrans cfg h ev pc h' (some pc') os) :
      IngestTrans cfg h (.broadcast ev pc) ch h' (.broadcast ev pc') os
  | broadcastDone {ev : EventPayload} {pc : BroadcastPc} {ch : Choice} {h' : Hub} {os : List Obs}
      (hb : BroadcastTrans cfg h ev pc h' none os) :
      IngestTrans cfg h (.broadcast ev pc) ch h' .idle os

theorem ingestStep_trans {cfg : Config} {h h' : Hub} {ph ph' : IngestPhase} {ch : Choice}
    {os : List Obs} (hs : ingestStep cfg h ph ch = some (h', ph', os)) :
    IngestTrans cfg h ph ch h' ph' os := by
  unfold ingestStep at hs
  split at hs
  · cases hs
    exact .receive
  · split at hs
    · cases hs
    · rename_i ev st happ
      cases hs
      exact .append happ
  · cases hs
    exact .appendFails
  · cases hs
    exact .note
  · simp only [Option.map_eq_some_iff] at hs
    obtain ⟨⟨h1, pc', os'⟩, hb, he⟩ := hs
    cases he
    cases pc' with
    | none => exact .broadcastDone (broadcastStep_trans hb)
    | some pc' => exact .broadcast (broadcastStep_trans hb)
  · cases hs

/-! ## The world -/

/-- What a write loop does: it takes frames from the front of its queue, or stops. -/
theorem writeStep_spec {h h' : Hub} {c : ConnId} {ch : WriteChoice} {os : List Obs}
    (hs : writeStep h c ch = some (h', os)) :
    (h.outbound c).writing = true ∧
    ∃ q, h' = { h with outbound := Function.update h.outbound c q } ∧
      ((∃ f, os = [.written c f] ∧ (h.outbound c).send = f :: q.send ∧ q.writing = true) ∨ os = []) := by
  unfold writeStep at hs
  simp only at hs
  split at hs
  · rename_i hw
    refine ⟨hw, ?_⟩
    split at hs
    · rename_i f rest hsend
      cases hs
      exact ⟨_, rfl, .inl ⟨f, rfl, hsend, hw⟩⟩
    · cases hs
      exact ⟨_, rfl, .inr rfl⟩
    · split at hs
      · cases hs
        exact ⟨_, rfl, .inr rfl⟩
      · cases hs
    · cases hs
      exact ⟨_, rfl, .inr rfl⟩
    · cases hs
  · cases hs

/-- **One step of the daemon.** -/
inductive StepTrans (cfg : Config) (w : World) : Action → World → List Obs → Prop
  | accept {authorization hc ra ua : String} :
      StepTrans cfg w (.accept authorization ra ua)
        { w with conns := w.conns ++ [.readHello hc ra ua] } []
  | conn {c : ConnId} {ch : Choice} {ph ph' : ConnPhase} {h' : Hub} {os : List Obs}
      (hph : w.conns[c]? = some ph) (ht : ConnTrans cfg c w.hub ph ch h' ph' os) :
      StepTrans cfg w (.conn c ch) { w with hub := h', conns := w.conns.set c ph' } os
  | ingest {ch : Choice} {ph' : IngestPhase} {h' : Hub} {os : List Obs}
      (ht : IngestTrans cfg w.hub w.ingest ch h' ph' os) :
      StepTrans cfg w (.ingest ch) { w with hub := h', ingest := ph' } os
  | write {c : ConnId} {ch : WriteChoice} {q : Outbound} {os : List Obs}
      (hw : (w.hub.outbound c).writing = true)
      (hos : (∃ f, os = [.written c f] ∧ (w.hub.outbound c).send = f :: q.send ∧ q.writing = true) ∨
        os = []) :
      StepTrans cfg w (.write c ch)
        { w with hub := { w.hub with outbound := Function.update w.hub.outbound c q } } os
  | pairGenerate {raw : Vector UInt8 32} {ttl : Int} {token : String} {expiresAt : Int} {st : Store}
      (hst : w.hub.store.createPendingToken token expiresAt = some st) :
      StepTrans cfg w (.pairGenerate raw ttl) { w with hub := { w.hub with store := st } }
        [.tokenCreated token]
  | pairApproveGet {token name : String} :
      StepTrans cfg w (.pairApproveGet token name)
        { w with approving := (token, name) :: w.approving } []
  | pairApproveSet {token name : String} {st : Store} {rest : List (String × String)}
      (hst : w.hub.store.approvePendingToken token name = some st) :
      StepTrans cfg w (.pairApproveSet token name)
        { w with hub := { w.hub with store := st }, approving := rest } [.approved .outOfBand token]
  | pairApproveLost {token name : String} {rest : List (String × String)} :
      StepTrans cfg w (.pairApproveSet token name) { w with approving := rest } []
  | pairRevoke {deviceID : String} :
      StepTrans cfg w (.pairRevoke deviceID)
        { w with hub := { w.hub with store := w.hub.store.revokeDevice deviceID } }
        [.revoked deviceID]
  | clock {now : Int} : StepTrans cfg w (.clock now) { w with hub := { w.hub with now := now } } []

theorem World.step_trans {cfg : Config} {w w' : World} {a : Action} {os : List Obs}
    (hs : w.step cfg a = some (w', os)) : StepTrans cfg w a w' os := by
  unfold World.step at hs
  split at hs
  · cases hs
    exact .accept
  · split at hs
    · cases hs
    · rename_i hph
      simp only [Option.map_eq_some_iff] at hs
      obtain ⟨⟨h', ph', os'⟩, hc, he⟩ := hs
      cases he
      exact .conn hph (connStep_trans hc)
  · simp only [Option.map_eq_some_iff] at hs
    obtain ⟨⟨h', ph', os'⟩, hi, he⟩ := hs
    cases he
    exact .ingest (ingestStep_trans hi)
  · simp only [Option.map_eq_some_iff] at hs
    obtain ⟨⟨h', os'⟩, hw, he⟩ := hs
    cases he
    obtain ⟨hwr, q, rfl, hos⟩ := writeStep_spec hw
    exact .write hwr hos
  · simp only [Option.map_eq_some_iff] at hs
    obtain ⟨st, hst, he⟩ := hs
    cases he
    exact .pairGenerate hst
  · split at hs
    · cases hs
      exact .pairApproveGet
    · cases hs
  · split at hs
    · split at hs
      · rename_i st hst
        cases hs
        exact .pairApproveSet hst
      · cases hs
        exact .pairApproveLost
    · cases hs
  · cases hs
    exact .pairRevoke
  · cases hs
    exact .clock

end Harness.Hub
