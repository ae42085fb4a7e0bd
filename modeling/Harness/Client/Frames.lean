/-
# Harness.Client.Frames — arbitrary JSON values as frames.

`parseEnvelope` checks that a frame is a record with a type; what is in the record is read member by member.
Most members go through a reader and are of their type whatever the frame holds. Five places take a value as
it comes: the session id of a snapshot, the members of its pending requests, the name `nameFor` finds in a
plain object, the two members of an error that go into a template literal, and the credential that goes into a
header.

`TypedState` says that a session state is of its declared type, `WellFormed` says of a step that none of the
five is hit by a value of another type, and `frames_typed` is the law of the runs that meet it: the state stays
typed and no exception leaves a turn.
-/
import Harness.Client.Identity
import Harness.Client.Standing
import Harness.Client.Tail
import Harness.Client.Stream

namespace Harness.Client

open Lib
open Hub (Ask)
open Wire (Json)

/-! ## Types -/

/-- `string`. -/
def JsValue.IsString (v : JsValue) : Prop := ∃ s, v = .str s

/-- `string | null`. -/
def JsValue.IsSessionId (v : JsValue) : Prop := v = .null ∨ v.IsString

structure PermissionView.Typed (v : PermissionView) : Prop where
  requestId : v.requestId.IsString
  kind : v.kind.IsString
  summary : v.summary.IsString

structure QuestionView.Typed (v : QuestionView) : Prop where
  questionId : v.questionId.IsString
  text : v.text.IsString

/-- The `byName` of a resolved item. -/
def shownName (item : Item) : Option Attribution :=
  match item.body with
  | .permission _ _ _ (some resolution) => some resolution.byName
  | .question _ _ (some answer) => some answer.byName
  | _ => none

/-- The names the items show. -/
def shownNames (items : List Item) : List Attribution := items.filterMap shownName

/-- **`TypedState s`** — the members that are stored without a reader are of their declared types. The
others are so by the type of `SessionState`. -/
structure TypedState (s : SessionState) : Prop where
  sessionId : s.sessionId.IsSessionId
  pendingPermissions : ∀ v ∈ s.pendingPermissions, v.Typed
  pendingQuestions : ∀ v ∈ s.pendingQuestions, v.Typed
  names : ∀ n ∈ shownNames s.items, ∃ units, n = .text units

theorem typedState_new : TypedState newSessionState :=
  ⟨.inl rfl, fun _ h => (List.not_mem_nil h).elim, fun _ h => (List.not_mem_nil h).elim,
    fun _ h => (List.not_mem_nil h).elim⟩

/-! ## Snapshots -/

/-- **`FirstOf key xs x`** — `x` is an element of `xs`, and none before it has its key. -/
def FirstOf {T : Type} (key : T → JsValue) (xs : List T) (x : T) : Prop :=
  ∃ before after, xs = before ++ x :: after ∧ ∀ y ∈ before, (key y).strictEq (key x) = false

theorem firstOf_of_mem_dedupeByFrom {T : Type} {key : T → JsValue} {x : T} :
    ∀ {seen : List JsValue} {xs : List T}, x ∈ dedupeByFrom key seen xs →
      FirstOf key xs x ∧ ∀ v ∈ seen, (key x).strictEq v = false := by
  intro seen xs
  induction xs generalizing seen with
  | nil => exact fun h => (List.not_mem_nil h).elim
  | cons y ys ih =>
      intro h
      rw [dedupeByFrom] at h
      split at h
      · rename_i hseen
        obtain ⟨⟨before, after, rfl, hbefore⟩, hnot⟩ := ih h
        refine ⟨⟨y :: before, after, rfl, List.forall_mem_cons.mpr ⟨?_, hbefore⟩⟩, hnot⟩
        -- `y` has a key that was seen, and the key of `x` was not
        obtain ⟨v, hv, heq⟩ := List.any_eq_true.mp hseen
        rw [Bool.eq_false_iff]
        intro hxy
        rw [JsValue.eq_of_strictEq hxy, hnot v hv] at heq
        cases heq
      · rename_i hseen
        rw [Bool.not_eq_true, List.any_eq_false] at hseen
        rcases List.mem_cons.mp h with rfl | h
        · exact ⟨⟨[], ys, rfl, fun _ h => (List.not_mem_nil h).elim⟩,
            fun v hv => Bool.eq_false_iff.mpr (hseen v hv)⟩
        · obtain ⟨⟨before, after, rfl, hbefore⟩, hnot⟩ := ih h
          refine ⟨⟨y :: before, after, rfl, List.forall_mem_cons.mpr ⟨?_, hbefore⟩⟩,
            fun v hv => hnot v (List.mem_cons_of_mem _ hv)⟩
          rw [JsValue.strictEq_comm]
          exact hnot _ List.mem_cons_self

theorem firstOf_of_mem_dedupeBy {T : Type} {key : T → JsValue} {xs : List T} {x : T}
    (h : x ∈ dedupeBy key xs) : FirstOf key xs x := (firstOf_of_mem_dedupeByFrom h).1

/-- **`SnapshotTyped snap`** — the session id of a snapshot is a string or null, and the members of a pending
request are strings, where it is the first of its id. -/
structure SnapshotTyped (snap : JsRecord) : Prop where
  sessionId : (snap.get "sessionId").IsSessionId
  permissions : ∀ v, FirstOf (·.requestId) (permissionViews (asArray (snap.get "pendingPermissions"))) v →
    v.Typed
  questions : ∀ v, FirstOf (·.questionId) (questionViews (asArray (snap.get "pendingQuestions"))) v →
    v.Typed

theorem TypedState.applySnapshot {s : SessionState} (h : TypedState s) {snap : JsRecord}
    (hsnap : SnapshotTyped snap) : TypedState (applySnapshot s snap) where
  sessionId := hsnap.sessionId
  pendingPermissions v hv := hsnap.permissions v (firstOf_of_mem_dedupeBy hv)
  pendingQuestions v hv := hsnap.questions v (firstOf_of_mem_dedupeBy hv)
  names := by
    have hbase : ∀ n ∈ shownNames (snapshotBase s snap).items, ∃ units, n = .text units := by
      unfold snapshotBase
      split
      · exact typedState_new.names
      · exact h.names
    exact hbase

/-! ## Events -/

/-- The name an operation writes into an item. -/
def ItemOp.byName : ItemOp → Option Attribution
  | .resolve _ resolution => some resolution.byName
  | .answer _ resolved => some resolved.byName
  | _ => none

/-- **A name on the screen** was there before, or is the one that the operation writes into an item. -/
theorem shownNames_run (items : List Item) (op : ItemOp) {n : Attribution}
    (hn : n ∈ shownNames (op.run items)) :
    n ∈ shownNames items ∨
      ∃ a, op.settled = some a ∧ items.any (·.asks a) = true ∧ op.byName = some n := by
  have hassistant : ∀ (item : Item) (text : JsString) (sealed : Bool),
      item.body = .assistant text sealed → shownName item = none := by
    intro item text sealed hbody
    rw [shownName, hbody]
  have htool : ∀ (item : Item) (m : String) (input out : Option String) (done : Bool),
      item.body = .tool m input out done → shownName item = none := by
    intro item m input out done hbody
    rw [shownName, hbody]
  have hold : ∀ xs : List Item, n ∈ shownNames xs → xs.filterMap shownName = items.filterMap shownName →
      n ∈ shownNames items := fun xs h heq => by rwa [shownNames, heq] at h
  -- a resolution that is written into the items of its request
  have hmap : ∀ (f : Item → Item) (a : Ask) (name : Attribution), op.settled = some a →
      op.byName = some name → (∀ y m, shownName (f y) = some m →
        shownName y = some m ∨ (y.asks a = true ∧ m = name)) →
      n ∈ shownNames (items.map f) → n ∈ shownNames items ∨
        ∃ a, op.settled = some a ∧ items.any (·.asks a) = true ∧ op.byName = some n := by
    intro f a name hset hname hf hmem
    obtain ⟨x, hx, hshown⟩ := List.mem_filterMap.mp hmem
    obtain ⟨y, hy, rfl⟩ := List.mem_map.mp hx
    rcases hf y n hshown with hsame | ⟨hasks, rfl⟩
    · exact .inl (List.mem_filterMap.mpr ⟨y, hy, hsame⟩)
    · exact .inr ⟨a, hset, List.any_eq_true.mpr ⟨y, hy, hasks⟩, hname⟩
  cases op with
  | keep => exact .inl hn
  | say seq ts content => exact .inl (hold _ hn (filterMap_appendAssistant hassistant items seq ts content))
  | sealLast => exact .inl (hold _ hn (filterMap_sealOpenAssistant hassistant items))
  -- the name on a prompt is none of those a resolution writes
  | prompt seq ts text byDevice =>
      exact .inl (hold _ hn ((filterMap_push _ rfl).trans (filterMap_sealOpenAssistant hassistant items)))
  | startTool seq ts name input => exact .inl (hold _ hn (filterMap_push items rfl))
  | endTool seq ts name output =>
      refine .inl (hold _ hn ?_)
      show ((finishTool name output items).getD _).filterMap _ = _
      cases hf : finishTool name output items with
      | none => exact filterMap_push items rfl
      | some items' => exact filterMap_finishTool htool hf
  | permission => exact .inl (hold _ hn (filterMap_addUnless items _ rfl))
  | question => exact .inl (hold _ hn (filterMap_addUnless items _ rfl))
  | resolve requestId resolution =>
      refine hmap _ (.permission requestId) resolution.byName rfl rfl (fun y m h => ?_) hn
      obtain ⟨id, seq, ts, body⟩ := y
      cases body with
      | permission r kind summary old =>
          by_cases hr : r = requestId
          · refine .inr ⟨by simp [Item.asks, Item.isPermission, hr], ?_⟩
            simpa [shownName, resolvePermission, hr] using h.symm
          · exact .inl (by simpa [shownName, resolvePermission, hr] using h)
      | _ => exact .inl h
  | answer questionId resolved =>
      refine hmap _ (.question questionId) resolved.byName rfl rfl (fun y m h => ?_) hn
      obtain ⟨id, seq, ts, body⟩ := y
      cases body with
      | question q text old =>
          by_cases hq : q = questionId
          · refine .inr ⟨by simp [Item.asks, Item.isQuestion, hq], ?_⟩
            simpa [shownName, resolveQuestion, hq] using h.symm
          · exact .inl (by simpa [shownName, resolveQuestion, hq] using h)
      | _ => exact .inl h
  | notice seq ts text =>
      refine .inl (hold _ hn ?_)
      show (pushNotice items seq ts text .error).filterMap _ = _
      rw [pushNotice_eq, filterMap_push _ rfl]
      refine filterMap_dropNotices (fun item h => ?_) _ _
      obtain ⟨id, seq', ts', body⟩ := item
      cases body <;> first | rfl | cases h

/-- **`NamesInherited s ev`** — the event resolves a request that is on the screen, by a device whose id is
the name of a member of `Object.prototype` and not one of the names the state knows. -/
def NamesInherited (s : SessionState) (ev : EventPayload) : Prop :=
  (∃ a, ev.settled = some a ∧ s.items.any (·.asks a) = true) ∧
    asString (ev.body.get "byDevice") "" ∈ inheritedMembers ∧
    s.deviceNames.get (asString (ev.body.get "byDevice") "") = none

theorem nameFor_inherited {s : SessionState} {deviceId member : String}
    (h : nameFor s deviceId = .inherited member) :
    deviceId ∈ inheritedMembers ∧ s.deviceNames.get deviceId = none := by
  unfold nameFor at h
  split at h
  · cases h
  · split at h
    · cases h
    · rename_i hnone
      split at h
      · rename_i hin
        exact ⟨hin, hnone⟩
      · cases h

/-- The name written is the one of the device, and what is settled is what the event settles. -/
theorem itemOp_byName {s : SessionState} {ev : EventPayload} {n : Attribution}
    (h : (itemOp (nameFor s) ev).byName = some n) :
    n = nameFor s (asString (ev.body.get "byDevice") "") ∧
      (itemOp (nameFor s) ev).settled = ev.settled := by
  unfold itemOp EventPayload.reading EventPayload.settled at *
  cases hk : eventKind ev.kind with
  | permissionResolved => rw [hk] at h; exact ⟨(Option.some.inj h).symm, rfl⟩
  | questionResolved => rw [hk] at h; exact ⟨(Option.some.inj h).symm, rfl⟩
  | textDelta | permissionRequest | question =>
      rw [hk] at h
      simp only [Reading.itemOp] at h
      split at h <;> cases h
  | _ => rw [hk] at h; cases h

/-- The pending lists get views of strings. -/
theorem typed_pending_applyEvent {s : SessionState} (ev : EventPayload)
    (hp : ∀ v ∈ s.pendingPermissions, v.Typed) (hq : ∀ v ∈ s.pendingQuestions, v.Typed) :
    (∀ v ∈ (applyEvent s ev).pendingPermissions, v.Typed) ∧
      ∀ v ∈ (applyEvent s ev).pendingQuestions, v.Typed := by
  unfold Client.applyEvent
  cases eventKind ev.kind with
  | permissionRequest =>
      simp only
      split
      · exact ⟨hp, hq⟩
      · refine ⟨fun v hv => ?_, hq⟩
        rcases List.mem_append.mp (mem_of_mem_dedupeBy hv) with hv | hv
        · exact hp v hv
        · rw [List.mem_singleton.mp hv]
          exact ⟨⟨_, rfl⟩, ⟨_, rfl⟩, ⟨_, rfl⟩⟩
  | permissionResolved => exact ⟨fun v hv => hp v (List.mem_filter.mp hv).1, hq⟩
  | question =>
      simp only
      split
      · exact ⟨hp, hq⟩
      · refine ⟨hp, fun v hv => ?_⟩
        rcases List.mem_append.mp (mem_of_mem_dedupeBy hv) with hv | hv
        · exact hq v hv
        · rw [List.mem_singleton.mp hv]
          exact ⟨⟨_, rfl⟩, ⟨_, rfl⟩⟩
  | questionResolved => exact ⟨hp, fun v hv => hq v (List.mem_filter.mp hv).1⟩
  | textDelta => simp only; split <;> exact ⟨hp, hq⟩
  | _ => exact ⟨hp, hq⟩

theorem TypedState.applyEvent {s : SessionState} (h : TypedState s) {ev : EventPayload}
    (hev : ¬ NamesInherited s ev) : TypedState (applyEvent s ev) where
  sessionId := by rw [applyEvent_sessionId]; exact h.sessionId
  pendingPermissions := (typed_pending_applyEvent ev h.pendingPermissions h.pendingQuestions).1
  pendingQuestions := (typed_pending_applyEvent ev h.pendingPermissions h.pendingQuestions).2
  names := by
    intro n hn
    rw [applyEvent_items] at hn
    rcases shownNames_run s.items _ hn with hold | ⟨a, hset, hany, hname⟩
    · exact h.names n hold
    · obtain ⟨rfl, hsame⟩ := itemOp_byName hname
      cases hname' : nameFor s (asString (ev.body.get "byDevice") "") with
      | text units => exact ⟨units, rfl⟩
      | inherited member =>
          exact absurd ⟨⟨a, hsame ▸ hset, hany⟩, nameFor_inherited hname'⟩ hev

/-- With what is trimmed after the event. -/
theorem TypedState.nextSession {c : HarnessClient} (h : TypedState c.session) {ev : EventPayload}
    (hev : ¬ NamesInherited c.session ev) : TypedState (c.nextSession ev) := by
  have hnext := h.applyEvent hev
  unfold HarnessClient.nextSession
  cases c.maxItems with
  | none => exact hnext
  | some max =>
      refine ⟨hnext.sessionId, hnext.pendingPermissions, hnext.pendingQuestions, fun n hn => ?_⟩
      refine hnext.names n (List.Sublist.subset (List.Sublist.filterMap _ ?_) hn)
      show (trimItems _ max).Sublist _
      rw [trimItems_eq_rtake]
      exact List.drop_sublist _ _

/-! ## Exceptions -/

/-- The two members of an error that go into the text of a rejection can be converted. -/
def Renderable (err : JsRecord) : Prop :=
  ((err.get "code").templateOk && (err.get "message").templateOk) = true

/-- A credential that goes into a header can be converted. -/
def Presentable (authMode : AuthMode) (credential : JsValue) : Prop :=
  authMode = .header → credential.templateOk = true

/-- **`TypedCalls`** — the identities the app hands over are of the declared type. -/
def TypedCalls (_ : List Obs) (_ : HarnessClient) (a : Action) : Prop :=
  ∀ identity env, a = .connect (some identity) env ∨ a = .setIdentity (some identity) →
    identity.credential.IsString

/-- **`WellFormed`** — the condition on a step: what is stored, or converted, without a reader has the type
it is taken for. -/
structure WellFormed (tr : List Obs) (c : HarnessClient) (a : Action) : Prop where
  calls : TypedCalls tr c a
  snapshot : ∀ snap, Delivered c a (.snapshot snap) → SnapshotTyped snap
  event : ∀ ev q, Delivered c a (.event ev) → HarnessClient.seqOf ev = .finite q →
    c.session.lastSeq < q → q ≤ c.session.lastSeq + 1 → ¬ NamesInherited c.session (HarnessClient.eventOf ev q)
  error : ∀ err id, Delivered c a (.error err) → (err.get "commandId").isFalsy = false →
    c.unsettled (err.get "commandId") = some id → Renderable err
  refusal : ∀ err, Pairs c a (.error err) → Renderable err
  credential : ∀ p, Pairs c a (.paired p) → Presentable c.authMode (p.get "credential")

/-- **`Fine c`** — no exception so far, and none to come from a credential the client holds. -/
structure Fine (c : HarnessClient) : Prop where
  quiet : Obs.threw ∉ c.out
  identity : ∀ identity, c.identity = some identity → Presentable c.authMode identity.credential
  resumptions : ∀ identity ∈ c.resumptions, Presentable c.authMode identity.credential

namespace Fine

variable {c c' : HarnessClient}

theorem update (h : Fine c) (hauth : c'.authMode = c.authMode) (hid : c'.identity = c.identity)
    (hres : c'.resumptions = c.resumptions) (hout : c'.out = c.out) : Fine c' :=
  ⟨hout ▸ h.quiet, by rw [hauth, hid]; exact h.identity, by rw [hauth, hres]; exact h.resumptions⟩

theorem emit (h : Fine c) {o : Obs} (ho : o ≠ .threw) : Fine (c.emit o) where
  quiet hmem := by
    rcases List.mem_append.mp hmem with hmem | hmem
    · exact h.quiet hmem
    · exact ho (List.mem_singleton.mp hmem).symm
  identity := h.identity
  resumptions := h.resumptions

theorem setPhase (h : Fine c) (phase : ConnPhase) : Fine (c.setPhase phase) :=
  (h.update rfl rfl rfl rfl : Fine { c with phase := phase }).emit nofun

theorem modifySocket (h : Fine c) (i : SocketId) (f : Socket → Socket) : Fine (c.modifySocket i f) :=
  h.update rfl rfl rfl rfl

theorem createSocket (h : Fine c) (role : SocketRole) (authorization : Option JsValue) :
    Fine (c.createSocket role authorization) := by
  refine emit (o := .created c.sockets.length) ?_ nofun
  exact h.update rfl rfl rfl rfl

theorem scheduleReconnect (h : Fine c) (env : Env) : Fine (c.scheduleReconnect env) := by
  unfold HarnessClient.scheduleReconnect
  split
  · exact h
  · exact update (setPhase (c := { c with retryAttempt := c.retryAttempt + 1, retryInMs := _ })
      (h.update rfl rfl rfl rfl) .reconnecting) rfl rfl rfl rfl

theorem detachAndClose (h : Fine c) (env : Env) : Fine (c.detachAndClose env) := by
  unfold HarnessClient.detachAndClose
  split
  · exact h
  · exact h.update rfl rfl rfl rfl

theorem flushOutbox (h : Fine c) : Fine c.flushOutbox := by
  obtain ⟨os, heq, hos⟩ := c.flushOutbox_spec
  rw [heq]
  refine ⟨fun hmem => ?_, h.identity, h.resumptions⟩
  rcases List.mem_append.mp hmem with hmem | hmem
  · exact h.quiet hmem
  · obtain ⟨i, cmd, hsent, -⟩ := hos _ hmem
    cases hsent

/-- The header can be built. -/
theorem openNormalSocket (h : Fine c) (env : Env) : Fine (c.openNormalSocket env) := by
  unfold HarnessClient.openNormalSocket
  have hphase : Fine (c.setPhase (if c.session.sessionId.isNull then .connecting else .reconnecting)) :=
    h.setPhase _
  generalize c.setPhase (if c.session.sessionId.isNull then .connecting else .reconnecting) = d at hphase
  have hheader : d.authorization.any (fun v => !v.templateOk) = false := by
    unfold HarnessClient.authorization
    split
    · rename_i hauth
      cases hid : d.identity with
      | none => rfl
      | some identity => simp [hphase.identity identity hid hauth]
    · rfl
  have hdrop : Fine d.dropSession := by
    unfold HarnessClient.dropSession
    split
    · exact hphase.update rfl rfl rfl rfl
    · exact hphase
  dsimp only
  rw [hheader, if_neg Bool.false_ne_true]
  unfold HarnessClient.trySocket
  split
  · refine scheduleReconnect ?_ env
    exact hdrop.update rfl rfl rfl rfl
  · refine createSocket ?_ _ _
    exact hdrop.update rfl rfl rfl rfl

theorem connect (h : Fine c) {identity : Option Identity}
    (hid : ∀ i, identity = some i → Presentable c.authMode i.credential) (env : Env) :
    Fine (c.connect identity env) := by
  unfold HarnessClient.connect
  refine openNormalSocket ?_ env
  refine ⟨h.quiet, fun i hi => ?_, h.resumptions⟩
  have hi' : identity.or c.identity = some i := hi
  cases identity with
  | none => exact h.identity i hi'
  | some j => exact hid i hi'

theorem goLive (h : Fine c) : Fine (c.setPhase .live).flushOutbox := (h.setPhase .live).flushOutbox

theorem handleSnapshot (h : Fine c) (snap : JsRecord) : Fine (c.handleSnapshot snap) := by
  have htake : Fine (c.takeSnapshot snap) := by
    refine emit (o := .accepted (snap.get "sessionId") c.session.sessionId) ?_ nofun
    exact h.update rfl rfl rfl rfl
  unfold HarnessClient.handleSnapshot
  dsimp only
  split
  · exact htake.goLive
  · exact htake.setPhase _

theorem noteGap (h : Fine c) (seq : JsNumber) (env : Env) : Fine (c.noteGap seq env) := by
  have hcount : Fine (c.countGap seq) := by
    unfold HarnessClient.countGap
    dsimp only
    split <;> split <;> exact h.update rfl rfl rfl rfl
  have hgap : Fine ((c.countGap seq).emit (.gap seq)) := hcount.emit nofun
  exact (hgap.detachAndClose env).scheduleReconnect env

theorem acceptEvent (h : Fine c) (ev : EventPayload) : Fine (c.acceptEvent ev) := by
  have happlied : Fine (HarnessClient.emit
      { c with session := c.nextSession ev, gapSeq := none, gapCount := 0 }
      (.applied c.session.sessionId ev.seq)) := by
    refine emit ?_ nofun
    exact h.update rfl rfl rfl rfl
  unfold HarnessClient.acceptEvent
  dsimp only
  split
  · exact happlied.goLive
  · exact happlied.emit nofun

theorem handleEvent (h : Fine c) (ev : JsRecord) (env : Env) : Fine (c.handleEvent ev env) := by
  unfold HarnessClient.handleEvent
  dsimp only
  split
  · exact h.emit nofun
  · split
    · exact h.noteGap _ env
    · split
      · exact h.noteGap _ env
      · exact h.acceptEvent _

theorem handleAck (h : Fine c) (ack : JsRecord) : Fine (c.handleAck ack) := by
  unfold HarnessClient.handleAck
  split
  · refine emit ?_ nofun
    exact h.update rfl rfl rfl rfl
  · exact h

/-- The rejection has a text. -/
theorem handleError (h : Fine c) {err : JsRecord} (env : Env)
    (herr : ∀ id, (err.get "commandId").isFalsy = false → c.unsettled (err.get "commandId") = some id →
      Renderable err) : Fine (c.handleError err env) := by
  unfold HarnessClient.handleError
  dsimp only
  split
  · split
    · refine setPhase (detachAndClose ?_ env) _
      exact h.update rfl rfl rfl rfl
    · refine emit ?_ nofun
      exact h.update rfl rfl rfl rfl
  · rename_i hfalsy
    split
    · exact h
    · rename_i id hid
      have hrender : ((err.get "code").templateOk && (err.get "message").templateOk) = true :=
        herr id (Bool.eq_false_iff.mpr hfalsy) hid
      rw [if_pos hrender]
      refine emit ?_ nofun
      exact h.update rfl rfl rfl rfl

/-- Frames on a normal socket. -/
theorem handleEnvelope (h : Fine c) (e : Envelope) (env : Env)
    (herr : ∀ err id, e.inbound = .error err → (err.get "commandId").isFalsy = false →
      c.unsettled (err.get "commandId") = some id → Renderable err) : Fine (c.handleEnvelope e env) := by
  unfold HarnessClient.handleEnvelope
  split
  · exact h.handleSnapshot _
  · exact h.handleEvent _ env
  · exact h.handleAck _
  · rename_i err hin
    exact h.handleError env fun id => herr err id hin
  · exact h
  · exact h

/-- Frames on a pairing socket. -/
theorem pairingMessage (h : Fine c) (i : SocketId) (role : SocketRole) (e : Envelope)
    (hrefuse : ∀ err token spki, role = .pairing token spki false → e.inbound = .error err → Renderable err)
    (hissue : ∀ p token spki, role = .pairing token spki false → e.inbound = .paired p →
      Presentable c.authMode (p.get "credential")) : Fine (c.pairingMessage i role e) := by
  unfold HarnessClient.pairingMessage HarnessClient.finishPairing
  split
  · rename_i p hin
    split
    · rename_i token spki
      have hp := hissue p token spki rfl hin
      refine emit (o := .paired _) ?_ nofun
      refine ⟨h.quiet, fun identity hid => ?_, fun identity hid => ?_⟩
      · obtain rfl := Option.some.inj hid
        exact hp
      · rcases List.mem_append.mp hid with hid | hid
        · exact h.resumptions identity hid
        · rw [List.mem_singleton.mp hid]
          exact hp
    · exact h
  · rename_i err hin
    split
    · rename_i token spki
      have hrender : ((err.get "code").templateOk && (err.get "message").templateOk) = true :=
        hrefuse err token spki rfl hin
      unfold HarnessClient.refusePairing
      rw [if_pos hrender]
      refine emit ?_ nofun
      exact h.update rfl rfl rfl rfl
    · exact h
  · exact h

/-- A pairing attempt that ends without a frame. -/
theorem finishRejected (h : Fine c) (i : SocketId) (role : SocketRole) :
    Fine (c.finishPairing i role fun c => c.emit .pairRejected) := by
  unfold HarnessClient.finishPairing
  split
  · exact (h.modifySocket _ _).emit nofun
  · exact h

end Fine

/-! ## Runs -/

namespace Fine

variable {c : HarnessClient}

theorem setLastSeq (h : Fine c) (seq : JsNumber) : Fine (c.setLastSeq seq) := by
  unfold HarnessClient.setLastSeq
  split
  · split
    · exact h
    · refine Fine.emit ?_ nofun
      exact h.update rfl rfl rfl rfl
  · exact h

theorem close (h : Fine c) : Fine c.close := by
  unfold HarnessClient.close
  refine Fine.setPhase (Fine.update h ?_ ?_ ?_ ?_) .idle <;> cases c.socket <;> rfl

theorem pair (h : Fine c) (token : String) (url spki : Option String) (env : Env) :
    Fine (c.pair token url spki env) := by
  have hpair : Fine { { c with url := url.getD c.url }.setPhase .pairing with error := none } := by
    refine Fine.update (Fine.setPhase (c := { c with url := url.getD c.url }) ?_ .pairing) rfl rfl rfl rfl
    exact h.update rfl rfl rfl rfl
  unfold HarnessClient.pair
  split
  · exact hpair.emit nofun
  · exact hpair.createSocket _ _

theorem sendCommand (h : Fine c) (req : Request) (id : String) : Fine (c.sendCommand req id) := by
  unfold HarnessClient.sendCommand
  split
  · exact h.emit nofun
  · refine Fine.flushOutbox (Fine.emit ?_ nofun)
    exact h.update rfl rfl rfl rfl

/-- What a `pair` has still to connect with can be presented. -/
theorem resumePair (h : Fine c) (env : Env) : Fine (c.resumePair env) := by
  unfold HarnessClient.resumePair
  split
  · exact h
  · rename_i identity rest hrest
    have hheld : ∀ i ∈ identity :: rest, Presentable c.authMode i.credential :=
      fun i hi => h.resumptions i (hrest ▸ hi)
    have hfine : Fine { c with resumptions := rest } :=
      ⟨h.quiet, h.identity, fun i hi => hheld i (List.mem_cons_of_mem _ hi)⟩
    refine hfine.connect (fun i hi => ?_) env
    obtain rfl := Option.some.inj hi
    exact hheld identity List.mem_cons_self

theorem onopen (h : Fine c) (i : SocketId) (role : SocketRole) : Fine (c.onopen i role) := by
  unfold HarnessClient.onopen HarnessClient.sendEnvelope
  split <;> exact h.emit nofun

theorem onclose (h : Fine c) (i : SocketId) (role : SocketRole) (code : Option Nat) (env : Env) :
    Fine (c.onclose i role code env) := by
  unfold HarnessClient.onclose
  split
  · exact h.finishRejected _ _
  · split
    · exact h
    · split
      · exact h.setPhase _
      · split
        · exact h
        · exact h.scheduleReconnect _

theorem onerror (h : Fine c) (i : SocketId) (role : SocketRole) : Fine (c.onerror i role) := by
  unfold HarnessClient.onerror
  split
  · exact h.finishRejected _ _
  · exact h

end Fine

/-- A turn that meets the condition stays clear of exceptions. -/
theorem fine_turn {tr : List Obs} {c c' : HarnessClient} {a : Action} (h : Fine c)
    (hP : WellFormed tr c a) (ht : c.turn a = some c') : Fine c' := by
  have hpresent : ∀ {identity : Identity}, identity.credential.IsString →
      Presentable c.authMode identity.credential := by
    rintro identity ⟨s, hs⟩ -
    rw [hs]
    rfl
  cases a with
  | setIdentity identity =>
      cases ht
      refine Fine.emit ?_ nofun
      refine ⟨h.quiet, fun i hi => ?_, h.resumptions⟩
      obtain rfl : identity = some i := hi
      exact hpresent (hP.calls i {} (.inr rfl))
  | setLastSeq seq =>
      cases ht
      exact h.setLastSeq seq
  | reset =>
      cases ht
      exact h.update rfl rfl rfl rfl
  | connect identity env =>
      cases ht
      refine h.connect (fun i hi => ?_) env
      subst hi
      exact hpresent (hP.calls i env (.inl rfl))
  | close =>
      cases ht
      exact h.close
  | pair token url spki env =>
      cases ht
      exact h.pair token url spki env
  | send req id =>
      cases ht
      exact h.sendCommand req id
  | resume env =>
      obtain rfl := HarnessClient.of_turn_resume ht
      exact h.resumePair env
  | opened i =>
      obtain ⟨s, -, -, rfl⟩ := HarnessClient.of_turn_opened ht
      exact (h.modifySocket i _).onopen i s.role
  | message i data env =>
      obtain ⟨s, hs, hopen, rfl⟩ := HarnessClient.of_turn_message ht
      split
      · rename_i hatt
        unfold HarnessClient.onmessage
        split
        · exact h
        · rename_i e he
          -- what the condition says of a frame, it says of the frame this one is parsed to
          split
          · rename_i hrole
            refine h.handleEnvelope e env fun err id hin hfalsy hid => ?_
            exact hP.error err id ⟨i, data, env, s, e, rfl, hs, hopen, hatt, hrole, he, hin⟩ hfalsy hid
          · refine h.pairingMessage i _ e (fun err token spki hrole hin => ?_) fun p token spki hrole hin => ?_
            · exact hP.refusal err ⟨i, data, env, s, token, spki, e, rfl, hs, hatt, by assumption, he, hin⟩
            · exact hP.credential p ⟨i, data, env, s, token, spki, e, rfl, hs, hatt, by assumption, he, hin⟩
      · exact h
  | closed i code env =>
      obtain ⟨s, -, -, rfl⟩ := HarnessClient.of_turn_closed ht
      have hclosed : Fine (c.modifySocket i fun s => { s with readyState := .closed }) := h.modifySocket _ _
      split
      · exact hclosed.onclose i s.role code env
      · exact hclosed
  | errored i =>
      obtain ⟨s, -, rfl⟩ := HarnessClient.of_turn_errored ht
      split
      · exact h.onerror i s.role
      · exact h
  | closing i =>
      obtain rfl := HarnessClient.of_turn_closing ht
      exact h.modifySocket _ _
  | timer env =>
      have htimer : Fine { c with reconnectTimer := false, retryInMs := none } := h.update rfl rfl rfl rfl
      obtain ⟨-, rfl⟩ | ⟨-, rfl⟩ := HarnessClient.of_turn_timer ht
      · exact htimer
      · exact htimer.openNormalSocket env

/-- One step, state and trace. -/
theorem typed_step {tr os : List Obs} {c c' : HarnessClient} {a : Action} (h : TypedState c.session)
    (hP : WellFormed tr c a) (hs : system.step c a = some (c', os)) : TypedState c'.session := by
  obtain ⟨d, ht, rfl, rfl⟩ := c.step_trans hs
  show TypedState d.session
  cases ht with
  | silent h' => rw [h'.session]; exact h
  | renewed h' => rw [h'.session]; exact typedState_new
  | restored _ _ _ hs' =>
      rw [hs']
      exact ⟨h.sessionId, h.pendingPermissions, h.pendingQuestions, h.names⟩
  | issued _ _ _ hs' => rw [hs']; exact h
  | accepted ha _ hs' =>
      rw [hs']
      exact h.applySnapshot (hP.snapshot _ ha)
  | applied ha hq hgt hle _ hs' =>
      rw [hs']
      exact TypedState.nextSession (c := { c with out := [] }) h (hP.event _ _ ha hq hgt hle)
  | discarded _ _ hc => rw [hc]; exact h
  | settled _ _ _ hc => rw [hc]; exact h
  | orphaned _ _ _ _ hc => rw [hc]; exact h

theorem fine_step {tr os : List Obs} {c c' : HarnessClient} {a : Action} (h : Fine { c with out := [] })
    (hP : WellFormed tr c a) (hs : system.step c a = some (c', os)) :
    Fine { c' with out := [] } ∧ .threw ∉ os := by
  obtain ⟨d, hd, he⟩ := Option.map_eq_some_iff.mp hs
  cases he
  have hP' : WellFormed tr { c with out := [] } a :=
    ⟨hP.calls, hP.snapshot, hP.event, hP.error, hP.refusal, hP.credential⟩
  have hfine := fine_turn h hP' hd
  exact ⟨⟨List.not_mem_nil, hfine.identity, hfine.resumptions⟩, hfine.quiet⟩

/-- **Frames cannot corrupt the session state**, nor throw, in a run whose steps meet the condition. -/
theorem frames_typed {url : String} {authMode : AuthMode} {identity : Option Identity}
    {maxItems : Option Nat} {tr : List Obs} {c : HarnessClient}
    (hid : ∀ i, identity = some i → i.credential.IsString)
    (h : system.Run WellFormed [] (.new url authMode identity maxItems) tr c) :
    TypedState c.session ∧ .threw ∉ tr := by
  have hnew : Fine (.new url authMode identity maxItems) := by
    refine ⟨List.not_mem_nil, fun i hi _ => ?_, fun _ hi => (List.not_mem_nil hi).elim⟩
    obtain ⟨s, hs⟩ := hid i hi
    rw [hs]
    rfl
  have hinv := h.invariant
    (I := fun tr c => TypedState c.session ∧ Fine { c with out := [] } ∧ .threw ∉ tr)
    ⟨typedState_new, hnew, List.not_mem_nil⟩ fun t u a u' os _ ih hP hs => by
      obtain ⟨hfine, hos⟩ := fine_step ih.2.1 hP hs
      refine ⟨typed_step ih.1 hP hs, hfine, fun hmem => ?_⟩
      rcases List.mem_append.mp hmem with hmem | hmem
      · exact ih.2.2 hmem
      · exact hos hmem
  exact ⟨hinv.1, hinv.2.2⟩

/-! ## The frames of a daemon -/

/-- What is not a message meets the condition, if its identity does. -/
theorem wellFormed_call {tr : List Obs} {c : HarnessClient} {a : Action} (hcalls : TypedCalls tr c a)
    (h : ∀ i data env, a ≠ .message i data env) : WellFormed tr c a where
  calls := hcalls
  snapshot _ hd := absurd hd (not_delivered h)
  event _ _ hd := absurd hd (not_delivered h)
  error _ _ hd := absurd hd (not_delivered h)
  refusal := by
    rintro err ⟨i, data, env, -, -, -, -, ha, -⟩
    exact absurd ha (h i data env)
  credential := by
    rintro p ⟨i, data, env, -, -, -, -, ha, -⟩
    exact absurd ha (h i data env)

/-- A snapshot of the daemon is of the declared type. -/
theorem snapshotTyped_members (p : Wire.SnapshotPayload) : SnapshotTyped p.members where
  sessionId := .inr ⟨_, get_sessionId p⟩
  permissions := by
    rintro v ⟨before, after, heq, -⟩
    rw [asArray_pendingPermissions, permissionViews_toJson] at heq
    have hmem : v ∈ p.pendingPermissions.map permissionView := by
      rw [heq]
      exact List.mem_append_right _ List.mem_cons_self
    obtain ⟨w, -, rfl⟩ := List.mem_map.mp hmem
    exact ⟨⟨_, rfl⟩, ⟨_, rfl⟩, ⟨_, rfl⟩⟩
  questions := by
    rintro v ⟨before, after, heq, -⟩
    rw [asArray_pendingQuestions, questionViews_toJson] at heq
    have hmem : v ∈ p.pendingQuestions.map questionView := by
      rw [heq]
      exact List.mem_append_right _ List.mem_cons_self
    obtain ⟨w, -, rfl⟩ := List.mem_map.mp hmem
    exact ⟨⟨_, rfl⟩, ⟨_, rfl⟩⟩

/-- The error frames of the daemon hold two strings. -/
theorem renderable_error (commandID : String) (code : Wire.ErrorCode) (message : String) :
    Renderable (Wire.Json.omitString "commandId" commandID ++
      [("code", .str code.string), ("message", .str message)]) := by
  unfold Renderable
  rw [JsRecord.get_append, JsRecord.get_append]
  rfl

theorem pairs_hostFrame {c : HarnessClient} {i : SocketId} {e : Wire.Envelope} {f : Inbound}
    (h : Pairs c (hostFrame i e) f) : inboundOf e = f := by
  obtain ⟨j, data, env, s, token, spki, e', ha, -, -, -, hparse, hin⟩ := h
  cases ha
  exact (inbound_of_parse hparse).trans hin

/-- **A frame of the daemon meets the condition**, unless a resolution is by a device of such a name. -/
theorem wellFormed_hostFrame {tr : List Obs} {c : HarnessClient} {i : SocketId} {e : Wire.Envelope}
    (h : ∀ ev q, e = .event ev →
      ¬ NamesInherited c.session (HarnessClient.eventOf (eventMembers ev) q)) :
    WellFormed tr c (hostFrame i e) where
  calls := by
    rintro identity env (ha | ha) <;> cases ha
  snapshot snap hd := by
    have hin := delivered_hostFrame hd
    cases e with
    | snapshot p =>
        cases hin
        exact snapshotTyped_members p
    | _ => cases hin
  event ev q hd _ _ _ := by
    have hin := delivered_hostFrame hd
    cases e with
    | event ev' =>
        cases hin
        exact h ev' q rfl
    | _ => cases hin
  error err id hd _ _ := by
    have hin := delivered_hostFrame hd
    cases e with
    | error commandID code message =>
        cases hin
        exact renderable_error commandID code message
    | _ => cases hin
  refusal err hp := by
    have hin := pairs_hostFrame hp
    cases e with
    | error commandID code message =>
        cases hin
        exact renderable_error commandID code message
    | _ => cases hin
  credential p hp := by
    have hin := pairs_hostFrame hp
    cases e with
    | paired deviceID name credential =>
        cases hin
        exact fun _ => rfl
    | _ => cases hin

/-- What is not an envelope meets the condition, and so does an event of a device of another name. -/
theorem wellFormed_event {tr : List Obs} {c : HarnessClient} {i : SocketId} {data : Option Json} {env : Env}
    (h : ∀ e, data.bind parseEnvelope = some e → ∃ ev, e.inbound = .event ev ∧
      asString ((HarnessClient.eventOf ev 0).body.get "byDevice") "" ∉ inheritedMembers) :
    WellFormed tr c (.message i data env) where
  calls := by
    rintro identity env (ha | ha) <;> cases ha
  snapshot snap hd := by
    obtain ⟨_, _, _, _, e, ha, -, -, -, -, hparse, hin⟩ := hd
    cases ha
    obtain ⟨ev, hev, -⟩ := h e hparse
    cases hin.symm.trans hev
  event ev q hd _ _ _ := by
    obtain ⟨_, _, _, _, e, ha, -, -, -, -, hparse, hin⟩ := hd
    cases ha
    obtain ⟨ev', hev, hname⟩ := h e hparse
    cases hin.symm.trans hev
    exact fun hnames => hname hnames.2.1
  error err id hd _ _ := by
    obtain ⟨_, _, _, _, e, ha, -, -, -, -, hparse, hin⟩ := hd
    cases ha
    obtain ⟨ev, hev, -⟩ := h e hparse
    cases hin.symm.trans hev
  refusal err hp := by
    obtain ⟨_, _, _, _, _, _, e, ha, -, -, -, hparse, hin⟩ := hp
    cases ha
    obtain ⟨ev, hev, -⟩ := h e hparse
    cases hin.symm.trans hev
  credential p hp := by
    obtain ⟨_, _, _, _, _, _, e, ha, -, -, -, hparse, hin⟩ := hp
    cases ha
    obtain ⟨ev, hev, -⟩ := h e hparse
    cases hin.symm.trans hev

namespace Sample

/-- A frame that is an object of the given members. -/
def rawFrame (members : List (String × Json)) : Action := .message 0 (some (.obj members)) {}

/-- Frames of a daemon, and between them an event without members and an envelope that is none. -/
def mixedFrames : List Action :=
  [.connect none {}, .opened 0, hostFrame 0 (.snapshot ⟨"s1", "idle", "", 2, [], [], []⟩),
    rawFrame [("type", .str "event"), ("event", .obj [])], rawFrame [("type", .num ⟨7, 0⟩)],
    hostFrame 0 (.event requested), hostFrame 0 (.event granted)]

/-- A snapshot without members. -/
def bareSnapshot : List Action :=
  [.connect none {}, .opened 0, rawFrame [("type", .str "snapshot"), ("snapshot", .obj [])]]

end Sample

theorem frames_typed_mixedFrames :
    ∃ tr c, system.Run WellFormed [] Sample.client tr c ∧ c.session.lastSeq = 2 ∧
      TypedState c.session ∧ .threw ∉ tr := by
  have hexec : ((system.exec (fun _ _ _ => true) [] Sample.client Sample.mixedFrames).map
      fun r => r.2.session.lastSeq) = some 2 := by decide +kernel
  obtain ⟨r, hr, hlast⟩ := Option.map_eq_some_iff.mp hexec
  have hrun : system.Run WellFormed [] Sample.client r.1 r.2 := by
    refine Lts.run_of_exec_forall (fun a ha t u => ?_) hr
    simp only [Sample.mixedFrames, List.mem_cons, List.not_mem_nil, or_false] at ha
    rcases ha with rfl | rfl | rfl | rfl | rfl | rfl | rfl
    · exact wellFormed_call (by rintro identity env (ha | ha) <;> cases ha) nofun
    · exact wellFormed_call (by rintro identity env (ha | ha) <;> cases ha) nofun
    · exact wellFormed_hostFrame nofun
    · exact wellFormed_event fun e he => ⟨[], by cases he; rfl, by decide⟩
    · exact wellFormed_event fun e he => by cases he
    · exact wellFormed_event fun e he => ⟨eventMembers Sample.requested, by cases he; rfl, by decide⟩
    · exact wellFormed_event fun e he => ⟨eventMembers Sample.granted, by cases he; rfl, by decide⟩
  exact ⟨r.1, r.2, hrun, hlast, frames_typed (fun _ hi => by cases hi) hrun⟩

/-- A snapshot without a session id leaves the client with none. -/
theorem bareSnapshot_untypes :
    ¬ ∀ tr c, system.Run TypedCalls [] Sample.client tr c → TypedState c.session ∧ .threw ∉ tr := by
  intro h
  have hexec : ((system.exec (fun _ _ _ => true) [] Sample.client Sample.bareSnapshot).map
      fun r => r.2.session.sessionId.strictEq .undefined) = some true := by decide +kernel
  obtain ⟨r, hr, heq⟩ := Option.map_eq_some_iff.mp hexec
  have hrun : system.Run TypedCalls [] Sample.client r.1 r.2 := by
    refine Lts.run_of_exec_forall (fun a ha t u => ?_) hr
    simp only [Sample.bareSnapshot, List.mem_cons, List.not_mem_nil, or_false] at ha
    rcases ha with rfl | rfl | rfl <;>
      · rintro identity env (ha | ha) <;> cases ha
  have hid := (h _ _ hrun).1.sessionId
  rw [JsValue.eq_of_strictEq heq] at hid
  obtain hid | ⟨s, hid⟩ := hid <;> cases hid

end Harness.Client
