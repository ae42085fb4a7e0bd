/-
# Harness.Client.Convergence — catching up over a newer snapshot.

The daemon answers a hello with a snapshot of the whole log and then the events the client lacks. The
snapshot is ahead of those events: it holds their consequences already, and the client replays them on
top. The materialized part of the session (status, mode, which requests are pending) still ends where
the log ends, because each cell of it is decided by the last event that writes it.

The cells and who writes them are said once, in `writes`. The loop of `GetSnapshot` and `applyEvent`
are both replays of it (`hostView_step`, `clientView_applyEvent`), so `replay_overlap` applies to the two
programs at once.

A request with an empty id is shown by the host and not by the client, hence `Named`.
-/
import Harness.Client.HostFrames
import Harness.Hub.PendingLog
import Harness.Lib.LastWriter

namespace Harness.Client

open Lib Hub
open Wire (HostLog HostBody HostEvent StatusChangeBody ModeChangedBody)

/-! ## Cells -/

/-- The cells of the materialized state. -/
inductive Cell where
  | status
  | mode
  | pending (a : Ask)

abbrev Cell.Value : Cell → Type
  | .status => String
  | .mode => String
  | .pending _ => Bool

/-- What an event writes. -/
def writes (ev : Wire.EventPayload) : (k : Cell) → Option k.Value
  | .status =>
      if ev.kind = .statusChange then some (StatusChangeBody.decode ev.payload).status else none
  | .mode => if ev.kind = .modeChanged then some (ModeChangedBody.decode ev.payload).mode else none
  | .pending a => if requests a ev then some true else if resolves a ev then some false else none

/-- The state before the first event. -/
def blank : (k : Cell) → k.Value
  | .status => "idle"
  | .mode => ""
  | .pending _ => false

/-! ## The host's fold -/

def hostView (acc : Store.SnapshotFold) : (k : Cell) → k.Value
  | .status => acc.status
  | .mode => acc.mode
  | .pending a => holds acc a

theorem hostView_step (acc : Store.SnapshotFold) (ev : Wire.EventPayload) :
    hostView (acc.step ev) = overwrite writes (hostView acc) ev := by
  funext k
  cases k with
  | status =>
      show (acc.step ev).status = _
      cases hk : ev.kind <;> simp [Store.SnapshotFold.step, overwrite, writes, hostView, hk]
  | mode =>
      show (acc.step ev).mode = _
      cases hk : ev.kind <;> simp [Store.SnapshotFold.step, overwrite, writes, hostView, hk]
  | pending a =>
      show holds (acc.step ev) a = _
      rw [holds_step]
      simp only [overwrite, writes, hostView]
      cases requests a ev <;> cases resolves a ev <;> simp

/-- What a stored snapshot says, cell by cell. -/
structure Shows (snap : Snapshot) (σ : (k : Cell) → k.Value) : Prop where
  status : snap.status = σ .status
  mode : snap.mode = σ .mode
  pending : ∀ a, reports snap a ↔ σ (.pending a) = true

/-- The loop of `GetSnapshot` over a log and a session row. -/
theorem shows_snapshotOf (sid : String) (row : Session) (es : List Wire.EventPayload) :
    Shows (Store.snapshotOf sid row es)
      (replay writes (hostView ⟨row.status, "", row.lastSeq, ∅, ∅⟩) es) := by
  have hv := view_foldl hostView Store.SnapshotFold.step es ⟨row.status, "", row.lastSeq, ∅, ∅⟩
    fun ev _ acc => hostView_step acc ev
  rw [← hv]
  refine ⟨rfl, rfl, fun a => ?_⟩
  rw [reports_snapshotOf]
  have hholds : holds (es.foldl Store.SnapshotFold.step ⟨row.status, "", row.lastSeq, ∅, ∅⟩) a =
      pendingIn a es := by
    obtain ⟨-, h⟩ := foldl_step_spec es ⟨row.status, "", row.lastSeq, ∅, ∅⟩
      ⟨fun e he => absurd he List.not_mem_nil, fun e he => absurd he List.not_mem_nil⟩ a
    rw [h]
    cases a <;> simp [holds, pendingIn]
  show _ ↔ holds _ a = true
  rw [hholds]

/-! ## The log in the store -/

/-- **`Stored sid es db`** — the database got the events `es` appended to a fresh session `sid`,
whatever else happened to it. -/
inductive Stored (sid : String) : List Wire.EventPayload → Store → Prop
  | created (db : Store) : Stored sid [] (db.createSession sid)
  | appended {es : List Wire.EventPayload} {db db' : Store} {kind : Wire.EventKind}
      {payload : Wire.Json} {now : Int} {ev : Wire.EventPayload} :
      Stored sid es db → db.appendEvent sid kind payload now = some (ev, db') →
      Stored sid (es ++ [ev]) db'
  | elsewhere {es : List Wire.EventPayload} {db db' : Store} :
      Stored sid es db → db'.sessions sid = db.sessions sid → db'.events sid = db.events sid →
      Stored sid es db'

/-- The session row repeats what the log says. -/
theorem Stored.row {sid : String} {es : List Wire.EventPayload} {db : Store} (h : Stored sid es db)
    (hhost : ∀ ev ∈ es, HostEvent ev) :
    db.events sid = es ∧
      db.sessions sid = some ⟨replay writes blank es .status, es.length⟩ := by
  induction h with
  | created db => exact ⟨Function.update_self .., Function.update_self ..⟩
  | @appended es db db' kind payload now ev _ ha ih =>
      obtain ⟨hevents, hsess⟩ := ih fun e he => hhost e (List.mem_append_left _ he)
      have hev : HostEvent ev := hhost ev (List.mem_append_right _ List.mem_cons_self)
      unfold Store.appendEvent at ha
      rw [hsess] at ha
      simp only at ha
      split at ha
      · cases ha
      · simp only [Option.some.injEq, Prod.mk.injEq] at ha
        obtain ⟨rfl, rfl⟩ := ha
        refine ⟨(Function.update_self ..).trans (by rw [hevents]), (Function.update_self ..).trans ?_⟩
        rw [replay_append, List.length_append]
        -- the column follows a status change, and only that
        obtain ⟨b, hk, hp⟩ := hev
        simp only at hk hp
        subst hk hp
        cases b <;> rfl
  | elsewhere _ hs he ih =>
      obtain ⟨hevents, hsess⟩ := ih hhost
      exact ⟨he.trans hevents, hs.trans hsess⟩

/-- **What `GetSnapshot` derives from a log.** The row it starts from makes no difference: it only
repeats the log. -/
theorem Stored.getSnapshot {sid : String} {es : List Wire.EventPayload} {db : Store}
    (h : Stored sid es db) (hhost : ∀ ev ∈ es, HostEvent ev) :
    ∃ snap, db.getSnapshot sid = some snap ∧ snap.sessionID = sid ∧
      Shows snap (replay writes blank es) := by
  obtain ⟨hevents, hsess⟩ := h.row hhost
  refine ⟨_, by rw [Store.getSnapshot, hsess]; rfl, rfl, ?_⟩
  rw [hevents]
  have hshows := shows_snapshotOf sid ⟨replay writes blank es .status, es.length⟩ es
  have hsame : replay writes
      (hostView ⟨replay writes blank es .status, "", es.length, ∅, ∅⟩) es = replay writes blank es := by
    funext k
    rw [replay_apply, replay_apply es k]
    cases k with
    | status =>
        show (lastWrite writes es .status).getD (replay writes blank es .status) = _
        rw [replay_apply]
        cases lastWrite writes es .status <;> rfl
    | mode => rfl
    | pending a => cases a <;> simp [hostView, holds, blank]
  rwa [hsame] at hshows

/-- Every log of the host is the log of some database. -/
theorem exists_stored (sid : String) (db₀ : Store) (L : HostLog) : ∃ db, Stored sid L.events db := by
  have hpre : ∀ n ≤ L.length, ∃ db, Stored sid (L.events.take n) db := by
    intro n
    induction n with
    | zero => exact fun _ => ⟨_, .created db₀⟩
    | succ n ih =>
        intro hn
        obtain ⟨db, hdb⟩ := ih (Nat.le_of_succ_le hn)
        obtain ⟨hevents, hsess⟩ := hdb.row fun ev hev => L.bodies ev (List.mem_of_mem_take hev)
        have hlt : n < L.events.length := hn
        have hlen : (L.events.take n).length = n := List.length_take_of_le (Nat.le_of_lt hlt)
        have hseq := L.numbered n hlt
        -- a millisecond timestamp is the clock at that millisecond
        have hnow : unixMilli (L.events[n].ts * 1000000) = L.events[n].ts :=
          Int.mul_ediv_cancel _ (by decide)
        have hfresh : ¬ ((db.events sid).any (·.seq == n + 1)) = true := by
          rw [hevents, List.any_eq_true]
          rintro ⟨ev, hev, hs⟩
          obtain ⟨i, hi, rfl⟩ := List.mem_take_iff_getElem.mp hev
          have := L.numbered i (by omega)
          simp only [beq_iff_eq] at hs
          omega
        have happ : ∃ db', db.appendEvent sid L.events[n].kind L.events[n].payload
            (L.events[n].ts * 1000000) = some (L.events[n], db') := by
          unfold Store.appendEvent
          simp only [hsess, hlen]
          rw [if_neg hfresh, hnow, ← hseq]
          exact ⟨_, rfl⟩
        obtain ⟨db', happ⟩ := happ
        have hst := hdb.appended happ
        rw [List.take_append_getElem hlt] at hst
        exact ⟨_, hst⟩
  obtain ⟨db, hdb⟩ := hpre L.length (Nat.le_refl _)
  rw [HostLog.length, List.take_length] at hdb
  exact ⟨db, hdb⟩

/-! ## The client's fold -/

/-- Whether the client shows a request as pending. -/
def SessionState.shows (s : SessionState) : Ask → Bool
  | .permission r => s.pendingPermissions.any fun v => v.requestId.strictEq (.str r)
  | .question q => s.pendingQuestions.any fun v => v.questionId.strictEq (.str q)

def clientView (s : SessionState) : (k : Cell) → k.Value
  | .status => s.status
  | .mode => s.mode
  | .pending a => s.shows a

def askId : Ask → String
  | .permission r => r
  | .question q => q

/-- A request the event announces has an id. -/
def Named (ev : Wire.EventPayload) : Prop := ∀ a, requestOf ev = some a → askId a ≠ ""

theorem strictEq_str_iff (a b : String) : (JsValue.str a).strictEq (.str b) = true ↔ a = b := by
  rw [JsValue.strictEq_str, JsValue.str.injEq]

theorem strictEq_str_str (a b : String) : (JsValue.str a).strictEq (.str b) = decide (a = b) := by
  rw [Bool.eq_iff_iff, strictEq_str_iff, decide_eq_true_iff]

/-- Adding a view of one key: that key is there now. -/
theorem any_dedupeBy_concat {T : Type} (key : T → JsValue) (xs : List T) {x : T} {r' : String}
    (hx : key x = .str r') (r : String) :
    ((dedupeBy key (xs ++ [x])).any fun x => (key x).strictEq (.str r)) =
      (decide (r' = r) || xs.any fun x => (key x).strictEq (.str r)) := by
  rw [any_dedupeBy, List.any_append, List.any_cons, List.any_nil, Bool.or_false, hx,
    strictEq_str_str, Bool.or_comm]

/-- Removing the views of one key leaves the others. -/
theorem any_filter_key {T : Type} (key : T → JsValue) (xs : List T) (r' r : String) :
    ((xs.filter fun x => !(key x).strictEq (.str r')).any fun x => (key x).strictEq (.str r)) =
      ((xs.any fun x => (key x).strictEq (.str r)) && !decide (r' = r)) := by
  rw [List.any_filter]
  by_cases h : r' = r
  · subst h
    simp
  · rw [decide_eq_false h, Bool.not_false, Bool.and_true]
    refine congrArg (xs.any ·) (funext fun x => ?_)
    rw [Bool.eq_iff_iff, Bool.and_eq_true, Bool.not_eq_true', Bool.eq_false_iff, ne_eq]
    simp only [JsValue.strictEq_str]
    exact ⟨And.right, fun hx => ⟨fun hx' => h (JsValue.str.inj (hx'.symm.trans hx)), hx⟩⟩

/-- The request a body announces. -/
def announces : HostBody → Option Ask
  | .permissionRequest b => some (.permission b.requestID)
  | .question b => some (.question b.questionID)
  | _ => none

/-- The request a body resolves. -/
def settles : HostBody → Option Ask
  | .permissionResolved b => some (.permission b.requestID)
  | .questionResolved b => some (.question b.questionID)
  | _ => none

theorem requestOf_body {ev : Wire.EventPayload} {b : HostBody} (hk : ev.kind = b.kind)
    (hp : ev.payload = b.toJson) : requestOf ev = announces b := by
  unfold requestOf
  rw [hk, hp]
  cases b <;> simp [HostBody.kind, HostBody.toJson, announces]

theorem requests_body {ev : Wire.EventPayload} {b : HostBody} (hk : ev.kind = b.kind)
    (hp : ev.payload = b.toJson) (a : Ask) : requests a ev = decide (announces b = some a) := by
  rw [requests, requestOf_body hk hp]

theorem resolves_body {ev : Wire.EventPayload} {b : HostBody} (hk : ev.kind = b.kind)
    (hp : ev.payload = b.toJson) (a : Ask) : resolves a ev = decide (settles b = some a) := by
  have hset : (resolutionOf ev).map (fun r => r.1.ask) = settles b := by
    unfold resolutionOf
    rw [hk, hp]
    cases b <;> rfl
  rw [← hset, resolves]
  cases resolutionOf ev <;> simp

/-- A request the body announces is shown, one it resolves is not, all others stay. -/
theorem shows_applyBody (s : SessionState) (seq : ℚ) (ts : JsValue) {b : HostBody}
    (hn : ∀ a, announces b = some a → askId a ≠ "") (a : Ask) :
    (applyBody s seq ts b).shows a =
      (decide (announces b = some a) || s.shows a && !decide (settles b = some a)) := by
  cases b with
  | permissionRequest b =>
      rw [applyBody, if_neg (show b.requestID ≠ "" from hn _ rfl)]
      cases a with
      | permission r =>
          have hany := any_dedupeBy_concat PermissionView.requestId s.pendingPermissions
            (x := ⟨.str b.requestID, .str b.kind, .str b.summary⟩) rfl r
          simp only [announces, settles, Option.some.injEq, Ask.permission.injEq, reduceCtorEq,
            decide_false, Bool.not_false, Bool.and_true]
          exact hany
      | question q => simp [announces, settles, SessionState.shows]
  | question b =>
      rw [applyBody, if_neg (show b.questionID ≠ "" from hn _ rfl)]
      cases a with
      | permission r => simp [announces, settles, SessionState.shows]
      | question q =>
          have hany := any_dedupeBy_concat QuestionView.questionId s.pendingQuestions
            (x := ⟨.str b.questionID, .str b.text⟩) rfl q
          simp only [announces, settles, Option.some.injEq, Ask.question.injEq, reduceCtorEq,
            decide_false, Bool.not_false, Bool.and_true]
          exact hany
  | permissionResolved b =>
      cases a with
      | permission r =>
          have hany := any_filter_key PermissionView.requestId s.pendingPermissions b.requestID r
          simp only [announces, settles, Option.some.injEq, Ask.permission.injEq, reduceCtorEq,
            decide_false, Bool.false_or]
          exact hany
      | question q => simp [announces, settles, SessionState.shows, applyBody]
  | questionResolved b =>
      cases a with
      | permission r => simp [announces, settles, SessionState.shows, applyBody]
      | question q =>
          have hany := any_filter_key QuestionView.questionId s.pendingQuestions b.questionID q
          simp only [announces, settles, Option.some.injEq, Ask.question.injEq, reduceCtorEq,
            decide_false, Bool.false_or]
          exact hany
  | textDelta b =>
      rw [applyBody]
      split <;> cases a <;> simp [announces, settles, SessionState.shows]
  | _ => cases a <;> simp [announces, settles, SessionState.shows, applyBody]

theorem shows_applyEvent (s : SessionState) {ev : Wire.EventPayload} (hev : HostEvent ev)
    (hn : Named ev) (a : Ask) :
    (applyEvent s (received ev)).shows a = (requests a ev || s.shows a && !resolves a ev) := by
  obtain ⟨b, hk, hp⟩ := hev
  rw [applyEvent_received s hk hp, requests_body hk hp, resolves_body hk hp]
  refine shows_applyBody s _ _ (fun x hx => hn x ?_) a
  rw [requestOf_body hk hp]
  exact hx

theorem applyEvent_status (s : SessionState) {ev : Wire.EventPayload} (hev : HostEvent ev) :
    (applyEvent s (received ev)).status = (writes ev .status).getD s.status := by
  obtain ⟨b, hk, hp⟩ := hev
  rw [applyEvent_received s hk hp]
  show _ = Option.getD (if ev.kind = _ then _ else _) s.status
  rw [hk, hp]
  cases b with
  | statusChange b => rfl
  | textDelta b => simp only [applyBody]; split <;> rfl
  | permissionRequest b => simp only [applyBody]; split <;> rfl
  | question b => simp only [applyBody]; split <;> rfl
  | _ => rfl

theorem applyEvent_mode (s : SessionState) {ev : Wire.EventPayload} (hev : HostEvent ev) :
    (applyEvent s (received ev)).mode = (writes ev .mode).getD s.mode := by
  obtain ⟨b, hk, hp⟩ := hev
  rw [applyEvent_received s hk hp]
  show _ = Option.getD (if ev.kind = _ then _ else _) s.mode
  rw [hk, hp]
  cases b with
  | modeChanged b _ => rfl
  | textDelta b => simp only [applyBody]; split <;> rfl
  | permissionRequest b => simp only [applyBody]; split <;> rfl
  | question b => simp only [applyBody]; split <;> rfl
  | _ => rfl

/-- **An event moves the client's cells as it moves the host's.** -/
theorem clientView_applyEvent (s : SessionState) {ev : Wire.EventPayload} (hev : HostEvent ev)
    (hn : Named ev) : clientView (applyEvent s (received ev)) = overwrite writes (clientView s) ev := by
  funext k
  cases k with
  | pending a =>
      show (applyEvent s (received ev)).shows a = _
      rw [shows_applyEvent s hev hn]
      simp only [overwrite, writes, clientView]
      cases requests a ev <;> cases resolves a ev <;> simp
  | status => exact applyEvent_status s hev
  | mode => exact applyEvent_mode s hev

/-! ## Host snapshots on the client -/

/-- **`HostSnapshot sid es p`** — `p` is a snapshot the daemon may send when the log of its session is
`es`: the result of `GetSnapshot`, its two maps listed in any order, with the devices of that moment. -/
def HostSnapshot (sid : String) (es : List Wire.EventPayload) (p : Wire.SnapshotPayload) : Prop :=
  ∃ db snap, Stored sid es db ∧ db.getSnapshot sid = some snap ∧ p.sessionID = snap.sessionID ∧
    p.status = snap.status ∧ p.mode = snap.mode ∧ p.lastSeq = snap.lastSeq ∧
    p.pendingPermissions.Perm snap.pendingPermissions ∧ p.pendingQuestions.Perm snap.pendingQuestions

/-- The snapshot `GetSnapshot` derives, listed as the maps are. -/
theorem hostSnapshot_of_log (sid : String) (db₀ : Store) (L : HostLog) (devices : List Wire.DeviceView) :
    let snap := Store.snapshotOf sid ⟨replay writes blank L.events .status, L.length⟩ L.events
    HostSnapshot sid L.events
      ⟨sid, snap.status, snap.mode, snap.lastSeq, snap.pendingPermissions, snap.pendingQuestions,
        devices⟩ := by
  obtain ⟨db, hdb⟩ := exists_stored sid db₀ L
  obtain ⟨hevents, hsess⟩ := hdb.row L.bodies
  refine ⟨db, _, hdb, ?_, rfl, rfl, rfl, rfl, .refl _, .refl _⟩
  rw [Store.getSnapshot, hsess, Option.map_some, hevents]
  rfl

/-- The tip a snapshot names is the last seq of the log. -/
theorem lastSeq_snapshotOf (sid : String) (row : Session) (L : HostLog)
    (hrow : row.lastSeq = L.length) : (Store.snapshotOf sid row L.events).lastSeq = L.length := by
  show (L.events.foldl Store.SnapshotFold.step _).lastSeq = L.length
  rcases List.eq_nil_or_concat' L.events with hnil | ⟨es, ev, hes⟩
  · rw [hnil]
    exact hrow
  · have hlen : L.length = es.length + 1 := by rw [HostLog.length, hes, List.length_append]; rfl
    have hseq : ev.seq = es.length + 1 := by
      have h := L.numbered es.length (by rw [hes, List.length_append]; exact Nat.lt_succ_self _)
      simpa [hes] using h
    rw [hes, List.foldl_append, hlen, ← hseq]
    show (Store.SnapshotFold.step _ ev).lastSeq = ev.seq
    unfold Store.SnapshotFold.step
    cases ev.kind <;> rfl

variable {sid : String} {L : HostLog} {p : Wire.SnapshotPayload}

theorem HostSnapshot.sessionID_eq (h : HostSnapshot sid L.events p) : p.sessionID = sid := by
  obtain ⟨db, snap, hst, hget, hid, -⟩ := h
  obtain ⟨snap', hget', hid', -⟩ := hst.getSnapshot L.bodies
  rw [hget] at hget'
  cases hget'
  exact hid.trans hid'

theorem HostSnapshot.lastSeq_eq (h : HostSnapshot sid L.events p) : p.lastSeq = L.length := by
  obtain ⟨db, snap, hst, hget, -, -, -, hlast, -⟩ := h
  obtain ⟨hevents, hsess⟩ := hst.row L.bodies
  rw [Store.getSnapshot, hsess, Option.map_some, Option.some.injEq, hevents] at hget
  rw [hlast, ← hget]
  exact lastSeq_snapshotOf sid _ L rfl

theorem HostSnapshot.lastSeq_int64 (h : HostSnapshot sid L.events p) : p.lastSeq < 2 ^ 63 := by
  rw [h.lastSeq_eq]
  exact L.int64

/-- A host snapshot puts the host's cells in place of the client's. The mode is left alone when the log
has none. -/
theorem clientView_applySnapshot (s : SessionState) (h : HostSnapshot sid L.events p)
    (hmode : p.mode = "" → (snapshotBase s p.members).mode = "") :
    clientView (applySnapshot s p.members) = replay writes blank L.events := by
  obtain ⟨db, snap, hst, hget, -, hstatus, hm, -, hperm, hq⟩ := id h
  obtain ⟨snap', hget', -, hshows⟩ := hst.getSnapshot L.bodies
  rw [hget] at hget'
  cases hget'
  rw [read_snapshot s p h.lastSeq_int64]
  funext k
  cases k with
  | status => exact hstatus.trans hshows.status
  | mode =>
      show (if p.mode = "" then _ else _) = _
      rw [← hshows.mode, ← hm]
      split
      · rename_i hnone
        rw [hmode hnone, hnone]
      · rfl
  | pending a =>
      rw [Bool.eq_iff_iff, ← hshows.pending]
      cases a with
      | permission r =>
          show (List.any (dedupeBy _ _) _) = true ↔ ∃ v ∈ snap.pendingPermissions, v.requestID = r
          rw [any_dedupeBy PermissionView.requestId, List.any_map, List.any_eq_true]
          refine exists_congr fun v => ?_
          rw [hperm.mem_iff]
          exact and_congr_right fun _ => strictEq_str_iff _ r
      | question q =>
          show (List.any (dedupeBy _ _) _) = true ↔ ∃ v ∈ snap.pendingQuestions, v.questionID = q
          rw [any_dedupeBy QuestionView.questionId, List.any_map, List.any_eq_true]
          refine exists_congr fun v => ?_
          rw [hq.mem_iff]
          exact and_congr_right fun _ => strictEq_str_iff _ q

/-! ## Logs without a mode -/

/-- The host never sets the empty mode, so an empty mode means that no event set one. -/
theorem no_mode_event {es : List Wire.EventPayload} (hhost : ∀ ev ∈ es, HostEvent ev)
    {σ : (k : Cell) → k.Value} (h : replay writes σ es .mode = "") :
    ∀ ev ∈ es, ev.kind ≠ .modeChanged := by
  induction es using List.reverseRecOn with
  | nil => exact fun _ h => absurd h List.not_mem_nil
  | append_singleton es ev ih =>
      rw [replay_append] at h
      have hev : ev.kind ≠ .modeChanged := by
        intro hk
        obtain ⟨b, hb, hp⟩ := hhost ev (List.mem_append_right _ List.mem_cons_self)
        rw [hk] at hb
        cases b <;> cases hb
        rename_i b hne
        refine hne ?_
        simpa [replay, overwrite, writes, hk, hp, HostBody.toJson] using h
      have hrest : replay writes σ es .mode = "" := by
        simpa [replay, overwrite, writes, hev] using h
      intro ev' hmem
      rcases List.mem_append.mp hmem with hmem | hmem
      · exact ih (fun e he => hhost e (List.mem_append_left _ he)) hrest ev' hmem
      · rw [List.mem_singleton.mp hmem]
        exact hev

theorem mode_of_no_event {es : List Wire.EventPayload} (h : ∀ ev ∈ es, ev.kind ≠ .modeChanged)
    (σ : (k : Cell) → k.Value) : replay writes σ es .mode = σ .mode := by
  rw [replay_apply]
  have hnone : lastWrite writes es .mode = none := by
    rw [lastWrite, List.findSome?_eq_none_iff]
    intro ev hev
    simp [writes, h ev (List.mem_reverse.mp hev)]
  rw [hnone]
  rfl

/-! ## Clients that follow a log -/

/-- **`Follows sid L n k s`** — the client state `s` came from the initial one by host snapshots of
prefixes of `L` of length at most `n`, and the events `1..k`. -/
inductive Follows (sid : String) (L : HostLog) (n : Nat) : Nat → SessionState → Prop
  | start : Follows sid L n 0 newSessionState
  | snapshot {k j : Nat} {s : SessionState} {p : Wire.SnapshotPayload} :
      Follows sid L n k s → j ≤ n → HostSnapshot sid (L.take j).events p →
      Follows sid L n k (applySnapshot s p.members)
  | event {k : Nat} {s : SessionState} (hk : k < L.events.length) :
      Follows sid L n k s → Follows sid L n (k + 1) (applyEvent s (received L.events[k]))

theorem snapshotBase_mode {s : SessionState} (h : s.mode = "") (snap : JsRecord) :
    (snapshotBase s snap).mode = "" := by
  unfold snapshotBase
  split
  · rfl
  · exact h

/-- While the log has no mode, the client has none. -/
theorem Follows.mode_blank {n k : Nat} {s : SessionState} (h : Follows sid L n k s) (hk : k ≤ n)
    (hnone : ∀ ev ∈ L.events.take n, ev.kind ≠ .modeChanged) : s.mode = "" := by
  induction h with
  | start => rfl
  | @snapshot k j s p _ hj hp ih =>
      have hjs : ∀ ev ∈ (L.take j).events, ev.kind ≠ .modeChanged := fun ev hev =>
        hnone ev ((List.take_subset_take_left _ hj) hev)
      have hview := clientView_applySnapshot s hp fun _ => snapshotBase_mode (ih hk) _
      have hm := congrFun hview .mode
      rw [mode_of_no_event hjs] at hm
      exact hm
  | @event k s hlt _ ih =>
      have hmem : L.events[k] ∈ L.events.take n :=
        List.mem_take_iff_getElem.mpr ⟨k, by omega, rfl⟩
      have hev := L.bodies _ (List.mem_of_mem_take hmem)
      obtain ⟨b, hb, hp⟩ := hev
      have hnm := hnone _ hmem
      rw [applyEvent_received s hb hp]
      have hs : s.mode = "" := ih (by omega)
      cases b with
      | modeChanged b _ => exact absurd hb hnm
      | textDelta b => simp only [applyBody]; split <;> exact hs
      | permissionRequest b => simp only [applyBody]; split <;> exact hs
      | question b => simp only [applyBody]; split <;> exact hs
      | _ => exact hs

theorem Follows.sessionId {n k : Nat} {s : SessionState} (h : Follows sid L n k s) :
    s.sessionId = .null ∨ s.sessionId = .str sid := by
  induction h with
  | start => exact .inl rfl
  | snapshot _ _ hp ih =>
      rw [read_snapshot _ _ hp.lastSeq_int64]
      exact .inr (congrArg _ hp.sessionID_eq)
  | @event k s hlt _ ih =>
      obtain ⟨b, hb, hp⟩ := L.bodies _ (List.getElem_mem hlt)
      rw [applyEvent_received s hb hp, applyBody_sessionId]
      exact ih

/-- The position of a client that follows a log is the number of events it applied. -/
theorem Follows.lastSeq_eq {n k : Nat} {s : SessionState} (h : Follows sid L n k s) :
    s.lastSeq = k := by
  induction h with
  | start => rfl
  | @snapshot k j s p hs _ hp ih =>
      rw [read_snapshot _ _ hp.lastSeq_int64, snapshotBase_same]
      · exact ih
      · rw [get_sessionId, hp.sessionID_eq]
        exact hs.sessionId
      · exact ⟨_, get_sessionId p⟩
  | @event k s hlt _ ih =>
      rw [applyEvent_lastSeq]
      show ((L.events[k].seq : Nat) : ℚ) = _
      rw [L.numbered k hlt]

/-! ## Ids of pending views -/

/-- Every pending view has a string for an id. -/
structure StringIds (s : SessionState) : Prop where
  permissions : ∀ v ∈ s.pendingPermissions, ∃ r, v.requestId = .str r
  questions : ∀ v ∈ s.pendingQuestions, ∃ q, v.questionId = .str q

theorem StringIds.applySnapshot (s : SessionState) {p : Wire.SnapshotPayload}
    (h : p.lastSeq < 2 ^ 63) : StringIds (applySnapshot s p.members) := by
  rw [read_snapshot s p h]
  refine ⟨fun v hv => ?_, fun v hv => ?_⟩
  · obtain ⟨w, -, rfl⟩ := List.mem_map.mp (mem_of_mem_dedupeBy hv)
    exact ⟨w.requestID, rfl⟩
  · obtain ⟨w, -, rfl⟩ := List.mem_map.mp (mem_of_mem_dedupeBy hv)
    exact ⟨w.questionID, rfl⟩

theorem StringIds.applyEvent {s : SessionState} (h : StringIds s) {ev : Wire.EventPayload}
    (hev : HostEvent ev) : StringIds (applyEvent s (received ev)) := by
  obtain ⟨b, hk, hp⟩ := hev
  rw [applyEvent_received s hk hp]
  cases b with
  | permissionRequest b =>
      rw [applyBody]
      split
      · exact ⟨h.permissions, h.questions⟩
      · refine ⟨fun v hv => ?_, h.questions⟩
        rcases List.mem_append.mp (mem_of_mem_dedupeBy hv) with hv | hv
        · exact h.permissions v hv
        · rw [List.mem_singleton.mp hv]
          exact ⟨b.requestID, rfl⟩
  | question b =>
      rw [applyBody]
      split
      · exact ⟨h.permissions, h.questions⟩
      · refine ⟨h.permissions, fun v hv => ?_⟩
        rcases List.mem_append.mp (mem_of_mem_dedupeBy hv) with hv | hv
        · exact h.questions v hv
        · rw [List.mem_singleton.mp hv]
          exact ⟨b.questionID, rfl⟩
  | permissionResolved b =>
      exact ⟨fun v hv => h.permissions v (List.mem_of_mem_filter hv), h.questions⟩
  | questionResolved b =>
      exact ⟨h.permissions, fun v hv => h.questions v (List.mem_of_mem_filter hv)⟩
  | textDelta b => rw [applyBody]; split <;> exact ⟨h.permissions, h.questions⟩
  | _ => exact ⟨h.permissions, h.questions⟩

/-- The client applies events in order. -/
def applyAll (s : SessionState) (es : List Wire.EventPayload) : SessionState :=
  es.foldl (fun s ev => applyEvent s (received ev)) s

theorem StringIds.applyAll {es : List Wire.EventPayload} (hhost : ∀ ev ∈ es, HostEvent ev) :
    ∀ {s : SessionState}, StringIds s → StringIds (applyAll s es) := by
  induction es with
  | nil => exact fun h => h
  | cons ev es ih =>
      intro s h
      exact ih (fun e he => hhost e (List.mem_cons_of_mem ev he))
        (h.applyEvent (hhost ev List.mem_cons_self))

/-! ## Convergence -/

/-- The client's materialized state is what a stored snapshot says. -/
structure Agrees (s : SessionState) (snap : Snapshot) : Prop where
  status : s.status = snap.status
  mode : s.mode = snap.mode
  permissions : ∀ v, v ∈ s.pendingPermissions.map (·.requestId) ↔
    ∃ w ∈ snap.pendingPermissions, v = .str w.requestID
  questions : ∀ v, v ∈ s.pendingQuestions.map (·.questionId) ↔
    ∃ w ∈ snap.pendingQuestions, v = .str w.questionID

theorem Agrees.of_view {s : SessionState} {snap : Snapshot} {σ : (k : Cell) → k.Value}
    (hs : clientView s = σ) (hids : StringIds s) (hsnap : Shows snap σ) : Agrees s snap := by
  have hperm : ∀ r, (s.shows (.permission r) = true ↔ ∃ w ∈ snap.pendingPermissions, w.requestID = r) :=
    fun r => by rw [show s.shows _ = σ (.pending (.permission r)) from congrFun hs (.pending _)];
                exact (hsnap.pending (.permission r)).symm
  have hq : ∀ q, (s.shows (.question q) = true ↔ ∃ w ∈ snap.pendingQuestions, w.questionID = q) :=
    fun q => by rw [show s.shows _ = σ (.pending (.question q)) from congrFun hs (.pending _)];
                exact (hsnap.pending (.question q)).symm
  refine ⟨?_, ?_, fun v => ⟨fun hv => ?_, ?_⟩, fun v => ⟨fun hv => ?_, ?_⟩⟩
  · rw [hsnap.status, ← hs]
    rfl
  · rw [hsnap.mode, ← hs]
    rfl
  · obtain ⟨x, hx, rfl⟩ := List.mem_map.mp hv
    obtain ⟨r, hr⟩ := hids.permissions x hx
    obtain ⟨w, hw, hwr⟩ := (hperm r).mp (List.any_eq_true.mpr ⟨x, hx, by simp [hr]⟩)
    exact ⟨w, hw, by rw [hwr]; exact hr⟩
  · rintro ⟨w, hw, rfl⟩
    obtain ⟨x, hx, hxr⟩ := List.any_eq_true.mp ((hperm w.requestID).mpr ⟨w, hw, rfl⟩)
    exact List.mem_map.mpr ⟨x, hx, JsValue.eq_of_strictEq hxr⟩
  · obtain ⟨x, hx, rfl⟩ := List.mem_map.mp hv
    obtain ⟨q, hq'⟩ := hids.questions x hx
    obtain ⟨w, hw, hwq⟩ := (hq q).mp (List.any_eq_true.mpr ⟨x, hx, by simp [hq']⟩)
    exact ⟨w, hw, by rw [hwq]; exact hq'⟩
  · rintro ⟨w, hw, rfl⟩
    obtain ⟨x, hx, hxq⟩ := List.any_eq_true.mp ((hq w.questionID).mpr ⟨w, hw, rfl⟩)
    exact List.mem_map.mpr ⟨x, hx, JsValue.eq_of_strictEq hxq⟩

theorem clientView_applyAll {es : List Wire.EventPayload} (hhost : ∀ ev ∈ es, HostEvent ev)
    (hnamed : ∀ ev ∈ es, Named ev) (s : SessionState) :
    clientView (applyAll s es) = replay writes (clientView s) es :=
  view_foldl clientView _ es s fun ev hev t => clientView_applyEvent t (hhost ev hev) (hnamed ev hev)

/-- The part of a log between two positions. -/
theorem drop_take_eq {α : Type*} (l : List α) {k n m : Nat} (hkn : k ≤ n) (hnm : n ≤ m) :
    (l.take m).drop k = (l.take n).drop k ++ (l.take m).drop n := by
  have hsplit : l.take m = l.take n ++ (l.take m).drop n := by
    have h := List.take_append_drop n (l.take m)
    rwa [List.take_take, Nat.min_eq_left hnm, eq_comm] at h
  by_cases hlen : n ≤ l.length
  · conv_lhs => rw [hsplit]
    rw [List.drop_append_of_le_length]
    rw [List.length_take_of_le hlen]
    exact hkn
  · have hall : ∀ j, n ≤ j → l.take j = l := fun j hj => List.take_of_length_le (by omega)
    rw [hall m hnm, hall n (Nat.le_refl n), List.drop_of_length_le (by omega : l.length ≤ n),
      List.append_nil]

/-- **Catching up over a newer snapshot converges.** -/
theorem catchUp_converges {sid : String} {L : HostLog} (hnamed : ∀ ev ∈ L.events, Named ev)
    {k n m : Nat} (hkn : k ≤ n) (hnm : n ≤ m) {s : SessionState} (hs : Follows sid L n k s)
    {p : Wire.SnapshotPayload} (hp : HostSnapshot sid (L.take n).events p) {db : Store}
    (hdb : Stored sid (L.take m).events db) :
    ∃ snap, db.getSnapshot sid = some snap ∧
      Agrees (applyAll (applySnapshot s p.members) ((L.events.take m).drop k)) snap := by
  obtain ⟨snap, hget, -, hshows⟩ := hdb.getSnapshot (L.take m).bodies
  refine ⟨snap, hget, ?_⟩
  have htail : ∀ ev ∈ (L.events.take m).drop k, ev ∈ L.events := fun ev hev =>
    List.mem_of_mem_take (List.mem_of_mem_drop hev)
  have hhost : ∀ ev ∈ (L.events.take m).drop k, HostEvent ev := fun ev hev => L.bodies ev (htail ev hev)
  have hmode : p.mode = "" → (snapshotBase s p.members).mode = "" := by
    intro hnone
    obtain ⟨db', snap', hst', hget', -, -, hm, -⟩ := id hp
    obtain ⟨snap'', hget'', -, hshows'⟩ := hst'.getSnapshot (L.take n).bodies
    rw [hget'] at hget''
    cases hget''
    have hblank : replay writes blank (L.take n).events .mode = "" := by
      rw [← hshows'.mode, ← hm, hnone]
    exact snapshotBase_mode (hs.mode_blank hkn (no_mode_event (L.take n).bodies hblank)) _
  have hview : clientView (applyAll (applySnapshot s p.members) ((L.events.take m).drop k)) =
      replay writes blank (L.take m).events := by
    rw [clientView_applyAll hhost (fun ev hev => hnamed ev (htail ev hev)),
      clientView_applySnapshot s hp hmode]
    have hsplit : (L.take n).events = L.events.take k ++ (L.events.take n).drop k := by
      have h := List.take_append_drop k (L.events.take n)
      rwa [List.take_take, Nat.min_eq_left hkn, eq_comm] at h
    have hwhole : (L.take m).events =
        L.events.take k ++ (L.events.take n).drop k ++ (L.events.take m).drop n := by
      rw [← hsplit]
      have h := List.take_append_drop n (L.events.take m)
      rwa [List.take_take, Nat.min_eq_left hnm, eq_comm] at h
    rw [drop_take_eq L.events hkn hnm, hsplit, hwhole]
    exact replay_overlap _ _ _
  exact Agrees.of_view hview ((StringIds.applySnapshot s hp.lastSeq_int64).applyAll hhost) hshows

namespace Sample

/-- A permission is requested and granted, then the mode is set. -/
def log : HostLog :=
  .ofBodies [.permissionRequest ⟨"r1", "bash", "git push"⟩,
    .permissionResolved ⟨"r1", true, Hub.Sample.phone.val⟩,
    .modeChanged ⟨"plan", Hub.Sample.phone.val⟩ (by decide)] (by decide)

/-- Its events. -/
def requested : Wire.EventPayload := log.events[0]
def granted : Wire.EventPayload := log.events[1]
def planned : Wire.EventPayload := log.events[2]

theorem named_log : ∀ ev ∈ log.events, Named ev := by
  intro ev h a ha
  simp only [log, HostLog.ofBodies, List.mapIdx_cons, List.mapIdx_nil, List.mem_cons,
    List.not_mem_nil, or_false] at h
  rcases h with rfl | rfl | rfl
  · cases ha
    decide
  · cases ha
  · cases ha

/-- The client applied the request and has not seen the answer. -/
def asked : SessionState := applyEvent newSessionState (received requested)

end Sample

/-- The request is shown again while the answer is replayed, and is gone at the end. -/
theorem catchUp_converges_replayedAnswer :
    ∃ p db snap, HostSnapshot "session" (Sample.log.take 2).events p ∧
      Stored "session" Sample.log.events db ∧ db.getSnapshot "session" = some snap ∧
      Agrees (applyAll (applySnapshot Sample.asked p.members) (Sample.log.events.drop 1)) snap := by
  have hs : Follows "session" Sample.log 2 1 Sample.asked := .event (by decide) .start
  have hp := hostSnapshot_of_log "session" Hub.Sample.database (Sample.log.take 2) []
  obtain ⟨db, hdb⟩ := exists_stored "session" Hub.Sample.database (Sample.log.take 3)
  obtain ⟨snap, hget, hagree⟩ :=
    catchUp_converges Sample.named_log (by decide) (by decide) hs hp hdb
  exact ⟨_, db, snap, hp, hdb, hget, hagree⟩

end Harness.Client
