/-
# Harness.Hub.Joining — what a joining client is told, while the log grows.

`serveAuthenticated` reads three times before it answers: `GetSnapshot` the session row and then the
events, and after it `GetEventsSince` the events beyond `k`. Nothing keeps calls of `AppendEvent` from
committing in between, so the three reads may see three logs. Here the calls are those of
`Harness.Store.Append`, statement by statement, failures included (the refresh of the status column may
fail alone), and everything else the daemon does to its maps is arbitrary.

`catch_up_consistent` is the law: the reads see longer and longer prefixes of one log, and the row that
was read first counts only where the events have nothing to say.
-/
import Harness.Hub.Frame
import Harness.Lib.Fanout
import Harness.Store.Append

namespace Harness.Joining

open Wire Lib Hub

/-- The calls of `AppendEvent`, the rest of what the goroutines share, and the connections in
`serveAuthenticated`. -/
structure State where
  log : Append.State
  hub : Hub
  conns : List ConnPhase

/-- What a goroutine finds: the committed sessions and events. -/
def State.shared (s : State) : Hub :=
  { s.hub with
    store := { s.hub.store with sessions := s.log.db.sessions, events := s.log.db.events } }

inductive Action where
  | append (a : Append.Action)
  /-- an authenticated client, with its `hello.LastSeq` -/
  | hello (dev : DeviceID) (k : Int)
  | serve (c : ConnId) (ch : Choice)
  /-- the rest of the daemon -/
  | others (hub : Hub)

def system (cfg : Config) : Lts State Action Hub.Obs where
  step s
    | .append a => (Append.system.step s.log a).map fun r => ({ s with log := r.1 }, [])
    | .hello dev k => some ({ s with conns := s.conns ++ [.serving dev k .getSession] }, [])
    | .serve c ch =>
        match s.conns[c]? with
        | some (.serving dev k pc) =>
            (serveStep cfg c s.shared dev k pc ch).map fun r =>
              ({ s with hub := r.1, conns := s.conns.set c r.2.1 }, r.2.2)
        | _ => none
    | .others hub => some ({ s with hub := hub }, [])

/-- The database as `migrate` leaves it. -/
def start (hub : Hub) : State where
  log := { db := Append.emptyStore hub.store.devices hub.store.pendingTokens }
  hub := hub
  conns := []

/-- The committed events of the session. -/
def State.events (cfg : Config) (s : State) : List EventPayload := s.log.db.events cfg.sessionID

/-! ## The row that was read first -/

/-- No event of the list says anything about the status. -/
def StatusFree (es : List EventPayload) : Prop := ∀ ev ∈ es, ev.kind ≠ .statusChange

/-- A session starts idle, and its status column stands until a status change is in the log. -/
def Idle (db : Store) (sid : String) : Prop :=
  ∀ sess, db.sessions sid = some sess → StatusFree (db.events sid) → sess.status = "idle"

/-- **`Agrees es acc acc'`** — two accumulators of the loop in `GetSnapshot` that the events `es` will not
tell apart. -/
structure Agrees (es : List EventPayload) (acc acc' : Store.SnapshotFold) : Prop where
  mode : acc.mode = acc'.mode
  pending : acc.pending = acc'.pending
  pendingQ : acc.pendingQ = acc'.pendingQ
  status : StatusFree es → acc.status = acc'.status
  lastSeq : es = [] → acc.lastSeq = acc'.lastSeq

theorem Agrees.step {ev : EventPayload} {es : List EventPayload} {acc acc' : Store.SnapshotFold}
    (h : Agrees (ev :: es) acc acc') : Agrees es (acc.step ev) (acc'.step ev) where
  mode := by cases hk : ev.kind <;> simp [Store.SnapshotFold.step, hk, h.mode]
  pending := by cases hk : ev.kind <;> simp [Store.SnapshotFold.step, hk, h.pending]
  pendingQ := by cases hk : ev.kind <;> simp [Store.SnapshotFold.step, hk, h.pendingQ]
  lastSeq _ := by cases hk : ev.kind <;> simp [Store.SnapshotFold.step, hk]
  status hfree := by
    by_cases hk : ev.kind = .statusChange
    · simp [Store.SnapshotFold.step, hk]
    · -- no event so far decides the status, and this one leaves it as it is
      have hsame : acc.status = acc'.status := by
        apply h.status
        intro e he
        rcases List.mem_cons.mp he with rfl | he
        · exact hk
        · exact hfree e he
      cases hkind : ev.kind <;> first
        | exact absurd hkind hk
        | simp [Store.SnapshotFold.step, hkind, hsame]

theorem Agrees.foldl {es : List EventPayload} :
    ∀ {acc acc' : Store.SnapshotFold}, Agrees es acc acc' →
      es.foldl Store.SnapshotFold.step acc = es.foldl Store.SnapshotFold.step acc' := by
  induction es with
  | nil =>
    intro acc acc' h
    have hstatus : acc.status = acc'.status := h.status fun _ hev => absurd hev List.not_mem_nil
    have hlast : acc.lastSeq = acc'.lastSeq := h.lastSeq rfl
    obtain ⟨hm, hp, hq, -, -⟩ := h
    show acc = acc'
    cases acc
    cases acc'
    simp_all only
  | cons ev es ih =>
    intro acc acc' h
    exact ih h.step

/-- **The row makes no difference**, if it stands for a log no longer than the events. -/
theorem snapshotOf_row (sid : String) {sess : Session} {es : List EventPayload}
    (hstatus : StatusFree es → sess.status = "idle") (hseq : es = [] → sess.lastSeq = 0) :
    Store.snapshotOf sid sess es = Store.snapshotOf sid ⟨"idle", 0⟩ es := by
  have hagree : Agrees es ⟨sess.status, "", sess.lastSeq, ∅, ∅⟩ ⟨"idle", "", 0, ∅, ∅⟩ :=
    ⟨rfl, rfl, rfl, hstatus, hseq⟩
  unfold Store.snapshotOf
  rw [hagree.foldl]

/-- The number a snapshot of a log carries is the length of the log. -/
theorem lastSeq_snapshotOf (sid : String) {es : List EventPayload}
    (hnum : Fanout.Numbered EventPayload.seq es) :
    (Store.snapshotOf sid ⟨"idle", 0⟩ es).lastSeq = es.length := by
  unfold Store.snapshotOf
  induction es using List.reverseRecOn with
  | nil => rfl
  | append_singleton es ev _ =>
    rw [List.foldl_concat, List.length_append, List.length_singleton, ← hnum.last]
    cases hk : ev.kind <;> simp [Store.SnapshotFold.step, hk]

/-! ## The tables while calls are under way -/

theorem idle_published {db view : Store} {c : Append.Call} {ev : EventPayload}
    (hidle : ∀ sid, Idle db sid) (h : Append.Published db view c ev) : ∀ sid, Idle view sid := by
  intro sid sess hsess hfree
  rw [h.events] at hfree
  by_cases hsid : sid = c.sessionID
  · subst hsid
    obtain ⟨row, status, hrow, -, hrow', hstatus⟩ := h.row
    rw [Function.update_self] at hfree
    rw [hrow', Option.some.injEq] at hsess
    subst hsess
    -- the new event is no status change, so the column is the one from before
    have hk : c.kind ≠ .statusChange := by
      rw [← h.kind]
      exact hfree ev (List.mem_append_right _ List.mem_cons_self)
    rw [hstatus hk]
    exact hidle c.sessionID row hrow fun e he => hfree e (List.mem_append_left _ he)
  · rw [Function.update_of_ne hsid] at hfree
    rw [h.others sid hsid] at hsess
    exact hidle sid sess hsess hfree

/-- No step of a call makes the status column disagree with a log that is free of status changes. -/
theorem idle_step {t : List Append.Obs} {s s' : Append.State} {a : Append.Action} {os : List Append.Obs}
    (h : Append.Sound t s) (hidle : ∀ sid, Idle s.db sid)
    (hs : Append.system.step s a = some (s', os)) : ∀ sid, Idle s'.db sid := by
  cases a with
  | createSession sid₀ =>
    obtain ⟨-, -, rfl, -⟩ := Append.step_createSession hs
    intro sid sess hsess hfree
    by_cases hsid : sid = sid₀
    · subst hsid
      rw [show (s.db.createSession sid).sessions sid = some ⟨"idle", 0⟩ from
        Function.update_self ..] at hsess
      cases hsess
      rfl
    · have hrow : (s.db.createSession sid₀).sessions sid = s.db.sessions sid :=
        Append.createSession_sessions_of_ne hsid
      have hev : (s.db.createSession sid₀).events sid = s.db.events sid :=
        Function.update_of_ne hsid ..
      exact hidle sid sess (hrow ▸ hsess) (hev ▸ hfree)
  | call c =>
    cases hs
    exact hidle
  | run i ok now =>
    obtain ⟨c, pc, hi, ht⟩ := Append.step_run hs
    rcases ht.db with ⟨ev, rfl, -, hdb⟩ | ⟨hdb, -⟩
    · rw [hdb]
      exact idle_published hidle (h.appended hi).published
    · rw [hdb]
      exact hidle

/-- The committed log of a session only grows. -/
theorem events_mono {t : List Append.Obs} {s s' : Append.State} {a : Append.Action} {os : List Append.Obs}
    (h : Append.Sound t s) (hs : Append.system.step s a = some (s', os)) (sid : String) :
    s.db.events sid <+: s'.db.events sid := by
  rcases Append.changes_step h hs with ⟨c, ev, -, hp⟩ | ⟨-, hev, -⟩
  · rw [hp.events]
    by_cases hsid : sid = c.sessionID
    · rw [hsid, Function.update_self]
      exact List.prefix_append _ _
    · rw [Function.update_of_ne hsid]
  · rw [hev]

/-! ## What a joining client has read -/

/-- **`Reads cfg log ph`** — what a connection has read so far, where `log` is the log by now. -/
def Reads (cfg : Config) (log : List EventPayload) : ConnPhase → Prop
  | .serving _ _ (.getEvents sess) =>
      ∃ p, p <+: log ∧ sess.lastSeq = p.length ∧ (StatusFree p → sess.status = "idle")
  | .serving _ _ (.getSince snap) =>
      ∃ p, p <+: log ∧ snap = Store.snapshotOf cfg.sessionID ⟨"idle", 0⟩ p
  | .serving _ k (.register snap events) =>
      ∃ p q, p <+: q ∧ q <+: log ∧ snap = Store.snapshotOf cfg.sessionID ⟨"idle", 0⟩ p ∧
        events = q.filter fun ev => decide (k < ev.seq)
  | _ => True

theorem Reads.mono {cfg : Config} {log log' : List EventPayload} {ph : ConnPhase} (hlog : log <+: log')
    (h : Reads cfg log ph) : Reads cfg log' ph := by
  unfold Reads at h ⊢
  split at h
  · obtain ⟨p, hp, hread⟩ := h
    exact ⟨p, hp.trans hlog, hread⟩
  · obtain ⟨p, hp, hread⟩ := h
    exact ⟨p, hp.trans hlog, hread⟩
  · obtain ⟨p, q, hpq, hq, hread⟩ := h
    exact ⟨p, q, hpq, hq.trans hlog, hread⟩
  · trivial

/-- One read of a joining client. -/
theorem Reads.serve {cfg : Config} {c : ConnId} {h h' : Hub} {dev : DeviceID} {k : Int} {pc : ServePc}
    {ph : ConnPhase} {os : List Hub.Obs} (ht : ServeTrans cfg c h dev k pc h' ph os)
    (hrow : ∀ sess, h.store.sessions cfg.sessionID = some sess →
      sess.lastSeq = (h.store.events cfg.sessionID).length ∧
        (StatusFree (h.store.events cfg.sessionID) → sess.status = "idle"))
    (hr : Reads cfg (h.store.events cfg.sessionID) (.serving dev k pc)) :
    Reads cfg (h.store.events cfg.sessionID) ph := by
  cases ht with
  | getSession hsess => exact ⟨_, List.prefix_refl _, hrow _ hsess⟩
  | getEvents =>
    obtain ⟨p, hp, hlast, hstatus⟩ := hr
    refine ⟨_, List.prefix_refl _, snapshotOf_row cfg.sessionID (fun hfree => ?_) fun hnil => ?_⟩
    · exact hstatus fun ev hev => hfree ev (hp.mem hev)
    · rw [hnil, List.prefix_nil] at hp
      rw [hlast, hp]
      rfl
  | getSince =>
    obtain ⟨p, hp, hsnap⟩ := hr
    exact ⟨p, _, hp, List.prefix_refl _, hsnap, Store.getEventsSince_unlimited ..⟩
  | register | quit => trivial

/-- **`Told cfg hub₀ s`** — the tables are those of calls of `AppendEvent`, the status columns stand, and
every connection has read prefixes of the log. -/
structure Told (cfg : Config) (hub₀ : Hub) (s : State) : Prop where
  reached : ∃ t, Append.system.Run Lts.Free [] (start hub₀).log t s.log
  idle : ∀ sid, Idle s.log.db sid
  reads : ∀ (c : ConnId) ph, s.conns[c]? = some ph → Reads cfg (s.events cfg) ph

theorem Told.sound {cfg : Config} {hub₀ : Hub} {s : State} (h : Told cfg hub₀ s) :
    ∃ t, Append.Sound t s.log := by
  obtain ⟨t, hrun⟩ := h.reached
  exact ⟨t, Append.sound hrun⟩

/-- The row of the session says how long the log is. -/
theorem Told.row {cfg : Config} {hub₀ : Hub} {s : State} (h : Told cfg hub₀ s) {sess : Session}
    (hsess : s.log.db.sessions cfg.sessionID = some sess) :
    sess.lastSeq = (s.events cfg).length ∧ (StatusFree (s.events cfg) → sess.status = "idle") := by
  obtain ⟨t, hsound⟩ := h.sound
  refine ⟨?_, h.idle cfg.sessionID sess hsess⟩
  have hnum := congrArg List.length ((hsound.contiguous cfg.sessionID).numbered sess hsess)
  rw [List.length_map, List.length_range'] at hnum
  exact hnum.symm

theorem Told.numbered {cfg : Config} {hub₀ : Hub} {s : State} (h : Told cfg hub₀ s) :
    Fanout.Numbered EventPayload.seq (s.events cfg) := by
  obtain ⟨t, hsound⟩ := h.sound
  cases hsess : s.log.db.sessions cfg.sessionID with
  | none =>
    rw [State.events, (hsound.contiguous cfg.sessionID).missing hsess]
    rfl
  | some sess =>
    rw [Fanout.Numbered, ← (h.row hsess).1]
    exact (hsound.contiguous cfg.sessionID).numbered sess hsess

theorem told_step {cfg : Config} {hub₀ : Hub} {s s' : State} {a : Action} {os : List Hub.Obs}
    (h : Told cfg hub₀ s) (hs : (system cfg).step s a = some (s', os)) : Told cfg hub₀ s' := by
  cases a with
  | append a =>
    simp only [system, Option.map_eq_some_iff, Prod.mk.injEq] at hs
    obtain ⟨⟨log, os⟩, hstep, rfl, -⟩ := hs
    obtain ⟨t, hrun⟩ := h.reached
    have hsound : Append.Sound t s.log := Append.sound hrun
    have hmono := events_mono hsound hstep cfg.sessionID
    exact ⟨⟨_, hrun.tail trivial hstep⟩, idle_step hsound h.idle hstep,
      fun c ph hc => (h.reads c ph hc).mono hmono⟩
  | hello dev k =>
    cases hs
    refine ⟨h.reached, h.idle, fun c ph hc => ?_⟩
    rcases getElem?_concat_cases hc with hold | ⟨-, rfl⟩
    · exact h.reads c ph hold
    · trivial
  | serve c ch =>
    simp only [system] at hs
    split at hs
    · rename_i dev k pc hc
      simp only [Option.map_eq_some_iff, Prod.mk.injEq] at hs
      obtain ⟨⟨hub, ph', os'⟩, hstep, rfl, -⟩ := hs
      refine ⟨h.reached, h.idle, fun c' ph hc' => ?_⟩
      rcases getElem?_set_cases hc' with ⟨-, rfl⟩ | ⟨-, hold⟩
      · exact Reads.serve (serveStep_trans hstep) (fun _ => h.row) (h.reads c _ hc)
      · exact h.reads c' ph hold
    · cases hs
  | others hub =>
    cases hs
    exact ⟨h.reached, h.idle, h.reads⟩

theorem told {cfg : Config} {hub₀ : Hub} {tr : List Hub.Obs} {s : State}
    (h : (system cfg).Run Lts.Free [] (start hub₀) tr s) : Told cfg hub₀ s := by
  refine h.invariant (I := fun _ u => Told cfg hub₀ u) ?_ fun _ _ _ _ _ _ ih _ hs => told_step ih hs
  exact ⟨⟨[], .refl⟩, fun _ _ hsess => (by cases hsess), fun _ _ hc => (by cases hc)⟩

/-- What a batch beyond `k` holds. A negative `k` asks for the whole log. -/
theorem filter_seq_eq_drop {q : List EventPayload} (h : Fanout.Numbered EventPayload.seq q) (k : Int) :
    (q.filter fun ev => decide (k < ev.seq)) = q.drop k.toNat := by
  rw [← h.filter_eq_drop k.toNat]
  refine List.filter_congr fun ev hev => ?_
  have := h.bounds hev
  rw [decide_eq_decide]
  omega

/-- A batch is offered as a whole and in order, whatever is queued of it. -/
theorem enqueueAll_offers {cfg : Config} {c : ConnId} {fs : List Envelope} {h h' : Hub}
    {os : List Hub.Obs} (he : enqueueAll cfg h c fs = (h', os)) :
    os.filterMap Hub.Obs.offer = fs.map fun f => (c, f) := by
  obtain ⟨-, -, -, hos⟩ := enqueueAll_spec he
  calc os.filterMap Hub.Obs.offer
      = (os.map Hub.Obs.offer).filterMap id := by rw [List.filterMap_map]; rfl
    _ = (fs.map fun f => some (c, f)).filterMap id := by rw [hos]
    _ = fs.map fun f => (c, f) := by rw [List.filterMap_map]; exact congrFun List.filterMap_eq_map' fs

/-- **Snapshot and catch-up are consistent with each other.** Whatever commits between the three reads of
a joining client: the snapshot is the fold of the first `lastSeq` events of the log over a new session,
the catch-up is the log from `k + 1` up to some `m` which is not less than `lastSeq`, so it has every event
beyond `k` that the snapshot counts in, and this is what the client is sent. -/
theorem catch_up_consistent {cfg : Config} {hub₀ : Hub} {tr : List Hub.Obs} {s : State}
    (h : (system cfg).Run Lts.Free [] (start hub₀) tr s) {c : ConnId} {dev : DeviceID} {k : Int}
    {snap : Snapshot} {events : List EventPayload}
    (hc : s.conns[c]? = some (.serving dev k (.register snap events))) :
    (s.events cfg).map EventPayload.seq = List.range' 1 (s.events cfg).length ∧
    ∃ m, snap.lastSeq ≤ m ∧ m ≤ (s.events cfg).length ∧
      snap = Store.snapshotOf cfg.sessionID ⟨"idle", 0⟩ ((s.events cfg).take snap.lastSeq) ∧
      events = ((s.events cfg).take m).drop k.toNat ∧
      (∀ ev ∈ (s.events cfg).take snap.lastSeq, k < ev.seq → ev ∈ events) ∧
      ∀ out s' os, (system cfg).step s (.serve c (.call out)) = some (s', os) →
        os.filterMap Hub.Obs.offer =
          (c, .snapshot (snapshotToPayload s.shared snap (out = .ok))) ::
            events.map fun ev => (c, .event ev) := by
  have htold : Told cfg hub₀ s := told h
  obtain ⟨p, q, hpq, hq, hsnap, hevents⟩ := htold.reads c _ hc
  have hnum : Fanout.Numbered EventPayload.seq (s.events cfg) := htold.numbered
  have hnumq : Fanout.Numbered EventPayload.seq q := by
    obtain ⟨r, hr⟩ := hq
    rw [← hr] at hnum
    exact hnum.left
  have hnump : Fanout.Numbered EventPayload.seq p := by
    obtain ⟨r, rfl⟩ := hpq
    exact hnumq.left
  have hlast : snap.lastSeq = p.length := by
    rw [hsnap]
    exact lastSeq_snapshotOf cfg.sessionID hnump
  have hp : (s.events cfg).take snap.lastSeq = p := by
    rw [hlast]
    exact (List.prefix_iff_eq_take.mp (hpq.trans hq)).symm
  refine ⟨hnum, q.length, ?_, hq.length_le, ?_, ?_, ?_, ?_⟩
  · rw [hlast]
    exact hpq.length_le
  · rw [hp]
    exact hsnap
  · rw [← List.prefix_iff_eq_take.mp hq, hevents]
    exact filter_seq_eq_drop hnumq k
  · intro ev hev hk
    rw [hp] at hev
    rw [hevents]
    exact List.mem_filter.mpr ⟨hpq.mem hev, decide_eq_true hk⟩
  · intro out s' os hs
    simp only [system, hc, serveStep, Option.map_some, Option.some.injEq, Prod.mk.injEq] at hs
    obtain ⟨-, rfl⟩ := hs
    rw [List.filterMap_cons_none (by rfl), enqueueAll_offers rfl, List.map_cons, List.map_map]
    rfl

namespace Sample

/-- One call of `AppendEvent` from its marshalling to its commit. -/
def append (i : Nat) (call : Append.Call) : List Action :=
  .append (.call call) :: List.replicate 6 (.append (.run i true 0))

def working : Append.Call := ⟨"session", .statusChange, StatusChangeBody.toJson ⟨"working"⟩⟩

def planMode : Append.Call := ⟨"session", .modeChanged, ModeChangedBody.toJson ⟨"plan", ""⟩⟩

/-- A phone joins with `lastSeq = 0` and an event is committed after each of its reads. -/
def busy : List Action :=
  [.append (.createSession "session"), .hello Hub.Sample.phone 0, .serve 0 (.call .ok)] ++
    append 0 working ++ [.serve 0 (.call .ok)] ++ append 1 planMode ++ [.serve 0 (.call .ok)]

end Sample

/-- What connection `c` has read when it is about to register. -/
def State.answer (s : State) (c : ConnId) : Option (Int × Snapshot × List EventPayload) :=
  match s.conns[c]? with
  | some (.serving _ k (.register snap events)) => some (k, snap, events)
  | _ => none

theorem State.of_answer {s : State} {c : ConnId} {k : Int} {snap : Snapshot} {events : List EventPayload}
    (h : s.answer c = some (k, snap, events)) :
    ∃ dev, s.conns[c]? = some (.serving dev k (.register snap events)) := by
  unfold State.answer at h
  split at h
  · rename_i dev _ _ _ hc
    cases h
    exact ⟨dev, hc⟩
  · cases h

/-- The row of this run said `idle` and 0. The snapshot counts the first event in, the catch-up has
both. -/
theorem catch_up_consistent_busy :
    ∃ tr s snap events m, (system Hub.Sample.config).Run Lts.Free [] (start Hub.Sample.start.hub) tr s ∧
      s.answer 0 = some (0, snap, events) ∧ snap.lastSeq = 1 ∧ snap.status = "working" ∧ 1 ≤ m ∧
      events = ((s.events Hub.Sample.config).take m).drop 0 ∧ events.map EventPayload.seq = [1, 2] := by
  have hexec : (((system Hub.Sample.config).exec (fun _ _ _ => true) [] (start Hub.Sample.start.hub)
      Sample.busy).bind fun r => (r.2.answer 0).map fun a =>
        (a.1, a.2.1.lastSeq, a.2.1.status, a.2.2.map EventPayload.seq)) =
      some (0, 1, "working", [1, 2]) := by
    decide +kernel
  obtain ⟨⟨tr, s⟩, hexec, hanswer⟩ := Option.bind_eq_some_iff.mp hexec
  obtain ⟨⟨k, snap, events⟩, hanswer, heq⟩ := Option.map_eq_some_iff.mp hanswer
  simp only [Prod.mk.injEq] at heq
  obtain ⟨rfl, hlast, hstatus, hseqs⟩ := heq
  have hrun := Lts.run_of_exec (P := Lts.Free) (fun _ _ _ _ => trivial) hexec
  obtain ⟨dev, hc⟩ := State.of_answer hanswer
  obtain ⟨-, m, hm, -, -, hevents, -, -⟩ := catch_up_consistent hrun hc
  exact ⟨tr, s, snap, events, m, hrun, hanswer, hlast, hstatus, hlast ▸ hm, hevents, hseqs⟩

end Harness.Joining
