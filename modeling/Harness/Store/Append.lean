/-
# Harness.Store.Append — `AppendEvent` as the transaction it is.

`Store.appendEvent` is what a successful call does to the tables. Here a call is taken apart into its
statements: marshal, `BEGIN`, the `UPDATE` that counts `last_seq` up, the `INSERT`, the refresh of the
status column and `COMMIT`. Each may fail, and any number of calls are under way at once. SQLite gives
atomic and serialised transactions: the statements of one see and change a view of their own, which
replaces the tables on `COMMIT` and is dropped otherwise, and no two are open together.

`log_contiguous` is the law of the log, and `commit_refines` connects the calls to `Store.appendEvent`.
-/
import Harness.Store
import Harness.Lib.Paging
import Harness.Lib.Threads
import Harness.Lib.Transition
import Mathlib.Order.Basic

namespace Harness.Append

open Wire Lib

/-! ## Statements -/

/-- `UPDATE sessions SET last_seq = last_seq + 1 WHERE id = ? RETURNING last_seq`; no row is an error
of `Scan`. -/
def bumpSeq (db : Store) (sid : String) : Option (Nat × Store) :=
  match db.sessions sid with
  | none => none
  | some sess =>
      some (sess.lastSeq + 1,
        { db with
          sessions := Function.update db.sessions sid (some { sess with lastSeq := sess.lastSeq + 1 }) })

/-- `INSERT INTO events`: the primary key is the session and the seq. -/
def insertEvent (db : Store) (sid : String) (ev : EventPayload) : Option Store :=
  if (db.events sid).any (·.seq == ev.seq) then none
  else
    some { db with
      events := Function.update db.events sid
        ((db.events sid).orderedInsert (fun a b => a.seq ≤ b.seq) ev) }

/-- `UPDATE sessions SET status = ? WHERE id = ?`. -/
def setStatus (db : Store) (sid status : String) : Store :=
  match db.sessions sid with
  | none => db
  | some sess =>
      { db with sessions := Function.update db.sessions sid (some { sess with status := status }) }

/-! ## Calls -/

/-- The arguments of `AppendEvent`. `payload` is what `json.Marshal` makes of its argument. -/
structure Call where
  sessionID : String
  kind : EventKind
  payload : Json

/-- The denormalized status, for a body that decodes. -/
def refreshStatus (db : Store) (call : Call) : Store :=
  if call.kind = .statusChange then
    match StatusChangeBody.decodeStrict call.payload with
    | some body => setStatus db call.sessionID body.status
    | none => db
  else db

/-- The statement a call runs next, with its local variables. -/
inductive Pc where
  | marshal
  | begin
  | update
  | insert (seq : Nat)
  | refresh (ev : EventPayload)
  | commit (ev : EventPayload)
  | returned

/-- A transaction is open. -/
def Pc.inTxn : Pc → Bool
  | .update | .insert _ | .refresh _ | .commit _ => true
  | _ => false

/-- The committed tables, the view of the open transaction with the call it belongs to, and all calls
ever made. -/
structure State where
  db : Store
  txn : Option (Nat × Store) := none
  calls : List (Call × Pc) := []

inductive Action where
  /-- `CreateSession`, one statement -/
  | createSession (sid : String)
  | call (c : Call)
  /-- call `i` runs its next statement: whether that works, and what the clock shows -/
  | run (i : Nat) (ok : Bool) (now : Int)

/-- A call returns. -/
inductive Obs where
  | returned (c : Call) (r : Option EventPayload)

namespace State

variable (s : State) (i : Nat) (c : Call)

def goto (pc : Pc) : State := { s with calls := s.calls.set i (c, pc) }

/-- `return nil, err` before there is a transaction. -/
def refuse : State × List Obs := (s.goto i c .returned, [.returned c none])

/-- `return nil, err`, and the deferred `Rollback`. -/
def rollback : State × List Obs := ({ s with txn := none }.refuse i c)

/-- A statement of the open transaction. -/
def within (view : Store) (pc : Pc) : State × List Obs :=
  ({ s.goto i c pc with txn := some (i, view) }, [])

/-- The next statement of call `i`, with the view of its transaction. -/
def statement (view : Store) (ok : Bool) (now : Int) : Pc → Option (State × List Obs)
  | .marshal => some (if ok then (s.goto i c .begin, []) else s.refuse i c)
  | .begin =>
      if s.txn.isSome then none
      else some (if ok then s.within i c s.db .update else s.refuse i c)
  | .update =>
      match ok, bumpSeq view c.sessionID with
      | true, some (seq, view) => some (s.within i c view (.insert seq))
      | _, _ => some (s.rollback i c)
  | .insert seq =>
      let ev : EventPayload := { seq := seq, ts := unixMilli now, kind := c.kind, payload := c.payload }
      match ok, insertEvent view c.sessionID ev with
      | true, some view => some (s.within i c view (.refresh ev))
      | _, _ => some (s.rollback i c)
  -- the error of this statement is dropped
  | .refresh ev => some (s.within i c (if ok then refreshStatus view c else view) (.commit ev))
  | .commit ev =>
      if ok then some ({ s.goto i c .returned with db := view, txn := none }, [.returned c (some ev)])
      else some (s.rollback i c)
  | .returned => none

end State

/-- The view a call works on. -/
def State.view (s : State) : Store := (s.txn.map (·.2)).getD s.db

/-- Calls in progress. A session gets a fresh id, and its row while no transaction is open. -/
def system : Lts State Action Obs where
  step s
    | .createSession sid =>
        if s.txn.isNone && (s.db.sessions sid).isNone then
          some ({ s with db := s.db.createSession sid }, [])
        else none
    | .call c => some ({ s with calls := s.calls ++ [(c, .marshal)] }, [])
    | .run i ok now =>
        match s.calls[i]? with
        | none => none
        | some (c, pc) => s.statement i c s.view ok now pc

/-- The tables after `migrate` on a new file. -/
def emptyStore (devices : List Device) (pendingTokens : String → Option PendingToken) : Store where
  sessions _ := none
  events _ := []
  devices := devices
  pendingTokens := pendingTokens

/-! ## The view of a transaction -/

/-- **`Contiguous db sid`** — the events of the session are numbered `1 .. last_seq`. -/
structure Contiguous (db : Store) (sid : String) : Prop where
  numbered : ∀ sess, db.sessions sid = some sess →
    (db.events sid).map (·.seq) = List.range' 1 sess.lastSeq
  missing : db.sessions sid = none → db.events sid = []

/-- The same tables, apart from the status column. -/
structure UpToStatus (db db' : Store) : Prop where
  lastSeq : ∀ sid, (db.sessions sid).map (·.lastSeq) = (db'.sessions sid).map (·.lastSeq)
  events : db.events = db'.events
  devices : db.devices = db'.devices
  pendingTokens : db.pendingTokens = db'.pendingTokens

/-- **`Appended db view c ev`** — the view is the tables after `Store.appendEvent`, with the status column
refreshed or not. Only a status change refreshes it, and only in its own session. -/
def Appended (db view : Store) (c : Call) (ev : EventPayload) : Prop :=
  ∃ now db', db.appendEvent c.sessionID c.kind c.payload now = some (ev, db') ∧ UpToStatus view db' ∧
    ∀ sid, (sid = c.sessionID → c.kind ≠ .statusChange) → view.sessions sid = db'.sessions sid

/-- What the view of a transaction holds before the statement `pc`. -/
def Views (db view : Store) (c : Call) : Pc → Prop
  | .update => view = db
  | .insert seq => bumpSeq db c.sessionID = some (seq, view)
  | .refresh ev | .commit ev => Appended db view c ev
  | _ => False

theorem upToStatus_setStatus {db db' : Store} (h : UpToStatus db db') (sid status : String) :
    UpToStatus (setStatus db sid status) db' := by
  unfold setStatus
  split
  · exact h
  · rename_i sess hs
    refine ⟨fun sid' => ?_, h.events, h.devices, h.pendingTokens⟩
    rw [← h.lastSeq sid']
    by_cases hsid : sid' = sid
    · subst hsid
      simp [hs]
    · simp [Function.update_of_ne hsid]

theorem upToStatus_refreshStatus {db db' : Store} (h : UpToStatus db db') (c : Call) :
    UpToStatus (refreshStatus db c) db' := by
  unfold refreshStatus
  split
  · split
    · exact upToStatus_setStatus h _ _
    · exact h
  · exact h

/-- A seq past all others goes to the end. -/
theorem orderedInsert_of_lt {l : List EventPayload} {ev : EventPayload}
    (h : ∀ e ∈ l, e.seq < ev.seq) : l.orderedInsert (fun a b => a.seq ≤ b.seq) ev = l ++ [ev] := by
  induction l with
  | nil => rfl
  | cons e l ih =>
      have he : ¬ ev.seq ≤ e.seq := Nat.not_le.mpr (h e List.mem_cons_self)
      rw [List.orderedInsert_cons, if_neg he, ih fun e' he' => h e' (List.mem_cons_of_mem e he')]
      rfl

theorem Contiguous.lt {db : Store} {sid : String} (h : Contiguous db sid) {sess : Session}
    (hs : db.sessions sid = some sess) : ∀ e ∈ db.events sid, e.seq < sess.lastSeq + 1 := by
  intro e he
  have hmem : e.seq ∈ (db.events sid).map (·.seq) := List.mem_map_of_mem he
  rw [h.numbered sess hs, List.mem_range'_1] at hmem
  omega

/-- `Store.appendEvent` on a session whose next seq is free. -/
theorem appendEvent_of_row {db : Store} {sid : String} {sess : Session} (hs : db.sessions sid = some sess)
    (hnew : ¬ ((db.events sid).any (·.seq == sess.lastSeq + 1)) = true) (kind : EventKind)
    (payload : Json) (now : Int) :
    ∃ status, (kind ≠ .statusChange → status = sess.status) ∧ db.appendEvent sid kind payload now =
      some (⟨sess.lastSeq + 1, unixMilli now, kind, payload⟩,
        { db with
          sessions := Function.update db.sessions sid (some ⟨status, sess.lastSeq + 1⟩)
          events := Function.update db.events sid
            (db.events sid ++ [⟨sess.lastSeq + 1, unixMilli now, kind, payload⟩]) }) := by
  unfold Store.appendEvent
  simp only [hs]
  rw [if_neg hnew]
  exact ⟨_, fun hk => if_neg hk, rfl⟩

/-- The `INSERT` after the `UPDATE` is an append. -/
theorem appended_insertEvent {db view view' : Store} {c : Call} {seq : Nat} {now : Int}
    (hc : Contiguous db c.sessionID) (hbump : bumpSeq db c.sessionID = some (seq, view))
    (hins : insertEvent view c.sessionID ⟨seq, unixMilli now, c.kind, c.payload⟩ = some view') :
    Appended db view' c ⟨seq, unixMilli now, c.kind, c.payload⟩ := by
  unfold bumpSeq at hbump
  split at hbump
  · cases hbump
  · rename_i sess hs
    cases hbump
    unfold insertEvent at hins
    dsimp only at hins
    split at hins
    · cases hins
    · rename_i hnew
      rw [orderedInsert_of_lt (hc.lt hs)] at hins
      cases hins
      obtain ⟨status, hstatus, happ⟩ := appendEvent_of_row hs hnew c.kind c.payload now
      refine ⟨now, _, happ, ⟨fun sid => ?_, rfl, rfl, rfl⟩, fun sid hk => ?_⟩
      · by_cases hsid : sid = c.sessionID
        · subst hsid
          simp
        · simp [Function.update_of_ne hsid]
      · by_cases hsid : sid = c.sessionID
        · rw [hstatus (hk hsid)]
        · simp [Function.update_of_ne hsid]

theorem refreshStatus_sessions (db : Store) {c : Call} {sid : String}
    (h : sid = c.sessionID → c.kind ≠ .statusChange) :
    (refreshStatus db c).sessions sid = db.sessions sid := by
  unfold refreshStatus setStatus
  by_cases hk : c.kind = .statusChange
  · have hsid : sid ≠ c.sessionID := fun hsid => h hsid hk
    rw [if_pos hk]
    split
    · split
      · rfl
      · exact Function.update_of_ne hsid ..
    · rfl
  · rw [if_neg hk]

theorem Appended.refresh {db view : Store} {c : Call} {ev : EventPayload} (h : Appended db view c ev) :
    Appended db (refreshStatus view c) c ev := by
  obtain ⟨now, db', happ, hup, hrow⟩ := h
  refine ⟨now, db', happ, upToStatus_refreshStatus hup c, fun sid hk => ?_⟩
  rw [← hrow sid hk]
  exact refreshStatus_sessions view hk

/-- What `COMMIT` publishes: the event at the end of its session's log, nothing else. -/
structure Published (db view : Store) (c : Call) (ev : EventPayload) : Prop where
  kind : ev.kind = c.kind
  payload : ev.payload = c.payload
  row : ∃ sess status, db.sessions c.sessionID = some sess ∧ ev.seq = sess.lastSeq + 1 ∧
    view.sessions c.sessionID = some ⟨status, ev.seq⟩ ∧
    (c.kind ≠ .statusChange → status = sess.status)
  others : ∀ sid, sid ≠ c.sessionID → view.sessions sid = db.sessions sid
  events : view.events = Function.update db.events c.sessionID (db.events c.sessionID ++ [ev])

theorem Appended.published {db view : Store} {c : Call} {ev : EventPayload}
    (h : Appended db view c ev) : Published db view c ev := by
  obtain ⟨now, db', happ, hup, hsame⟩ := h
  obtain ⟨⟨sess, hs, hseq, status, hstatus, hsess⟩, hk, hp, hev, -, -⟩ := Store.appendEvent_spec happ
  refine ⟨hk, hp, ?_, fun sid hsid => ?_, hup.events.trans hev⟩
  · have hrow := hup.lastSeq c.sessionID
    rw [hsess, Function.update_self, Option.map_some] at hrow
    obtain ⟨row, hrow, hlast⟩ := Option.map_eq_some_iff.mp hrow
    refine ⟨sess, row.status, hs, hseq, ?_, fun hk => ?_⟩
    · rw [hrow, hseq]
      cases row
      cases hlast
      rfl
    · have hrows := hsame c.sessionID fun _ => hk
      rw [hrow, hsess, Function.update_self, Option.some.injEq] at hrows
      rw [hrows]
      exact hstatus hk
  · rw [hsame sid fun h => absurd h hsid, hsess, Function.update_of_ne hsid]

theorem Published.contiguous {db view : Store} {c : Call} {ev : EventPayload}
    (h : Published db view c ev) (hc : ∀ sid, Contiguous db sid) (sid : String) :
    Contiguous view sid := by
  by_cases hsid : sid = c.sessionID
  · subst hsid
    obtain ⟨sess, status, hs, hseq, hrow, -⟩ := h.row
    refine ⟨fun sess' hs' => ?_, fun hnone => ?_⟩
    · rw [hrow] at hs'
      cases hs'
      rw [h.events, Function.update_self, List.map_append, (hc c.sessionID).numbered sess hs, hseq,
        List.range'_1_concat]
      simp [hseq, Nat.add_comm]
    · rw [hrow] at hnone
      cases hnone
  · have hrow := h.others sid hsid
    refine ⟨fun sess' hs' => ?_, fun hnone => ?_⟩
    · rw [h.events, Function.update_of_ne hsid]
      exact (hc sid).numbered sess' (hrow ▸ hs')
    · rw [h.events, Function.update_of_ne hsid]
      exact (hc sid).missing (hrow ▸ hnone)

/-! ## What a step can do -/

/-- **`StatementTrans s i c view pc s' os`** — what the next statement of a call does: it fails, which ends
the call and its transaction, or it works. -/
inductive StatementTrans (s : State) (i : Nat) (c : Call) (view : Store) : Pc → State → List Obs → Prop
  | failed {pc : Pc} {txn : Option (Nat × Store)} (htxn : txn = if pc.inTxn then none else s.txn) :
      StatementTrans s i c view pc { s with txn := txn, calls := s.calls.set i (c, .returned) }
        [.returned c none]
  | marshalled : StatementTrans s i c view .marshal (s.goto i c .begin) []
  | begun (hnone : s.txn = none) : StatementTrans s i c view .begin (s.within i c s.db .update).1 []
  | bumped {seq : Nat} {view' : Store} (hbump : bumpSeq view c.sessionID = some (seq, view')) :
      StatementTrans s i c view .update (s.within i c view' (.insert seq)).1 []
  | inserted {seq : Nat} {now : Int} {view' : Store}
      (hins : insertEvent view c.sessionID ⟨seq, unixMilli now, c.kind, c.payload⟩ = some view') :
      StatementTrans s i c view (.insert seq)
        (s.within i c view' (.refresh ⟨seq, unixMilli now, c.kind, c.payload⟩)).1 []
  | refreshed {ev : EventPayload} {ok : Bool} :
      StatementTrans s i c view (.refresh ev)
        (s.within i c (if ok then refreshStatus view c else view) (.commit ev)).1 []
  | committed {ev : EventPayload} :
      StatementTrans s i c view (.commit ev) { s.goto i c .returned with db := view, txn := none }
        [.returned c (some ev)]

theorem statement_trans {s s' : State} {i : Nat} {c : Call} {view : Store} {ok : Bool} {now : Int} {pc : Pc}
    {os : List Obs} (hs : s.statement i c view ok now pc = some (s', os)) :
    StatementTrans s i c view pc s' os := by
  cases pc with
  | marshal =>
      simp only [State.statement, Option.some.injEq] at hs
      split at hs
      · cases hs
        exact .marshalled
      · cases hs
        exact .failed rfl
  | begin =>
      simp only [State.statement] at hs
      split at hs
      · cases hs
      · rename_i hnone
        rw [Option.some.injEq] at hs
        split at hs
        · cases hs
          exact .begun (by simpa using hnone)
        · cases hs
          exact .failed rfl
  | update =>
      simp only [State.statement] at hs
      split at hs
      · rename_i hbump
        cases hs
        exact .bumped hbump
      · cases hs
        exact .failed rfl
  | insert seq =>
      simp only [State.statement] at hs
      split at hs
      · rename_i hins
        cases hs
        exact .inserted hins
      · cases hs
        exact .failed rfl
  | refresh ev =>
      cases hs
      exact .refreshed
  | commit ev =>
      simp only [State.statement] at hs
      split at hs
      · cases hs
        exact .committed
      · cases hs
        exact .failed rfl
  | returned => cases hs

theorem step_run {s s' : State} {i : Nat} {ok : Bool} {now : Int} {os : List Obs}
    (hs : system.step s (.run i ok now) = some (s', os)) :
    ∃ c pc, s.calls[i]? = some (c, pc) ∧ StatementTrans s i c s.view pc s' os := by
  simp only [system] at hs
  split at hs
  · cases hs
  · rename_i c pc hi
    exact ⟨c, pc, hi, statement_trans hs⟩

theorem step_createSession {s s' : State} {sid : String} {os : List Obs}
    (hs : system.step s (.createSession sid) = some (s', os)) :
    s.txn = none ∧ s.db.sessions sid = none ∧ s' = { s with db := s.db.createSession sid } ∧ os = [] := by
  simp only [system] at hs
  split at hs
  · rename_i hfresh
    rw [Bool.and_eq_true, Option.isNone_iff_eq_none, Option.isNone_iff_eq_none] at hfresh
    cases hs
    exact ⟨hfresh.1, hfresh.2, rfl, rfl⟩
  · cases hs

/-- A session whose log was empty gets a row, and the logs stay. -/
theorem createSession_events {db : Store} {sid : String} (hempty : db.events sid = []) :
    (db.createSession sid).events = db.events := by
  show Function.update db.events sid [] = db.events
  rw [← hempty, Function.update_eq_self]

theorem createSession_sessions_of_ne {db : Store} {sid sid' : String} (hne : sid' ≠ sid) :
    (db.createSession sid).sessions sid' = db.sessions sid' :=
  Function.update_of_ne hne ..

theorem Contiguous.createSession {db : Store} {sid sid' : String} (h : Contiguous db sid')
    (hempty : db.events sid = []) : Contiguous (db.createSession sid) sid' := by
  have hevents := createSession_events hempty
  by_cases hsid : sid' = sid
  · subst hsid
    refine ⟨fun sess hsess => ?_, fun _ => ?_⟩
    · obtain rfl : Session.mk "idle" 0 = sess := by
        simpa [Store.createSession] using hsess
      rw [hevents, hempty]
      rfl
    · rw [hevents]
      exact hempty
  · have hrow : (db.createSession sid).sessions sid' = db.sessions sid' :=
      createSession_sessions_of_ne hsid
    refine ⟨fun sess hsess => ?_, fun hnone => ?_⟩
    · rw [hevents]
      exact h.numbered sess (hrow ▸ hsess)
    · rw [hevents]
      exact h.missing (hrow ▸ hnone)

/-! ## The law of the log -/

/-- The event a call returned, when it was for this session. -/
def Obs.stored (sid : String) : Obs → Option EventPayload
  | .returned c (some ev) => if c.sessionID = sid then some ev else none
  | .returned _ none => none

/-- **`Sound tr s`** — every log is contiguous and holds what the calls returned, and the open
transaction belongs to the one call that is inside it. -/
structure Sound (tr : List Obs) (s : State) : Prop where
  contiguous : ∀ sid, Contiguous s.db sid
  log : ∀ sid, s.db.events sid = tr.filterMap (Obs.stored sid)
  returned : ∀ c ev, .returned c (some ev) ∈ tr → ev.kind = c.kind ∧ ev.payload = c.payload
  opened : ∀ i view, s.txn = some (i, view) → ∃ c pc, s.calls[i]? = some (c, pc) ∧ Views s.db view c pc
  owner : ∀ (i : Nat) c pc, s.calls[i]? = some (c, pc) → pc.inTxn = true → ∃ view, s.txn = some (i, view)

theorem Views.inTxn {db view : Store} {c : Call} {pc : Pc} (h : Views db view c pc) : pc.inTxn = true := by
  cases pc <;> first | rfl | exact h.elim

namespace Sound

variable {tr : List Obs} {s : State} {i : Nat} {c : Call} {pc : Pc}

/-- The view of a call inside its transaction. -/
theorem view_eq (h : Sound tr s) (hi : s.calls[i]? = some (c, pc)) (hin : pc.inTxn = true) :
    ∃ view, s.txn = some (i, view) ∧ s.view = view ∧ Views s.db view c pc := by
  obtain ⟨view, ht⟩ := h.owner i c pc hi hin
  obtain ⟨c', pc', hi', hv⟩ := h.opened i view ht
  rw [hi] at hi'
  cases hi'
  exact ⟨view, ht, by rw [State.view, ht]; rfl, hv⟩

/-- What is about to be committed is what `AppendEvent` makes of the tables. -/
theorem appended (h : Sound tr s) {ev : EventPayload} (hi : s.calls[i]? = some (c, .commit ev)) :
    Appended s.db s.view c ev := by
  obtain ⟨view, -, hview, hv⟩ := h.view_eq hi rfl
  rw [hview]
  exact hv

/-- Call `i` goes on to a statement outside a transaction, and none is left open that was its own. -/
theorem leave (h : Sound tr s) {txn : Option (Nat × Store)} {pc' : Pc} {os : List Obs}
    (hi : s.calls[i]? = some (c, pc)) (hout : pc'.inTxn = false)
    (htxn : txn = if pc.inTxn then none else s.txn)
    (hos : ∀ sid, os.filterMap (Obs.stored sid) = [])
    (hret : ∀ c ev, .returned c (some ev) ∉ os) :
    Sound (tr ++ os) { s with txn := txn, calls := s.calls.set i (c, pc') } where
  contiguous := h.contiguous
  log sid := by
    rw [List.filterMap_append, hos, List.append_nil]
    exact h.log sid
  returned c' ev hmem := by
    rcases List.mem_append.mp hmem with hmem | hmem
    · exact h.returned c' ev hmem
    · exact absurd hmem (hret c' ev)
  opened j view hj := by
    cases hin : pc.inTxn with
    | true =>
        rw [htxn, hin] at hj
        cases hj
    | false =>
        rw [htxn, hin] at hj
        obtain ⟨c', pc', hc, hv⟩ := h.opened j view hj
        have hne : j ≠ i := by
          rintro rfl
          rw [hi] at hc
          cases hc
          rw [hv.inTxn] at hin
          cases hin
        exact ⟨c', pc', by rw [List.getElem?_set_ne (Ne.symm hne)]; exact hc, hv⟩
  owner j c' pc'' hj hin := by
    rcases getElem?_set_cases hj with ⟨rfl, he⟩ | ⟨hne, hj⟩
    · cases he
      rw [hout] at hin
      cases hin
    · obtain ⟨view, hview⟩ := h.owner j c' pc'' hj hin
      refine ⟨view, ?_⟩
      rw [htxn]
      split
      · rename_i hin'
        obtain ⟨view', hview'⟩ := h.owner i c pc hi hin'
        rw [hview] at hview'
        cases hview'
        exact absurd rfl hne
      · exact hview

/-- Call `i` goes on to a statement inside its transaction. -/
theorem enter (h : Sound tr s) {view : Store} {pc' : Pc} (hi : s.calls[i]? = some (c, pc))
    (hfree : ∀ j v, s.txn = some (j, v) → j = i) (hv : Views s.db view c pc') :
    Sound (tr ++ []) { s with txn := some (i, view), calls := s.calls.set i (c, pc') } where
  contiguous := h.contiguous
  log sid := by
    rw [List.append_nil]
    exact h.log sid
  returned c' ev hmem := h.returned c' ev (by rwa [List.append_nil] at hmem)
  opened j view' hj := by
    cases hj
    refine ⟨c, pc', ?_, hv⟩
    rw [List.getElem?_set_self (List.getElem?_eq_some_iff.mp hi).1]
  owner j c' pc'' hj hin := by
    rcases getElem?_set_cases hj with ⟨rfl, -⟩ | ⟨hne, hj⟩
    · exact ⟨view, rfl⟩
    · obtain ⟨view', hview'⟩ := h.owner j c' pc'' hj hin
      exact absurd (hfree j view' hview') hne

/-- Call `i` commits. -/
theorem commit (h : Sound tr s) {view : Store} {ev : EventPayload} (hi : s.calls[i]? = some (c, pc))
    (ht : s.txn = some (i, view)) (hp : Published s.db view c ev) :
    Sound (tr ++ [.returned c (some ev)])
      { s with db := view, txn := none, calls := s.calls.set i (c, .returned) } where
  contiguous := hp.contiguous h.contiguous
  log sid := by
    rw [List.filterMap_append, ← h.log, hp.events]
    by_cases hsid : c.sessionID = sid
    · subst hsid
      simp [Obs.stored]
    · rw [Function.update_of_ne (Ne.symm hsid)]
      simp [Obs.stored, hsid]
  returned c' ev' hmem := by
    rcases List.mem_append.mp hmem with hmem | hmem
    · exact h.returned c' ev' hmem
    · cases List.mem_singleton.mp hmem
      exact ⟨hp.kind, hp.payload⟩
  opened j view' hj := by cases hj
  owner j c' pc'' hj hin := by
    rcases getElem?_set_cases hj with ⟨rfl, he⟩ | ⟨hne, hj⟩
    · cases he
      cases hin
    · obtain ⟨view', hview'⟩ := h.owner j c' pc'' hj hin
      rw [ht] at hview'
      cases hview'
      exact absurd rfl hne

theorem stored_returned_none (c : Call) (sid : String) :
    [Obs.returned c none].filterMap (Obs.stored sid) = [] := rfl

/-- **A statement keeps the logs sound.** -/
theorem statement (h : Sound tr s) {s' : State} {os : List Obs} (hi : s.calls[i]? = some (c, pc))
    (ht : StatementTrans s i c s.view pc s' os) : Sound (tr ++ os) s' := by
  have inside (hin : pc.inTxn = true) : (∀ j v, s.txn = some (j, v) → j = i) ∧ Views s.db s.view c pc := by
    obtain ⟨view, ht, hview, hv⟩ := h.view_eq hi hin
    refine ⟨fun j v hj => ?_, hview ▸ hv⟩
    rw [ht] at hj
    cases hj
    rfl
  cases ht with
  | marshalled => exact h.leave hi rfl rfl (fun _ => rfl) (by simp)
  | failed htxn => exact h.leave hi rfl htxn (stored_returned_none c) (by simp)
  | begun hnone => exact h.enter hi (fun j v hj => by rw [hnone] at hj; cases hj) rfl
  | bumped hbump =>
      obtain ⟨hfree, hv⟩ := inside rfl
      refine h.enter hi hfree ?_
      rw [show s.view = s.db from hv] at hbump
      exact hbump
  | inserted hins =>
      obtain ⟨hfree, hv⟩ := inside rfl
      exact h.enter hi hfree (appended_insertEvent (h.contiguous c.sessionID) hv hins)
  | @refreshed ev ok =>
      obtain ⟨hfree, hv⟩ := inside rfl
      refine h.enter hi hfree ?_
      cases ok with
      | true => exact Appended.refresh hv
      | false => exact hv
  | committed =>
      obtain ⟨view, ht, hview, -⟩ := h.view_eq hi rfl
      have hp := (h.appended hi).published
      rw [hview] at hp ⊢
      exact h.commit hi ht hp

/-- A new session has no events. -/
theorem createSession (h : Sound tr s) {sid : String} (ht : s.txn = none)
    (hnone : s.db.sessions sid = none) :
    Sound (tr ++ []) { s with db := s.db.createSession sid } where
  contiguous sid' := (h.contiguous sid').createSession ((h.contiguous sid).missing hnone)
  log sid' := by
    rw [List.append_nil]
    show (s.db.createSession sid).events sid' = _
    rw [createSession_events ((h.contiguous sid).missing hnone)]
    exact h.log sid'
  returned := by
    rw [List.append_nil]
    exact h.returned
  opened i view hi := by
    rw [show s.txn = some (i, view) from hi] at ht
    cases ht
  owner i c pc hi hin := by
    obtain ⟨view, hview⟩ := h.owner i c pc hi hin
    rw [ht] at hview
    cases hview

/-- A new call has no transaction. -/
theorem call (h : Sound tr s) (c : Call) : Sound (tr ++ []) { s with calls := s.calls ++ [(c, .marshal)] } where
  contiguous := h.contiguous
  log sid := by
    rw [List.append_nil]
    exact h.log sid
  returned c' ev hmem := h.returned c' ev (by rwa [List.append_nil] at hmem)
  opened i view hi := by
    obtain ⟨c', pc, hc, hv⟩ := h.opened i view hi
    refine ⟨c', pc, ?_, hv⟩
    rw [List.getElem?_append_left (List.getElem?_eq_some_iff.mp hc).1]
    exact hc
  owner i c' pc hi hin := by
    rcases getElem?_concat_cases hi with hi | ⟨-, he⟩
    · exact h.owner i c' pc hi hin
    · cases he
      cases hin

theorem step {a : Action} {s' : State} {os : List Obs} (h : Sound tr s)
    (hs : system.step s a = some (s', os)) : Sound (tr ++ os) s' := by
  cases a with
  | createSession sid =>
      obtain ⟨ht, hnone, rfl, rfl⟩ := step_createSession hs
      exact h.createSession ht hnone
  | call c =>
      cases hs
      exact h.call c
  | run i ok now =>
      obtain ⟨c, pc, hi, ht⟩ := step_run hs
      exact h.statement hi ht

end Sound

/-- Nothing has happened to a new file. -/
theorem sound_new (devices : List Device) (pendingTokens : String → Option PendingToken) :
    Sound [] { db := emptyStore devices pendingTokens } where
  contiguous sid := ⟨fun sess hs => (by cases hs), fun _ => rfl⟩
  log sid := rfl
  returned c ev hmem := by cases hmem
  opened i view hi := by cases hi
  owner i c pc hi := by cases hi

theorem sound {devices : List Device} {pendingTokens : String → Option PendingToken} {tr : List Obs}
    {s : State} (h : system.Run Lts.Free [] { db := emptyStore devices pendingTokens } tr s) : Sound tr s :=
  h.invariant (I := Sound) (sound_new devices pendingTokens) fun _ _ _ _ _ _ ih _ hs => ih.step hs

/-! ## What follows -/

/-- A contiguous log ascends. -/
theorem Contiguous.pairwise {db : Store} {sid : String} (h : Contiguous db sid) :
    (db.events sid).Pairwise fun a b => (a.seq : Int) < b.seq := by
  cases hs : db.sessions sid with
  | none =>
      rw [h.missing hs]
      exact .nil
  | some sess =>
      have hseqs : ((db.events sid).map (·.seq)).Pairwise (· < ·) := by
        rw [h.numbered sess hs]
        exact List.pairwise_lt_range'
      exact (List.pairwise_map.mp hseqs).imp fun hab => Int.ofNat_lt.mpr hab

/-- The pages of `GetEventsSince`, each from the last seq of the one before; `none` when `n` requests
are not enough. -/
def pages (db : Store) (sid : String) (limit n : Nat) (k : Int) : Option (List EventPayload) :=
  fetchAll (fun k => db.getEventsSince sid k limit) (fun ev => (ev.seq : Int)) n k

theorem pages_eq {db : Store} {sid : String} (h : Contiguous db sid) {limit : Nat} (hlimit : 0 < limit)
    {n : Nat} {k : Int} (hn : (db.getEventsSince sid k 0).length < n) :
    pages db sid limit n k = some (db.getEventsSince sid k 0) := by
  rw [Store.getEventsSince_unlimited] at hn ⊢
  refine fetchAll_eq h.pairwise hlimit (fun k => ?_) n k hn
  exact if_pos hlimit

/-- The one event of a contiguous log that has the seq. -/
theorem Contiguous.filter_seq {db : Store} {sid : String} (h : Contiguous db sid) {ev : EventPayload}
    (hev : ev ∈ db.events sid) : (db.events sid).filter (·.seq == ev.seq) = [ev] := by
  obtain ⟨l, r, hsplit⟩ := List.append_of_mem hev
  have hpair := h.pairwise
  rw [hsplit] at hpair ⊢
  obtain ⟨-, hr, hlr⟩ := List.pairwise_append.mp hpair
  have hne (e : EventPayload) (hlt : (e.seq : Int) < ev.seq ∨ (ev.seq : Int) < e.seq) :
      ¬ (e.seq == ev.seq) = true := by
    rw [beq_iff_eq]
    omega
  rw [List.filter_append, List.filter_cons_of_pos (by simp),
    List.filter_eq_nil_iff.mpr fun e he => hne e (.inl (hlr e he ev List.mem_cons_self)),
    List.filter_eq_nil_iff.mpr fun e he => hne e (.inr ((List.pairwise_cons.mp hr).1 e he))]
  rfl

/-- **`Changes s s' os`** — what a step does to the committed logs: a call that returns a seq added its
event, and any other step left every log and every `last_seq` as it was. -/
def Changes (s s' : State) (os : List Obs) : Prop :=
  (∃ c ev, os = [.returned c (some ev)] ∧ Published s.db s'.db c ev) ∨
    ((∀ c ev, .returned c (some ev) ∉ os) ∧ s'.db.events = s.db.events ∧
      ∀ sid sess, s.db.sessions sid = some sess → s'.db.sessions sid = some sess)

/-- A statement that does not commit leaves the tables alone. -/
theorem StatementTrans.db {s s' : State} {i : Nat} {c : Call} {view : Store} {pc : Pc} {os : List Obs}
    (h : StatementTrans s i c view pc s' os) :
    (∃ ev, pc = .commit ev ∧ os = [.returned c (some ev)] ∧ s'.db = view) ∨
      (s'.db = s.db ∧ ∀ c ev, .returned c (some ev) ∉ os) := by
  cases h with
  | @committed ev => exact .inl ⟨ev, rfl, rfl, rfl⟩
  | failed => exact .inr ⟨rfl, by simp⟩
  | marshalled | begun | bumped | inserted | refreshed => exact .inr ⟨rfl, by simp⟩

/-- **A committed call is `Store.appendEvent`**, up to the status column. -/
theorem commit_refines {tr : List Obs} {s s' : State} {i : Nat} {c : Call} {ev : EventPayload} {now : Int}
    {os : List Obs} (h : Sound tr s) (hi : s.calls[i]? = some (c, .commit ev))
    (hs : system.step s (.run i true now) = some (s', os)) :
    os = [.returned c (some ev)] ∧ Appended s.db s'.db c ev := by
  simp only [system, hi] at hs
  cases hs
  exact ⟨rfl, h.appended hi⟩

theorem changes_step {tr : List Obs} {s s' : State} {a : Action} {os : List Obs} (h : Sound tr s)
    (hs : system.step s a = some (s', os)) : Changes s s' os := by
  cases a with
  | createSession sid =>
      obtain ⟨-, hnone, rfl, rfl⟩ := step_createSession hs
      refine .inr ⟨by simp, createSession_events ((h.contiguous sid).missing hnone), fun sid' sess hsess => ?_⟩
      have hsid : sid' ≠ sid := by
        rintro rfl
        rw [hnone] at hsess
        cases hsess
      exact (createSession_sessions_of_ne hsid).trans hsess
  | call c =>
      cases hs
      exact .inr ⟨by simp, rfl, fun _ _ hsess => hsess⟩
  | run i ok now =>
      obtain ⟨c, pc, hi, ht⟩ := step_run hs
      rcases ht.db with ⟨ev, rfl, rfl, hdb⟩ | ⟨hdb, hos⟩
      · refine .inl ⟨c, ev, rfl, ?_⟩
        rw [hdb]
        exact (h.appended hi).published
      · exact .inr ⟨hos, by rw [hdb], fun sid sess hsess => by rw [hdb]; exact hsess⟩

/-- **The event log is contiguous and append failures are atomic.** In every state that any
interleaving of calls reaches: the events of a session are numbered from 1 to its `last_seq`; the logs
change only in a step that returns a seq; a log is the list of the events that calls returned; a returned
seq is the one its payload is stored under; and pages of any size add up to the unlimited answer. -/
theorem log_contiguous {devices : List Device} {pendingTokens : String → Option PendingToken}
    {tr : List Obs} {s : State}
    (h : system.Run Lts.Free [] { db := emptyStore devices pendingTokens } tr s) :
    (∀ sid sess, s.db.sessions sid = some sess →
      (s.db.events sid).map (·.seq) = List.range' 1 sess.lastSeq) ∧
    (∀ a s' os, system.step s a = some (s', os) → Changes s s' os) ∧
    (∀ sid, s.db.events sid = tr.filterMap (Obs.stored sid)) ∧
    (∀ c ev, .returned c (some ev) ∈ tr → ev.kind = c.kind ∧ ev.payload = c.payload ∧
      (s.db.events c.sessionID).filter (·.seq == ev.seq) = [ev]) ∧
    (∀ sid k limit n, 0 < limit → (s.db.getEventsSince sid k 0).length < n →
      pages s.db sid limit n k = some (s.db.getEventsSince sid k 0)) ∧
    (∀ sid (k : Int), s.db.getEventsSince sid k 0 =
      (s.db.events sid).filter fun ev => decide (k < ev.seq)) := by
  have hsound := sound h
  refine ⟨fun sid => (hsound.contiguous sid).numbered, fun a s' os => changes_step hsound,
    hsound.log, fun c ev hmem => ?_, fun sid k limit n hlimit hn => ?_, fun sid k => rfl⟩
  · obtain ⟨hk, hp⟩ := hsound.returned c ev hmem
    refine ⟨hk, hp, (hsound.contiguous c.sessionID).filter_seq ?_⟩
    rw [hsound.log, List.mem_filterMap]
    exact ⟨_, hmem, by simp [Obs.stored]⟩
  · exact pages_eq (hsound.contiguous sid) hlimit hn

namespace Sample

def status : Call := ⟨"session", .statusChange, StatusChangeBody.toJson ⟨"running"⟩⟩

def delta : Call := ⟨"session", .turnComplete, .obj []⟩

/-- Two calls at once: the commit of the first fails, the second gets the seq the first had. -/
def twoCalls : List Action :=
  [.createSession "session", .call status, .call delta, .run 0 true 0, .run 0 true 0, .run 0 true 0,
    .run 1 true 0, .run 0 true 0, .run 0 true 0, .run 0 false 0, .run 1 true 1, .run 1 true 1,
    .run 1 true 1, .run 1 true 1, .run 1 true 1]

end Sample

theorem log_contiguous_twoCalls :
    ∃ tr s sess, system.Run Lts.Free [] { db := emptyStore [] fun _ => none } tr s ∧
      s.db.sessions "session" = some sess ∧ sess.lastSeq = 1 ∧
      (s.db.events "session").map (·.seq) = [1] := by
  have hexec : ((system.exec (fun _ _ _ => true) [] { db := emptyStore [] fun _ => none }
      Sample.twoCalls).bind fun r => (r.2.db.sessions "session").map (·.lastSeq)) = some 1 := by
    decide +kernel
  obtain ⟨r, hr, hrow⟩ := Option.bind_eq_some_iff.mp hexec
  obtain ⟨sess, hs, hlast⟩ := Option.map_eq_some_iff.mp hrow
  have hrun := Lts.run_of_exec (P := Lts.Free) (fun _ _ _ _ => trivial) hr
  refine ⟨r.1, r.2, sess, hrun, hs, hlast, ?_⟩
  rw [(log_contiguous hrun).1 "session" sess hs, hlast]
  rfl

end Harness.Append
