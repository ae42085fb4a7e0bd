/-
# Harness.Hub.Backlog — the catch-up of one client, against its write loop.

`serveAuthenticated` pushes the snapshot and the missed events through the client's bounded queue in one loop,
under the lock of the hub, so no other goroutine enqueues to that client meanwhile. The write loop was started
before and takes messages off the queue at its own pace, or not at all.

`catch_up_whole` says for which backlogs the pace makes no difference.
-/
import Harness.Hub.Joining
import Harness.Hub.WriteLoop

namespace Harness.Backlog

open Wire Lib Hub WriteLoop

/-- The client, and what `serveAuthenticated` has still to enqueue. -/
structure State where
  client : Client := {}
  rest : List Envelope

inductive Action where
  /-- `h.enqueue` of the next message, once the one before has signalled its overflow -/
  | enqueue
  | signal
  | loop (ch : WriteChoice)
  | close

/-- A step of the client's queue. -/
def step (highWater : Nat) (s : State) (a : WriteLoop.Action) (rest : List Envelope) :
    Option (State × List WriteLoop.Obs) :=
  ((WriteLoop.system highWater).step s.client a).map fun r => ({ client := r.1, rest := rest }, r.2)

def system (highWater : Nat) : Lts State Action WriteLoop.Obs where
  step s
    | .enqueue =>
        match s.rest, s.client.signalling with
        | f :: rest, 0 => step highWater s (.offer f) rest
        | _, _ => none
    | .signal => step highWater s .signal s.rest
    | .loop ch => step highWater s (.loop ch) s.rest
    | .close => step highWater s .close s.rest

/-- **`Delivers highWater batch`** — whatever the write loop does: nothing is dropped and no overflow is
flagged, what is queued is the batch in order as far as the loop over it has come, and as long as the
connection stands it can all be written. -/
def Delivers (highWater : Nat) (batch : List Envelope) : Prop :=
  ∀ tr s, (system highWater).Run Lts.Free [] { rest := batch } tr s →
    (∀ f, .dropped f ∉ tr) ∧ s.client.overflow = false ∧ queued tr ++ s.rest = batch ∧
    (s.client.writing = true → s.client.closed = false →
      ∃ tr' s', (system highWater).Run Lts.Free tr s tr' s' ∧ written tr' = batch)

/-! ## A step of the whole is a step of the queue -/

/-- **`Moves s s' a`** — the offers are the batch, one by one. -/
def Moves (s s' : State) (a : WriteLoop.Action) : Prop :=
  (∃ f, a = .offer f ∧ s.rest = f :: s'.rest) ∨ ((∀ f, a ≠ .offer f) ∧ s'.rest = s.rest)

theorem step_queue {highWater : Nat} {s s' : State} {a : Action} {os : List WriteLoop.Obs}
    (hs : (system highWater).step s a = some (s', os)) :
    ∃ b, Moves s s' b ∧ (WriteLoop.system highWater).step s.client b = some (s'.client, os) := by
  have inner {b : WriteLoop.Action} {rest : List Envelope} (h : step highWater s b rest = some (s', os)) :
      (WriteLoop.system highWater).step s.client b = some (s'.client, os) ∧ s'.rest = rest := by
    simp only [step, Option.map_eq_some_iff, Prod.mk.injEq] at h
    obtain ⟨⟨c, os'⟩, hstep, rfl, rfl⟩ := h
    exact ⟨hstep, rfl⟩
  cases a with
  | enqueue =>
    simp only [system] at hs
    split at hs
    · rename_i f rest hrest _
      obtain ⟨hstep, heq⟩ := inner hs
      exact ⟨.offer f, .inl ⟨f, rfl, by rw [hrest, heq]⟩, hstep⟩
    · cases hs
  | signal =>
    obtain ⟨hstep, heq⟩ := inner hs
    exact ⟨.signal, .inr ⟨fun f h => (by cases h), heq⟩, hstep⟩
  | loop ch =>
    obtain ⟨hstep, heq⟩ := inner hs
    exact ⟨.loop ch, .inr ⟨fun f h => (by cases h), heq⟩, hstep⟩
  | close =>
    obtain ⟨hstep, heq⟩ := inner (b := .close) hs
    exact ⟨.close, .inr ⟨fun f h => (by cases h), heq⟩, hstep⟩

theorem client_run {highWater : Nat} {batch : List Envelope} {tr : List WriteLoop.Obs} {s : State}
    (h : (system highWater).Run Lts.Free [] { rest := batch } tr s) :
    (WriteLoop.system highWater).Run Lts.Free [] {} tr s.client := by
  refine h.invariant (I := fun t u => (WriteLoop.system highWater).Run Lts.Free [] {} t u.client) .refl ?_
  intro t u a u' os _ ih _ hs
  obtain ⟨b, -, hstep⟩ := step_queue hs
  exact ih.tail trivial hstep

/-! ## A batch that fits -/

/-- **`Fits tr s batch`** — what a batch that fits into the queue has become. -/
structure Fits (batch : List Envelope) (tr : List WriteLoop.Obs) (s : State) : Prop where
  free : ∀ o ∈ tr, o.isDrop = false
  quiet : s.client.overflow = false ∧ s.client.signalling = 0
  split : queued tr ++ s.rest = batch

theorem fits_step {highWater : Nat} {batch : List Envelope} (hlen : batch.length ≤ highWater)
    {tr os : List WriteLoop.Obs} {s s' : State} {b : WriteLoop.Action} (hacc : Account tr s.client)
    (h : Fits batch tr s) (hm : Moves s s' b) (ht : Trans highWater s.client b s'.client os) :
    Fits batch (tr ++ os) s' := by
  obtain ⟨c', rest'⟩ := s'
  obtain ⟨hfree, ⟨hoverflow, hsignalling⟩, hsplit⟩ := h
  have quiet {o : WriteLoop.Obs} (ho : o.isDrop = false) : ∀ o' ∈ tr ++ [o], o'.isDrop = false := by
    intro o' ho'
    rcases List.mem_append.mp ho' with ho' | ho'
    · exact hfree o' ho'
    · rw [List.mem_singleton.mp ho', ho]
  dsimp only at ht
  cases ht with
  | @enqueue f hroom =>
    rcases hm with ⟨f', hf, hrest⟩ | ⟨hno, -⟩
    · cases hf
      refine ⟨quiet rfl, ⟨hoverflow, hsignalling⟩, ?_⟩
      rw [queued_append, queued_enqueued, List.append_assoc, ← hsplit, hrest]
      rfl
    · exact absurd rfl (hno f)
  | @drop f hfull =>
    rcases hm with ⟨f', hf, hrest⟩ | ⟨hno, -⟩
    · -- the queue holds part of the batch only
      have hroom := hacc.room
      rw [← hsplit, hrest, List.length_append, List.length_cons] at hlen
      omega
    · exact absurd rfl (hno f)
  | signal hn =>
    rw [hsignalling] at hn
    cases hn
  | @write f rest hw hopen hf =>
    rcases hm with ⟨f', hf', -⟩ | ⟨-, hsame⟩
    · cases hf'
    · refine ⟨quiet rfl, ⟨hoverflow, hsignalling⟩, ?_⟩
      rw [queued_append, queued_written, List.append_nil]
      exact hsame ▸ hsplit
  | stop hw hstop _ hsignals hflag =>
    rcases hm with ⟨f', hf', -⟩ | ⟨-, hsame⟩
    · cases hf'
    · rw [List.append_nil]
      exact ⟨hfree, ⟨hflag hoverflow, hsignals.trans hsignalling⟩, hsame ▸ hsplit⟩
  | close =>
    rcases hm with ⟨f', hf', -⟩ | ⟨-, hsame⟩
    · cases hf'
    · rw [List.append_nil]
      exact ⟨hfree, ⟨hoverflow, hsignalling⟩, hsame ▸ hsplit⟩

theorem fits {highWater : Nat} {batch : List Envelope} (hlen : batch.length ≤ highWater)
    {tr : List WriteLoop.Obs} {s : State}
    (h : (system highWater).Run Lts.Free [] { rest := batch } tr s) : Fits batch tr s := by
  refine h.invariant (I := Fits batch) ⟨by simp, ⟨rfl, rfl⟩, rfl⟩ ?_
  intro t u a u' os hr ih _ hs
  obtain ⟨b, hm, hstep⟩ := step_queue hs
  exact fits_step hlen (account (client_run hr)) ih hm (step_trans hstep)

/-- Messages that find room are enqueued. -/
theorem enqueues {highWater : Nat} (fs more : List Envelope) :
    ∀ (tr : List WriteLoop.Obs) (c : Client), c.signalling = 0 → c.send.length + fs.length ≤ highWater →
      (system highWater).Run Lts.Free tr { client := c, rest := fs ++ more } (tr ++ fs.map .enqueued)
        { client := { c with send := c.send ++ fs }, rest := more } := by
  induction fs with
  | nil =>
    intro tr c _ _
    rw [List.map_nil, List.append_nil, List.append_nil]
    exact .refl
  | cons f fs ih =>
    intro tr c hsig hroom
    rw [List.length_cons] at hroom
    have hstep : (system highWater).step { client := c, rest := f :: fs ++ more } .enqueue =
        some ({ client := { c with send := c.send ++ [f] }, rest := fs ++ more }, [.enqueued f]) := by
      simp only [system, List.cons_append, hsig, step, WriteLoop.system]
      rw [if_pos (by omega)]
      rfl
    have hrest := ih (tr ++ [.enqueued f]) { c with send := c.send ++ [f] } hsig (by simp; omega)
    simp only [List.append_assoc, List.singleton_append] at hrest
    exact (Lts.Run.single trivial hstep).trans hrest

/-- Every run of the queue's write loop is one of the whole. -/
theorem writes {highWater : Nat} (rest fs : List Envelope) :
    ∀ (tr : List WriteLoop.Obs) (c : Client), c.writing = true → c.closed = false → c.send = fs →
      (system highWater).Run Lts.Free tr { client := c, rest := rest } (tr ++ fs.map .written)
        { client := { c with send := [] }, rest := rest } := by
  induction fs with
  | nil =>
    rintro tr ⟨⟩ _ _ hsend
    dsimp only at hsend
    subst hsend
    rw [List.map_nil, List.append_nil]
    exact .refl
  | cons f fs ih =>
    intro tr c hw hopen hsend
    have hstep : (system highWater).step { client := c, rest := rest } (.loop .send) =
        some ({ client := { c with send := fs }, rest := rest }, [.written f]) := by
      simp [system, step, WriteLoop.system, turn, hw, hopen, hsend]
    have hrest := ih (tr ++ [.written f]) { c with send := fs } hw hopen rfl
    simp only [List.append_assoc, List.singleton_append] at hrest
    exact (Lts.Run.single trivial hstep).trans hrest

/-- **A batch is delivered whole, whatever the write loop does, exactly when it fits into the queue.** -/
theorem delivers_iff {highWater : Nat} {batch : List Envelope} :
    Delivers highWater batch ↔ batch.length ≤ highWater := by
  constructor
  · intro hdel
    by_contra hlong
    -- the write loop does not run: the queue fills up and the next message is dropped
    obtain ⟨fs, f, more, hbatch, hfs⟩ : ∃ fs f more, batch = fs ++ f :: more ∧ fs.length = highWater := by
      have hlt : highWater < batch.length := Nat.lt_of_not_le hlong
      refine ⟨batch.take highWater, batch[highWater], batch.drop (highWater + 1), ?_, ?_⟩
      · rw [← List.drop_eq_getElem_cons hlt, List.take_append_drop]
      · rw [List.length_take]
        omega
    subst hbatch
    have hrun := enqueues fs (f :: more) [] {} rfl (show 0 + fs.length ≤ highWater by omega)
    have hdrop : (system highWater).step { client := { send := fs }, rest := f :: more } .enqueue =
        some ({ client := { send := fs, signalling := 1 }, rest := more }, [.dropped f]) := by
      simp only [system, step, WriteLoop.system]
      rw [if_neg (by omega)]
      rfl
    exact (hdel _ _ (hrun.tail trivial hdrop)).1 f (List.mem_append_right _ List.mem_cons_self)
  · intro hlen tr s hrun
    have hfits := fits hlen hrun
    have hacc := account (client_run hrun)
    refine ⟨fun f hf => ?_, hfits.quiet.1, hfits.split, fun hw hopen => ?_⟩
    · have hdrop := hfits.free _ hf
      cases hdrop
    · -- the rest of the loop, then the whole queue
      have hroom : s.client.send.length + s.rest.length ≤ highWater := by
        have hcount := congrArg List.length hfits.split
        rw [List.length_append] at hcount
        have hsend := hacc.room
        omega
      have henq := enqueues s.rest [] tr s.client hfits.quiet.2 hroom
      rw [List.append_nil] at henq
      have hall := henq.trans (writes [] (s.client.send ++ s.rest) _ _ hw hopen rfl)
      refine ⟨_, _, hall, ?_⟩
      rw [written_append, written_append, written_map_enqueued, written_map_written, List.append_nil,
        ← List.append_assoc, ← hacc.flow hw]
      exact hfits.split

/-! ## The catch-up of a client -/

/-- What `serveAuthenticated` enqueues for a client that said `hello` with `lastSeq = k`. -/
def catchUp (cfg : Config) (db : Store) (k : Int) (p : SnapshotPayload) : List Envelope :=
  .snapshot p :: (db.getEventsSince cfg.sessionID k 0).map .event

theorem catchUp_eq {cfg : Config} {db : Store}
    (hnum : Fanout.Numbered EventPayload.seq (db.events cfg.sessionID)) (k : Int) (p : SnapshotPayload) :
    catchUp cfg db k p = .snapshot p :: ((db.events cfg.sessionID).drop k.toNat).map .event := by
  rw [catchUp, Store.getEventsSince_unlimited, Joining.filter_seq_eq_drop hnum]

/-- **Catch-up is delivered whole** for every schedule of the write loop exactly when the snapshot and the
missed events fit into the queue. -/
theorem catch_up_whole {cfg : Config} {db : Store}
    (hnum : Fanout.Numbered EventPayload.seq (db.events cfg.sessionID)) (k : Int) (p : SnapshotPayload) :
    catchUp cfg db k p = .snapshot p :: ((db.events cfg.sessionID).drop k.toNat).map .event ∧
    (Delivers cfg.clientQueueHighWater (catchUp cfg db k p) ↔
      (db.events cfg.sessionID).length - k.toNat + 1 ≤ cfg.clientQueueHighWater) := by
  refine ⟨catchUp_eq hnum k p, delivers_iff.trans ?_⟩
  rw [catchUp_eq hnum, List.length_cons, List.length_map, List.length_drop]

namespace Sample

/-- A database whose session has a log of `n` events. -/
def database (n : Nat) : Store :=
  { Hub.Sample.database with
    events := fun _ => (List.range' 1 n).map fun seq => ⟨seq, 0, .turnComplete, .obj []⟩ }

theorem length_events (n : Nat) : ((database n).events Hub.Sample.config.sessionID).length = n :=
  (List.length_map _).trans List.length_range'

theorem numbered (n : Nat) :
    Fanout.Numbered EventPayload.seq ((database n).events Hub.Sample.config.sessionID) := by
  rw [Fanout.Numbered, length_events]
  show ((List.range' 1 n).map _).map _ = _
  rw [List.map_map]
  exact List.map_id _

def snapshot (n : Nat) : SnapshotPayload := ⟨"session", "idle", "", n, [], [], []⟩

end Sample

/-- The 600 events of the catch-up test. -/
theorem catch_up_whole_600 :
    Delivers Hub.Sample.config.clientQueueHighWater
      (catchUp Hub.Sample.config (Sample.database 600) 0 (Sample.snapshot 600)) := by
  refine (catch_up_whole (Sample.numbered 600) 0 (Sample.snapshot 600)).2.mpr ?_
  rw [Sample.length_events]
  decide

/-- With 4096 missed events the last one may find the queue full. -/
theorem long_backlog_dropped :
    ¬ Delivers Hub.Sample.config.clientQueueHighWater
      (catchUp Hub.Sample.config (Sample.database 4096) 0 (Sample.snapshot 4096)) := by
  rw [delivers_iff, catchUp_eq (Sample.numbered 4096), List.length_cons, List.length_map, List.length_drop,
    Sample.length_events]
  decide

end Harness.Backlog
