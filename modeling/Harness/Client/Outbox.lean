/-
# Harness.Client.Outbox — queued commands belong to a session.

A command is queued under its id until an ack or an error frame settles it, and is sent again whenever
the client becomes live. It was meant for the session the client was in when it was issued. The queue
is cleared by a snapshot of another session, but only when the client still remembers a session to
compare with: after `reset()` or a full resync it does not, and a queue that survived is flushed into
whatever session comes next. `queued_stays_home` is the law that holds when that does not happen.

A command is known by its id, so the trace tells where it belongs: `Since` finds its latest issue, and
`Strayed` says that a snapshot of another session has been accepted since.
-/
import Harness.Client.HostFrames
import Harness.Client.Inversion
import Mathlib.Data.List.Induction

namespace Harness.Client

open Lib
open Lts (Since since_snoc_of_pos since_snoc_of_neg Preceded preceded_append)
open Wire (CommandPayload)

/-! ## What a turn does to the queue -/

/-- Nothing that moves a command between sessions, and a frame of a command only if that command is
queued in `c`. -/
def Obs.Flushed (c : HarnessClient) : Obs → Prop
  | .issued _ _ | .accepted _ _ => False
  | .sent _ (.command cmd) => cmd ∈ c.outbox.values
  | _ => True

theorem Obs.Quiet.flushed {s : SessionState} {o : Obs} (h : o.Quiet s) (c : HarnessClient) :
    o.Flushed c := by
  cases o with
  | sent i f =>
      cases f with
      | hello => trivial
      | command cmd => exact h.elim
  | issued => exact h.elim
  | accepted => exact h.elim
  | _ => trivial

theorem Obs.Resent.flushed {c : HarnessClient} {o : Obs} (h : o.Resent c) : o.Flushed c := by
  rcases h with h | ⟨i, cmd, rfl, hcmd⟩
  · exact h.flushed c
  · exact hcmd

/-- Between them, turns issue a command, accept a snapshot, or do neither. -/
inductive QueueTrans (c : HarnessClient) (a : Action) (c' : HarnessClient) (os : List Obs) : Prop
  | issued {req : Request} {id : String} {cmd : CommandPayload} {rest : List Obs} (ha : a = .send req id)
      (hid : cmd.id = id) (hs : c'.session.sessionId = c.session.sessionId)
      (ho : c'.outbox = c.outbox.set id cmd)
      (hos : os = .issued id c.session.sessionId :: rest) (hrest : ∀ o ∈ rest, o.Flushed c')
  | accepted {snap : JsRecord} {rest : List Obs} (ha : Delivered c a (.snapshot snap))
      (hs : c'.session.sessionId = snap.get "sessionId")
      (ho : c'.outbox = if c.differs snap then ∅ else c.outbox)
      (hos : os = .accepted (snap.get "sessionId") c.session.sessionId :: rest)
      (hrest : ∀ o ∈ rest, o.Flushed c')
  | other (hs : c'.session.sessionId = c.session.sessionId ∨ c'.session.sessionId = .null)
      (ho : ∀ e ∈ c'.outbox.entries, e ∈ c.outbox.entries) (hos : ∀ o ∈ os, o.Flushed c')

theorem QueueTrans.of_settle {c d : HarnessClient} {a : Action} {id : String} {o : Obs}
    (ho : o.Flushed ((c.settle id).emit o)) (hout : c.out = []) (hd : d = (c.settle id).emit o) :
    QueueTrans c a d d.out := by
  subst hd
  refine .other (.inl rfl) (fun e he => (OrderedMap.mem_entries_delete.mp he).1) ?_
  show ∀ o' ∈ c.out ++ [o], _
  rw [hout]
  simpa using ho

theorem Trans.queue {c d : HarnessClient} {a : Action} (h : Trans c a d) (hout : c.out = []) :
    QueueTrans c a d d.out := by
  cases h with
  | silent h =>
      refine .other (.inl (by rw [h.session])) (fun e he => h.outbox ▸ he) fun o hm => ?_
      exact (h.seen hout o hm).flushed d
  | renewed h =>
      refine .other (.inr (by rw [h.session]; rfl)) (fun e he => h.outbox ▸ he) fun o hm => ?_
      exact (h.seen hout o hm).elim (·.flushed d) (·.flushed d)
  | @restored q _ _ _ hs ho _ hobs =>
      refine .other (.inl (by rw [hs])) (fun e he => ho ▸ he) ?_
      have hq : (Obs.notified c.phase c.session.sessionId q).Quiet d.session := by
        rw [hs]
        exact ⟨rfl, rfl⟩
      rw [hobs, hout]
      simpa using hq.flushed d
  | issued ha _ _ hs ho _ hobs =>
      obtain ⟨os, hos, hq⟩ := hobs
      rw [hout, List.nil_append] at hos
      exact .issued ha rfl (by rw [hs]) ho hos fun o hm => (hq o hm).flushed
  | accepted ha _ hs ho _ hobs =>
      obtain ⟨os, hos, hq⟩ := hobs
      rw [hout, List.nil_append] at hos
      exact .accepted ha (by rw [hs]; rfl) ho hos fun o hm => (hq o hm).flushed
  | applied _ _ _ _ _ hs ho _ hobs =>
      obtain ⟨os, hos, hq⟩ := hobs
      rw [hout, List.nil_append] at hos
      refine .other (.inl ?_) (fun e he => ho ▸ he) ?_
      · rw [hs]
        exact c.nextSession_sessionId _
      · rw [hos]
        intro o hm
        rcases List.mem_cons.mp hm with rfl | hm
        · trivial
        · exact (hq o hm).flushed
  | discarded _ _ hc =>
      subst hc
      refine .other (.inl rfl) (fun e he => he) ?_
      show ∀ o ∈ c.out ++ [_], _
      rw [hout]
      simp [Obs.Flushed]
  | settled _ hf _ hc =>
      refine .of_settle ?_ hout hc
      rcases hf with ⟨_, _, _, rfl⟩ | ⟨_, _, _, rfl, _⟩ <;> trivial
  | orphaned _ _ _ _ hc =>
      refine .of_settle ?_ hout hc
      trivial

/-- The inversion of a step, as far as the queue goes. -/
theorem HarnessClient.step_queue {c c' : HarnessClient} {a : Action} {os : List Obs}
    (h : c.step a = some (c', os)) : QueueTrans c a c' os := by
  obtain ⟨d, ht, rfl, rfl⟩ := c.step_trans h
  have hq := ht.queue rfl
  cases hq with
  | issued ha hid hs ho hos hrest => exact .issued ha hid hs ho hos hrest
  | accepted ha hs ho hos hrest => exact .accepted ha hs ho hos hrest
  | other hs ho hos => exact .other hs ho hos

/-! ## The session of a command -/

/-- A command was issued under this id. -/
def Issues (id : String) (o : Obs) : Prop := ∃ s, o = .issued id s

/-- **`IssuedIn id s tr`** — the latest command with this id was issued in session `s`. -/
def IssuedIn (id : String) (s : JsValue) (tr : List Obs) : Prop :=
  ∃ q, Since (Issues id) tr (.issued id s) q

/-- **`Strayed id tr`** — the latest command with this id was issued in a session, and a snapshot of a
different one has been accepted since. -/
def Strayed (id : String) (tr : List Obs) : Prop :=
  ∃ s q s' was, Since (Issues id) tr (.issued id s) q ∧ s ≠ .null ∧ .accepted s' was ∈ q ∧
    s.strictEq s' = false

theorem issuedIn_snoc_issued {id : String} {s s' : JsValue} {tr : List Obs} :
    IssuedIn id s (tr ++ [.issued id s']) ↔ s = s' := by
  constructor
  · rintro ⟨q, h⟩
    obtain ⟨h, -⟩ := (since_snoc_of_pos ⟨s', rfl⟩).mp h
    cases h
    rfl
  · rintro rfl
    exact ⟨[], (since_snoc_of_pos ⟨s, rfl⟩).mpr ⟨rfl, rfl⟩⟩

theorem issuedIn_snoc {id : String} {s : JsValue} {tr : List Obs} {o : Obs} (ho : ¬ Issues id o) :
    IssuedIn id s (tr ++ [o]) ↔ IssuedIn id s tr := by
  constructor
  · rintro ⟨q, h⟩
    obtain ⟨q', -, h⟩ := (since_snoc_of_neg ho).mp h
    exact ⟨q', h⟩
  · rintro ⟨q, h⟩
    exact ⟨q ++ [o], (since_snoc_of_neg ho).mpr ⟨q, rfl, h⟩⟩

theorem not_strayed_snoc_issued {id : String} {s : JsValue} {tr : List Obs} :
    ¬ Strayed id (tr ++ [.issued id s]) := by
  rintro ⟨s₀, q, s', was, h, -, hacc, -⟩
  obtain ⟨-, rfl⟩ := (since_snoc_of_pos ⟨s, rfl⟩).mp h
  simp at hacc

/-- Accepting a snapshot strays the commands of other sessions. -/
theorem strayed_snoc_accepted {id : String} {s' was : JsValue} {tr : List Obs} :
    Strayed id (tr ++ [.accepted s' was]) ↔
      Strayed id tr ∨ ∃ s, IssuedIn id s tr ∧ s ≠ .null ∧ s.strictEq s' = false := by
  have ho : ¬ Issues id (.accepted s' was) := by
    rintro ⟨s, hs⟩
    cases hs
  constructor
  · rintro ⟨s, q, t, was', h, hs, hacc, hne⟩
    obtain ⟨q', rfl, h'⟩ := (since_snoc_of_neg ho).mp h
    rcases List.mem_append.mp hacc with hacc | hacc
    · exact .inl ⟨s, q', t, was', h', hs, hacc, hne⟩
    · cases List.mem_singleton.mp hacc
      exact .inr ⟨s, ⟨q', h'⟩, hs, hne⟩
  · rintro (⟨s, q, t, was', h, hs, hacc, hne⟩ | ⟨s, ⟨q, h⟩, hs, hne⟩)
    · exact ⟨s, q ++ [.accepted s' was], t, was', (since_snoc_of_neg ho).mpr ⟨q, rfl, h⟩, hs,
        List.mem_append_left _ hacc, hne⟩
    · exact ⟨s, q ++ [.accepted s' was], s', was, (since_snoc_of_neg ho).mpr ⟨q, rfl, h⟩, hs,
        List.mem_append_right _ (List.mem_singleton_self _), hne⟩

theorem strayed_snoc {id : String} {tr : List Obs} {o : Obs} (ho : ¬ Issues id o)
    (hacc : ∀ s' was, o ≠ .accepted s' was) : Strayed id (tr ++ [o]) ↔ Strayed id tr := by
  constructor
  · rintro ⟨s, q, t, was, h, hs, hmem, hne⟩
    obtain ⟨q', rfl, h'⟩ := (since_snoc_of_neg ho).mp h
    refine ⟨s, q', t, was, h', hs, (List.mem_append.mp hmem).resolve_right ?_, hne⟩
    exact fun hm => hacc t was (List.mem_singleton.mp hm).symm
  · rintro ⟨s, q, t, was, h, hs, hmem, hne⟩
    exact ⟨s, q ++ [o], t, was, (since_snoc_of_neg ho).mpr ⟨q, rfl, h⟩, hs,
      List.mem_append_left _ hmem, hne⟩

/-- What a turn sends afterwards moves no command. -/
theorem flushed_trace {c : HarnessClient} (id : String) {os : List Obs} (h : ∀ o ∈ os, o.Flushed c)
    (tr : List Obs) : (Strayed id (tr ++ os) ↔ Strayed id tr) ∧
      ∀ s, IssuedIn id s (tr ++ os) ↔ IssuedIn id s tr := by
  induction os using List.reverseRecOn with
  | nil => simp
  | append_singleton os o ih =>
      obtain ⟨ihs, ihi⟩ := ih fun x hx => h x (List.mem_append_left _ hx)
      have ho : o.Flushed c := h o (by simp)
      have hissue : ¬ Issues id o := by
        rintro ⟨s, rfl⟩
        exact ho
      have hacc : ∀ s' was, o ≠ .accepted s' was := by
        rintro s' was rfl
        exact ho
      rw [← List.append_assoc]
      refine ⟨(strayed_snoc hissue hacc).trans ihs, fun s => ?_⟩
      exact (issuedIn_snoc hissue).trans (ihi s)

/-! ## Commands stay in their session -/

/-- **`HomeFirst`** — the condition on a step: a snapshot that meets a client without a session finds
in the queue only commands of its own session, or of none. -/
def HomeFirst (tr : List Obs) (c : HarnessClient) (a : Action) : Prop :=
  ∀ snap, Delivered c a (.snapshot snap) → c.session.sessionId = .null →
    ∀ id ∈ c.outbox.keys, ∀ s, IssuedIn id s tr → s = .null ∨ s.strictEq (snap.get "sessionId") = true

/-- An observation sends no command that has strayed. -/
def AtHome (tr : List Obs) (o : Obs) : Prop :=
  ∀ i cmd, o = .sent i (.command cmd) → ¬ Strayed cmd.id tr

/-- The invariant: what is queued under an id carries that id, and has not strayed; the session the
client is in, if any, is the one it was issued in. -/
structure Homely (tr : List Obs) (c : HarnessClient) : Prop where
  keyed : ∀ e ∈ c.outbox.entries, e.2.id = e.1
  home : ∀ id ∈ c.outbox.keys, ∀ s, IssuedIn id s tr → s ≠ .null →
    c.session.sessionId = .null ∨ c.session.sessionId = s
  kept : ∀ id ∈ c.outbox.keys, ¬ Strayed id tr
  sent : Preceded AtHome tr

theorem mem_keys_of_mem_values {c : HarnessClient} (h : ∀ e ∈ c.outbox.entries, e.2.id = e.1)
    {cmd : CommandPayload} (hcmd : cmd ∈ c.outbox.values) : cmd.id ∈ c.outbox.keys := by
  obtain ⟨e, he, rfl⟩ := List.mem_map.mp hcmd
  rw [h e he]
  exact List.mem_map_of_mem he

/-- A flush of commands that have not strayed. -/
theorem preceded_flush {c : HarnessClient} {tr os : List Obs} (htr : Preceded AtHome tr)
    (hkeyed : ∀ e ∈ c.outbox.entries, e.2.id = e.1) (hkept : ∀ id ∈ c.outbox.keys, ¬ Strayed id tr)
    (hos : ∀ o ∈ os, o.Flushed c) : Preceded AtHome (tr ++ os) := by
  refine preceded_append htr ?_
  rintro p o q rfl i cmd rfl
  have hsub : ∀ x ∈ p, x.Flushed c := fun x hx => hos x (List.mem_append_left _ hx)
  have hcmd : cmd ∈ c.outbox.values := hos (.sent i (.command cmd)) (by simp)
  rw [(flushed_trace cmd.id hsub tr).1]
  exact hkept _ (mem_keys_of_mem_values hkeyed hcmd)

theorem homely_new (url : String) (authMode : AuthMode) (identity : Option Identity)
    (maxItems : Option Nat) : Homely [] (.new url authMode identity maxItems) where
  keyed := by intro e he; cases he
  home := by intro id hid; cases hid
  kept := by intro id hid; cases hid
  sent := Lts.preceded_nil _

/-- What a turn sends afterwards: the queue, which has not strayed. -/
theorem Homely.flush {tr os : List Obs} {c : HarnessClient} (h : Homely tr c)
    (hos : ∀ o ∈ os, o.Flushed c) : Homely (tr ++ os) c where
  keyed := h.keyed
  home := by
    intro id hid s hin
    rw [(flushed_trace id hos _).2] at hin
    exact h.home id hid s hin
  kept := by
    intro id hid
    rw [(flushed_trace id hos _).1]
    exact h.kept id hid
  sent := preceded_flush h.sent h.keyed h.kept hos

/-- Queueing a command: it is at home where it is issued. -/
theorem Homely.issue {tr : List Obs} {c c' : HarnessClient} (h : Homely tr c) {id : String}
    {cmd : CommandPayload} (hid : cmd.id = id) (hs : c'.session.sessionId = c.session.sessionId)
    (ho : c'.outbox = c.outbox.set id cmd) : Homely (tr ++ [.issued id c.session.sessionId]) c' := by
  have hother : ∀ {k : String}, k ≠ id → ¬ Issues k (.issued id c.session.sessionId) := by
    rintro k hk ⟨s, hks⟩
    cases hks
    exact hk rfl
  refine ⟨?_, ?_, ?_, ?_⟩
  · intro e he
    rw [ho, OrderedMap.mem_entries_set] at he
    rcases he with rfl | ⟨he, -⟩
    · exact hid
    · exact h.keyed e he
  · intro k hk s hin hnull
    rw [hs]
    rw [ho, OrderedMap.mem_keys_set] at hk
    by_cases heq : k = id
    · subst heq
      exact .inr (issuedIn_snoc_issued.mp hin).symm
    · rw [issuedIn_snoc (hother heq)] at hin
      exact h.home k (hk.resolve_left heq) s hin hnull
  · intro k hk
    rw [ho, OrderedMap.mem_keys_set] at hk
    by_cases heq : k = id
    · rw [heq]
      exact not_strayed_snoc_issued
    · rw [strayed_snoc (hother heq) (by simp)]
      exact h.kept k (hk.resolve_left heq)
  · refine Lts.preceded_snoc h.sent ?_
    intro i cmd' hcmd
    cases hcmd

/-- A queue that survives a snapshot is of the snapshot's session. -/
theorem Homely.survives {tr : List Obs} {c : HarnessClient} {a : Action} (h : Homely tr c)
    (hP : HomeFirst tr c a) {snap : JsRecord} (ha : Delivered c a (.snapshot snap))
    (hd : c.differs snap = false) {id : String} (hid : id ∈ c.outbox.keys) {s : JsValue}
    (hin : IssuedIn id s tr) (hnull : s ≠ .null) : s.strictEq (snap.get "sessionId") = true := by
  rcases h.home id hid s hin hnull with hsess | hsess
  · exact (hP snap ha hsess id hid s hin).resolve_left hnull
  · have hnn : c.session.sessionId.isNull = false := by
      rw [Bool.eq_false_iff, ne_eq, JsValue.isNull_iff, hsess]
      exact hnull
    unfold HarnessClient.differs at hd
    rw [hnn, hsess] at hd
    simpa using hd

/-- Accepting a snapshot: the queue is cleared, or it was issued in the session accepted. -/
theorem Homely.accept {tr : List Obs} {c c' : HarnessClient} {a : Action} (h : Homely tr c)
    (hP : HomeFirst tr c a) {snap : JsRecord} (ha : Delivered c a (.snapshot snap))
    (hs : c'.session.sessionId = snap.get "sessionId")
    (ho : c'.outbox = if c.differs snap then ∅ else c.outbox) :
    Homely (tr ++ [.accepted (snap.get "sessionId") c.session.sessionId]) c' := by
  have hno : ∀ id, ¬ Issues id (.accepted (snap.get "sessionId") c.session.sessionId) := by
    rintro id ⟨s, hs⟩
    cases hs
  have hsub : ∀ e ∈ c'.outbox.entries, e ∈ c.outbox.entries ∧ c.differs snap = false := by
    intro e he
    rw [ho] at he
    split at he
    · cases he
    · rename_i hd
      exact ⟨he, Bool.eq_false_iff.mpr hd⟩
  have hkeys : ∀ id ∈ c'.outbox.keys, id ∈ c.outbox.keys ∧ c.differs snap = false := by
    intro id hid
    obtain ⟨e, he, rfl⟩ := List.mem_map.mp hid
    exact ⟨List.mem_map_of_mem (hsub e he).1, (hsub e he).2⟩
  refine ⟨fun e he => h.keyed e (hsub e he).1, ?_, ?_, ?_⟩
  · intro id hid s hin hnull
    rw [issuedIn_snoc (hno id)] at hin
    have heq := h.survives hP ha (hkeys id hid).2 (hkeys id hid).1 hin hnull
    rw [hs]
    exact .inr (JsValue.eq_of_strictEq heq).symm
  · intro id hid
    rw [strayed_snoc_accepted]
    rintro (hstray | ⟨s, hin, hnull, hne⟩)
    · exact h.kept id (hkeys id hid).1 hstray
    · rw [h.survives hP ha (hkeys id hid).2 (hkeys id hid).1 hin hnull] at hne
      cases hne
  · refine Lts.preceded_snoc h.sent ?_
    intro i cmd' hcmd
    cases hcmd

/-- Any other turn keeps the session or drops it, and queues nothing. -/
theorem Homely.other {tr : List Obs} {c c' : HarnessClient} (h : Homely tr c)
    (hs : c'.session.sessionId = c.session.sessionId ∨ c'.session.sessionId = .null)
    (ho : ∀ e ∈ c'.outbox.entries, e ∈ c.outbox.entries) : Homely tr c' := by
  have hkeys : ∀ id ∈ c'.outbox.keys, id ∈ c.outbox.keys := by
    intro id hid
    obtain ⟨e, he, rfl⟩ := List.mem_map.mp hid
    exact List.mem_map_of_mem (ho e he)
  refine ⟨fun e he => h.keyed e (ho e he), ?_, fun id hid => h.kept id (hkeys id hid), h.sent⟩
  intro id hid s hin hnull
  rcases hs with hs | hs
  · rw [hs]
    exact h.home id (hkeys id hid) s hin hnull
  · exact .inl hs

theorem homely_step {tr os : List Obs} {c c' : HarnessClient} {a : Action} (h : Homely tr c)
    (hP : HomeFirst tr c a) (hs : system.step c a = some (c', os)) : Homely (tr ++ os) c' := by
  cases HarnessClient.step_queue hs with
  | issued _ hid hsess ho hos hrest =>
      rw [hos, List.append_cons]
      exact (h.issue hid hsess ho).flush hrest
  | accepted ha hsess ho hos hrest =>
      rw [hos, List.append_cons]
      exact (h.accept hP ha hsess ho).flush hrest
  | other hsess ho hos => exact (h.other hsess ho).flush hos

/-- **Queued commands do not cross sessions**: what is sent has not strayed, in every run in which a
client without a session is never handed, with a queue of another session, a snapshot. -/
theorem queued_stays_home {url : String} {authMode : AuthMode} {identity : Option Identity}
    {maxItems : Option Nat} {tr : List Obs} {c : HarnessClient}
    (h : system.Run HomeFirst [] (.new url authMode identity maxItems) tr c) :
    ∀ p i cmd q, tr = p ++ .sent i (.command cmd) :: q → ¬ Strayed cmd.id p := by
  have hinv := h.invariant (I := Homely) (homely_new url authMode identity maxItems)
    fun t u a u' os _ ih hP hs => homely_step ih hP hs
  exact fun p i cmd q htr => hinv.sent p _ q htr i cmd rfl

namespace Sample

def phone : HarnessClient := .new "wss://host:7432/ws" .hello none none

/-- The snapshot of a session without events. -/
def emptySession (id : String) : Wire.Envelope := .snapshot ⟨id, "idle", "", 0, [], [], []⟩

/-- A prompt, then the device is forgotten and connected to another host, whose session is live. -/
def forgotten : List Action :=
  [.connect none {}, .opened 0, hostFrame 0 (emptySession "s1"), .send (.sendPrompt "go on") "c1",
    .close, .reset, .setIdentity none, .connect none {}, .opened 1, hostFrame 1 (emptySession "s2")]

/-- A prompt, then the connection is lost and comes back to the same session. -/
def resumed : List Action :=
  [.connect none {}, .opened 0, hostFrame 0 (emptySession "s1"), .send (.sendPrompt "go on") "c1",
    .closed 0 (some 1006) {}, .timer {}, .opened 1, hostFrame 1 (emptySession "s1")]

/-- An observation, as far as commands and sessions go. -/
inductive Mark where
  | issued (id : String) (session : Option String)
  | accepted (session : Option String)
  | sent (id : String)
  | other
  deriving DecidableEq

def mark : Obs → Mark
  | .issued id s => .issued id (optionalString s)
  | .accepted s _ => .accepted (optionalString s)
  | .sent _ (.command cmd) => .sent cmd.id
  | _ => .other

theorem issued_of_mark {o : Obs} {id s : String} (h : mark o = .issued id (some s)) :
    o = .issued id (.str s) := by
  unfold mark at h
  split at h
  · rename_i v
    cases v with
    | str t => cases h; rfl
    | _ => cases h
  all_goals cases h

theorem accepted_of_mark {o : Obs} {s : String} (h : mark o = .accepted (some s)) :
    ∃ was, o = .accepted (.str s) was := by
  unfold mark at h
  split at h
  · cases h
  · rename_i v was
    cases v with
    | str t => cases h; exact ⟨was, rfl⟩
    | _ => cases h
  all_goals cases h

theorem sent_of_mark {o : Obs} {id : String} (h : mark o = .sent id) :
    ∃ i cmd, o = .sent i (.command cmd) ∧ cmd.id = id := by
  unfold mark at h
  split at h
  · cases h
  · cases h
  · rename_i i cmd
    cases h
    exact ⟨i, cmd, rfl, rfl⟩
  · cases h

/-- A command of session `s`, then a snapshot of session `s'`, and no other issue in between. -/
theorem strayed_of_marks {p : List Obs} {l₁ l₂ l₃ : List Mark} {id s s' : String}
    (hp : p.map mark = l₁ ++ .issued id (some s) :: (l₂ ++ .accepted (some s') :: l₃))
    (hno : ∀ v, Mark.issued id v ∉ l₂ ++ .accepted (some s') :: l₃) (hne : s ≠ s') :
    Strayed id p := by
  obtain ⟨p₁, r, rfl, -, hr⟩ := List.map_eq_append_iff.mp hp
  obtain ⟨o, q, rfl, ho, hq⟩ := List.map_eq_cons_iff.mp hr
  obtain rfl := issued_of_mark ho
  have hmem : Mark.accepted (some s') ∈ q.map mark := by rw [hq]; simp
  obtain ⟨x, hx, hxm⟩ := List.mem_map.mp hmem
  obtain ⟨was, rfl⟩ := accepted_of_mark hxm
  refine ⟨.str s, q, .str s', was, ⟨p₁, rfl, ⟨_, rfl⟩, ?_⟩, nofun, hx, ?_⟩
  · rintro y hy ⟨v, rfl⟩
    refine hno (optionalString v) ?_
    rw [← hq]
    exact List.mem_map_of_mem hy
  · simpa [JsValue.strictEq] using hne

end Sample

/-- In a run whose queue is empty whenever there is no session, `HomeFirst` holds. -/
theorem homeFirst_of_empty {tr : List Obs} {c : HarnessClient} {a : Action}
    (h : (c.outbox.keys.isEmpty || !c.session.sessionId.isNull) = true) : HomeFirst tr c a := by
  intro snap _ hnull id hid
  have hempty : c.outbox.keys = [] := by simpa [hnull, JsValue.isNull] using h
  rw [hempty] at hid
  cases hid

theorem queued_stays_home_resumed :
    ∃ tr c, system.Run HomeFirst [] Sample.phone tr c ∧
      (tr.map Sample.mark).count (.sent "c1") = 2 ∧
      ∀ p i cmd q, tr = p ++ .sent i (.command cmd) :: q → ¬ Strayed cmd.id p := by
  have hexec : ((system.exec
      (fun _ c _ => c.outbox.keys.isEmpty || !c.session.sessionId.isNull) [] Sample.phone
      Sample.resumed).map fun r => (r.1.map Sample.mark).count (.sent "c1")) = some 2 := by
    decide +kernel
  obtain ⟨r, hr, hcount⟩ := Option.map_eq_some_iff.mp hexec
  have hrun : system.Run HomeFirst [] Sample.phone r.1 r.2 :=
    Lts.run_of_exec (fun _ _ _ => homeFirst_of_empty) hr
  exact ⟨r.1, r.2, hrun, hcount, queued_stays_home hrun⟩

/-- The prompt of session `s1` goes to the agent of session `s2`. -/
theorem queued_crosses_sessions :
    ¬ ∀ tr c, system.Run Lts.Free [] Sample.phone tr c →
      ∀ p i cmd q, tr = p ++ .sent i (.command cmd) :: q → ¬ Strayed cmd.id p := by
  intro h
  have hexec : ((system.exec (fun _ _ _ => true) [] Sample.phone Sample.forgotten).map
      fun r => r.1.map Sample.mark) =
        some (([.other, .other, .other, .accepted (some "s1"), .other] : List Sample.Mark) ++
          .issued "c1" (some "s1") ::
            (([.sent "c1", .other, .other, .other, .other, .other] : List Sample.Mark) ++
              .accepted (some "s2") :: [.other]) ++ [.sent "c1"]) := by
    decide +kernel
  obtain ⟨r, hr, hmarks⟩ := Option.map_eq_some_iff.mp hexec
  have hrun : system.Run Lts.Free [] Sample.phone r.1 r.2 :=
    Lts.run_of_exec (fun _ _ _ _ => trivial) hr
  obtain ⟨p, q, hpq, hp, hq⟩ := List.map_eq_append_iff.mp hmarks
  obtain ⟨o, rest, rfl, ho, -⟩ := List.map_eq_cons_iff.mp hq
  obtain ⟨i, cmd, rfl, hid⟩ := Sample.sent_of_mark ho
  have hhome := h r.1 r.2 hrun p i cmd rest hpq
  rw [hid] at hhome
  exact hhome (Sample.strayed_of_marks hp (by simp) (by decide))

end Harness.Client
