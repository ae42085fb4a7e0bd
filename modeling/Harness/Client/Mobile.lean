/-
# Harness.Client.Mobile — the mobile app: what it remembers over a restart.

The app persists one number, the last seq, debounced and only when it grew. After a restart the client
gets it back with `setLastSeq` and has no session to go with it. From then on an event with a seq up to
that number is a duplicate, in whatever session the first snapshot puts the client.

A seq counts in a session, so the model keeps the session beside it: `storedIn`, `countsIn` and the
second half of `timer` are not in the app, they say of which session the number counts events.
`dropped_was_applied` is the law of the runs in which a client that remembers no session meets the
session its number counts in, and an event that is due is of the session the client is in.
-/
import Harness.Client.Convergence
import Harness.Client.Inversion

namespace Harness.Client

open Lib
open Wire (HostLog)

/-! ## The app -/

/-- What becomes of an event frame: event `seq` of `session` was applied, or dropped as a duplicate;
`current` says that the client was in that session. -/
inductive Seen where
  | applied (session : String) (seq : Nat)
  | discarded (session : String) (seq : Nat) (current : Bool)
  deriving DecidableEq

/-- The app and its storage. `stored` is the number in `AsyncStorage`, `lastSaved` and `timer` are the
variables of `bootstrap`; a running `timer` saves the number it was set with. -/
structure App where
  client : HarnessClient
  stored : ℚ := 0
  lastSaved : ℚ := 0
  timer : Option (ℚ × String) := none
  storedIn : String := ""
  countsIn : String := ""

inductive AppAction where
  /-- a call, or a callback other than a message -/
  | call (a : Action)
  /-- a daemon whose session is `session` sends `e` on socket `i` -/
  | frame (i : SocketId) (session : String) (e : Wire.Envelope) (env : Env)
  /-- the debounce timer fires; `written` says whether the write gets to the storage -/
  | save (written : Bool)
  /-- the app is started again; `identity` is what the secure store holds -/
  | restart (identity : Option Identity) (env : Env)

/-- Messages are `frame`s, and `setLastSeq` is called by `bootstrap` only. -/
def Action.isCall : Action → Bool
  | .message _ _ _ | .setLastSeq _ => false
  | _ => true

/-- The observation takes the client to another position: the daemon it is from decides what the
position counts. -/
def Obs.moves : Obs → Bool
  | .accepted _ _ | .applied _ _ => true
  | _ => false

/-- The session a position counts in: the one the client remembers, else `countsIn`. -/
def sessionOf (sessionId : JsValue) (countsIn : String) : String :=
  match sessionId with
  | .str session => session
  | _ => countsIn

/-- The same, and none when the position is 0 in no session. -/
def homeOf (s : SessionState) (countsIn : String) : Option String :=
  if s.sessionId.isNull && s.lastSeq = 0 then none else some (sessionOf s.sessionId countsIn)

namespace App

variable (app : App)

/-- The subscriber of `bootstrap`, at one notification. -/
def listener (lastSaved : ℚ) (countsIn : String) (timer : Option (ℚ × String)) :
    Obs → Option (ℚ × String)
  | .notified _ sessionId seq =>
      if seq ≤ lastSaved then timer else some (seq, sessionOf sessionId countsIn)
  | _ => timer

/-- A turn of the client, with its notifications. -/
def heard (c : HarnessClient) (os : List Obs) (countsIn : String) : App :=
  { app with
    client := c
    countsIn := countsIn
    timer := os.foldl (listener app.lastSaved countsIn) app.timer }

/-- `bootstrap`, up to `connect()`. -/
def boot (identity : Option Identity) : App :=
  let url := (identity.map (·.url)).getD "wss://localhost:7432/ws"
  let client := HarnessClient.new url .header identity (some 2000)
  { app with
    client := { client.setLastSeq (.finite app.stored) with out := [] }
    lastSaved := app.stored
    timer := none
    countsIn := app.storedIn }

/-- What the turn of a frame shows of an event of `session`. -/
def seen (session : String) (e : Wire.Envelope) (os : List Obs) : List Seen :=
  match e with
  | .event ev => os.filterMap fun
      | .applied _ _ => some (.applied session ev.seq)
      | .discarded sessionId _ => some (.discarded session ev.seq (sessionId.strictEq (.str session)))
      | _ => none
  | _ => []

def step : AppAction → Option (App × List Seen)
  | .call a =>
      if a.isCall then
        (system.step app.client a).map fun x => (app.heard x.1 x.2 app.countsIn, [])
      else none
  | .frame i session e env =>
      (system.step app.client (arrives i env e)).map fun x =>
        (app.heard x.1 x.2 (if x.2.any Obs.moves then session else app.countsIn), seen session e x.2)
  | .save written =>
      app.timer.map fun x =>
        ({ app with
          timer := none
          lastSaved := x.1
          stored := if written then x.1 else app.stored
          storedIn := if written then x.2 else app.storedIn }, [])
  | .restart identity env =>
      let booted := app.boot identity
      if identity.isSome then
        (system.step booted.client (.connect none env)).map fun x =>
          (booted.heard x.1 x.2 booted.countsIn, [])
      else some (booted, [])

/-- The first start, with nothing stored. -/
def installed : App :=
  { client := HarnessClient.new "wss://localhost:7432/ws" .header none (some 2000) }

/-- The session in which the client's position counts, when it has one. -/
def home : Option String := homeOf app.client.session app.countsIn

end App

/-- The mobile app. -/
def mobile : Lts App AppAction Seen where
  step := App.step

/-! ## The runs -/

/-- **`FromDaemons logs`** — frames come from daemons: a snapshot is of the daemon's session, an event is
of the log of that session. -/
def FromDaemons (logs : String → HostLog) (_ : List Seen) (_ : App) : AppAction → Prop
  | .frame _ session (.snapshot p) _ => p.sessionID = session
  | .frame _ session (.event ev) _ => ev ∈ (logs session).events
  | _ => True

/-- The frame decides what the client's position counts: a snapshot for a client that remembers no
session, or the next event. -/
def App.due (app : App) : Wire.Envelope → Bool
  | .snapshot _ => app.client.session.sessionId.isNull
  | .event ev =>
      decide (app.client.session.lastSeq < ev.seq) &&
        decide ((ev.seq : ℚ) ≤ app.client.session.lastSeq + 1)
  | _ => false

/-- **`Homecoming`** — the condition on a step: such a frame is of the session in which the position
counts, unless the position is 0 in no session. -/
def Homecoming (_ : List Seen) (app : App) : AppAction → Prop
  | .frame i session e env => Delivered app.client (arrives i env e) (inboundOf e) →
      app.due e = true → app.home = none ∨ app.home = some session
  | _ => True

/-! ## What a turn does to the position -/

/-- Neither a snapshot nor an event; listeners are told the position of `s`, or 0. -/
def Obs.Still (s : SessionState) : Obs → Prop
  | .accepted _ _ | .applied _ _ | .discarded _ _ => False
  | .notified _ sessionId seq => (sessionId = s.sessionId ∧ seq = s.lastSeq) ∨ seq = 0
  | _ => True

theorem Obs.Quiet.still {s : SessionState} {o : Obs} (h : o.Quiet s) : o.Still s := by
  cases o with
  | notified => exact .inl h
  | accepted => exact h.elim
  | applied => exact h.elim
  | discarded => exact h.elim
  | _ => trivial

theorem Obs.Quiet.still_new {o : Obs} (h : o.Quiet newSessionState) (s : SessionState) : o.Still s := by
  cases o with
  | notified => exact .inr h.2
  | accepted => exact h.elim
  | applied => exact h.elim
  | discarded => exact h.elim
  | _ => trivial

theorem Obs.Resent.still {c : HarnessClient} {o : Obs} (h : o.Resent c) : o.Still c.session := by
  rcases h with h | ⟨i, cmd, rfl, -⟩
  · exact h.still
  · trivial

/-- A turn takes in a snapshot, applies an event, drops one, or keeps or drops the session. -/
inductive StreamTrans (c : HarnessClient) (a : Action) (c' : HarnessClient) (os : List Obs) : Prop
  | still (hs : c'.session = c.session ∨ c'.session = newSessionState)
      (hos : ∀ o ∈ os, o.Still c.session)
  | accepted {snap : JsRecord} {was : JsValue} {rest : List Obs} (ha : Delivered c a (.snapshot snap))
      (hs : c'.session = applySnapshot c.session snap)
      (hos : os = .accepted (snap.get "sessionId") was :: rest)
      (hrest : ∀ o ∈ rest, o.Still c'.session)
  | applied {ev : JsRecord} {q : ℚ} {rest : List Obs} (ha : Delivered c a (.event ev))
      (hseq : HarnessClient.seqOf ev = .finite q) (hgt : c.session.lastSeq < q)
      (hle : q ≤ c.session.lastSeq + 1) (hs : c'.session.sessionId = c.session.sessionId)
      (hlast : c'.session.lastSeq = q) (hos : os = .applied c.session.sessionId q :: rest)
      (hrest : ∀ o ∈ rest, o.Still c'.session)
  | discarded {ev : JsRecord} (ha : Delivered c a (.event ev))
      (hle : (HarnessClient.seqOf ev).le c.session.lastSeq = true) (hs : c'.session = c.session)
      (hos : os = [.discarded c.session.sessionId (HarnessClient.seqOf ev)])

theorem step_stream {c c' : HarnessClient} {a : Action} {os : List Obs}
    (hs : system.step c a = some (c', os)) (ha : ∀ seq, a ≠ .setLastSeq seq) :
    StreamTrans c a c' os := by
  obtain ⟨d, ht, rfl, rfl⟩ := c.step_trans hs
  cases ht with
  | silent h => exact .still (.inl h.session) fun o hm => (h.seen rfl o hm).still
  | renewed h =>
      refine .still (.inr h.session) fun o hm => ?_
      exact (h.seen rfl o hm).elim (·.still) (·.still_new c.session)
  | restored hset => exact absurd hset (ha _)
  | issued _ _ _ hsess _ _ hout =>
      obtain ⟨os, hos, hq⟩ := hout
      refine .still (.inl hsess) ?_
      rw [hos]
      refine List.forall_mem_cons.mpr ⟨trivial, fun o hm => ?_⟩
      have hstill := (hq o hm).still
      rwa [hsess] at hstill
  | accepted hd _ hsess _ _ hout =>
      obtain ⟨os, hos, hq⟩ := hout
      exact .accepted hd hsess hos fun o hm => (hq o hm).still
  | applied hd hseq hgt hle _ hsess _ _ hout =>
      obtain ⟨os, hos, hq⟩ := hout
      refine .applied hd hseq hgt hle ?_ ?_ hos fun o hm => (hq o hm).still
      · show d.session.sessionId = _
        rw [hsess]
        exact HarnessClient.nextSession_sessionId _ _
      · show d.session.lastSeq = _
        rw [hsess]
        exact HarnessClient.nextSession_lastSeq _ _
  | discarded hd hle hc =>
      subst hc
      exact .discarded hd hle rfl rfl
  | settled _ hf _ hc =>
      subst hc
      refine .still (.inl rfl) fun o hm => ?_
      rcases List.mem_singleton.mp hm with rfl
      rcases hf with ⟨_, _, _, rfl⟩ | ⟨_, _, _, rfl, _⟩ <;> trivial
  | orphaned _ _ _ _ hc =>
      subst hc
      refine .still (.inl rfl) fun o hm => ?_
      rcases List.mem_singleton.mp hm with rfl
      trivial

/-! ## Positions that count applied events -/

/-- **`UpTo tr session q`** — every event of `session` up to `q` was applied. -/
def UpTo (tr : List Seen) (session : String) (q : ℚ) : Prop :=
  ∀ k : ℕ, 1 ≤ k → (k : ℚ) ≤ q → .applied session k ∈ tr

theorem UpTo.append {tr : List Seen} {session : String} {q : ℚ} (h : UpTo tr session q)
    (os : List Seen) : UpTo (tr ++ os) session q :=
  fun k h1 hk => List.mem_append_left _ (h k h1 hk)

theorem upTo_zero (tr : List Seen) (session : String) : UpTo tr session 0 := by
  intro k h1 hk
  have h0 : k ≤ 0 := by exact_mod_cast hk
  omega

/-- The next event extends the position. -/
theorem UpTo.next {tr : List Seen} {session : String} {q : ℚ} (h : UpTo tr session q) {n : ℕ}
    (hle : (n : ℚ) ≤ q + 1) : UpTo (tr ++ [.applied session n]) session n := by
  intro k h1 hk
  by_cases hq : (k : ℚ) ≤ q
  · exact List.mem_append_left _ (h k h1 hq)
  · have hlt : (n : ℚ) < k + 1 := by linarith [not_le.mp hq]
    have hkn : k ≤ n := by exact_mod_cast hk
    have hnk : n < k + 1 := by exact_mod_cast hlt
    have heq : k = n := by omega
    rw [heq]
    exact List.mem_append_right _ (List.mem_singleton_self _)

/-- An event dropped in its own session was applied before. -/
def AppliedBefore (tr : List Seen) (o : Seen) : Prop :=
  ∀ session seq, o = .discarded session seq true → .applied session seq ∈ tr

/-- The position of `s`, if it counts in a session, counts applied events. -/
def Counts (tr : List Seen) (s : SessionState) (countsIn : String) : Prop :=
  ∀ session, homeOf s countsIn = some session → UpTo tr session s.lastSeq

/-- The session id is the one of a daemon. -/
def OfDaemon (s : SessionState) : Prop := s.sessionId = .null ∨ ∃ session, s.sessionId = .str session

/-- The invariant: the position of the client, the one about to be saved and the one in the storage
count applied events. -/
structure Sound (tr : List Seen) (app : App) : Prop where
  named : OfDaemon app.client.session
  counts : Counts tr app.client.session app.countsIn
  timer : ∀ x, app.timer = some x → UpTo tr x.2 x.1
  stored : UpTo tr app.storedIn app.stored
  law : Lts.Preceded AppliedBefore tr

theorem counts_new (tr : List Seen) (countsIn : String) : Counts tr newSessionState countsIn := by
  intro session h
  cases h

/-- A position counts applied events of the session it is taken to count in. -/
theorem Counts.position {tr : List Seen} {s : SessionState} {countsIn : String}
    (h : Counts tr s countsIn) : UpTo tr (sessionOf s.sessionId countsIn) s.lastSeq := by
  by_cases h0 : s.lastSeq = 0
  · rw [h0]
    exact upTo_zero tr _
  · refine h _ ?_
    unfold homeOf
    rw [if_neg (by simp [h0])]

/-- What the subscriber is told counts applied events. -/
theorem listener_counts {tr : List Seen} {s : SessionState} {countsIn : String}
    (hcounts : Counts tr s countsIn) (lastSaved : ℚ) :
    ∀ (os : List Obs) (timer : Option (ℚ × String)), (∀ o ∈ os, o.Still s) →
      (∀ x, timer = some x → UpTo tr x.2 x.1) →
      ∀ x, os.foldl (App.listener lastSaved countsIn) timer = some x → UpTo tr x.2 x.1 := by
  intro os
  induction os with
  | nil => exact fun timer _ ht => ht
  | cons o os ih =>
      intro timer hos ht
      refine ih _ (fun x hx => hos x (List.mem_cons_of_mem o hx)) ?_
      have ho := hos o List.mem_cons_self
      cases o with
      | notified phase sessionId seq =>
          show ∀ x, (if seq ≤ lastSaved then timer else some (seq, sessionOf sessionId countsIn)) =
            some x → UpTo tr x.2 x.1
          split
          · exact ht
          · intro x hx
            obtain rfl := Option.some.inj hx
            rcases ho with ⟨rfl, rfl⟩ | rfl
            · exact hcounts.position
            · exact upTo_zero tr _
      | _ => exact ht

/-! ## One step -/

theorem not_moves {s : SessionState} {os : List Obs} (h : ∀ o ∈ os, o.Still s) :
    os.any Obs.moves = false := by
  rw [List.any_eq_false]
  intro o ho
  have hs := h o ho
  cases o with
  | accepted => exact hs.elim
  | applied => exact hs.elim
  | _ => exact Bool.false_ne_true

/-- A turn without snapshot or event. -/
theorem Sound.still {tr : List Seen} {app : App} (h : Sound tr app) {c : HarnessClient} {os : List Obs}
    (hs : c.session = app.client.session ∨ c.session = newSessionState)
    (hos : ∀ o ∈ os, o.Still app.client.session) : Sound tr (app.heard c os app.countsIn) where
  named := by
    show OfDaemon c.session
    rcases hs with hs | hs
    · exact hs ▸ h.named
    · exact hs ▸ .inl rfl
  counts := by
    show Counts tr c.session app.countsIn
    rcases hs with hs | hs
    · exact hs ▸ h.counts
    · exact hs ▸ counts_new tr _
  timer := listener_counts h.counts app.lastSaved os app.timer hos h.timer
  stored := h.stored
  law := h.law

theorem sound_call {tr : List Seen} {app : App} (h : Sound tr app) {a : Action} (ha : a.isCall = true)
    {c : HarnessClient} {os : List Obs} (hs : system.step app.client a = some (c, os)) :
    Sound tr (app.heard c os app.countsIn) := by
  have hset : ∀ seq, a ≠ .setLastSeq seq := by
    rintro seq rfl
    cases ha
  have hmsg : ∀ i data env, a ≠ .message i data env := by
    rintro i data env rfl
    cases ha
  cases step_stream hs hset with
  | still hsess hos => exact h.still hsess hos
  | accepted hd => exact absurd hd (not_delivered hmsg)
  | applied hd => exact absurd hd (not_delivered hmsg)
  | discarded hd => exact absurd hd (not_delivered hmsg)

theorem homeOf_str {s : SessionState} {session : String} (h : s.sessionId = .str session)
    (countsIn : String) : homeOf s countsIn = some session := by
  unfold homeOf sessionOf
  rw [h]
  rfl

/-- Where a due frame comes from, the position counts. -/
theorem Sound.due {tr : List Seen} {app : App} (h : Sound tr app) {session : String}
    (hhome : app.home = none ∨ app.home = some session) :
    UpTo tr session app.client.session.lastSeq := by
  rcases hhome with hnone | hsome
  · have h0 : app.client.session.lastSeq = 0 := by
      unfold App.home homeOf at hnone
      split at hnone
      · rename_i hcond
        exact (by simpa using hcond : _ ∧ _).2
      · cases hnone
    rw [h0]
    exact upTo_zero tr _
  · exact h.counts session hsome

/-- A snapshot of `p`'s session. -/
theorem Sound.accepted {tr : List Seen} {app : App} (h : Sound tr app) {p : Wire.SnapshotPayload}
    (hdue : app.client.session.sessionId = .null →
      UpTo tr p.sessionID app.client.session.lastSeq)
    {c : HarnessClient} (hs : c.session = applySnapshot app.client.session p.members) {o : Obs}
    {rest : List Obs} (ho : ∀ timer, App.listener app.lastSaved p.sessionID timer o = timer)
    (hrest : ∀ o ∈ rest, o.Still c.session) : Sound tr (app.heard c (o :: rest) p.sessionID) := by
  have hid : c.session.sessionId = .str p.sessionID := by
    rw [hs]
    exact get_sessionId p
  have hcounts : Counts tr c.session p.sessionID := by
    intro session hsession
    rw [homeOf_str hid] at hsession
    obtain rfl := Option.some.inj hsession
    rw [hs]
    show UpTo tr p.sessionID (snapshotBase app.client.session p.members).lastSeq
    unfold snapshotBase
    split
    · exact upTo_zero tr _
    · rename_i hsame
      rcases h.named with hnull | ⟨session, hstr⟩
      · exact hdue hnull
      · rw [hstr, get_sessionId] at hsame
        have heq : p.sessionID = session := by simpa [JsValue.isNull, JsValue.strictEq] using hsame
        rw [heq]
        exact h.counts session (homeOf_str hstr _)
  refine ⟨.inr ⟨_, hid⟩, hcounts, ?_, h.stored, h.law⟩
  show ∀ x, rest.foldl (App.listener app.lastSaved p.sessionID)
    (App.listener app.lastSaved p.sessionID app.timer o) = some x → UpTo tr x.2 x.1
  rw [ho]
  exact listener_counts hcounts app.lastSaved rest app.timer hrest h.timer

/-- The next event of `session`. -/
theorem Sound.applied {tr : List Seen} {app : App} (h : Sound tr app) {session : String} {n : ℕ}
    (hhome : app.home = none ∨ app.home = some session)
    (hle : (n : ℚ) ≤ app.client.session.lastSeq + 1) {c : HarnessClient}
    (hs : c.session.sessionId = app.client.session.sessionId) (hlast : c.session.lastSeq = n)
    {rest : List Obs} {id : JsValue} {q : ℚ} (hrest : ∀ o ∈ rest, o.Still c.session) :
    Sound (tr ++ [.applied session n]) (app.heard c (.applied id q :: rest) session) := by
  have hnext : UpTo (tr ++ [.applied session n]) session c.session.lastSeq :=
    hlast ▸ (h.due hhome).next hle
  have hcounts : Counts (tr ++ [.applied session n]) c.session session := by
    intro t ht
    suffices heq : t = session by rw [heq]; exact hnext
    rcases h.named with hnull | ⟨t', hstr⟩
    · unfold homeOf sessionOf at ht
      rw [hs, hnull] at ht
      split at ht
      · cases ht
      · exact (Option.some.inj ht).symm
    · rw [homeOf_str (hs.trans hstr)] at ht
      have happ : app.home = some t' := homeOf_str hstr _
      rw [happ, ht] at hhome
      rcases hhome with hnone | hsome
      · cases hnone
      · exact Option.some.inj hsome
  refine ⟨?_, hcounts, ?_, h.stored.append _, ?_⟩
  · show OfDaemon c.session
    unfold OfDaemon
    rw [hs]
    exact h.named
  · exact listener_counts hcounts app.lastSaved rest app.timer hrest
      fun x hx => (h.timer x hx).append _
  · refine Lts.preceded_snoc h.law ?_
    intro t seq heq
    cases heq

/-- An event of `session` that is dropped. -/
theorem Sound.discarded {tr : List Seen} {app : App} (h : Sound tr app) {session : String} {n : ℕ}
    (hpos : 1 ≤ n) (hle : (n : ℚ) ≤ app.client.session.lastSeq) {c : HarnessClient}
    (hs : c.session = app.client.session) {id : JsValue} {seq : JsNumber} :
    Sound (tr ++ [.discarded session n (app.client.session.sessionId.strictEq (.str session))])
      (app.heard c [.discarded id seq] app.countsIn) := by
  refine ⟨?_, ?_, fun x hx => (h.timer x hx).append _, h.stored.append _, ?_⟩
  · show OfDaemon c.session
    exact hs ▸ h.named
  · intro t ht
    have ht' : homeOf c.session app.countsIn = some t := ht
    rw [hs] at ht'
    show UpTo _ t c.session.lastSeq
    rw [hs]
    exact (h.counts t ht').append _
  · refine Lts.preceded_snoc h.law ?_
    intro t seq heq
    injection heq with ht hseq hcurrent
    have hid := JsValue.eq_of_strictEq hcurrent
    rw [← ht, ← hseq]
    exact h.counts session (homeOf_str hid _) n hpos hle

theorem seen_still {s : SessionState} {os : List Obs} (h : ∀ o ∈ os, o.Still s) (session : String)
    (e : Wire.Envelope) : App.seen session e os = [] := by
  cases e with
  | event ev =>
      refine List.filterMap_eq_nil_iff.mpr fun o ho => ?_
      have hs := h o ho
      cases o with
      | applied => exact hs.elim
      | discarded => exact hs.elim
      | _ => rfl
  | _ => rfl

/-- The events of a log are numbered from 1, and their numbers are read as they are. -/
theorem mem_log {L : HostLog} {ev : Wire.EventPayload} (h : ev ∈ L.events) :
    1 ≤ ev.seq ∧ HarnessClient.seqOf (eventMembers ev) = .finite ev.seq := by
  obtain ⟨i, hi, rfl⟩ := List.getElem_of_mem h
  refine ⟨?_, seqOf_eventMembers (L.seq_lt hi)⟩
  rw [L.numbered i hi]
  omega

theorem sound_frame {logs : String → HostLog} {tr : List Seen} {app : App} (h : Sound tr app)
    {i : SocketId} {session : String} {e : Wire.Envelope} {env : Env}
    (hfrom : FromDaemons logs tr app (.frame i session e env))
    (hhome : Homecoming tr app (.frame i session e env)) {c : HarnessClient} {os : List Obs}
    (hs : system.step app.client (arrives i env e) = some (c, os)) :
    Sound (tr ++ App.seen session e os)
      (app.heard c os (if os.any Obs.moves then session else app.countsIn)) := by
  cases step_stream hs nofun with
  | still hsess hos =>
      rw [seen_still hos, List.append_nil, not_moves hos, if_neg Bool.false_ne_true]
      exact h.still hsess hos
  | accepted hd hsess hos hrest =>
      have hin := delivered_arrives hd
      cases e with
      | snapshot p =>
          cases hin
          obtain rfl : p.sessionID = session := hfrom
          subst hos
          show Sound (tr ++ []) (app.heard c (_ :: _) p.sessionID)
          rw [List.append_nil]
          refine h.accepted (fun hnull => h.due (hhome hd ?_)) hsess (fun _ => rfl) hrest
          exact JsValue.isNull_iff.mpr hnull
      | _ => cases hin
  | applied hd hseq hgt hle hsess hlast hos hrest =>
      have hin := delivered_arrives hd
      cases e with
      | event ev =>
          cases hin
          have hmem : ev ∈ (logs session).events := hfrom
          rw [(mem_log hmem).2] at hseq
          injection hseq with hq
          subst hq
          subst hos
          have hseen : App.seen session (.event ev)
              (.applied app.client.session.sessionId ev.seq :: _) = [.applied session ev.seq] :=
            congrArg _ (seen_still hrest session (.event ev))
          rw [hseen]
          refine h.applied (hhome hd ?_) hle hsess hlast hrest
          show (decide _ && decide _) = true
          rw [decide_eq_true hgt, decide_eq_true hle]
          rfl
      | _ => cases hin
  | discarded hd hle hsess hos =>
      have hin := delivered_arrives hd
      cases e with
      | event ev =>
          cases hin
          have hmem : ev ∈ (logs session).events := hfrom
          rw [(mem_log hmem).2] at hle hos
          subst hos
          exact h.discarded (mem_log hmem).1 (by simpa [JsNumber.le] using hle) hsess
      | _ => cases hin

/-- The client of `bootstrap` counts what the storage counted. -/
theorem sound_boot {tr : List Seen} {app : App} (h : Sound tr app) (identity : Option Identity) :
    Sound tr (app.boot identity) := by
  have hsession : (app.boot identity).client.session = newSessionState ∨
      (app.boot identity).client.session = { newSessionState with lastSeq := app.stored } := by
    unfold App.boot HarnessClient.setLastSeq
    dsimp only
    split
    · exact .inl rfl
    · exact .inr rfl
  refine ⟨?_, ?_, fun x hx => (by cases hx), h.stored, h.law⟩
  · rcases hsession with hs | hs <;> exact .inl (by rw [hs]; rfl)
  · rcases hsession with hs | hs
    · rw [hs]
      exact counts_new tr _
    · rw [hs]
      intro session hsome
      have hin : session = app.storedIn := by
        unfold homeOf at hsome
        split at hsome
        · cases hsome
        · exact (Option.some.inj hsome).symm
      rw [hin]
      exact h.stored

theorem sound_step {logs : String → HostLog} {tr os : List Seen} {app app' : App} {a : AppAction}
    (h : Sound tr app) (hfrom : FromDaemons logs tr app a) (hhome : Homecoming tr app a)
    (hs : mobile.step app a = some (app', os)) : Sound (tr ++ os) app' := by
  cases a with
  | call a =>
      have hcall : (if a.isCall then (system.step app.client a).map fun x =>
        (app.heard x.1 x.2 app.countsIn, ([] : List Seen)) else none) = some (app', os) := hs
      split at hcall
      · rename_i ha
        obtain ⟨⟨c, os'⟩, hstep, heq⟩ := Option.map_eq_some_iff.mp hcall
        cases heq
        rw [List.append_nil]
        exact sound_call h ha hstep
      · cases hcall
  | frame i session e env =>
      obtain ⟨⟨c, os'⟩, hstep, heq⟩ := Option.map_eq_some_iff.mp hs
      cases heq
      exact sound_frame h hfrom hhome hstep
  | save written =>
      obtain ⟨⟨seq, session⟩, htimer, heq⟩ := Option.map_eq_some_iff.mp hs
      cases heq
      rw [List.append_nil]
      refine ⟨h.named, h.counts, fun x hx => (by cases hx), ?_, h.law⟩
      cases written with
      | true => exact h.timer _ htimer
      | false => exact h.stored
  | restart identity env =>
      have hboot := sound_boot h identity
      have hrestart : (if identity.isSome then
        (system.step (app.boot identity).client (.connect none env)).map fun x =>
          ((app.boot identity).heard x.1 x.2 (app.boot identity).countsIn, ([] : List Seen))
        else some (app.boot identity, [])) = some (app', os) := hs
      split at hrestart
      · obtain ⟨⟨c, os'⟩, hstep, heq⟩ := Option.map_eq_some_iff.mp hrestart
        cases heq
        rw [List.append_nil]
        exact sound_call hboot rfl hstep
      · cases hrestart
        rw [List.append_nil]
        exact hboot

theorem sound_installed : Sound [] App.installed where
  named := .inl rfl
  counts := counts_new [] _
  timer := by intro x hx; cases hx
  stored := upTo_zero [] _
  law := Lts.preceded_nil _

/-- **Only applied events are dropped as duplicates**, over restarts of the app and of the daemon, when a
client without a session comes back to the session its position counts in. -/
theorem dropped_was_applied {logs : String → HostLog} {tr : List Seen} {app : App}
    (h : mobile.Run (fun t u a => FromDaemons logs t u a ∧ Homecoming t u a) [] App.installed tr app) :
    ∀ p session seq q, tr = p ++ .discarded session seq true :: q → .applied session seq ∈ p := by
  have hsound := h.invariant (I := Sound) sound_installed
    fun t u a u' os _ ih hP hs => sound_step ih hP.1 hP.2 hs
  exact fun p session seq q htr => hsound.law p _ q htr session seq rfl

/-- What `Homecoming` asks of a step, evaluated. -/
def homecomingCheck (app : App) : AppAction → Bool
  | .frame _ session e _ => !app.due e || app.home == none || app.home == some session
  | _ => true

theorem homecoming_of_check {tr : List Seen} {app : App} {a : AppAction}
    (h : homecomingCheck app a = true) : Homecoming tr app a := by
  cases a with
  | frame i session e env =>
      intro _ hdue
      simpa [homecomingCheck, hdue] using h
  | _ => trivial

namespace Sample

def phoneIdentity : Identity :=
  ⟨.str "d1", .str "secret", "wss://host:7432/ws", none, .str "phone"⟩

/-- Two events of `s1` are applied and their position saved; the app is started again and connects. -/
def savedPosition : List AppAction :=
  [.call (.connect none {}), .call (.opened 0),
    .frame 0 "s1" (.snapshot ⟨"s1", "idle", "", 2, [], [], []⟩) {},
    .frame 0 "s1" (.event requested) {}, .frame 0 "s1" (.event granted) {},
    .save true, .restart (some phoneIdentity) {}, .call (.opened 0)]

/-- The daemon that answers then: its snapshot, and an event. -/
def answeredBy (session : String) (tip : Nat) (ev : Wire.EventPayload) : List AppAction :=
  [.frame 0 session (.snapshot ⟨session, "idle", "", tip, [], [], []⟩) {},
    .frame 0 session (.event ev) {}]

theorem fromDaemons_savedPosition (t : List Seen) (u : App) :
    ∀ a ∈ savedPosition, FromDaemons (fun _ => log) t u a := by
  have hmem : ∀ k (hk : k < log.events.length), log.events[k] ∈ log.events :=
    fun k hk => List.getElem_mem hk
  simp only [savedPosition, List.forall_mem_cons]
  exact ⟨trivial, trivial, rfl, hmem 0 (by decide), hmem 1 (by decide), trivial, trivial, trivial,
    List.forall_mem_nil _⟩

theorem fromDaemons_answeredBy (t : List Seen) (u : App) (session : String) (tip : Nat)
    {ev : Wire.EventPayload} (hev : ev ∈ log.events) :
    ∀ a ∈ answeredBy session tip ev, FromDaemons (fun _ => log) t u a := by
  simp only [answeredBy, List.forall_mem_cons]
  exact ⟨rfl, hev, List.forall_mem_nil _⟩

end Sample

theorem dropped_was_applied_sameDaemon :
    ∃ logs app,
      mobile.Run (fun t u a => FromDaemons logs t u a ∧ Homecoming t u a) [] App.installed
        [.applied "s1" 1, .applied "s1" 2, .discarded "s1" 2 true] app ∧
      ∀ p session seq q, [Seen.applied "s1" 1, .applied "s1" 2, .discarded "s1" 2 true] =
        p ++ .discarded session seq true :: q → .applied session seq ∈ p := by
  have hexec : (mobile.exec (fun _ => homecomingCheck) [] App.installed
      (Sample.savedPosition ++ Sample.answeredBy "s1" 2 Sample.granted)).map Prod.fst =
      some [.applied "s1" 1, .applied "s1" 2, .discarded "s1" 2 true] := by decide +kernel
  obtain ⟨⟨tr, app⟩, hr, rfl⟩ := Option.map_eq_some_iff.mp hexec
  have hrun := Lts.run_of_exec_mem
    (P := fun t u a => FromDaemons (fun _ => Sample.log) t u a ∧ Homecoming t u a)
    (fun a ha t u hcheck => ⟨(List.mem_append.mp ha).elim (Sample.fromDaemons_savedPosition t u a)
      (Sample.fromDaemons_answeredBy t u "s1" 2 (List.getElem_mem _) a), homecoming_of_check hcheck⟩) hr
  exact ⟨_, app, hrun, dropped_was_applied hrun⟩

/-- The first event of the new session is dropped: its seq is not past the one saved in the old
session. -/
theorem dropped_unseen :
    ¬ ∀ logs tr app, mobile.Run (FromDaemons logs) [] App.installed tr app →
      ∀ p session seq q, tr = p ++ .discarded session seq true :: q → .applied session seq ∈ p := by
  intro h
  have hexec : (mobile.exec (fun _ _ _ => true) [] App.installed
      (Sample.savedPosition ++ Sample.answeredBy "s2" 0 Sample.requested)).map Prod.fst =
      some [.applied "s1" 1, .applied "s1" 2, .discarded "s2" 1 true] := by decide +kernel
  obtain ⟨⟨tr, app⟩, hr, rfl⟩ := Option.map_eq_some_iff.mp hexec
  have hrun := Lts.run_of_exec_mem (P := FromDaemons fun _ => Sample.log)
    (fun a ha t u _ => (List.mem_append.mp ha).elim (Sample.fromDaemons_savedPosition t u a)
      (Sample.fromDaemons_answeredBy t u "s2" 0 (List.getElem_mem _) a)) hr
  have hmem := h _ _ _ hrun [.applied "s1" 1, .applied "s1" 2] "s2" 1 [] rfl
  revert hmem
  decide

end Harness.Client
