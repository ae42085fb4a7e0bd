/-
# Harness.Hub.Lives — one database, many daemons.

The daemon can be stopped or killed at any moment, between any two of its statements; `harness serve` then
starts another one on the database that is left, under a session of its own. What is in the process is gone:
connections, queues, pending maps and recorded keys. What is in the database is not.

A run here is the whole history of a database, from its creation on. Three things are proved of it: a session
is sealed when its daemon is gone (`histories_kept`); a device is let in exactly when it has been paired and not
been revoked since, in whichever life that was (`admitted_exactly`); and a command takes effect
once in a session (`once_a_session`), which is all that can be had of keys that are kept in the process: after
a restart it takes effect again.
-/
import Harness.Hub.Authentication
import Harness.Hub.HostWords

namespace Harness.Hub.Lives

open Wire Auth Lib

/-! ## The system -/

/-- The daemon that runs, and the session it has created. -/
structure State where
  sessionID : String
  world : World

inductive Action where
  | daemon (a : Hub.Action)
  /-- the process is gone, and `serve` starts another one, which creates a session under a new random id -/
  | restart (sessionID : String)

inductive Obs where
  | started (sessionID : String)
  | daemon (sessionID : String) (o : Hub.Obs)

/-- The configuration of the daemon of a session. -/
def configOf (cfg : Config) (sessionID : String) : Config := { cfg with sessionID := sessionID }

/-- A new daemon. The `harness pair --approve` processes that are between their statements live on. -/
def State.restarted (cfg : Config) (s : State) (sessionID : String) : State where
  sessionID := sessionID
  world :=
    { World.init (configOf cfg sessionID) s.world.hub.store s.world.hub.now with approving := s.world.approving }

def system (cfg : Config) : Lts State Action Obs where
  step s
    | .daemon a =>
        (s.world.step (configOf cfg s.sessionID) a).map fun r =>
          ({ s with world := r.1 }, r.2.map (Obs.daemon s.sessionID))
    | .restart sessionID =>
        -- an id that is taken is an error of `CreateSession`, and `serve` exits
        if (s.world.hub.store.sessions sessionID).isNone then
          some (s.restarted cfg sessionID, [.started sessionID])
        else none

/-- The tables after the migrations. -/
def newDatabase : Store where
  sessions := fun _ => none
  events := fun _ => []
  devices := []
  pendingTokens := fun _ => none

/-- The first daemon, on a database it has just created. -/
def start (cfg : Config) (sessionID : String) (now : Int) : State where
  sessionID := sessionID
  world := World.init (configOf cfg sessionID) newDatabase now

/-- The runs of a database, from the start of its first daemon on. -/
abbrev History (cfg : Config) (P : List Obs → State → Action → Prop) (sessionID : String) (now : Int) :
    List Obs → State → Prop :=
  (system cfg).Run P [.started sessionID] (start cfg sessionID now)

/-! ## What a step can do -/

/-- A step of the daemon that runs, or a new daemon. -/
inductive Step (cfg : Config) (s : State) : Action → State → List Obs → Prop
  | daemon {a : Hub.Action} {w' : World} {os : List Hub.Obs}
      (ht : StepTrans (configOf cfg s.sessionID) s.world a w' os) :
      Step cfg s (.daemon a) { s with world := w' } (os.map (Obs.daemon s.sessionID))
  | restart {sessionID : String} (hnew : s.world.hub.store.sessions sessionID = none) :
      Step cfg s (.restart sessionID) (s.restarted cfg sessionID) [.started sessionID]

theorem step_cases {cfg : Config} {s s' : State} {a : Action} {os : List Obs}
    (hs : (system cfg).step s a = some (s', os)) : Step cfg s a s' os := by
  cases a with
  | daemon a =>
    simp only [system, Option.map_eq_some_iff] at hs
    obtain ⟨⟨w, obs⟩, hw, heq⟩ := hs
    cases heq
    exact .daemon (World.step_trans hw)
  | restart sessionID =>
    simp only [system] at hs
    split at hs
    · rename_i hnone
      cases hs
      exact .restart (Option.isNone_iff_eq_none.mp hnone)
    · cases hs

/-- The observations of the daemons, without whose they are. -/
def Obs.daemon? : Obs → Option Hub.Obs
  | .daemon _ o => some o
  | .started _ => none

def daemonTrace (tr : List Obs) : List Hub.Obs := tr.filterMap Obs.daemon?

theorem daemonTrace_daemon (tr : List Obs) (sid : String) (os : List Hub.Obs) :
    daemonTrace (tr ++ os.map (Obs.daemon sid)) = daemonTrace tr ++ os := by
  rw [daemonTrace, List.filterMap_append, List.filterMap_map]
  exact congrArg _ List.filterMap_some

theorem daemonTrace_started (tr : List Obs) (sid : String) :
    daemonTrace (tr ++ [.started sid]) = daemonTrace tr := by
  rw [daemonTrace, List.filterMap_append]
  exact List.append_nil _

/-! ## The sessions -/

/-- The event a daemon appended to the session. -/
def Obs.appendedTo (sid : String) : Obs → Option EventPayload
  | .daemon sid' o => if sid' = sid then o.appendedEvent else none
  | .started _ => none

/-- What the tables say of one session after a trace: it has been started or not, its row counts its events,
and its events are those its daemon appended. -/
structure Chronicle (tr : List Obs) (db : Store) (sid : String) : Prop where
  row : db.sessions sid = none ↔ .started sid ∉ tr
  unborn : db.sessions sid = none → db.events sid = []
  counted : ∀ sess, db.sessions sid = some sess → sess.lastSeq = (db.events sid).length
  numbered : Fanout.Numbered EventPayload.seq (db.events sid)
  events : db.events sid = tr.filterMap (Obs.appendedTo sid)

/-- What a step of the daemon does to the tables of sessions and events. -/
theorem StepTrans.tables {cfg : Config} {w w' : World} {a : Hub.Action} {os : List Hub.Obs}
    (h : StepTrans cfg w a w' os) :
    (∃ kind payload ev st, w.hub.store.appendEvent cfg.sessionID kind payload w.hub.now = some (ev, st) ∧
      w'.hub.store = st ∧ os.filterMap Hub.Obs.appendedEvent = [ev]) ∨
    (w'.hub.store.events = w.hub.store.events ∧ w'.hub.store.sessions = w.hub.store.sessions ∧
      os.filterMap Hub.Obs.appendedEvent = []) := by
  rcases h.actors with ⟨c, dev, cmd, pc, ch, h', ph', -, -, ht, rfl⟩ | ⟨ch, h', ph', -, ht, rfl⟩ |
    ⟨hq, hno, -, -⟩
  · rcases ht.appended with ⟨out, ev, st, -, -, happ, rfl, rfl⟩ | ⟨hnil, hst⟩
    · exact .inl ⟨_, _, ev, st, happ, rfl, rfl⟩
    · exact .inr ⟨by rw [hst], by rw [hst], hnil⟩
  · generalize w.ingest = ph at ht
    cases ht with
    | append happ => exact .inl ⟨_, _, _, _, happ, rfl, rfl⟩
    | receive | appendFails => exact .inr ⟨rfl, rfl, rfl⟩
    | note =>
      have hst := note_store w.hub
      exact .inr ⟨by rw [hst], by rw [hst], note_appended _ _⟩
    | broadcast hb | broadcastDone hb =>
      exact .inr ⟨by rw [hb.frame.2.2.1], by rw [hb.frame.2.2.1], hb.appended⟩
  · exact .inr ⟨hq.events, hq.sessions, filterMap_appended_nil hno⟩

theorem filterMap_appendedTo (sid sid' : String) (os : List Hub.Obs) :
    (os.map (Obs.daemon sid')).filterMap (Obs.appendedTo sid) =
      if sid' = sid then os.filterMap Hub.Obs.appendedEvent else [] := by
  rw [List.filterMap_map]
  split
  · rename_i heq
    exact List.filterMap_congr fun o _ => if_pos heq
  · rename_i hne
    exact List.filterMap_eq_nil_iff.mpr fun o _ => if_neg hne

theorem started_notMem_daemon (sid sid' : String) (os : List Hub.Obs) :
    Obs.started sid ∉ os.map (Obs.daemon sid') := by
  intro h
  obtain ⟨o, -, heq⟩ := List.mem_map.mp h
  cases heq

/-- The tables of a session that a step leaves alone. -/
theorem Chronicle.kept {tr os : List Obs} {db db' : Store} {sid : String} (h : Chronicle tr db sid)
    (hs : db'.sessions sid = db.sessions sid) (he : db'.events sid = db.events sid) (hno : .started sid ∉ os)
    (hos : os.filterMap (Obs.appendedTo sid) = []) : Chronicle (tr ++ os) db' sid where
  row := by
    rw [hs, h.row, List.mem_append]
    exact ⟨fun hn => not_or.mpr ⟨hn, hno⟩, fun hn => (not_or.mp hn).1⟩
  unborn := by
    rw [hs, he]
    exact h.unborn
  counted := by
    rw [hs, he]
    exact h.counted
  numbered := by
    rw [he]
    exact h.numbered
  events := by rw [he, h.events, List.filterMap_append, hos, List.append_nil]

/-- An append is one more event of its session. -/
theorem Chronicle.append {tr os : List Obs} {db db' : Store} {sid : String} {kind : EventKind} {payload : Json}
    {now : Int} {ev : EventPayload} (h : Chronicle tr db sid)
    (happ : db.appendEvent sid kind payload now = some (ev, db'))
    (hos : os.filterMap (Obs.appendedTo sid) = [ev]) : Chronicle (tr ++ os) db' sid := by
  obtain ⟨⟨sess, hsess, hseq, status, -, hs'⟩, -, -, he, -, -⟩ := Store.appendEvent_spec happ
  have hlen : sess.lastSeq = (db.events sid).length := h.counted sess hsess
  have hevents : db'.events sid = db.events sid ++ [ev] := by rw [he, Function.update_self]
  have hrow : db'.sessions sid = some ⟨status, sess.lastSeq + 1⟩ := by rw [hs', Function.update_self]
  have hstarted : Obs.started sid ∈ tr := by
    by_contra hnot
    rw [h.row.mpr hnot] at hsess
    cases hsess
  refine ⟨?_, ?_, ?_, ?_, ?_⟩
  · rw [hrow]
    exact iff_of_false (fun hnone => by cases hnone) fun hn => hn (List.mem_append_left _ hstarted)
  · rw [hrow]
    exact fun hnone => by cases hnone
  · intro sess' hsess'
    rw [hrow, Option.some.injEq] at hsess'
    subst hsess'
    rw [hevents, List.length_append, List.length_singleton, hlen]
  · have hnum := h.numbered
    rw [Fanout.Numbered] at hnum ⊢
    rw [hevents, List.length_append, List.length_singleton, List.range'_concat, List.map_append, hnum,
      List.map_singleton, hseq, hlen, Nat.one_mul, Nat.add_comm]
  · rw [hevents, h.events, List.filterMap_append, hos]

/-- A session that is created has no events. -/
theorem Chronicle.create {tr : List Obs} {db : Store} {sid : String} (h : Chronicle tr db sid)
    (hnew : db.sessions sid = none) : Chronicle (tr ++ [.started sid]) (db.createSession sid) sid := by
  have hrow : (db.createSession sid).sessions sid = some ⟨"idle", 0⟩ := Function.update_self _ _ _
  have hevents : (db.createSession sid).events sid = [] := Function.update_self _ _ _
  refine ⟨?_, fun _ => hevents, ?_, ?_, ?_⟩
  · rw [hrow]
    exact iff_of_false (fun hnone => by cases hnone) fun hn => hn (List.mem_append_right _ List.mem_cons_self)
  · intro sess hsess
    rw [hrow, Option.some.injEq] at hsess
    subst hsess
    rw [hevents]
    rfl
  · rw [hevents]
    rfl
  · rw [hevents, List.filterMap_append, ← h.events, h.unborn hnew]
    rfl

section

variable {cfg : Config} {P : List Obs → State → Action → Prop} {sid₀ : String} {now : Int} {tr : List Obs}
  {s : State}

/-- **A step writes one more line of the chronicle** of the session that runs, or begins a new one. -/
theorem Chronicle.step {s' : State} {a : Action} {os : List Obs} {sid : String}
    (h : Chronicle tr s.world.hub.store sid) (hs : Step cfg s a s' os) :
    Chronicle (tr ++ os) s'.world.hub.store sid := by
  cases hs with
  | @daemon a w' os ht =>
    have hno := started_notMem_daemon sid s.sessionID os
    have hos := filterMap_appendedTo sid s.sessionID os
    rcases StepTrans.tables ht with ⟨kind, payload, ev, st, happ, rfl, hev⟩ | ⟨he, hs, hnil⟩
    · by_cases hsid : s.sessionID = sid
      · subst hsid
        rw [if_pos rfl, hev] at hos
        exact h.append happ hos
      · obtain ⟨⟨sess, -, -, status, -, hs'⟩, -, -, he, -, -⟩ := Store.appendEvent_spec happ
        rw [if_neg hsid] at hos
        refine h.kept ?_ ?_ hno hos
        · rw [hs']
          exact Function.update_of_ne (Ne.symm hsid) _ _
        · rw [he]
          exact Function.update_of_ne (Ne.symm hsid) _ _
    · rw [hnil, ite_self] at hos
      exact h.kept (congrFun hs sid) (congrFun he sid) hno hos
  | @restart sessionID hnew =>
    show Chronicle (tr ++ [.started sessionID]) (s.world.hub.store.createSession sessionID) sid
    by_cases hsid : sid = sessionID
    · subst hsid
      exact h.create hnew
    · refine h.kept (Function.update_of_ne hsid _ _) (Function.update_of_ne hsid _ _) ?_ rfl
      rw [List.mem_singleton]
      exact fun heq => hsid (Obs.started.inj heq)

theorem chronicle_start (sid : String) :
    Chronicle [.started sid₀] (start cfg sid₀ now).world.hub.store sid := by
  have hempty : Chronicle [] newDatabase sid :=
    ⟨iff_of_true rfl List.not_mem_nil, fun _ => rfl, fun _ h => (by cases h), rfl, rfl⟩
  show Chronicle ([] ++ [.started sid₀]) (newDatabase.createSession sid₀) sid
  by_cases hsid : sid = sid₀
  · subst hsid
    exact hempty.create rfl
  · refine hempty.kept (Function.update_of_ne hsid _ _) (Function.update_of_ne hsid _ _) ?_ rfl
    rw [List.mem_singleton]
    exact fun heq => hsid (Obs.started.inj heq)

theorem chronicle (h : History cfg P sid₀ now tr s) (sid : String) : Chronicle tr s.world.hub.store sid := by
  refine h.invariant (I := fun t u => Chronicle t u.world.hub.store sid) (chronicle_start sid) ?_
  intro t u a u' os _ ih _ hs
  exact ih.step (step_cases hs)

/-- **A session whose daemon is gone is sealed**: nothing adds to it. -/
theorem sealed {t : List Obs} {u : State} (h : (system cfg).Run P t u tr s) {sid : String}
    (hborn : u.world.hub.store.sessions sid ≠ none) (hover : sid ≠ u.sessionID) :
    s.world.hub.store.events sid = u.world.hub.store.events sid ∧
      s.world.hub.store.sessions sid = u.world.hub.store.sessions sid ∧ sid ≠ s.sessionID := by
  refine h.invariant (I := fun _ v => v.world.hub.store.events sid = u.world.hub.store.events sid ∧
    v.world.hub.store.sessions sid = u.world.hub.store.sessions sid ∧ sid ≠ v.sessionID) ⟨rfl, rfl, hover⟩ ?_
  rintro t v a v' os _ ⟨hevents, hsessions, hne⟩ _ hs
  cases step_cases hs with
  | daemon ht =>
    rcases StepTrans.tables ht with ⟨kind, payload, ev, st, happ, rfl, -⟩ | ⟨he, hs, -⟩
    · obtain ⟨⟨sess, -, -, status, -, hs'⟩, -, -, he, -, -⟩ := Store.appendEvent_spec happ
      refine ⟨?_, ?_, hne⟩
      · rw [← hevents, he]
        exact Function.update_of_ne hne _ _
      · rw [← hsessions, hs']
        exact Function.update_of_ne hne _ _
    · exact ⟨(congrFun he sid).trans hevents, (congrFun hs sid).trans hsessions, hne⟩
  | @restart sessionID hnew =>
    have hsid : sid ≠ sessionID := by
      rintro rfl
      exact hborn (hsessions.symm.trans hnew)
    refine ⟨?_, ?_, hsid⟩
    · exact (Function.update_of_ne hsid _ _).trans hevents
    · exact (Function.update_of_ne hsid _ _).trans hsessions

/-- **What the database keeps of its sessions.** At every moment of its history, whatever was killed when: a
session has a row once it has been started, the row counts its events, and they are the events its daemon
appended, numbered from 1; and from the moment another daemon runs nothing about it changes any more. -/
theorem histories_kept (h : History cfg P sid₀ now tr s) :
    (∀ sid, Chronicle tr s.world.hub.store sid) ∧
      ∀ t u sid, History cfg P sid₀ now t u → (system cfg).Run P t u tr s → .started sid ∈ t →
        sid ≠ u.sessionID → s.world.hub.store.events sid = u.world.hub.store.events sid ∧
          s.world.hub.store.sessions sid = u.world.hub.store.sessions sid := by
  refine ⟨chronicle h, fun t u sid hu hrest hstarted hover => ?_⟩
  have hborn : u.world.hub.store.sessions sid ≠ none := fun hnone => (chronicle hu sid).row.mp hnone hstarted
  obtain ⟨hevents, hsessions, -⟩ := sealed hrest hborn hover
  exact ⟨hevents, hsessions⟩

end

namespace Sample

def start : State := Lives.start Hub.Sample.config "first" 0

def daemon (as : List Hub.Action) : List Action := as.map Action.daemon

/-- A token is created, presented and approved, and the daemon is killed. -/
def pairedThenKilled : List Action := daemon approvedPairing ++ [.restart "second"]

/-- The device and the credential of that pairing. -/
def pixel : DeviceID := generateID (Vector.replicate 16 0x33)

def secret : String := String.ofList (hexEncode (Vector.replicate 32 (0x44 : UInt8)).toList)

/-- The device sends a prompt, and sends it again to the next daemon, which does not know the key. -/
def resent : List Action :=
  pairedThenKilled ++ daemon (Hub.Sample.connect 0 secret 0 ++
    [.conn 0 (Hub.Sample.command "c1" .sendPrompt [("text", .str "hello")])] ++ Hub.Sample.handle 0 [0]) ++
  [.restart "third"] ++ daemon (Hub.Sample.connect 0 secret 0 ++
    [.conn 0 (Hub.Sample.command "c1" .sendPrompt [("text", .str "hello")])] ++ Hub.Sample.handle 0 [0])

end Sample

theorem histories_kept_resent :
    ∃ tr s, History Hub.Sample.config Lts.Free "first" 0 tr s ∧
      (s.world.hub.store.events "second").length = 1 ∧
      (∀ sid, Chronicle tr s.world.hub.store sid) ∧
      ∀ t u sid, History Hub.Sample.config Lts.Free "first" 0 t u →
        (system Hub.Sample.config).Run Lts.Free t u tr s → .started sid ∈ t → sid ≠ u.sessionID →
          s.world.hub.store.events sid = u.world.hub.store.events sid ∧
            s.world.hub.store.sessions sid = u.world.hub.store.sessions sid := by
  have hexec : ((system Hub.Sample.config).exec (fun _ _ _ => true) [.started "first"] Sample.start
      Sample.resent).map (fun r => (r.2.world.hub.store.events "second").length) = some 1 := by
    decide +kernel
  obtain ⟨⟨tr, s⟩, he, hcount⟩ := Option.map_eq_some_iff.mp hexec
  have hrun : History Hub.Sample.config Lts.Free "first" 0 tr s :=
    Lts.run_of_exec_forall (fun _ _ _ _ => trivial) he
  exact ⟨tr, s, hrun, hcount, histories_kept hrun⟩

/-! ## The devices -/

/-- What a step does to the devices: nothing, one is added, or one is revoked. -/
inductive Enrolls (hash : String → String) (db db' : Store) : List Hub.Obs → Prop
  | same {os : List Hub.Obs} (hd : db'.devices = db.devices) (hos : ∀ o ∈ os, registryUntouched o = true) :
      Enrolls hash db db' os
  | added {c : ConnId} {t name cred : String} {dev : DeviceID} {now : Int} {f : Envelope}
      (hd : db'.devices = (db.addDevice dev name (hash cred) now).devices) :
      Enrolls hash db db' [.issued c t dev cred, .direct c f]
  | revoked {id : String} (hd : db'.devices = (db.revokeDevice id).devices) : Enrolls hash db db' [.revoked id]

theorem PairTrans.enrolls {cfg : Config} {c : ConnId} {h h' : Hub} {p : Attempt} {pc : PairPc} {ch : Choice}
    {ph : ConnPhase} {os : List Hub.Obs} (ht : PairTrans cfg c h p pc ch h' ph os) :
    Enrolls cfg.hashCredential h.store h'.store os := by
  have deleted {st : Store} (hst : st = h.store ∨ st = h.store.deletePendingToken p.token) :
      st.devices = h.store.devices := by
    rcases hst with rfl | rfl <;> rfl
  cases ht with
  | issue hiss =>
    cases hiss
    exact .added rfl
  | peek | check => exact .same rfl (List.forall_mem_nil _)
  | allowed => exact .same rfl (List.forall_mem_singleton.mpr rfl)
  | consume hcons | consumeOwn hcons =>
    exact .same (consumePairingToken_log hcons).2.2 (List.forall_mem_singleton.mpr rfl)
  | ask hst | consumeLost _ hst => exact .same (deleted hst) (List.forall_mem_nil _)
  | approve happ => exact .same (approvePendingToken_log happ).2.2 (List.forall_mem_singleton.mpr rfl)
  | issueFails =>
    apply Enrolls.same rfl
    intro o ho
    rcases List.mem_pair.mp ho with rfl | rfl <;> rfl
  | quit hst hos =>
    apply Enrolls.same (deleted hst)
    intro o ho
    rcases hos o ho with ⟨code, msg, rfl⟩ | rfl <;> rfl

theorem StepTrans.enrolls {cfg : Config} {w w' : World} {a : Hub.Action} {os : List Hub.Obs}
    (h : StepTrans cfg w a w' os) : Enrolls cfg.hashCredential w.hub.store w'.hub.store os := by
  rcases h.registrars with ⟨c, p, pc, ch, h', ph', -, -, ht, rfl⟩ | ⟨token, exp, st, hst, hw, -, rfl⟩ |
    ⟨token, name, st, hst, hw, -, rfl⟩ | ⟨d, hst, -, rfl⟩ | ⟨hd, -, hno, -⟩
  · exact PairTrans.enrolls ht
  · exact .same (hw ▸ (createPendingToken_log hst).2.2) (List.forall_mem_singleton.mpr rfl)
  · exact .same (hw ▸ (approvePendingToken_log hst).2.2) (List.forall_mem_singleton.mpr rfl)
  · exact .revoked (by rw [hst])
  · exact .same hd fun o ho => untouched_of_unrelated (hno o ho)

theorem mem_addDevice {db : Store} {dev : DeviceID} {name hash : String} {now : Int} {id : String} :
    (∃ d ∈ (db.addDevice dev name hash now).devices, d.deviceID.val = id) ↔
      id = dev.val ∨ ∃ d ∈ db.devices, d.deviceID.val = id := by
  have renamed (d : Device) : (if d.deviceID = dev then
      { d with name := name, credentialHash := hash, revoked := false } else d).deviceID = d.deviceID := by
    split <;> rfl
  unfold Store.addDevice
  by_cases hany : db.devices.any (·.deviceID == dev) = true
  · -- the row is replaced
    obtain ⟨d₀, hd₀, heq₀⟩ := List.any_eq_true.mp hany
    simp only [if_pos hany, List.mem_map]
    constructor
    · rintro ⟨_, ⟨d, hd, rfl⟩, rfl⟩
      exact .inr ⟨d, hd, by rw [renamed]⟩
    · rintro (rfl | ⟨d, hd, rfl⟩)
      · exact ⟨_, ⟨d₀, hd₀, rfl⟩, by rw [renamed, beq_iff_eq.mp heq₀]⟩
      · exact ⟨_, ⟨d, hd, rfl⟩, by rw [renamed]⟩
  · simp only [if_neg hany, List.mem_append, List.mem_singleton]
    constructor
    · rintro ⟨d, hd | rfl, rfl⟩
      · exact .inr ⟨d, hd, rfl⟩
      · exact .inl rfl
    · rintro (rfl | ⟨d, hd, rfl⟩)
      · exact ⟨_, .inr rfl, rfl⟩
      · exact ⟨d, .inl hd, rfl⟩

theorem mem_revokeDevice {db : Store} {id id' : String} :
    (∃ d ∈ (db.revokeDevice id').devices, d.deviceID.val = id) ↔ ∃ d ∈ db.devices, d.deviceID.val = id := by
  unfold Store.revokeDevice
  constructor
  · rintro ⟨d, hd, rfl⟩
    obtain ⟨d₀, hd₀, rfl⟩ := List.mem_map.mp hd
    refine ⟨d₀, hd₀, ?_⟩
    split <;> rfl
  · rintro ⟨d, hd, rfl⟩
    refine ⟨_, List.mem_map_of_mem hd, ?_⟩
    split <;> rfl

/-- **`Enrolled hash r devices`** — the devices table and the registry agree, and a digest belongs to one
device. -/
structure Enrolled (hash : String → String) (r : Registry) (devices : List Device) : Prop where
  describes : Describes hash r devices
  covers : ∀ id x, r id = some x → ∃ d ∈ devices, d.deviceID.val = id
  distinct : ∀ id id' x x', r id = some x → r id' = some x' → hash x.credential = hash x'.credential → id = id'

theorem Enrolled.step {hash : String → String} {r : Registry} {db db' : Store} {os : List Hub.Obs}
    (h : Enrolled hash r db.devices) (hs : Enrolls hash db db' os)
    (hfresh : ∀ c t dev cred, .issued c t dev cred ∈ os →
      ∀ id x, r id = some x → hash x.credential ≠ hash cred) :
    Enrolled hash (os.foldl Registry.step r) db'.devices := by
  cases hs with
  | same hd hos =>
    rw [hd, foldl_step_of_untouched hos]
    exact h
  | @added c t name cred dev now f hd =>
    have hnew := hfresh c t dev cred List.mem_cons_self
    show Enrolled hash (Function.update r dev.val (some ⟨cred, false⟩)) db'.devices
    rw [hd]
    refine ⟨describes_addDevice h.describes, fun id x hx => ?_, fun id id' x x' hx hx' heq => ?_⟩
    · rw [mem_addDevice]
      by_cases hid : id = dev.val
      · exact .inl hid
      · rw [Function.update_of_ne hid] at hx
        exact .inr (h.covers id x hx)
    · by_cases hid : id = dev.val <;> by_cases hid' : id' = dev.val
      · rw [hid, hid']
      · rw [hid, Function.update_self, Option.some.injEq] at hx
        rw [Function.update_of_ne hid'] at hx'
        subst hx
        exact absurd heq.symm (hnew id' x' hx')
      · rw [hid', Function.update_self, Option.some.injEq] at hx'
        rw [Function.update_of_ne hid] at hx
        subst hx'
        exact absurd heq (hnew id x hx)
      · rw [Function.update_of_ne hid] at hx
        rw [Function.update_of_ne hid'] at hx'
        exact h.distinct id id' x x' hx hx' heq
  | @revoked id hd =>
    show Enrolled hash (Function.update r id ((r id).map fun x => { x with revoked := true })) db'.devices
    -- a revocation changes nobody's credential
    have was (id' : String) {x : Registration}
        (hx : Function.update r id ((r id).map fun x => { x with revoked := true }) id' = some x) :
        ∃ x₀, r id' = some x₀ ∧ x₀.credential = x.credential := by
      by_cases hid : id' = id
      · subst hid
        rw [Function.update_self, Option.map_eq_some_iff] at hx
        obtain ⟨x₀, hx₀, rfl⟩ := hx
        exact ⟨x₀, hx₀, rfl⟩
      · rw [Function.update_of_ne hid] at hx
        exact ⟨x, hx, rfl⟩
    rw [hd]
    refine ⟨describes_revokeDevice h.describes, fun id' x hx => ?_, fun id₁ id₂ x₁ x₂ hx₁ hx₂ heq => ?_⟩
    · obtain ⟨x₀, hx₀, -⟩ := was id' hx
      exact mem_revokeDevice.mpr (h.covers id' x₀ hx₀)
    · obtain ⟨y₁, hy₁, hc₁⟩ := was id₁ hx₁
      obtain ⟨y₂, hy₂, hc₂⟩ := was id₂ hx₂
      rw [← hc₁, ← hc₂] at heq
      exact h.distinct id₁ id₂ y₁ y₂ hy₁ hy₂ heq

/-- **Whose credential it is**, for the lookup of a hello. -/
theorem Enrolled.validate {hash : String → String} {r : Registry} {db : Store} (h : Enrolled hash r db.devices)
    {cred : String} (hcf : ∀ id x, r id = some x → hash x.credential = hash cred → x.credential = cred)
    (dev : DeviceID) : validateCredential db hash cred = some dev ↔ r dev.val = some ⟨cred, false⟩ := by
  have found {d : Device} (hd : d ∈ db.devices) (hhash : d.credentialHash = hash cred) (hrev : d.revoked = false) :
      r d.deviceID.val = some ⟨cred, false⟩ := by
    obtain ⟨c, hc, hdigest⟩ := h.describes d hd
    have hsame : c = cred := hcf _ _ hc (hdigest.symm.trans hhash)
    rw [hc, hrev, hsame]
  constructor
  · intro hval
    obtain ⟨d, hd, rfl, hhash, hrev⟩ := validateCredential_spec hval
    exact found hd hhash hrev
  · intro hr
    obtain ⟨d, hd, hid⟩ := h.covers _ _ hr
    obtain ⟨c, hc, hdigest⟩ := h.describes d hd
    rw [hid, hr, Option.some.injEq, Registration.mk.injEq] at hc
    obtain ⟨rfl, hrev⟩ := hc
    have hsome : (db.getDeviceByHash (hash cred)).isSome = true := by
      rw [Store.getDeviceByHash, List.find?_isSome]
      exact ⟨d, hd, by rw [hdigest, ← hrev, beq_self_eq_true]; rfl⟩
    obtain ⟨d', hd'⟩ := Option.isSome_iff_exists.mp hsome
    obtain ⟨hmem, hhash, hrev'⟩ := Store.getDeviceByHash_spec hd'
    have hr' := found hmem hhash hrev'
    have hsame : d'.deviceID = dev := DeviceID.ext (h.distinct _ _ _ _ hr' hr rfl)
    rw [validateCredential, hd', Option.map_some, hsame]

/-- What is issued is what the random source gave. -/
theorem issued_fresh {cfg : Config} {w w' : World} {a : Hub.Action} {os : List Hub.Obs}
    (hs : w.step cfg a = some (w', os)) {c : ConnId} {t : String} {dev : DeviceID} {cred : String}
    (ho : .issued c t dev cred ∈ os) :
    ∃ id raw, a = .conn c (.fresh id raw) ∧ cred = String.ofList (hexEncode raw.toList) := by
  have hst : StepTrans cfg w a w' os := World.step_trans hs
  obtain ⟨p, name, hph, -⟩ := hst.issued ho
  obtain ⟨ch, _, _, _, rfl, -⟩ := hst.of_conn ho (c := c) rfl
  simp only [World.step, hph, Option.map_eq_some_iff] at hs
  obtain ⟨r, hr, heq⟩ := hs
  cases heq
  cases ch with
  | fresh id raw =>
    cases hr
    rcases List.mem_pair.mp ho with heq | heq
    · cases heq
      exact ⟨id, raw, rfl, rfl⟩
    · cases heq
  | gone =>
    cases hr
    cases ho
  | call out =>
    cases out with
    | ok => cases hr
    | err msg =>
      cases hr
      rcases List.mem_pair.mp ho with he | he <;> cases he
  | _ => cases hr

/-- Nobody is registered before the first daemon. -/
def nobody : Registry := fun _ => none

/-- The assumption on the random source: a new credential has a digest that no registered one has. -/
def FreshCredentials (cfg : Config) (tr : List Obs) (_ : State) (a : Action) : Prop :=
  ∀ c id raw, a = .daemon (.conn c (.fresh id raw)) → ∀ dev x, registry nobody (daemonTrace tr) dev = some x →
    cfg.hashCredential x.credential ≠ cfg.hashCredential (String.ofList (hexEncode raw.toList))

section

variable {cfg : Config} {sid₀ : String} {now : Int} {tr : List Obs} {s : State}

theorem enrolled (h : History cfg (FreshCredentials cfg) sid₀ now tr s) :
    Enrolled cfg.hashCredential (registry nobody (daemonTrace tr)) s.world.hub.store.devices := by
  refine h.invariant (I := fun t u =>
    Enrolled cfg.hashCredential (registry nobody (daemonTrace t)) u.world.hub.store.devices) ?_ ?_
  · exact ⟨List.forall_mem_nil _, fun _ _ hx => (by cases hx), fun _ _ _ _ hx => (by cases hx)⟩
  · intro t u a u' os _ ih hP hs
    cases a with
    | daemon a =>
      simp only [system, Option.map_eq_some_iff] at hs
      obtain ⟨⟨w, obs⟩, hw, heq⟩ := hs
      cases heq
      rw [daemonTrace_daemon, registry_append]
      have henrolls := StepTrans.enrolls (World.step_trans hw)
      refine ih.step henrolls fun c tok dev cred ho id x hx => ?_
      obtain ⟨id', raw, rfl, rfl⟩ := issued_fresh hw ho
      exact hP c id' raw rfl id x hx
    | restart sessionID =>
      simp only [system] at hs
      split at hs
      · cases hs
        rw [daemonTrace_started]
        exact ih
      · cases hs

/-- **Who is let in.** Whatever daemons have run on the database, and wherever they were killed: a hello is
served as a device exactly when the credential it presents was issued to that device in one of these lives, and
neither revoked nor replaced since. -/
theorem admitted_exactly (h : History cfg (FreshCredentials cfg) sid₀ now tr s) {c : ConnId}
    {headerCred remoteAddr userAgent : String} {hello : HelloPayload}
    (hcf : ∀ id x, registry nobody (daemonTrace tr) id = some x →
      cfg.hashCredential x.credential = cfg.hashCredential (effectiveCredential headerCred hello) →
      x.credential = effectiveCredential headerCred hello) (dev : DeviceID) :
    (handleConnection (configOf cfg s.sessionID) c s.world.hub headerCred remoteAddr userAgent hello .ok).1 =
        .serving dev hello.lastSeq .getSession ↔
      Admitted (registry nobody (daemonTrace tr)) headerCred hello dev.val := by
  have hval := (enrolled h).validate hcf dev
  have hhash : (configOf cfg s.sessionID).hashCredential = cfg.hashCredential := rfl
  unfold handleConnection Admitted
  rw [← hval, hhash]
  by_cases hne : effectiveCredential headerCred hello = ""
  · simp only [hne, ne_eq, not_true_eq_false, false_and, if_false, iff_false]
    split <;> exact fun hserving => by cases hserving
  · simp only [ne_eq, hne, not_false_eq_true, and_self, if_true, true_and]
    cases validateCredential s.world.hub.store cfg.hashCredential (effectiveCredential headerCred hello) with
    | none =>
      refine iff_of_false ?_ fun hnone => by cases hnone.1
      dsimp only
      split <;> exact fun hserving => by cases hserving
    | some d =>
      dsimp only
      by_cases hid : ¬ hello.deviceID = "" ∧ ¬ hello.deviceID = d.val
      · rw [if_pos hid]
        refine iff_of_false (fun hserving => by cases hserving) ?_
        rintro ⟨heq, hsame⟩
        cases heq
        exact hsame.elim hid.1 hid.2
      · rw [if_neg hid]
        have hsame : hello.deviceID = "" ∨ hello.deviceID = d.val := by
          by_contra hno
          exact hid (not_or.mp hno)
        constructor
        · intro hserving
          cases hserving
          exact ⟨rfl, hsame⟩
        · rintro ⟨heq, -⟩
          cases heq
          rfl

end

/-- What `FreshCredentials` asks of a step, while no credential has been issued. -/
def firstCredential (t : List Obs) (_ : State) : Action → Bool
  | .daemon (.conn _ (.fresh _ _)) => (daemonTrace t).all registryUntouched
  | _ => true

theorem firstCredential_sound (t : List Obs) (s : State) (a : Action) (h : firstCredential t s a = true) :
    FreshCredentials Hub.Sample.config t s a := by
  rintro c id raw rfl dev x hx
  have hnobody : registry nobody (daemonTrace t) = nobody :=
    foldl_step_of_untouched (List.all_eq_true.mp h) nobody
  rw [hnobody] at hx
  cases hx

theorem admitted_exactly_killed :
    ∃ tr s, History Hub.Sample.config (FreshCredentials Hub.Sample.config) "first" 0 tr s ∧
      s.sessionID = "second" ∧
      ((handleConnection (configOf Hub.Sample.config s.sessionID) 0 s.world.hub Sample.secret "" "" {} .ok).1 =
          .serving Sample.pixel 0 .getSession ↔
        Admitted (registry nobody (daemonTrace tr)) Sample.secret {} Sample.pixel.val) ∧
      Admitted (registry nobody (daemonTrace tr)) Sample.secret {} Sample.pixel.val := by
  have hexec : ∃ r, (system Hub.Sample.config).exec firstCredential [.started "first"] Sample.start
      Sample.pairedThenKilled = some r ∧ r.2.sessionID = "second" ∧
      registry nobody (daemonTrace r.1) =
        Function.update nobody Sample.pixel.val (some ⟨Sample.secret, false⟩) := ⟨_, rfl, rfl, rfl⟩
  obtain ⟨⟨tr, s⟩, he, hsid, hreg⟩ := hexec
  have hrun : History Hub.Sample.config (FreshCredentials Hub.Sample.config) "first" 0 tr s :=
    Lts.run_of_exec firstCredential_sound he
  have hcf : ∀ id x, registry nobody (daemonTrace tr) id = some x →
      Hub.Sample.config.hashCredential x.credential =
        Hub.Sample.config.hashCredential (effectiveCredential Sample.secret {}) →
      x.credential = effectiveCredential Sample.secret {} := by
    intro id x hx _
    have hx' : Function.update nobody Sample.pixel.val (some ⟨Sample.secret, false⟩) id = some x := hreg ▸ hx
    by_cases hid : id = Sample.pixel.val
    · rw [hid, Function.update_self, Option.some.injEq] at hx'
      subst hx'
      rfl
    · rw [Function.update_of_ne hid] at hx'
      cases hx'
  have hadmitted : Admitted (registry nobody (daemonTrace tr)) Sample.secret {} Sample.pixel.val := by
    refine ⟨by decide, ?_, .inl rfl⟩
    show registry nobody (daemonTrace tr) _ = _
    rw [hreg]
    exact Function.update_self _ _ _
  exact ⟨tr, s, hrun, hsid, admitted_exactly hrun hcf Sample.pixel, hadmitted⟩

/-! ## The keys -/

/-- An observation `f` of a daemon of the session. -/
def Obs.inSession (sid : String) (f : Hub.Obs → Bool) : Obs → Bool
  | .daemon sid' o => decide (sid' = sid) && f o
  | .started _ => false

/-- A daemon of the session appended an event for the key. -/
def Obs.appendedIn (sid : String) (dev : DeviceID) (k : String) : Obs → Bool :=
  inSession sid (Hub.Obs.appendedFor dev k)

/-- A daemon of the session handed a command for the key to its agent. -/
def Obs.handedIn (sid : String) (dev : DeviceID) (k : String) : Obs → Bool :=
  inSession sid (Hub.Obs.handedFor dev k)

/-- What the daemon may still append for a key: what it has accepted and not decided, and what it would
accept. -/
def World.credit (w : World) (dev : DeviceID) (k : String) : Nat :=
  w.conns.countP (ConnPhase.inHandler (forKey dev k HandlerPc.undecided)) +
    (decide (idempKey dev k ∉ w.hub.idempotency)).toNat

theorem StepTrans.credit {cfg : Config} {w w' : World} {a : Hub.Action} {os : List Hub.Obs}
    (h : StepTrans cfg w a w' os) (dev : DeviceID) (k : String) :
    os.countP (Hub.Obs.appendedFor dev k) + World.credit w' dev k ≤ World.credit w dev k := by
  have hdecide := h.decide_ledger dev k
  have hmono : os.countP (Hub.Obs.appendedFor dev k) ≤ os.countP (Hub.Obs.decidedFor dev k) :=
    List.countP_mono_left fun o _ ho => by rw [Hub.Obs.decidedFor, ho, Bool.true_or]
  have haccept : os.countP (Hub.Obs.acceptedFor dev k) +
      (decide (idempKey dev k ∉ w'.hub.idempotency)).toNat ≤
        (decide (idempKey dev k ∉ w.hub.idempotency)).toNat := by
    by_cases hk : idempKey dev k ∈ w.hub.idempotency
    · obtain ⟨hmem, hzero⟩ := h.accepted_of_recorded hk
      simp [hmem, hzero]
    · rcases h.idempotency with ⟨hsame, hno⟩ | ⟨c, d, k', -, hins, rfl⟩
      · have hzero : os.countP (Hub.Obs.acceptedFor dev k) = 0 := by
          rw [List.countP_eq_zero]
          intro o ho hp
          cases o <;> simp only [Hub.Obs.acceptedFor, Bool.false_eq_true] at hp
          exact hno _ _ _ ho
        rw [hzero, hsame, Nat.zero_add]
      · rw [hins, countP_one]
        by_cases hkey : d = dev ∧ k' = k
        · obtain ⟨rfl, rfl⟩ := hkey
          simp [Hub.Obs.acceptedFor, hk]
        · simp [Hub.Obs.acceptedFor, hkey, hk, Bool.toNat_le]
  unfold World.credit
  omega

theorem credit_init (cfg : Config) (db : Store) (now : Int) (dev : DeviceID) (k : String) :
    World.credit (World.init cfg db now) dev k = 1 := by
  simp [World.credit, World.init]

/-- What the daemon of one session may still append, which is the credit of the daemon that runs, or of the one
that is to come. -/
def State.credit (s : State) (sid : String) (dev : DeviceID) (k : String) : Nat :=
  if s.sessionID = sid then World.credit s.world dev k
  else if (s.world.hub.store.sessions sid).isNone then 1 else 0

theorem countP_inSession (sid sid' : String) (f : Hub.Obs → Bool) (os : List Hub.Obs) :
    (os.map (Obs.daemon sid')).countP (Obs.inSession sid f) = if sid' = sid then os.countP f else 0 := by
  rw [List.countP_map]
  split
  · rename_i heq
    exact List.countP_congr fun o _ => by simp [Obs.inSession, heq]
  · rename_i hne
    exact List.countP_eq_zero.mpr fun o _ => by simp [Obs.inSession, hne]

/-- The handlers of the session's daemon that have appended the event of the key and not handed its command
over. -/
def State.committed (s : State) (sid : String) (dev : DeviceID) (k : String) : Nat :=
  if s.sessionID = sid then
    s.world.conns.countP (ConnPhase.inHandler (committedTo fun d k' _ => decide (d = dev ∧ k' = k)))
  else 0

section

variable {cfg : Config} {P : List Obs → State → Action → Prop} {sid₀ : String} {now : Int} {tr : List Obs}
  {s : State}

/-- The session that runs has a row. -/
theorem current_row (h : History cfg P sid₀ now tr s) : s.world.hub.store.sessions s.sessionID ≠ none := by
  have hstarted : .started s.sessionID ∈ tr := by
    refine h.invariant (I := fun t u => .started u.sessionID ∈ t) List.mem_cons_self ?_
    intro t u a u' os _ ih _ hs
    cases step_cases hs with
    | daemon => exact List.mem_append_left _ ih
    | restart => exact List.mem_append_right _ List.mem_cons_self
  exact fun hnone => (chronicle h s.sessionID).row.mp hnone hstarted

theorem Step.credit {s' : State} {a : Action} {os : List Obs} (h : Step cfg s a s' os)
    (hrow : s.world.hub.store.sessions s.sessionID ≠ none) (sid : String) (dev : DeviceID) (k : String) :
    os.countP (Obs.appendedIn sid dev k) + s'.credit sid dev k ≤ s.credit sid dev k := by
  cases h with
  | @daemon a w' os ht =>
    rw [Obs.appendedIn, countP_inSession]
    unfold State.credit
    by_cases hsid : s.sessionID = sid
    · simp only [if_pos hsid]
      exact StepTrans.credit ht dev k
    · have hsame : w'.hub.store.sessions sid = s.world.hub.store.sessions sid := by
        rcases StepTrans.tables ht with ⟨kind, payload, ev, st, happ, rfl, -⟩ | ⟨-, hs, -⟩
        · obtain ⟨⟨sess, -, -, status, -, hs'⟩, -⟩ := Store.appendEvent_spec happ
          rw [hs']
          exact Function.update_of_ne (Ne.symm hsid) _ _
        · exact congrFun hs sid
      simp only [if_neg hsid, hsame, Nat.zero_add, Nat.le_refl]
  | @restart sessionID hnew =>
    show 0 + (s.restarted cfg sessionID).credit sid dev k ≤ _
    have hcur : s.sessionID ≠ sessionID := by
      rintro rfl
      exact hrow hnew
    have hfresh : World.credit (s.restarted cfg sessionID).world dev k = 1 :=
      credit_init (configOf cfg sessionID) s.world.hub.store s.world.hub.now dev k
    unfold State.credit
    by_cases hsid : sessionID = sid
    · subst hsid
      have hself : (s.restarted cfg sessionID).sessionID = sessionID := rfl
      rw [if_pos hself, hfresh, if_neg hcur, hnew]
      exact Nat.le_refl _
    · have hsame : (s.restarted cfg sessionID).world.hub.store.sessions sid =
          s.world.hub.store.sessions sid := Function.update_of_ne (Ne.symm hsid) _ _
      have hother : (s.restarted cfg sessionID).sessionID ≠ sid := hsid
      rw [if_neg hother, hsame]
      by_cases hover : s.sessionID = sid
      · -- the session that is over has a row, so nothing is to come for it
        subst hover
        rw [if_neg (by simpa using hrow)]
        omega
      · rw [if_neg hover]
        omega

theorem appendedIn_once (h : History cfg P sid₀ now tr s) (sid : String) (dev : DeviceID) (k : String) :
    tr.countP (Obs.appendedIn sid dev k) ≤ 1 := by
  have hnone (l : List Obs) : l.countP (fun _ => false) = 0 := List.countP_eq_zero.mpr fun _ _ h => by cases h
  have hled := h.ledger (fun _ => false) (Obs.appendedIn sid dev k) (fun u => u.credit sid dev k) 1 ?_ ?_
  · rw [hnone] at hled
    omega
  · have hinit := credit_init (configOf cfg sid₀) newDatabase now dev k
    show 0 + (start cfg sid₀ now).credit sid dev k ≤ _
    unfold State.credit
    split
    · exact Nat.le_of_eq ((Nat.zero_add _).trans hinit)
    · split <;> simp
  · intro t u a u' os hr _ hs
    have hstep := (step_cases hs).credit (current_row hr) sid dev k
    rw [hnone]
    omega

/-- Handing over is paid for by an append in the same session; what a daemon leaves undone is not made up for. -/
theorem Step.hand_over {s' : State} {a : Action} {os : List Obs} (h : Step cfg s a s' os) (sid : String)
    (dev : DeviceID) (k : String) :
    os.countP (Obs.handedIn sid dev k) + s'.committed sid dev k ≤
      s.committed sid dev k + os.countP (Obs.appendedIn sid dev k) := by
  cases h with
  | @daemon a w' os ht =>
    rw [Obs.appendedIn, Obs.handedIn, countP_inSession, countP_inSession]
    unfold State.committed
    dsimp only
    split
    · exact ht.hand_over fun c d k' out ev _ _ hm => hm
    · exact Nat.le_refl _
  | @restart sessionID hnew =>
    -- the new daemon has no connections
    have hnone : (s.restarted cfg sessionID).committed sid dev k = 0 := by
      unfold State.committed
      split <;> rfl
    show 0 + (s.restarted cfg sessionID).committed sid dev k ≤ _
    omega

theorem handedIn_le_appendedIn (h : History cfg P sid₀ now tr s) (sid : String) (dev : DeviceID) (k : String) :
    tr.countP (Obs.handedIn sid dev k) ≤ tr.countP (Obs.appendedIn sid dev k) := by
  have hled := h.ledger (Obs.appendedIn sid dev k) (Obs.handedIn sid dev k)
    (fun u => u.committed sid dev k) 0 ?_ ?_
  · omega
  · unfold State.committed
    split <;> exact Nat.le_refl 0
  · exact fun t u a u' os _ _ hs => (step_cases hs).hand_over sid dev k

/-- **A command takes effect at most once in a session**, in the log and at the agent, whatever connections it is
sent on and however often the daemon is restarted in between. -/
theorem once_a_session (h : History cfg P sid₀ now tr s) (sid : String) (dev : DeviceID) (k : String) :
    tr.countP (Obs.appendedIn sid dev k) ≤ 1 ∧ tr.countP (Obs.handedIn sid dev k) ≤ 1 :=
  have happended := appendedIn_once h sid dev k
  ⟨happended, (handedIn_le_appendedIn h sid dev k).trans happended⟩

end

theorem once_a_session_resent :
    ∃ tr s, History Hub.Sample.config Lts.Free "first" 0 tr s ∧
      (daemonTrace tr).countP (Hub.Obs.appendedFor Sample.pixel "c1") = 2 ∧
      tr.countP (Obs.appendedIn "second" Sample.pixel "c1") ≤ 1 ∧
      tr.countP (Obs.handedIn "second" Sample.pixel "c1") ≤ 1 := by
  have hexec : ((system Hub.Sample.config).exec (fun _ _ _ => true) [.started "first"] Sample.start
      Sample.resent).map (fun r => (daemonTrace r.1).countP (Hub.Obs.appendedFor Sample.pixel "c1")) = some 2 := by
    decide +kernel
  obtain ⟨⟨tr, s⟩, he, hcount⟩ := Option.map_eq_some_iff.mp hexec
  have hrun : History Hub.Sample.config Lts.Free "first" 0 tr s :=
    Lts.run_of_exec_forall (fun _ _ _ _ => trivial) he
  exact ⟨tr, s, hrun, hcount, once_a_session hrun "second" Sample.pixel "c1"⟩

end Harness.Hub.Lives
