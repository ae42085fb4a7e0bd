/-
# Harness.Hub.Authentication — who is let in, and whose name is on what.

A connection is served only after its hello presented the credential of a device. The hub knows digests
only; which credential belongs to which device is known to those who issued it, and is kept here as a
REGISTRY: what the daemon's database held when it started, the credentials issued since, and the
revocations. `described` connects the two.

A connection that was not admitted goes to the pairing path or is closed, and never comes back
(`ConnPhase.outcast`). What a connection that was never registered can cause is nothing at all
(`unregistered`): no frame is queued for it, and the log, the pending maps and the adapter never hear of
it. And a handler runs under the device its connection was admitted as (`admitted_device`), whose id is
what it writes into events.
-/
import Harness.Hub.Flights
import Harness.Hub.Pairing

namespace Harness.Hub

open Wire Auth Lib

/-! ## The registry -/

/-- The credential of a device, and whether the device is revoked. -/
structure Registration where
  credential : String
  revoked : Bool
  deriving DecidableEq

/-- The registration of every device id. -/
abbrev Registry := String → Option Registration

def Registry.step (r : Registry) : Obs → Registry
  | .issued _ _ dev cred => Function.update r dev.val (some ⟨cred, false⟩)
  | .revoked id => Function.update r id ((r id).map fun x => { x with revoked := true })
  | _ => r

/-- The registry after a trace, from the registry `r₀` of the database the daemon started on. -/
def registry (r₀ : Registry) (tr : List Obs) : Registry := tr.foldl Registry.step r₀

/-- The devices table holds the digests of the registry, and its revocations. -/
def Describes (hash : String → String) (r : Registry) (devices : List Device) : Prop :=
  ∀ d ∈ devices, ∃ cred, r d.deviceID.val = some ⟨cred, d.revoked⟩ ∧ d.credentialHash = hash cred

theorem registry_append (r₀ : Registry) (tr os : List Obs) :
    registry r₀ (tr ++ os) = os.foldl Registry.step (registry r₀ tr) :=
  List.foldl_append

/-- Neither a credential issued nor a device revoked. -/
def registryUntouched : Obs → Bool
  | .issued _ _ _ _ | .revoked _ => false
  | _ => true

theorem foldl_step_of_untouched {os : List Obs} (h : ∀ o ∈ os, registryUntouched o = true)
    (r : Registry) : os.foldl Registry.step r = r := by
  induction os generalizing r with
  | nil => rfl
  | cons o os ih =>
    rw [List.forall_mem_cons] at h
    have hstep : Registry.step r o = r := by
      have ho := h.1
      cases o with
      | issued | revoked => cases ho
      | _ => rfl
    rw [List.foldl_cons, hstep]
    exact ih h.2 r

theorem untouched_of_unrelated {o : Obs} (h : o.Unrelated) : registryUntouched o = true := by
  cases o with
  | issued c => exact absurd rfl (h.2 c)
  | revoked => exact absurd rfl h.1
  | _ => rfl

theorem describes_addDevice {hash : String → String} {r : Registry} {db : Store} {dev : DeviceID}
    {name cred : String} {now : Int} (h : Describes hash r db.devices) :
    Describes hash (Function.update r dev.val (some ⟨cred, false⟩))
      (db.addDevice dev name (hash cred) now).devices := by
  have other {d : Device} (hd : d ∈ db.devices) (hne : d.deviceID ≠ dev) :
      ∃ c, Function.update r dev.val (some ⟨cred, false⟩) d.deviceID.val = some ⟨c, d.revoked⟩ ∧
        d.credentialHash = hash c := by
    rw [Function.update_of_ne fun he => hne (DeviceID.ext he)]
    exact h d hd
  intro d hd
  unfold Store.addDevice at hd
  simp only at hd
  split at hd
  · obtain ⟨d₀, hd₀, rfl⟩ := List.mem_map.mp hd
    split
    · rename_i he
      exact ⟨cred, by rw [he, Function.update_self], rfl⟩
    · rename_i hne
      exact other hd₀ hne
  · rename_i hno
    rcases List.mem_append.mp hd with hd | hd
    · refine other hd fun he => hno ?_
      rw [List.any_eq_true]
      exact ⟨d, hd, by rw [he, beq_self_eq_true]⟩
    · rw [List.mem_singleton.mp hd]
      exact ⟨cred, Function.update_self _ _ _, rfl⟩

theorem describes_revokeDevice {hash : String → String} {r : Registry} {db : Store} {id : String}
    (h : Describes hash r db.devices) :
    Describes hash (Function.update r id ((r id).map fun x => { x with revoked := true }))
      (db.revokeDevice id).devices := by
  intro d hd
  obtain ⟨d₀, hd₀, rfl⟩ := List.mem_map.mp hd
  obtain ⟨cred, hr, hh⟩ := h d₀ hd₀
  split
  · rename_i he
    refine ⟨cred, ?_, hh⟩
    show Function.update r id _ d₀.deviceID.val = _
    rw [he, Function.update_self, ← he, hr]
    rfl
  · rename_i hne
    exact ⟨cred, by rw [Function.update_of_ne hne, hr], hh⟩

/-- A step that leaves the devices alone, and the registry. -/
theorem Describes.kept {hash : String → String} {r : Registry} {devices devices' : List Device}
    {os : List Obs} (h : Describes hash r devices) (hd : devices' = devices)
    (hos : ∀ o ∈ os, registryUntouched o = true) :
    Describes hash (os.foldl Registry.step r) devices' := by
  rw [hd, foldl_step_of_untouched hos]
  exact h

/-- A pairing adds to both what it issues. -/
theorem PairTrans.describes {cfg : Config} {c : ConnId} {h h' : Hub} {p : Attempt} {pc : PairPc}
    {ch : Choice} {ph : ConnPhase} {os : List Obs} (ht : PairTrans cfg c h p pc ch h' ph os)
    {r : Registry} (hd : Describes cfg.hashCredential r h.store.devices) :
    Describes cfg.hashCredential (os.foldl Registry.step r) h'.store.devices := by
  have deleted {st : Store} (hst : st = h.store ∨ st = h.store.deletePendingToken p.token) :
      st.devices = h.store.devices := by
    rcases hst with rfl | rfl <;> rfl
  cases ht with
  | issue hiss =>
    cases hiss
    exact describes_addDevice hd
  | peek | check => exact hd
  | allowed => exact hd.kept rfl (List.forall_mem_singleton.mpr rfl)
  | consume hcons | consumeOwn hcons =>
    exact hd.kept (consumePairingToken_log hcons).2.2 (List.forall_mem_singleton.mpr rfl)
  | ask hst | consumeLost _ hst => exact hd.kept (deleted hst) (List.forall_mem_nil _)
  | approve happ => exact hd.kept (approvePendingToken_log happ).2.2 (List.forall_mem_singleton.mpr rfl)
  | issueFails =>
    apply hd.kept rfl
    intro o ho
    rcases List.mem_pair.mp ho with rfl | rfl <;> rfl
  | quit hst hos =>
    apply hd.kept (deleted hst)
    intro o ho
    rcases hos o ho with ⟨code, msg, rfl⟩ | rfl <;> rfl

/-- **The devices table is described by the registry**, at every moment of every run. -/
theorem described {cfg : Config} {P : List Obs → World → Action → Prop} {db : Store} {now : Int}
    {r₀ : Registry} (h0 : Describes cfg.hashCredential r₀ db.devices) {tr : List Obs} {w : World}
    (h : (system cfg).Run P [] (World.init cfg db now) tr w) :
    Describes cfg.hashCredential (registry r₀ tr) w.hub.store.devices := by
  refine h.invariant (I := fun t u => Describes cfg.hashCredential (registry r₀ t) u.hub.store.devices)
    ?_ ?_
  · exact h0
  · intro t u a u' os _ ih _ hs
    rw [registry_append]
    rcases (World.step_trans hs).registrars with ⟨c, p, pc, ch, h', ph', -, -, ht, rfl⟩ |
      ⟨token, exp, st, hst, hw, -, rfl⟩ | ⟨token, name, st, hst, hw, -, rfl⟩ | ⟨d, hst, -, rfl⟩ |
      ⟨hd, -, hno, -⟩
    · exact ht.describes ih
    · rw [hw]
      exact ih.kept (createPendingToken_log hst).2.2 (List.forall_mem_singleton.mpr rfl)
    · rw [hw]
      exact ih.kept (approvePendingToken_log hst).2.2 (List.forall_mem_singleton.mpr rfl)
    · rw [hst]
      exact describes_revokeDevice ih
    · exact ih.kept hd fun o ho => untouched_of_unrelated (hno o ho)

/-! ## Admission -/

/-- The effective credential of a hello is that of the unrevoked device `dev`, and the hello names no
other device. -/
def Admitted (r : Registry) (headerCred : String) (hello : HelloPayload) (dev : String) : Prop :=
  effectiveCredential headerCred hello ≠ "" ∧
    r dev = some ⟨effectiveCredential headerCred hello, false⟩ ∧
    (hello.deviceID = "" ∨ hello.deviceID = dev)

/-- No collision: a registered credential with the digest of the presented one is the presented one. -/
def CollisionFree (cfg : Config) (r₀ : Registry) (tr : List Obs) (w : World) (a : Action) : Prop :=
  ∀ c hello out headerCred remoteAddr userAgent, a = .conn c (.hello hello out) →
    w.conns[c]? = some (.readHello headerCred remoteAddr userAgent) →
    ∀ id x, registry r₀ tr id = some x →
      cfg.hashCredential x.credential = cfg.hashCredential (effectiveCredential headerCred hello) →
      x.credential = effectiveCredential headerCred hello

/-- The device a connection is served as. -/
def ConnPhase.device : ConnPhase → Option DeviceID
  | .serving dev _ _ | .reading dev | .handling dev _ _ => some dev
  | _ => none

/-- Where a connection that was turned away can stand. -/
def ConnPhase.outcast : ConnPhase → Bool
  | .pairing _ _ | .closed => true
  | _ => false

/-- The device of a connection is set once, by the credential that validates. -/
theorem ConnTrans.device {cfg : Config} {c : ConnId} {h h' : Hub} {ph ph' : ConnPhase} {ch : Choice}
    {os : List Obs} (ht : ConnTrans cfg c h ph ch h' ph' os) {dev : DeviceID}
    (hdev : ph'.device = some dev) :
    ph.device = some dev ∨ ∃ headerCred remoteAddr userAgent hello out,
      ph = .readHello headerCred remoteAddr userAgent ∧ ch = .hello hello out ∧
      effectiveCredential headerCred hello ≠ "" ∧
      validateCredential h.store cfg.hashCredential (effectiveCredential headerCred hello) = some dev ∧
      (hello.deviceID = "" ∨ hello.deviceID = dev.val) := by
  cases ht with
  | authenticated hcred hval hd =>
    cases hdev
    exact .inr ⟨_, _, _, _, _, rfl, rfl, hcred, hval, hd⟩
  | pairing ht => cases ht <;> cases hdev
  | serving ht =>
    cases ht with
    | quit => cases hdev
    | _ => exact .inl hdev
  | handling ht => cases ht <;> exact .inl hdev
  | frame | skip => exact .inl hdev
  | unauthenticated | turnedAway | gone => cases hdev

/-- A credential that validates without a collision is that of the device. -/
theorem admitted_of_validate {cfg : Config} {r : Registry} {db : Store}
    (hd : Describes cfg.hashCredential r db.devices) {headerCred : String} {hello : HelloPayload}
    (hcf : ∀ id x, r id = some x →
      cfg.hashCredential x.credential = cfg.hashCredential (effectiveCredential headerCred hello) →
      x.credential = effectiveCredential headerCred hello)
    (hne : effectiveCredential headerCred hello ≠ "") {dev : DeviceID}
    (hval : validateCredential db cfg.hashCredential (effectiveCredential headerCred hello) = some dev)
    (hid : hello.deviceID = "" ∨ hello.deviceID = dev.val) : Admitted r headerCred hello dev.val := by
  obtain ⟨d, hmem, rfl, hhash, hrev⟩ := validateCredential_spec hval
  obtain ⟨cred, hr, hcred⟩ := hd d hmem
  have heq : cred = effectiveCredential headerCred hello :=
    hcf _ ⟨cred, d.revoked⟩ hr (by rw [← hcred, hhash])
  refine ⟨hne, ?_, hid⟩
  rw [hr, heq, hrev]

/-- In the run to `(tr, w)`, connection `c` said `hello` when the trace was `t`. -/
def Greeted (cfg : Config) (P : List Obs → World → Action → Prop) (w₀ : World) (tr : List Obs) (w : World)
    (c : ConnId) (headerCred : String) (hello : HelloPayload) (t : List Obs) : Prop :=
  ∃ u remoteAddr userAgent out u' os, (system cfg).Run P [] w₀ t u ∧
    u.conns[c]? = some (.readHello headerCred remoteAddr userAgent) ∧
    P t u (.conn c (.hello hello out)) ∧
    (system cfg).step u (.conn c (.hello hello out)) = some (u', os) ∧
    (system cfg).Run P (t ++ os) u' tr w

/-- **A connection is served as a device only after a hello that device admitted.** -/
theorem admitted_device {cfg : Config} {db : Store} {now : Int} {r₀ : Registry}
    (h0 : Describes cfg.hashCredential r₀ db.devices) {tr : List Obs} {w : World}
    (h : (system cfg).Run (CollisionFree cfg r₀) [] (World.init cfg db now) tr w) :
    ∀ (c : ConnId) ph dev, w.conns[c]? = some ph → ph.device = some dev →
      ∃ headerCred hello t,
        Greeted cfg (CollisionFree cfg r₀) (World.init cfg db now) tr w c headerCred hello t ∧
        Admitted (registry r₀ t) headerCred hello dev.val := by
  refine h.invariant (I := fun t u => ∀ (c : ConnId) ph dev, u.conns[c]? = some ph →
    ph.device = some dev → ∃ headerCred hello t₀,
      Greeted cfg (CollisionFree cfg r₀) (World.init cfg db now) t u c headerCred hello t₀ ∧
      Admitted (registry r₀ t₀) headerCred hello dev.val) ?_ ?_
  · intro c ph dev hph
    simp [World.init] at hph
  · intro t u a u' os hr ih hP hs c ph dev hph hdev
    -- what was so before the step is still so
    have old {ph : ConnPhase} (hph : u.conns[c]? = some ph) (hdev : ph.device = some dev) :
        ∃ headerCred hello t₀,
          Greeted cfg (CollisionFree cfg r₀) (World.init cfg db now) (t ++ os) u' c headerCred hello t₀ ∧
          Admitted (registry r₀ t₀) headerCred hello dev.val := by
      obtain ⟨hc, p, t₀, ⟨u₀, ra, ua, out, u₁, os₁, hr₀, hph₀, hP₀, hs₀, hr₁⟩, had⟩ :=
        ih c ph dev hph hdev
      exact ⟨hc, p, t₀, ⟨u₀, ra, ua, out, u₁, os₁, hr₀, hph₀, hP₀, hs₀, hr₁.tail hP hs⟩, had⟩
    cases hst : World.step_trans hs with
    | @conn c₀ ch ph₀ ph' h' _ hph₀ ht =>
      rcases getElem?_set_cases hph with ⟨rfl, rfl⟩ | ⟨-, hold⟩
      · rcases ht.device hdev with hsame | ⟨hc, ra, ua, p, out, rfl, rfl, hne, hval, hid⟩
        · exact old hph₀ hsame
        · refine ⟨hc, p, t, ⟨u, ra, ua, out, _, os, hr, hph₀, hP, hs, .refl⟩, ?_⟩
          exact admitted_of_validate (described h0 hr) (hP c p out hc ra ua rfl hph₀) hne hval hid
      · exact old hold hdev
    | accept =>
      rcases getElem?_concat_cases hph with hold | ⟨rfl, rfl⟩
      · exact old hold hdev
      · cases hdev
    | _ => exact old hph hdev

/-! ## Connections that were never registered -/

/-- An observation that shows connection `c` something of the session, or shows something of `c` to the
session: a frame on its queue, a snapshot or an event, an append, a claimed request, a command for the
adapter. -/
def Obs.privileged (c : ConnId) : Obs → Prop
  | .enqueued c' _ | .dropped c' _ | .written c' _ | .direct c' (.snapshot _) | .direct c' (.event _)
  | .appended (.command c' _ _) _ | .claimed c' _ | .handed c' _ _ _ _ => c' = c
  | _ => False

theorem Obs.privileged_of_offer {o : Obs} {c c' : ConnId} {f : Envelope} (ho : o.offer = some (c', f))
    (hp : o.privileged c) : c' = c := by
  cases o with
  | enqueued | dropped =>
    cases ho
    exact hp
  | _ => cases ho

/-- Where a connection can stand once it is served commands. -/
def ConnPhase.served : ConnPhase → Bool
  | .reading _ | .handling _ _ _ => true
  | _ => false

theorem ConnTrans.served {cfg : Config} {c : ConnId} {h h' : Hub} {ph ph' : ConnPhase} {ch : Choice}
    {os : List Obs} (ht : ConnTrans cfg c h ph ch h' ph' os) (hs : ph'.served = true) :
    ph.served = true ∨ ∃ dev k, .registered c dev k ∈ os := by
  cases ht with
  | frame | skip | handling => exact .inl rfl
  | pairing ht => cases ht <;> cases hs
  | serving ht =>
    cases ht with
    | register => exact .inr ⟨_, _, List.mem_cons_self⟩
    | _ => cases hs
  | authenticated | unauthenticated | turnedAway | gone => cases hs

/-- A broadcast offers its event to the next client it copied. -/
theorem BroadcastTrans.offers {cfg : Config} {h h' : Hub} {ev : EventPayload} {pc : BroadcastPc}
    {pc' : Option BroadcastPc} {os : List Obs} (hb : BroadcastTrans cfg h ev pc h' pc' os) {o : Obs}
    (ho : o ∈ os) : ∃ c rest, pc = .send (c :: rest) ∧ o.offer = some (c, .event ev) := by
  cases hb with
  | copy | done => exact absurd ho List.not_mem_nil
  | deliver =>
    rw [List.mem_singleton.mp ho]
    exact ⟨_, _, rfl, enqueueRaw_offer _ _ _ _⟩

/-- A handler that is not `c`'s makes a privileged observation of `c` only by broadcasting to it. -/
theorem HandleTrans.privileged {cfg : Config} {c c' : ConnId} {h h' : Hub} {dev : DeviceID}
    {cmd : CommandPayload} {pc : HandlerPc} {ch : Choice} {ph : ConnPhase} {os : List Obs}
    (ht : HandleTrans cfg c' h dev cmd pc ch h' ph os) {o : Obs} (ho : o ∈ os) (hp : o.privileged c)
    (hc : c' ≠ c) : ∃ ev rest, pc.flight = some ⟨ev, some (c :: rest)⟩ := by
  have queued {f : Envelope} (h' : Hub) (hp : (enqueueRaw cfg h' c' f).2.privileged c) : False :=
    hc (Obs.privileged_of_offer (enqueueRaw_offer _ _ _ _) hp)
  cases ht with
  | broadcast hb | broadcastDone hb =>
    obtain ⟨t, rest, rfl, hoff⟩ := hb.offers ho
    obtain rfl := Obs.privileged_of_offer hoff hp
    exact ⟨_, rest, rfl⟩
  | noId =>
    rw [List.mem_singleton.mp ho] at hp
    exact (queued _ hp).elim
  | replay | ack | reject =>
    rcases List.mem_pair.mp ho with rfl | rfl
    · exact hp.elim
    · exact (queued _ hp).elim
  | suppress | accept =>
    rw [List.mem_singleton.mp ho] at hp
    exact hp.elim
  | append | command | commandFails =>
    rw [List.mem_singleton.mp ho] at hp
    exact absurd hp hc
  | appendFails => exact absurd ho List.not_mem_nil
  | execute hex =>
    cases hex with
    | claim =>
      rw [List.mem_singleton.mp ho] at hp
      exact absurd hp hc
    | proceed | refuse => exact absurd ho List.not_mem_nil

/-- Pairing makes no privileged observation. -/
theorem PairTrans.unprivileged {cfg : Config} {c c' : ConnId} {h h' : Hub} {p : Attempt} {pc : PairPc}
    {ch : Choice} {ph : ConnPhase} {os : List Obs} (ht : PairTrans cfg c' h p pc ch h' ph os) :
    ∀ o ∈ os, ¬ o.privileged c := by
  cases ht with
  | peek | ask | check | consumeLost => exact List.forall_mem_nil _
  | consume | allowed | approve | consumeOwn => exact List.forall_mem_singleton.mpr id
  | issue | issueFails =>
    intro o ho hp
    rcases List.mem_pair.mp ho with rfl | rfl
    · exact hp
    · exact hp
  | quit _ hos =>
    intro o ho hp
    rcases hos o ho with ⟨code, msg, rfl⟩ | rfl
    · exact hp
    · exact hp

/-- Connecting shows a client something only by registering it. -/
theorem ServeTrans.privileged {cfg : Config} {c c' : ConnId} {h h' : Hub} {dev : DeviceID} {k : Int}
    {pc : ServePc} {ph : ConnPhase} {os : List Obs} (ht : ServeTrans cfg c' h dev k pc h' ph os)
    {o : Obs} (ho : o ∈ os) (hp : o.privileged c) : ∃ dev k, .registered c dev k ∈ os := by
  cases ht with
  | getSession | getEvents | getSince => exact absurd ho List.not_mem_nil
  | quit =>
    rw [List.mem_singleton.mp ho] at hp
    exact hp.elim
  | register _ henq =>
    rcases List.mem_cons.mp ho with rfl | ho
    · exact hp.elim
    · obtain ⟨f, -, hf⟩ := enqueueAll_obs henq o ho
      obtain rfl := Obs.privileged_of_offer hf hp
      exact ⟨_, _, List.mem_cons_self⟩

/-- The ingestion loop shows a client something only by broadcasting to it. -/
theorem IngestTrans.privileged {cfg : Config} {c : ConnId} {h h' : Hub} {ph ph' : IngestPhase}
    {ch : Choice} {os : List Obs} (ht : IngestTrans cfg h ph ch h' ph' os) {o : Obs} (ho : o ∈ os)
    (hp : o.privileged c) : ∃ ev rest, ph.flight = some ⟨ev, some (c :: rest)⟩ := by
  cases ht with
  | receive | appendFails => exact absurd ho List.not_mem_nil
  | append =>
    rw [List.mem_singleton.mp ho] at hp
    exact hp.elim
  | note =>
    unfold Hub.note at ho
    split at ho
    · rw [List.mem_singleton.mp ho] at hp
      exact hp.elim
    · rw [List.mem_singleton.mp ho] at hp
      exact hp.elim
    · exact absurd ho List.not_mem_nil
  | broadcast hb | broadcastDone hb =>
    obtain ⟨t, rest, rfl, hoff⟩ := hb.offers ho
    obtain rfl := Obs.privileged_of_offer hoff hp
    exact ⟨_, rest, rfl⟩

/-- **What it takes to be seen**: a privileged observation of `c` is made when `c` registers, by its
handler, by a broadcast that copied `c`, or by its write loop. -/
theorem StepTrans.privileged {cfg : Config} {w w' : World} {a : Action} {os : List Obs}
    (h : StepTrans cfg w a w' os) {o : Obs} (ho : o ∈ os) {c : ConnId} (hp : o.privileged c) :
    (∃ dev k, .registered c dev k ∈ os) ∨ (∃ ph, w.conns[c]? = some ph ∧ ph.served = true) ∨
      (∃ t ev rest, w.flight t = some ⟨ev, some (c :: rest)⟩) ∨ (w.hub.outbound c).writing = true := by
  cases h with
  | @conn c' ch ph ph' h' _ hph ht =>
    cases ht with
    | authenticated | unauthenticated | frame | skip | gone => exact absurd ho List.not_mem_nil
    | turnedAway hos =>
      obtain ⟨code, msg, rfl⟩ := hos o ho
      exact hp.elim
    | pairing ht => exact absurd hp (ht.unprivileged o ho)
    | serving ht => exact .inl (ht.privileged ho hp)
    | @handling dev cmd pc _ _ _ _ ht =>
      by_cases hc : c' = c
      · subst hc
        exact .inr (.inl ⟨_, hph, rfl⟩)
      · obtain ⟨ev, rest, hf⟩ := ht.privileged ho hp hc
        exact .inr (.inr (.inl ⟨.conn c', ev, rest, (World.flight_conn hph).trans hf⟩))
  | ingest ht =>
    obtain ⟨ev, rest, hf⟩ := ht.privileged ho hp
    exact .inr (.inr (.inl ⟨.ingest, ev, rest, hf⟩))
  | write hw hos =>
    rcases hos with ⟨f, rfl, -⟩ | rfl
    · rw [List.mem_singleton.mp ho] at hp
      obtain rfl := hp
      exact .inr (.inr (.inr hw))
    · exact absurd ho List.not_mem_nil
  | pairGenerate | pairApproveSet | pairRevoke =>
    rw [List.mem_singleton.mp ho] at hp
    exact hp.elim
  | accept | pairApproveGet | pairApproveLost | clock => exact absurd ho List.not_mem_nil

/-! ### Write loops -/

theorem enqueueRaw_writing (cfg : Config) (h : Hub) (c c' : ConnId) (f : Envelope) :
    ((enqueueRaw cfg h c' f).1.outbound c).writing = (h.outbound c).writing := by
  show (Function.update h.outbound c' _ c).writing = _
  by_cases hc : c = c'
  · subst hc
    rw [Function.update_self, Outbound.offer]
    split <;> rfl
  · rw [Function.update_of_ne hc]

theorem enqueueAll_writing {cfg : Config} {c c' : ConnId} {fs : List Envelope} :
    ∀ {h h' : Hub} {os : List Obs}, enqueueAll cfg h c' fs = (h', os) →
      (h'.outbound c).writing = (h.outbound c).writing := by
  induction fs with
  | nil =>
    intro h h' os he
    cases he
    rfl
  | cons f fs ih =>
    intro h h' os he
    cases he
    exact (ih rfl).trans (enqueueRaw_writing cfg h c c' f)

theorem BroadcastTrans.writing {cfg : Config} {h h' : Hub} {ev : EventPayload} {pc : BroadcastPc}
    {pc' : Option BroadcastPc} {os : List Obs} (hb : BroadcastTrans cfg h ev pc h' pc' os) (c : ConnId) :
    (h'.outbound c).writing = (h.outbound c).writing := by
  cases hb with
  | copy | done => rfl
  | deliver => exact enqueueRaw_writing cfg h c _ _

theorem HandleTrans.writing {cfg : Config} {c c' : ConnId} {h h' : Hub} {dev : DeviceID}
    {cmd : CommandPayload} {pc : HandlerPc} {ch : Choice} {ph : ConnPhase} {os : List Obs}
    (ht : HandleTrans cfg c' h dev cmd pc ch h' ph os) :
    (h'.outbound c).writing = (h.outbound c).writing := by
  cases ht with
  | noId | replay | ack | reject => exact enqueueRaw_writing cfg h c c' _
  | broadcast hb | broadcastDone hb => exact hb.writing c
  | execute hex =>
    cases hex with
    | @claim _ a => cases a <;> rfl
    | proceed | refuse => rfl
  | suppress | accept | append | appendFails | command | commandFails => rfl

/-- A write loop is started by registering. -/
theorem StepTrans.writing {cfg : Config} {w w' : World} {a : Action} {os : List Obs}
    (h : StepTrans cfg w a w' os) {c : ConnId} (hold : (w.hub.outbound c).writing = false)
    (hno : ∀ dev k, .registered c dev k ∉ os) : (w'.hub.outbound c).writing = false := by
  cases h with
  | @conn c' ch ph ph' h' _ hph ht =>
    show (h'.outbound c).writing = false
    cases ht with
    | authenticated | unauthenticated | turnedAway | frame | skip | gone => exact hold
    | pairing ht =>
      rw [ht.frame.2.2]
      exact hold
    | serving ht =>
      cases ht with
      | getSession | getEvents | getSince | quit => exact hold
      | @register _ _ _ h1 _ os' hh1 henq =>
        have hc : c ≠ c' := fun he => hno _ _ (by rw [he]; exact List.mem_cons_self)
        rw [enqueueAll_writing henq, hh1]
        show (Function.update w.hub.outbound c' _ c).writing = false
        rw [Function.update_of_ne hc]
        exact hold
    | handling ht => exact ht.writing.trans hold
  | @ingest ch ph' h' _ ht =>
    show (h'.outbound c).writing = false
    generalize w.ingest = ph at ht
    cases ht with
    | receive | append | appendFails => exact hold
    | note =>
      unfold Hub.note
      split <;> exact hold
    | broadcast hb | broadcastDone hb => exact (hb.writing c).trans hold
  | @write c' ch q os hw =>
    have hc : c ≠ c' := fun he => by
      rw [← he, hold] at hw
      cases hw
    show (Function.update w.hub.outbound c' q c).writing = false
    rw [Function.update_of_ne hc]
    exact hold
  | _ => exact hold

/-- **A connection that was never registered is neither seen nor shown anything.** -/
structure Unseen (cfg : Config) (tr : List Obs) (w : World) (c : ConnId) : Prop where
  absent : Fanout.Absent (w.fanout cfg tr) c
  idle : (w.hub.outbound c).writing = false
  phase : ∀ ph, w.conns[c]? = some ph → ph.served = false
  silent : ∀ o ∈ tr, ¬ o.privileged c

theorem unregistered {cfg : Config} {P : List Obs → World → Action → Prop} {db : Store} {now : Int}
    {tr : List Obs} {w : World} (h : (system cfg).Run P [] (World.init cfg db now) tr w) {c : ConnId}
    (hno : ∀ dev k, .registered c dev k ∉ tr) : Unseen cfg tr w c := by
  refine h.invariant (I := fun t u => (∀ dev k, .registered c dev k ∉ t) → Unseen cfg t u c) ?_ ?_ hno
  · intro _
    refine ⟨fanout_init_absent cfg db now c, rfl, fun ph hph => ?_, List.forall_mem_nil _⟩
    simp [World.init] at hph
  · intro t u a u' os hr ih hP hs hno
    have hst : StepTrans cfg u a u' os := World.step_trans hs
    have hnot : ∀ dev k, .registered c dev k ∉ os := by
      intro dev k hm
      exact hno dev k (List.mem_append_right _ hm)
    have hI := ih fun dev k hm => hno dev k (List.mem_append_left _ hm)
    refine ⟨absent_of_unregistered (hr.tail hP hs) hno, hst.writing hI.idle hnot, fun ph hph => ?_,
      fun o ho hp => ?_⟩
    · cases hst with
      | conn hph₀ ht =>
        rcases getElem?_set_cases hph with ⟨rfl, rfl⟩ | ⟨-, hold⟩
        · by_contra hsv
          rw [Bool.not_eq_false] at hsv
          rcases ht.served hsv with hsv | ⟨dev, k, hm⟩
          · rw [hI.phase _ hph₀] at hsv
            cases hsv
          · exact hnot dev k hm
        · exact hI.phase ph hold
      | accept =>
        rcases getElem?_concat_cases hph with hold | ⟨-, rfl⟩
        · exact hI.phase ph hold
        · rfl
      | _ => exact hI.phase ph hph
    · rcases List.mem_append.mp ho with hold | hnew
      · exact hI.silent o hold hp
      · rcases hst.privileged hnew hp with ⟨dev, k, hm⟩ | ⟨ph, hph, hsv⟩ | ⟨th, ev, rest, hf⟩ | hw
        · exact hnot dev k hm
        · rw [hI.phase ph hph] at hsv
          cases hsv
        · exact hI.absent.flight th ev _ hf List.mem_cons_self
        · rw [hI.idle] at hw
          cases hw

/-! ## Connections that were turned away -/

theorem ConnTrans.outcast {cfg : Config} {c : ConnId} {h h' : Hub} {ph ph' : ConnPhase} {ch : Choice}
    {os : List Obs} (ht : ConnTrans cfg c h ph ch h' ph' os) (ho : ph.outcast = true) :
    ph'.outcast = true ∧ Quiet h h' := by
  cases ht with
  | pairing ht => exact ⟨by cases ht <;> rfl, ht.frame.1⟩
  | _ => cases ho

/-- Who was turned away stays away. -/
theorem outcast_stays {cfg : Config} {P : List Obs → World → Action → Prop} {t tr : List Obs}
    {u w : World} (h : (system cfg).Run P t u tr w) {c : ConnId}
    (hph : ∃ ph, u.conns[c]? = some ph ∧ ph.outcast = true) (hno : ∀ dev k, .registered c dev k ∉ t) :
    (∃ ph, w.conns[c]? = some ph ∧ ph.outcast = true) ∧ ∀ dev k, .registered c dev k ∉ tr := by
  refine h.invariant (I := fun t u => (∃ ph, u.conns[c]? = some ph ∧ ph.outcast = true) ∧
    ∀ dev k, .registered c dev k ∉ t) ⟨hph, hno⟩ ?_
  rintro t u a u' os _ ⟨⟨ph, hph, hout⟩, hno⟩ _ hs
  have hst : StepTrans cfg u a u' os := World.step_trans hs
  have hlt := (List.getElem?_eq_some_iff.mp hph).1
  refine ⟨?_, fun dev k hm => ?_⟩
  · cases hst with
    | @conn c' ch ph₀ ph' h' _ hph₀ ht =>
      by_cases hc : c' = c
      · subst hc
        rw [hph₀, Option.some.injEq] at hph
        subst hph
        exact ⟨ph', by simp [hlt], (ht.outcast hout).1⟩
      · exact ⟨ph, by simp only [List.getElem?_set_ne hc, hph], hout⟩
    | accept => exact ⟨ph, by simp only [List.getElem?_append_left hlt, hph], hout⟩
    | _ => exact ⟨ph, hph, hout⟩
  · rcases List.mem_append.mp hm with hold | hnew
    · exact hno dev k hold
    · obtain ⟨ch, ph₀, h', ph', -, hph₀, hsrc, -, -⟩ := hst.of_conn hnew (c := c) rfl
      rw [hph, Option.some.injEq] at hph₀
      subst hph₀
      cases ph with
      | pairing | closed => rcases hsrc with he | he <;> cases he
      | _ => cases hout

/-- A hello that no device admits leads to the pairing path or to the end of the connection. -/
theorem ConnTrans.turned_away {cfg : Config} {c : ConnId} {h h' : Hub}
    {headerCred remoteAddr userAgent : String} {hello : HelloPayload} {out : Outcome} {ph' : ConnPhase}
    {os : List Obs}
    (ht : ConnTrans cfg c h (.readHello headerCred remoteAddr userAgent) (.hello hello out) h' ph' os)
    (hno : ∀ dev, effectiveCredential headerCred hello ≠ "" →
      validateCredential h.store cfg.hashCredential (effectiveCredential headerCred hello) = some dev →
      ¬ (hello.deviceID = "" ∨ hello.deviceID = dev.val)) :
    ph'.outcast = true ∧ ∀ dev k, .registered c dev k ∉ os := by
  cases ht with
  | authenticated hcred hval hid => exact absurd hid (hno _ hcred hval)
  | unauthenticated => exact ⟨rfl, fun _ _ => List.not_mem_nil⟩
  | turnedAway hos =>
    refine ⟨rfl, fun dev k hm => ?_⟩
    obtain ⟨code, msg, he⟩ := hos _ hm
    cases he

/-! ## Authentication and attribution -/

/-- The device an event of a command names. -/
def byDevice (ev : EventPayload) : Option String :=
  match ev.kind with
  | .userPrompt => some (UserPromptBody.decode ev.payload).byDevice
  | .permissionResolved => some (PermissionResolvedBody.decode ev.payload).byDevice
  | .questionResolved => some (QuestionResolvedBody.decode ev.payload).byDevice
  | .modeChanged => some (ModeChangedBody.decode ev.payload).byDevice
  | _ => none

/-- An event names the device its handler runs under. -/
theorem byDevice_commandEvent {ev : EventPayload} {dev : DeviceID} {out : AgentCommand}
    (hk : ev.kind = (commandEvent dev out).1) (hp : ev.payload = (commandEvent dev out).2) {b : String}
    (hb : byDevice ev = some b) : b = dev.val := by
  unfold byDevice at hb
  cases out with
  | interrupt =>
    rw [hk] at hb
    cases hb
  | _ =>
    rw [hk, hp] at hb
    simpa [commandEvent] using hb.symm

/-- A connection whose hello was admitted by no device is shown nothing, and changes neither the log nor
the pending maps, nor does the adapter hear of it. -/
def NothingWithoutAdmission (cfg : Config) (P : List Obs → World → Action → Prop) (r₀ : Registry)
    (w₀ : World) (tr : List Obs) (w : World) : Prop :=
  ∀ c headerCred hello t, Greeted cfg P w₀ tr w c headerCred hello t →
    (∀ dev, ¬ Admitted (registry r₀ t) headerCred hello dev) →
    (∀ o ∈ tr, ¬ o.privileged c) ∧
      ∀ ch w' os, (system cfg).step w (.conn c ch) = some (w', os) →
        w'.log cfg = w.log cfg ∧ w'.hub.pending = w.hub.pending ∧
          w'.hub.pendingQuestions = w.hub.pendingQuestions

/-- The device an event of a command names is the one whose credential its connection presented. -/
def AttributedToPresenter (cfg : Config) (P : List Obs → World → Action → Prop) (r₀ : Registry)
    (w₀ : World) (tr : List Obs) (w : World) : Prop :=
  ∀ c dev k ev b, .appended (.command c dev k) ev ∈ tr → byDevice ev = some b →
    ∃ headerCred hello t, Greeted cfg P w₀ tr w c headerCred hello t ∧
      Admitted (registry r₀ t) headerCred hello b

theorem Greeted.trans {cfg : Config} {P : List Obs → World → Action → Prop} {w₀ u w : World}
    {t tr : List Obs} {c : ConnId} {headerCred : String} {hello : HelloPayload} {t₀ : List Obs}
    (h : Greeted cfg P w₀ t u c headerCred hello t₀) (hr : (system cfg).Run P t u tr w) :
    Greeted cfg P w₀ tr w c headerCred hello t₀ := by
  obtain ⟨u₀, ra, ua, out, u₁, os, hr₀, hph, hP, hs, hr₁⟩ := h
  exact ⟨u₀, ra, ua, out, u₁, os, hr₀, hph, hP, hs, hr₁.trans hr⟩

/-- Whose hello was admitted by no device was never registered, and is turned away for good. -/
theorem turned_away_for_good {cfg : Config} {db : Store} {now : Int} {r₀ : Registry}
    (h0 : Describes cfg.hashCredential r₀ db.devices) {tr : List Obs} {w : World} {c : ConnId}
    {headerCred : String} {hello : HelloPayload} {t : List Obs}
    (hg : Greeted cfg (CollisionFree cfg r₀) (World.init cfg db now) tr w c headerCred hello t)
    (hnone : ∀ dev, ¬ Admitted (registry r₀ t) headerCred hello dev) :
    (∃ ph, w.conns[c]? = some ph ∧ ph.outcast = true) ∧ ∀ dev k, .registered c dev k ∉ tr := by
  obtain ⟨u, ra, ua, out, u', os, hr, hph, hP, hs, hrest⟩ := hg
  have hlt := (List.getElem?_eq_some_iff.mp hph).1
  have hbefore := unregistered_before hr hph rfl
  obtain ⟨hout, hnow⟩ : (∃ ph, u'.conns[c]? = some ph ∧ ph.outcast = true) ∧
      ∀ dev k, .registered c dev k ∉ os := by
    have hst : StepTrans cfg u (.conn c (.hello hello out)) u' os := World.step_trans hs
    cases hst with
    | @conn _ _ _ ph' h' _ hph₀ ht =>
      rw [hph, Option.some.injEq] at hph₀
      subst hph₀
      have hno : ∀ dev, effectiveCredential headerCred hello ≠ "" →
          validateCredential u.hub.store cfg.hashCredential (effectiveCredential headerCred hello) =
            some dev → ¬ (hello.deviceID = "" ∨ hello.deviceID = dev.val) := by
        intro dev hne hval hid
        have hfree := hP c hello out headerCred ra ua rfl hph
        exact hnone dev.val (admitted_of_validate (described h0 hr) hfree hne hval hid)
      obtain ⟨hout, hnow⟩ := ht.turned_away hno
      exact ⟨⟨ph', by simp [hlt], hout⟩, hnow⟩
  apply outcast_stays hrest hout
  intro dev k hm
  rcases List.mem_append.mp hm with hold | hnew
  · exact hbefore dev k hold
  · exact hnow dev k hnew

theorem nothing_without_admission {cfg : Config} {db : Store} {now : Int} {r₀ : Registry}
    (h0 : Describes cfg.hashCredential r₀ db.devices) {tr : List Obs} {w : World}
    (h : (system cfg).Run (CollisionFree cfg r₀) [] (World.init cfg db now) tr w) :
    NothingWithoutAdmission cfg (CollisionFree cfg r₀) r₀ (World.init cfg db now) tr w := by
  intro c headerCred hello t hg hnone
  obtain ⟨⟨ph, hph, hout⟩, hnever⟩ := turned_away_for_good h0 hg hnone
  refine ⟨(unregistered h hnever).silent, ?_⟩
  intro ch w' os hs
  have hst : StepTrans cfg w (.conn c ch) w' os := World.step_trans hs
  cases hst with
  | conn hph₀ ht =>
    rw [hph, Option.some.injEq] at hph₀
    subst hph₀
    have hq := (ht.outcast hout).2
    exact ⟨congrFun hq.events cfg.sessionID, hq.pending, hq.pendingQuestions⟩

theorem attributed_to_presenter {cfg : Config} {db : Store} {now : Int} {r₀ : Registry}
    (h0 : Describes cfg.hashCredential r₀ db.devices) {tr : List Obs} {w : World}
    (h : (system cfg).Run (CollisionFree cfg r₀) [] (World.init cfg db now) tr w) :
    AttributedToPresenter cfg (CollisionFree cfg r₀) r₀ (World.init cfg db now) tr w := by
  intro c dev k ev b hm hb
  -- the append is a step of the handler, which runs under the device of its connection
  obtain ⟨t, u, a, u', os, hr, hP, hs, ho, hrest⟩ := h.step_of_mem hm List.not_mem_nil
  have hst : StepTrans cfg u a u' os := World.step_trans hs
  obtain ⟨ch, ph, h', ph', rfl, hph, hsrc, ht, -⟩ := hst.of_conn ho (c := c) rfl
  cases ht with
  | handling ht =>
    rcases ht.appended with ⟨out, ev', st, -, -, happ, -, rfl⟩ | ⟨hnil, -⟩
    · cases List.mem_singleton.mp ho
      obtain ⟨-, hk, hp, -⟩ := Store.appendEvent_spec happ
      obtain rfl := byDevice_commandEvent hk hp hb
      obtain ⟨headerCred, hello, t₀, hg, had⟩ := admitted_device h0 hr c _ dev hph rfl
      exact ⟨headerCred, hello, t₀, hg.trans ((Lts.Run.single hP hs).trans hrest), had⟩
    · rw [List.filterMap_eq_nil_iff] at hnil
      cases hnil _ ho
  | _ => rcases hsrc with he | he <;> cases he

/-- **Authentication and attribution**, for every run in which no digest collides with a presented
credential's. -/
theorem authentication_and_attribution {cfg : Config} {db : Store} {now : Int} {r₀ : Registry}
    (h0 : Describes cfg.hashCredential r₀ db.devices) {tr : List Obs} {w : World}
    (h : (system cfg).Run (CollisionFree cfg r₀) [] (World.init cfg db now) tr w) :
    NothingWithoutAdmission cfg (CollisionFree cfg r₀) r₀ (World.init cfg db now) tr w ∧
      AttributedToPresenter cfg (CollisionFree cfg r₀) r₀ (World.init cfg db now) tr w :=
  ⟨nothing_without_admission h0 h, attributed_to_presenter h0 h⟩

/-! ## A run -/

/-- The credentials of the two paired devices. -/
def Sample.registry : Registry := fun id =>
  if id = Sample.phone.val then some ⟨"phone-secret", false⟩
  else if id = Sample.tablet.val then some ⟨"tablet-secret", false⟩
  else none

theorem Sample.describes :
    Describes Sample.config.hashCredential Sample.registry Sample.database.devices := by
  intro d hd
  rcases List.mem_pair.mp hd with rfl | rfl
  · exact ⟨"phone-secret", by decide, rfl⟩
  · exact ⟨"tablet-secret", by decide, rfl⟩

theorem Sample.hashCredential_injective {s s' : String} (hs : s = "phone-secret" ∨ s = "tablet-secret")
    (h : Sample.hashCredential s = Sample.hashCredential s') : s = s' := by
  unfold Sample.hashCredential at h
  rcases hs with rfl | rfl
  · by_cases h1 : s' = "phone-secret"
    · exact h1.symm
    · by_cases h2 : s' = "tablet-secret" <;> simp [h1, h2] at h
  · by_cases h1 : s' = "phone-secret"
    · simp [h1] at h
    · by_cases h2 : s' = "tablet-secret"
      · exact h2.symm
      · simp [h1, h2] at h

theorem collisionFree_of_untouched (t : List Obs) (w : World) (a : Action)
    (h : t.all registryUntouched = true) : CollisionFree Sample.config Sample.registry t w a := by
  intro c hello out hc ra ua _ _ id x hx heq
  have hsame : registry Sample.registry t = Sample.registry :=
    foldl_step_of_untouched (List.all_eq_true.mp h) _
  rw [hsame, Sample.registry] at hx
  refine Sample.hashCredential_injective ?_ heq
  split at hx
  · cases hx
    exact .inl rfl
  · split at hx
    · cases hx
      exact .inr rfl
    · cases hx

/-- The phone prompts; a connection with a credential of no device is turned away. -/
def promptAndStranger : List Action :=
  Sample.connect 0 "phone-secret" 0 ++
    [.accept "Bearer guessed" "192.168.1.66:40001" "curl/8.5", .conn 1 (.hello {} .ok),
      .conn 0 (Sample.command "p1" .sendPrompt [("text", .str "hello")])] ++ Sample.handle 0 [0]

theorem authentication_and_attribution_promptAndStranger :
    ∃ tr w, (system Sample.config).Run (CollisionFree Sample.config Sample.registry) [] Sample.start tr w ∧
      (tr.filterMap Obs.appendedEvent).map byDevice = [some Sample.phone.val] ∧
      NothingWithoutAdmission Sample.config (CollisionFree Sample.config Sample.registry) Sample.registry
        Sample.start tr w ∧
      AttributedToPresenter Sample.config (CollisionFree Sample.config Sample.registry) Sample.registry
        Sample.start tr w := by
  have hexec : ∃ r, (system Sample.config).exec (fun t _ _ => t.all registryUntouched) [] Sample.start
      promptAndStranger = some r ∧
      (r.1.filterMap Obs.appendedEvent).map byDevice = [some Sample.phone.val] := ⟨_, rfl, by decide⟩
  obtain ⟨⟨tr, w⟩, he, hby⟩ := hexec
  have hr := Lts.run_of_exec collisionFree_of_untouched he
  exact ⟨tr, w, hr, hby, authentication_and_attribution Sample.describes hr⟩

end Harness.Hub
