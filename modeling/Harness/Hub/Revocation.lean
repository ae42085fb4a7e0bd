/-
# Harness.Hub.Revocation — what revoking a device changes.

`harness pair --revoke` is another process: all it does is to set the `revoked` column of the device's
row. The daemon reads that column in one place, the credential lookup of a hello. So a revocation takes
effect at the device's next connect: no hello read after it makes a connection the device's, until the
device is paired again (`revocation_at_next_hello`). A connection that said its hello before is not
looked at again and goes on being served (`keptServing_serves`).
-/
import Harness.Hub.Authentication

namespace Harness.Hub

open Wire Auth Lib

/-- The connection and the device an observation is made for. -/
def Obs.servedAs : Obs → Option (ConnId × DeviceID)
  | .registered c dev _ | .accepted c dev _ | .suppressed c dev _ | .appended (.command c dev _) _
  | .acked c dev _ | .rejected c dev _ _ | .handed c dev _ _ _ => some (c, dev)
  | _ => none

theorem Obs.servedAs_of_offer {o : Obs} {x : ConnId × Envelope} (h : o.offer = some x) :
    o.servedAs = none := by
  cases o with
  | enqueued | dropped => rfl
  | _ => cases h

/-- The goroutine that makes an observation for a connection and a device serves that connection. -/
theorem Obs.conn_of_servedAs {o : Obs} {c : ConnId} {dev : DeviceID} (h : o.servedAs = some (c, dev)) :
    o.source.conn? = some c := by
  cases o with
  | appended w =>
    cases w with
    | ingest => cases h
    | command =>
      cases h
      rfl
  | registered | accepted | suppressed | acked | rejected | handed =>
    cases h
    rfl
  | _ => cases h

/-- A handler acts for the device of its connection. -/
theorem HandleTrans.servedAs {cfg : Config} {c c' : ConnId} {h h' : Hub} {dev dev' : DeviceID}
    {cmd : CommandPayload} {pc : HandlerPc} {ch : Choice} {ph : ConnPhase} {os : List Obs}
    (ht : HandleTrans cfg c h dev cmd pc ch h' ph os) {o : Obs} (ho : o ∈ os)
    (hs : o.servedAs = some (c', dev')) : dev' = dev := by
  have answer {f : Envelope} {o₁ : Obs} (ho : o ∈ [o₁, (enqueueRaw cfg h c f).2]) : o = o₁ := by
    rcases List.mem_pair.mp ho with he | he
    · exact he
    · rw [he, Obs.servedAs_of_offer (enqueueRaw_offer _ _ _ _)] at hs
      cases hs
  cases ht with
  | broadcast hb | broadcastDone hb =>
    obtain ⟨t, rest, -, hoff⟩ := hb.offers ho
    rw [Obs.servedAs_of_offer hoff] at hs
    cases hs
  | noId =>
    rw [List.mem_singleton.mp ho, Obs.servedAs_of_offer (enqueueRaw_offer _ _ _ _)] at hs
    cases hs
  | replay | ack | reject =>
    rw [answer ho] at hs
    cases hs
    rfl
  | suppress | accept | append | command | commandFails =>
    rw [List.mem_singleton.mp ho] at hs
    cases hs
    rfl
  | appendFails => exact absurd ho List.not_mem_nil
  | execute hex =>
    cases hex with
    | claim =>
      rw [List.mem_singleton.mp ho] at hs
      cases hs
    | proceed | refuse => exact absurd ho List.not_mem_nil

/-- **Who is served.** What the daemon does for a connection as device `dev`, it does for a connection
that is served as `dev`. -/
theorem StepTrans.servedAs {cfg : Config} {w w' : World} {a : Action} {os : List Obs}
    (h : StepTrans cfg w a w' os) {o : Obs} (ho : o ∈ os) {c : ConnId} {dev : DeviceID}
    (hs : o.servedAs = some (c, dev)) : ∃ ph, w.conns[c]? = some ph ∧ ph.device = some dev := by
  obtain ⟨ch, ph, h', ph', -, hph, -, ht, -⟩ := h.of_conn ho (Obs.conn_of_servedAs hs)
  refine ⟨ph, hph, ?_⟩
  cases ht with
  | authenticated | unauthenticated | frame | skip | gone => exact absurd ho List.not_mem_nil
  | turnedAway hos =>
    obtain ⟨code, msg, rfl⟩ := hos o ho
    cases hs
  | pairing ht =>
    cases ht with
    | peek | ask | check | consumeLost => exact absurd ho List.not_mem_nil
    | consume | allowed | approve | consumeOwn =>
      rw [List.mem_singleton.mp ho] at hs
      cases hs
    | issue | issueFails =>
      rcases List.mem_pair.mp ho with rfl | rfl <;> cases hs
    | quit _ hos =>
      rcases hos o ho with ⟨code, msg, rfl⟩ | rfl <;> cases hs
  | serving ht =>
    cases ht with
    | getSession | getEvents | getSince => exact absurd ho List.not_mem_nil
    | quit =>
      rw [List.mem_singleton.mp ho] at hs
      cases hs
    | register _ henq =>
      rcases List.mem_cons.mp ho with rfl | ho
      · cases hs
        rfl
      · obtain ⟨f, -, hf⟩ := enqueueAll_obs henq o ho
        rw [Obs.servedAs_of_offer hf] at hs
        cases hs
  | handling ht =>
    rw [ht.servedAs ho hs]
    rfl

/-! ## The row of a revoked device -/

/-- Every row of device `d` is revoked. -/
def Revoked (d : DeviceID) (devices : List Device) : Prop :=
  ∀ row ∈ devices, row.deviceID = d → row.revoked = true

theorem revoked_revokeDevice (d : DeviceID) (db : Store) : Revoked d (db.revokeDevice d.val).devices := by
  intro row hrow hd
  obtain ⟨row₀, -, rfl⟩ := List.mem_map.mp hrow
  split at hd
  · rename_i he
    rw [if_pos he]
  · rename_i hne
    exact absurd (congrArg DeviceID.val hd) hne

theorem Revoked.revokeDevice {d : DeviceID} {db : Store} (h : Revoked d db.devices) (id : String) :
    Revoked d (db.revokeDevice id).devices := by
  intro row hrow hd
  obtain ⟨row₀, hrow₀, rfl⟩ := List.mem_map.mp hrow
  split at hd
  · rename_i he
    rw [if_pos he]
  · rename_i hne
    rw [if_neg hne]
    exact h row₀ hrow₀ hd

/-- Pairing another device does not touch the row. -/
theorem Revoked.addDevice {d dev : DeviceID} {db : Store} (h : Revoked d db.devices) (hne : dev ≠ d)
    (name hash : String) (now : Int) : Revoked d (db.addDevice dev name hash now).devices := by
  intro row hrow hd
  unfold Store.addDevice at hrow
  simp only at hrow
  split at hrow
  · obtain ⟨row₀, hrow₀, rfl⟩ := List.mem_map.mp hrow
    split at hd
    · rename_i he
      exact absurd (he.symm.trans hd) hne
    · rename_i hother
      rw [if_neg hother]
      exact h row₀ hrow₀ hd
  · rcases List.mem_append.mp hrow with hrow | hrow
    · exact h row hrow hd
    · rw [List.mem_singleton.mp hrow] at hd
      exact absurd hd hne

/-- A step that issues no credential to `d` keeps its rows revoked. -/
theorem StepTrans.revoked {cfg : Config} {w w' : World} {a : Action} {os : List Obs}
    (h : StepTrans cfg w a w' os) {d : DeviceID} (hd : Revoked d w.hub.store.devices)
    (hno : ∀ c token cred, .issued c token d cred ∉ os) : Revoked d w'.hub.store.devices := by
  rcases h.registrars with ⟨c, p, pc, ch, h', ph', -, -, ht, rfl⟩ | ⟨token, exp, st, hst, hw, -, -⟩ |
    ⟨token, name, st, hst, hw, -, -⟩ | ⟨id, hst, -, -⟩ | ⟨hsame, -⟩
  · show Revoked d h'.store.devices
    have deleted {st : Store} (hst : st = w.hub.store ∨ st = w.hub.store.deletePendingToken p.token) :
        Revoked d st.devices := by
      rcases hst with rfl | rfl <;> exact hd
    cases ht with
    | issue hiss =>
      cases hiss
      refine hd.addDevice (fun he => ?_) _ _ _
      subst he
      exact hno _ _ _ List.mem_cons_self
    | peek | check | allowed | issueFails => exact hd
    | consume hcons | consumeOwn hcons =>
      show Revoked d _
      rw [(consumePairingToken_log hcons).2.2]
      exact hd
    | approve happ =>
      show Revoked d _
      rw [(approvePendingToken_log happ).2.2]
      exact hd
    | ask hst | consumeLost _ hst | quit hst => exact deleted hst
  · rw [hw, (createPendingToken_log hst).2.2]
    exact hd
  · rw [hw, (approvePendingToken_log hst).2.2]
    exact hd
  · rw [hst]
    exact hd.revokeDevice id
  · rw [hsame]
    exact hd

/-- A connection that is not served as a revoked device does not become so. -/
theorem StepTrans.not_device {cfg : Config} {w w' : World} {a : Action} {os : List Obs}
    (h : StepTrans cfg w a w' os) {d : DeviceID} (hd : Revoked d w.hub.store.devices) {c : ConnId}
    (hc : ∀ ph, w.conns[c]? = some ph → ph.device ≠ some d) :
    ∀ ph, w'.conns[c]? = some ph → ph.device ≠ some d := by
  intro ph hph hdev
  cases h with
  | conn hph₀ ht =>
    rcases getElem?_set_cases hph with ⟨rfl, rfl⟩ | ⟨-, hold⟩
    · rcases ht.device hdev with hsame | ⟨hc₀, ra, ua, p, out, rfl, -, -, hval, -⟩
      · exact hc _ hph₀ hsame
      · obtain ⟨row, hrow, hid, -, hrev⟩ := validateCredential_spec hval
        rw [hd row hrow hid] at hrev
        cases hrev
    · exact hc ph hold hdev
  | accept =>
    rcases getElem?_concat_cases hph with hold | ⟨-, rfl⟩
    · exact hc ph hold hdev
    · cases hdev
  | _ => exact hc ph hph hdev

/-! ## After a revocation -/

/-- The hello of connection `c` has not been read: the connection is yet to be accepted, or accepted
and silent. -/
def World.Ungreeted (w : World) (c : ConnId) : Prop :=
  ∀ ph, w.conns[c]? = some ph → ∃ headerCred remoteAddr userAgent, ph = .readHello headerCred remoteAddr userAgent

/-- Once the rows of `d` are revoked, and until a credential is issued to `d`, a connection that is not
`d`'s is not made `d`'s, and nothing is done for it as `d`. -/
theorem revoked_stays {cfg : Config} {P : List Obs → World → Action → Prop} {d : DeviceID} {t tr : List Obs}
    {u w : World} (hr : (system cfg).Run P t u tr w) (hd : Revoked d u.hub.store.devices) {c : ConnId}
    (hc : ∀ ph, u.conns[c]? = some ph → ph.device ≠ some d) :
    ∀ q, tr = t ++ q → (∀ c token cred, .issued c token d cred ∉ q) →
      Revoked d w.hub.store.devices ∧ (∀ ph, w.conns[c]? = some ph → ph.device ≠ some d) ∧
        ∀ o ∈ q, o.servedAs ≠ some (c, d) := by
  refine hr.invariant (I := fun tr w => ∀ q, tr = t ++ q → (∀ c token cred, .issued c token d cred ∉ q) →
      Revoked d w.hub.store.devices ∧ (∀ ph, w.conns[c]? = some ph → ph.device ≠ some d) ∧
        ∀ o ∈ q, o.servedAs ≠ some (c, d)) ?_ ?_
  · intro q hq _
    rw [List.append_right_eq_self.mp hq.symm]
    exact ⟨hd, hc, List.forall_mem_nil _⟩
  · intro t₁ v a v' os hr₁ ih _ hs q hq hno
    obtain ⟨q₁, rfl⟩ := hr₁.prefix_trace
    rw [List.append_assoc, List.append_cancel_left_eq] at hq
    subst hq
    have hst : StepTrans cfg v a v' os := World.step_trans hs
    obtain ⟨hrows, hdev, hsil⟩ := ih q₁ rfl fun c token cred hm => hno c token cred (List.mem_append_left _ hm)
    refine ⟨hst.revoked hrows fun c token cred hm => hno c token cred (List.mem_append_right _ hm),
      hst.not_device hrows hdev, fun o ho hserved => ?_⟩
    rcases List.mem_append.mp ho with hold | hnew
    · exact hsil o hold hserved
    · obtain ⟨ph, hph, hpd⟩ := hst.servedAs hnew hserved
      exact hdev ph hph hpd

/-- Revocation as a cut on live connections: after it nothing is done for a connection served as `d`
and no event is queued for one, unless a credential is issued to `d` again. -/
def RevocationCutsOff (d : DeviceID) (tr : List Obs) : Prop :=
  ∀ p q, tr = p ++ .revoked d.val :: q → (∀ c token cred, .issued c token d cred ∉ q) →
    (∀ c key ev, .appended (.command c d key) ev ∉ q) ∧ (∀ c key cmd ok, .handed c d key cmd ok ∉ q) ∧
      ∀ c k ev, .registered c d k ∈ tr → .enqueued c (.event ev) ∉ q

/-- **Revocation takes effect at the next hello.** `RevokeDevice(d)` completes in state `u`, and `q` is
what happens afterwards. As long as no credential is issued to `d`, a connection whose hello is read
afterwards is never served as `d`: no command of it appends an event or reaches the adapter in `d`'s
name, and the events it is sent it is sent as another device. -/
theorem revocation_at_next_hello {cfg : Config} {db : Store} {now : Int} {t q : List Obs}
    {u u' w : World} {d : DeviceID} (h : (system cfg).Run Lts.Free [] (World.init cfg db now) t u)
    (hs : (system cfg).step u (.pairRevoke d.val) = some (u', [.revoked d.val]))
    (hr : (system cfg).Run Lts.Free (t ++ [.revoked d.val]) u' (t ++ .revoked d.val :: q) w)
    (hno : ∀ c token cred, .issued c token d cred ∉ q) {c : ConnId} (hc : u.Ungreeted c) :
    (∀ ph, w.conns[c]? = some ph → ph.device ≠ some d) ∧
    (∀ key ev, .appended (.command c d key) ev ∉ q) ∧ (∀ key cmd ok, .handed c d key cmd ok ∉ q) ∧
    ∀ ev, .enqueued c (.event ev) ∈ q ∨ .written c (.event ev) ∈ q →
      ∃ dev k, dev ≠ d ∧ .registered c dev k ∈ q := by
  have hsplit : t ++ .revoked d.val :: q = (t ++ [.revoked d.val]) ++ q := by
    rw [List.append_assoc, List.singleton_append]
  have hu' : u' = { u with hub := { u.hub with store := u.hub.store.revokeDevice d.val } } := by
    cases hs
    rfl
  have hbefore : ∀ ph, u'.conns[c]? = some ph → ph.device ≠ some d := by
    subst hu'
    intro ph hph hdev
    obtain ⟨hc₀, ra, ua, rfl⟩ := hc ph hph
    cases hdev
  obtain ⟨-, hdev, hserved⟩ := revoked_stays hr (by rw [hu']; exact revoked_revokeDevice d _) hbefore q
    hsplit hno
  refine ⟨hdev, fun key ev hm => hserved _ hm rfl, fun key cmd ok hm => hserved _ hm rfl,
    fun ev hm => ?_⟩
  -- a connection that is sent something was registered, and `c` was not before the revocation
  have hnew : ∃ dev k, .registered c dev k ∈ t ++ .revoked d.val :: q := by
    by_contra hnone
    have hunseen := unregistered ((h.tail trivial hs).trans hr) fun dev k hm => hnone ⟨dev, k, hm⟩
    rcases hm with hm | hm
    · exact hunseen.silent _ (List.mem_append_right _ (List.mem_cons_of_mem _ hm)) rfl
    · exact hunseen.silent _ (List.mem_append_right _ (List.mem_cons_of_mem _ hm)) rfl
  obtain ⟨dev, k, hreg⟩ := hnew
  have hearly : .registered c dev k ∉ t := by
    intro hm
    obtain ⟨ph, hph, hl⟩ := registered_late h hm
    obtain ⟨hc₀, ra, ua, rfl⟩ := hc ph hph
    cases hl
  have hq : .registered c dev k ∈ q := by
    rcases List.mem_append.mp hreg with hm | hm
    · exact absurd hm hearly
    · rcases List.mem_cons.mp hm with he | hm
      · cases he
      · exact hm
  refine ⟨dev, k, fun he => ?_, hq⟩
  subst he
  exact hserved _ hq rfl

/-- A credential was issued to device `d`. -/
def Obs.issuedDevice (d : DeviceID) : Obs → Bool
  | .issued _ _ dev _ => dev == d
  | _ => false

/-- The phone is connected when it is revoked, and then connects once more with its credential. -/
def reconnectAfterRevoke : List Action :=
  [.accept "Bearer phone-secret" "192.168.1.7:50113" "okhttp/4.12", .conn 1 (.hello {} .ok)]

theorem revocation_at_next_hello_reconnectAfterRevoke :
    ∃ (w : World) (q : List Obs), w.conns[1]?.map ConnPhase.device = some none ∧
      (∀ ph, w.conns[1]? = some ph → ph.device ≠ some Sample.phone) ∧
      (∀ key ev, .appended (.command 1 Sample.phone key) ev ∉ q) ∧
      (∀ key cmd ok, .handed 1 Sample.phone key cmd ok ∉ q) ∧
      ∀ ev, .enqueued 1 (.event ev) ∈ q ∨ .written 1 (.event ev) ∈ q →
        ∃ dev k, dev ≠ Sample.phone ∧ .registered 1 dev k ∈ q := by
  have hexec : ∃ t u w q, (system Sample.config).exec (fun _ _ _ => true) [] Sample.start
        (Sample.connect 0 "phone-secret" 0) = some (t, u) ∧
      (system Sample.config).exec (fun _ _ _ => true) (t ++ [.revoked Sample.phone.val])
        { u with hub := { u.hub with store := u.hub.store.revokeDevice Sample.phone.val } }
        reconnectAfterRevoke = some (t ++ .revoked Sample.phone.val :: q, w) ∧
      u.conns.length = 1 ∧ w.conns[1]?.map ConnPhase.device = some none ∧
      q.any (Obs.issuedDevice Sample.phone) = false :=
    ⟨_, _, _, [.direct 1 (.error "" .authRequired "credential or pairing token required")], rfl, rfl,
      rfl, by decide, by decide⟩
  obtain ⟨t, u, w, q, he₁, he₂, hlen, hdev, hnone⟩ := hexec
  have h := Lts.run_of_exec (P := Lts.Free) (fun _ _ _ _ => trivial) he₁
  have hr := Lts.run_of_exec (P := Lts.Free) (fun _ _ _ _ => trivial) he₂
  refine ⟨w, q, hdev, revocation_at_next_hello h rfl hr (fun c token cred hm => ?_) fun ph hph => ?_⟩
  · rw [List.any_eq_false] at hnone
    exact hnone _ hm (beq_self_eq_true _)
  · rw [List.getElem?_eq_none (Nat.le_of_eq hlen)] at hph
    cases hph

/-! ## A connection that stays -/

/-- Device `d` was revoked; an event was appended for it. -/
def Obs.revokes (d : DeviceID) : Obs → Bool
  | .revoked id => id == d.val
  | _ => false

def Obs.appendedBy (d : DeviceID) : Obs → Bool
  | .appended (.command _ dev _) _ => dev == d
  | _ => false

/-- A test for the failure of the cut: an append for `d` after a revocation. -/
theorem not_revocationCutsOff {d : DeviceID} {tr : List Obs}
    (happ : (tr.dropWhile fun o => !o.revokes d).any (Obs.appendedBy d) = true)
    (hno : (tr.dropWhile fun o => !o.revokes d).any (Obs.issuedDevice d) = false) :
    ¬ RevocationCutsOff d tr := by
  intro hcut
  have hsplit := (List.takeWhile_append_dropWhile (p := fun o => !o.revokes d) (l := tr)).symm
  have hhead : ∀ x q, tr.dropWhile (fun o => !o.revokes d) = x :: q → x = .revoked d.val := by
    intro x q hx
    have hr := List.head_dropWhile_not (fun o : Obs => !o.revokes d) (l := tr)
      (by rw [hx]; exact List.cons_ne_nil _ _)
    simp only [hx, List.head_cons, Bool.not_eq_false'] at hr
    cases x with
    | revoked id =>
      rw [eq_of_beq hr]
    | _ => cases hr
  generalize tr.dropWhile (fun o => !o.revokes d) = r at happ hno hsplit hhead
  cases r with
  | nil => cases happ
  | cons x q =>
    obtain rfl := hhead x q rfl
    obtain ⟨o, ho, hby⟩ := List.any_eq_true.mp happ
    cases o with
    | appended wr ev =>
      cases wr with
      | ingest => cases hby
      | command c dev key =>
        obtain rfl : dev = d := eq_of_beq hby
        refine (hcut _ q hsplit fun c token cred hm => ?_).1 c key ev ?_
        · rw [List.any_eq_false] at hno
          exact hno _ (List.mem_cons_of_mem _ hm) (beq_self_eq_true _)
        · rcases List.mem_cons.mp ho with he | hm
          · cases he
          · exact hm
    | _ => cases hby

/-- The phone is connected when it is revoked, and prompts afterwards. -/
def keptServing : List Action :=
  Sample.connect 0 "phone-secret" 0 ++ [.pairRevoke Sample.phone.val,
    .conn 0 (Sample.command "p1" .sendPrompt [("text", .str "rm -rf build")])] ++ Sample.handle 0 [0]

/-- Its prompt is appended and handed to the agent, and the event is sent to it. -/
theorem keptServing_serves :
    ∃ tr w, (system Sample.config).Run Lts.Free [] Sample.start tr w ∧
      ¬ RevocationCutsOff Sample.phone tr := by
  have hexec : ∃ tr, ((system Sample.config).exec (fun _ _ _ => true) [] Sample.start
      keptServing).map Prod.fst = some tr ∧
      (tr.dropWhile fun o => !o.revokes Sample.phone).any (Obs.appendedBy Sample.phone) = true ∧
      (tr.dropWhile fun o => !o.revokes Sample.phone).any (Obs.issuedDevice Sample.phone) = false :=
    ⟨_, rfl, by decide, by decide⟩
  obtain ⟨tr, he, happ, hno⟩ := hexec
  obtain ⟨w, hr⟩ := Lts.run_of_exec_trace (fun _ _ _ _ => trivial) he
  exact ⟨tr, w, hr, not_revocationCutsOff happ hno⟩

end Harness.Hub
