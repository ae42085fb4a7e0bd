/-
# Harness.Client.Attribution — who resolved a request, as each client shows it.

The log names the device that resolved a request by its id. The name beside the id is looked up when the
event is applied, in the devices that came with the snapshots accepted so far, and is never looked up
again: a client that connected before a device was paired keeps showing the first characters of its id.

Apart from the names a client's items are a fold of the log (`Harness.Client.Stream`). `same_items` adds
the names: two clients of one log show the same items at the same position, whenever they connect, when
each of them finds the same entry for a device at every resolution it applies.
-/
import Harness.Client.Items
import Harness.Client.Stream

namespace Harness.Client

open Lib
open Wire (HostLog)

/-! ## Names -/

/-- The device an event names as the one that resolved a request. -/
def EventPayload.resolver (ev : EventPayload) : Option String :=
  match eventKind ev.kind with
  | .permissionResolved | .questionResolved => some (asString (ev.body.get "byDevice") "")
  | _ => none

/-- `nameFor` on a fixed table of device names. -/
def attribution (names : String → Option String) (deviceId : String) : Attribution :=
  if deviceId = "" then .text (utf16 "unknown")
  else
    match names deviceId with
    | some name => .text (utf16 name)
    | none =>
        if deviceId ∈ inheritedMembers then .inherited deviceId
        else .text ((utf16 deviceId).take 8)

theorem nameFor_eq (s : SessionState) {names : String → Option String} {deviceId : String}
    (h : deviceId ≠ "" → s.deviceNames.get deviceId = names deviceId) :
    nameFor s deviceId = attribution names deviceId := by
  by_cases hd : deviceId = ""
  · simp [nameFor, attribution, hd]
  · have hget := h hd
    cases hname : names deviceId with
    | some name => simp [nameFor, attribution, hd, hget, hname]
    | none => simp [nameFor, attribution, hd, hget, hname]

/-- Only the name of the resolver is looked up. -/
theorem itemOp_congr {name name' : String → Attribution} {ev : EventPayload}
    (h : ∀ d, ev.resolver = some d → name d = name' d) : itemOp name ev = itemOp name' ev := by
  unfold EventPayload.resolver at h
  unfold itemOp EventPayload.reading
  cases hk : eventKind ev.kind with
  | permissionResolved =>
      rw [hk] at h
      simp only [Reading.itemOp, h _ rfl]
  | questionResolved =>
      rw [hk] at h
      simp only [Reading.itemOp, h _ rfl]
  | _ => rfl

/-- The items of a log under a table of names. -/
def itemsOf (names : String → Option String) (evs : List Wire.EventPayload) : List Item :=
  evs.foldl (fun items ev => (itemOp (attribution names) (received ev)).run items) []

theorem itemsOf_concat (names : String → Option String) (evs : List Wire.EventPayload)
    (ev : Wire.EventPayload) :
    itemsOf names (evs ++ [ev]) = (itemOp (attribution names) (received ev)).run (itemsOf names evs) :=
  List.foldl_concat ..

/-! ## Runs -/

/-- **`Known names tr c a`** — if the turn applies a resolution, the client has the entry of `names` for
the device that made it. -/
def Known (names : String → Option String) (_ : List Obs) (c : HarnessClient) (a : Action) : Prop :=
  ∀ ev, Delivered c a (.event ev) → ∀ q, HarnessClient.seqOf ev = .finite q →
    c.session.lastSeq < q → q ≤ c.session.lastSeq + 1 →
    ∀ d, (HarnessClient.eventOf ev q).resolver = some d → d ≠ "" →
      c.session.deviceNames.get d = names d

/-- **`Displays L names s`** — the items are those of the log up to the client's position. -/
def Displays (L : HostLog) (names : String → Option String) (s : SessionState) : Prop :=
  ∃ n ≤ L.length, s.lastSeq = n ∧ s.items = itemsOf names (L.events.take n)

theorem displays_new (L : HostLog) (names : String → Option String) :
    Displays L names newSessionState := ⟨0, Nat.zero_le _, rfl, rfl⟩

theorem Displays.applySnapshot {L : HostLog} {names : String → Option String} {s : SessionState}
    (h : Displays L names s) (snap : JsRecord) : Displays L names (Client.applySnapshot s snap) := by
  have hbase : Displays L names (snapshotBase s snap) := by
    unfold snapshotBase
    split
    · exact displays_new L names
    · exact h
  exact hbase

theorem Displays.next {L : HostLog} {names : String → Option String} {s : SessionState}
    (h : Displays L names s) {e : Wire.EventPayload} (he : e ∈ L.events) {q : ℚ}
    (hq : HarnessClient.seqOf (eventMembers e) = .finite q) (hgt : s.lastSeq < q)
    (hle : q ≤ s.lastSeq + 1)
    (hname : ∀ d, (HarnessClient.eventOf (eventMembers e) q).resolver = some d → d ≠ "" →
      s.deviceNames.get d = names d) :
    Displays L names (applyEvent s (HarnessClient.eventOf (eventMembers e) q)) := by
  obtain ⟨n, hn, hseq, hitems⟩ := h
  rw [hseq] at hgt hle
  obtain ⟨hlt, rfl, rfl⟩ := next_of_log he hq hgt hle
  rw [eventOf_eventMembers] at hname ⊢
  refine ⟨n + 1, hlt, ?_, ?_⟩
  · rw [applyEvent_lastSeq]
    show ((L.events[n].seq : Nat) : ℚ) = _
    rw [L.numbered n hlt]
  · rw [applyEvent_items, take_succ_log L hlt, itemsOf_concat, hitems]
    exact congrArg (ItemOp.run _) (itemOp_congr fun d hd => nameFor_eq s (hname d hd))

/-- One turn. -/
theorem displays_step {L : HostLog} {names : String → Option String} {tr os : List Obs}
    {c c' : HarnessClient} {a : Action} (hmax : c.maxItems = none) (h : Displays L names c.session)
    (hfeeds : Feeds L tr c a) (hknown : Known names tr c a) (hs : system.step c a = some (c', os)) :
    c'.maxItems = none ∧ Displays L names c'.session := by
  obtain ⟨d, ht, rfl, -⟩ := HarnessClient.step_trans c hs
  refine ⟨ht.maxItems.trans hmax, ?_⟩
  show Displays L names d.session
  cases ht with
  | silent h' => rw [h'.session]; exact h
  | renewed h' => rw [h'.session]; exact displays_new L names
  | restored ha => exact absurd ha (hfeeds.1 _)
  | issued _ _ _ hs' => rw [hs']; exact h
  | accepted _ _ hs' => rw [hs']; exact h.applySnapshot _
  | applied ha hq hgt hle _ hs' =>
      obtain ⟨e, he, rfl⟩ := hfeeds.2 _ ha
      have hnext := h.next he hq hgt hle (hknown _ ha _ hq hgt hle)
      rw [hs', HarnessClient.nextSession_of_none (c := { c with out := [] }) hmax]
      exact hnext
  | discarded _ _ hc => rw [hc]; exact h
  | settled _ _ _ hc => rw [hc]; exact h
  | orphaned _ _ _ _ hc => rw [hc]; exact h

/-- A run in which every resolver is known shows the items of the log. -/
theorem displays_run {L : HostLog} {names : String → Option String} {url : String} {authMode : AuthMode}
    {identity : Option Identity} {tr : List Obs} {c : HarnessClient}
    (h : system.Run (fun tr c a => Feeds L tr c a ∧ Known names tr c a) []
      (.new url authMode identity none) tr c) : Displays L names c.session := by
  have hinv := h.invariant (I := fun _ c => c.maxItems = none ∧ Displays L names c.session)
    ⟨rfl, displays_new L names⟩ fun t u a u' os _ ih hP hs => displays_step ih.1 ih.2 hP.1 hP.2 hs
  exact hinv.2

/-- **When all screens show the same stream.** Two clients of one log without a bound, each connected,
lost and connected again at any time, show the same items whenever they are at the same position, if at
every resolution that one of them applies it has the entry of `names` for the device that resolved. -/
theorem same_items (L : HostLog) (names : String → Option String) (url url' : String)
    (authMode authMode' : AuthMode) (identity identity' : Option Identity) (tr tr' : List Obs)
    (c c' : HarnessClient)
    (h : system.Run (fun tr c a => Feeds L tr c a ∧ Known names tr c a) []
      (.new url authMode identity none) tr c)
    (h' : system.Run (fun tr c a => Feeds L tr c a ∧ Known names tr c a) []
      (.new url' authMode' identity' none) tr' c')
    (hseq : c.session.lastSeq = c'.session.lastSeq) : c.session.items = c'.session.items := by
  obtain ⟨n, -, hn, hitems⟩ := displays_run h
  obtain ⟨m, -, hm, hitems'⟩ := displays_run h'
  have hnm : n = m := by
    rw [hn, hm] at hseq
    exact_mod_cast hseq
  rw [hitems, hitems', hnm]

theorem known_call {names : String → Option String} {tr : List Obs} {c : HarnessClient} {a : Action}
    (hmsg : ∀ i data env, a ≠ .message i data env) : Known names tr c a :=
  fun _ h => absurd h (not_delivered hmsg)

theorem known_hostFrame {names : String → Option String} {tr : List Obs} {c : HarnessClient} {i : SocketId}
    {e : Wire.Envelope}
    (h : ∀ ev, e = .event ev → ev.seq < 2 ^ 63 ∧ ((ev.seq : ℚ) ≤ c.session.lastSeq + 1 →
      ∀ d, (received ev).resolver = some d → c.session.deviceNames.get d = names d)) :
    Known names tr c (hostFrame i e) := by
  intro f hf q hq _ hle d hd _
  have hin : inboundOf e = .event f := delivered_arrives hf
  cases e with
  | event ev =>
      cases hin
      obtain ⟨hsmall, hknown⟩ := h ev rfl
      rw [seqOf_eventMembers hsmall] at hq
      cases hq
      exact hknown hle d hd
  | _ => cases hin

namespace Sample

/-- A client that is sent a snapshot with these devices, and then the log. -/
def visit (devices : List Wire.DeviceView) : List Action :=
  [.connect none {}, .opened 0,
    hostFrame 0 (.snapshot ⟨"session", "idle", "", 3, [], [], devices⟩),
    hostFrame 0 (.event requested), hostFrame 0 (.event granted), hostFrame 0 (.event planned)]

/-- It connected after the phone was paired. -/
def late : List Action := visit [⟨Hub.Sample.phone, "Pixel 8"⟩]

/-- The names in the resolutions of permissions. -/
def byNames (items : List Item) : List Attribution :=
  items.filterMap fun item =>
    match item.body with
    | .permission _ _ _ (some r) => some r.byName
    | _ => none

theorem feeds_visit (devices : List Wire.DeviceView) (tr : List Obs) (c : HarnessClient) :
    ∀ a ∈ visit devices, Feeds log tr c a := by
  have hframe : ∀ k (hk : k < log.events.length),
      Feeds log tr c (hostFrame 0 (.event log.events[k])) := fun k hk =>
    feeds_hostFrame fun ev h => by cases h; exact List.getElem_mem hk
  intro a ha
  simp only [visit, List.mem_cons, List.not_mem_nil, or_false] at ha
  rcases ha with rfl | rfl | rfl | rfl | rfl | rfl
  · exact feeds_call (fun _ => nofun) (fun _ _ _ => nofun)
  · exact feeds_call (fun _ => nofun) (fun _ _ _ => nofun)
  · exact feeds_hostFrame fun ev => nofun
  · exact hframe 0 (by decide)
  · exact hframe 1 (by decide)
  · exact hframe 2 (by decide)

/-- The names of the late client. -/
def phoneName (d : String) : Option String := if d = Hub.Sample.phone.val then some "Pixel 8" else none

/-- Whether it has them, past the first event. -/
def hasName (_ : List Obs) (c : HarnessClient) (_ : Action) : Bool :=
  decide (c.session.lastSeq = 0) ||
    decide (c.session.deviceNames.get Hub.Sample.phone.val = some "Pixel 8")

theorem known_late (tr : List Obs) (c : HarnessClient) :
    ∀ a ∈ late, hasName tr c a = true → Known phoneName tr c a := by
  intro a ha hname
  simp only [late, visit, List.mem_cons, List.not_mem_nil, or_false] at ha
  rcases ha with rfl | rfl | rfl | rfl | rfl | rfl
  · exact known_call (fun _ _ _ => nofun)
  · exact known_call (fun _ _ _ => nofun)
  · exact known_hostFrame fun ev => nofun
  · refine known_hostFrame fun ev h => ?_
    cases h
    exact ⟨by decide, fun _ d hd => by cases hd⟩
  · refine known_hostFrame fun ev h => ?_
    cases h
    refine ⟨by decide, fun hle d hd => ?_⟩
    obtain rfl : Hub.Sample.phone.val = d := Option.some.inj hd
    have hpast : c.session.lastSeq ≠ 0 := by
      intro hzero
      rw [hzero] at hle
      revert hle
      decide +kernel
    rw [hasName, decide_eq_false hpast, Bool.false_or, decide_eq_true_eq] at hname
    rw [hname]
    decide
  · refine known_hostFrame fun ev h => ?_
    cases h
    exact ⟨by decide, fun _ d hd => by cases hd⟩

end Sample

/-- **The early client shows no name for the phone, the late one does.** -/
theorem early_and_late_differ :
    ∃ tr c tr' c', system.Run (Feeds Sample.log) [] Sample.client tr c ∧
      system.Run (Feeds Sample.log) [] Sample.client tr' c' ∧ c.phase = .live ∧ c'.phase = .live ∧
      c.session.lastSeq = c'.session.lastSeq ∧ c.session.items ≠ c'.session.items := by
  have hrun : ∀ devices,
      ((system.exec (fun _ _ _ => true) [] Sample.client (Sample.visit devices)).map
        fun r => (r.2.phase, r.2.session.lastSeq, Sample.byNames r.2.session.items)) =
          some (.live, 3, [if devices = [] then .text ((utf16 Hub.Sample.phone.val).take 8)
            else .text (utf16 "Pixel 8")]) →
      ∃ tr c, system.Run (Feeds Sample.log) [] Sample.client tr c ∧ c.phase = .live ∧
        c.session.lastSeq = 3 ∧ Sample.byNames c.session.items =
          [if devices = [] then .text ((utf16 Hub.Sample.phone.val).take 8)
            else .text (utf16 "Pixel 8")] := by
    intro devices hexec
    obtain ⟨r, hr, heq⟩ := Option.map_eq_some_iff.mp hexec
    have h := Lts.run_of_exec_forall (fun a ha t u => Sample.feeds_visit devices t u a ha) hr
    simp only [Prod.mk.injEq] at heq
    exact ⟨r.1, r.2, h, heq⟩
  obtain ⟨tr, c, h, hlive, hseq, hnames⟩ := hrun [] (by decide +kernel)
  obtain ⟨tr', c', h', hlive', hseq', hnames'⟩ := hrun [⟨Hub.Sample.phone, "Pixel 8"⟩] (by decide +kernel)
  refine ⟨tr, c, tr', c', h, h', hlive, hlive', hseq.trans hseq'.symm, fun heq => ?_⟩
  rw [heq, hnames'] at hnames
  revert hnames
  decide +kernel

/-- Two clients that both connect late. -/
theorem same_items_late :
    ∃ tr c tr' c',
      system.Run (fun tr c a => Feeds Sample.log tr c a ∧ Known Sample.phoneName tr c a) []
        Sample.client tr c ∧
      system.Run (fun tr c a => Feeds Sample.log tr c a ∧ Known Sample.phoneName tr c a) []
        Sample.client tr' c' ∧
      c.session.lastSeq = 3 ∧ c'.session.lastSeq = 3 ∧ c.session.items = c'.session.items := by
  have hexec : ((system.exec Sample.hasName [] Sample.client Sample.late).map
      fun r => r.2.session.lastSeq) = some 3 := by decide +kernel
  obtain ⟨r, hr, hlast⟩ := Option.map_eq_some_iff.mp hexec
  have h : system.Run (fun tr c a => Feeds Sample.log tr c a ∧ Known Sample.phoneName tr c a) []
      Sample.client r.1 r.2 :=
    Lts.run_of_exec_mem (fun a ha t u hok =>
      ⟨Sample.feeds_visit _ t u a ha, Sample.known_late t u a ha hok⟩) hr
  exact ⟨r.1, r.2, r.1, r.2, h, h, hlast, hlast,
    same_items Sample.log Sample.phoneName _ _ _ _ _ _ _ _ _ _ h h rfl⟩

end Harness.Client
