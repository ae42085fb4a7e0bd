/-
# Harness.Client.Stream — the stream on the screen is the fold of a log prefix.

Items, usage and the turn marker grow by events only: a snapshot leaves them alone unless it is of
another session, and then they start over, as they do after a full resync. `handleEvent` lets through
exactly the next event of the log, whatever arrives, on whatever socket, so the stream is at every
moment that of a client that applied the first `lastSeq` events once, in order.

The one thing that also depends on snapshots is `byName`, the device names having come from there.
`Item.unnamed` blanks it, and every operation on the item list commutes with the blanking.
-/
import Harness.Client.Convergence
import Harness.Client.Inversion

namespace Harness.Client

open Lib
open Wire (HostLog HostBody HostEvent)

/-! ## Items up to attribution -/

def Resolution.unnamed (r : Resolution) : Resolution := { r with byName := .text [] }

def AnsweredQuestion.unnamed (r : AnsweredQuestion) : AnsweredQuestion := { r with byName := .text [] }

def ItemBody.unnamed : ItemBody → ItemBody
  | .permission r kind summary resolved => .permission r kind summary (resolved.map (·.unnamed))
  | .question q text resolved => .question q text (resolved.map (·.unnamed))
  | b => b

def Item.unnamed (item : Item) : Item := { item with body := item.body.unnamed }

def unnamed (items : List Item) : List Item := items.map Item.unnamed

@[simp] theorem unnamed_append (xs ys : List Item) : unnamed (xs ++ ys) = unnamed xs ++ unnamed ys :=
  List.map_append

theorem unnamed_getLast? (items : List Item) :
    (unnamed items).getLast? = items.getLast?.map Item.unnamed := List.getLast?_map

theorem unnamed_dropLast (items : List Item) : (unnamed items).dropLast = unnamed items.dropLast :=
  List.map_dropLast.symm

theorem openAssistant_unnamed (items : List Item) :
    openAssistant (unnamed items) = (openAssistant items).map fun p => (p.1.unnamed, p.2) := by
  unfold openAssistant
  rw [unnamed_getLast?]
  cases items.getLast? with
  | none => rfl
  | some last =>
      obtain ⟨id, seq, ts, body⟩ := last
      cases body with
      | assistant text sealed => cases sealed <;> rfl
      | _ => rfl

theorem sealOpenAssistant_unnamed (items : List Item) :
    sealOpenAssistant (unnamed items) = unnamed (sealOpenAssistant items) := by
  unfold sealOpenAssistant
  rw [openAssistant_unnamed]
  cases openAssistant items with
  | none => rfl
  | some p =>
      rw [unnamed_append, ← unnamed_dropLast]
      rfl

theorem appendAssistant_unnamed (items : List Item) (seq : ℚ) (ts : JsValue) (content : String) :
    appendAssistant (unnamed items) seq ts content = unnamed (appendAssistant items seq ts content) := by
  unfold appendAssistant
  rw [openAssistant_unnamed]
  cases openAssistant items with
  | none => rw [Option.map_none, unnamed_append]; rfl
  | some p =>
      rw [unnamed_append, ← unnamed_dropLast]
      rfl

theorem finishTool_unnamed (name : String) (output : Option String) (items : List Item) :
    finishTool name output (unnamed items) = (finishTool name output items).map unnamed := by
  induction items with
  | nil => rfl
  | cons item rest ih =>
      have hcons : unnamed (item :: rest) = item.unnamed :: unnamed rest := rfl
      rw [hcons, finishTool, finishTool, ih]
      cases finishTool name output rest with
      | some rest' => rfl
      | none =>
          obtain ⟨id, seq, ts, body⟩ := item
          cases body with
          | tool n input out done =>
              cases done with
              | true => rfl
              | false =>
                  show (if n = name then _ else _) = Option.map unnamed (if n = name then _ else _)
                  split <;> rfl
          | _ => rfl

@[simp] theorem isNotice_unnamed (item : Item) : item.unnamed.isNotice = item.isNotice := by
  obtain ⟨id, seq, ts, body⟩ := item
  cases body <;> rfl

theorem dropNotices_unnamed (n : Nat) (items : List Item) :
    dropNotices n (unnamed items) = unnamed (dropNotices n items) := by
  induction items generalizing n with
  | nil => cases n <;> rfl
  | cons item rest ih =>
      cases n with
      | zero => rfl
      | succ n =>
          show dropNotices (n + 1) (item.unnamed :: unnamed rest) = _
          rw [dropNotices, dropNotices, isNotice_unnamed]
          split
          · exact ih n
          · rw [ih (n + 1)]
            rfl

theorem pushNotice_unnamed (items : List Item) (seq : ℚ) (ts : JsValue) (text : String)
    (level : NoticeLevel) :
    pushNotice (unnamed items) seq ts text level = unnamed (pushNotice items seq ts text level) := by
  have hnew : unnamed items ++ [⟨.notice seq, seq, ts, .notice text level⟩] =
      unnamed (items ++ [⟨.notice seq, seq, ts, .notice text level⟩]) := by
    rw [unnamed_append]
    rfl
  have hcount : ∀ xs : List Item, (unnamed xs).countP Item.isNotice = xs.countP Item.isNotice := by
    intro xs
    rw [unnamed, List.countP_map]
    exact List.countP_congr fun item _ => by simp
  unfold pushNotice
  simp only
  rw [hnew, hcount, dropNotices_unnamed]

theorem any_isPermission_unnamed (r : String) (items : List Item) :
    ((unnamed items).any (·.isPermission r)) = items.any (·.isPermission r) := by
  rw [unnamed, List.any_map]
  refine congrArg (items.any ·) (funext fun item => ?_)
  obtain ⟨id, seq, ts, body⟩ := item
  cases body <;> rfl

theorem any_isQuestion_unnamed (q : String) (items : List Item) :
    ((unnamed items).any (·.isQuestion q)) = items.any (·.isQuestion q) := by
  rw [unnamed, List.any_map]
  refine congrArg (items.any ·) (funext fun item => ?_)
  obtain ⟨id, seq, ts, body⟩ := item
  cases body <;> rfl

/-- The name in a resolution is lost, the rest of it is not. -/
theorem resolvePermission_unnamed (r : String) (res : Resolution) (items : List Item) :
    unnamed (items.map (resolvePermission r res)) =
      (unnamed items).map (resolvePermission r res.unnamed) := by
  simp only [unnamed, List.map_map]
  refine List.map_congr_left fun item _ => ?_
  obtain ⟨id, seq, ts, body⟩ := item
  cases body with
  | permission r' kind summary resolved =>
      simp only [Function.comp, resolvePermission, Item.unnamed, ItemBody.unnamed]
      split <;> rfl
  | _ => rfl

theorem resolveQuestion_unnamed (q : String) (res : AnsweredQuestion) (items : List Item) :
    unnamed (items.map (resolveQuestion q res)) =
      (unnamed items).map (resolveQuestion q res.unnamed) := by
  simp only [unnamed, List.map_map]
  refine List.map_congr_left fun item _ => ?_
  obtain ⟨id, seq, ts, body⟩ := item
  cases body with
  | question q' text resolved =>
      simp only [Function.comp, resolveQuestion, Item.unnamed, ItemBody.unnamed]
      split <;> rfl
  | _ => rfl

/-! ## The stream -/

/-- **`SameStream s t`** — the two states show the same stream, up to attribution. -/
structure SameStream (s t : SessionState) : Prop where
  items : unnamed s.items = unnamed t.items
  usage : s.usage = t.usage
  turnActive : s.turnActive = t.turnActive

/-- An item that is added unless one of its id is there. -/
theorem unnamed_add {found : Item → Bool} (hfound : ∀ xs, (unnamed xs).any found = xs.any found)
    {xs ys : List Item} (h : unnamed xs = unnamed ys) (item : Item) :
    unnamed (if xs.any found then xs else xs ++ [item]) =
      unnamed (if ys.any found then ys else ys ++ [item]) := by
  have hsame : xs.any found = ys.any found := by rw [← hfound xs, h, hfound ys]
  rw [hsame]
  split
  · exact h
  · rw [unnamed_append, unnamed_append, h]

theorem SameStream.refl (s : SessionState) : SameStream s s := ⟨rfl, rfl, rfl⟩

/-- A host event moves equal streams to equal streams. -/
theorem SameStream.applyBody {s t : SessionState} (h : SameStream s t) (seq : ℚ) (ts : JsValue)
    (b : HostBody) : SameStream (applyBody s seq ts b) (applyBody t seq ts b) := by
  cases b with
  | userPrompt b =>
      refine ⟨?_, h.usage, rfl⟩
      show unnamed (sealOpenAssistant s.items ++ _) = unnamed (sealOpenAssistant t.items ++ _)
      rw [unnamed_append, unnamed_append, ← sealOpenAssistant_unnamed, ← sealOpenAssistant_unnamed,
        h.items]
  | textDelta b =>
      rw [Client.applyBody, Client.applyBody]
      split
      · exact ⟨h.items, h.usage, h.turnActive⟩
      · refine ⟨?_, h.usage, h.turnActive⟩
        show unnamed (appendAssistant ..) = unnamed (appendAssistant ..)
        rw [← appendAssistant_unnamed, ← appendAssistant_unnamed, h.items]
  | toolCallStart b =>
      refine ⟨?_, h.usage, h.turnActive⟩
      show unnamed (s.items ++ _) = unnamed (t.items ++ _)
      rw [unnamed_append, unnamed_append, h.items]
  | toolCallEnd b =>
      refine ⟨?_, h.usage, h.turnActive⟩
      have hgetD : ∀ (o : Option (List Item)) (xs : List Item),
          unnamed (o.getD xs) = (o.map unnamed).getD (unnamed xs) := by
        intro o xs
        cases o <;> rfl
      show unnamed (Option.getD ..) = unnamed (Option.getD ..)
      rw [hgetD, hgetD, ← finishTool_unnamed, ← finishTool_unnamed, unnamed_append, unnamed_append,
        h.items]
  | permissionRequest b =>
      rw [Client.applyBody, Client.applyBody]
      split
      · exact ⟨h.items, h.usage, h.turnActive⟩
      · refine ⟨?_, h.usage, h.turnActive⟩
        exact unnamed_add (any_isPermission_unnamed b.requestID) h.items _
  | question b =>
      rw [Client.applyBody, Client.applyBody]
      split
      · exact ⟨h.items, h.usage, h.turnActive⟩
      · refine ⟨?_, h.usage, h.turnActive⟩
        exact unnamed_add (any_isQuestion_unnamed b.questionID) h.items _
  | permissionResolved b =>
      refine ⟨?_, h.usage, h.turnActive⟩
      show unnamed (s.items.map _) = unnamed (t.items.map _)
      rw [resolvePermission_unnamed, resolvePermission_unnamed, h.items]
      rfl
  | questionResolved b =>
      refine ⟨?_, h.usage, h.turnActive⟩
      show unnamed (s.items.map _) = unnamed (t.items.map _)
      rw [resolveQuestion_unnamed, resolveQuestion_unnamed, h.items]
      rfl
  | modeChanged b _ => exact ⟨h.items, h.usage, h.turnActive⟩
  | turnComplete =>
      refine ⟨?_, h.usage, rfl⟩
      show unnamed (sealOpenAssistant s.items) = unnamed (sealOpenAssistant t.items)
      rw [← sealOpenAssistant_unnamed, ← sealOpenAssistant_unnamed, h.items]
  | statusChange b => exact ⟨h.items, h.usage, rfl⟩
  | usageUpdate b => exact ⟨h.items, rfl, h.turnActive⟩
  | error message =>
      refine ⟨?_, h.usage, h.turnActive⟩
      show unnamed (pushNotice ..) = unnamed (pushNotice ..)
      rw [← pushNotice_unnamed, ← pushNotice_unnamed, h.items]

theorem SameStream.applyEvent {s t : SessionState} (h : SameStream s t) {ev : Wire.EventPayload}
    (hev : HostEvent ev) : SameStream (applyEvent s (received ev)) (applyEvent t (received ev)) := by
  obtain ⟨b, hk, hp⟩ := hev
  rw [applyEvent_received s hk hp, applyEvent_received t hk hp]
  exact h.applyBody _ _ b

/-- A snapshot leaves the stream and the position alone, or starts them over. -/
theorem applySnapshot_cases (s : SessionState) (snap : JsRecord) :
    (SameStream (applySnapshot s snap) s ∧ (applySnapshot s snap).lastSeq = s.lastSeq) ∨
      (SameStream (applySnapshot s snap) newSessionState ∧ (applySnapshot s snap).lastSeq = 0) := by
  have hbase : SameStream (applySnapshot s snap) (snapshotBase s snap) ∧
      (applySnapshot s snap).lastSeq = (snapshotBase s snap).lastSeq := ⟨⟨rfl, rfl, rfl⟩, rfl⟩
  unfold snapshotBase at hbase
  split at hbase
  · exact .inr hbase
  · exact .inl hbase

/-! ## The client -/

/-- **`Feeds L`** — the guard of the runs considered: every event frame the client reads is an event of
`L`, and the application does not move `lastSeq`. Nothing is asked of snapshots, of other frames, of
the order in which events arrive or of the socket they arrive on. -/
def Feeds (L : HostLog) (_ : List Obs) (c : HarnessClient) (a : Action) : Prop :=
  (∀ seq, a ≠ .setLastSeq seq) ∧
    ∀ ev, Delivered c a (.event ev) → ∃ e ∈ L.events, ev = eventMembers e

/-- **`Along L s`** — the stream of `s` is the fold of the events up to its position. -/
def Along (L : HostLog) (s : SessionState) : Prop :=
  ∃ n ≤ L.length, s.lastSeq = n ∧ SameStream s (applyAll newSessionState (L.events.take n))

theorem along_new (L : HostLog) : Along L newSessionState :=
  ⟨0, Nat.zero_le _, rfl, .refl _⟩

theorem Along.applySnapshot {L : HostLog} {s : SessionState} (h : Along L s) (snap : JsRecord) :
    Along L (applySnapshot s snap) := by
  obtain ⟨n, hn, hseq, hst⟩ := h
  rcases applySnapshot_cases s snap with ⟨hsame, hlast⟩ | ⟨hsame, hlast⟩
  · exact ⟨n, hn, hlast.trans hseq, ⟨hsame.items.trans hst.items, hsame.usage.trans hst.usage,
      hsame.turnActive.trans hst.turnActive⟩⟩
  · exact ⟨0, Nat.zero_le _, hlast, hsame⟩

/-- The event the seq check lets through is the next one of the log. -/
theorem next_of_log {L : HostLog} {n : Nat} {e : Wire.EventPayload} (he : e ∈ L.events) {q : ℚ}
    (hq : HarnessClient.seqOf (eventMembers e) = .finite q) (hgt : (n : ℚ) < q) (hle : q ≤ n + 1) :
    ∃ h : n < L.events.length, e = L.events[n] ∧ q = e.seq := by
  obtain ⟨i, hi, rfl⟩ := List.getElem_of_mem he
  have hnum := L.numbered i hi
  have hlt : i < 2 ^ 63 := Nat.lt_trans hi L.int64
  have hsmall : L.events[i].seq < 2 ^ 63 := by
    rw [hnum]
    exact Nat.lt_of_le_of_lt hi L.int64
  rw [seqOf_eventMembers hsmall] at hq
  obtain rfl : (L.events[i].seq : ℚ) = q := by injection hq
  have hin : i = n := by
    have h1 : n < L.events[i].seq := by exact_mod_cast hgt
    have h2 : L.events[i].seq ≤ n + 1 := by exact_mod_cast hle
    omega
  subst hin
  exact ⟨hi, rfl, rfl⟩

theorem take_succ_log (L : HostLog) {n : Nat} (h : n < L.events.length) :
    L.events.take (n + 1) = L.events.take n ++ [L.events[n]] := (List.take_append_getElem h).symm

theorem Along.next {L : HostLog} {s : SessionState} (h : Along L s) {e : Wire.EventPayload}
    (he : e ∈ L.events) {q : ℚ} (hq : HarnessClient.seqOf (eventMembers e) = .finite q)
    (hgt : s.lastSeq < q) (hle : q ≤ s.lastSeq + 1) :
    Along L (applyEvent s (HarnessClient.eventOf (eventMembers e) q)) := by
  obtain ⟨n, hn, hseq, hst⟩ := h
  rw [hseq] at hgt hle
  obtain ⟨hlt, rfl, rfl⟩ := next_of_log he hq hgt hle
  rw [eventOf_eventMembers]
  refine ⟨n + 1, hlt, ?_, ?_⟩
  · rw [applyEvent_lastSeq]
    show ((L.events[n].seq : Nat) : ℚ) = _
    rw [L.numbered n hlt]
  · have hfold : applyAll newSessionState (L.events.take (n + 1)) =
        applyEvent (applyAll newSessionState (L.events.take n)) (received L.events[n]) := by
      rw [take_succ_log L hlt]
      exact List.foldl_append
    rw [hfold]
    exact hst.applyEvent (L.bodies _ (List.getElem_mem hlt))

/-- One turn keeps the stream on the log. -/
theorem along_step {L : HostLog} {tr os : List Obs} {c c' : HarnessClient} {a : Action}
    (hmax : c.maxItems = none) (h : Along L c.session) (hP : Feeds L tr c a)
    (hs : system.step c a = some (c', os)) : c'.maxItems = none ∧ Along L c'.session := by
  obtain ⟨d, ht, rfl, -⟩ := HarnessClient.step_trans c hs
  refine ⟨ht.maxItems.trans hmax, ?_⟩
  show Along L d.session
  cases ht with
  | silent h' => rw [h'.session]; exact h
  | renewed h' => rw [h'.session]; exact along_new L
  | restored ha => exact absurd ha (hP.1 _)
  | issued _ _ _ hs' => rw [hs']; exact h
  | accepted _ _ hs' => rw [hs']; exact h.applySnapshot _
  | applied ha hq hgt hle _ hs' =>
      obtain ⟨e, he, rfl⟩ := hP.2 _ ha
      have hnext := h.next he hq hgt hle
      rw [hs', HarnessClient.nextSession_of_none (c := { c with out := [] }) hmax]
      exact hnext
  | discarded _ _ hc => rw [hc]; exact h
  | settled _ _ _ hc => rw [hc]; exact h
  | orphaned _ _ _ _ hc => rw [hc]; exact h

/-- **The client's stream is the fold of a log prefix**, whatever is connected, lost, repeated and
resynchronised on the way. -/
theorem stream_is_fold {L : HostLog} {url : String} {authMode : AuthMode} {identity : Option Identity}
    {tr : List Obs} {c : HarnessClient}
    (h : system.Run (Feeds L) [] (.new url authMode identity none) tr c) :
    ∃ n ≤ L.length, c.session.lastSeq = n ∧
      SameStream c.session (applyAll newSessionState (L.events.take n)) := by
  have hinv := h.invariant (I := fun _ c => c.maxItems = none ∧ Along L c.session)
    ⟨rfl, along_new L⟩ fun t u a u' os _ ih hP hs => along_step ih.1 ih.2 hP hs
  exact hinv.2

theorem feeds_call {L : HostLog} {tr : List Obs} {c : HarnessClient} {a : Action}
    (hseq : ∀ seq, a ≠ .setLastSeq seq) (hmsg : ∀ i data env, a ≠ .message i data env) :
    Feeds L tr c a :=
  ⟨hseq, fun _ h => absurd h (not_delivered hmsg)⟩

theorem feeds_hostFrame {L : HostLog} {tr : List Obs} {c : HarnessClient} {i : SocketId}
    {e : Wire.Envelope} (h : ∀ ev, e = .event ev → ev ∈ L.events) : Feeds L tr c (hostFrame i e) := by
  refine ⟨fun _ => nofun, ?_⟩
  rintro f ⟨j, data, env, s, e', ha, -, -, -, -, hparse, hin⟩
  cases ha
  have hin' : inboundOf e = .event f := (inbound_of_parse hparse).trans hin
  cases e with
  | event ev =>
      cases hin'
      exact ⟨ev, h ev rfl, rfl⟩
  | _ => cases hin'

namespace Sample

/-- A client of `log` that is fed an event twice, skips one, and connects again. -/
def bumpyRide : List Action :=
  [.connect none {}, .opened 0,
    hostFrame 0 (.snapshot ⟨"session", "idle", "", 2, [], [], []⟩),
    hostFrame 0 (.event requested), hostFrame 0 (.event requested),
    hostFrame 0 (.event planned), .timer {}, .opened 1, .connect none {},
    hostFrame 1 (.event granted)]

def client : HarnessClient := .new "wss://host:7432/ws" .hello none none

end Sample

theorem stream_is_fold_bumpyRide :
    ∃ tr c, system.Run (Feeds Sample.log) [] Sample.client tr c ∧ c.session.lastSeq = 2 ∧
      ∃ n ≤ Sample.log.length, c.session.lastSeq = n ∧
        SameStream c.session (applyAll newSessionState (Sample.log.events.take n)) := by
  have hexec : ((system.exec (fun _ _ _ => true) [] Sample.client Sample.bumpyRide).map
      fun r => r.2.session.lastSeq) = some 2 := by decide +kernel
  obtain ⟨r, hr, hlast⟩ := Option.map_eq_some_iff.mp hexec
  have hrun : system.Run (Feeds Sample.log) [] Sample.client r.1 r.2 := by
    refine Lts.run_of_exec_forall (fun a ha t u => ?_) hr
    simp only [Sample.bumpyRide, List.mem_cons, List.not_mem_nil, or_false] at ha
    have hframe : ∀ i k (hk : k < Sample.log.events.length),
        Feeds Sample.log t u (hostFrame i (.event Sample.log.events[k])) := fun i k hk =>
      feeds_hostFrame fun ev h => by cases h; exact List.getElem_mem hk
    rcases ha with rfl | rfl | rfl | rfl | rfl | rfl | rfl | rfl | rfl | rfl
    · exact feeds_call (fun _ => nofun) (fun _ _ _ => nofun)
    · exact feeds_call (fun _ => nofun) (fun _ _ _ => nofun)
    · exact feeds_hostFrame fun ev => nofun
    · exact hframe 0 0 (by decide)
    · exact hframe 0 0 (by decide)
    · exact hframe 0 2 (by decide)
    · exact feeds_call (fun _ => nofun) (fun _ _ _ => nofun)
    · exact feeds_call (fun _ => nofun) (fun _ _ _ => nofun)
    · exact feeds_call (fun _ => nofun) (fun _ _ _ => nofun)
    · exact hframe 1 1 (by decide)
  exact ⟨r.1, r.2, hrun, hlast, stream_is_fold hrun⟩

end Harness.Client
