/-
# Harness.Network.Spoken — what waits for the daemon is something it can read.

A command on its way is the one of a request. A hello is made of the identity, which has strings where
`HarnessIdentity` says so if the application keeps to it and where the daemon issued it, and of a position,
which is the number of an event or one the application saved. So every frame on the wire is `Spoken`
(`voiced`).

And a hello is there before anything else: a socket that has not opened has nothing on it, the open event
writes the hello, and commands go out on open sockets. So as long as the daemon has read nothing from a
socket, the first frame on it is a hello (`Opening`).
-/
import Harness.Client.FrameText
import Harness.Client.Identity
import Harness.Network.CaughtUp
import Harness.Network.Meaning

namespace Harness.Client

open Wire (CommandKind)

/-- **`identity.Written`** — its members are strings, as `HarnessIdentity` declares them. -/
structure Identity.Written (identity : Identity) : Prop where
  deviceId : ∃ s, identity.deviceId = .str s
  credential : ∃ s, identity.credential = .str s

/-- An identity the application hands over is a written one. -/
def Action.HandsWritten : Action → Prop
  | .setIdentity identity | .connect identity _ => ∀ id ∈ identity, id.Written
  | _ => True

/-- A `paired` frame issues a written identity. -/
def JsRecord.Issues (p : JsRecord) : Prop := (∃ s, p.get "deviceId" = .str s) ∧ ∃ s, p.get "credential" = .str s

/-- **`c.Literate`** — the identities the client has are written ones. -/
structure HarnessClient.Literate (c : HarnessClient) : Prop where
  identity : ∀ id ∈ c.identity, id.Written
  resumptions : ∀ id ∈ c.resumptions, id.Written

namespace HarnessClient

theorem Literate.keeps {c c' : HarnessClient} (h : c.Literate) (hk : Keeps c c') : c'.Literate where
  identity := by
    rw [hk.identity]
    exact h.identity
  resumptions := by
    rw [hk.resumptions]
    exact h.resumptions

/-- A turn learns an identity from its caller, from a `pair` that goes on, or from the daemon. -/
theorem Literate.turn {c c' : HarnessClient} (h : c.Literate) {a : Action} (ha : a.HandsWritten)
    (hpair : ∀ p, Pairs c a (.paired p) → p.Issues) (ht : c.turn a = some c') : c'.Literate := by
  by_cases hhands : a.Hands
  · cases a with
    | setIdentity identity =>
      cases ht
      exact ⟨ha, h.resumptions⟩
    | connect identity env =>
      cases identity with
      | none => exact absurd hhands id
      | some identity =>
        cases ht
        have hset : Literate
            { c with
              identity := some identity
              closedByUser := false
              gapCount := 0
              retryAttempt := 0
              retryInMs := none
              reconnectTimer := false } := ⟨ha, h.resumptions⟩
        exact hset.keeps (openNormalSocket_keeps _ env)
    | resume env =>
      obtain rfl := of_turn_resume ht
      cases hres : c.resumptions with
      | nil =>
        unfold resumePair
        rw [hres]
        exact h
      | cons issued rest =>
        obtain ⟨hid, hrest⟩ := resumePair_identity hres env
        have hall : ∀ id ∈ issued :: rest, id.Written := hres ▸ h.resumptions
        refine ⟨?_, ?_⟩
        · rw [hid]
          rintro id he
          cases he
          exact hall issued List.mem_cons_self
        · rw [hrest]
          exact fun id hm => hall id (List.mem_cons_of_mem issued hm)
    | _ => exact absurd hhands id
  · by_cases hp : ∃ p, Pairs c a (.paired p)
    · obtain ⟨p, hp⟩ := hp
      obtain ⟨issued, hid, hres, hdev, hcred⟩ := turn_issues hp ht
      obtain ⟨⟨s, hs⟩, s', hs'⟩ := hpair p hp
      have hissued : issued.Written := ⟨⟨s, hdev.trans hs⟩, ⟨s', hcred.trans hs'⟩⟩
      refine ⟨?_, ?_⟩
      · rw [hid]
        rintro id he
        cases he
        exact hissued
      · rw [hres]
        intro id hm
        rcases List.mem_append.mp hm with hold | hnew
        · exact h.resumptions id hold
        · rw [List.mem_singleton.mp hnew]
          exact hissued
    · exact h.keeps (turn_keeps hhands (fun p hpairs => hp ⟨p, hpairs⟩) ht)

theorem Literate.step {c c' : HarnessClient} (h : c.Literate) {a : Action} {os : List Obs} (ha : a.HandsWritten)
    (hpair : ∀ p, Pairs c a (.paired p) → p.Issues) (hs : c.step a = some (c', os)) : c'.Literate := by
  obtain ⟨d, ht, he⟩ := Option.map_eq_some_iff.mp hs
  cases he
  have hd : d.Literate := Literate.turn (c := { c with out := [] }) ⟨h.identity, h.resumptions⟩ ha hpair ht
  exact ⟨hd.identity, hd.resumptions⟩

/-- The open event writes the hello, and the socket is open. -/
theorem step_opened {c c' : HarnessClient} {i : SocketId} {os : List Obs}
    (hs : c.step (.opened i) = some (c', os)) :
    ∃ s : Socket, os = [.sent i (c.greeting s.role)] ∧ c'.readyState i = some .open := by
  obtain ⟨d, ht, he⟩ := Option.map_eq_some_iff.mp hs
  cases he
  obtain ⟨s, hi, -, rfl⟩ := of_turn_opened ht
  rw [onopen_greets]
  refine ⟨s, rfl, ?_⟩
  show ((c.sockets.modify i fun s => { s with readyState := .open })[i]?).map (·.readyState) = some .open
  replace hi : c.sockets[i]? = some s := hi
  rw [List.getElem?_modify, hi]
  simp

/-- **`c.InRange`** — the position of the client is a safe integer. -/
def InRange (c : HarnessClient) : Prop := ∃ n : ℕ, n < 2 ^ 53 ∧ c.session.lastSeq = n

/-- A turn takes the position from its caller, or from an event. -/
theorem InRange.step {c c' : HarnessClient} (h : c.InRange) {a : Action} {os : List Obs}
    (hset : ∀ q, a = .setLastSeq (.finite q) → ∃ n : ℕ, n < 2 ^ 53 ∧ q = n)
    (hevent : ∀ ev q, Delivered c a (.event ev) → seqOf ev = .finite q → ∃ n : ℕ, n < 2 ^ 53 ∧ q = n)
    (hs : c.step a = some (c', os)) : c'.InRange := by
  obtain ⟨d, ht, rfl, -⟩ := c.step_trans hs
  show ∃ n : ℕ, n < 2 ^ 53 ∧ d.session.lastSeq = n
  have same (he : d.session = c.session) : ∃ n : ℕ, n < 2 ^ 53 ∧ d.session.lastSeq = n := by
    rw [he]
    exact h
  have hzero : ∃ n : ℕ, n < 2 ^ 53 ∧ newSessionState.lastSeq = n := ⟨0, by norm_num, Nat.cast_zero.symm⟩
  cases ht with
  | silent hq => exact same hq.session
  | renewed hq =>
    rw [hq.session]
    exact hzero
  | restored ha _ _ hses =>
    rw [hses]
    exact hset _ ha
  | issued _ _ _ hses => exact same hses
  | @accepted snap _ _ hses =>
    rw [hses]
    show ∃ n : ℕ, n < 2 ^ 53 ∧ (snapshotBase c.session snap).lastSeq = n
    unfold snapshotBase
    split
    · exact hzero
    · exact h
  | applied ha hseq _ _ _ hses =>
    rw [hses, nextSession_lastSeq]
    exact hevent _ _ ha hseq
  | discarded _ _ hc | settled _ _ _ hc | orphaned _ _ _ _ hc =>
    subst hc
    exact h

theorem Literate.greeting_spoken {c : HarnessClient} (h : c.Literate) (hrange : c.InRange) (role : SocketRole) :
    Spoken (c.greeting role) := by
  obtain ⟨n, hn, hlast⟩ := hrange
  have hint : n < 2 ^ 63 := hn.trans (by norm_num)
  cases role with
  | pairing token spki settled =>
    have hzero : Spoken (.hello (.str "") ((0 : ℕ) : ℚ) (some token) (Option.map .str none)) :=
      .hello "" 0 (some token) none (by norm_num)
    rw [Nat.cast_zero] at hzero
    exact hzero
  | normal =>
    unfold greeting
    rw [hlast]
    cases hid : c.identity with
    | none =>
      have hspoken : Spoken (.hello (.str "") n none (Option.map .str none)) := .hello "" n none none hint
      simpa using hspoken
    | some identity =>
      obtain ⟨⟨dev, hdev⟩, cred, hcred⟩ := h.identity identity hid
      simp only [hdev, Option.map_some, hcred]
      by_cases hmode : c.authMode = .hello
      · rw [if_pos hmode]
        exact .hello dev n none (some cred) hint
      · rw [if_neg hmode]
        exact .hello dev n none none hint

end HarnessClient

/-- The kind of a command that was asked for goes by its name. -/
theorem payload_spoken (req : Request) (id : String) : Spoken (.command (req.payload id)) :=
  .command _ (by cases req <;> rfl)

end Harness.Client

namespace Harness.Network

open Wire Lib
open Client (HarnessClient SocketId Spoken)
open Hub (Config ConnId)

/-! ## Frames that can be read -/

/-- **`Introduced`** — the condition on a step: the numbers of the log are safe integers, on which a double is
exact, and so is a position the application sets; the identities it hands over are of the declared type. -/
structure Introduced (cfg : Config) (_ : List Obs) (w : World) (a : Action) : Prop where
  safe : (w.host.log cfg).length < 2 ^ 53
  counted : ∀ q, a = .client (.setLastSeq (.finite q)) → ∃ n : ℕ, n < 2 ^ 53 ∧ q = n
  written : ∀ ca, a = .client ca → ca.HandsWritten

/-- **`Voiced cfg w`** — what the client has to write, and what waits to be read, can be read. -/
structure Voiced (cfg : Config) (w : World) : Prop where
  seated : w.client.Seated
  literate : w.client.Literate
  inRange : w.client.InRange
  queue : ∀ e ∈ w.client.outbox.entries, ∃ req, e.2 = Client.Request.payload req e.1
  frames : ∀ i, ∀ f ∈ w.up i, Spoken f
  logged : ∀ c ev, .event ev ∈ (w.host.hub.outbound c).send ∨ .event ev ∈ w.down c → ev ∈ w.host.log cfg

/-- A frame in which the daemon issues an identity has strings in it. -/
theorem paired_written {c : HarnessClient} {i : SocketId} {env : Client.Env} {e : Envelope} {p : Client.JsRecord}
    (h : Client.Pairs c (Client.arrives i env e) (.paired p)) : p.Issues := by
  obtain ⟨j, data, env', s, token, spki, e', ha, -, -, -, hparse, hin⟩ := h
  cases ha
  have hsame := (Client.inbound_of_parse hparse).trans hin
  cases e with
  | paired dev name cred =>
    cases hsame
    exact ⟨⟨dev.val, rfl⟩, ⟨cred, rfl⟩⟩
  | _ => cases hsame

section Turn

variable {cfg : Config} {w : World} {ca : Client.Action} {c' : HarnessClient} {os : List Client.Obs}
  {down' : ConnId → List Envelope} {db : Store} {now : Int} {t : List Hub.Obs}

theorem Voiced.turn (h : Voiced cfg w)
    (hrun : (Hub.system cfg).Run Lts.Free [] (Hub.World.init cfg db now) t w.host)
    (hlen : (w.host.log cfg).length < 2 ^ 53) (ht : Turn w ca c' os down') (hhands : ca.HandsWritten)
    (hset : ∀ q, ca = .setLastSeq (.finite q) → ∃ n : ℕ, n < 2 ^ 53 ∧ q = n)
    (hpair : ∀ p, Client.Pairs w.client ca (.paired p) → p.Issues) :
    Voiced cfg { w with client := c', up := fun i => w.up i ++ Client.sentFrames i os, down := down' } := by
  have hs := ht.turn
  have hsteps : Client.Steps False w.client ca c' os := h.seated.step hs fun hno => hno.elim
  have hqueue : ∀ e ∈ c'.outbox.entries, ∃ req, e.2 = Client.Request.payload req e.1 := by
    intro e he
    rcases Client.HarnessClient.step_queued hs he with hold | ⟨req, -, hreq⟩
    · exact h.queue e hold
    · exact ⟨req, hreq⟩
  -- an event that is heard is one of the log
  have hevent : ∀ ev q, Client.Delivered w.client ca (.event ev) → HarnessClient.seqOf ev = .finite q →
      ∃ n : ℕ, n < 2 ^ 53 ∧ q = n := by
    intro ev q hd hseq
    obtain ⟨c, e, -, he, hin⟩ := ht.heard _ hd
    cases e with
    | event ev' =>
      cases hin
      have hsmall := small_of_logged hrun hlen (h.logged c ev' (.inr he))
      rw [Client.seqOf_eventMembers (hsmall.trans (by norm_num))] at hseq
      cases hseq
      exact ⟨_, hsmall, rfl⟩
    | _ => cases hin
  refine ⟨hsteps.seated, h.literate.step hhands hpair hs, h.inRange.step hset hevent hs, hqueue, ?_,
    fun c ev hev => h.logged c ev (hev.imp_right (ht.down c _))⟩
  intro i f hf
  rcases List.mem_append.mp hf with hold | hnew
  · exact h.frames i f hold
  · rcases hsteps.sent with hall | ⟨j, s, -, -, -, rfl, -⟩
    · -- a command is one of the queue
      obtain ⟨-, -, cmd, rfl⟩ := hall i f (mem_sentFrames hnew)
      have hcmd : cmd ∈ Client.commands (Client.sentFrames i os) := List.mem_filterMap.mpr ⟨_, hnew, rfl⟩
      rcases HarnessClient.step_sends hs i with hnil | hvalues
      · rw [hnil] at hcmd
        cases hcmd
      · rw [hvalues] at hcmd
        obtain ⟨e, he, rfl⟩ := List.mem_map.mp hcmd
        obtain ⟨req, hreq⟩ := hqueue e he
        rw [hreq]
        exact Client.payload_spoken req e.1
    · cases List.mem_singleton.mp (mem_sentFrames hnew)
      exact h.literate.greeting_spoken h.inRange s.role

end Turn

/-! ## The hello is first -/

/-- **`w.Unread i`** — the daemon has read nothing from socket `i`. -/
def World.Unread (w : World) (i : SocketId) : Prop :=
  ∀ (c : ConnId) ph, w.peers[c]? = some (some i) → w.host.conns[c]? = some ph →
    ∃ credential ra ua, ph = .readHello credential ra ua

structure Opening (w : World) : Prop where
  early : ∀ i, w.client.sockets.length ≤ i ∨ w.client.readyState i = some .connecting → w.up i = []
  greets : ∀ i, w.Unread i → w.client.readyState i = some .open → w.up i ≠ []
  first : ∀ i f rest, w.Unread i → w.up i = f :: rest →
    ∃ d k token credential, f = .hello d k token credential

theorem Opening.turn {w : World} {ca : Client.Action} {c' : HarnessClient} {os : List Client.Obs}
    {down' : ConnId → List Envelope} (h : Opening w) (hseated : w.client.Seated)
    (hs : w.client.step ca = some (c', os)) :
    Opening { w with client := c', up := fun i => w.up i ++ Client.sentFrames i os, down := down' } := by
  have hsteps : Client.Steps False w.client ca c' os := hseated.step hs fun hno => hno.elim
  -- what is sent, is sent on a socket that was open, or opens now
  have hsent (i : SocketId) (f : Client.Frame) (hf : f ∈ Client.sentFrames i os) :
      (w.client.readyState i = some .open ∧ ∃ cmd, f = .command cmd) ∨
        (c'.readyState i = some .open ∧ ∃ d k token credential, f = .hello d k token credential) := by
    rcases hsteps.sent with hall | ⟨j, s, rfl, -, -, rfl, -⟩
    · obtain ⟨-, hopen, hcmd⟩ := hall i f (mem_sentFrames hf)
      exact .inl ⟨hopen, hcmd⟩
    · cases List.mem_singleton.mp (mem_sentFrames hf)
      obtain ⟨-, -, hopen⟩ := HarnessClient.step_opened hs
      refine .inr ⟨hopen, ?_⟩
      cases s.role <;> exact ⟨_, _, _, _, rfl⟩
  refine ⟨?_, ?_, ?_⟩
  · intro i hi
    have hearly : w.client.sockets.length ≤ i ∨ w.client.readyState i = some .connecting := by
      rcases hi with hlen | hwaits
      · exact .inl (hsteps.length.trans hlen)
      · rcases hsteps.ages i _ hwaits with hold | he | he | ⟨-, hnew⟩ | ⟨he, -⟩
        · exact .inr hold
        · cases he
        · cases he
        · exact .inl hnew
        · cases he
    show w.up i ++ Client.sentFrames i os = []
    rw [h.early i hearly, List.nil_append]
    apply List.eq_nil_iff_forall_not_mem.mpr
    intro f hf
    rcases hsent i f hf with ⟨hopen, -⟩ | ⟨hopen, -⟩
    · rcases hearly with hlen | hwaits
      · exact absurd (HarnessClient.lt_of_readyState hopen) (not_lt.mpr hlen)
      · cases hopen.symm.trans hwaits
    · rcases hi with hlen | hwaits
      · exact absurd (HarnessClient.lt_of_readyState hopen) (not_lt.mpr hlen)
      · cases hopen.symm.trans hwaits
  · intro i hun hopen hnil
    obtain ⟨hold, hnew⟩ := List.append_eq_nil_iff.mp hnil
    rcases hsteps.ages i _ hopen with hopen₀ | he | he | ⟨he, -⟩ | ⟨-, rfl⟩
    · exact h.greets i hun hopen₀ hold
    · cases he
    · cases he
    · cases he
    · obtain ⟨s, rfl, -⟩ := HarnessClient.step_opened hs
      have hself : Client.sentFrames i [.sent i (w.client.greeting s.role)] = [w.client.greeting s.role] := by
        simp [Client.sentFrames, Client.Obs.sentOn]
      rw [hself] at hnew
      cases hnew
  · intro i f rest hun hup
    replace hup : w.up i ++ Client.sentFrames i os = f :: rest := hup
    cases hold : w.up i with
    | cons g more =>
      rw [hold] at hup
      obtain rfl : g = f := (List.cons.inj hup).1
      exact h.first i g more hun hold
    | nil =>
      rw [hold, List.nil_append] at hup
      have hf : f ∈ Client.sentFrames i os := hup ▸ List.mem_cons_self
      rcases hsent i f hf with ⟨hopen, -⟩ | ⟨-, hhello⟩
      · exact absurd hold (h.greets i hun hopen)
      · exact hhello

section Daemon

variable {cfg : Config} {w : World} {a : Hub.Action} {h' : Hub.World} {os : List Hub.Obs}

/-- No connection goes back to reading its hello. -/
theorem moves_on {c : ConnId} {h h' : Harness.Hub} {ph ph' : Hub.ConnPhase} {ch : Hub.Choice} {os : List Hub.Obs}
    (hc : Hub.connStep cfg c h ph ch = some (h', ph', os)) :
    ∀ credential ra ua, ph' ≠ .readHello credential ra ua := by
  intro credential ra ua he
  cases Hub.connStep_trans hc with
  | serving ht => cases ht <;> cases he
  | pairing ht => cases ht <;> cases he
  | handling ht => cases ht <;> cases he
  | _ => cases he

/-- A socket of which the daemon has read nothing is one it had read nothing of, and was not read from now. -/
theorem World.Unread.before {up' : SocketId → List Client.Frame} {down' : ConnId → List Envelope} {i : SocketId}
    (h : World.Unread { w with host := h', up := up', down := down' } i)
    (hacc : ∀ authorization ra ua, a ≠ .accept authorization ra ua) (hs : w.host.step cfg a = some (h', os)) :
    w.Unread i ∧ ∀ (c : ConnId) ch, a = .conn c ch → w.peers[c]? ≠ some (some i) := by
  rcases conns_cases hacc hs with ⟨c, ch, ph, h₁, ph', rfl, hph, hc, rfl⟩ | ⟨hno, hsame⟩
  · have hother : w.peers[c]? ≠ some (some i) := by
      intro hpc
      have hlt : c < w.host.conns.length := (List.getElem?_eq_some_iff.mp hph).1
      obtain ⟨credential, ra, ua, he⟩ := h c ph' hpc (List.getElem?_set_self hlt)
      exact moves_on hc credential ra ua he
    refine ⟨fun d ph₀ hpd hd => h d ph₀ hpd ?_, ?_⟩
    · have hne : c ≠ d := by
        rintro rfl
        exact hother hpd
      exact (List.getElem?_set_ne hne).trans hd
    · rintro d ch' he
      cases he
      exact hother
  · refine ⟨fun d ph₀ hpd hd => h d ph₀ hpd ?_, fun c ch he => absurd he (hno c ch)⟩
    show h'.conns[d]? = some ph₀
    rw [hsame]
    exact hd

theorem Opening.host (h : Opening w) (hacc : ∀ authorization ra ua, a ≠ .accept authorization ra ua)
    {up' : SocketId → List Client.Frame} {down' : ConnId → List Envelope}
    (hup : ∀ i, (∀ (c : ConnId) ch, a = .conn c ch → w.peers[c]? ≠ some (some i)) → up' i = w.up i)
    (hsub : ∀ i, ∀ f ∈ up' i, f ∈ w.up i) (hs : w.host.step cfg a = some (h', os)) :
    Opening { w with host := h', up := up', down := down' } where
  early := by
    intro i hi
    apply List.eq_nil_iff_forall_not_mem.mpr
    intro f hf
    have hold := hsub i f hf
    rw [h.early i hi] at hold
    cases hold
  greets := by
    intro i hun hopen
    obtain ⟨hun₀, hother⟩ := World.Unread.before hun hacc hs
    show up' i ≠ []
    rw [hup i hother]
    exact h.greets i hun₀ hopen
  first := by
    intro i f rest hun hf
    obtain ⟨hun₀, hother⟩ := World.Unread.before hun hacc hs
    replace hf : up' i = f :: rest := hf
    rw [hup i hother] at hf
    exact h.first i f rest hun₀ hf

theorem Opening.accept (h : Opening w) {authorization ra ua : String} {peer : Option SocketId}
    {down' : ConnId → List Envelope}
    (hs : w.host.step cfg (.accept authorization ra ua) = some (h', os)) :
    Opening { w with host := h', peers := w.peers ++ [peer], down := down' } := by
  obtain ⟨credential, rfl, rfl⟩ := accept_eq hs
  have hback (i : SocketId) (hun : World.Unread
      { w with
        host := { w.host with conns := w.host.conns ++ [.readHello credential ra ua] }
        peers := w.peers ++ [peer], down := down' } i) : w.Unread i := by
    intro c ph hpc hph
    refine hun c ph ?_ ?_
    · exact (List.getElem?_append_left (List.getElem?_eq_some_iff.mp hpc).1).trans hpc
    · exact (List.getElem?_append_left (List.getElem?_eq_some_iff.mp hph).1).trans hph
  exact ⟨h.early, fun i hun => h.greets i (hback i hun), fun i f rest hun => h.first i f rest (hback i hun)⟩

end Daemon

/-! ## The run -/

section Run

variable {cfg : Config} {dev : DeviceID} {db : Store} {now : Int} {url : String} {authMode : Client.AuthMode}
  {identity : Option Client.Identity} {maxItems : Option Nat} {t os : List Obs} {w w' : World} {a : Action}

/-- The frames of the client stay what they are when the daemon moves. -/
theorem Voiced.host {th : List Hub.Obs} {ha : Hub.Action} {h' : Hub.World} {hos : List Hub.Obs} (h : Voiced cfg w)
    (hrun : (Hub.system cfg).Run Lts.Free [] (Hub.World.init cfg db now) th w.host)
    (hs : w.host.step cfg ha = some (h', hos)) {peers' : List (Option SocketId)}
    {up' : SocketId → List Client.Frame} (hsub : ∀ i, ∀ f ∈ up' i, f ∈ w.up i) :
    Voiced cfg
      { w with host := h', peers := peers', up := up',
               down := fun c => w.down c ++ hos.filterMap (writtenTo c) } :=
  ⟨h.seated, h.literate, h.inRange, h.queue, fun i f hf => h.frames i f (hsub i f hf),
    logged_step h.logged hrun hs⟩

theorem voiced_step (hv : Voiced cfg w) (ho : Opening w)
    (hrun : (Hub.system cfg).Run Lts.Free [] (Hub.World.init cfg db now) (hostTrace t) w.host)
    (hP : Introduced cfg t w a) (hs : w.step cfg dev a = some (w', os)) : Voiced cfg w' ∧ Opening w' := by
  cases step_move hs with
  | call ht =>
    refine ⟨hv.turn hrun hP.safe ht (hP.written _ rfl) ?_ fun p hpair => ?_, ho.turn hv.seated ht.turn⟩
    · rintro q rfl
      exact hP.counted q rfl
    · obtain ⟨i, data, env, -, -, -, -, rfl, -⟩ := hpair
      cases hs
  | deliver hi hdown ht =>
    refine ⟨hv.turn hrun hP.safe ht trivial ?_ fun p hpair => paired_written hpair, ho.turn hv.seated ht.turn⟩
    intro q he
    cases he
  | accept hnew hs' => exact ⟨hv.host hrun hs' fun _ _ hf => hf, ho.accept hs'⟩
  | @read c p out i ph f rest h' os hi hph hup hs' hdev =>
    refine ⟨hv.host hrun hs' (mem_update hup), ?_⟩
    refine ho.host (fun _ _ _ he => by cases he) (fun j hother => ?_) (mem_update hup) hs'
    have hne : j ≠ i := by
      rintro rfl
      exact hother c _ rfl hi
    exact Function.update_of_ne hne ..
  | host hacc hconn hs' =>
    exact ⟨hv.host hrun hs' fun _ _ hf => hf, ho.host hacc (fun _ _ => rfl) (fun _ _ hf => hf) hs'⟩

theorem voiced (hid : ∀ id ∈ identity, id.Written)
    (h : (system cfg dev).Run (Introduced cfg) []
      (World.init cfg db now (.new url authMode identity maxItems)) t w) :
    Voiced cfg w ∧ Opening w := by
  refine h.invariant (I := fun _ u => Voiced cfg u ∧ Opening u) ⟨?_, ?_⟩ ?_
  · refine ⟨⟨fun _ hi => (by cases hi), fun hr => (by cases hr)⟩, ⟨hid, ?_⟩, ⟨0, by norm_num, Nat.cast_zero.symm⟩,
      ?_, ?_, ?_⟩
    · intro id hm
      cases hm
    · intro e he
      cases he
    · intro i f hf
      cases hf
    · rintro c ev (hev | hev) <;> cases hev
  · refine ⟨fun _ _ => rfl, fun i _ hopen => ?_, fun i f rest _ hup => ?_⟩
    · cases hopen
    · cases hup
  · intro t u a u' os hr ih hP hs
    exact voiced_step ih.1 ih.2 (host_run hr) hP hs

end Run

end Harness.Network
