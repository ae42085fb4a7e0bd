/-
# Harness.Network.Texts — the client and the daemon, exchanging texts.

`Harness.Network` lets frames travel. What really travels are the texts that `JSON.stringify` and `json.Marshal`
write, and each side makes of a text what its own parser makes of it. `Texts` is the system with texts on the wire;
nothing in it knows which frame a text was written from.

`step_texts` says that a step of it is the step of `Harness.Network` with the texts of its frames, as long as
what the client writes can be read. So every run of it is a run of the other one, in which the daemon reads
each hello as it was written (`texts_are_frames`), and what holds in those runs holds here.
-/
import Harness.Network.Spoken

namespace Harness.Network

open Wire Lib
open Client (HarnessClient SocketId Spoken SameStream applyAll newSessionState)
open Hub (Config ConnId)

/-! ## The system -/

/-- `World`, with texts on the wire. -/
structure Texts where
  host : Hub.World
  client : HarnessClient
  peers : List (Option SocketId)
  up : SocketId → List (List Char)
  down : ConnId → List (List Char)

namespace Texts

/-- What a connection reads says what is in it; only what becomes of it is left open. -/
inductive Action where
  | client (a : Client.Action)
  | dial (i : SocketId) (authorization remoteAddr userAgent : String)
  | read (c : ConnId) (out : Hub.Outcome)
  | deliver (c : ConnId) (env : Client.Env)
  | host (a : Hub.Action)

/-- `json.Marshal`. -/
def frameText (e : Envelope) : List Char := e.toJson.text goEscape

/-- What a connection makes of a text. -/
def received (ph : Hub.ConnPhase) (out : Hub.Outcome) (data : List Char) : Hub.Choice :=
  match ph with
  | .readHello _ _ _ =>
      match readHello data with
      | some p => .hello p out
      -- `handleConnection` returns, and the connection is closed
      | none => .gone
  | _ =>
      match readCommand data with
      | some cmd => .frame cmd
      | none => .skip

def own (w : Texts) (c : ConnId) : Bool := ((w.peers[c]?).join).isSome

def belongs (dev : DeviceID) (w : Texts) (c : ConnId) : Bool :=
  match (w.host.conns[c]?).bind Hub.ConnPhase.device with
  | some d => decide (d = dev) == w.own c
  | none => true

def clientStep (w : Texts) (a : Client.Action) : Option (Texts × List Obs) :=
  (w.client.step a).map fun r =>
    ({ w with client := r.1, up := fun i => w.up i ++ (Client.sentFrames i r.2).map Client.Frame.text },
      r.2.map .client)

def hostStep (cfg : Config) (w : Texts) (a : Hub.Action) : Option (Texts × List Obs) :=
  (w.host.step cfg a).map fun r =>
    ({ w with host := r.1, down := fun c => w.down c ++ (r.2.filterMap (writtenTo c)).map frameText },
      r.2.map .host)

def step (cfg : Config) (dev : DeviceID) (w : Texts) : Action → Option (Texts × List Obs)
  | .client (.message _ _ _) => none
  | .client a => w.clientStep a
  | .dial i authorization remoteAddr userAgent =>
      if i < w.client.sockets.length && !w.peers.contains (some i) then
        { w with peers := w.peers ++ [some i] }.hostStep cfg (.accept authorization remoteAddr userAgent)
      else none
  | .read c out =>
      match (w.peers[c]?).join, w.host.conns[c]? with
      | some i, some ph =>
          match w.up i with
          | data :: rest =>
              ({ w with up := Function.update w.up i rest }.hostStep cfg
                (.conn c (received ph out data))).filter fun r => belongs dev r.1 c
          | [] => none
      | _, _ => none
  | .deliver c env =>
      match (w.peers[c]?).join, w.down c with
      | some i, data :: rest =>
          { w with down := Function.update w.down c rest }.clientStep (.message i (Json.parse data) env)
      | _, _ => none
  | .host (.accept authorization remoteAddr userAgent) =>
      { w with peers := w.peers ++ [none] }.hostStep cfg (.accept authorization remoteAddr userAgent)
  | .host (.conn c ch) =>
      if w.own c && reads ch then none
      else (w.hostStep cfg (.conn c ch)).filter fun r => belongs dev r.1 c
  | .host a => w.hostStep cfg a

end Texts

def texts (cfg : Config) (dev : DeviceID) : Lts Texts Texts.Action Obs where
  step := Texts.step cfg dev

/-! ## Texts and frames -/

/-- The world, with the texts of its frames. -/
def World.texts (w : World) : Texts where
  host := w.host
  client := w.client
  peers := w.peers
  up := fun i => (w.up i).map Client.Frame.text
  down := fun c => (w.down c).map Texts.frameText

@[simp] theorem World.texts_host (w : World) : w.texts.host = w.host := rfl
@[simp] theorem World.texts_peers (w : World) : w.texts.peers = w.peers := rfl
@[simp] theorem World.texts_up (w : World) (i : SocketId) : w.texts.up i = (w.up i).map Client.Frame.text := rfl
@[simp] theorem World.texts_down (w : World) (c : ConnId) : w.texts.down c = (w.down c).map Texts.frameText := rfl

/-- What the daemon reads in the hello of connection `c`. -/
def World.greetingOf (w : World) (c : ConnId) : HelloPayload :=
  match (w.peers[c]?).join with
  | none => {}
  | some i =>
      match w.up i with
      | [] => {}
      | f :: _ => (readHello f.text).getD {}

/-- The action among frames. -/
def Texts.Action.among (w : World) : Texts.Action → Network.Action
  | .client a => .client a
  | .dial i authorization remoteAddr userAgent => .dial i authorization remoteAddr userAgent
  | .read c out => .read c (w.greetingOf c) out
  | .deliver c env => .deliver c env
  | .host a => .host a

/-- A step of texts from a step of frames. -/
def onTexts (r : World × List Obs) : Texts × List Obs := (r.1.texts, r.2)

/-- What is left on a wire after the oldest frame was taken. -/
theorem texts_update {I F : Type} [DecidableEq I] (g : F → List Char) (up : I → List F) (i : I) (rest : List F) :
    (fun j => (Function.update up i rest j).map g) = Function.update (fun j => (up j).map g) i (rest.map g) := by
  funext j
  by_cases hj : j = i
  · subst hj
    rw [Function.update_self, Function.update_self]
  · rw [Function.update_of_ne hj, Function.update_of_ne hj]

theorem clientStep_texts (w : World) (a : Client.Action) :
    w.texts.clientStep a = (w.clientStep a).map onTexts := by
  unfold Texts.clientStep World.clientStep
  rw [Option.map_map]
  refine congrArg (fun f => (w.client.step a).map f) (funext fun r => ?_)
  refine Prod.ext ?_ rfl
  show Texts.mk _ _ _ _ _ = Texts.mk _ _ _ _ _
  congr 1
  funext i
  exact List.map_append.symm

theorem hostStep_texts (cfg : Config) (w : World) (a : Hub.Action) :
    w.texts.hostStep cfg a = (w.hostStep cfg a).map onTexts := by
  unfold Texts.hostStep World.hostStep
  rw [Option.map_map]
  refine congrArg (fun f => (w.host.step cfg a).map f) (funext fun r => ?_)
  refine Prod.ext ?_ rfl
  show Texts.mk _ _ _ _ _ = Texts.mk _ _ _ _ _
  congr 1
  funext c
  exact List.map_append.symm

theorem belongs_texts (dev : DeviceID) (c : ConnId) (r : Option (World × List Obs)) :
    (r.map onTexts).filter (fun r => Texts.belongs dev r.1 c) =
      (r.filter fun r => World.belongs dev r.1 c).map onTexts := by
  cases r with
  | none => rfl
  | some r =>
    have hsame : Texts.belongs dev (onTexts r).1 c = World.belongs dev r.1 c := rfl
    rw [Option.map_some, Option.filter_some, Option.filter_some, hsame]
    split <;> rfl

/-- **A frame is received as what it is**; the first one must be a hello. -/
theorem received_text {ph : Hub.ConnPhase} {f : Client.Frame} (hf : Spoken f) (out : Hub.Outcome)
    (hfirst : (∃ credential ra ua, ph = .readHello credential ra ua) →
      ∃ d k token credential, f = .hello d k token credential) :
    Texts.received ph out f.text = incoming ph ((readHello f.text).getD {}) out f := by
  cases hf with
  | hello deviceID n token credential hn =>
    cases ph with
    | readHello =>
      rw [Texts.received, Client.readHello_text deviceID token credential hn]
      rfl
    | _ =>
      simp only [Texts.received, Client.readCommand_hello deviceID token credential hn]
      rfl
  | command cmd hkind =>
    cases ph with
    | readHello credential ra ua =>
      obtain ⟨d, k, token, credential', he⟩ := hfirst ⟨_, _, _, rfl⟩
      cases he
    | _ =>
      simp only [Texts.received, Client.readCommand_text hkind]
      rfl

/-- **A step among texts is the step among frames.** -/
theorem step_texts {cfg : Config} {dev : DeviceID} {w : World} (hv : Voiced cfg w) (ho : Opening w)
    (hapart : ∀ (c c' : ConnId) (i : SocketId), w.peers[c]? = some (some i) → w.peers[c']? = some (some i) →
      c = c')
    (a : Texts.Action) : w.texts.step cfg dev a = (w.step cfg dev (a.among w)).map onTexts := by
  cases a with
  | client a =>
    cases a with
    | message => rfl
    | _ => exact clientStep_texts w _
  | dial i authorization ra ua =>
    show (if (decide (i < w.client.sockets.length) && !w.peers.contains (some i)) = true then
        Texts.hostStep cfg { w.texts with peers := w.peers ++ [some i] } (.accept authorization ra ua) else none) =
      Option.map onTexts (if i < w.client.sockets.length ∧ some i ∉ w.peers then
        World.hostStep cfg { w with peers := w.peers ++ [some i] } (.accept authorization ra ua) else none)
    by_cases hnew : i < w.client.sockets.length ∧ some i ∉ w.peers
    · have hfree : (decide (i < w.client.sockets.length) && !w.peers.contains (some i)) = true := by
        simpa using hnew
      rw [if_pos hnew, if_pos hfree]
      exact hostStep_texts cfg { w with peers := w.peers ++ [some i] } _
    · have hfree : ¬ (decide (i < w.client.sockets.length) && !w.peers.contains (some i)) = true := by
        simpa using hnew
      rw [if_neg hnew, if_neg hfree]
      rfl
  | read c out =>
    simp only [Texts.Action.among, Texts.step, World.step, World.texts_host, World.texts_peers, World.texts_up]
    cases hi : (w.peers[c]?).join with
    | none => rfl
    | some i =>
      cases hph : w.host.conns[c]? with
      | none => rfl
      | some ph =>
        dsimp only
        cases hup : w.up i with
        | nil => rfl
        | cons f rest =>
          have hp : w.greetingOf c = (readHello f.text).getD {} := by
            unfold World.greetingOf
            rw [hi]
            simp only [hup]
          have hrec : Texts.received ph out f.text = incoming ph (w.greetingOf c) out f := by
            rw [hp]
            refine received_text (hv.frames i f (hup ▸ List.mem_cons_self)) out ?_
            rintro ⟨credential, ra, ua, rfl⟩
            refine ho.first i f rest ?_ hup
            -- the connection is the only one of the socket
            intro c' ph' hc' hph'
            obtain rfl := hapart c c' i (Option.join_eq_some_iff.mp hi) hc'
            obtain rfl := Option.some.inj (hph.symm.trans hph')
            exact ⟨_, _, _, rfl⟩
          have hleft : { w with up := Function.update w.up i rest }.texts =
              { w.texts with up := Function.update w.texts.up i (rest.map Client.Frame.text) } := by
            unfold World.texts
            rw [texts_update]
          have hstep := hostStep_texts cfg { w with up := Function.update w.up i rest }
            (.conn c (incoming ph (w.greetingOf c) out f))
          rw [hleft] at hstep
          simp only [List.map_cons]
          rw [hrec, ← belongs_texts]
          exact congrArg (Option.filter fun r => Texts.belongs dev r.1 c) hstep
  | deliver c env =>
    simp only [Texts.Action.among, Texts.step, World.step, World.texts_peers, World.texts_down]
    cases (w.peers[c]?).join with
    | none => rfl
    | some i =>
      cases w.down c with
      | nil => rfl
      | cons f rest =>
        have hleft : { w with down := Function.update w.down c rest }.texts =
            { w.texts with down := Function.update w.texts.down c (rest.map Texts.frameText) } := by
          unfold World.texts
          rw [texts_update]
        have hstep := clientStep_texts { w with down := Function.update w.down c rest } (Client.arrives i env f)
        rw [hleft] at hstep
        simp only [List.map_cons]
        rw [Texts.frameText, Json.parse_text Json.goEscape_writer]
        exact hstep
  | host a =>
    cases a with
    | accept authorization ra ua => exact hostStep_texts cfg { w with peers := w.peers ++ [none] } _
    | conn c ch =>
      have hown : w.texts.own c = w.own c := rfl
      simp only [Texts.Action.among, Texts.step, World.step, hown]
      split
      · rfl
      · rw [hostStep_texts, belongs_texts]
    | _ => exact hostStep_texts cfg w _

/-! ## The runs -/

/-- A daemon that has just started, and a client that has just been created. -/
def Texts.init (cfg : Config) (db : Store) (now : Int) (client : HarnessClient) : Texts where
  host := Hub.World.init cfg db now
  client := client
  peers := []
  up := fun _ => []
  down := fun _ => []

/-- **`Posted`** — the condition on a step among texts, as in `Introduced`: numbers are safe integers, and the
identities the application hands over are of their type. -/
structure Texts.Posted (cfg : Config) (_ : List Obs) (w : Texts) (a : Texts.Action) : Prop where
  safe : (w.host.log cfg).length < 2 ^ 53
  counted : ∀ q, a = .client (.setLastSeq (.finite q)) → ∃ n : ℕ, n < 2 ^ 53 ∧ q = n
  written : ∀ ca, a = .client ca → ca.HandsWritten

/-- **`ReadAsWritten`** — the daemon reads a hello as it was written; what is left out is empty. -/
structure ReadAsWritten (cfg : Config) (t : List Obs) (w : World) (a : Action) : Prop extends
    Introduced cfg t w a where
  hello : ∀ (c : ConnId) p out i d k token credential rest, a = .read c p out → w.peers[c]? = some (some i) →
    w.up i = .hello d k token credential :: rest →
      d = .str p.deviceID ∧ k = p.lastSeq ∧ token.getD "" = p.pairingToken ∧
        credential.getD (.str "") = .str p.credential

theorem Texts.Posted.among {cfg : Config} {t : List Obs} {w : World} {a : Texts.Action} (hv : Voiced cfg w)
    (h : Texts.Posted cfg t w.texts a) : ReadAsWritten cfg t w (a.among w) where
  safe := h.safe
  counted := by
    intro q he
    cases a <;> cases he
    exact h.counted q rfl
  written := by
    intro ca he
    cases a <;> cases he
    exact h.written ca rfl
  hello := by
    intro c p out i d k token credential rest he hpc hup
    cases a with
    | read c' out' =>
      cases he
      have hspoken : Spoken (.hello d k token credential) := hv.frames i _ (hup ▸ List.mem_cons_self)
      have hp : w.greetingOf c = (readHello (Client.Frame.hello d k token credential).text).getD {} := by
        unfold World.greetingOf
        rw [hpc, Option.join_some]
        simp only [hup]
      rw [hp]
      cases hspoken with
      | hello deviceID n _ credential hn =>
        rw [Client.readHello_text deviceID token credential hn, Option.getD_some]
        refine ⟨rfl, (Int.cast_natCast n).symm, rfl, ?_⟩
        cases credential <;> rfl
    | _ => cases he

section Run

variable {cfg : Config} {dev : DeviceID} {db : Store} {now : Int} {url : String} {authMode : Client.AuthMode}
  {identity : Option Client.Identity} {maxItems : Option Nat} {tr : List Obs} {v : Texts}

/-- **A run among texts is a run among frames**, in which the daemon reads what the client wrote: the same is
seen of it, and it ends in the same states, with the texts of the frames on the wires. -/
theorem texts_are_frames (hid : ∀ id ∈ identity, id.Written)
    (h : (texts cfg dev).Run (Texts.Posted cfg) []
      (Texts.init cfg db now (.new url authMode identity maxItems)) tr v) :
    ∃ w, (system cfg dev).Run (ReadAsWritten cfg) []
      (World.init cfg db now (.new url authMode identity maxItems)) tr w ∧ v = w.texts := by
  refine h.invariant (I := fun t u => ∃ w, (system cfg dev).Run (ReadAsWritten cfg) []
    (World.init cfg db now (.new url authMode identity maxItems)) t w ∧ u = w.texts) ⟨_, .refl, rfl⟩ ?_
  rintro t u a u' os - ⟨w, hr, rfl⟩ hP hs
  have hintro := hr.mono fun _ _ _ hp => hp.toIntroduced
  obtain ⟨hv, ho⟩ := voiced hid hintro
  replace hs : w.texts.step cfg dev a = some (u', os) := hs
  rw [step_texts hv ho (wired hintro).apart] at hs
  obtain ⟨⟨w', os'⟩, hs', he⟩ := Option.map_eq_some_iff.mp hs
  cases he
  exact ⟨w', hr.tail (hP.among hv) hs', rfl⟩

end Run

/-! The phone of `Sample.cameBack`, over texts. -/

/-- The action among texts. -/
def Action.posted : Action → Texts.Action
  | .client a => .client a
  | .dial i authorization remoteAddr userAgent => .dial i authorization remoteAddr userAgent
  | .read c _ out => .read c out
  | .deliver c env => .deliver c env
  | .host a => .host a

/-- No position and no identity of the application's own. -/
def postedAction : Texts.Action → Bool
  | .client (.setLastSeq _) | .client (.setIdentity (some _)) | .client (.connect (some _) _) => false
  | _ => true

theorem posted_of_check {cfg : Config} {t : List Obs} {w : Texts} {a : Texts.Action} (ha : postedAction a = true)
    (hlen : decide ((w.host.log cfg).length < 2 ^ 53) = true) : Texts.Posted cfg t w a where
  safe := of_decide_eq_true hlen
  counted := by
    rintro q rfl
    cases ha
  written := by
    rintro ca rfl
    cases ca with
    | setIdentity identity =>
      cases identity with
      | none =>
        intro id hm
        cases hm
      | some => cases ha
    | connect identity env =>
      cases identity with
      | none =>
        intro id hm
        cases hm
      | some => cases ha
    | _ => trivial

/-- The phone is shown both prompts. -/
theorem texts_are_frames_cameBack :
    ∃ tr v, (texts Hub.Sample.config Hub.Sample.phone).Run (Texts.Posted Hub.Sample.config) []
        (Texts.init Hub.Sample.config Hub.Sample.database 0
          (.new "ws://192.168.1.2:7432/ws" .header none none)) tr v ∧
      v.client.session.lastSeq = 2 ∧
      ∃ w, (system Hub.Sample.config Hub.Sample.phone).Run (ReadAsWritten Hub.Sample.config) [] Sample.start tr w ∧
        v = w.texts := by
  have hexec : ((texts Hub.Sample.config Hub.Sample.phone).exec
      (fun _ w _ => decide ((w.host.log Hub.Sample.config).length < 2 ^ 53)) []
      (Texts.init Hub.Sample.config Hub.Sample.database 0 (.new "ws://192.168.1.2:7432/ws" .header none none))
      (Sample.cameBack.map Action.posted)).map (fun r => r.2.client.session.lastSeq) = some 2 := by decide +kernel
  obtain ⟨⟨tr, v⟩, hr, hlast⟩ := Option.map_eq_some_iff.mp hexec
  have hall : ∀ a ∈ Sample.cameBack.map Action.posted, postedAction a = true := List.all_eq_true.mp rfl
  have hrun : (texts Hub.Sample.config Hub.Sample.phone).Run (Texts.Posted Hub.Sample.config) []
      (Texts.init Hub.Sample.config Hub.Sample.database 0
        (.new "ws://192.168.1.2:7432/ws" .header none none)) tr v :=
    Lts.run_of_exec_mem (fun a ha _ _ hlen => posted_of_check (hall a ha) hlen) hr
  exact ⟨tr, v, hrun, hlast, texts_are_frames (fun id hm => by cases hm) hrun⟩

end Harness.Network
