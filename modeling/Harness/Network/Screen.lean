/-
# Harness.Network.Screen — what is on the screen is what is in the log.

The daemon keeps the log, the client shows a stream. Between the two lie a queue that may overflow, a
connection that may be lost, broadcasts that overtake each other, catch-ups that repeat what was delivered
and snapshots that arrive late. `screen_is_log` says that none of it can put anything on the screen that is
not in the log, leave anything out from the middle of it, or change its order: whatever happened, the stream
is the one that follows from the first `lastSeq` events of the daemon's log.

`Mirrors` is the invariant. The daemon's half of it is that every event in a queue or on its way is in the
log; the client's half is `along_step`, one turn of the client over the log as it is now.
-/
import Harness.Hub.HostWords
import Harness.Client.Stream
import Harness.Network.CommandOrder
import Harness.Network.Move

namespace Harness.Network

open Wire Lib
open Client (HarnessClient SocketId SessionState SameStream Along Feeds applyAll newSessionState)
open Hub (Config ConnId HostWords)

/-- **`Plain`** — the condition on a step: the agent speaks the protocol, the numbers of the log are safe integers,
on which a double is exact, and the application does not move `lastSeq` itself. -/
structure Plain (cfg : Config) (_ : List Obs) (w : World) (a : Action) : Prop where
  speaks : ∀ ha, a = .host ha → Hub.Speaks ha
  safe : (w.host.log cfg).length < 2 ^ 53
  unmoved : ∀ seq, a ≠ .client (.setLastSeq seq)

/-- The stream of `s` follows from the first `lastSeq` events of the log. -/
def Shows (log : List EventPayload) (s : SessionState) : Prop :=
  ∃ n ≤ log.length, s.lastSeq = n ∧ SameStream s (applyAll newSessionState (log.take n))

structure Mirrors (cfg : Config) (w : World) : Prop where
  words : HostWords cfg w.host
  frames : ∀ c ev, .event ev ∈ (w.host.hub.outbound c).send ∨ .event ev ∈ w.down c → ev ∈ w.host.log cfg
  whole : w.client.maxItems = none
  shows : Shows (w.host.log cfg) w.client.session

/-- What follows from a log follows from every longer one. -/
theorem Shows.mono {log log' : List EventPayload} {s : SessionState} (h : Shows log s) (hlog : log <+: log') :
    Shows log' s := by
  obtain ⟨n, hn, hseq, hst⟩ := h
  obtain ⟨more, rfl⟩ := hlog
  refine ⟨n, ?_, hseq, ?_⟩
  · rw [List.length_append]
    omega
  · rwa [List.take_append_of_le_length hn]

theorem mirrors_init (cfg : Config) (db : Store) (now : Int) (url : String) (authMode : Client.AuthMode)
    (identity : Option Client.Identity) :
    Mirrors cfg (World.init cfg db now (.new url authMode identity none)) where
  words := Hub.hostWords_init cfg db now
  frames := by rintro c ev (h | h) <;> cases h
  whole := rfl
  shows := ⟨0, Nat.zero_le _, rfl, .refl _⟩

/-! ## A turn of the client -/

/-- The log of the daemon is a log of the host. -/
theorem hostLog_of_run {cfg : Config} {w : Hub.World} {db : Store} {now : Int} {t : List Hub.Obs}
    (hrun : (Hub.system cfg).Run Lts.Free [] (Hub.World.init cfg db now) t w) (hw : HostWords cfg w)
    (hlen : (w.log cfg).length < 2 ^ 53) : ∃ L : HostLog, L.events = w.log cfg := by
  have hnum : (w.log cfg).map EventPayload.seq = List.range' 1 (w.log cfg).length := Hub.log_numbered hrun
  refine ⟨⟨w.log cfg, fun i hi => ?_, hw.log, hlen.trans (by norm_num)⟩, rfl⟩
  have hseq : ((w.log cfg).map EventPayload.seq)[i]? = (List.range' 1 (w.log cfg).length)[i]? := by rw [hnum]
  rw [List.getElem?_map, List.getElem?_eq_getElem hi, List.getElem?_range' hi] at hseq
  have hval : (w.log cfg)[i].seq = 1 + 1 * i := Option.some.inj hseq
  omega

/-- The client reads events of the log only. -/
theorem Mirrors.feeds {cfg : Config} {w : World} {ca : Client.Action} {c' : HarnessClient}
    {os : List Client.Obs} {down' : ConnId → List Envelope} (h : Mirrors cfg w) (ht : Turn w ca c' os down')
    (hseq : ∀ seq, ca ≠ .setLastSeq seq) {L : HostLog} (hL : L.events = w.host.log cfg) :
    Feeds L [] w.client ca := by
  refine ⟨hseq, fun ev hd => ?_⟩
  obtain ⟨c, e, -, he, hin⟩ := ht.heard _ hd
  cases e with
  | event ev' =>
    cases hin
    refine ⟨ev', ?_, rfl⟩
    rw [hL]
    exact h.frames c ev' (.inr he)
  | _ => cases hin

theorem Mirrors.turn {cfg : Config} {w : World} {db : Store} {now : Int} {t : List Hub.Obs}
    {ca : Client.Action} {c' : HarnessClient} {os : List Client.Obs} {up' : SocketId → List Client.Frame}
    {down' : ConnId → List Envelope} (h : Mirrors cfg w)
    (hrun : (Hub.system cfg).Run Lts.Free [] (Hub.World.init cfg db now) t w.host)
    (hlen : (w.host.log cfg).length < 2 ^ 53) (ht : Turn w ca c' os down')
    (hseq : ∀ seq, ca ≠ .setLastSeq seq) :
    Mirrors cfg { w with client := c', up := up', down := down' } := by
  obtain ⟨L, hL⟩ := hostLog_of_run hrun h.words hlen
  have hshows : Along L w.client.session := by
    unfold Along HostLog.length
    rw [hL]
    exact h.shows
  obtain ⟨hmax, halong⟩ := Client.along_step h.whole hshows (h.feeds ht hseq hL) ht.turn
  unfold Along HostLog.length at halong
  rw [hL] at halong
  exact ⟨h.words, fun c ev hev => h.frames c ev (hev.imp_right (ht.down c _)), hmax, halong⟩

/-! ## A step of the daemon -/

/-- The log only grows. -/
theorem log_prefix {cfg : Config} {w w' : Hub.World} {a : Hub.Action} {os : List Hub.Obs}
    (hs : w.step cfg a = some (w', os)) : w.log cfg <+: w'.log cfg := by
  rw [(Hub.World.step_trans hs).log]
  exact List.prefix_append _ _

/-- An event in a queue or on its way was queued or on its way before, or it has just been offered. -/
theorem logged_step {cfg : Config} {w h' : Hub.World} {db : Store} {now : Int} {t os : List Hub.Obs}
    {ha : Hub.Action} {down : ConnId → List Envelope}
    (h : ∀ c ev, .event ev ∈ (w.hub.outbound c).send ∨ .event ev ∈ down c → ev ∈ w.log cfg)
    (hrun : (Hub.system cfg).Run Lts.Free [] (Hub.World.init cfg db now) t w)
    (hs : w.step cfg ha = some (h', os)) (c : ConnId) (ev : EventPayload)
    (hev : .event ev ∈ (h'.hub.outbound c).send ∨ .event ev ∈ down c ++ os.filterMap (writtenTo c)) :
    ev ∈ h'.log cfg := by
  have hlog := log_prefix hs
  rcases hev with hev | hev
  · rcases Hub.World.step_send hs hev with hold | ⟨o, ho, hoff⟩
    · exact hlog.mem (h c ev (.inl hold))
    · exact hlog.mem (Hub.event_offered_logged hrun hs ho hoff)
  · rcases List.mem_append.mp hev with hold | hnew
    · exact hlog.mem (h c ev (.inr hold))
    · obtain ⟨o, ho, hw⟩ := List.mem_filterMap.mp hnew
      rcases written_cases hw with rfl | rfl
      · exact hlog.mem (h c ev (.inl (Hub.World.step_written hs ho)))
      · rcases (Hub.World.step_trans hs).direct ho with hans | ⟨d, name, cred, he⟩
        · cases hans
        · cases he

theorem Mirrors.host {cfg : Config} {w : World} {db : Store} {now : Int} {t os : List Hub.Obs}
    {ha : Hub.Action} {h' : Hub.World} {peers' : List (Option SocketId)} {up' : SocketId → List Client.Frame}
    (h : Mirrors cfg w) (hrun : (Hub.system cfg).Run Lts.Free [] (Hub.World.init cfg db now) t w.host)
    (hs : w.host.step cfg ha = some (h', os)) (hsp : Hub.Speaks ha) :
    Mirrors cfg
      { w with
        host := h', peers := peers', up := up'
        down := fun c => w.down c ++ os.filterMap (writtenTo c) } := by
  have hlog := log_prefix hs
  exact ⟨h.words.step hsp hs, logged_step h.frames hrun hs, h.whole, h.shows.mono hlog⟩

/-! ## The run -/

/-- Only the agent's own step says anything for the agent. -/
theorem speaks_of_not_ingest {a : Hub.Action} (h : ∀ ch, a ≠ .ingest ch) : Hub.Speaks a :=
  fun _ _ he => absurd he (h _)

theorem mirrors {cfg : Config} {dev : DeviceID} {db : Store} {now : Int} {url : String}
    {authMode : Client.AuthMode} {identity : Option Client.Identity} {tr : List Obs} {w : World}
    (h : (system cfg dev).Run (Plain cfg) [] (World.init cfg db now (.new url authMode identity none)) tr w) :
    Mirrors cfg w := by
  refine h.invariant (I := fun _ u => Mirrors cfg u) (mirrors_init cfg db now url authMode identity) ?_
  intro t u a u' os hr ih hP hs
  have hrun := host_run hr
  cases step_move hs with
  | call ht => exact ih.turn hrun hP.safe ht fun seq he => hP.unmoved seq (congrArg Action.client he)
  | deliver hi hdown ht => exact ih.turn hrun hP.safe ht fun seq he => by cases he
  | accept _ hs' => exact ih.host hrun hs' (speaks_of_not_ingest fun _ he => by cases he)
  | read _ _ _ hs' => exact ih.host hrun hs' (speaks_of_not_ingest fun _ he => by cases he)
  | host _ _ hs' => exact ih.host hrun hs' (hP.speaks _ rfl)

/-- **The screen shows the log**: at every moment of every run the stream of the client is the one that
follows from the first `lastSeq` events of the daemon's log, device names apart. -/
theorem screen_is_log {cfg : Config} {dev : DeviceID} {db : Store} {now : Int} {url : String}
    {authMode : Client.AuthMode} {identity : Option Client.Identity} {tr : List Obs} {w : World}
    (h : (system cfg dev).Run (Plain cfg) [] (World.init cfg db now (.new url authMode identity none)) tr w) :
    ∃ n ≤ (w.host.log cfg).length, w.client.session.lastSeq = n ∧
      SameStream w.client.session (applyAll newSessionState ((w.host.log cfg).take n)) :=
  (mirrors h).shows

/-- Neither an event of the agent nor a position the application sets. -/
def plainAction : Action → Bool
  | .client (.setLastSeq _) | .host (.ingest (.adapterEvent _ _)) => false
  | _ => true

theorem plain_of_check {cfg : Config} {t : List Obs} {w : World} {a : Action} (ha : plainAction a = true)
    (hlen : decide ((w.host.log cfg).length < 2 ^ 53) = true) : Plain cfg t w a where
  speaks := by
    rintro ha' rfl kind payload rfl
    cases ha
  safe := of_decide_eq_true hlen
  unmoved := by
    rintro seq rfl
    cases ha

/-- The phone connects, sends a prompt, and is shown it. -/
def Sample.prompted : List Action :=
  .client (.connect none {}) :: Sample.join 0 ++
    [.client (.send (.sendPrompt "one") "c1"), .read 0 {} .ok, .host (.conn 0 .run), .host (.conn 0 .run),
      .host (.conn 0 (.call .ok)), .host (.conn 0 .run), .host (.conn 0 (.order [0])), .host (.conn 0 .run),
      .host (.write 0 .send), .deliver 0 {}, .host (.write 0 .send), .deliver 0 {}]

theorem screen_is_log_prompted :
    ∃ tr w, (system Hub.Sample.config Hub.Sample.phone).Run (Plain Hub.Sample.config) [] Sample.start tr w ∧
      w.client.session.lastSeq = 1 ∧
      ∃ n ≤ (w.host.log Hub.Sample.config).length, w.client.session.lastSeq = n ∧
        SameStream w.client.session
          (applyAll newSessionState ((w.host.log Hub.Sample.config).take n)) := by
  have hexec : ((system Hub.Sample.config Hub.Sample.phone).exec
      (fun _ w _ => decide ((w.host.log Hub.Sample.config).length < 2 ^ 53)) [] Sample.start
      Sample.prompted).map (fun r => r.2.client.session.lastSeq) = some 1 := by decide +kernel
  obtain ⟨⟨tr, w⟩, hr, hlast⟩ := Option.map_eq_some_iff.mp hexec
  have hall : ∀ a ∈ Sample.prompted, plainAction a = true := List.all_eq_true.mp rfl
  have hrun : (system Hub.Sample.config Hub.Sample.phone).Run (Plain Hub.Sample.config) [] Sample.start tr w :=
    Lts.run_of_exec_mem (fun a ha _ _ hlen => plain_of_check (hall a ha) hlen) hr
  exact ⟨tr, w, hrun, hlast, screen_is_log hrun⟩

end Harness.Network
