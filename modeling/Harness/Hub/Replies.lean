/-
# Harness.Hub.Replies — the replies of a connection, command by command.

A client sends commands and waits for each of them to be answered. `handleCommand` runs in the read loop
of its connection, so the replies come in the order of the commands, and each is one of four: an error
frame, the ack of a replay, the ack of an event, or that ack followed by the error of the agent.
`answered_in_turn` says so of every connection in every run, with all the commands the connection has
read: none is left without its answer, none is answered twice, and at most the last one is still to be
answered. Events, which other goroutines put between the replies, do not count as replies.
-/
import Harness.Hub.Decision
import Harness.Lib.Recorded

namespace Harness.Hub

open Wire Lib

/-! ## Commands in, replies out -/

/-- The command an action lets a connection read. -/
def commandRead : Action → Option (ConnId × CommandPayload)
  | .conn c (.frame cmd) => some (c, cmd)
  | _ => none

/-- The commands connection `c` has read. -/
def reads (c : ConnId) (ins : List (ConnId × CommandPayload)) : List CommandPayload :=
  (ins.filter fun r => r.1 == c).map (·.2)

/-- An ack, or an error frame. -/
def isReply : Envelope → Bool
  | .ack _ _ | .error _ _ _ => true
  | _ => false

/-- The answer an observation offers to connection `c`. -/
def Obs.replyTo (c : ConnId) (o : Obs) : Option Envelope :=
  match o.offer with
  | some (d, f) => if d = c ∧ isReply f = true then some f else none
  | none => none

/-- The replies connection `c` was offered. -/
def replies (c : ConnId) (os : List Obs) : List Envelope := os.filterMap (Obs.replyTo c)

/-- **`Response tr c cmd fs`** — `fs` are the frames that answer the command `cmd`. -/
inductive Response (tr : List Obs) (c : ConnId) (cmd : CommandPayload) : List Envelope → Prop
  /-- no event, and the agent hears nothing of the command -/
  | refused {code : ErrorCode} {message : String} (hcode : code ≠ .agentError) :
      Response tr c cmd [.error cmd.id code message]
  /-- the key was there already -/
  | replayed : Response tr c cmd [.ack cmd.id 0]
  /-- the event is in the log, and the agent has taken the command -/
  | logged {dev : DeviceID} {ev : EventPayload} {out : AgentCommand}
      (hev : .appended (.command c dev (key cmd)) ev ∈ tr) (hout : .handed c dev (key cmd) out true ∈ tr) :
      Response tr c cmd [.ack cmd.id ev.seq]
  /-- the event is in the log, and the agent has refused the command -/
  | agentRefused {dev : DeviceID} {ev : EventPayload} {out : AgentCommand} {message : String}
      (hev : .appended (.command c dev (key cmd)) ev ∈ tr) (hout : .handed c dev (key cmd) out false ∈ tr) :
      Response tr c cmd [.ack cmd.id ev.seq, .error cmd.id .agentError message]

/-- The frames that have answered the command the handler stands at. -/
inductive Begun (tr : List Obs) (c : ConnId) (dev : DeviceID) (cmd : CommandPayload) :
    HandlerPc → List Envelope → Prop
  | start : Begun tr c dev cmd .start []
  | replay : Begun tr c dev cmd .replay []
  | execute : Begun tr c dev cmd .execute []
  | append {out : AgentCommand} : Begun tr c dev cmd (.append out) []
  | ack {ev : EventPayload} {out : AgentCommand} (hev : .appended (.command c dev (key cmd)) ev ∈ tr) :
      Begun tr c dev cmd (.ack ev out) []
  | broadcast {ev : EventPayload} {out : AgentCommand} {pc : BroadcastPc}
      (hev : .appended (.command c dev (key cmd)) ev ∈ tr) :
      Begun tr c dev cmd (.broadcast ev out pc) [.ack cmd.id ev.seq]
  | command {ev : EventPayload} {out : AgentCommand} (hev : .appended (.command c dev (key cmd)) ev ∈ tr) :
      Begun tr c dev cmd (.command ev out) [.ack cmd.id ev.seq]
  | reject {code : ErrorCode} {message : String} (hcode : code ≠ .agentError) :
      Begun tr c dev cmd (.reject code message) []
  | rejectLate {ev : EventPayload} {out : AgentCommand} {message : String}
      (hev : .appended (.command c dev (key cmd)) ev ∈ tr) (hout : .handed c dev (key cmd) out false ∈ tr) :
      Begun tr c dev cmd (.reject .agentError message) [.ack cmd.id ev.seq]

/-- What a connection is still at: the command it handles, with the frames that have answered it. -/
inductive AtWork (tr : List Obs) (c : ConnId) : ConnPhase → List (CommandPayload × List Envelope) → Prop
  | handling {dev : DeviceID} {cmd : CommandPayload} {pc : HandlerPc} {fs : List Envelope}
      (hb : Begun tr c dev cmd pc fs) : AtWork tr c (.handling dev cmd pc) [(cmd, fs)]
  | idle {ph : ConnPhase} (hno : ∀ dev cmd pc, ph ≠ .handling dev cmd pc) : AtWork tr c ph []

/-- **`Exchange tr c ph ins`** — of the commands `ins`, all but the one connection `c` is at have their
response, and the replies in the trace are those responses, one after the other. -/
def Exchange (tr : List Obs) (c : ConnId) (ph : ConnPhase) (ins : List CommandPayload) : Prop :=
  ∃ done rest : List (CommandPayload × List Envelope),
    (∀ r ∈ done, Response tr c r.1 r.2) ∧ AtWork tr c ph rest ∧
      ins = (done ++ rest).map (·.1) ∧ replies c tr = (done ++ rest).flatMap (·.2)

/-! ## One step -/

theorem Response.mono {tr tr' : List Obs} (hsub : ∀ o ∈ tr, o ∈ tr') {c : ConnId} {cmd : CommandPayload}
    {fs : List Envelope} (h : Response tr c cmd fs) : Response tr' c cmd fs := by
  cases h with
  | refused hcode => exact .refused hcode
  | replayed => exact .replayed
  | logged hev hout => exact .logged (hsub _ hev) (hsub _ hout)
  | agentRefused hev hout => exact .agentRefused (hsub _ hev) (hsub _ hout)

theorem Begun.mono {tr tr' : List Obs} (hsub : ∀ o ∈ tr, o ∈ tr') {c : ConnId} {dev : DeviceID}
    {cmd : CommandPayload} {pc : HandlerPc} {fs : List Envelope} (h : Begun tr c dev cmd pc fs) :
    Begun tr' c dev cmd pc fs := by
  cases h with
  | start => exact .start
  | replay => exact .replay
  | execute => exact .execute
  | append => exact .append
  | ack hev => exact .ack (hsub _ hev)
  | broadcast hev => exact .broadcast (hsub _ hev)
  | command hev => exact .command (hsub _ hev)
  | reject hcode => exact .reject hcode
  | rejectLate hev hout => exact .rejectLate (hsub _ hev) (hsub _ hout)

theorem AtWork.mono {tr tr' : List Obs} (hsub : ∀ o ∈ tr, o ∈ tr') {c : ConnId} {ph : ConnPhase}
    {rest : List (CommandPayload × List Envelope)} (h : AtWork tr c ph rest) : AtWork tr' c ph rest := by
  cases h with
  | handling hb => exact .handling (hb.mono hsub)
  | idle hno => exact .idle hno

theorem replies_append (c : ConnId) (t os : List Obs) : replies c (t ++ os) = replies c t ++ replies c os :=
  List.filterMap_append

/-- Whatever is not an answer to the connection leaves its replies alone. -/
theorem replies_eq_nil {c : ConnId} {os : List Obs}
    (h : ∀ o ∈ os, ∀ d f, o.offer = some (d, f) → d ≠ c ∨ isReply f = false) : replies c os = [] := by
  apply List.filterMap_eq_nil_iff.mpr
  intro o ho
  unfold Obs.replyTo
  split
  · rename_i d f hoff
    rcases h o ho d f hoff with hd | hf
    · simp [hd]
    · simp [hf]
  · rfl

/-- An observation that offers nothing is passed over. -/
theorem replies_cons_quiet {c : ConnId} {o : Obs} (ho : o.offer = none) (os : List Obs) :
    replies c (o :: os) = replies c os := by
  simp [replies, Obs.replyTo, ho]

theorem replies_queued {cfg : Config} {h : Hub} {c d : ConnId} (f : Envelope) :
    replies d [(enqueueRaw cfg h c f).2] = if c = d ∧ isReply f = true then [f] else [] := by
  by_cases hf : c = d ∧ isReply f = true <;> simp [replies, Obs.replyTo, hf]

/-- A frame queued for one client replies no other. -/
theorem replies_queued_other {cfg : Config} {h : Hub} {c d : ConnId} (hd : c ≠ d) (f : Envelope) :
    replies d [(enqueueRaw cfg h c f).2] = [] := by
  rw [replies_queued]
  simp [hd]

/-- An answer that is queued replies the connection. -/
theorem replies_queued_self {cfg : Config} {h : Hub} {c : ConnId} {f : Envelope}
    (hf : isReply f = true) : replies c [(enqueueRaw cfg h c f).2] = [f] := by
  rw [replies_queued]
  simp [hf]

/-- An exchange goes on when the connection stays where it is and is not answered. -/
theorem Exchange.still {t os : List Obs} {c : ConnId} {ph : ConnPhase} {ins : List CommandPayload}
    (h : Exchange t c ph ins) (hos : replies c os = []) : Exchange (t ++ os) c ph ins := by
  have hsub : ∀ o ∈ t, o ∈ t ++ os := fun o ho => List.mem_append_left os ho
  obtain ⟨done, rest, hdone, hwork, hins, hans⟩ := h
  refine ⟨done, rest, fun r hr => (hdone r hr).mono hsub, hwork.mono hsub, hins, ?_⟩
  rw [replies_append, hos, List.append_nil]
  exact hans

/-- The broadcast of an event replies nobody. -/
theorem BroadcastTrans.replies {cfg : Config} {h h' : Hub} {ev : EventPayload} {pc : BroadcastPc}
    {pc' : Option BroadcastPc} {os : List Obs} (ht : BroadcastTrans cfg h ev pc h' pc' os) (c : ConnId) :
    replies c os = [] := by
  obtain ⟨-, -, -, hos⟩ := ht.frame
  apply replies_eq_nil
  intro o ho d f hoff
  obtain ⟨d', hd'⟩ := hos o ho
  rw [hd'] at hoff
  cases hoff
  exact .inr rfl

/-- Neither does the registration of a client, which offers it a snapshot and events. -/
theorem ServeTrans.replies {cfg : Config} {c : ConnId} {h h' : Hub} {dev : DeviceID} {k : Int} {pc : ServePc}
    {ph : ConnPhase} {os : List Obs} (ht : ServeTrans cfg c h dev k pc h' ph os) (d : ConnId) :
    replies d os = [] := by
  apply replies_eq_nil
  intro o ho d' f hoff
  cases ht with
  | getSession | getEvents | getSince => cases ho
  | quit =>
    rw [List.mem_singleton.mp ho] at hoff
    cases hoff
  | register hh1 henq =>
    rcases List.mem_cons.mp ho with rfl | ho
    · cases hoff
    · obtain ⟨g, hg, hog⟩ := enqueueAll_obs henq o ho
      rw [hog] at hoff
      cases hoff
      rcases List.mem_cons.mp hg with rfl | hg
      · exact .inr rfl
      · obtain ⟨ev, -, rfl⟩ := List.mem_map.mp hg
        exact .inr rfl

/-- What `handleCommand` offers to another client is no answer. -/
theorem HandleTrans.replies_other {cfg : Config} {c : ConnId} {h h' : Hub} {dev : DeviceID}
    {cmd : CommandPayload} {pc : HandlerPc} {ch : Choice} {ph : ConnPhase} {os : List Obs}
    (ht : HandleTrans cfg c h dev cmd pc ch h' ph os) {d : ConnId} (hd : c ≠ d) : replies d os = [] := by
  cases ht with
  | broadcast hb | broadcastDone hb => exact hb.replies d
  | execute hex => cases hex <;> rfl
  | noId => exact replies_queued_other hd _
  | replay | ack | reject =>
    rw [replies_cons_quiet rfl]
    exact replies_queued_other hd _
  | _ => rfl

theorem ConnTrans.replies_other {cfg : Config} {c : ConnId} {h h' : Hub} {ph ph' : ConnPhase} {ch : Choice}
    {os : List Obs} (ht : ConnTrans cfg c h ph ch h' ph' os) {d : ConnId} (hd : c ≠ d) :
    replies d os = [] := by
  cases ht with
  | handling ht => exact ht.replies_other hd
  | serving ht => exact ht.replies d
  | pairing ht => exact replies_eq_nil fun o ho _ _ hoff => by rw [ht.offers o ho] at hoff; cases hoff
  | turnedAway hos =>
    apply replies_eq_nil
    intro o ho _ _ hoff
    obtain ⟨code, message, rfl⟩ := hos o ho
    cases hoff
  | _ => rfl

theorem IngestTrans.replies {cfg : Config} {h h' : Hub} {ph ph' : IngestPhase} {ch : Choice} {os : List Obs}
    (ht : IngestTrans cfg h ph ch h' ph' os) (c : ConnId) : replies c os = [] := by
  cases ht with
  | broadcast hb | broadcastDone hb => exact hb.replies c
  | note =>
    unfold Hub.note
    split <;> rfl
  | _ => rfl

/-- A step that is not the connection's own replies it nothing. -/
theorem StepTrans.replies_other {cfg : Config} {w w' : World} {a : Action} {os : List Obs}
    (h : StepTrans cfg w a w' os) {c : ConnId} (ha : ∀ ch, a ≠ .conn c ch) : replies c os = [] := by
  cases h with
  | @conn d ch ph ph' h' os hph ht =>
    apply ht.replies_other
    rintro rfl
    exact ha ch rfl
  | ingest ht => exact ht.replies c
  | write hw hos => rcases hos with ⟨f, rfl, -⟩ | rfl <;> rfl
  | _ => rfl

/-! ## A connection's own steps -/

section Own

variable {cfg : Config} {c : ConnId} {h h' : Hub} {t os : List Obs} {dev : DeviceID} {cmd : CommandPayload}
  {pc : HandlerPc} {ch : Choice} {ph' : ConnPhase} {fs : List Envelope}

/-- A command that has been answered stands among the others. -/
theorem Exchange.finish {done : List (CommandPayload × List Envelope)} {ins : List CommandPayload}
    {gs : List Envelope} (hdone : ∀ r ∈ done, Response t c r.1 r.2) (hins : ins = done.map (·.1) ++ [cmd])
    (hans : replies c t = done.flatMap (·.2) ++ fs) (hos : replies c os = gs)
    (hresp : Response (t ++ os) c cmd (fs ++ gs)) : Exchange (t ++ os) c (.reading dev) ins := by
  refine ⟨done ++ [(cmd, fs ++ gs)], [], ?_, .idle (fun _ _ _ he => by cases he), ?_, ?_⟩
  · intro r hr
    rcases List.mem_append.mp hr with hr | hr
    · exact (hdone r hr).mono fun o ho => List.mem_append_left os ho
    · rw [List.mem_singleton.mp hr]
      exact hresp
  · simp [hins]
  · simp [replies_append, hans, hos]

/-- A command that is still at work keeps its place. -/
theorem Exchange.goOn {done : List (CommandPayload × List Envelope)} {ins : List CommandPayload}
    {gs : List Envelope} {pc' : HandlerPc} (hdone : ∀ r ∈ done, Response t c r.1 r.2)
    (hins : ins = done.map (·.1) ++ [cmd]) (hans : replies c t = done.flatMap (·.2) ++ fs)
    (hos : replies c os = gs) (hb : Begun (t ++ os) c dev cmd pc' (fs ++ gs)) :
    Exchange (t ++ os) c (.handling dev cmd pc') ins := by
  refine ⟨done, [(cmd, fs ++ gs)], ?_, .handling hb, ?_, ?_⟩
  · exact fun r hr => (hdone r hr).mono fun o ho => List.mem_append_left os ho
  · simp [hins]
  · simp [replies_append, hans, hos]

/-- **One step of `handleCommand`** replies its command or goes on. -/
theorem HandleTrans.exchange {done : List (CommandPayload × List Envelope)} {ins : List CommandPayload}
    (ht : HandleTrans cfg c h dev cmd pc ch h' ph' os) (hdone : ∀ r ∈ done, Response t c r.1 r.2)
    (hins : ins = done.map (·.1) ++ [cmd]) (hans : replies c t = done.flatMap (·.2) ++ fs)
    (hb : Begun t c dev cmd pc fs) : Exchange (t ++ os) c ph' ins := by
  have hsub : ∀ o ∈ t, o ∈ t ++ os := fun o ho => List.mem_append_left os ho
  cases ht with
  | noId hid =>
    cases hb
    refine Exchange.finish hdone hins hans (replies_queued_self rfl) ?_
    rw [← hid]
    exact .refused nofun
  | suppress =>
    cases hb
    exact Exchange.goOn hdone hins hans rfl .replay
  | accept =>
    cases hb
    exact Exchange.goOn hdone hins hans rfl .execute
  | replay =>
    cases hb
    exact Exchange.finish hdone hins hans ((replies_cons_quiet rfl _).trans (replies_queued_self rfl)) .replayed
  | execute hex =>
    cases hb
    cases hex with
    | claim | proceed => exact Exchange.goOn hdone hins hans rfl .append
    | refuse hcode => exact Exchange.goOn hdone hins hans rfl (.reject hcode)
  | append =>
    cases hb
    exact Exchange.goOn hdone hins hans rfl (.ack (by simp))
  | appendFails =>
    cases hb
    exact Exchange.goOn hdone hins hans rfl (.reject nofun)
  | ack =>
    cases hb with
    | ack hev =>
      exact Exchange.goOn hdone hins hans ((replies_cons_quiet rfl _).trans (replies_queued_self rfl))
        (.broadcast (hsub _ hev))
  | broadcast hbr =>
    cases hb with
    | broadcast hev =>
      exact Exchange.goOn hdone hins hans (hbr.replies c) (.broadcast (hsub _ hev))
  | broadcastDone hbr =>
    cases hb with
    | broadcast hev => exact Exchange.goOn hdone hins hans (hbr.replies c) (.command (hsub _ hev))
  | command =>
    cases hb with
    | command hev => exact Exchange.finish hdone hins hans rfl (.logged (hsub _ hev) (List.mem_concat_self ..))
  | commandFails =>
    cases hb with
    | command hev => exact Exchange.goOn hdone hins hans rfl (.rejectLate (hsub _ hev) (List.mem_concat_self ..))
  | reject =>
    cases hb with
    | reject hcode =>
      exact Exchange.finish hdone hins hans ((replies_cons_quiet rfl _).trans (replies_queued_self rfl))
        (.refused hcode)
    | rejectLate hev hout =>
      exact Exchange.finish hdone hins hans ((replies_cons_quiet rfl _).trans (replies_queued_self rfl))
        (.agentRefused (hsub _ hev) (hsub _ hout))

end Own

/-- Outside `handleCommand` nothing is outstanding. -/
theorem Exchange.idle {t : List Obs} {c : ConnId} {ph ph' : ConnPhase} {ins : List CommandPayload}
    (h : Exchange t c ph ins) (hno : ∀ dev cmd pc, ph ≠ .handling dev cmd pc)
    (hno' : ∀ dev cmd pc, ph' ≠ .handling dev cmd pc) : Exchange t c ph' ins := by
  obtain ⟨done, rest, hdone, hwork, hins, hans⟩ := h
  cases hwork with
  | handling => exact absurd rfl (hno _ _ _)
  | idle => exact ⟨done, [], hdone, .idle hno', hins, hans⟩

/-- A command is read between two commands, and nothing has answered it yet. -/
theorem Exchange.read {t : List Obs} {c : ConnId} {dev : DeviceID} {ins : List CommandPayload}
    (h : Exchange t c (.reading dev) ins) (cmd : CommandPayload) :
    Exchange t c (.handling dev cmd .start) (ins ++ [cmd]) := by
  obtain ⟨done, rest, hdone, hwork, hins, hans⟩ := h
  cases hwork with
  | idle =>
    refine ⟨done, [(cmd, [])], hdone, .handling .start, ?_, ?_⟩
    · simp [hins]
    · simp [hans]

/-- A pairing does not lead to a command. -/
theorem PairTrans.not_handling {cfg : Config} {c : ConnId} {h h' : Hub} {p : Attempt} {pc : PairPc} {ch : Choice}
    {ph : ConnPhase} {os : List Obs} (ht : PairTrans cfg c h p pc ch h' ph os) :
    ∀ dev cmd pc, ph ≠ .handling dev cmd pc := by
  intro dev cmd pc he
  cases ht <;> cases he

theorem ServeTrans.not_handling {cfg : Config} {c : ConnId} {h h' : Hub} {dev : DeviceID} {k : Int}
    {pc : ServePc} {ph : ConnPhase} {os : List Obs} (ht : ServeTrans cfg c h dev k pc h' ph os) :
    ∀ dev cmd pc, ph ≠ .handling dev cmd pc := by
  intro dev cmd pc he
  cases ht <;> cases he

/-- **A step of the connection's own** that reads no command. -/
theorem connStep_exchange {cfg : Config} {c : ConnId} {h h' : Hub} {ph ph' : ConnPhase} {ch : Choice}
    {t os : List Obs} {ins : List CommandPayload} (hs : connStep cfg c h ph ch = some (h', ph', os))
    (hread : ∀ cmd, ch ≠ .frame cmd) (hx : Exchange t c ph ins) : Exchange (t ++ os) c ph' ins := by
  cases ph with
  | handling dev cmd pc =>
    obtain ⟨done, rest, hdone, hwork, hins, hans⟩ := hx
    cases hwork with
    | handling hb =>
      apply (handleStep_trans hs).exchange hdone
      · simpa using hins
      · simpa using hans
      · exact hb
    | idle hno => exact absurd rfl (hno _ _ _)
  | reading dev =>
    have leave : Exchange t c .closed ins := hx.idle (fun _ _ _ he => by cases he) fun _ _ _ he => by cases he
    cases ch with
    | frame cmd => exact absurd rfl (hread cmd)
    | skip =>
      cases hs
      exact hx.still rfl
    | gone =>
      cases hs
      exact leave.still rfl
    | _ => cases hs
  | pairing p pc =>
    have ht := pairStep_trans hs
    apply Exchange.still _ (replies_eq_nil fun o ho _ _ hoff => by rw [ht.offers o ho] at hoff; cases hoff)
    exact hx.idle (fun _ _ _ he => by cases he) ht.not_handling
  | serving dev k pc =>
    have ht := serveStep_trans hs
    exact (hx.idle (fun _ _ _ he => by cases he) ht.not_handling).still (ht.replies c)
  | readHello hc ra ua =>
    have quiet {ph'' : ConnPhase} (hno : ∀ dev cmd pc, ph'' ≠ .handling dev cmd pc) : Exchange t c ph'' ins :=
      hx.idle (fun _ _ _ he => by cases he) hno
    cases connStep_trans hs with
    | authenticated => exact (quiet fun _ _ _ he => by cases he).still rfl
    | unauthenticated => exact (quiet fun _ _ _ he => by cases he).still rfl
    | turnedAway hos =>
      apply (quiet fun _ _ _ he => by cases he).still
      apply replies_eq_nil
      intro o ho _ _ hoff
      obtain ⟨code, message, rfl⟩ := hos o ho
      cases hoff
  | closed => cases hs

/-! ## The run -/

theorem reads_append (c : ConnId) (xs ys : List (ConnId × CommandPayload)) :
    reads c (xs ++ ys) = reads c xs ++ reads c ys := by
  simp [reads]

/-- A step of the connection's own, with the command it may have read. -/
theorem Exchange.own {cfg : Config} {c : ConnId} {h h' : Hub} {ph ph' : ConnPhase} {ch : Choice}
    {t os : List Obs} {ins : List CommandPayload} (hx : Exchange t c ph ins)
    (hs : connStep cfg c h ph ch = some (h', ph', os)) :
    Exchange (t ++ os) c ph' (ins ++ reads c (commandRead (.conn c ch)).toList) := by
  by_cases hread : ∃ cmd, ch = .frame cmd
  · obtain ⟨cmd, rfl⟩ := hread
    obtain ⟨dev, rfl, rfl, rfl, rfl⟩ := connStep_frame hs
    have hone : reads c (commandRead (.conn c (.frame cmd))).toList = [cmd] := by simp [commandRead, reads]
    rw [hone, List.append_nil]
    exact hx.read cmd
  · have hnone : commandRead (.conn c ch) = none := by
      unfold commandRead
      split
      · rename_i heq
        cases heq
        exact absurd ⟨_, rfl⟩ hread
      · rfl
    have hnil : reads c (commandRead (.conn c ch)).toList = [] := by rw [hnone]; rfl
    rw [hnil, List.append_nil]
    exact connStep_exchange hs (fun cmd he => hread ⟨cmd, he⟩) hx

/-- What another connection reads is not read by this one. -/
theorem reads_other {a : Action} {c : ConnId} (ha : ∀ ch, a ≠ .conn c ch) :
    reads c (commandRead a).toList = [] := by
  unfold commandRead
  split
  · rename_i d cmd
    have hd : d ≠ c := by
      rintro rfl
      exact ha _ rfl
    simp [reads, hd]
  · rfl

/-- A step that is not the connection's own leaves it where it is, or brings it about. -/
theorem StepTrans.phase_other {cfg : Config} {w w' : World} {a : Action} {os : List Obs}
    (h : StepTrans cfg w a w' os) {c : ConnId} (ha : ∀ ch, a ≠ .conn c ch) :
    w'.conns[c]? = w.conns[c]? ∨
      (w.conns[c]? = none ∧ ∃ hc ra ua, w'.conns[c]? = some (.readHello hc ra ua)) := by
  cases h with
  | @conn d ch ph ph' h' os hph ht =>
    have hd : d ≠ c := by
      rintro rfl
      exact ha _ rfl
    exact .inl (List.getElem?_set_ne hd)
  | @accept authorization hc ra ua =>
    rcases Nat.lt_trichotomy c w.conns.length with hlt | rfl | hgt
    · exact .inl (List.getElem?_append_left hlt)
    · exact .inr ⟨by simp, hc, ra, ua, by simp⟩
    · refine .inl ?_
      have hlen : (w.conns ++ [ConnPhase.readHello hc ra ua]).length ≤ c := by
        rw [List.length_append, List.length_singleton]
        omega
      show (w.conns ++ [.readHello hc ra ua])[c]? = _
      rw [List.getElem?_eq_none hlen, List.getElem?_eq_none (by omega)]
  | _ => exact .inl rfl

/-- The invariant: every connection, one that is yet to come included, has had its replies. -/
theorem exchanges {cfg : Config} {db : Store} {now : Int}
    {P : List ((ConnId × CommandPayload) ⊕ Obs) → World → Action → Prop}
    {tr : List ((ConnId × CommandPayload) ⊕ Obs)} {w : World}
    (h : ((system cfg).recording commandRead).Run P [] (World.init cfg db now) tr w) (c : ConnId) :
    Exchange (Lts.outputs tr) c ((w.conns[c]?).getD .closed) (reads c (Lts.inputs tr)) := by
  refine h.invariant (I := fun t u => Exchange (Lts.outputs t) c ((u.conns[c]?).getD .closed)
    (reads c (Lts.inputs t))) ?_ ?_
  · exact ⟨[], [], List.forall_mem_nil _, .idle (fun _ _ _ he => by cases he), rfl, rfl⟩
  · intro t u a u' os _ ih _ hs
    obtain ⟨os', hstep, rfl⟩ := Lts.of_recording_step hs
    rw [Lts.outputs_append, Lts.outputs_step, Lts.inputs_append, Lts.inputs_step, reads_append]
    by_cases ha : ∃ ch, a = .conn c ch
    · obtain ⟨ch, rfl⟩ := ha
      obtain ⟨ph, h', ph', hph, hc, rfl⟩ := World.step_conn hstep
      obtain ⟨hlt, -⟩ := List.getElem?_eq_some_iff.mp hph
      rw [hph] at ih
      have hset : (u.conns.set c ph')[c]? = some ph' := by simp [hlt]
      show Exchange _ c (((u.conns.set c ph')[c]?).getD .closed) _
      rw [hset]
      exact ih.own hc
    · have hother : ∀ ch, a ≠ .conn c ch := fun ch he => ha ⟨ch, he⟩
      have hst := World.step_trans hstep
      rw [reads_other hother, List.append_nil]
      apply Exchange.still _ (hst.replies_other hother)
      rcases hst.phase_other hother with hsame | ⟨hnone, hc, ra, ua, hnew⟩
      · rw [hsame]
        exact ih
      · rw [hnone] at ih
        rw [hnew]
        exact ih.idle (fun _ _ _ he => by cases he) fun _ _ _ he => by cases he

/-- **Every command is answered, once, in its turn**: of the commands a connection has read, all but the one
it is at have had their response, and beyond those responses it was sent no ack and no error frame. -/
theorem answered_in_turn {cfg : Config} {db : Store} {now : Int}
    {tr : List ((ConnId × CommandPayload) ⊕ Obs)} {w : World}
    (h : ((system cfg).recording commandRead).Run Lts.Free [] (World.init cfg db now) tr w) {c : ConnId}
    {ph : ConnPhase} (hph : w.conns[c]? = some ph) :
    Exchange (Lts.outputs tr) c ph (reads c (Lts.inputs tr)) := by
  have hx := exchanges h c
  rw [hph] at hx
  exact hx

/-- A prompt, the same prompt again, and an answer to a request nobody made. -/
def threeCommands : List Action :=
  Sample.connect 0 "phone-secret" 0 ++
    [.conn 0 (Sample.command "c1" .sendPrompt [("text", .str "hi")])] ++ Sample.handle 0 [0] ++
    [.conn 0 (Sample.command "c1" .sendPrompt [("text", .str "hi")]), .conn 0 .run, .conn 0 .run,
      .conn 0 (Sample.command "c2" .answerPermission [("requestId", .str "r1"), ("allow", .bool true)]),
      .conn 0 .run, .conn 0 .run, .conn 0 .run]

theorem answered_in_turn_threeCommands :
    ∃ tr w, ((system Sample.config).recording commandRead).Run Lts.Free [] Sample.start tr w ∧
      w.conns[0]? = some (.reading Sample.phone) ∧
      (reads 0 (Lts.inputs tr)).map (·.id) = ["c1", "c1", "c2"] ∧
      Exchange (Lts.outputs tr) 0 (.reading Sample.phone) (reads 0 (Lts.inputs tr)) := by
  have hexec : ∃ r, ((system Sample.config).recording commandRead).exec (fun _ _ _ => true) []
      Sample.start threeCommands = some r ∧ r.2.conns[0]? = some (.reading Sample.phone) ∧
      (reads 0 (Lts.inputs r.1)).map (·.id) = ["c1", "c1", "c2"] := ⟨_, rfl, rfl, rfl⟩
  obtain ⟨r, he, hph, hids⟩ := hexec
  have hrun := Lts.run_of_exec (P := Lts.Free) (fun _ _ _ _ => trivial) he
  exact ⟨r.1, r.2, hrun, hph, hids, answered_in_turn hrun hph⟩

end Harness.Hub
