/-
# Harness.Client.Promises — what becomes of the promise of a command.

A promise is made when a command is queued, its entry in `pending` stands beside the command's in
`outbox`, and an ack or an error frame takes both out and settles it. The books balance command by
command: issued is settled plus queued.

Three steps unbalance them. A snapshot of another session clears the queue and leaves `pending` alone:
nothing is sent for those entries any more, and nobody rejects them. An error frame whose code or
message cannot be converted to text takes the entries out and throws before it rejects. And an id that
is given out again while its command is queued replaces it. `promises_accounted` is the law of the runs
that take none of them.

A call that finds the queue full gets no id and no entry; its promise is rejected at once.
-/
import Harness.Client.Outbox

namespace Harness.Client

open Lib

/-! ## Issues and settlements -/

/-- The observation makes the promise of command `id`. -/
def issueOf (id : String) : Obs → Bool
  | .issued id' _ => id' == id
  | _ => false

/-- The observation settles the promise of command `id`. -/
def settlementOf (id : String) : Obs → Bool
  | .resolved id' => id' == id
  | .rejected id' _ => id' == id
  | _ => false

/-- An observation that makes no promise and settles none. -/
def Obs.Idle : Obs → Prop
  | .issued _ _ | .resolved _ | .rejected _ _ => False
  | _ => True

theorem Obs.Quiet.idle {s : SessionState} {o : Obs} (h : o.Quiet s) : o.Idle := by
  cases o with
  | issued => exact h.elim
  | resolved => exact h.elim
  | rejected => exact h.elim
  | _ => trivial

theorem Obs.Resent.idle {c : HarnessClient} {o : Obs} (h : o.Resent c) : o.Idle := by
  rcases h with h | ⟨i, cmd, rfl, -⟩
  · exact h.idle
  · trivial

theorem countP_idle (id : String) {os : List Obs} (h : ∀ o ∈ os, o.Idle) :
    os.countP (issueOf id) = 0 ∧ os.countP (settlementOf id) = 0 := by
  rw [List.countP_eq_zero, List.countP_eq_zero]
  constructor
  · intro o ho
    cases o with
    | issued => exact (h _ ho).elim
    | _ => exact Bool.false_ne_true
  · intro o ho
    cases o with
    | resolved => exact (h _ ho).elim
    | rejected => exact (h _ ho).elim
    | _ => exact Bool.false_ne_true

/-! ## The books -/

/-- **`Orderly`** — the condition on a step. `uuid()` returns no id that is in use; a snapshot of
another session finds the queue empty; an error frame about a queued command can be put into words. -/
structure Orderly (_ : List Obs) (c : HarnessClient) (a : Action) : Prop where
  fresh : ∀ req id, a = .send req id → id ∉ c.outbox.keys
  settledFirst : ∀ snap, Delivered c a (.snapshot snap) → c.differs snap = true → c.outbox.keys = []
  worded : ∀ err id, Delivered c a (.error err) → err.get "commandId" = .str id → id ∈ c.outbox.keys →
    ((err.get "code").templateOk && (err.get "message").templateOk) = true

/-- The two maps have the same keys, no promise in `pending` is settled, and of every command issued
the promise was settled, or the command is queued. -/
structure Books (tr : List Obs) (c : HarnessClient) : Prop where
  keys : c.pending.keys = c.outbox.keys
  unsettled : ∀ e ∈ c.pending.entries, e.2 = ⟨false⟩
  balance : ∀ id, tr.countP (issueOf id) =
    tr.countP (settlementOf id) + if id ∈ c.outbox.keys then 1 else 0

theorem books_new (url : String) (authMode : AuthMode) (identity : Option Identity)
    (maxItems : Option Nat) : Books [] (.new url authMode identity maxItems) where
  keys := rfl
  unsettled := by intro e he; cases he
  balance := by intro id; rfl

/-- A turn that moves neither map. -/
theorem Books.kept {tr os : List Obs} {c c' : HarnessClient} (h : Books tr c)
    (ho : c'.outbox.keys = c.outbox.keys) (hp : c'.pending = c.pending) (hos : ∀ o ∈ os, o.Idle) :
    Books (tr ++ os) c' where
  keys := by rw [hp, ho, h.keys]
  unsettled := by rw [hp]; exact h.unsettled
  balance := by
    intro id
    obtain ⟨hi, hs⟩ := countP_idle id hos
    rw [List.countP_append, List.countP_append, hi, hs, ho]
    exact h.balance id

/-- A command is queued: one promise more, one entry more. -/
theorem Books.issue {tr : List Obs} {c c' : HarnessClient} (h : Books tr c) {id : String}
    {s : JsValue} (hfresh : id ∉ c.outbox.keys) {cmd : Wire.CommandPayload}
    (ho : c'.outbox = c.outbox.set id cmd) (hp : c'.pending = c.pending.set id ⟨false⟩) :
    Books (tr ++ [.issued id s]) c' where
  keys := by rw [ho, hp, OrderedMap.keys_set, OrderedMap.keys_set, h.keys]
  unsettled := by
    intro e he
    rw [hp, OrderedMap.mem_entries_set] at he
    rcases he with rfl | ⟨he, -⟩
    · rfl
    · exact h.unsettled e he
  balance := by
    intro k
    have hb := h.balance k
    simp only [List.countP_append, List.countP_singleton, ho, OrderedMap.mem_keys_set]
    by_cases hk : k = id
    · subst hk
      simp [hfresh, issueOf, settlementOf] at hb ⊢
      omega
    · have hk' : id ≠ k := fun he => hk he.symm
      simp [hk, hk', issueOf, settlementOf] at hb ⊢
      omega

/-- A promise is settled: one entry less. -/
theorem Books.settle {tr : List Obs} {c c' : HarnessClient} (h : Books tr c) {id : String} {o : Obs}
    (hid : id ∈ c.outbox.keys) (ho : o = .resolved id ∨ ∃ code, o = .rejected id code)
    (hout : c'.outbox = c.outbox.delete id) (hp : c'.pending = c.pending.delete id) :
    Books (tr ++ [o]) c' where
  keys := by rw [hout, hp, OrderedMap.keys_delete, OrderedMap.keys_delete, h.keys]
  unsettled := by
    intro e he
    rw [hp, OrderedMap.mem_entries_delete] at he
    exact h.unsettled e he.1
  balance := by
    intro k
    have hb := h.balance k
    have hcount : [o].countP (issueOf k) = 0 ∧
        [o].countP (settlementOf k) = if id = k then 1 else 0 := by
      rcases ho with rfl | ⟨code, rfl⟩ <;> by_cases hk : id = k <;> simp [issueOf, settlementOf, hk]
    rw [List.countP_append, List.countP_append, hcount.1, hcount.2, hout]
    simp only [OrderedMap.mem_keys_delete]
    by_cases hk : k = id
    · subst hk
      simp [hid] at hb ⊢
      omega
    · have hk' : id ≠ k := fun he => hk he.symm
      simp [hk, hk'] at hb ⊢
      omega

theorem books_step {tr os : List Obs} {c c' : HarnessClient} {a : Action} (h : Books tr c)
    (hP : Orderly tr c a) (hs : system.step c a = some (c', os)) : Books (tr ++ os) c' := by
  obtain ⟨d, ht, rfl, rfl⟩ := c.step_trans hs
  have hkept : ∀ {os : List Obs}, d.out = [] ++ os → d.outbox.keys = c.outbox.keys →
      d.pending = c.pending → (∀ o ∈ os, o.Idle) →
        Books (tr ++ d.out) { d with out := [] } := by
    intro os hout ho hp hos
    rw [hout, List.nil_append]
    exact h.kept ho hp hos
  have hkeys : ∀ {id : String}, c.pending.get id = some ⟨false⟩ → id ∈ c.outbox.keys := by
    intro id hp
    rw [← h.keys]
    exact OrderedMap.mem_keys_of_get hp
  cases ht with
  | silent h' =>
      exact h.kept (by rw [h'.outbox]) h'.pending fun o hm => (h'.seen rfl o hm).idle
  | renewed h' =>
      exact h.kept (by rw [h'.outbox]) h'.pending fun o hm => (h'.seen rfl o hm).elim (·.idle) (·.idle)
  | restored _ _ _ _ ho hp hout =>
      exact hkept hout (by rw [ho]) hp (by simp [Obs.Idle])
  | issued ha _ _ _ ho hp hout =>
      obtain ⟨os, hos, hq⟩ := hout
      rw [hos]
      show Books (tr ++ .issued _ _ :: os) _
      rw [List.append_cons]
      exact (h.issue (hP.fresh _ _ ha) ho hp).kept rfl rfl fun o hm => (hq o hm).idle
  | @accepted snap ha _ _ ho hp hout =>
      obtain ⟨os, hos, hq⟩ := hout
      refine hkept hos ?_ hp ?_
      · rw [ho]
        split
        · rename_i hd
          exact (hP.settledFirst snap ha hd).symm
        · rfl
      · intro o hm
        rcases List.mem_cons.mp hm with rfl | hm
        · trivial
        · exact (hq o hm).idle
  | applied _ _ _ _ _ _ ho hp hout =>
      obtain ⟨os, hos, hq⟩ := hout
      refine hkept hos (by rw [ho]) hp ?_
      intro o hm
      rcases List.mem_cons.mp hm with rfl | hm
      · trivial
      · exact (hq o hm).idle
  | discarded _ _ hc =>
      subst hc
      exact hkept rfl rfl rfl (by simp [Obs.Idle])
  | settled _ hf hp hc =>
      subst hc
      refine h.settle (hkeys hp) ?_ rfl rfl
      rcases hf with ⟨_, _, _, ho⟩ | ⟨_, _, _, ho, _⟩
      · exact .inl ho
      · exact .inr ⟨_, ho⟩
  | orphaned ha hid hp hbad =>
      have hok := hP.worded _ _ ha hid (hkeys hp)
      rw [hbad] at hok
      cases hok

/-! ## Who settles a promise, and what a call gets -/

/-- The frames a promise is settled by. -/
def SettledBy (c : HarnessClient) (a : Action) : Obs → Prop
  | .resolved id => ∃ ack, Delivered c a (.ack ack) ∧ ack.get "commandId" = .str id
  | .rejected id code =>
      ∃ err, Delivered c a (.error err) ∧ err.get "commandId" = .str id ∧ err.get "code" = code
  | _ => True

theorem Obs.Idle.settledBy {o : Obs} (h : o.Idle) (c : HarnessClient) (a : Action) :
    SettledBy c a o := by
  cases o with
  | resolved => exact h.elim
  | rejected => exact h.elim
  | _ => trivial

/-- In every state, only an ack resolves and only an error frame rejects. -/
theorem settled_by {c c' : HarnessClient} {a : Action} {os : List Obs}
    (hs : system.step c a = some (c', os)) : ∀ o ∈ os, SettledBy c a o := by
  obtain ⟨d, ht, rfl, rfl⟩ := c.step_trans hs
  have hidle : ∀ {os : List Obs}, d.out = [] ++ os → (∀ o ∈ os, o.Idle) →
      ∀ o ∈ d.out, SettledBy c a o := by
    intro os hout hos
    rw [hout, List.nil_append]
    exact fun o hm => (hos o hm).settledBy c a
  cases ht with
  | silent h => exact fun o hm => (h.seen rfl o hm).idle.settledBy c a
  | renewed h =>
      intro o hm
      have hidle : o.Idle := (h.seen rfl o hm).elim (·.idle) (·.idle)
      exact hidle.settledBy c a
  | restored _ _ _ _ _ _ hout => exact hidle hout (by simp [Obs.Idle])
  | issued _ _ _ _ _ _ hout =>
      obtain ⟨os, hos, hq⟩ := hout
      rw [hos]
      intro o hm
      rcases List.mem_cons.mp hm with rfl | hm
      · trivial
      · exact (hq o hm).idle.settledBy c a
  | accepted _ _ _ _ _ hout =>
      obtain ⟨os, hos, hq⟩ := hout
      refine hidle hos (List.forall_mem_cons.mpr ⟨trivial, fun o hm => (hq o hm).idle⟩)
  | applied _ _ _ _ _ _ _ _ hout =>
      obtain ⟨os, hos, hq⟩ := hout
      refine hidle hos (List.forall_mem_cons.mpr ⟨trivial, fun o hm => (hq o hm).idle⟩)
  | discarded _ _ hc =>
      subst hc
      exact hidle rfl (by simp [Obs.Idle])
  | settled ha hf _ hc =>
      subst hc
      intro o hm
      rcases List.mem_singleton.mp hm with rfl
      rcases hf with ⟨ack, rfl, hid, rfl⟩ | ⟨err, rfl, hid, rfl, -⟩
      · exact ⟨ack, ha, hid⟩
      · exact ⟨err, ha, hid, rfl⟩
  | orphaned _ _ _ _ hc =>
      subst hc
      exact hidle rfl (by simp [Obs.Idle])

/-- **`Promised c id c' os`** — the call of a command got a promise: the command is queued, or the
queue was full and the promise is rejected at once. -/
def Promised (c : HarnessClient) (id : String) (c' : HarnessClient) (os : List Obs) : Prop :=
  (.issued id c.session.sessionId ∈ os ∧ id ∈ c'.outbox.keys ∧ id ∈ c'.pending.keys) ∨
    (os = [.refused] ∧ HarnessClient.maxOutbox ≤ c.outbox.size ∧ c'.outbox = c.outbox ∧
      c'.pending = c.pending)

theorem promised_send {c c' : HarnessClient} {req : Request} {id : String} {os : List Obs}
    (hs : system.step c (.send req id) = some (c', os)) : Promised c id c' os := by
  cases hs
  unfold HarnessClient.sendCommand
  split
  · rename_i hfull
    exact .inr ⟨rfl, hfull, rfl, rfl⟩
  · refine .inl ?_
    dsimp only
    obtain ⟨rest, heq, -⟩ := HarnessClient.flushOutbox_spec
      (HarnessClient.emit
        { c with
          out := []
          outbox := c.outbox.set id
            { id := id, idempotencyKey := id, kind := req.command.1, payload := some req.command.2 }
          pending := c.pending.set id ⟨false⟩ } (.issued id c.session.sessionId))
    rw [heq]
    refine ⟨?_, OrderedMap.mem_keys_set.mpr (.inl rfl), OrderedMap.mem_keys_set.mpr (.inl rfl)⟩
    show _ ∈ [] ++ [Obs.issued id c.session.sessionId] ++ rest
    simp

/-! ## No promise is orphaned -/

/-- **`Accounted tr c`** — what holds of the promises after the trace `tr`. -/
structure Accounted (tr : List Obs) (c : HarnessClient) : Prop where
  /-- the ids of unsettled promises are the ids of queued commands -/
  waiting : ∀ id, c.pending.get id = some ⟨false⟩ ↔ id ∈ c.outbox.keys
  /-- each promise made is settled, once, or its command is queued -/
  balance : ∀ id, tr.countP (issueOf id) =
    tr.countP (settlementOf id) + if id ∈ c.outbox.keys then 1 else 0
  settledBy : ∀ a c' os, system.step c a = some (c', os) → ∀ o ∈ os, SettledBy c a o
  promised : ∀ req id c' os, system.step c (.send req id) = some (c', os) → Promised c id c' os

theorem Books.waiting {tr : List Obs} {c : HarnessClient} (h : Books tr c) (id : String) :
    c.pending.get id = some ⟨false⟩ ↔ id ∈ c.outbox.keys := by
  rw [← h.keys]
  constructor
  · exact OrderedMap.mem_keys_of_get
  · intro hid
    obtain ⟨p, hp⟩ := Option.isSome_iff_exists.mp (OrderedMap.get_isSome_iff.mpr hid)
    rw [hp]
    exact congrArg some (h.unsettled _ (OrderedMap.mem_entries_of_get hp))

/-- **No promise is orphaned** in a run whose steps are orderly. -/
theorem promises_accounted {url : String} {authMode : AuthMode} {identity : Option Identity}
    {maxItems : Option Nat} {tr : List Obs} {c : HarnessClient}
    (h : system.Run Orderly [] (.new url authMode identity maxItems) tr c) : Accounted tr c := by
  have hbooks := h.invariant (I := Books) (books_new url authMode identity maxItems)
    fun t u a u' os _ ih hP hs => books_step ih hP hs
  exact ⟨hbooks.waiting, hbooks.balance, fun a c' os => settled_by, fun req id c' os => promised_send⟩

/-- What `Orderly` asks of a step, evaluated. -/
def orderlyCheck (c : HarnessClient) : Action → Bool
  | .send _ id => !c.outbox.keys.contains id
  | .message _ data _ =>
      match (data.bind parseEnvelope).map Envelope.inbound with
      | some (.snapshot snap) => !c.differs snap || c.outbox.keys.isEmpty
      | some (.error err) => (err.get "code").templateOk && (err.get "message").templateOk
      | _ => true
  | _ => true

theorem orderly_of_check {tr : List Obs} {c : HarnessClient} {a : Action}
    (h : orderlyCheck c a = true) : Orderly tr c a where
  fresh := by
    rintro req id rfl
    simpa [orderlyCheck] using h
  settledFirst := by
    rintro snap ⟨i, data, env, s, e, rfl, -, -, -, -, hparse, hin⟩ hd
    simp only [orderlyCheck, hparse, Option.map_some, hin, hd] at h
    simpa using h
  worded := by
    rintro err id ⟨i, data, env, s, e, rfl, -, -, -, -, hparse, hin⟩ - -
    simpa only [orderlyCheck, hparse, Option.map_some, hin] using h

namespace Sample

/-- Three commands: one is acknowledged, one refused by the agent, one queued over a reconnect. -/
def answered : List Action :=
  [.connect none {}, .opened 0, hostFrame 0 (emptySession "s1"), .send (.sendPrompt "go on") "c1",
    .send .interrupt "c2", hostFrame 0 (.ack "c1" 1), hostFrame 0 (.error "c2" .agentError "busy"),
    hostFrame 0 (.ack "c2" 2), .send (.setMode "plan") "c3", .closed 0 (some 1006) {}]

/-- The connection is lost before the ack, and the daemon is started anew. -/
def restarted : List Action :=
  [.connect none {}, .opened 0, hostFrame 0 (emptySession "s1"), .send (.sendPrompt "go on") "c1",
    .closed 0 (some 1006) {}, .timer {}, .opened 1, hostFrame 1 (emptySession "s2")]

end Sample

theorem promises_accounted_answered :
    ∃ tr c, system.Run Orderly [] Sample.phone tr c ∧ c.outbox.keys = ["c3"] ∧ Accounted tr c := by
  have hexec : ((system.exec (fun _ => orderlyCheck) [] Sample.phone Sample.answered).map
      fun r => r.2.outbox.keys) = some ["c3"] := by decide +kernel
  obtain ⟨r, hr, hkeys⟩ := Option.map_eq_some_iff.mp hexec
  have hrun : system.Run Orderly [] Sample.phone r.1 r.2 :=
    Lts.run_of_exec (fun _ _ _ => orderly_of_check) hr
  exact ⟨r.1, r.2, hrun, hkeys, promises_accounted hrun⟩

/-- The snapshot of the new session drops the command, its promise stays. -/
theorem promise_orphaned :
    ¬ ∀ tr c, system.Run Lts.Free [] Sample.phone tr c → Accounted tr c := by
  intro h
  have hexec : ((system.exec (fun _ _ _ => true) [] Sample.phone Sample.restarted).map
      fun r => (r.2.outbox.keys, r.2.pending.get "c1")) = some ([], some ⟨false⟩) := by
    decide +kernel
  obtain ⟨r, hr, hmaps⟩ := Option.map_eq_some_iff.mp hexec
  obtain ⟨hkeys, hget⟩ := Prod.mk.inj hmaps
  have hrun : system.Run Lts.Free [] Sample.phone r.1 r.2 :=
    Lts.run_of_exec (fun _ _ _ _ => trivial) hr
  have hmem := ((h _ _ hrun).waiting "c1").mp hget
  rw [hkeys] at hmem
  cases hmem

end Harness.Client
