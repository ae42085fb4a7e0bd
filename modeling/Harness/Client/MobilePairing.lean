/-
# Harness.Client.MobilePairing — `pairWithInfo`, and the identity that is saved.

`pairWithInfo` tries one candidate after the other: `pair`, for at most three seconds, then `saveIdentity`.
What times out is the wait. The pairing goes on behind it: its socket stays open, and when the host's answer
comes, after an approval say, `pair` stores the identity in the client and connects with it, and there is nobody
left to save it.

The state is the client and the calls of `pairWithInfo` and `forgetDevice`, the trace says what was passed to
`saveIdentity`, when `clearIdentity` was called and what got into the secure store. A turn of the client and the
promises it settles are one step, as microtasks run before anything else does. `identity_saved` is the law of the
runs in which no candidate answers late, and none while `forgetDevice` waits for the store.
-/
import Harness.Client.HostFrames
import Harness.Client.Identity

namespace Harness.Client.MobilePairing

open Lib

/-! ## The app -/

/-- Where a call of `pairWithInfo` stands: it waits for the pairing on socket `i` or for `saveIdentity`, or its
promise is settled. -/
inductive Stage where
  | trying (i : SocketId)
  | saving (identity : Identity)
  | fulfilled (identity : Identity)
  | rejected

/-- The call waits for the pairing on socket `i`. -/
def Stage.tries (i : SocketId) : Stage → Bool
  | .trying j => i == j
  | _ => false

def Stage.isSettled : Stage → Bool
  | .fulfilled _ | .rejected => true
  | _ => false

/-- A call of `pairWithInfo`, with the candidates it has not tried. -/
structure Call where
  token : String
  spki : String
  urls : List String
  stage : Stage

structure State where
  client : HarnessClient
  calls : List Call := []
  /-- the calls of `forgetDevice` that wait for `clearIdentity` -/
  forgetting : Nat := 0

inductive Action where
  /-- the user scans a code; `envs` is what the platform decides for one candidate after the other -/
  | pairWithInfo (urls : List String) (token spki : String) (envs : List Env)
  /-- a daemon sends `e` on socket `i`; `next` is for the `connect` of a pairing that is done -/
  | frame (i : SocketId) (e : Wire.Envelope) (env next : Env) (envs : List Env)
  /-- another turn of the client -/
  | client (a : Client.Action) (envs : List Env)
  /-- three seconds have passed for the candidate of call `k` -/
  | timeout (k : Nat) (envs : List Env)
  /-- the promise of `saveIdentity` is settled for call `k` -/
  | stored (k : Nat) (ok : Bool) (envs : List Env)
  /-- `forgetDevice` is called, and calls `clearIdentity` -/
  | forget
  /-- the promise of `clearIdentity` is settled, and one `forgetDevice` goes on, or fails -/
  | cleared (ok : Bool)

inductive Obs where
  | passed (identity : Identity)
  | stored (identity : Identity)
  | clearing
  | forgotten

/-- What the app leaves to the platform and the user: the callbacks, and the calls without an identity. -/
def isApp : Client.Action → Bool
  | .connect none _ | .send _ _ | .opened _ | .closed _ _ _ | .errored _ | .closing _ | .timer _ => true
  | _ => false

/-- The socket of a callback. -/
def socketOf : Client.Action → Option SocketId
  | .message i _ _ | .closed i _ _ | .errored i => some i
  | _ => none

def isRejection : Client.Obs → Bool
  | .pairRejected => true
  | _ => false

/-- The loop of `pairWithInfo`, up to the next `await` of a pairing: a candidate for which no socket can be
created is refused at once. -/
def tryNext (c : HarnessClient) (token spki : String) :
    List String → List Env → HarnessClient × List String × Stage
  | [], _ => (c, [], .rejected)
  | url :: urls, envs =>
      let env := envs.headD {}
      let c' := c.pair token (some url) (some spki) env
      match env.socketError with
      | some _ => tryNext c' token spki urls envs.tail
      | none => (c', urls, .trying c.sockets.length)

namespace State

variable (s : State)

/-- The turn is over. -/
def tidy : State := { s with client := { s.client with out := [] } }

/-- The candidate of call `k` has failed. -/
def advance (k : Nat) (envs : List Env) : State :=
  match s.calls[k]? with
  | none => s
  | some call =>
      let r := tryNext s.client call.token call.spki call.urls envs
      { s with client := r.1, calls := s.calls.set k { call with urls := r.2.1, stage := r.2.2 } }

/-- The call that waits for the pairing on the socket. -/
def waiting (i : Option SocketId) : Option Nat :=
  i.bind fun i => s.calls.findIdx? fun call => call.stage.tries i

/-- What follows a callback: `pair` goes on, and so does the call that waits for it. -/
def settle (i : Option SocketId) (next : Env) (envs : List Env) : State × List Obs :=
  match s.client.resumptions with
  | issued :: _ =>
      let s' := { s with client := s.client.resumePair next }
      match s.waiting i with
      | some k =>
          ({ s' with calls := s.calls.modify k fun call => { call with stage := .saving issued } },
            [.passed issued])
      | none => (s', [])
  | [] =>
      if s.client.out.any isRejection then
        match s.waiting i with
        | some k => (s.advance k envs, [])
        | none => (s, [])
      else (s, [])

/-- A turn of the client. -/
def turn (a : Client.Action) (next : Env) (envs : List Env) : Option (State × List Obs) :=
  (s.client.turn a).map fun c =>
    let r := { s with client := c }.settle (socketOf a) next envs
    (r.1.tidy, r.2)

end State

def system : Lts State Action Obs where
  step s
    | .pairWithInfo urls token spki envs =>
        let r := tryNext s.client token spki urls envs
        some (State.tidy { s with client := r.1, calls := s.calls ++ [⟨token, spki, r.2.1, r.2.2⟩] }, [])
    | .frame i e env next envs => s.turn (arrives i env e) next envs
    | .client a envs => if isApp a then s.turn a {} envs else none
    | .timeout k envs =>
        match s.calls[k]? with
        | some ⟨_, _, _, .trying _⟩ => some ((s.advance k envs).tidy, [])
        | _ => none
    | .stored k ok envs =>
        match s.calls[k]? with
        | some ⟨token, spki, urls, .saving identity⟩ =>
            if ok then
              some ({ s with calls := s.calls.set k ⟨token, spki, urls, .fulfilled identity⟩ },
                [.stored identity])
            else some ((s.advance k envs).tidy, [])
        | _ => none
    | .forget => some ({ s with forgetting := s.forgetting + 1 }, [.clearing])
    | .cleared ok =>
        match s.forgetting with
        | 0 => none
        | n + 1 =>
            if ok then
              some (State.tidy { s with client := (s.client.close.reset).setIdentity none, forgetting := n },
                [.forgotten])
            else some ({ s with forgetting := n }, [])

/-- `bootstrap` with the identity that was stored. -/
def start (identity : Option Identity) : State where
  client := .new ((identity.map (·.url)).getD "wss://localhost:7432/ws") .header identity (some 2000)

/-! ## The law -/

/-- What was passed to `saveIdentity` last, and whether `clearIdentity` was called since. A `forgetDevice` undoes
what was passed before it called `clearIdentity`, and nothing else. -/
def passStep (last : Option Identity × Bool) : Obs → Option Identity × Bool
  | .passed issued => (some issued, false)
  | .stored _ => last
  | .clearing => (last.1, true)
  | .forgotten => (if last.2 then none else last.1, last.2)

def passing (identity : Option Identity) (tr : List Obs) : Option Identity × Bool :=
  tr.foldl passStep (identity, false)

/-- What was passed to `saveIdentity` last, if it was not forgotten since. -/
def lastPassed (identity : Option Identity) (tr : List Obs) : Option Identity := (passing identity tr).1

/-- No call is going on, and no pairing waits for its answer. -/
structure Quiet (s : State) : Prop where
  calls : ∀ call ∈ s.calls, call.stage.isSettled = true
  sockets : ∀ x ∈ s.client.sockets, ∀ token spki, x.role = .pairing token spki false → x.readyState = .closed

/-- Some call is about to have the identity saved. -/
def State.Saving (s : State) (issued : Identity) : Prop :=
  ∃ (k : Nat) (call : Call), s.calls[k]? = some call ∧ call.stage = .saving issued

/-- **`Timely`** — an identity is accepted only from a candidate that is waited for, the store takes what it is
given, and no identity is passed to `saveIdentity` while `forgetDevice` waits for `clearIdentity`. -/
def Timely (identity : Option Identity) (tr : List Obs) (s : State) : Action → Prop
  | .frame i e env _ _ =>
      ∀ p, Pairs s.client (arrives i env e) (.paired p) → ∃ call ∈ s.calls, call.stage.tries i = true
  | .stored _ ok _ => ok = true
  | .cleared ok => ok = true → (passing identity tr).2 = true
  | _ => True

/-! ## The loop -/

theorem tryNext_keeps (c : HarnessClient) (token spki : String) (urls : List String) (envs : List Env) :
    Keeps c (tryNext c token spki urls envs).1 := by
  induction urls generalizing c envs with
  | nil => exact .refl c
  | cons url urls ih =>
      have hpair := c.pair_keeps token (some url) (some spki) (envs.headD {})
      unfold tryNext
      dsimp only
      split
      · exact hpair.trans (ih _ _)
      · exact hpair

namespace State

variable {s : State}

/-- A call that fails takes nothing from the others, nor from the client. -/
theorem advance_spec (s : State) {k : Nat} {call : Call} (hk : s.calls[k]? = some call) (envs : List Env) :
    Keeps s.client (s.advance k envs).client ∧
      ∀ issued, s.Saving issued → call.stage ≠ .saving issued → (s.advance k envs).Saving issued := by
  unfold advance
  rw [hk]
  refine ⟨tryNext_keeps _ _ _ _ _, fun issued ⟨j, x, hx, hstage⟩ hne => ⟨j, x, ?_, hstage⟩⟩
  have hjk : k ≠ j := by
    rintro rfl
    obtain rfl := Option.some.inj (hk.symm.trans hx)
    exact hne hstage
  show (s.calls.set k _)[j]? = some x
  rw [List.getElem?_set_ne hjk]
  exact hx

theorem waiting_spec {i : Option SocketId} {k : Nat} (h : s.waiting i = some k) :
    ∃ j call, i = some j ∧ s.calls[k]? = some call ∧ call.stage.tries j = true := by
  obtain ⟨j, rfl, hfind⟩ := Option.bind_eq_some_iff.mp h
  obtain ⟨hk, htries, -⟩ := List.findIdx?_eq_some_iff_getElem.mp hfind
  exact ⟨j, _, rfl, List.getElem?_eq_getElem hk, htries⟩

theorem waiting_of_mem {i : SocketId} {call : Call} (hmem : call ∈ s.calls) (htries : call.stage.tries i = true) :
    ∃ k, s.waiting (some i) = some k := by
  refine Option.isSome_iff_exists.mp ?_
  rw [waiting, Option.bind_some, List.findIdx?_isSome, List.any_eq_true]
  exact ⟨call, hmem, htries⟩

end State

theorem not_saving_of_tries {i : SocketId} {stage : Stage} (h : stage.tries i = true) (issued : Identity) :
    stage ≠ .saving issued := by
  rintro rfl
  cases h

/-! ## Runs -/

/-- The invariant: no `pair` is left to go on, and the identity in use is the one last passed on; it was in the
store from the start, is there now, or some call is about to have it saved. -/
structure Inv (identity : Option Identity) (tr : List Obs) (s : State) : Prop where
  idle : s.client.resumptions = []
  last : s.client.identity = lastPassed identity tr
  held : ∀ issued, s.client.identity = some issued →
    identity = some issued ∨ .stored issued ∈ tr ∨ s.Saving issued

theorem lastPassed_concat (identity : Option Identity) (tr : List Obs) (o : Obs) :
    lastPassed identity (tr ++ [o]) = (passStep (passing identity tr) o).1 := by
  rw [lastPassed, passing, List.foldl_append]
  rfl

section Steps

variable {identity : Option Identity} {tr : List Obs} {s : State}

/-- A step that leaves the identity alone, and the calls that are saving. -/
theorem Inv.keeps (h : Inv identity tr s) {s' : State} (hclient : Keeps s.client s'.client)
    (hsaving : ∀ issued, s.Saving issued → s'.Saving issued) : Inv identity tr s' where
  idle := hclient.resumptions.trans h.idle
  last := hclient.identity.trans h.last
  held issued hid := by
    rw [hclient.identity] at hid
    exact (h.held issued hid).imp_right (Or.imp_right (hsaving issued))

theorem Inv.advance (h : Inv identity tr s) {k : Nat} {call : Call} (hk : s.calls[k]? = some call)
    (hstage : ∀ issued, call.stage ≠ .saving issued) (envs : List Env) :
    Inv identity tr (s.advance k envs).tidy := by
  obtain ⟨hkeeps, hsaving⟩ := s.advance_spec hk envs
  exact h.keeps ⟨hkeeps.authMode, hkeeps.identity, hkeeps.resumptions⟩
    fun issued hs => hsaving issued hs (hstage issued)

/-- A turn that leaves the identity alone may still make a call go on to its next candidate. -/
theorem Inv.turn_keeps (h : Inv identity tr s) {a : Client.Action} {c : HarnessClient}
    (hclient : Keeps s.client c) (next : Env) (envs : List Env) :
    ∃ s', { s with client := c }.settle (socketOf a) next envs = (s', []) ∧ Inv identity tr s'.tidy := by
  have hc : Inv identity tr { s with client := c } := h.keeps hclient fun _ hs => hs
  unfold State.settle
  rw [show c.resumptions = [] from hc.idle]
  dsimp only
  split
  · split
    · rename_i k hk
      obtain ⟨i, call, -, hcall, htries⟩ := State.waiting_spec hk
      exact ⟨_, rfl, hc.advance hcall (not_saving_of_tries htries) envs⟩
    · exact ⟨_, rfl, hc.keeps ⟨rfl, rfl, rfl⟩ fun _ hs => hs⟩
  · exact ⟨_, rfl, hc.keeps ⟨rfl, rfl, rfl⟩ fun _ hs => hs⟩

/-- **A pairing that is waited for** hands its identity over to be saved. -/
theorem Inv.turn_paired (h : Inv identity tr s) {c : HarnessClient} {issued : Identity} {i : SocketId}
    (hc : c.resumptions = s.client.resumptions ++ [issued])
    (hwaited : ∃ call ∈ s.calls, call.stage.tries i = true) (next : Env) (envs : List Env) :
    ∃ s', { s with client := c }.settle (some i) next envs = (s', [.passed issued]) ∧
      Inv identity (tr ++ [.passed issued]) s'.tidy := by
  rw [h.idle, List.nil_append] at hc
  obtain ⟨call, hmem, htries⟩ := hwaited
  obtain ⟨k, hk⟩ := State.waiting_of_mem hmem htries
  obtain ⟨hid, hres⟩ := HarnessClient.resumePair_identity hc next
  have hwaiting : { s with client := c : State }.waiting (some i) = some k := hk
  unfold State.settle
  dsimp only
  rw [hc, hwaiting]
  refine ⟨_, rfl, hres, ?_, fun identity' hid' => .inr (.inr ?_)⟩
  · rw [lastPassed_concat]
    exact hid
  · obtain rfl := Option.some.inj (hid.symm.trans hid')
    obtain ⟨-, call', -, hcall, -⟩ := State.waiting_spec hk
    refine ⟨k, { call' with stage := .saving issued }, ?_, rfl⟩
    show (s.calls.modify k _)[k]? = _
    rw [List.getElem?_modify_eq, hcall]
    rfl

theorem Inv.turn (h : Inv identity tr s) {a : Client.Action} (ha : ¬ a.Hands)
    (htimely : ∀ p, Pairs s.client a (.paired p) →
      ∃ i, socketOf a = some i ∧ ∃ call ∈ s.calls, call.stage.tries i = true)
    {next : Env} {envs : List Env} {s' : State} {os : List Obs} (hs : s.turn a next envs = some (s', os)) :
    Inv identity (tr ++ os) s' := by
  obtain ⟨c, ht, heq⟩ := Option.map_eq_some_iff.mp hs
  by_cases hpair : ∃ p, Pairs s.client a (.paired p)
  · obtain ⟨p, hp⟩ := hpair
    obtain ⟨i, hi, hwaited⟩ := htimely p hp
    obtain ⟨issued, -, hres⟩ := HarnessClient.turn_paired hp ht
    obtain ⟨t, hsettle, hinv⟩ := h.turn_paired hres hwaited next envs
    rw [hi, hsettle] at heq
    cases heq
    exact hinv
  · have hkeeps := HarnessClient.turn_keeps ha (fun p hp => hpair ⟨p, hp⟩) ht
    obtain ⟨t, hsettle, hinv⟩ := h.turn_keeps (a := a) hkeeps next envs
    rw [hsettle] at heq
    cases heq
    rw [List.append_nil]
    exact hinv

theorem Inv.pairWithInfo (h : Inv identity tr s) (urls : List String) (token spki : String) (envs : List Env) :
    Inv identity tr (State.tidy
      { s with
        client := (tryNext s.client token spki urls envs).1
        calls := s.calls ++ [⟨token, spki, (tryNext s.client token spki urls envs).2.1,
          (tryNext s.client token spki urls envs).2.2⟩] }) := by
  have hkeeps := tryNext_keeps s.client token spki urls envs
  refine h.keeps ⟨hkeeps.authMode, hkeeps.identity, hkeeps.resumptions⟩
    fun issued ⟨k, call, hk, hstage⟩ => ⟨k, call, ?_, hstage⟩
  obtain ⟨hlt, -⟩ := List.getElem?_eq_some_iff.mp hk
  show (s.calls ++ _)[k]? = some call
  rw [List.getElem?_append_left hlt]
  exact hk

/-- The store has taken the identity. -/
theorem Inv.stored (h : Inv identity tr s) {k : Nat} {call : Call} {issued : Identity}
    (hk : s.calls[k]? = some call) (hstage : call.stage = .saving issued) (call' : Call) :
    Inv identity (tr ++ [.stored issued]) { s with calls := s.calls.set k call' } where
  idle := h.idle
  last := by
    rw [lastPassed_concat]
    exact h.last
  held other hid := by
    refine (h.held other hid).imp_right fun hheld => ?_
    rcases hheld with hmem | ⟨j, x, hx, hsaving⟩
    · exact .inl (List.mem_append_left _ hmem)
    · by_cases hjk : k = j
      · subst hjk
        obtain rfl := Option.some.inj (hk.symm.trans hx)
        obtain rfl := Stage.saving.inj (hstage.symm.trans hsaving)
        exact .inl (List.mem_append_right _ List.mem_cons_self)
      · refine .inr ⟨j, x, ?_, hsaving⟩
        show (s.calls.set k call')[j]? = some x
        rw [List.getElem?_set_ne hjk]
        exact hx

theorem Inv.clearing (h : Inv identity tr s) (n : Nat) :
    Inv identity (tr ++ [.clearing]) { s with forgetting := n } where
  idle := h.idle
  last := by
    rw [lastPassed_concat]
    exact h.last
  held issued hid := (h.held issued hid).imp_right (Or.imp_left (List.mem_append_left _))

/-- Nothing was passed on since `clearIdentity` was called: there is no identity left. -/
theorem Inv.forgotten (h : Inv identity tr s) (hlast : (passing identity tr).2 = true) (n : Nat) :
    Inv identity (tr ++ [.forgotten])
      (State.tidy { s with client := (s.client.close.reset).setIdentity none, forgetting := n }) where
  idle := s.client.close_keeps.resumptions.trans h.idle
  last := by
    rw [lastPassed_concat, passStep, if_pos hlast]
    rfl
  held _ hid := by cases hid

theorem Inv.step (h : Inv identity tr s) {a : Action} (hP : Timely identity tr s a) {s' : State} {os : List Obs}
    (hs : system.step s a = some (s', os)) : Inv identity (tr ++ os) s' := by
  cases a with
  | pairWithInfo urls token spki envs =>
      cases hs
      rw [List.append_nil]
      exact h.pairWithInfo urls token spki envs
  | frame i e env next envs => exact h.turn id (fun p hp => ⟨i, rfl, hP p hp⟩) hs
  | client a envs =>
      simp only [system] at hs
      split at hs
      · rename_i happ
        -- what else the application calls neither sets an identity nor brings a frame
        have hcalls : ¬ a.Hands ∧ ∀ i data env, a ≠ .message i data env := by
          cases a with
          | connect identity env =>
              cases identity with
              | none => exact ⟨id, fun _ _ _ h => by cases h⟩
              | some identity => cases happ
          | _ => first | exact absurd happ Bool.false_ne_true | exact ⟨id, fun _ _ _ h => by cases h⟩
        refine h.turn hcalls.1 (fun p hp => ?_) hs
        obtain ⟨i, data, env, -, -, -, -, ha, -⟩ := hp
        exact absurd ha (hcalls.2 i data env)
      · cases hs
  | timeout k envs =>
      simp only [system] at hs
      split at hs
      · rename_i hk
        cases hs
        rw [List.append_nil]
        -- a call that goes on to its next candidate held no identity
        exact h.advance hk (fun _ hstage => by cases hstage) envs
      · cases hs
  | stored k ok envs =>
      obtain rfl : ok = true := hP
      simp only [system] at hs
      split at hs
      · rename_i hk
        cases hs
        exact h.stored hk rfl _
      · cases hs
  | forget =>
      cases hs
      exact h.clearing _
  | cleared ok =>
      simp only [system] at hs
      split at hs
      · cases hs
      · split at hs
        · rename_i hok
          cases hs
          exact h.forgotten (hP hok) _
        · cases hs
          rw [List.append_nil]
          exact h.keeps (.refl _) fun _ hsaving => hsaving

end Steps

namespace Sample

def token : String := "one-time"

def spki : String := "pin"

def device : Wire.DeviceID := ⟨"0123456789abcdef0123456789abcdef", by decide⟩

/-- The answer of a host. -/
def paired : Wire.Envelope := .paired device "phone" "secret"

end Sample

end Harness.Client.MobilePairing
