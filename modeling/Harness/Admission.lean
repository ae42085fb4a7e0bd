/-
# Harness.Admission — the daemon and its operator: from a typed line to a credential.

`handlePairing` of the daemon (`Harness.Hub`) calls `RequestApproval` of the terminal (`Harness.Console`), which
prints a prompt and waits for a line. Here the two run together: a pairing calls, is queued at the mutex, and goes
on when its call returns.

The lines that decide calls are the lines the operator typed, each at most once and in the order they were typed,
and a call returns a yes only for a line that says so. What a yes is worth is another matter
(`Harness.Hub.Grants`): `admitted_by_operator` puts the two together.
-/
import Harness.Console
import Harness.Hub.Grants

namespace Harness.Admission

open Wire Lib
open Hub (Config ConnId Attempt)

/-! ## The system -/

/-- `asked` are the calls of `RequestApproval` that got the mutex, in order; `returned` are the results that the
goroutines have not taken yet. -/
structure Gate where
  host : Hub.World
  console : Console := {}
  asked : List (ConnId × Attempt) := []
  returned : List ((ConnId × Attempt) × Option String) := []

inductive Action where
  /-- the daemon, but for the results of `RequestApproval` -/
  | host (a : Hub.Action)
  /-- the call of connection `c` gets the mutex -/
  | ask (c : ConnId)
  /-- the terminal, and a call that has the mutex -/
  | console (a : Console.Action)
  /-- a call has returned, and the pairing goes on -/
  | answer (call : ConnId × Attempt) (name : Option String)

/-- A line was received for a call of a pairing with this token. -/
structure Ruling where
  token : String
  line : Nat × String
  yes : Bool
  deriving DecidableEq

inductive Obs where
  | host (o : Hub.Obs)
  | console (o : Console.Obs)
  | ruled (x : Ruling)

/-- Which call an observation of the terminal is the end of, and what it returns. -/
def Gate.result (g : Gate) : Console.Obs → Option ((ConnId × Attempt) × Option String)
  | .decided r _ _ name => g.asked[r]?.map fun call => (call, name)
  | .declined r | .expired r => g.asked[r]?.map fun call => (call, none)
  | _ => none

def Gate.ruling (g : Gate) : Console.Obs → Option Ruling
  | .decided r n s name => g.asked[r]?.map fun call => ⟨call.2.token, (n, s), name.isSome⟩
  | _ => none

def Gate.step (cfg : Config) (g : Gate) : Action → Option (Gate × List Obs)
  | .host (.conn _ (.approval _)) => none
  | .host a => (g.host.step cfg a).map fun r => ({ g with host := r.1 }, r.2.map .host)
  | .ask c =>
      match g.host.conns[c]? with
      | some (.pairing p .request) =>
          if c ∈ g.asked.map fun call => call.1 then none
          else (g.console.step (.request ⟨p.remoteAddr, p.userAgent⟩)).map fun r =>
            ({ g with console := r.1, asked := g.asked ++ [(c, p)] }, r.2.map .console)
      | _ => none
  | .console (.request _) => none
  | .console a => (g.console.step a).map fun r =>
      ({ g with console := r.1, returned := g.returned ++ r.2.filterMap g.result },
        r.2.map .console ++ (r.2.filterMap g.ruling).map .ruled)
  | .answer call name =>
      if (call, name) ∈ g.returned then
        (g.host.step cfg (.conn call.1 (.approval name))).map fun r =>
          ({ g with host := r.1, returned := g.returned.erase (call, name) }, r.2.map .host)
      else none

def Gate.start (cfg : Config) (db : Store) (now : Int) : Gate where
  host := Hub.World.init cfg db now

/-- The daemon with its operator. -/
def system (cfg : Config) : Lts Gate Action Obs where
  step := Gate.step cfg

/-! ## The parts of a trace -/

def Obs.host? : Obs → Option Hub.Obs
  | .host o => some o
  | _ => none

def Obs.console? : Obs → Option Console.Obs
  | .console o => some o
  | _ => none

def Obs.ruled? : Obs → Option Ruling
  | .ruled x => some x
  | _ => none

def hostTrace (tr : List Obs) : List Hub.Obs := tr.filterMap Obs.host?

def consoleTrace (tr : List Obs) : List Console.Obs := tr.filterMap Obs.console?

/-- The lines that were received, each with the token it was received for. -/
def rulings (tr : List Obs) : List Ruling := tr.filterMap Obs.ruled?

/-- The line begins with `y` or `yes`. -/
def saysYes (s : String) : Bool := (Console.answer "" s).isSome

/-- A yes for a pairing with the token `t`. -/
def Ruling.yesFor (t : String) (x : Ruling) : Bool := decide (x.token = t) && x.yes

theorem hostTrace_append (tr os : List Obs) : hostTrace (tr ++ os) = hostTrace tr ++ hostTrace os :=
  List.filterMap_append

theorem consoleTrace_append (tr os : List Obs) : consoleTrace (tr ++ os) = consoleTrace tr ++ consoleTrace os :=
  List.filterMap_append

theorem rulings_append (tr os : List Obs) : rulings (tr ++ os) = rulings tr ++ rulings os :=
  List.filterMap_append

theorem traces_host (os : List Hub.Obs) : hostTrace (os.map .host) = os ∧ consoleTrace (os.map .host) = [] ∧
    rulings (os.map .host) = [] := by
  refine ⟨?_, ?_, ?_⟩
  · rw [hostTrace, List.filterMap_map]
    exact List.filterMap_some
  · rw [consoleTrace, List.filterMap_map, List.filterMap_eq_nil_iff]
    exact fun _ _ => rfl
  · rw [rulings, List.filterMap_map, List.filterMap_eq_nil_iff]
    exact fun _ _ => rfl

theorem traces_console (os : List Console.Obs) (xs : List Ruling) :
    hostTrace (os.map .console ++ xs.map .ruled) = [] ∧ consoleTrace (os.map .console ++ xs.map .ruled) = os ∧
      rulings (os.map .console ++ xs.map .ruled) = xs := by
  refine ⟨?_, ?_, ?_⟩
  · rw [hostTrace, List.filterMap_append, List.filterMap_map, List.filterMap_map, List.append_eq_nil_iff,
      List.filterMap_eq_nil_iff, List.filterMap_eq_nil_iff]
    exact ⟨fun _ _ => rfl, fun _ _ => rfl⟩
  · have hruled : (xs.map Obs.ruled).filterMap Obs.console? = [] := by
      rw [List.filterMap_map, List.filterMap_eq_nil_iff]
      exact fun _ _ => rfl
    rw [consoleTrace, List.filterMap_append, hruled, List.append_nil, List.filterMap_map]
    exact List.filterMap_some
  · have hconsole : (os.map Obs.console).filterMap Obs.ruled? = [] := by
      rw [List.filterMap_map, List.filterMap_eq_nil_iff]
      exact fun _ _ => rfl
    rw [rulings, List.filterMap_append, hconsole, List.nil_append, List.filterMap_map]
    exact List.filterMap_some

/-! ## What a step does -/

/-- The step of the whole, as its parts see it. -/
inductive Trans (cfg : Config) (g : Gate) : Gate → List Obs → Prop
  | host {a : Hub.Action} {w : Hub.World} {os : List Hub.Obs} (hs : g.host.step cfg a = some (w, os))
      (hnot : ∀ c name, a ≠ .conn c (.approval name)) : Trans cfg g { g with host := w } (os.map .host)
  | ask {c : ConnId} {p : Attempt} {k : Console} {os : List Console.Obs}
      (hph : g.host.conns[c]? = some (.pairing p .request)) (hnew : c ∉ g.asked.map fun call => call.1)
      (hs : g.console.step (.request ⟨p.remoteAddr, p.userAgent⟩) = some (k, os)) :
      Trans cfg g { g with console := k, asked := g.asked ++ [(c, p)] } (os.map .console)
  | console {a : Console.Action} {k : Console} {os : List Console.Obs} (hs : g.console.step a = some (k, os))
      (hnot : ∀ req, a ≠ .request req) :
      Trans cfg g { g with console := k, returned := g.returned ++ os.filterMap g.result }
        (os.map .console ++ (os.filterMap g.ruling).map .ruled)
  | answer {call : ConnId × Attempt} {name : Option String} {w : Hub.World} {os : List Hub.Obs}
      (hret : (call, name) ∈ g.returned) (hs : g.host.step cfg (.conn call.1 (.approval name)) = some (w, os)) :
      Trans cfg g { g with host := w, returned := g.returned.erase (call, name) } (os.map .host)

theorem step_trans {cfg : Config} {g g' : Gate} {a : Action} {os : List Obs} (h : g.step cfg a = some (g', os)) :
    Trans cfg g g' os := by
  unfold Gate.step at h
  split at h
  · cases h
  · rename_i a hnot
    obtain ⟨r, hs, he⟩ := Option.map_eq_some_iff.mp h
    cases he
    exact .host hs fun c name heq => hnot c name heq
  · split at h
    · rename_i p hph
      split at h
      · cases h
      · rename_i hnew
        obtain ⟨r, hs, he⟩ := Option.map_eq_some_iff.mp h
        cases he
        exact .ask hph hnew hs
    · cases h
  · cases h
  · rename_i a hnot
    obtain ⟨r, hs, he⟩ := Option.map_eq_some_iff.mp h
    cases he
    exact .console hs fun req heq => hnot req heq
  · split at h
    · rename_i hret
      obtain ⟨r, hs, he⟩ := Option.map_eq_some_iff.mp h
      cases he
      exact .answer hret hs
    · cases h

/-! ## The two parts run -/

variable {cfg : Config} {db : Store} {now : Int} {tr : List Obs} {g : Gate}

theorem host_run (h : (system cfg).Run Lts.Free [] (Gate.start cfg db now) tr g) :
    (Hub.system cfg).Run Lts.Free [] (Hub.World.init cfg db now) (hostTrace tr) g.host := by
  refine h.invariant (I := fun tr g => (Hub.system cfg).Run Lts.Free [] (Hub.World.init cfg db now)
    (hostTrace tr) g.host) .refl ?_
  intro t u a u' os _ ih _ hstep
  rw [hostTrace_append]
  cases step_trans hstep with
  | host hs =>
    rw [(traces_host _).1]
    exact ih.tail trivial hs
  | answer _ hs =>
    rw [(traces_host _).1]
    exact ih.tail (a := .conn _ (.approval _)) trivial hs
  | @ask c p k os =>
    have hnone := (traces_console os []).1
    rw [List.map_nil, List.append_nil] at hnone
    rw [hnone, List.append_nil]
    exact ih
  | console hs =>
    rw [(traces_console _ _).1, List.append_nil]
    exact ih

theorem console_run (h : (system cfg).Run Lts.Free [] (Gate.start cfg db now) tr g) :
    Console.system.Run Lts.Free [] {} (consoleTrace tr) g.console := by
  refine h.invariant (I := fun tr g => Console.system.Run Lts.Free [] {} (consoleTrace tr) g.console) .refl ?_
  intro t u a u' os _ ih _ hstep
  rw [consoleTrace_append]
  cases step_trans hstep with
  | host hs | answer _ hs =>
    rw [(traces_host _).2.1, List.append_nil]
    exact ih
  | @ask c p k os _ _ hs =>
    have hall := (traces_console os []).2.1
    rw [List.map_nil, List.append_nil] at hall
    rw [hall]
    exact ih.tail (a := .request _) trivial hs
  | console hs =>
    rw [(traces_console _ _).2.1]
    exact ih.tail trivial hs

/-! ## A step of the terminal -/

/-- The call that has the mutex. -/
def holder : Console.Turn → Option Nat
  | .locked r _ | .waiting r _ => some r
  | .free => none

theorem console_request {k k' : Console} {req : Console.Request} {os : List Console.Obs}
    (h : k.step (.request req) = some (k', os)) :
    holder k.turn = none ∧ holder k'.turn = some k.requests ∧ k'.requests = k.requests + 1 ∧ os = [] := by
  simp only [Console.step] at h
  split at h
  · rename_i hfree
    cases h
    exact ⟨by rw [hfree]; rfl, rfl, rfl, rfl⟩
  · cases h

/-- What ends call `r`, and how. -/
inductive Ends (r : Nat) : Console.Obs → Prop
  | decided {n : Nat} {s d : String} : Ends r (.decided r n s (Console.answer d s))
  | declined : Ends r (.declined r)
  | expired : Ends r (.expired r)

/-- The terminal goes on with the call that has the mutex, or ends it. -/
theorem console_step {k k' : Console} {a : Console.Action} {os : List Console.Obs} (h : k.step a = some (k', os))
    (hnot : ∀ req, a ≠ .request req) :
    k'.requests = k.requests ∧
      ((holder k'.turn = holder k.turn ∧ ∀ o ∈ os, (∃ n s, o = .typed n s) ∨ ∃ r, o = .prompted r) ∨
        ∃ r o, holder k.turn = some r ∧ holder k'.turn = none ∧ os = [o] ∧ Ends r o) := by
  cases a with
  | request req => exact absurd rfl (hnot req)
  | type s =>
    cases h
    exact ⟨rfl, .inl ⟨rfl, List.forall_mem_singleton.mpr (.inl ⟨_, _, rfl⟩)⟩⟩
  | stop =>
    cases h
    exact ⟨rfl, .inl ⟨rfl, List.forall_mem_nil _⟩⟩
  | scan =>
    simp only [Console.step] at h
    split at h
    · cases h
      exact ⟨rfl, .inl ⟨rfl, List.forall_mem_nil _⟩⟩
    · cases h
      exact ⟨rfl, .inl ⟨rfl, List.forall_mem_nil _⟩⟩
    · cases h
  | send =>
    simp only [Console.step] at h
    split at h
    · split at h
      · cases h
        exact ⟨rfl, .inl ⟨rfl, List.forall_mem_nil _⟩⟩
      · cases h
    · cases h
  | prompt =>
    simp only [Console.step] at h
    split at h
    · rename_i r req hturn
      cases h
      exact ⟨rfl, .inl ⟨by rw [hturn]; rfl, List.forall_mem_singleton.mpr (.inr ⟨_, rfl⟩)⟩⟩
    · cases h
  | receive =>
    simp only [Console.step] at h
    split at h
    · rename_i r req n s rest hturn hlines
      cases h
      exact ⟨rfl, .inr ⟨r, _, by rw [hturn]; rfl, rfl, rfl, .decided⟩⟩
    · rename_i r req hturn hlines
      split at h
      · cases h
        exact ⟨rfl, .inr ⟨r, _, by rw [hturn]; rfl, rfl, rfl, .declined⟩⟩
      · cases h
    · cases h
  | timeout =>
    simp only [Console.step] at h
    split at h
    · rename_i r req hturn
      cases h
      exact ⟨rfl, .inr ⟨r, _, by rw [hturn]; rfl, rfl, rfl, .expired⟩⟩
    · cases h

/-! ## A step of the daemon -/

/-- A pairing that asks goes on with an answer only. -/
theorem asking_stuck {c : ConnId} {h : Hub} {p : Attempt} {ch : Hub.Choice}
    {r : Hub × Hub.ConnPhase × List Hub.Obs}
    (hs : Hub.connStep cfg c h (.pairing p .request) ch = some r) : ∃ name, ch = .approval name := by
  cases ch with
  | approval name => exact ⟨name, rfl⟩
  | _ => cases hs

section
variable {w w' : Hub.World} {os : List Hub.Obs}

/-- Without an answer for it a pairing that asks stays where it is. -/
theorem asking_kept {a : Hub.Action} (hs : w.step cfg a = some (w', os)) {c : ConnId} {p : Attempt}
    (hnot : ∀ name, a ≠ .conn c (.approval name)) (hph : w.conns[c]? = some (.pairing p .request)) :
    w'.conns[c]? = some (.pairing p .request) := by
  have hstep := hs
  cases Hub.World.step_trans hs with
  | @conn c' ch ph ph' h' _ hph' ht =>
    by_cases hc : c' = c
    · subst hc
      unfold Hub.World.step at hstep
      simp only [hph] at hstep
      obtain ⟨r, hr, -⟩ := Option.map_eq_some_iff.mp hstep
      obtain ⟨name, rfl⟩ := asking_stuck hr
      exact absurd rfl (hnot name)
    · show (w.conns.set c' ph')[c]? = _
      rw [List.getElem?_set_ne hc]
      exact hph
  | accept =>
    obtain ⟨hlt, -⟩ := List.getElem?_eq_some_iff.mp hph
    show (w.conns ++ [_])[c]? = _
    rw [List.getElem?_append_left hlt]
    exact hph
  | _ => exact hph

/-- Without an answer there is no yes. -/
theorem unsaid {a : Hub.Action} (hs : w.step cfg a = some (w', os)) (hnot : ∀ c name, a ≠ .conn c (.approval name))
    (t : String) : os.countP (Hub.Obs.saidFor t) = 0 := by
  rw [List.countP_eq_zero]
  intro o ho hsaid
  cases o with
  | approverSaid c t' ok =>
    have hstep := hs
    obtain ⟨ch, ph, h', ph', rfl, hph, hsrc, ht, -⟩ := (Hub.World.step_trans hs).of_conn ho (c := c) rfl
    have hpair : ∃ p pc, ph = .pairing p pc := by
      rcases hsrc with h1 | h1
      · cases ph <;> first | exact ⟨_, _, rfl⟩ | cases h1
      · cases h1
    obtain ⟨p, pc, rfl⟩ := hpair
    cases ht with
    | pairing ht =>
      cases ht with
      | allowed =>
        unfold Hub.World.step at hstep
        simp only [hph] at hstep
        obtain ⟨r, hr, -⟩ := Option.map_eq_some_iff.mp hstep
        obtain ⟨name, rfl⟩ := asking_stuck hr
        exact hnot c name rfl
      | quit _ hos =>
        rcases hos _ ho with ⟨code, msg, he⟩ | he
        · cases he
        · cases he
          simp [Hub.Obs.saidFor] at hsaid
      | peek | ask | check | consumeLost => exact absurd ho List.not_mem_nil
      | consume | approve | consumeOwn | issue | issueFails => simp at ho
  | _ => cases hsaid

/-- The answer goes to the pairing that asked. -/
theorem answered {c : ConnId} {p : Attempt} {name : Option String}
    (hs : w.step cfg (.conn c (.approval name)) = some (w', os))
    (hph : w.conns[c]? = some (.pairing p .request)) (t : String) :
    os.countP (Hub.Obs.saidFor t) = (decide (p.token = t) && name.isSome).toNat ∧
      ∃ ph, w'.conns = w.conns.set c ph := by
  unfold Hub.World.step at hs
  simp only [hph] at hs
  cases name with
  | none =>
    cases hs
    refine ⟨?_, _, rfl⟩
    simp [Hub.Obs.saidFor, Hub.deny]
  | some n =>
    cases hs
    refine ⟨?_, _, rfl⟩
    rw [countP_one]
    simp [Hub.Obs.saidFor]

end

/-! ## From a line to a yes -/

/-- The calls whose pairings wait for them: they have the mutex or have returned. -/
def Gate.calls (g : Gate) : List (ConnId × Attempt) :=
  g.returned.map (fun x => x.1) ++ (holder g.console.turn).toList.filterMap fun r => g.asked[r]?

/-- Every call is the call of one pairing, which waits for it. -/
structure Linked (g : Gate) : Prop where
  count : g.asked.length = g.console.requests
  turn : ∀ r, holder g.console.turn = some r → r < g.asked.length
  known : ∀ call ∈ g.calls, call.1 ∈ g.asked.map fun call => call.1
  once : (g.calls.map fun call => call.1).Nodup
  waiting : ∀ call ∈ g.calls, g.host.conns[call.1]? = some (.pairing call.2 .request)

theorem linked_start (cfg : Config) (db : Store) (now : Int) : Linked (Gate.start cfg db now) where
  count := rfl
  turn := by intro r h; cases h
  known := by intro call h; cases h
  once := List.nodup_nil
  waiting := by intro call h; cases h

theorem Linked.step {g' : Gate} {os : List Obs} (hl : Linked g) (h : Trans cfg g g' os) : Linked g' := by
  cases h with
  | host hs hnot =>
    exact { hl with waiting := fun call hcall => asking_kept hs (hnot call.1) (hl.waiting call hcall) }
  | @ask c p k os hph hnew hs =>
    obtain ⟨hfree, hheld, hrequests, rfl⟩ := console_request hs
    have hold : g.calls = g.returned.map fun x => x.1 := by
      rw [Gate.calls, hfree]
      exact List.append_nil _
    have hcalls : Gate.calls { g with console := k, asked := g.asked ++ [(c, p)] } = g.calls ++ [(c, p)] := by
      rw [hold, Gate.calls, hheld, ← hl.count]
      simp
    refine ⟨?_, fun r hr => ?_, ?_, ?_, ?_⟩
    · rw [List.length_append, hl.count, hrequests, List.length_singleton]
    · obtain rfl := Option.some.inj (hheld.symm.trans hr)
      rw [List.length_append, hl.count]
      exact Nat.lt_succ_self _
    · rw [hcalls]
      intro call hcall
      rw [List.map_append]
      rcases List.mem_append.mp hcall with hcall | hcall
      · exact List.mem_append_left _ (hl.known call hcall)
      · exact List.mem_append_right _ (List.mem_map_of_mem hcall)
    · rw [hcalls, List.map_append, List.nodup_append]
      refine ⟨hl.once, List.nodup_singleton _, ?_⟩
      -- the connection is a new one, so it has no other call
      rintro d hd d' hd' rfl
      obtain rfl := List.mem_singleton.mp hd'
      obtain ⟨call, hcall, rfl⟩ := List.mem_map.mp hd
      exact hnew (hl.known call hcall)
    · rw [hcalls]
      exact List.forall_mem_append.mpr ⟨hl.waiting, List.forall_mem_singleton.mpr hph⟩
  | @console a k os hs hnot =>
    obtain ⟨hrequests, ⟨hheld, hquiet⟩ | ⟨r, o, hheld, hfree, rfl, hends⟩⟩ := console_step hs hnot
    · have hnone : os.filterMap g.result = [] := by
        rw [List.filterMap_eq_nil_iff]
        intro o ho
        rcases hquiet o ho with ⟨n, s, rfl⟩ | ⟨r, rfl⟩ <;> rfl
      have hcalls : Gate.calls { g with console := k, returned := g.returned ++ os.filterMap g.result } =
          g.calls := by
        rw [Gate.calls, Gate.calls, hnone, hheld, List.append_nil]
      exact ⟨hl.count.trans hrequests.symm, fun r hr => hl.turn r (hheld ▸ hr), hcalls ▸ hl.known,
        hcalls ▸ hl.once, hcalls ▸ hl.waiting⟩
    · -- the call that had the mutex is now among those that have returned
      obtain ⟨call, hcall⟩ : ∃ call, g.asked[r]? = some call := ⟨_, List.getElem?_eq_getElem (hl.turn r hheld)⟩
      obtain ⟨name, hresult⟩ : ∃ name, [o].filterMap g.result = [(call, name)] := by
        cases hends with
        | decided => exact ⟨_, by rw [List.filterMap_cons, Gate.result, hcall]; rfl⟩
        | declined => exact ⟨none, by rw [List.filterMap_cons, Gate.result, hcall]; rfl⟩
        | expired => exact ⟨none, by rw [List.filterMap_cons, Gate.result, hcall]; rfl⟩
      have hcalls : Gate.calls { g with console := k, returned := g.returned ++ [o].filterMap g.result } =
          g.calls := by
        rw [Gate.calls, Gate.calls, hresult, hfree, hheld, List.map_append]
        simp [hcall]
      refine ⟨hl.count.trans hrequests.symm, fun r hr => ?_, hcalls ▸ hl.known, hcalls ▸ hl.once,
        hcalls ▸ hl.waiting⟩
      rw [hfree] at hr
      cases hr
  | @answer call name w os hret hs =>
    have hmem : call ∈ g.calls := List.mem_append_left _ (List.mem_map_of_mem (f := fun x => x.1) hret)
    obtain ⟨-, ph, hconns⟩ := answered hs (hl.waiting call hmem) ""
    -- one call less
    have hperm : g.calls.Perm
        (call :: Gate.calls { g with host := w, returned := g.returned.erase (call, name) }) := by
      unfold Gate.calls
      rw [← List.cons_append]
      exact ((List.perm_cons_erase hret).map fun x => x.1).append_right _
    have honce := (hperm.map fun call => call.1).nodup_iff.mp hl.once
    rw [List.map_cons, List.nodup_cons] at honce
    have hsub : ∀ other ∈ Gate.calls { g with host := w, returned := g.returned.erase (call, name) },
        other ∈ g.calls := fun other hother => hperm.mem_iff.mpr (List.mem_cons_of_mem _ hother)
    refine ⟨hl.count, hl.turn, fun other hother => hl.known other (hsub other hother), honce.2, ?_⟩
    intro other hother
    have hne : call.1 ≠ other.1 := by
      intro heq
      exact honce.1 (heq ▸ List.mem_map_of_mem (f := fun call => call.1) hother)
    show w.conns[other.1]? = _
    rw [hconns, List.getElem?_set_ne hne]
    exact hl.waiting other (hsub other hother)

/-! ## The account of the lines -/

/-- The name a device is given does not decide. -/
theorem isSome_answer (d s : String) : (Console.answer d s).isSome = saysYes s := by
  unfold saysYes Console.answer
  split
  · rfl
  · split
    · rfl
    · split <;> rfl

/-- A result that is a yes for a pairing with the token `t`. -/
def yesResult (t : String) (x : (ConnId × Attempt) × Option String) : Bool :=
  decide (x.1.2.token = t) && x.2.isSome

/-- Every line that decided a call is on record, for what it says, and every yes the daemon was told, or is about
to be told, is one of them. -/
structure Accounted (tr : List Obs) (g : Gate) : Prop where
  lines : (rulings tr).map (fun x => x.line) = Console.decidedLines (consoleTrace tr)
  honest : ∀ x ∈ rulings tr, x.yes = saysYes x.line.2
  paid : ∀ t, (hostTrace tr).countP (Hub.Obs.saidFor t) + g.returned.countP (yesResult t) ≤
    (rulings tr).countP (Ruling.yesFor t)

theorem decidedLines_append (tr os : List Console.Obs) :
    Console.decidedLines (tr ++ os) = Console.decidedLines tr ++ Console.decidedLines os :=
  List.filterMap_append

/-- A line that decides is recorded with its call, and so is the result. -/
theorem recorded {r : Nat} {call : ConnId × Attempt} {o : Console.Obs} (hcall : g.asked[r]? = some call)
    (h : Ends r o) : ([o].filterMap g.ruling).map (fun x => x.line) = Console.decidedLines [o] ∧
      (∀ x ∈ [o].filterMap g.ruling, x.yes = saysYes x.line.2) ∧
      ∀ t, ([o].filterMap g.result).countP (yesResult t) = ([o].filterMap g.ruling).countP (Ruling.yesFor t) := by
  cases h with
  | @decided n s d =>
    have hsays := isSome_answer d s
    generalize Console.answer d s = name at hsays
    have hruling : [Console.Obs.decided r n s name].filterMap g.ruling =
        [⟨call.2.token, (n, s), name.isSome⟩] := by
      simp [Gate.ruling, hcall]
    have hresult : [Console.Obs.decided r n s name].filterMap g.result = [(call, name)] := by
      simp [Gate.result, hcall]
    rw [hruling, hresult]
    refine ⟨rfl, List.forall_mem_singleton.mpr hsays, fun t => ?_⟩
    rw [countP_one, countP_one]
    rfl
  | declined | expired =>
    refine ⟨rfl, List.forall_mem_nil _, fun t => ?_⟩
    rw [List.filterMap_cons, Gate.result, hcall]
    show [(call, none)].countP (yesResult t) = 0
    rw [countP_one, yesResult, Option.isSome_none, Bool.and_false]
    rfl

theorem Accounted.step {g' : Gate} {os : List Obs} (ha : Accounted tr g) (hl : Linked g) (h : Trans cfg g g' os) :
    Accounted (tr ++ os) g' := by
  cases h with
  | @host a w os hs hnot =>
    obtain ⟨hhost, hconsole, hrulings⟩ := traces_host os
    refine ⟨?_, ?_, fun t => ?_⟩
    · rw [rulings_append, consoleTrace_append, hrulings, hconsole, List.append_nil, List.append_nil]
      exact ha.lines
    · rw [rulings_append, hrulings, List.append_nil]
      exact ha.honest
    · rw [hostTrace_append, rulings_append, hhost, hrulings, List.append_nil, List.countP_append, unsaid hs hnot]
      exact ha.paid t
  | @ask c p k os hph hnew hs =>
    obtain ⟨-, -, -, rfl⟩ := console_request hs
    rw [List.map_nil, List.append_nil]
    exact ⟨ha.lines, ha.honest, ha.paid⟩
  | @console a k os hs hnot =>
    obtain ⟨hhost, hconsole, hrulings⟩ := traces_console os (os.filterMap g.ruling)
    obtain ⟨-, ⟨-, hquiet⟩ | ⟨r, o, hheld, -, rfl, hends⟩⟩ := console_step hs hnot
    · have hnone : os.filterMap g.result = [] ∧ os.filterMap g.ruling = [] ∧ Console.decidedLines os = [] := by
        refine ⟨List.filterMap_eq_nil_iff.mpr ?_, List.filterMap_eq_nil_iff.mpr ?_,
          List.filterMap_eq_nil_iff.mpr ?_⟩
        all_goals
          intro o ho
          rcases hquiet o ho with ⟨n, s, rfl⟩ | ⟨r, rfl⟩ <;> rfl
      refine ⟨?_, ?_, fun t => ?_⟩
      · rw [rulings_append, consoleTrace_append, hrulings, hconsole, decidedLines_append, hnone.2.1, hnone.2.2,
          List.append_nil, List.append_nil]
        exact ha.lines
      · rw [rulings_append, hrulings, hnone.2.1, List.append_nil]
        exact ha.honest
      · rw [hostTrace_append, rulings_append, hhost, hrulings, hnone.1, hnone.2.1, List.append_nil,
          List.append_nil, List.append_nil]
        exact ha.paid t
    · obtain ⟨call, hcall⟩ : ∃ call, g.asked[r]? = some call := ⟨_, List.getElem?_eq_getElem (hl.turn r hheld)⟩
      obtain ⟨hline, hhonest, hcount⟩ := recorded hcall hends
      refine ⟨?_, ?_, fun t => ?_⟩
      · rw [rulings_append, consoleTrace_append, hrulings, hconsole, decidedLines_append, List.map_append,
          ha.lines, hline]
      · rw [rulings_append, hrulings]
        exact List.forall_mem_append.mpr ⟨ha.honest, hhonest⟩
      · have hpaid := ha.paid t
        rw [hostTrace_append, rulings_append, hhost, hrulings, List.append_nil, List.countP_append,
          List.countP_append, hcount t]
        omega
  | @answer call name w os hret hs =>
    obtain ⟨hhost, hconsole, hrulings⟩ := traces_host os
    have hmem : call ∈ g.calls := List.mem_append_left _ (List.mem_map_of_mem (f := fun x => x.1) hret)
    refine ⟨?_, ?_, fun t => ?_⟩
    · rw [rulings_append, consoleTrace_append, hrulings, hconsole, List.append_nil, List.append_nil]
      exact ha.lines
    · rw [rulings_append, hrulings, List.append_nil]
      exact ha.honest
    · obtain ⟨hsaid, -⟩ := answered hs (hl.waiting call hmem) t
      have hpaid := ha.paid t
      have herase : g.returned.countP (yesResult t) =
          (yesResult t (call, name)).toNat + (g.returned.erase (call, name)).countP (yesResult t) := by
        rw [(List.perm_cons_erase hret).countP_eq, ← List.singleton_append, List.countP_append, countP_one]
      rw [hostTrace_append, rulings_append, hhost, hrulings, List.append_nil, List.countP_append, hsaid]
      unfold yesResult at herase hpaid ⊢
      dsimp only at herase hpaid ⊢
      omega

theorem accounted (h : (system cfg).Run Lts.Free [] (Gate.start cfg db now) tr g) : Linked g ∧ Accounted tr g := by
  refine h.invariant (I := fun tr g => Linked g ∧ Accounted tr g)
    ⟨linked_start cfg db now, rfl, List.forall_mem_nil _, fun t => Nat.le_refl _⟩ ?_
  intro t u a u' os _ ih _ hs
  exact ⟨ih.1.step (step_trans hs), ih.2.step ih.1 (step_trans hs)⟩

/-! ## The operator admits -/

/-- What stands between a device and its credential: the lines that decided are the first of the lines that
were typed, each for one call, and a token brings at most two credentials for each of them that said yes to a
pairing with that token, and one for each `harness pair --approve` of it. -/
structure Admitted (db : Store) (tr : List Obs) : Prop where
  typed : (rulings tr).map (fun x => x.line) <+: Console.typedLines (consoleTrace tr)
  honest : ∀ x ∈ rulings tr, x.yes = saysYes x.line.2
  bounded : ∀ t, (hostTrace tr).countP (Hub.Obs.issuedFor t) ≤
    2 * (rulings tr).countP (Ruling.yesFor t) + (hostTrace tr).countP (Hub.Obs.outOfBandFor t) +
      Hub.approvedRow (db.pendingTokens t)

/-- **Nobody is admitted without the operator**, whatever connects, times out or is typed too late. -/
theorem admitted_by_operator {cfg : Config} {db : Store} {now : Int} {tr : List Obs} {g : Gate}
    (h : (system cfg).Run Lts.Free [] (Gate.start cfg db now) tr g) : Admitted db tr := by
  obtain ⟨-, haccount⟩ := accounted h
  have hfifo := (Console.invariant (console_run h)).fifo
  refine ⟨?_, haccount.honest, fun t => ?_⟩
  · rw [haccount.lines, hfifo]
    exact List.prefix_append _ _
  · have hissued := Hub.issued_le_granted (host_run h) t
    have hpaid := haccount.paid t
    omega

/-- Two devices present one token. The operator says yes to the first, and before that one consumes the row it
approved the second one has consumed it. -/
def oneYes : List Action :=
  let attempt : Attempt := ⟨Hub.Sample.token, "192.168.1.9:50990", "Mozilla/5.0 (Linux; Android 14)"⟩
  [.host (.pairGenerate Hub.Sample.tokenBytes 0)] ++ (Hub.Sample.present 0 Hub.Sample.token).map .host ++
    ((Hub.Sample.present 1 Hub.Sample.token).dropLast).map .host ++
    [.ask 0, .console .prompt, .console (.type "y Kitchen"), .console .scan, .console .send, .console .receive,
      .answer (0, attempt) (some "Kitchen"), .host (.conn 0 (.call .ok)), .host (.conn 0 (.call .ok)),
      .host (.conn 1 (.call .ok)), .host (.conn 0 (.call .ok)),
      .host (.conn 0 (.fresh (Vector.replicate 16 0x33) (Vector.replicate 32 0x44))),
      .host (.conn 1 (.fresh (Vector.replicate 16 0x55) (Vector.replicate 32 0x66)))]

/-- The bound is reached: one line, two credentials. -/
theorem admitted_by_operator_oneYes :
    ∃ tr g, (system Hub.Sample.config).Run Lts.Free [] (Gate.start Hub.Sample.config Hub.Sample.database 0) tr g ∧
      (hostTrace tr).countP (Hub.Obs.issuedFor Hub.Sample.token) = 2 ∧
      (rulings tr).map (fun x => x.line) = [(0, "y Kitchen")] ∧ Admitted Hub.Sample.database tr := by
  have hexec : ∃ tr, ((system Hub.Sample.config).exec (fun _ _ _ => true) []
      (Gate.start Hub.Sample.config Hub.Sample.database 0) oneYes).map Prod.fst = some tr ∧
      (hostTrace tr).countP (Hub.Obs.issuedFor Hub.Sample.token) = 2 ∧
      (rulings tr).map (fun x => x.line) = [(0, "y Kitchen")] := ⟨_, rfl, by decide, by decide⟩
  obtain ⟨tr, he, htwo, hone⟩ := hexec
  obtain ⟨g, hr⟩ := Lts.run_of_exec_trace (P := Lts.Free) (fun _ _ _ _ => trivial) he
  exact ⟨tr, g, hr, htwo, hone, admitted_by_operator hr⟩

end Harness.Admission
