/-
# Harness.Console — the host operator's terminal.

`terminalApprover` of `cmd/harness` asks the operator to confirm a pairing. Requests are serialised by a
mutex; a reader goroutine, started by the first request and never stopped, scans stdin and passes every
line on through a channel that outlives the request it was meant for. What the operator types waits in
the terminal, in the reader's hand, or in the channel.

Lines come out of the channel in the order they were typed (`Invariant.fifo`). So the line that decides a
request was typed after its prompt if and only if nothing was left over when the prompt was printed
(`answers_meant_iff`).
-/
import Harness.Wire.Text
import Harness.Lib.Transition
import Mathlib.Data.List.Range

namespace Harness

open Wire Lib

namespace Console

/-- The part of `hub.ApprovalRequest` the prompt shows and the answer depends on. -/
structure Request where
  remoteAddr : String
  userAgent : String
  deriving DecidableEq, Repr

/-- What the terminal delivers: the lines, numbered as they were typed, and whatever ends the scanning
(end of input, or a line that is too long for the scanner). -/
inductive Input where
  | line (n : Nat) (s : String)
  | stop
  deriving DecidableEq, Repr

/-- The goroutine of `ensureReader`: not started, in `sc.Scan`, in `a.lines <- sc.Text()`, or past
`close(a.lines)`. -/
inductive Reader where
  | off
  | scanning
  | holding (n : Nat) (s : String)
  | closed
  deriving DecidableEq, Repr

/-- Who holds the mutex: nobody, a call that has not printed its prompt, or one in its `select`. Calls are
numbered in the order they get the mutex. -/
inductive Turn where
  | free
  | locked (r : Nat) (req : Request)
  | waiting (r : Nat) (req : Request)
  deriving DecidableEq, Repr

end Console

open Console in
/-- The terminal, the reader goroutine, and the `terminalApprover`. -/
structure Console where
  typed : Nat := 0
  tty : List Input := []
  reader : Reader := .off
  lines : List (Nat × String) := []
  turn : Turn := .free
  requests : Nat := 0

namespace Console

inductive Obs where
  | typed (n : Nat) (s : String)
  /-- the prompt of a request was printed -/
  | prompted (r : Nat)
  /-- a line was received for a request, and what it says: the device name, or a refusal -/
  | decided (r n : Nat) (s : String) (name : Option String)
  /-- the channel was closed, or the request timed out -/
  | declined (r : Nat)
  | expired (r : Nat)
  deriving DecidableEq, Repr

inductive Action where
  /-- the operator -/
  | type (s : String)
  | stop
  /-- the reader goroutine -/
  | scan
  | send
  /-- `RequestApproval`: the mutex and `ensureReader`, the prompt, and the two cases of the `select` -/
  | request (req : Request)
  | prompt
  | receive
  | timeout
  deriving DecidableEq, Repr

/-- `make(chan string, 4)`. -/
def linesCap : Nat := 4

/-- `nameFromUserAgent` of the console. -/
def nameFromUserAgent : String → String := Text.nameFromTable Text.platforms

/-- What a received line answers: `y` or `yes` approves, possibly with a name. -/
def answer (defaultName line : String) : Option String :=
  match Text.fields (Text.trimSpace line) with
  | [] => none
  | a :: rest =>
      if Text.toLower a ≠ "y" ∧ Text.toLower a ≠ "yes" then none
      else if rest = [] then some defaultName
      else some (" ".intercalate rest)

def step (w : Console) : Action → Option (Console × List Obs)
  | .type s =>
      some ({ w with typed := w.typed + 1, tty := w.tty ++ [.line w.typed s] }, [.typed w.typed s])
  | .stop => some ({ w with tty := w.tty ++ [.stop] }, [])
  | .scan =>
      match w.reader, w.tty with
      | .scanning, .line n s :: rest => some ({ w with tty := rest, reader := .holding n s }, [])
      -- the loop ends, and with it the channel
      | .scanning, .stop :: rest => some ({ w with tty := rest, reader := .closed }, [])
      | _, _ => none
  | .send =>
      match w.reader with
      | .holding n s =>
          -- the send blocks while the channel is full
          if w.lines.length < linesCap then
            some ({ w with lines := w.lines ++ [(n, s)], reader := .scanning }, [])
          else none
      | _ => none
  | .request req =>
      match w.turn with
      | .free =>
          some ({ w with
            turn := .locked w.requests req
            requests := w.requests + 1
            reader := if w.reader = .off then .scanning else w.reader }, [])
      | _ => none
  | .prompt =>
      match w.turn with
      | .locked r req => some ({ w with turn := .waiting r req }, [.prompted r])
      | _ => none
  | .receive =>
      match w.turn, w.lines with
      | .waiting r req, (n, s) :: rest =>
          some ({ w with lines := rest, turn := .free },
            [.decided r n s (answer (nameFromUserAgent req.userAgent) s)])
      | .waiting r _, [] =>
          -- a receive from a closed and drained channel
          if w.reader = .closed then some ({ w with turn := .free }, [.declined r]) else none
      | _, _ => none
  | .timeout =>
      match w.turn with
      -- what is in the channel, or still to come, stays for the next request
      | .waiting r _ => some ({ w with turn := .free }, [.expired r])
      | _ => none

/-- The terminal of the daemon. -/
def system : Lts Console Action Obs where
  step := step

/-! ## Lines on their way -/

/-- The line in the reader's hand. -/
def Reader.held : Reader → List (Nat × String)
  | .holding n s => [(n, s)]
  | _ => []

def Input.asLine : Input → Option (Nat × String)
  | .line n s => some (n, s)
  | .stop => none

/-- The typed lines no request has received, oldest first. -/
def undelivered (w : Console) : List (Nat × String) :=
  w.lines ++ w.reader.held ++ w.tty.filterMap Input.asLine

/-- What a step does to the lines and to the turn. -/
inductive Trans (w w' : Console) : List Obs → Prop
  | type {s : String} (hu : w'.undelivered = w.undelivered ++ [(w.typed, s)])
      (hn : w'.typed = w.typed + 1) (hturn : w'.turn = w.turn) (hreq : w'.requests = w.requests) :
      Trans w w' [.typed w.typed s]
  | move (hu : w'.undelivered = w.undelivered) (hn : w'.typed = w.typed) (hturn : w'.turn = w.turn)
      (hreq : w'.requests = w.requests) : Trans w w' []
  | lock {req : Request} (hu : w'.undelivered = w.undelivered) (hn : w'.typed = w.typed)
      (hturn : w'.turn = .locked w.requests req) (hreq : w'.requests = w.requests + 1) : Trans w w' []
  | prompt {r : Nat} {req : Request} (hold : w.turn = .locked r req) (hu : w'.undelivered = w.undelivered)
      (hn : w'.typed = w.typed) (hturn : w'.turn = .waiting r req) (hreq : w'.requests = w.requests) :
      Trans w w' [.prompted r]
  | decide {r n : Nat} {s : String} {req : Request} {name : Option String}
      (hold : w.turn = .waiting r req) (hu : w.undelivered = (n, s) :: w'.undelivered)
      (hn : w'.typed = w.typed) (hturn : w'.turn = .free) (hreq : w'.requests = w.requests) :
      Trans w w' [.decided r n s name]
  | giveUp {r : Nat} {o : Obs} (ho : o = .declined r ∨ o = .expired r)
      (hu : w'.undelivered = w.undelivered) (hn : w'.typed = w.typed) (hturn : w'.turn = .free)
      (hreq : w'.requests = w.requests) : Trans w w' [o]

theorem step_trans {w w' : Console} {a : Action} {os : List Obs} (h : w.step a = some (w', os)) :
    Trans w w' os := by
  cases a with
  | type s =>
    cases h
    refine .type ?_ rfl rfl rfl
    simp [undelivered, Input.asLine]
  | stop =>
    cases h
    refine .move ?_ rfl rfl rfl
    simp [undelivered, Input.asLine]
  | scan =>
    -- the line passes from the terminal into the reader's hand, or there is none
    simp only [step] at h
    split at h
    · rename_i n s rest hr ht
      cases h
      refine .move ?_ rfl rfl rfl
      simp [undelivered, Reader.held, hr, ht, Input.asLine]
    · rename_i rest hr ht
      cases h
      refine .move ?_ rfl rfl rfl
      rw [undelivered, undelivered, hr, ht, List.filterMap_cons_none rfl]
      rfl
    · cases h
  | send =>
    simp only [step] at h
    split at h
    · rename_i n s hr
      split at h
      · cases h
        refine .move ?_ rfl rfl rfl
        simp [undelivered, Reader.held, hr]
      · cases h
    · cases h
  | request req =>
    simp only [step] at h
    split at h
    · cases h
      refine .lock ?_ rfl rfl rfl
      by_cases hoff : w.reader = .off
      · simp [undelivered, Reader.held, hoff]
      · simp [undelivered, hoff]
    · cases h
  | prompt =>
    simp only [step] at h
    split at h
    · rename_i r req hturn
      cases h
      exact .prompt hturn rfl rfl rfl rfl
    · cases h
  | receive =>
    simp only [step] at h
    split at h
    · rename_i r req n s rest hturn hl
      cases h
      refine .decide hturn ?_ rfl rfl rfl
      simp [undelivered, hl]
    · split at h
      · cases h
        exact .giveUp (.inl rfl) rfl rfl rfl rfl
      · cases h
    · cases h
  | timeout =>
    simp only [step] at h
    split at h
    · cases h
      exact .giveUp (.inr rfl) rfl rfl rfl rfl
    · cases h

/-! ## First in, first out -/

def Obs.typedLine : Obs → Option (Nat × String)
  | .typed n s => some (n, s)
  | _ => none

def Obs.decidedLine : Obs → Option (Nat × String)
  | .decided _ n s _ => some (n, s)
  | _ => none

/-- The lines typed so far, and those that decided a request. -/
def typedLines (tr : List Obs) : List (Nat × String) := tr.filterMap Obs.typedLine

def decidedLines (tr : List Obs) : List (Nat × String) := tr.filterMap Obs.decidedLine

theorem typedLines_concat (tr : List Obs) (o : Obs) :
    typedLines (tr ++ [o]) = typedLines tr ++ o.typedLine.toList := by
  rw [typedLines, List.filterMap_append, typedLines]
  cases o <;> rfl

theorem decidedLines_concat (tr : List Obs) (o : Obs) :
    decidedLines (tr ++ [o]) = decidedLines tr ++ o.decidedLine.toList := by
  rw [decidedLines, List.filterMap_append, decidedLines]
  cases o <;> rfl

/-- What comes in goes to the end, what goes out comes from the front. -/
theorem fifo_concat {tr : List Obs} {o : Obs} {u u' : List (Nat × String)}
    (h : typedLines tr = decidedLines tr ++ u)
    (hs : u ++ o.typedLine.toList = o.decidedLine.toList ++ u') :
    typedLines (tr ++ [o]) = decidedLines (tr ++ [o]) ++ u' := by
  rw [typedLines_concat, decidedLines_concat, h, List.append_assoc, hs, List.append_assoc]

/-- The trace up to the prompt of request `r` and since, nothing having been received since. -/
structure OwnPrompt (r : Nat) (tr q₁ q₂ : List Obs) : Prop where
  split : tr = q₁ ++ .prompted r :: q₂
  first : .prompted r ∉ q₁
  last : .prompted r ∉ q₂
  nothing : decidedLines q₂ = []
  fifo : decidedLines q₁ <+: typedLines q₁

/-- Lines are received in the order they are typed, and a request in its `select` is the one whose prompt
was printed last. -/
structure Invariant (tr : List Obs) (w : Console) : Prop where
  fifo : typedLines tr = decidedLines tr ++ w.undelivered
  numbered : (typedLines tr).map Prod.fst = List.range w.typed
  past : ∀ r, .prompted r ∈ tr → r < w.requests
  locked : ∀ r req, w.turn = .locked r req → r < w.requests ∧ .prompted r ∉ tr
  waiting : ∀ r req, w.turn = .waiting r req → ∃ q₁ q₂, OwnPrompt r tr q₁ q₂

theorem OwnPrompt.concat {r : Nat} {tr q₁ q₂ : List Obs} (h : OwnPrompt r tr q₁ q₂) {o : Obs}
    (ho : o ≠ .prompted r) (hd : o.decidedLine = none) : OwnPrompt r (tr ++ [o]) q₁ (q₂ ++ [o]) := by
  refine ⟨?_, h.first, fun hm => ?_, ?_, h.fifo⟩
  · rw [h.split, List.append_assoc, List.cons_append]
  · rcases List.mem_append.mp hm with hm | hm
    · exact h.last hm
    · exact ho (List.mem_singleton.mp hm).symm
  · rw [decidedLines_concat, h.nothing, hd]
    rfl

theorem Invariant.step {tr os : List Obs} {w w' : Console} (h : Trans w w' os) (hi : Invariant tr w) :
    Invariant (tr ++ os) w' := by
  have past {o : Obs} (ho : ∀ r, o ≠ .prompted r) (hreq : w'.requests = w.requests) :
      ∀ r, .prompted r ∈ tr ++ [o] → r < w'.requests := by
    intro r hm
    rw [hreq]
    rcases List.mem_append.mp hm with hm | hm
    · exact hi.past r hm
    · exact absurd (List.mem_singleton.mp hm).symm (ho r)
  have numbered {o : Obs} (ho : o.typedLine = none) (hn : w'.typed = w.typed) :
      (typedLines (tr ++ [o])).map Prod.fst = List.range w'.typed := by
    rw [typedLines_concat, ho, hn, ← hi.numbered]
    exact congrArg _ (List.append_nil _)
  cases h with
  | @type s hu hn hturn hreq =>
    refine ⟨fifo_concat hi.fifo (by rw [hu]; rfl), ?_, past (fun _ => nofun) hreq, fun r req he => ?_,
      fun r req he => ?_⟩
    · rw [typedLines_concat, List.map_append, hi.numbered, hn, List.range_succ]
      rfl
    · rw [hturn] at he
      obtain ⟨hr, hno⟩ := hi.locked r req he
      exact ⟨hreq ▸ hr, by simpa using hno⟩
    · rw [hturn] at he
      obtain ⟨q₁, q₂, hq⟩ := hi.waiting r req he
      exact ⟨q₁, _, hq.concat nofun rfl⟩
  | move hu hn hturn hreq =>
    rw [List.append_nil]
    exact ⟨by rw [hu, hi.fifo], by rw [hn, hi.numbered], fun r hm => hreq ▸ hi.past r hm,
      fun r req he => hreq ▸ hi.locked r req (hturn ▸ he), fun r req he => hi.waiting r req (hturn ▸ he)⟩
  | lock hu hn hturn hreq =>
    rw [List.append_nil]
    refine ⟨by rw [hu, hi.fifo], by rw [hn, hi.numbered], fun r hm => ?_, fun r req he => ?_,
      fun r req he => ?_⟩
    · have := hi.past r hm
      omega
    · -- a fresh number: nothing was printed for it
      rw [hturn] at he
      cases he
      refine ⟨by omega, fun hm => ?_⟩
      have := hi.past _ hm
      omega
    · rw [hturn] at he
      cases he
  | @prompt r req hold hu hn hturn hreq =>
    obtain ⟨hr, hno⟩ := hi.locked r req hold
    refine ⟨fifo_concat hi.fifo (by rw [hu]; exact List.append_nil _), numbered rfl hn, fun r' hm => ?_,
      fun r' req' he => ?_, fun r' req' he => ?_⟩
    · rcases List.mem_append.mp hm with hm | hm
      · exact hreq ▸ hi.past r' hm
      · cases List.mem_singleton.mp hm
        exact hreq ▸ hr
    · rw [hturn] at he
      cases he
    · rw [hturn] at he
      cases he
      exact ⟨tr, [], rfl, hno, List.not_mem_nil, rfl, ⟨_, hi.fifo.symm⟩⟩
  | @decide r n s req name hold hu hn hturn hreq =>
    refine ⟨fifo_concat hi.fifo (by rw [hu]; exact List.append_nil _), numbered rfl hn,
      past (fun _ => nofun) hreq, fun r req he => ?_, fun r req he => ?_⟩
    · rw [hturn] at he
      cases he
    · rw [hturn] at he
      cases he
  | @giveUp r o ho hu hn hturn hreq =>
    have hl : o.typedLine = none ∧ o.decidedLine = none := by
      rcases ho with rfl | rfl <;> exact ⟨rfl, rfl⟩
    refine ⟨fifo_concat hi.fifo (by rw [hu, hl.1, hl.2]; exact List.append_nil _), numbered hl.1 hn,
      past (fun r' => ?_) hreq, fun r req he => ?_, fun r req he => ?_⟩
    · rcases ho with rfl | rfl <;> exact nofun
    · rw [hturn] at he
      cases he
    · rw [hturn] at he
      cases he

theorem invariant {tr : List Obs} {w : Console} (h : system.Run Lts.Free [] {} tr w) :
    Invariant tr w := by
  refine h.invariant (I := Invariant) ⟨rfl, rfl, fun _ hm => absurd hm List.not_mem_nil, nofun, nofun⟩ ?_
  intro t u a u' os _ ih _ hs
  exact ih.step (step_trans hs)

/-! ## Whose answer it is -/

/-- Every line that decides a request was typed after the prompt of that request was printed. -/
def AnswersMeant (tr : List Obs) : Prop :=
  Lts.Preceded (fun q o => ∀ r n s name, o = .decided r n s name →
    ∃ q₁ q₂, q = q₁ ++ .prompted r :: q₂ ∧ .typed n s ∈ q₂) tr

/-- When the prompt of a request that a line decides was printed, every line typed so far had decided an
earlier request. -/
def NothingLeftOver (tr : List Obs) : Prop :=
  Lts.Preceded (fun q o => ∀ r n s name, o = .decided r n s name →
    ∃ q₁ q₂, q = q₁ ++ .prompted r :: q₂ ∧ (typedLines q₁).length = (decidedLines q₁).length) tr

theorem mem_typedLines {tr : List Obs} {n : Nat} {s : String} :
    (n, s) ∈ typedLines tr ↔ .typed n s ∈ tr := by
  rw [typedLines, List.mem_filterMap]
  constructor
  · rintro ⟨o, ho, he⟩
    cases o with
    | typed => cases he; exact ho
    | _ => cases he
  · exact fun h => ⟨_, h, rfl⟩

/-- **The deciding line was typed after the prompt if and only if nothing was left over at the
prompt.** -/
theorem Invariant.decided_iff {tr : List Obs} {w : Console} (hi : Invariant tr w) {n : Nat} {s : String}
    {rest : List (Nat × String)} (hu : w.undelivered = (n, s) :: rest) {r : Nat} {q₁ q₂ : List Obs}
    (hq : OwnPrompt r tr q₁ q₂) :
    .typed n s ∈ q₂ ↔ (typedLines q₁).length = (decidedLines q₁).length := by
  obtain ⟨left, hleft⟩ := hq.fifo
  -- what was left over at the prompt and what was typed since, is what waits now
  have hsplit : left ++ typedLines q₂ = (n, s) :: rest := by
    have htyped : typedLines tr = typedLines q₁ ++ typedLines q₂ := by
      rw [hq.split, typedLines, List.filterMap_append, List.filterMap_cons_none rfl, typedLines,
        typedLines]
    have hdecided : decidedLines tr = decidedLines q₁ := by
      rw [hq.split, decidedLines, List.filterMap_append, List.filterMap_cons_none rfl, ← decidedLines,
        ← decidedLines, hq.nothing, List.append_nil]
    have hfifo := hi.fifo
    rw [htyped, hdecided, ← hleft, hu, List.append_assoc] at hfifo
    exact List.append_cancel_left hfifo
  have hlen : (typedLines q₁).length = (decidedLines q₁).length ↔ left = [] := by
    rw [← hleft, List.length_append, List.eq_nil_iff_length_eq_zero]
    omega
  rw [hlen, ← mem_typedLines]
  constructor
  · intro hm
    cases left with
    | nil => rfl
    | cons x left =>
      -- the line would have been typed twice
      rw [List.cons_append, List.cons.injEq] at hsplit
      have hnum := hi.numbered
      rw [hi.fifo, hu, ← hsplit.1, ← hsplit.2, List.map_append, List.map_cons, List.map_append] at hnum
      have hnd : ((decidedLines tr).map Prod.fst ++
          x.1 :: (left.map Prod.fst ++ (typedLines q₂).map Prod.fst)).Nodup := by
        rw [hnum]
        exact List.nodup_range
      have hx := (List.nodup_cons.mp (List.nodup_append.mp hnd).2.1).1
      rw [hsplit.1] at hx
      exact absurd (List.mem_append_right _ (List.mem_map_of_mem hm)) hx
  · rintro rfl
    rw [List.nil_append] at hsplit
    rw [hsplit]
    exact List.mem_cons_self

/-- Every decision has its own prompt, and the equivalence holds at each. -/
theorem decisions {tr : List Obs} {w : Console} (h : system.Run Lts.Free [] {} tr w) :
    Lts.Preceded (fun q o => ∀ r n s name, o = .decided r n s name →
      ∃ q₁ q₂, OwnPrompt r q q₁ q₂ ∧
        (.typed n s ∈ q₂ ↔ (typedLines q₁).length = (decidedLines q₁).length)) tr := by
  refine h.invariant (I := fun t _ => Lts.Preceded _ t) (Lts.preceded_nil _) ?_
  intro t u a u' os hr ih _ hs
  refine Lts.preceded_append ih ?_
  rintro p o q hos r n s name rfl
  cases step_trans hs with
  | decide hold hu =>
    obtain ⟨rfl, he⟩ : p = [] ∧ _ := by
      cases p with
      | nil => exact ⟨rfl, hos⟩
      | cons x p => simp at hos
    cases he
    obtain ⟨q₁, q₂, hq⟩ := (invariant hr).waiting r _ hold
    rw [List.append_nil]
    exact ⟨q₁, q₂, hq, (invariant hr).decided_iff hu hq⟩
  | type | prompt =>
    have hm : Obs.decided r n s name ∈ p ++ Obs.decided r n s name :: q :=
      List.mem_append_right _ List.mem_cons_self
    rw [← hos] at hm
    cases List.mem_singleton.mp hm
  | move | lock => simp at hos
  | giveUp ho =>
    have hm : Obs.decided r n s name ∈ p ++ Obs.decided r n s name :: q :=
      List.mem_append_right _ List.mem_cons_self
    rw [← hos] at hm
    rcases ho with rfl | rfl <;> cases List.mem_singleton.mp hm

/-- The prompt of a request is printed once. -/
theorem OwnPrompt.unique {r : Nat} {tr q₁ q₂ p₁ p₂ : List Obs} (h : OwnPrompt r tr q₁ q₂)
    (hp : tr = p₁ ++ .prompted r :: p₂) : p₁ = q₁ ∧ p₂ = q₂ := by
  rw [h.split] at hp
  obtain ⟨h1, -, h2⟩ := (List.append_cons_inj_of_notMem h.first h.last).mp hp
  exact ⟨h1.symm, h2.symm⟩

/-- **A console answer decides only the request it was typed for**, in exactly the runs in which nothing
is left over when the prompt of a decided request is printed. -/
theorem answers_meant_iff {tr : List Obs} {w : Console} (h : system.Run Lts.Free [] {} tr w) :
    AnswersMeant tr ↔ NothingLeftOver tr := by
  have hdec := decisions h
  constructor
  · intro hm p o q htr r n s name ho
    obtain ⟨q₁, q₂, hq, hiff⟩ := hdec p o q htr r n s name ho
    obtain ⟨p₁, p₂, hp, htyped⟩ := hm p o q htr r n s name ho
    obtain ⟨rfl, rfl⟩ := hq.unique hp
    exact ⟨p₁, p₂, hp, hiff.mp htyped⟩
  · intro hm p o q htr r n s name ho
    obtain ⟨q₁, q₂, hq, hiff⟩ := hdec p o q htr r n s name ho
    obtain ⟨p₁, p₂, hp, hlen⟩ := hm p o q htr r n s name ho
    obtain ⟨rfl, rfl⟩ := hq.unique hp
    exact ⟨p₁, p₂, hp, hiff.mpr hlen⟩

/-! ## Two runs -/

def phone : Request := ⟨"192.168.1.7:50112", "okhttp/4.12"⟩

def stranger : Request := ⟨"192.168.1.66:40001", "Mozilla/5.0 (Linux; Android 14)"⟩

/-- The operator answers the prompt on the screen. -/
def answered : List Action := [.request phone, .prompt, .type "y Kitchen", .scan, .send, .receive]

theorem answers_meant_iff_answered :
    ∃ tr w, system.Run Lts.Free [] {} tr w ∧ .decided 0 0 "y Kitchen" (some "Kitchen") ∈ tr ∧
      (AnswersMeant tr ↔ NothingLeftOver tr) := by
  have hexec : ∃ r, system.exec (fun _ _ _ => true) [] {} answered = some r ∧
      .decided 0 0 "y Kitchen" (some "Kitchen") ∈ r.1 := ⟨_, rfl, by decide⟩
  obtain ⟨⟨tr, w⟩, he, hm⟩ := hexec
  have hr := Lts.run_of_exec (P := Lts.Free) (fun _ _ _ _ => trivial) he
  exact ⟨tr, w, hr, hm, answers_meant_iff hr⟩

/-- The phone's request times out before the operator answers it. The late answer waits in the channel
for whoever connects next. -/
def lateAnswer : List Action :=
  [.request phone, .prompt, .timeout, .type "y", .scan, .send, .request stranger, .prompt, .receive]

theorem lateAnswer_approves :
    ∃ tr w, system.Run Lts.Free [] {} tr w ∧ .decided 1 0 "y" (some "Android") ∈ tr ∧
      ¬ AnswersMeant tr := by
  have hexec : (system.exec (fun _ _ _ => true) [] {} lateAnswer).map Prod.fst =
      some [.prompted 0, .expired 0, .typed 0 "y", .prompted 1, .decided 1 0 "y" (some "Android")] := by
    decide
  obtain ⟨w, hr⟩ := Lts.run_of_exec_trace (P := Lts.Free) (fun _ _ _ _ => trivial) hexec
  refine ⟨_, w, hr, by decide, fun hm => ?_⟩
  obtain ⟨q₁, q₂, hq, htyped⟩ :=
    hm [.prompted 0, .expired 0, .typed 0 "y", .prompted 1] _ [] rfl 1 0 "y" (some "Android") rfl
  have hsplit : [Obs.prompted 0, .expired 0, .typed 0 "y"] ++ .prompted 1 :: [] =
      q₁ ++ .prompted 1 :: q₂ := hq
  obtain ⟨-, -, rfl⟩ := (List.append_cons_inj_of_notMem (by decide) List.not_mem_nil).mp hsplit
  exact absurd htyped List.not_mem_nil

end Console

end Harness
