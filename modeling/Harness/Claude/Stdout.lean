/-
# Harness.Claude.Stdout — the output of the agent on its way to `handleStreamJSON`.

The agent writes into a pipe and exits. `readStdout` takes the other end through a `bufio.Scanner`; `reap`
waits for the exit and then closes that end, whether everything has been read or not. What the scanner has by
then is all it gets: `Progress` says where it stands in it, as a loop invariant of `Scan`.

The scanner ends in one of two ways. Either the end of what it could read, where the lines of that have been
passed on, the last of them cut short if the close came in the middle of it; or a line that does not fit the
buffer, where the loop is left and nothing that follows is looked at.
-/
import Harness.Lib.Lines
import Harness.Lib.Transition

namespace Harness.Claude.Stdout

open Lib

/-! ## bufio -/

def newline : UInt8 := 10

def carriageReturn : UInt8 := 13

/-- The length of the buffer given to `scanner.Buffer`, -/
def bufferSize : Nat := 4096

/-- and the length it may grow to. -/
def maxTokenSize : Nat := 1024 * 1024

/-- What `s.err` can be: the read ends, or finds its end of the pipe closed, or the buffer is full. -/
inductive ScanError where
  | eof
  | closed
  | tooLong
  deriving DecidableEq, Repr

/-- Where the goroutine stands in `Scan`: at the head of the loop, before the read, or `Scan` has returned
false. -/
inductive ScanPc where
  | split
  | read
  | done
  deriving DecidableEq, Repr

/-- `bufio.Scanner`: `data` is `s.buf[s.start:s.end]`, `size` is `len(s.buf)`. -/
structure Scanner where
  pc : ScanPc := .split
  start : Nat := 0
  data : List UInt8 := []
  size : Nat := bufferSize
  err : Option ScanError := none
  deriving DecidableEq

/-- `s.end`. -/
def Scanner.stop (s : Scanner) : Nat := s.start + s.data.length

def dropCR (data : List UInt8) : List UInt8 := trimLast carriageReturn data

/-- `bufio.ScanLines`: how far to advance, and the token. -/
def scanLines (data : List UInt8) (atEOF : Bool) : Nat × Option (List UInt8) :=
  if atEOF ∧ data = [] then (0, none)
  else
    match data.idxOf? newline with
    | some i => (i + 1, some (dropCR (data.take i)))
    | none => if atEOF then (data.length, some (dropCR data)) else (0, none)

/-- What `Scan` does before it reads: shift the data, and when that leaves no room grow the buffer. -/
def Scanner.makeRoom (s : Scanner) : Scanner :=
  let s := if 0 < s.start ∧ (s.stop = s.size ∨ s.size / 2 < s.start) then { s with start := 0 } else s
  if s.stop = s.size then
    if maxTokenSize ≤ s.size then { s with pc := .done, err := some .tooLong }
    else { s with pc := .read, start := 0, size := min (s.size * 2) maxTokenSize }
  else { s with pc := .read }

/-- One turn of the loop in `Scan`, up to the read or to the token it returns. -/
def Scanner.turn (s : Scanner) : Scanner × Option (List UInt8) :=
  if s.data = [] ∧ s.err = none then (s.makeRoom, none)
  else
    let r := scanLines s.data s.err.isSome
    let s' := { s with start := s.start + r.1, data := s.data.drop r.1 }
    match r.2 with
    | some token => (s', some token)
    | none =>
        if s.err.isSome then ({ s' with pc := .done, start := 0, data := [] }, none)
        else (s'.makeRoom, none)

/-- The read returns an error. -/
def Scanner.fail (s : Scanner) (err : ScanError) : Scanner := { s with pc := .split, err := some err }

/-- The read returns `bytes`. -/
def Scanner.fill (s : Scanner) (bytes : List UInt8) : Scanner :=
  { s with pc := .split, data := s.data ++ bytes }

/-! ## The pipe and the three that use it -/

structure State where
  pipe : List UInt8 := []
  exited : Bool := false
  closed : Bool := false
  scanner : Scanner := {}
  deriving DecidableEq

/-- The agent writes or exits, `cmd.Wait` closes the pipe, the scanner turns or reads up to `n` bytes. -/
inductive Action where
  | write (bytes : List UInt8)
  | exit
  | wait
  | turn
  | read (n : Nat)

/-- Bytes go into the pipe, and out of it; a line is passed to `handleStreamJSON`. -/
inductive Obs where
  | wrote (bytes : List UInt8)
  | took (bytes : List UInt8)
  | line (bytes : List UInt8)

/-- The pipe holds `capacity` bytes, and a write to a full one blocks. -/
def system (capacity : Nat) : Lts State Action Obs where
  step s
    | .write bytes =>
        if s.exited = false ∧ s.pipe.length + bytes.length ≤ capacity then
          some ({ s with pipe := s.pipe ++ bytes }, [.wrote bytes])
        else none
    | .exit => if s.exited = false then some ({ s with exited := true }, []) else none
    -- `Wait` returns after the exit, and closes the pipe before it does
    | .wait => if s.exited = true ∧ s.closed = false then some ({ s with closed := true }, []) else none
    | .turn =>
        if s.scanner.pc = .split then
          let r := s.scanner.turn
          some ({ s with scanner := r.1 }, r.2.toList.map Obs.line)
        else none
    | .read n =>
        if s.scanner.pc = .read then
          if s.closed = true then some ({ s with scanner := s.scanner.fail .closed }, [])
          else if s.pipe = [] then
            if s.exited = true then some ({ s with scanner := s.scanner.fail .eof }, []) else none
          else if 0 < n ∧ n ≤ s.pipe.length ∧ n ≤ s.scanner.size - s.scanner.stop then
            some ({ s with pipe := s.pipe.drop n, scanner := s.scanner.fill (s.pipe.take n) },
              [.took (s.pipe.take n)])
          else none
        else none

def Obs.written : Obs → List UInt8
  | .wrote bytes => bytes
  | _ => []

def Obs.taken : Obs → List UInt8
  | .took bytes => bytes
  | _ => []

def Obs.passed : Obs → List (List UInt8)
  | .line bytes => [bytes]
  | _ => []

/-- What the agent has written. -/
def written (tr : List Obs) : List UInt8 := tr.flatMap Obs.written

/-- What the scanner has read. -/
def taken (tr : List Obs) : List UInt8 := tr.flatMap Obs.taken

/-- What has been passed to `handleStreamJSON`. -/
def passed (tr : List Obs) : List (List UInt8) := tr.flatMap Obs.passed

/-- The lines of a stream, as `bufio.ScanLines` divides it. -/
def streamLines (stream : List UInt8) : List (List UInt8) := lines newline carriageReturn stream

/-- **`Short stream`** — no line fills the buffer. -/
def Short (stream : List UInt8) : Prop := ∀ p ∈ stream.splitOn newline, p.length < maxTokenSize

/-! ## A turn of the scanner -/

theorem idxOf?_newline {p rest : List UInt8} (hp : newline ∉ p) :
    (p ++ newline :: rest).idxOf? newline = some p.length := by
  induction p with
  | nil => rfl
  | cons b p ih =>
      have hb : (b == newline) = false := beq_eq_false_iff_ne.mpr fun h => hp (h ▸ List.mem_cons_self)
      rw [List.cons_append, List.idxOf?_cons, hb, ih fun h => hp (List.mem_cons_of_mem _ h)]
      rfl

theorem scanLines_line {p rest : List UInt8} (hp : newline ∉ p) (atEOF : Bool) :
    scanLines (p ++ newline :: rest) atEOF = (p.length + 1, some (dropCR p)) := by
  have hne : ¬ (atEOF = true ∧ p ++ newline :: rest = []) := by simp
  rw [scanLines, if_neg hne, idxOf?_newline hp]
  simp

theorem scanLines_more {data : List UInt8} (h : newline ∉ data) : scanLines data false = (0, none) := by
  rw [scanLines, List.idxOf?_eq_none_iff.mpr h]
  simp

theorem scanLines_final {data : List UInt8} (h : newline ∉ data) (hne : data ≠ []) :
    scanLines data true = (data.length, some (dropCR data)) := by
  rw [scanLines, List.idxOf?_eq_none_iff.mpr h]
  simp [hne]

/-- What a turn can do: return a line, return what is left after the last one, end, or make room. -/
inductive Turn (s : Scanner) : Scanner → Option (List UInt8) → Prop
  | line {p rest : List UInt8} (hdata : s.data = p ++ newline :: rest) (hp : newline ∉ p) :
      Turn s { s with start := s.start + (p.length + 1), data := rest } (some (dropCR p))
  | final (herr : s.err ≠ none) (hnl : newline ∉ s.data) (hne : s.data ≠ []) :
      Turn s { s with start := s.start + s.data.length, data := [] } (some (dropCR s.data))
  | finished (herr : s.err ≠ none) (hdata : s.data = []) :
      Turn s { s with pc := .done, start := 0, data := [] } none
  | room (herr : s.err = none) (hnl : newline ∉ s.data) : Turn s s.makeRoom none

theorem Scanner.turn_cases (s : Scanner) : Turn s s.turn.1 s.turn.2 := by
  obtain ⟨pc, start, data, size, err⟩ := s
  unfold turn
  split
  · rename_i h
    obtain ⟨hdata, herr⟩ := h
    exact .room herr (by rw [hdata]; exact List.not_mem_nil)
  · rename_i h
    by_cases hnl : newline ∈ data
    · obtain ⟨p, rest, rfl, hp⟩ := List.eq_append_cons_of_mem hnl
      simp only [scanLines_line hp]
      have hdrop : (p ++ newline :: rest).drop (p.length + 1) = rest := by
        rw [List.drop_append, List.drop_eq_nil_of_le (Nat.le_succ _)]
        simp
      rw [hdrop]
      exact .line rfl hp
    · cases err with
      | none =>
          simp only [Option.isSome_none, scanLines_more hnl, Nat.add_zero, List.drop_zero]
          exact .room rfl hnl
      | some err =>
          cases data with
          | nil => exact .finished nofun rfl
          | cons b data =>
              simp only [Option.isSome_some, scanLines_final hnl (List.cons_ne_nil _ _), List.drop_length]
              exact .final nofun hnl (List.cons_ne_nil _ _)

/-- **Room is made**, or there is none to be had. -/
theorem Scanner.makeRoom_cases {s : Scanner} (hpos : 0 < s.size) (hstop : s.stop ≤ s.size)
    (hmax : s.size ≤ maxTokenSize) :
    s.makeRoom.data = s.data ∧ s.makeRoom.size ≤ maxTokenSize ∧ s.size ≤ s.makeRoom.size ∧
      ((s.makeRoom.pc = .read ∧ s.makeRoom.err = s.err ∧ s.makeRoom.stop < s.makeRoom.size) ∨
        (s.makeRoom.pc = .done ∧ s.data.length = maxTokenSize)) := by
  obtain ⟨pc, start, data, size, err⟩ := s
  simp only [stop] at hpos hstop hmax ⊢
  unfold makeRoom
  by_cases hshift : 0 < start ∧ (start + data.length = size ∨ size / 2 < start)
  · have hroom : data.length ≠ size := by omega
    simp only [stop, hshift, and_self, if_true, Nat.zero_add, hroom, if_false]
    exact ⟨trivial, hmax, Nat.le_refl _, .inl ⟨trivial, trivial, by omega⟩⟩
  · simp only [stop, hshift, if_false]
    by_cases hfull : start + data.length = size
    · simp only [hfull, if_true]
      by_cases hlimit : maxTokenSize ≤ size
      · simp only [hlimit, if_true]
        exact ⟨trivial, hmax, Nat.le_refl _, .inr ⟨trivial, by omega⟩⟩
      · simp only [hlimit, if_false]
        exact ⟨trivial, Nat.min_le_right _ _, by omega, .inl ⟨trivial, trivial, by omega⟩⟩
    · simp only [hfull, if_false]
      exact ⟨trivial, hmax, Nat.le_refl _, .inl ⟨trivial, trivial, by omega⟩⟩

/-! ## The loop -/

theorem streamLines_cut {stream rest : List UInt8} {rs : List (List UInt8)} (h : Cut newline stream rs rest) :
    streamLines stream = rs.map dropCR ++ streamLines rest := h.lines

theorem short_cut {stream rest : List UInt8} {rs : List (List UInt8)} (h : Cut newline stream rs rest)
    (hnl : newline ∉ rest) :
    Short stream ↔ (∀ p ∈ rs, p.length < maxTokenSize) ∧ rest.length < maxTokenSize := by
  rw [Short, h.splitOn, List.splitOn_eq_singleton hnl, List.forall_mem_append, List.forall_mem_singleton]

/-- **`Progress stream out s`** — where the scanner stands that has read `stream` and returned `out`. -/
inductive Progress (stream : List UInt8) (out : List (List UInt8)) (s : Scanner) : Prop
  /-- It has taken the pieces `rs`, and holds the rest. -/
  | scanning {rs : List (List UInt8)} (hcut : Cut newline stream rs s.data) (hout : out = rs.map dropCR)
      (hshort : ∀ p ∈ rs, p.length < maxTokenSize) (hpos : 0 < s.size) (hstop : s.stop ≤ s.size)
      (hmax : s.size ≤ maxTokenSize) (hpc : s.pc ≠ .done)
      (hread : s.pc = .read → newline ∉ s.data ∧ s.err = none ∧ s.stop < s.size)
      (herr : s.err ≠ none → newline ∉ s.data ∧ s.data.length < maxTokenSize)
  /-- It has returned every line. -/
  | told (hout : out = streamLines stream) (hshort : Short stream) (hdata : s.data = []) (herr : s.err ≠ none)
      (hpc : s.pc ≠ .read)
  /-- It has given up at a line that fills the buffer. -/
  | overlong {rs : List (List UInt8)} {rest : List UInt8} (hcut : Cut newline stream rs rest)
      (hnl : newline ∉ rest) (hlen : rest.length = maxTokenSize) (hout : out = rs.map dropCR)
      (hpc : s.pc = .done)

theorem progress_new : Progress [] [] {} :=
  .scanning (.nil []) rfl (fun _ h => (List.not_mem_nil h).elim) (by decide) (by decide) (by decide) nofun nofun
    (fun h => absurd rfl h)

theorem Progress.turn {stream : List UInt8} {out : List (List UInt8)} {s : Scanner}
    (h : Progress stream out s) (hsplit : s.pc = .split) :
    Progress stream (out ++ s.turn.2.toList) s.turn.1 := by
  have hturn := s.turn_cases
  generalize s.turn.1 = s', s.turn.2 = token at hturn
  cases h with
  | scanning hcut hout hshort hpos hstop hmax hpc hread herr =>
      cases hturn with
      | @line p rest hdata hp =>
          rw [hdata] at hcut
          rw [Scanner.stop, hdata, List.length_append, List.length_cons] at hstop
          refine .scanning (hcut.take hp) (by simp [hout]) ?_ hpos ?_ hmax hpc (fun h => ?_) (fun h => ?_)
          · rw [List.forall_mem_append, List.forall_mem_singleton]
            exact ⟨hshort, by omega⟩
          · show s.start + (p.length + 1) + rest.length ≤ s.size
            omega
          · rw [hsplit] at h
            cases h
          · -- a read has failed, and there was an `nl` after all
            rw [hdata] at herr
            exact absurd (List.mem_append_right p List.mem_cons_self) (herr h).1
      | final h hnl hne =>
          refine .told ?_ ((short_cut hcut hnl).mpr ⟨hshort, (herr h).2⟩) rfl h ?_
          · rw [streamLines_cut hcut, hout, streamLines, lines_of_notMem hnl, lastLine, if_neg hne]
            rfl
          · show s.pc ≠ .read
            rw [hsplit]
            exact fun h => by cases h
      | finished h hdata =>
          rw [hdata] at hcut
          refine .told ?_ ((short_cut hcut List.not_mem_nil).mpr ⟨hshort, by decide⟩) rfl h fun h => by cases h
          rw [streamLines_cut hcut, hout]
          rfl
      | room h hnl =>
          obtain ⟨hdata, hmax', hgrown, ⟨hpc', herr', hroom⟩ | ⟨hpc', hlen⟩⟩ :=
            Scanner.makeRoom_cases hpos hstop hmax
          · refine .scanning (hdata ▸ hcut) (by simp [hout]) hshort (Nat.lt_of_lt_of_le hpos hgrown)
              (Nat.le_of_lt hroom) hmax' (by rw [hpc']; exact fun h => by cases h)
              (fun _ => ⟨hdata ▸ hnl, herr'.trans h, hroom⟩) (fun hne => absurd (herr'.trans h) hne)
          · exact .overlong hcut hnl hlen (by simp [hout]) hpc'
  | told hout hshort hdata herr hpc =>
      cases hturn with
      | line hdata' _ => simp [hdata] at hdata'
      | final _ _ hne => exact absurd hdata hne
      | finished h _ => exact .told (by simp [hout]) hshort rfl h fun h => by cases h
      | room h _ => exact absurd h herr
  | overlong hcut hnl hlen hout hpc =>
      rw [hsplit] at hpc
      cases hpc

/-- Before a read there is room, and no error so far. -/
theorem Progress.reading {stream : List UInt8} {out : List (List UInt8)} {s : Scanner}
    (h : Progress stream out s) (hpc : s.pc = .read) : s.err = none ∧ s.stop < s.size := by
  cases h with
  | scanning _ _ _ _ _ _ _ hread _ => exact (hread hpc).2
  | told _ _ _ _ hread => exact absurd hpc hread
  | overlong _ _ _ _ hdone =>
      rw [hpc] at hdone
      cases hdone

theorem Progress.fill {stream bytes : List UInt8} {out : List (List UInt8)} {s : Scanner}
    (h : Progress stream out s) (hpc : s.pc = .read) (hfits : bytes.length ≤ s.size - s.stop) :
    Progress (stream ++ bytes) out (s.fill bytes) := by
  cases h with
  | scanning hcut hout hshort hpos hstop hmax _ hread herr =>
      obtain ⟨-, hnone, -⟩ := hread hpc
      refine .scanning (hcut.append bytes) hout hshort hpos ?_ hmax nofun nofun (fun h => absurd hnone h)
      show s.start + (s.data ++ bytes).length ≤ s.size
      rw [Scanner.stop] at hstop hfits
      rw [List.length_append]
      omega
  | told _ _ _ _ hread => exact absurd hpc hread
  | overlong _ _ _ _ hdone =>
      rw [hpc] at hdone
      cases hdone

theorem Progress.fail {stream : List UInt8} {out : List (List UInt8)} {s : Scanner}
    (h : Progress stream out s) (hpc : s.pc = .read) (err : ScanError) :
    Progress stream out (s.fail err) := by
  cases h with
  | scanning hcut hout hshort hpos hstop hmax _ hread herr =>
      obtain ⟨hnl, -, hroom⟩ := hread hpc
      refine .scanning hcut hout hshort hpos hstop hmax nofun nofun fun _ => ⟨hnl, ?_⟩
      show s.data.length < maxTokenSize
      rw [Scanner.stop] at hroom
      omega
  | told _ _ _ _ hread => exact absurd hpc hread
  | overlong _ _ _ _ hdone =>
      rw [hpc] at hdone
      cases hdone

/-! ## Runs -/

/-- What a step can do. -/
inductive Step (s : State) : State → List Obs → Prop
  | write (bytes : List UInt8) : Step s { s with pipe := s.pipe ++ bytes } [.wrote bytes]
  | exit : Step s { s with exited := true } []
  | close : Step s { s with closed := true } []
  | turn (hpc : s.scanner.pc = .split) :
      Step s { s with scanner := s.scanner.turn.1 } (s.scanner.turn.2.toList.map Obs.line)
  | fail (hpc : s.scanner.pc = .read) (err : ScanError) : Step s { s with scanner := s.scanner.fail err } []
  | fill {n : Nat} (hpc : s.scanner.pc = .read) (hfits : n ≤ s.scanner.size - s.scanner.stop) :
      Step s { s with pipe := s.pipe.drop n, scanner := s.scanner.fill (s.pipe.take n) } [.took (s.pipe.take n)]

theorem step_cases {capacity : Nat} {s s' : State} {a : Action} {os : List Obs}
    (h : (system capacity).step s a = some (s', os)) : Step s s' os := by
  cases a with
  | write bytes =>
      simp only [system] at h
      split at h
      · cases h
        exact .write bytes
      · cases h
  | exit =>
      simp only [system] at h
      split at h
      · cases h
        exact .exit
      · cases h
  | wait =>
      simp only [system] at h
      split at h
      · cases h
        exact .close
      · cases h
  | turn =>
      simp only [system] at h
      split at h
      · rename_i hpc
        cases h
        exact .turn hpc
      · cases h
  | read n =>
      simp only [system] at h
      split at h
      · rename_i hpc
        split at h
        · cases h
          exact .fail hpc .closed
        · split at h
          · split at h
            · cases h
              exact .fail hpc .eof
            · cases h
          · split at h
            · rename_i hn
              cases h
              exact .fill hpc hn.2.2
            · cases h
      · cases h

theorem passed_lines (token : Option (List UInt8)) : passed (token.toList.map Obs.line) = token.toList := by
  cases token <;> rfl

theorem written_lines (token : Option (List UInt8)) : written (token.toList.map Obs.line) = [] := by
  cases token <;> rfl

theorem taken_lines (token : Option (List UInt8)) : taken (token.toList.map Obs.line) = [] := by
  cases token <;> rfl

/-- What is written is what has been read and what is in the pipe, and the scanner has come as far as it
could. -/
structure Account (tr : List Obs) (s : State) : Prop where
  stream : written tr = taken tr ++ s.pipe
  progress : Progress (taken tr) (passed tr) s.scanner

theorem account_step {tr os : List Obs} {s s' : State} (h : Account tr s) (hs : Step s s' os) :
    Account (tr ++ os) s' := by
  obtain ⟨hstream, hprogress⟩ := h
  have hw : written (tr ++ os) = written tr ++ written os := List.flatMap_append
  have ht : taken (tr ++ os) = taken tr ++ taken os := List.flatMap_append
  have hp : passed (tr ++ os) = passed tr ++ passed os := List.flatMap_append
  cases hs with
  | write bytes =>
      refine ⟨?_, ?_⟩
      · rw [hw, ht, hstream]
        simp [written, taken, Obs.written, Obs.taken]
      · rw [ht, hp]
        simpa [passed, taken, Obs.passed, Obs.taken] using hprogress
  | exit => exact ⟨by rw [List.append_nil]; exact hstream, by rw [List.append_nil]; exact hprogress⟩
  | close => exact ⟨by rw [List.append_nil]; exact hstream, by rw [List.append_nil]; exact hprogress⟩
  | turn hpc =>
      refine ⟨?_, ?_⟩
      · rw [hw, ht, written_lines, taken_lines, List.append_nil, List.append_nil]
        exact hstream
      · rw [ht, hp, taken_lines, passed_lines, List.append_nil]
        exact hprogress.turn hpc
  | fail hpc err =>
      refine ⟨by rw [List.append_nil]; exact hstream, ?_⟩
      rw [List.append_nil]
      exact hprogress.fail hpc err
  | @fill n hpc hfits =>
      refine ⟨?_, ?_⟩
      · rw [hw, ht, hstream]
        simp [written, taken, Obs.written, Obs.taken]
      · rw [ht, hp]
        have hlen : (s.pipe.take n).length ≤ s.scanner.size - s.scanner.stop :=
          Nat.le_trans (List.length_take_le n _) hfits
        simpa [passed, taken, Obs.passed, Obs.taken] using hprogress.fill hpc hlen

theorem account {capacity : Nat} {tr : List Obs} {s : State} (h : (system capacity).Run Lts.Free [] {} tr s) :
    Account tr s :=
  h.invariant ⟨rfl, progress_new⟩ fun _ _ _ _ _ _ ih _ hs => account_step ih (step_cases hs)

/-! ## The scanner comes to an end -/

/-- What the scanner still has to do, once the agent has exited. -/
def State.remaining (s : State) : Nat :=
  4 * s.pipe.length + 2 * s.scanner.data.length + (if s.scanner.err = none then 3 else 0) +
    if s.scanner.pc = .split then 1 else 0

/-- A turn comes closer to the end. -/
theorem remaining_turn {tr : List Obs} {s : State} (h : Account tr s) (hpc : s.scanner.pc = .split) :
    { s with scanner := s.scanner.turn.1 }.remaining < s.remaining := by
  have hprogress := h.progress
  have hturn := s.scanner.turn_cases
  unfold State.remaining
  generalize s.scanner.turn.1 = s', s.scanner.turn.2 = token at hturn
  cases hturn with
  | line hdata _ =>
      simp only [hdata, List.length_append, List.length_cons, hpc]
      omega
  | final herr _ hne =>
      have hpos := List.length_pos_iff.mpr hne
      simp only [List.length_nil, hpc]
      omega
  | finished herr hdata =>
      simp only [hdata, hpc, herr]
      simp
  | room herr hnl =>
      cases hprogress with
      | scanning _ _ _ hpos hstop hmax _ _ _ =>
          obtain ⟨hdata, -, -, ⟨hpc', herr', -⟩ | ⟨hpc', -⟩⟩ := Scanner.makeRoom_cases hpos hstop hmax
          · simp [hdata, hpc', herr', hpc]
          · have hle : (if s.scanner.makeRoom.err = none then 3 else 0) ≤ 3 := by split <;> omega
            simp only [hdata, hpc', herr, hpc, if_true, if_false, reduceCtorEq]
            omega
      | told _ _ _ herr' _ => exact absurd herr herr'
      | overlong _ _ _ _ hdone =>
          rw [hpc] at hdone
          cases hdone

theorem remaining_fail {s : State} (hpc : s.scanner.pc = .read) (hnone : s.scanner.err = none)
    (err : ScanError) : { s with scanner := s.scanner.fail err }.remaining < s.remaining := by
  simp only [State.remaining, Scanner.fail, hpc, hnone, if_true, if_false, reduceCtorEq]
  omega

/-- **From the exit on the scanner can go on to the end.** -/
theorem finishes {capacity : Nat} {tr : List Obs} {s : State} (h : Account tr s) (hexit : s.exited = true) :
    ∃ tr' s', (system capacity).Run Lts.Free tr s tr' s' ∧ written tr' = written tr ∧ s'.scanner.pc = .done := by
  induction hn : s.remaining using Nat.strongRecOn generalizing tr s with
  | ind n ih =>
      -- it is enough to come closer to the end without a write
      have hgo : ∀ {a : Action} {os : List Obs} {s' : State}, (system capacity).step s a = some (s', os) →
          written os = [] → s'.exited = true → s'.remaining < s.remaining →
          ∃ tr' s', (system capacity).Run Lts.Free tr s tr' s' ∧ written tr' = written tr ∧
            s'.scanner.pc = .done := by
        intro a os s' hs hos hexit' hless
        obtain ⟨tr', t, hrun, hwritten, hdone⟩ := ih _ (hn ▸ hless) (account_step h (step_cases hs)) hexit' rfl
        refine ⟨tr', t, (Lts.Run.single trivial hs).trans hrun, ?_, hdone⟩
        rw [hwritten, written, List.flatMap_append, ← written, ← written, hos, List.append_nil]
      cases hpc : s.scanner.pc with
      | done => exact ⟨tr, s, .refl, rfl, hpc⟩
      | split =>
          have hs : (system capacity).step s .turn =
              some ({ s with scanner := s.scanner.turn.1 }, s.scanner.turn.2.toList.map Obs.line) := if_pos hpc
          exact hgo hs (written_lines _) hexit (remaining_turn h hpc)
      | read =>
          obtain ⟨hnone, hroom⟩ := h.progress.reading hpc
          by_cases hclosed : s.closed = true
          · have hs : (system capacity).step s (.read 0) =
                some ({ s with scanner := s.scanner.fail .closed }, []) := by simp [system, hpc, hclosed]
            exact hgo hs rfl hexit (remaining_fail hpc hnone _)
          · by_cases hpipe : s.pipe = []
            · have hs : (system capacity).step s (.read 0) =
                  some ({ s with scanner := s.scanner.fail .eof }, []) := by
                simp [system, hpc, hclosed, hpipe, hexit]
              exact hgo hs rfl hexit (remaining_fail hpc hnone _)
            · have hlen := List.length_pos_iff.mpr hpipe
              have hfits : 0 < 1 ∧ 1 ≤ s.pipe.length ∧ 1 ≤ s.scanner.size - s.scanner.stop := by omega
              have hs : (system capacity).step s (.read 1) =
                  some ({ s with pipe := s.pipe.drop 1, scanner := s.scanner.fill (s.pipe.take 1) },
                    [.took (s.pipe.take 1)]) := by
                simp only [system, hpc, hclosed, hpipe, hfits, and_self, if_true, if_false, Bool.false_eq_true]
              refine hgo hs rfl hexit ?_
              simp only [State.remaining, Scanner.fill, List.length_drop, List.length_append,
                List.length_take, hpc, hnone, if_true, if_false, reduceCtorEq]
              omega

/-! ## Every line is passed on -/

/-- **`LineEnd stream unread`** — what is not read of a stream is nothing, or no more than the end of the line
that the rest of the stream ends in. -/
def LineEnd (stream unread : List UInt8) : Prop :=
  unread = [] ∨ ∃ x, stream.getLast? = some x ∧ x ≠ newline ∧
    (unread = [newline] ∨
      (x ≠ carriageReturn ∧ (unread = [carriageReturn] ∨ unread = [carriageReturn, newline])))

theorem streamLines_append_iff {stream unread : List UInt8} :
    streamLines (stream ++ unread) = streamLines stream ↔ LineEnd stream unread :=
  lines_append_iff (by decide)

/-- **Exactly the lines of the stream** are passed on when the agent has exited and the scanner has come to its
end, if no line of what was read fills the buffer and nothing but the end of a line was lost; and the scanner
always comes to its end. -/
theorem stdout_lines {capacity : Nat} {tr : List Obs} {s : State}
    (h : (system capacity).Run Lts.Free [] {} tr s) (hexit : s.exited = true) :
    written tr = taken tr ++ s.pipe ∧
      (∃ tr' s', (system capacity).Run Lts.Free tr s tr' s' ∧ written tr' = written tr ∧
        s'.scanner.pc = .done) ∧
      (s.scanner.pc = .done →
        (passed tr = streamLines (written tr) ↔ Short (taken tr) ∧ LineEnd (taken tr) s.pipe)) := by
  have hacc := account h
  refine ⟨hacc.stream, finishes hacc hexit, fun hdone => ?_⟩
  rw [hacc.stream]
  cases hacc.progress with
  | scanning _ _ _ _ _ _ hpc _ _ => exact absurd hdone hpc
  | told hout hshort _ _ _ =>
      rw [hout, eq_comm, streamLines_append_iff]
      exact ⟨fun hend => ⟨hshort, hend⟩, And.right⟩
  | @overlong rs rest hcut hnl hlen hout _ =>
      refine iff_of_false (fun heq => ?_) fun hboth => ?_
      · -- the line that was given up is a line of the stream
        rw [streamLines_cut (hcut.append s.pipe), hout, List.self_eq_append_right, streamLines, lines_eq_nil,
          List.append_eq_nil_iff] at heq
        rw [heq.1] at hlen
        cases hlen
      · exact Nat.lt_irrefl _ (hlen ▸ ((short_cut hcut hnl).mp hboth.1).2)

namespace Sample

/-- What a pipe holds. -/
def capacity : Nat := 65536

/-- Two lines, the second without an end. -/
def twoLines : List UInt8 := [97, newline, 98]

/-- The scanner is done before `Wait` returns. -/
def readFirst : List Action :=
  [.turn, .write twoLines, .read 3, .turn, .exit, .turn, .read 0, .turn, .turn, .wait]

/-- `Wait` returns before the scanner runs. -/
def closedFirst : List Action := [.write twoLines, .exit, .wait, .turn, .read 0, .turn]

end Sample

theorem stdout_lines_readFirst :
    ∃ tr s, (system Sample.capacity).Run Lts.Free [] {} tr s ∧ s.exited = true ∧ s.scanner.pc = .done ∧
      (passed tr = streamLines (written tr) ↔ Short (taken tr) ∧ LineEnd (taken tr) s.pipe) ∧
      passed tr = [[97], [98]] := by
  have hexec : (((system Sample.capacity).exec (fun _ _ _ => true) [] {} Sample.readFirst).map fun r =>
      (r.2.exited, r.2.scanner.pc, passed r.1)) = some (true, .done, [[97], [98]]) := by decide +kernel
  obtain ⟨r, hr, heq⟩ := Option.map_eq_some_iff.mp hexec
  have hrun : (system Sample.capacity).Run Lts.Free [] {} r.1 r.2 :=
    Lts.run_of_exec (fun _ _ _ _ => trivial) hr
  obtain ⟨hexit, hdone, hpassed⟩ : r.2.exited = true ∧ r.2.scanner.pc = .done ∧ passed r.1 = [[97], [98]] := by
    simpa only [Prod.mk.injEq] using heq
  exact ⟨r.1, r.2, hrun, hexit, hdone, (stdout_lines hrun hexit).2.2 hdone, hpassed⟩

/-- When the pipe is closed first, the lines in it are lost. -/
theorem closedFirst_loses :
    ¬ ∀ tr s, (system Sample.capacity).Run Lts.Free [] {} tr s → s.exited = true → s.scanner.pc = .done →
      passed tr = streamLines (written tr) := by
  intro h
  have hexec : (((system Sample.capacity).exec (fun _ _ _ => true) [] {} Sample.closedFirst).map fun r =>
      (r.2.exited, r.2.scanner.pc, passed r.1, written r.1)) = some (true, .done, [], Sample.twoLines) := by
    decide +kernel
  obtain ⟨r, hr, heq⟩ := Option.map_eq_some_iff.mp hexec
  have hrun : (system Sample.capacity).Run Lts.Free [] {} r.1 r.2 :=
    Lts.run_of_exec (fun _ _ _ _ => trivial) hr
  obtain ⟨hexit, hdone, hpassed, hwritten⟩ : r.2.exited = true ∧ r.2.scanner.pc = .done ∧
      passed r.1 = [] ∧ written r.1 = Sample.twoLines := by simpa only [Prod.mk.injEq] using heq
  have hlines := h r.1 r.2 hrun hexit hdone
  rw [hpassed, hwritten] at hlines
  revert hlines
  decide

end Harness.Claude.Stdout
