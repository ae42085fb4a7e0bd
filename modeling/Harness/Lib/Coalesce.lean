/-
# Harness.Lib.Coalesce — chunks of a stream put together into pieces.

Chunks arrive one after the other. A chunk is added to the piece that is being written, or starts a piece
of its own; the piece being written is finished by an end mark, or left behind when something else comes in
between. A bound on the length of a piece is a function `clamp` that every write passes through.

Where the pieces stand in a longer list, `Pieces.assemble` reads them off: a slot holds a piece or something
else, and a piece is being written when it is unsealed and in the last slot.

`Pieces.text_step` is the accounting, one stroke at a time: as long as `clamp` cuts nothing, the pieces
hold all the chunks. `Pieces.closed_step` says that a piece that is closed stays as it is, and
`Pieces.left_step` counts the pieces that were left behind.
-/
import Mathlib.Data.List.Basic

namespace Harness.Lib

/-- A piece that takes no more chunks; `sealed` tells one that was finished from one left behind. -/
structure Piece (K A : Type*) where
  key : K
  text : List A
  sealed : Bool

/-- What is written so far. -/
structure Pieces (K A : Type*) where
  closed : List (Piece K A)
  current : Option (K × List A)

inductive Stroke (K A : Type*) where
  | rest
  | write (key : K) (chunk : List A)
  | finish
  | leave

/-- The chunk a stroke brings. -/
def Stroke.chunk {K A : Type*} : Stroke K A → List A
  | .write _ chunk => chunk
  | _ => []

namespace Pieces

variable {K A : Type*}

/-- The piece being written is closed. -/
def close (sealed : Bool) (p : Pieces K A) : Pieces K A :=
  match p.current with
  | some (key, text) => ⟨p.closed ++ [⟨key, text, sealed⟩], none⟩
  | none => p

def step (clamp : List A → List A) (p : Pieces K A) : Stroke K A → Pieces K A
  | .rest => p
  | .write key chunk =>
      match p.current with
      | some (key', text) => { p with current := some (key', clamp (text ++ chunk)) }
      | none => { p with current := some (key, clamp chunk) }
  | .finish => p.close true
  | .leave => p.close false

/-- The text of the piece being written. -/
def currentText (p : Pieces K A) : List A := (p.current.map Prod.snd).getD []

/-- All pieces, the one being written last. -/
def all (p : Pieces K A) : List (K × List A) :=
  (p.closed.map fun piece => (piece.key, piece.text)) ++ p.current.toList

/-- The pieces one after the other. -/
def text (p : Pieces K A) : List A := p.all.flatMap Prod.snd

/-- How many pieces were left behind. -/
def left (p : Pieces K A) : Nat := p.closed.countP fun piece => !piece.sealed

@[simp] theorem close_current (sealed : Bool) (p : Pieces K A) : (p.close sealed).current = none := by
  unfold close
  split <;> simp [*]

/-- Closing a piece changes no text. -/
@[simp] theorem all_close (sealed : Bool) (p : Pieces K A) : (p.close sealed).all = p.all := by
  unfold close
  split <;> simp [all, *]

theorem all_of_idle {p : Pieces K A} (h : p.current = none) :
    p.all = p.closed.map fun piece => (piece.key, piece.text) := by
  rw [all, h]
  simp

variable (clamp : List A → List A)

/-- **A stroke adds its chunk to the text**, unless `clamp` cuts the piece it goes to. -/
theorem text_step (p : Pieces K A) (s : Stroke K A)
    (h : ∀ key chunk, s = .write key chunk → clamp (p.currentText ++ chunk) = p.currentText ++ chunk) :
    (p.step clamp s).text = p.text ++ s.chunk := by
  cases s with
  | rest => simp [step, Stroke.chunk]
  | write key chunk =>
      have hfit := h key chunk rfl
      cases hc : p.current with
      | some c =>
          simp only [currentText, hc, Option.map_some, Option.getD_some] at hfit
          simp [step, Pieces.text, all, hc, hfit, Stroke.chunk]
      | none =>
          simp only [currentText, hc, Option.map_none, Option.getD_none, List.nil_append] at hfit
          simp [step, Pieces.text, all, hc, hfit, Stroke.chunk]
  | finish => simp [step, Pieces.text, Stroke.chunk]
  | leave => simp [step, Pieces.text, Stroke.chunk]

/-- A closed piece stays closed, and as it is. -/
theorem closed_step (p : Pieces K A) (s : Stroke K A) : p.closed <+: (p.step clamp s).closed := by
  have hclose : ∀ sealed, p.closed <+: (p.close sealed).closed := by
    intro sealed
    unfold close
    split
    · exact List.prefix_append ..
    · exact List.prefix_refl _
  cases s with
  | rest => exact List.prefix_refl _
  | write key chunk => cases hc : p.current <;> simp [step, hc]
  | finish => exact hclose true
  | leave => exact hclose false

/-- Leaving while a piece is being written leaves it behind. -/
theorem left_leave (p : Pieces K A) :
    (p.step clamp .leave).left = p.left + p.current.toList.length := by
  show (p.close false).left = _
  unfold close
  split <;> simp [left, *]

/-- No other stroke leaves a piece behind. -/
theorem left_step (p : Pieces K A) {s : Stroke K A} (h : s ≠ .leave) :
    (p.step clamp s).left = p.left := by
  cases s with
  | rest => rfl
  | write key chunk => cases hc : p.current <;> simp [step, left, hc]
  | finish =>
      show (p.close true).left = _
      unfold close
      split <;> simp [left]
  | leave => exact absurd rfl h

/-! ## Pieces in a list -/

/-- The pieces of a list of slots. -/
def assemble (slots : List (Option (Piece K A))) : Pieces K A :=
  match slots.getLast? with
  | some (some ⟨key, text, false⟩) => ⟨slots.dropLast.filterMap id, some (key, text)⟩
  | _ => ⟨slots.filterMap id, none⟩

variable (slots : List (Option (Piece K A)))

theorem assemble_concat_open (key : K) (text : List A) :
    assemble (slots ++ [some ⟨key, text, false⟩]) = ⟨slots.filterMap id, some (key, text)⟩ := by
  simp [assemble]

theorem assemble_concat_sealed (key : K) (text : List A) :
    assemble (slots ++ [some ⟨key, text, true⟩]) = ⟨slots.filterMap id ++ [⟨key, text, true⟩], none⟩ := by
  simp [assemble]

theorem assemble_concat_none : assemble (slots ++ [none]) = ⟨slots.filterMap id, none⟩ := by
  simp [assemble]

/-- All the pieces, once the one being written is left behind. -/
theorem close_assemble : (assemble slots).close false = ⟨slots.filterMap id, none⟩ := by
  rcases slots.eq_nil_or_concat' with rfl | ⟨init, last, rfl⟩
  · rfl
  · obtain _ | ⟨key, text, _ | _⟩ := last
    · rw [assemble_concat_none]
      simp [close]
    · rw [assemble_concat_open]
      simp [close]
    · rw [assemble_concat_sealed]
      simp [close]

end Pieces

end Harness.Lib
