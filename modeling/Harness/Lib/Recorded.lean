/-
# Harness.Lib.Recorded — transition systems that also record what they are given.

The trace of a system shows what a step lets an observer see, not the action that was taken. A law that
matches outputs against inputs needs both: `recording` writes down, in front of what a step shows, what
the function `read` says of its action. A run of the recording system is a run of the system with the
inputs noted between the outputs.
-/
import Harness.Lib.Transition

namespace Harness.Lib.Lts

variable {S A O R : Type*} {M : Lts S A O} {read : A → Option R}

/-- The system that notes `read a` before what the action `a` lets an observer see. -/
def recording (M : Lts S A O) (read : A → Option R) : Lts S A (R ⊕ O) where
  step s a := (M.step s a).map fun r => (r.1, (read a).toList.map .inl ++ r.2.map .inr)

/-- What was noted in a recorded trace, in order. -/
def inputs (tr : List (R ⊕ O)) : List R := tr.filterMap Sum.getLeft?

/-- What an observer saw of it, in order. -/
def outputs (tr : List (R ⊕ O)) : List O := tr.filterMap Sum.getRight?

theorem of_recording_step {s s' : S} {a : A} {os : List (R ⊕ O)}
    (h : (M.recording read).step s a = some (s', os)) :
    ∃ os', M.step s a = some (s', os') ∧ os = (read a).toList.map .inl ++ os'.map .inr := by
  obtain ⟨⟨u, os'⟩, hs, he⟩ := Option.map_eq_some_iff.mp h
  cases he
  exact ⟨os', hs, rfl⟩

theorem inputs_append (t os : List (R ⊕ O)) : inputs (t ++ os) = inputs t ++ inputs os :=
  List.filterMap_append

theorem outputs_append (t os : List (R ⊕ O)) : outputs (t ++ os) = outputs t ++ outputs os :=
  List.filterMap_append

/-- The notes of one step. -/
@[simp] theorem inputs_step (r : Option R) (os : List O) :
    inputs (r.toList.map .inl ++ os.map .inr) = r.toList := by
  have hleft : inputs (r.toList.map (.inl : R → R ⊕ O)) = r.toList := by
    rw [inputs, List.filterMap_map]
    exact List.filterMap_some
  have hright : inputs (os.map (.inr : O → R ⊕ O)) = [] := by
    rw [inputs, List.filterMap_map, List.filterMap_eq_nil_iff]
    exact fun _ _ => rfl
  rw [inputs_append, hleft, hright, List.append_nil]

@[simp] theorem outputs_step (r : Option R) (os : List O) :
    outputs (r.toList.map .inl ++ os.map .inr) = os := by
  have hleft : outputs (r.toList.map (.inl : R → R ⊕ O)) = [] := by
    rw [outputs, List.filterMap_map, List.filterMap_eq_nil_iff]
    exact fun _ _ => rfl
  have hright : outputs (os.map (.inr : O → R ⊕ O)) = os := by
    rw [outputs, List.filterMap_map]
    exact List.filterMap_some
  rw [outputs_append, hleft, hright, List.nil_append]

end Harness.Lib.Lts
