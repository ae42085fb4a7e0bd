/-
# Harness.Lib.Lines — the lines of a stream.

A stream is cut at every `nl`. What stands before an `nl` is a line, and so is what stands after the last one
unless it is empty; one `cr` at the end of a line is no part of it.

`Cut nl xs rs rest` is what a reader knows that has taken the pieces `rs` off a stream and has `rest` before it.
`lines_append_iff` says which ends of a stream can be missing without a line being missing: none but the end of
a line that was begun.
-/
import Mathlib.Data.List.Basic
import Mathlib.Data.List.Induction

namespace Harness.Lib

variable {T : Type*} {nl cr : T}

/-! ## Pieces -/

/-- **`Cut nl xs rs rest`** — `xs` is the pieces `rs`, each closed by an `nl`, and `rest`. -/
structure Cut (nl : T) (xs : List T) (rs : List (List T)) (rest : List T) : Prop where
  eq : xs = rs.flatMap (· ++ [nl]) ++ rest
  pieces : ∀ p ∈ rs, nl ∉ p

namespace Cut

variable {xs rest : List T} {rs : List (List T)}

theorem nil (xs : List T) : Cut nl xs [] xs := ⟨rfl, fun _ h => (List.not_mem_nil h).elim⟩

theorem append (h : Cut nl xs rs rest) (ys : List T) : Cut nl (xs ++ ys) rs (rest ++ ys) where
  eq := by rw [h.eq, List.append_assoc]
  pieces := h.pieces

/-- The reader takes one more piece. -/
theorem take {p ys : List T} (h : Cut nl xs rs (p ++ nl :: ys)) (hp : nl ∉ p) :
    Cut nl xs (rs ++ [p]) ys where
  eq := by rw [h.eq]; simp
  pieces q hq := by
    rcases List.mem_append.mp hq with hq | hq
    · exact h.pieces q hq
    · rwa [List.mem_singleton.mp hq]

/-- The last element of a stream tells whether a line is begun, and whether it ends in a `cr`. -/
theorem getLast? (h : Cut nl xs rs rest) (hrest : rest ≠ []) :
    xs.getLast? = rest.getLast? := by
  rw [h.eq, List.getLast?_append_of_ne_nil _ hrest]

theorem getLast?_nil {x : T} (h : Cut nl xs rs [])
    (hx : xs.getLast? = some x) : x = nl := by
  rw [h.eq, List.append_nil] at hx
  rcases List.eq_nil_or_concat' rs with rfl | ⟨rs, p, rfl⟩
  · cases hx
  · rw [List.flatMap_append, List.flatMap_singleton, ← List.append_assoc, List.getLast?_concat] at hx
    exact (Option.some.inj hx).symm

end Cut

variable [DecidableEq T]

/-! ## Trimming -/

/-- A list without the `cr` at its end, if it has one. -/
def trimLast (cr : T) (xs : List T) : List T := if xs.getLast? = some cr then xs.dropLast else xs

theorem length_trimLast_le (cr : T) (xs : List T) : (trimLast cr xs).length ≤ xs.length := by
  unfold trimLast
  split
  · rw [List.length_dropLast]
    omega
  · exact Nat.le_refl _

theorem length_le_trimLast (cr : T) (xs : List T) : xs.length ≤ (trimLast cr xs).length + 1 := by
  unfold trimLast
  split
  · rw [List.length_dropLast]
    omega
  · exact Nat.le_succ _

theorem trimLast_concat (cr : T) (xs : List T) (x : T) :
    trimLast cr (xs ++ [x]) = if x = cr then xs else xs ++ [x] := by
  unfold trimLast
  simp only [List.getLast?_concat, Option.some.injEq, List.dropLast_concat]

/-- What can be added to a line without making it another one. -/
theorem trimLast_append_iff {xs ys : List T} :
    trimLast cr (xs ++ ys) = trimLast cr xs ↔ ys = [] ∨ (ys = [cr] ∧ xs.getLast? ≠ some cr) := by
  constructor
  · intro h
    have hlong := length_le_trimLast cr (xs ++ ys)
    have hshort := length_trimLast_le cr xs
    rw [h, List.length_append] at hlong
    match ys with
    | [] => exact .inl rfl
    | [y] =>
        right
        rw [trimLast_concat] at h
        split at h
        · rename_i hy
          subst hy
          refine ⟨rfl, fun hlast => ?_⟩
          -- a list that ends in `cr` is not the one without it
          rw [trimLast, if_pos hlast] at h
          have hlen := congrArg List.length h
          rw [List.length_dropLast] at hlen
          have hnil : xs = [] := List.eq_nil_of_length_eq_zero (by omega)
          rw [hnil] at hlast
          cases hlast
        · have hlen := congrArg List.length h
          rw [List.length_append, List.length_singleton] at hlen
          omega
    | y :: z :: zs =>
        simp only [List.length_cons] at hlong
        omega
  · rintro (rfl | ⟨rfl, hlast⟩)
    · rw [List.append_nil]
    · rw [trimLast_concat, if_pos rfl, trimLast, if_neg hlast]

/-! ## Lines -/

/-- The line that what is left at the end of a stream makes. -/
def lastLine (cr : T) (xs : List T) : List (List T) := if xs = [] then [] else [trimLast cr xs]

/-- The lines of a stream. -/
def lines (nl cr : T) (xs : List T) : List (List T) :=
  (xs.splitOn nl).dropLast.map (trimLast cr) ++ lastLine cr ((xs.splitOn nl).getLastD [])

namespace Cut

variable {xs rest : List T} {rs : List (List T)}

theorem splitOn (h : Cut nl xs rs rest) : xs.splitOn nl = rs ++ rest.splitOn nl := by
  obtain ⟨rfl, hp⟩ := h
  induction rs with
  | nil => rfl
  | cons p rs ih =>
      have hstep := ih fun q hq => hp q (List.mem_cons_of_mem _ hq)
      rw [List.flatMap_cons, List.append_assoc, List.append_assoc, List.singleton_append,
        List.splitOn_append_cons_self_of_not_mem (hp p List.mem_cons_self), hstep, List.cons_append]

theorem lines (h : Cut nl xs rs rest) :
    lines nl cr xs = rs.map (trimLast cr) ++ Lib.lines nl cr rest := by
  have hne : rest.splitOn nl ≠ [] := List.splitOn_ne_nil _ _
  unfold Lib.lines
  rw [h.splitOn, List.dropLast_append_of_ne_nil hne, List.map_append, List.append_assoc,
    List.getLastD_eq_getLast?, List.getLastD_eq_getLast?, List.getLast?_append_of_ne_nil _ hne]

end Cut

theorem lines_of_notMem {xs : List T} (h : nl ∉ xs) : lines nl cr xs = lastLine cr xs := by
  rw [lines, List.splitOn_eq_singleton h]
  rfl

theorem lines_eq_nil {xs : List T} : lines nl cr xs = [] ↔ xs = [] := by
  constructor
  · intro h
    by_cases hmem : nl ∈ xs
    · obtain ⟨p, ys, rfl, hp⟩ := List.eq_append_cons_of_mem hmem
      rw [((Cut.nil (p ++ nl :: ys)).take hp).lines] at h
      cases h
    · rw [lines_of_notMem hmem, lastLine] at h
      split at h
      · assumption
      · cases h
  · rintro rfl
    rfl

theorem lines_append_of_notMem (hne : cr ≠ nl) {xs ys : List T} (h : nl ∉ xs) :
    lines nl cr (xs ++ ys) = lines nl cr xs ↔
      ys = [] ∨ (xs ≠ [] ∧ (ys = [nl] ∨
        (xs.getLast? ≠ some cr ∧ (ys = [cr] ∨ ys = [cr, nl])))) := by
  by_cases hxs : xs = []
  · subst hxs
    rw [List.nil_append]
    exact lines_eq_nil.trans ⟨.inl, fun h => h.resolve_right fun h => h.1 rfl⟩
  by_cases hmem : nl ∈ ys
  · obtain ⟨p, zs, rfl, hp⟩ := List.eq_append_cons_of_mem hmem
    have hpiece : nl ∉ xs ++ p := by
      rw [List.mem_append]
      exact not_or.mpr ⟨h, hp⟩
    have hstart : Cut nl (xs ++ (p ++ nl :: zs)) [] (xs ++ p ++ nl :: zs) := by
      rw [List.append_assoc]
      exact Cut.nil _
    have hcut : Cut nl (xs ++ (p ++ nl :: zs)) [xs ++ p] zs := hstart.take hpiece
    rw [hcut.lines, lines_of_notMem h, lastLine, if_neg hxs, List.map_singleton, List.singleton_append,
      List.cons.injEq, trimLast_append_iff, lines_eq_nil]
    constructor
    · rintro ⟨rfl | ⟨rfl, hlast⟩, rfl⟩
      · exact .inr ⟨hxs, .inl rfl⟩
      · exact .inr ⟨hxs, .inr ⟨hlast, .inr rfl⟩⟩
    · rintro (hnil | ⟨-, heq | ⟨hlast, heq | heq⟩⟩)
      · exact absurd hnil (by simp)
      · cases p with
        | nil => exact ⟨.inl rfl, (List.cons.inj heq).2⟩
        | cons x p => simp at heq
      · cases p with
        | nil => exact absurd (List.cons.inj heq).1.symm hne
        | cons x p => simp at heq
      · match p, heq with
        | [], heq => exact absurd (List.cons.inj heq).1.symm hne
        | [x], heq =>
            simp only [List.cons_append, List.nil_append, List.cons.injEq, true_and] at heq
            obtain ⟨rfl, rfl⟩ := heq
            exact ⟨.inr ⟨rfl, hlast⟩, rfl⟩
        | x :: y :: p, heq => simp at heq
  · have hpiece : nl ∉ xs ++ ys := by
      rw [List.mem_append]
      exact not_or.mpr ⟨h, hmem⟩
    have hnil : xs ++ ys ≠ [] := by simp [hxs]
    rw [lines_of_notMem hpiece, lines_of_notMem h, lastLine, lastLine, if_neg hnil, if_neg hxs,
      List.cons.injEq, trimLast_append_iff]
    constructor
    · rintro ⟨hnil | ⟨rfl, hlast⟩, -⟩
      · exact .inl hnil
      · exact .inr ⟨hxs, .inr ⟨hlast, .inl rfl⟩⟩
    · rintro (hnil | ⟨-, rfl | ⟨hlast, rfl | rfl⟩⟩)
      · exact ⟨.inl hnil, rfl⟩
      · simp at hmem
      · exact ⟨.inr ⟨rfl, hlast⟩, rfl⟩
      · simp at hmem

/-- What a reader of the whole stream has before it: no `nl`. -/
theorem exists_cut (nl : T) (xs : List T) : ∃ rs rest, Cut nl xs rs rest ∧ nl ∉ rest := by
  induction xs using List.reverseRecOn with
  | nil => exact ⟨[], [], .nil [], List.not_mem_nil⟩
  | append_singleton xs x ih =>
      obtain ⟨rs, rest, hcut, hrest⟩ := ih
      by_cases hx : x = nl
      · subst hx
        exact ⟨rs ++ [rest], [], (hcut.append [x]).take hrest, List.not_mem_nil⟩
      · refine ⟨rs, rest ++ [x], hcut.append [x], fun hmem => ?_⟩
        rcases List.mem_append.mp hmem with hmem | hmem
        · exact hrest hmem
        · exact hx (List.mem_singleton.mp hmem).symm

/-- **No line is missing** when the end of a stream is, if it is nothing but the end of a line that was
begun. -/
theorem lines_append_iff (hne : cr ≠ nl) {xs ys : List T} :
    lines nl cr (xs ++ ys) = lines nl cr xs ↔
      ys = [] ∨ ∃ x, xs.getLast? = some x ∧ x ≠ nl ∧
        (ys = [nl] ∨ (x ≠ cr ∧ (ys = [cr] ∨ ys = [cr, nl]))) := by
  obtain ⟨rs, rest, hcut, hrest⟩ := exists_cut nl xs
  rw [(hcut.append ys).lines, hcut.lines, List.append_cancel_left_eq, lines_append_of_notMem hne hrest]
  refine or_congr_right ⟨fun ⟨hnil, h⟩ => ?_, fun ⟨x, hx, hnl, h⟩ => ?_⟩
  · obtain ⟨x, hx⟩ := Option.ne_none_iff_exists'.mp (mt List.getLast?_eq_none_iff.mp hnil)
    refine ⟨x, (hcut.getLast? hnil).trans hx, ?_, ?_⟩
    · rintro rfl
      exact hrest (List.mem_of_getLast? hx)
    · exact h.imp_right fun ⟨hlast, h⟩ => ⟨fun heq => hlast (heq ▸ hx), h⟩
  · have hnil : rest ≠ [] := by
      rintro rfl
      exact hnl (hcut.getLast?_nil hx)
    rw [hcut.getLast? hnil] at hx
    exact ⟨hnil, h.imp_right fun ⟨hcr, h⟩ => ⟨fun heq => hcr (Option.some.inj (hx.symm.trans heq)), h⟩⟩

end Harness.Lib
