/-
# Harness.Lib.NumberText — the text of a number, as ECMAScript writes it.

`numberText` follows the definition of `Number::toString` in radix 10: the significant digits of a number
and the place of its decimal point decide between four layouts, plain digits with zeros behind them (up to
21 places), a point inside the digits, `0.` and zeros before them, and an exponent.

A number is a rational here, exactly. Its significant digits are those of its finite decimal expansion, which
every number literal has.

What is proved is what makes such texts usable as keys: the texts of two natural numbers differ
(`numberText_natCast_injective`), also where one of them, or both, are written with an exponent.
-/
import Mathlib.Data.List.DropRight
import Mathlib.Data.Nat.Log
import Mathlib.Algebra.Order.Field.Rat
import Mathlib.Data.Nat.Cast.Order.Ring

namespace Harness.Lib

/-! ## Digits -/

/-- The digits without the zeros at the end. -/
def significant (ds : List Char) : List Char := ds.rdropWhile fun c => c == '0'

/-- The number `0.ds * 10 ^ n`, where `ds` are significant digits. -/
def layout (ds : List Char) (n : Int) : List Char :=
  if ds.length ≤ n ∧ n ≤ 21 then ds ++ List.replicate (n - ds.length).toNat '0'
  else if 0 < n ∧ n ≤ 21 then ds.take n.toNat ++ '.' :: ds.drop n.toNat
  else if -6 < n ∧ n ≤ 0 then '0' :: '.' :: (List.replicate (-n).toNat '0' ++ ds)
  else
    let exponent := 'e' :: (if 0 < n then '+' else '-') :: Nat.toDigits 10 (n - 1).natAbs
    match ds with
    | [] => exponent
    | [d] => d :: exponent
    | d :: ds => d :: '.' :: (ds ++ exponent)

/-- The text of a positive number. `10 ^ j` clears the denominator, which has no prime factors but 2
and 5. -/
def positiveText (q : ℚ) : List Char :=
  let j := Nat.log 2 q.den
  let ds := Nat.toDigits 10 (q.num.natAbs * (10 ^ j / q.den))
  layout (significant ds) (ds.length - j)

def numberText (q : ℚ) : String :=
  if q = 0 then "0"
  else if q < 0 then String.ofList ('-' :: positiveText (-q))
  else String.ofList (positiveText q)

example : [(0 : ℚ), 7432, -3, 1 / 8, 2.5, 10 ^ 20, 10 ^ 21, 1250 * 10 ^ 20, 10 ^ (-7 : Int)].map numberText =
    ["0", "7432", "-3", "0.125", "2.5", "100000000000000000000", "1e+21", "1.25e+23", "1e-7"] := by
  decide +kernel

/-! ## Natural numbers -/

section Natural

/-- What is cut off are zeros. -/
theorem significant_append_zeros (ds : List Char) :
    significant ds ++ List.replicate (ds.length - (significant ds).length) '0' = ds := by
  have hsplit : significant ds ++ ds.rtakeWhile (fun c => c == '0') = ds :=
    List.rdropWhile_append_rtakeWhile
  have hlen := congrArg List.length hsplit
  rw [List.length_append] at hlen
  have hzeros : ds.rtakeWhile (fun c => c == '0') =
      List.replicate (ds.length - (significant ds).length) '0' := by
    refine List.eq_replicate_iff.mpr ⟨by omega, fun c hc => ?_⟩
    simpa using List.mem_rtakeWhile_imp hc
  rw [← hzeros]
  exact hsplit

/-- The digits are found again from the significant ones and their number. -/
theorem eq_of_significant_eq {ds es : List Char} (hlen : ds.length = es.length)
    (h : significant ds = significant es) : ds = es := by
  rw [← significant_append_zeros ds, ← significant_append_zeros es, hlen, h]

/-- Up to 21 digits a number is written with its digits. -/
theorem layout_short {ds : List Char} (h : ds.length ≤ 21) : layout (significant ds) ds.length = ds := by
  have hle : (significant ds).length ≤ ds.length := (List.rdropWhile_prefix _ (l := ds)).length_le
  have hcount : ((ds.length : Int) - (significant ds).length).toNat =
      ds.length - (significant ds).length := by omega
  rw [layout, if_pos ⟨by exact_mod_cast hle, by exact_mod_cast h⟩, hcount]
  exact significant_append_zeros ds

/-- What a text has before its exponent, the point left out. -/
def mantissa (cs : List Char) : List Char := (cs.takeWhile fun c => c != 'e').filter fun c => c != '.'

/-- Its exponent. -/
def exponent (cs : List Char) : List Char := cs.dropWhile fun c => c != 'e'

/-- Beyond 21 digits there is an exponent behind the significant digits. -/
theorem layout_long {ds : List Char} (hdigits : ∀ c ∈ ds, c.isDigit = true) (h : 21 < ds.length) :
    mantissa (layout (significant ds) ds.length) = significant ds ∧
      exponent (layout (significant ds) ds.length) = 'e' :: '+' :: Nat.toDigits 10 (ds.length - 1) := by
  have hsig : ∀ c ∈ significant ds, c.isDigit = true :=
    fun c hc => hdigits c ((List.rdropWhile_prefix _ (l := ds)).subset hc)
  have hexp : ((ds.length : Int) - 1).natAbs = ds.length - 1 := by omega
  have hlarge : ¬ (ds.length : Int) ≤ 21 := by omega
  have hpos : (0 : Int) < ds.length := by omega
  unfold layout
  rw [if_neg (fun hc => hlarge hc.2), if_neg (fun hc => hlarge hc.2),
    if_neg (fun hc => absurd hc.2 (not_le.mpr hpos)), if_pos hpos, hexp]
  generalize significant ds = sig at hsig
  have hcut : ∀ m : List Char, (∀ c ∈ m, (c != 'e') = true) →
      mantissa (m ++ 'e' :: '+' :: Nat.toDigits 10 (ds.length - 1)) = m.filter (fun c => c != '.') ∧
      exponent (m ++ 'e' :: '+' :: Nat.toDigits 10 (ds.length - 1)) =
        'e' :: '+' :: Nat.toDigits 10 (ds.length - 1) := by
    intro m hm
    rw [mantissa, exponent, List.takeWhile_append_of_pos hm, List.dropWhile_append_of_pos hm]
    simp
  have hdigit : ∀ c ∈ sig, (c != 'e') = true ∧ (c != '.') = true := by
    intro c hc
    have := hsig c hc
    constructor <;> · rw [bne_iff_ne]; rintro rfl; exact absurd this (by decide)
  match sig, hdigit with
  | [], _ => exact hcut [] (by simp)
  | [d], hd =>
      have hm := hcut [d] fun c hc => (hd c hc).1
      rwa [List.filter_eq_self.mpr fun c hc => (hd c hc).2] at hm
  | d :: e :: rest, hd =>
      have hself := List.filter_eq_self.mpr fun c hc => (hd c hc).2
      have hm := hcut (d :: '.' :: e :: rest) fun c hc => by
        rcases List.mem_cons.mp hc with rfl | hc
        · exact (hd c List.mem_cons_self).1
        · rcases List.mem_cons.mp hc with rfl | hc
          · decide
          · exact (hd c (List.mem_cons_of_mem d hc)).1
      have hpoint : (d :: '.' :: e :: rest).filter (fun c => c != '.') = d :: e :: rest := by
        have hfirst : (d != '.') = true := (hd d List.mem_cons_self).2
        rw [List.filter_cons, if_pos hfirst] at hself ⊢
        exact hself
      rwa [hpoint] at hm

theorem numberText_natCast (n : ℕ) : numberText n =
    String.ofList (layout (significant (Nat.toDigits 10 n)) (Nat.toDigits 10 n).length) := by
  have hsign : ¬ (n : ℚ) < 0 := not_lt.mpr (Nat.cast_nonneg n)
  cases n with
  | zero =>
      rw [layout_short (by decide)]
      rfl
  | succ n =>
      have hne : ((n + 1 : ℕ) : ℚ) ≠ 0 := Nat.cast_ne_zero.mpr (Nat.succ_ne_zero n)
      rw [numberText, if_neg hne, if_neg hsign, positiveText]
      simp only [Rat.num_natCast, Rat.den_natCast, Int.natAbs_natCast, Nat.log_one_right, pow_zero,
        Nat.div_one, Nat.mul_one, Nat.cast_zero, sub_zero]

/-- Up to 21 digits the text of a number is its digits. -/
theorem numberText_short {n : ℕ} (h : n < 10 ^ 21) : numberText n = String.ofList (Nat.toDigits 10 n) := by
  have hlen : (Nat.toDigits 10 n).length ≤ 21 := (Nat.length_toDigits_le_iff (by decide) (by decide)).mpr h
  rw [numberText_natCast, layout_short hlen]

/-- **Two natural numbers have two texts.** -/
theorem numberText_natCast_injective {a b : ℕ} (h : numberText a = numberText b) : a = b := by
  rw [numberText_natCast, numberText_natCast] at h
  replace h := String.ofList_injective h
  have hdigits : ∀ n : ℕ, ∀ c ∈ Nat.toDigits 10 n, c.isDigit = true :=
    fun n c hc => Nat.isDigit_of_mem_toDigits (by decide) (by decide) hc
  have hlen : ∀ n : ℕ, 0 < (Nat.toDigits 10 n).length := fun n => Nat.length_toDigits_pos
  have hread : Nat.toDigits 10 a = Nat.toDigits 10 b → a = b := fun heq => by
    simpa using congrArg (fun ds => Nat.ofDigitChars 10 ds 0) heq
  have hplain : ∀ n : ℕ, exponent (Nat.toDigits 10 n) = [] := by
    intro n
    refine List.dropWhile_eq_nil_iff.mpr fun c hc => ?_
    rw [bne_iff_ne]
    rintro rfl
    exact absurd (hdigits n _ hc) (by decide)
  rcases Nat.lt_or_ge 21 (Nat.toDigits 10 a).length with ha | ha <;>
    rcases Nat.lt_or_ge 21 (Nat.toDigits 10 b).length with hb | hb
  · -- the exponents tell the number of digits, the digits before them the rest
    obtain ⟨hma, hea⟩ := layout_long (hdigits a) ha
    obtain ⟨hmb, heb⟩ := layout_long (hdigits b) hb
    rw [h, heb] at hea
    rw [h, hmb] at hma
    have hexp := congrArg (fun ds => Nat.ofDigitChars 10 (ds.drop 2) 0) hea
    simp only [List.drop_succ_cons, List.drop_zero, Nat.ofDigitChars_ten_toDigits] at hexp
    exact hread (eq_of_significant_eq (by have := hlen a; have := hlen b; omega) hma.symm)
  · obtain ⟨-, hea⟩ := layout_long (hdigits a) ha
    rw [h, layout_short hb, hplain b] at hea
    cases hea
  · obtain ⟨-, heb⟩ := layout_long (hdigits b) hb
    rw [← h, layout_short ha, hplain a] at heb
    cases heb
  · rw [layout_short ha, layout_short hb] at h
    exact hread h

end Natural

end Harness.Lib
