/-
# Harness.Lib.JsonLiteral — the strings and numbers of a JSON text.

A character of a string can be spelled in several ways, and writers differ in the ones they choose. `Spells`
collects them; `readChars` reads each of them back (`readChars_spelled`), so a writer is right if it spells
every character in some way (`readChars_flatMap`). Two UTF-16 escapes that make one character are read as that
character, one that has no partner as U+FFFD.

A number is its mantissa and its exponent, as digits. An exponent of zero is kept for integers: `1e0` is read as
ten tenths, so that a reader of integers can tell it from `1`.
-/
import Harness.Lib.Url

namespace Harness.Lib

/-! ## Strings -/

/-- The character behind a backslash, and what the two stand for. -/
def shortEscape : Char → Option Char
  | '"' => some '"'
  | '\\' => some '\\'
  | '/' => some '/'
  | 'b' => some '\x08'
  | 'f' => some '\x0c'
  | 'n' => some '\n'
  | 'r' => some '\r'
  | 't' => some '\t'
  | _ => none

/-- The code unit of a `\u` escape. -/
def hex4 (a b c d : Char) : Option Nat :=
  match hexValue a, hexValue b, hexValue c, hexValue d with
  | some a, some b, some c, some d => some (4096 * a + 256 * b + 16 * c + d)
  | _, _, _, _ => none

/-- A code unit that waits for its partner, and gets none. -/
def unpaired : Option Nat → List Char
  | some _ => ['\ufffd']
  | none => []

/-- What a code unit stands for behind `high`, and what it leaves waiting. -/
def joinUnit (high : Option Nat) (n : Nat) : List Char × Option Nat :=
  if 0xD800 ≤ n ∧ n < 0xDC00 then (unpaired high, some n)
  else if 0xDC00 ≤ n ∧ n < 0xE000 then
    match high with
    | some h => ([Char.ofNat (0x10000 + 1024 * (h - 0xD800) + (n - 0xDC00))], none)
    | none => (['\ufffd'], none)
  else (unpaired high ++ [Char.ofNat n], none)

/-- Put characters before what is read next. -/
def before (cs : List Char) (r : Option (List Char × List Char)) : Option (List Char × List Char) :=
  r.map fun r => (cs ++ r.1, r.2)

/-- A string behind its opening quote: its characters, and what follows the closing quote. -/
def readChars : Option Nat → List Char → Option (List Char × List Char)
  | high, '"' :: rest => some (unpaired high, rest)
  | high, '\\' :: 'u' :: a :: b :: c :: d :: rest =>
      match hex4 a b c d with
      | some n => before (joinUnit high n).1 (readChars (joinUnit high n).2 rest)
      | none => none
  | high, '\\' :: x :: rest =>
      match shortEscape x with
      | some c => before (unpaired high ++ [c]) (readChars none rest)
      | none => none
  | high, c :: rest =>
      if c = '\\' ∨ c.toNat < 0x20 then none else before (unpaired high ++ [c]) (readChars none rest)
  | _, [] => none

/-- **`Spells c text`** — `text` is a way to write the character in a string. -/
inductive Spells : Char → List Char → Prop
  | plain {c : Char} (hquote : c ≠ '"') (hslash : c ≠ '\\') (hcontrol : 0x20 ≤ c.toNat) : Spells c [c]
  | short {c x : Char} (h : shortEscape x = some c) : Spells c ['\\', x]
  | unit {x a b d e : Char} (h : hex4 a b d e = some x.toNat) : Spells x ['\\', 'u', a, b, d, e]

/-- A character is no surrogate. -/
theorem joinUnit_toNat (c : Char) : joinUnit none c.toNat = ([c], none) := by
  have hvalid : c.toNat < 0xD800 ∨ 0xDFFF < c.toNat := c.valid.imp id And.left
  unfold joinUnit
  rw [if_neg (by omega), if_neg (by omega), Char.ofNat_toNat]
  rfl

/-- **Whatever way a character is spelled, it is read.** -/
theorem readChars_spelled {c : Char} {text : List Char} (h : Spells c text) (rest : List Char) :
    readChars none (text ++ rest) = before [c] (readChars none rest) := by
  cases h with
  | plain hquote hslash hcontrol =>
    have hno : ¬ (c = '\\' ∨ c.toNat < 0x20) := by
      rintro (h | h)
      · exact hslash h
      · omega
    rw [List.singleton_append, readChars.eq_def]
    split
    · rename_i heq
      exact absurd (List.cons.inj heq).1 hquote
    · rename_i heq
      exact absurd (List.cons.inj heq).1 hslash
    · rename_i heq
      exact absurd (List.cons.inj heq).1 hslash
    · rename_i heq
      cases heq
      rw [if_neg hno]
      rfl
    · rename_i heq
      cases heq
  | @short x h =>
    have hx : x ≠ 'u' := by
      rintro rfl
      cases h
    rw [List.cons_append, List.singleton_append, readChars.eq_def]
    split
    · rename_i heq
      cases heq
    · rename_i heq
      injection heq with _ heq
      exact absurd (List.cons.inj heq).1 hx
    · rename_i heq
      cases heq
      rw [h]
      rfl
    · rename_i hno heq
      cases heq
      exact (hno x rest rfl rfl).elim
    · rename_i heq
      cases heq
  | unit h =>
    simp only [List.cons_append, List.nil_append, readChars, h, joinUnit_toNat]

/-- **A writer that spells every character is read back.** -/
theorem readChars_flatMap {write : Char → List Char} (h : ∀ c, Spells c (write c)) (cs rest : List Char) :
    readChars none (cs.flatMap write ++ '"' :: rest) = some (cs, rest) := by
  induction cs with
  | nil => rfl
  | cons c cs ih =>
    rw [List.flatMap_cons, List.append_assoc, readChars_spelled (h c), ih]
    rfl

/-! ### A writer -/

/-- The character behind the backslash of a short escape. -/
def shortName : Char → Option Char
  | '"' => some '"'
  | '\\' => some '\\'
  | '\x08' => some 'b'
  | '\x0c' => some 'f'
  | '\n' => some 'n'
  | '\r' => some 'r'
  | '\t' => some 't'
  | _ => none

def unicodeEscape (n : Nat) : List Char :=
  ['\\', 'u', (n / 4096).digitChar, (n / 256 % 16).digitChar, (n / 16 % 16).digitChar, (n % 16).digitChar]

/-- Short escapes where there are any, a `\u` escape for the other control characters and for those of
`also`, and every other character as it is. -/
def escapeChar (also : Char → Bool) (c : Char) : List Char :=
  match shortName c with
  | some x => ['\\', x]
  | none => if c.toNat < 0x20 ∨ also c = true then unicodeEscape c.toNat else [c]

theorem shortEscape_shortName {c x : Char} (h : shortName c = some x) : shortEscape x = some c := by
  unfold shortName at h
  split at h <;> cases h <;> rfl

theorem hexValue_digitChar : ∀ n < 16, hexValue n.digitChar = some n := by decide

theorem hex4_unicodeEscape {n : Nat} (h : n < 0x10000) :
    hex4 (n / 4096).digitChar (n / 256 % 16).digitChar (n / 16 % 16).digitChar (n % 16).digitChar = some n := by
  unfold hex4
  rw [hexValue_digitChar _ (by omega), hexValue_digitChar _ (by omega), hexValue_digitChar _ (by omega),
    hexValue_digitChar _ (by omega)]
  refine congrArg some ?_
  omega

/-- **The writer spells every character.** -/
theorem spells_escapeChar {also : Char → Bool} (h : ∀ c, also c = true → c.toNat < 0x10000) (c : Char) :
    Spells c (escapeChar also c) := by
  unfold escapeChar
  split
  · rename_i x hx
    exact .short (shortEscape_shortName hx)
  · rename_i hno
    split
    · rename_i hc
      refine .unit (hex4_unicodeEscape ?_)
      rcases hc with hc | hc
      · omega
      · exact h c hc
    · rename_i hc
      refine .plain ?_ ?_ ?_
      · rintro rfl
        cases hno
      · rintro rfl
        cases hno
      · omega

theorem graphic_of_all {cs : List Char} (h : cs.all (fun c => decide (0x20 ≤ c.toNat)) = true) :
    ∀ c ∈ cs, 0x20 ≤ c.toNat := by
  intro c hc
  exact of_decide_eq_true (List.all_eq_true.mp h c hc)

theorem digitChar_graphic : ∀ n < 16, 0x20 ≤ n.digitChar.toNat := by decide

/-- What is written has no control character in it. -/
theorem escapeChar_graphic {also : Char → Bool} (h : ∀ c, also c = true → c.toNat < 0x10000) (c : Char) :
    ∀ x ∈ escapeChar also c, 0x20 ≤ x.toNat := by
  unfold escapeChar
  split
  · rename_i x hx
    unfold shortName at hx
    split at hx <;> cases hx <;> exact graphic_of_all (by decide)
  · split
    · rename_i hc
      have hlt : c.toNat < 0x10000 := by
        rcases hc with hc | hc
        · omega
        · exact h c hc
      simp only [unicodeEscape, List.forall_mem_cons]
      exact ⟨by decide, by decide, digitChar_graphic _ (by omega), digitChar_graphic _ (by omega),
        digitChar_graphic _ (by omega), digitChar_graphic _ (by omega), List.forall_mem_nil _⟩
    · intro x hx
      rw [List.mem_singleton.mp hx]
      omega

/-! ## Numbers -/

def intText (n : Int) : List Char :=
  if n < 0 then '-' :: Nat.toDigits 10 n.natAbs else Nat.toDigits 10 n.natAbs

/-- The number `mantissa * 10 ^ exponent`. -/
def numberLiteral (mantissa exponent : Int) : List Char :=
  intText mantissa ++ if exponent = 0 then [] else 'e' :: intText exponent

/-- A sign, if there is one: whether it is a minus, and what follows. -/
def readSign (plus : Bool) : List Char → Bool × List Char
  | '-' :: cs => (true, cs)
  | '+' :: cs => if plus then (false, cs) else (false, '+' :: cs)
  | cs => (false, cs)

def signed (negative : Bool) (ds : List Char) : Int :=
  let n : Int := Nat.ofDigitChars 10 ds 0
  if negative then -n else n

/-- The digits behind a point, if there is one. -/
def readFraction : List Char → Option (List Char × List Char)
  | '.' :: cs =>
      if cs.takeWhile Char.isDigit = [] then none
      else some (cs.takeWhile Char.isDigit, cs.dropWhile Char.isDigit)
  | cs => some ([], cs)

/-- The exponent, if there is one. -/
def readExponent : List Char → Option (Option Int × List Char)
  | [] => some (none, [])
  | c :: cs =>
      if c = 'e' ∨ c = 'E' then
        let r := readSign true cs
        if r.2.takeWhile Char.isDigit = [] then none
        else some (some (signed r.1 (r.2.takeWhile Char.isDigit)), r.2.dropWhile Char.isDigit)
      else some (none, c :: cs)

/-- The number `mantissa * 10 ^ (exponent - decimals)`, with a zero for its exponent only if it has neither
decimals nor an exponent. -/
def scaled (mantissa : Int) (decimals : Nat) (exponent : Option Int) : Int × Int :=
  let e := exponent.getD 0 - decimals
  if exponent.isSome ∧ e = 0 then (10 * mantissa, -1) else (mantissa, e)

/-- A number: its mantissa, its exponent, and what follows. There is no zero before another digit. -/
def readNumber (cs : List Char) : Option ((Int × Int) × List Char) :=
  let r := readSign false cs
  let int := r.2.takeWhile Char.isDigit
  if int = [] ∨ (int.head? = some '0' ∧ 1 < int.length) then none
  else
    match readFraction (r.2.dropWhile Char.isDigit) with
    | none => none
    | some (frac, cs) =>
        match readExponent cs with
        | none => none
        | some (e, cs) => some (scaled (signed r.1 (int ++ frac)) frac.length e, cs)

/-- Nothing of a number follows. -/
def EndsNumber (rest : List Char) : Prop :=
  ∀ c ∈ rest.head?, c.isDigit = false ∧ c ≠ '.' ∧ c ≠ 'e' ∧ c ≠ 'E'

theorem isDigit_toDigits {n : Nat} {c : Char} (h : c ∈ Nat.toDigits 10 n) : c.isDigit = true :=
  Nat.isDigit_of_mem_toDigits (by decide) (by decide) h

/-- The digits of a number end where they end. -/
theorem span_digits {n : Nat} {rest : List Char} (h : ∀ c ∈ rest.head?, c.isDigit = false) :
    (Nat.toDigits 10 n ++ rest).takeWhile Char.isDigit = Nat.toDigits 10 n ∧
      (Nat.toDigits 10 n ++ rest).dropWhile Char.isDigit = rest := by
  have hall : ∀ c ∈ Nat.toDigits 10 n, c.isDigit = true := fun c hc => isDigit_toDigits hc
  rw [List.takeWhile_append_of_pos hall, List.dropWhile_append_of_pos hall]
  cases rest with
  | nil => simp
  | cons c cs =>
    have hc : c.isDigit = false := h c rfl
    simp [hc]

theorem signed_toDigits (n : Int) : signed (decide (n < 0)) (Nat.toDigits 10 n.natAbs) = n := by
  unfold signed
  simp only [Nat.ofDigitChars_ten_toDigits, decide_eq_true_eq]
  split <;> omega

/-- The sign of a number is read, and its digits are left. -/
theorem readSign_intText (plus : Bool) (n : Int) (rest : List Char) :
    readSign plus (intText n ++ rest) = (decide (n < 0), Nat.toDigits 10 n.natAbs ++ rest) := by
  unfold intText
  split
  · rename_i h
    simp [readSign, h]
  · rename_i h
    rw [decide_eq_false h]
    cases hds : Nat.toDigits 10 n.natAbs with
    | nil => exact absurd hds (Nat.toDigits_ne_nil)
    | cons d ds =>
      have hd : d.isDigit = true := isDigit_toDigits (n := n.natAbs) (hds ▸ List.mem_cons_self)
      rw [List.cons_append, readSign.eq_def]
      split
      · rename_i heq
        obtain rfl := (List.cons.inj heq).1
        cases hd
      · rename_i heq
        obtain rfl := (List.cons.inj heq).1
        cases hd
      · rfl

/-- A positive number does not begin with a zero. -/
theorem head?_toDigits {n : Nat} (hpos : 0 < n) : (Nat.toDigits 10 n).head? ≠ some '0' := by
  induction n using Nat.strongRecOn with
  | ind n ih =>
    rcases Nat.lt_or_ge n 10 with hlt | hge
    · rw [Nat.toDigits_of_lt_base hlt]
      intro h
      have hzero : n.digitChar = '0' := Option.some.inj h
      rw [Nat.digitChar_eq_zero] at hzero
      omega
    · rw [Nat.toDigits_of_base_le (by decide) hge, List.head?_append_of_ne_nil _ (Nat.toDigits_ne_nil)]
      exact ih (n / 10) (by omega) (by omega)

/-- There is no zero before another digit. -/
theorem toDigits_no_leading_zero (n : Nat) :
    ¬ ((Nat.toDigits 10 n).head? = some '0' ∧ 1 < (Nat.toDigits 10 n).length) := by
  rintro ⟨hhead, hlen⟩
  rcases Nat.eq_zero_or_pos n with rfl | hpos
  · rw [Nat.toDigits_zero] at hlen
    exact absurd hlen (by decide)
  · exact head?_toDigits hpos hhead

/-- A number begins with a minus or a digit. -/
theorem numberLiteral_head (m e : Int) :
    ∃ c cs, numberLiteral m e = c :: cs ∧ (c = '-' ∨ c.isDigit = true) := by
  unfold numberLiteral intText
  split
  · exact ⟨'-', _, rfl, .inl rfl⟩
  · cases hds : Nat.toDigits 10 m.natAbs with
    | nil => exact absurd hds Nat.toDigits_ne_nil
    | cons d ds => exact ⟨d, _, rfl, .inr (isDigit_toDigits (n := m.natAbs) (hds ▸ List.mem_cons_self))⟩

theorem intText_graphic (n : Int) : ∀ c ∈ intText n, 0x20 ≤ c.toNat := by
  have hdigit : ∀ c ∈ Nat.toDigits 10 n.natAbs, 0x20 ≤ c.toNat := by
    intro c hc
    have hlow : '0'.toNat ≤ c.toNat := (Char.isDigit_iff_toNat.mp (isDigit_toDigits hc)).1
    exact Nat.le_trans (by decide) hlow
  unfold intText
  split
  · exact List.forall_mem_cons.mpr ⟨by decide, hdigit⟩
  · exact hdigit

theorem numberLiteral_graphic (m e : Int) : ∀ c ∈ numberLiteral m e, 0x20 ≤ c.toNat := by
  unfold numberLiteral
  refine List.forall_mem_append.mpr ⟨intText_graphic m, ?_⟩
  split
  · exact List.forall_mem_nil _
  · exact List.forall_mem_cons.mpr ⟨by decide, intText_graphic e⟩

theorem readExponent_text {e : Int} {rest : List Char} (h : EndsNumber rest) :
    readExponent ((if e = 0 then [] else 'e' :: intText e) ++ rest) =
      some (if e = 0 then none else some e, rest) := by
  by_cases he : e = 0
  · subst he
    rw [if_pos rfl, List.nil_append]
    cases rest with
    | nil => rfl
    | cons c cs =>
      obtain ⟨-, -, hlower, hupper⟩ := h c rfl
      rw [readExponent, if_neg (by simp [hlower, hupper]), if_pos rfl]
  · obtain ⟨htake, hdrop⟩ := span_digits (n := e.natAbs) fun c hc => (h c hc).1
    rw [if_neg he, if_neg he, List.cons_append, readExponent, if_pos (.inl rfl)]
    simp only [readSign_intText, htake, hdrop, signed_toDigits, if_neg (Nat.toDigits_ne_nil)]

theorem readFraction_none {cs : List Char} (h : ∀ c ∈ cs.head?, c ≠ '.') : readFraction cs = some ([], cs) := by
  unfold readFraction
  split
  · exact absurd rfl (h '.' rfl)
  · rfl

theorem scaled_literal (m e : Int) : scaled m 0 (if e = 0 then none else some e) = (m, e) := by
  unfold scaled
  by_cases he : e = 0
  · subst he
    rfl
  · rw [if_neg he, Option.getD_some, Int.ofNat_zero, Int.sub_zero, if_neg fun h => he h.2]

/-- **A number that was written is read.** -/
theorem readNumber_literal {m e : Int} {rest : List Char} (h : EndsNumber rest) :
    readNumber (numberLiteral m e ++ rest) = some ((m, e), rest) := by
  have hhead : ∀ c ∈ ((if e = 0 then [] else 'e' :: intText e) ++ rest).head?, c.isDigit = false ∧ c ≠ '.' := by
    intro c hc
    by_cases he : e = 0
    · rw [if_pos he, List.nil_append] at hc
      exact ⟨(h c hc).1, (h c hc).2.1⟩
    · rw [if_neg he] at hc
      cases hc
      exact ⟨rfl, by decide⟩
  obtain ⟨htake, hdrop⟩ := span_digits (n := m.natAbs) fun c hc => (hhead c hc).1
  have hlead : ¬ (Nat.toDigits 10 m.natAbs = [] ∨
      ((Nat.toDigits 10 m.natAbs).head? = some '0' ∧ 1 < (Nat.toDigits 10 m.natAbs).length)) :=
    not_or.mpr ⟨Nat.toDigits_ne_nil, toDigits_no_leading_zero _⟩
  unfold readNumber numberLiteral
  rw [List.append_assoc]
  simp only [readSign_intText, htake, hdrop, if_neg hlead, readFraction_none fun c hc => (hhead c hc).2,
    readExponent_text h, List.append_nil, signed_toDigits, List.length_nil, scaled_literal]

end Harness.Lib
