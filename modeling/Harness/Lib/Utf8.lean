/-
# Harness.Lib.Utf8 — UTF-8, and its decoder that never fails.

`utf8Decode` reads one byte after the other. A byte that cannot stand where it stands ends the character before
it, which becomes a U+FFFD, and is then read as a first byte; a character the end cuts off becomes one too.
Overlong forms, surrogates and what lies beyond U+10FFFF are kept out by the bounds of the second byte.

What was encoded is read back (`utf8Decode_encode`).
-/
import Mathlib.Data.List.Basic

namespace Harness.Lib

/-! ## Encoding -/

def utf8EncodeChar (c : Char) : List UInt8 :=
  let n := c.toNat
  if n < 0x80 then [n.toUInt8]
  else if n < 0x800 then [(0xC0 + n / 64).toUInt8, (0x80 + n % 64).toUInt8]
  else if n < 0x10000 then
    [(0xE0 + n / 4096).toUInt8, (0x80 + n / 64 % 64).toUInt8, (0x80 + n % 64).toUInt8]
  else
    [(0xF0 + n / 262144).toUInt8, (0x80 + n / 4096 % 64).toUInt8, (0x80 + n / 64 % 64).toUInt8,
      (0x80 + n % 64).toUInt8]

def utf8Encode (cs : List Char) : List UInt8 := cs.flatMap utf8EncodeChar

/-! ## Decoding -/

/-- A character that is not complete: the bits so far, the bytes still missing and the bounds of the next. -/
structure Pending where
  bits : Nat
  missing : Nat
  lower : Nat
  upper : Nat

/-- What a first byte announces. -/
def lead (b : Nat) : Option Pending :=
  if 0xC2 ≤ b ∧ b ≤ 0xDF then some ⟨b - 0xC0, 1, 0x80, 0xBF⟩
  else if 0xE0 ≤ b ∧ b ≤ 0xEF then
    some ⟨b - 0xE0, 2, if b = 0xE0 then 0xA0 else 0x80, if b = 0xED then 0x9F else 0xBF⟩
  else if 0xF0 ≤ b ∧ b ≤ 0xF4 then
    some ⟨b - 0xF0, 3, if b = 0xF0 then 0x90 else 0x80, if b = 0xF4 then 0x8F else 0xBF⟩
  else none

/-- A byte between two characters. -/
def firstByte (b : Nat) : List Char × Option Pending :=
  if b < 0x80 then ([Char.ofNat b], none)
  else match lead b with
    | some p => ([], some p)
    | none => (['\ufffd'], none)

/-- One byte: the characters it completes, and what is open behind it. -/
def utf8Step : Option Pending → Nat → List Char × Option Pending
  | none, b => firstByte b
  | some p, b =>
      if p.lower ≤ b ∧ b ≤ p.upper then
        let bits := 64 * p.bits + (b - 0x80)
        if p.missing = 1 then ([Char.ofNat bits], none)
        else ([], some ⟨bits, p.missing - 1, 0x80, 0xBF⟩)
      else ('\ufffd' :: (firstByte b).1, (firstByte b).2)

def utf8DecodeFrom : Option Pending → List UInt8 → List Char
  | none, [] => []
  | some _, [] => ['\ufffd']
  | p, b :: bs => (utf8Step p b.toNat).1 ++ utf8DecodeFrom (utf8Step p b.toNat).2 bs

def utf8Decode (bytes : List UInt8) : List Char := utf8DecodeFrom none bytes

example : [[0x61, 0xC3, 0xA9], [0xC3, 0x61], [0xE2, 0x82], [0xED, 0xA0, 0x80], [0xF0, 0x9F, 0x98, 0x80]].map
    utf8Decode = [['a', 'é'], ['\ufffd', 'a'], ['\ufffd'], ['\ufffd', '\ufffd', '\ufffd'], ['😀']] := by
  decide

/-! ## What was encoded is read back -/

section RoundTrip

variable {n : Nat} {bs : List UInt8}

theorem utf8DecodeFrom_byte {p : Option Pending} (h : n < 256) : utf8DecodeFrom p (n.toUInt8 :: bs) =
    (utf8Step p n).1 ++ utf8DecodeFrom (utf8Step p n).2 bs := by
  have hn : n.toUInt8.toNat = n := by
    rw [UInt8.toNat_ofNat', Nat.mod_eq_of_lt h]
  cases p <;> rw [utf8DecodeFrom, hn]

/-- A first byte that announces more. -/
theorem utf8DecodeFrom_lead {p : Pending} (hn : n < 256) (h : 0x80 ≤ n) (hlead : lead n = some p) :
    utf8DecodeFrom none (n.toUInt8 :: bs) = utf8DecodeFrom (some p) bs := by
  rw [utf8DecodeFrom_byte hn, utf8Step, firstByte, if_neg (Nat.not_lt.mpr h), hlead]
  rfl

/-- Six more bits, and there are bytes missing. -/
theorem utf8DecodeFrom_more {bits missing lower upper low : Nat} (hlow : low < 64)
    (hb : lower ≤ 0x80 + low ∧ 0x80 + low ≤ upper) :
    utf8DecodeFrom (some ⟨bits, missing + 2, lower, upper⟩) ((0x80 + low).toUInt8 :: bs) =
      utf8DecodeFrom (some ⟨64 * bits + low, missing + 1, 0x80, 0xBF⟩) bs := by
  rw [utf8DecodeFrom_byte (by omega), utf8Step, if_pos hb, Nat.add_sub_cancel_left]
  rfl

/-- The last six bits. -/
theorem utf8DecodeFrom_last {bits lower upper low : Nat} (hlow : low < 64)
    (hb : lower ≤ 0x80 + low ∧ 0x80 + low ≤ upper) :
    utf8DecodeFrom (some ⟨bits, 1, lower, upper⟩) ((0x80 + low).toUInt8 :: bs) =
      Char.ofNat (64 * bits + low) :: utf8DecodeFrom none bs := by
  rw [utf8DecodeFrom_byte (by omega), utf8Step, if_pos hb, Nat.add_sub_cancel_left]
  rfl

end RoundTrip

theorem utf8DecodeFrom_char (c : Char) (bs : List UInt8) :
    utf8DecodeFrom none (utf8EncodeChar c ++ bs) = c :: utf8DecodeFrom none bs := by
  have hvalid : c.toNat < 0xD800 ∨ 0xDFFF < c.toNat ∧ c.toNat < 0x110000 := c.valid
  have hc : c = Char.ofNat c.toNat := (Char.ofNat_toNat c).symm
  unfold utf8EncodeChar
  dsimp only
  generalize hn : c.toNat = n at hvalid hc
  -- one case for each length of an encoding; the bounds of the second byte are what each length starts with
  split_ifs with h1 h2 h3
  · rw [List.singleton_append, utf8DecodeFrom_byte (by omega), utf8Step, firstByte, if_pos h1, ← hc]
    rfl
  · have hlead : lead (0xC0 + n / 64) = some ⟨n / 64, 1, 0x80, 0xBF⟩ := by
      rw [lead, if_pos (by omega), Nat.add_sub_cancel_left]
    have hbits : 64 * (n / 64) + n % 64 = n := by omega
    rw [List.cons_append, utf8DecodeFrom_lead (by omega) (by omega) hlead, List.singleton_append,
      utf8DecodeFrom_last (by omega) (by omega), hbits, ← hc]
  · have hlead : lead (0xE0 + n / 4096) = some ⟨n / 4096, 2, if 0xE0 + n / 4096 = 0xE0 then 0xA0 else 0x80,
        if 0xE0 + n / 4096 = 0xED then 0x9F else 0xBF⟩ := by
      rw [lead, if_neg (by omega), if_pos (by omega), Nat.add_sub_cancel_left]
    have hbits : 64 * (64 * (n / 4096) + n / 64 % 64) + n % 64 = n := by omega
    rw [List.cons_append, utf8DecodeFrom_lead (by omega) (by omega) hlead, List.cons_append,
      utf8DecodeFrom_more (by omega) (by constructor <;> split <;> omega), List.singleton_append,
      utf8DecodeFrom_last (by omega) (by omega), hbits, ← hc]
  · have hlead : lead (0xF0 + n / 262144) = some ⟨n / 262144, 3,
        if 0xF0 + n / 262144 = 0xF0 then 0x90 else 0x80,
        if 0xF0 + n / 262144 = 0xF4 then 0x8F else 0xBF⟩ := by
      rw [lead, if_neg (by omega), if_neg (by omega), if_pos (by omega), Nat.add_sub_cancel_left]
    have hbits : 64 * (64 * (64 * (n / 262144) + n / 4096 % 64) + n / 64 % 64) + n % 64 = n := by omega
    rw [List.cons_append, utf8DecodeFrom_lead (by omega) (by omega) hlead, List.cons_append,
      utf8DecodeFrom_more (by omega) (by constructor <;> split <;> omega), List.cons_append,
      utf8DecodeFrom_more (by omega) (by omega), List.singleton_append,
      utf8DecodeFrom_last (by omega) (by omega), hbits, ← hc]

/-- **What was encoded is read back.** -/
theorem utf8Decode_encode (cs : List Char) : utf8Decode (utf8Encode cs) = cs := by
  unfold utf8Decode utf8Encode
  induction cs with
  | nil => rfl
  | cons c cs ih => rw [List.flatMap_cons, utf8DecodeFrom_char, ih]

end Harness.Lib
