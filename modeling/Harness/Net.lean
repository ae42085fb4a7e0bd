/-
# Harness.Net — IP addresses as Go's package net has them.

An `IP` is a slice of 4 or 16 bytes, and an IPv4 address may be held in either form. `parseIP` reads the
two text forms, `IP.string` writes the first of them; what is written is read back (`parseIP_string`).

`isPrivateIP` is the daemon's own question. `Trusted` is what it should answer, by address blocks, and
`isPrivateIP_iff` says that it does.
-/
import Mathlib.Data.List.Basic
import Mathlib.Tactic.IntervalCases
import Mathlib.Tactic.Ring

namespace Harness.Net

abbrev IP := List UInt8

/-! ## Text -/

/-- `parseIPv4Fields`: the fields read so far, and the value and the number of digits of the one that is
read. -/
def parseIPv4Fields : List Char → Nat → Nat → IP → Option IP
  | [], val, digLen, fields =>
      if digLen = 0 ∨ fields.length ≠ 3 then none else some (fields ++ [UInt8.ofNat val])
  | c :: rest, val, digLen, fields =>
      if c.isDigit then
        -- no octet has a leading zero
        if digLen = 1 ∧ val = 0 then none
        else
          let val := val * 10 + (c.toNat - '0'.toNat)
          if val > 255 then none else parseIPv4Fields rest val (digLen + 1) fields
      else if c = '.' then
        if digLen = 0 ∨ fields.length = 3 then none
        else parseIPv4Fields rest 0 0 (fields ++ [UInt8.ofNat val])
      else none

def hexValue (c : Char) : Option Nat :=
  if c.isDigit then some (c.toNat - '0'.toNat)
  else if 'a' ≤ c ∧ c ≤ 'f' then some (c.toNat - 'a'.toNat + 10)
  else if 'A' ≤ c ∧ c ≤ 'F' then some (c.toNat - 'A'.toNat + 10)
  else none

/-- The loop of `parseIPv6`: the bytes so far and where the ellipsis is among them. A group is two bytes, so
the loop ends after eight of them. -/
def parseGroups : Nat → List Char → IP → Option Nat → Option (List Char × IP × Option Nat)
  | 0, s, ip, ellipsis => some (s, ip, ellipsis)
  | left + 1, s, ip, ellipsis =>
      let digits := s.takeWhile fun c => (hexValue c).isSome
      let acc := digits.foldl (fun acc c => acc * 16 + (hexValue c).getD 0) 0
      if digits.length = 0 ∨ digits.length > 4 then none
      else
        match s.drop digits.length with
        | [] => some ([], ip ++ [UInt8.ofNat (acc / 256), UInt8.ofNat acc], ellipsis)
        | '.' :: _ =>
            -- an IPv4 address at the end
            if (ellipsis = none ∧ ip.length ≠ 12) ∨ ip.length + 4 > 16 then none
            else (parseIPv4Fields s 0 0 []).map fun fields => ([], ip ++ fields, ellipsis)
        | ':' :: rest =>
            let ip := ip ++ [UInt8.ofNat (acc / 256), UInt8.ofNat acc]
            match rest with
            | [] => none
            | ':' :: rest =>
                if ellipsis.isSome then none
                else if rest = [] then some ([], ip, some ip.length)
                else parseGroups left rest ip (some ip.length)
            | _ => parseGroups left rest ip ellipsis
        | _ => none

/-- The end of `parseIPv6`: the ellipsis stands for the groups that are missing, at least one. -/
def expand : List Char × IP × Option Nat → Option IP
  | ([], ip, none) => if ip.length = 16 then some ip else none
  | ([], ip, some ellipsis) =>
      if ip.length < 16 then
        some (ip.take ellipsis ++ List.replicate (16 - ip.length) 0 ++ ip.drop ellipsis)
      else none
  | _ => none

/-- `parseIPv6`, of an address without a zone. -/
def parseIPv6 (s : List Char) : Option IP :=
  match s with
  | [':', ':'] => some (List.replicate 16 0)
  | ':' :: ':' :: rest => (parseGroups 8 rest [] (some 0)).bind expand
  | _ => (parseGroups 8 s [] none).bind expand

def v4InV6Prefix : IP := [0, 0, 0, 0, 0, 0, 0, 0, 0, 0, 0xff, 0xff]

/-- `net.ParseIP`: 16 bytes. The first of the three characters decides how the text is read; an address with
a zone is none. -/
def parseIP (s : String) : Option IP :=
  match s.toList.find? fun c => c = '.' ∨ c = ':' ∨ c = '%' with
  | some '.' => (parseIPv4Fields s.toList 0 0 []).map (v4InV6Prefix ++ ·)
  | some ':' => if '%' ∈ s.toList then none else parseIPv6 s.toList
  | _ => none

example : parseIP "2001:db8::20" =
    some [0x20, 0x01, 0x0d, 0xb8, 0, 0, 0, 0, 0, 0, 0, 0, 0, 0, 0, 0x20] := by decide +kernel

/-- `appendDecimal`. -/
def decimal (x : UInt8) : List Char :=
  (if x.toNat < 100 then [] else [Nat.digitChar (x.toNat / 100)]) ++
    (if x.toNat < 10 then [] else [Nat.digitChar (x.toNat / 10 % 10)]) ++ [Nat.digitChar (x.toNat % 10)]

/-- `IP.String` of four bytes. -/
def IP.string (ip : IP) : String := String.ofList (['.'].intercalate (ip.map decimal))

/-! ## What is written is read back -/

theorem isDigit_digitChar {d : Nat} (h : d < 10) :
    (Nat.digitChar d).isDigit = true ∧ (Nat.digitChar d).toNat - '0'.toNat = d := by
  interval_cases d <;> exact ⟨rfl, rfl⟩

/-- A digit is read into the field. -/
theorem parseIPv4Fields_digit {d val digLen : Nat} {rest : List Char} {fields : IP} (hd : d < 10)
    (hzero : digLen = 1 → val ≠ 0) (hval : val * 10 + d ≤ 255) :
    parseIPv4Fields (Nat.digitChar d :: rest) val digLen fields =
      parseIPv4Fields rest (val * 10 + d) (digLen + 1) fields := by
  obtain ⟨hdigit, hvalue⟩ := isDigit_digitChar hd
  rw [parseIPv4Fields, if_pos hdigit, if_neg fun h => hzero h.1 h.2, hvalue]
  exact if_neg (Nat.not_lt.mpr hval)

/-- An octet is read into the field. -/
theorem parseIPv4Fields_decimal (x : UInt8) (rest : List Char) (fields : IP) :
    ∃ digLen, digLen ≠ 0 ∧ parseIPv4Fields (decimal x ++ rest) 0 0 fields =
      parseIPv4Fields rest x.toNat digLen fields := by
  have hx := x.toNat_lt
  rw [decimal]
  by_cases hten : x.toNat < 10
  · refine ⟨1, by decide, ?_⟩
    rw [if_pos (show x.toNat < 100 by omega), if_pos hten, List.nil_append, List.nil_append,
      List.singleton_append, parseIPv4Fields_digit (by omega) (by omega) (by omega)]
    congr 1
    omega
  · by_cases hhundred : x.toNat < 100
    · refine ⟨2, by decide, ?_⟩
      rw [if_pos hhundred, if_neg hten, List.nil_append, List.append_assoc, List.singleton_append,
        List.singleton_append, parseIPv4Fields_digit (by omega) (by omega) (by omega),
        parseIPv4Fields_digit (by omega) (by omega) (by omega)]
      congr 1
      omega
    · refine ⟨3, by decide, ?_⟩
      rw [if_neg hhundred, if_neg hten, List.append_assoc, List.append_assoc, List.singleton_append,
        List.singleton_append, List.singleton_append,
        parseIPv4Fields_digit (by omega) (by omega) (by omega),
        parseIPv4Fields_digit (by omega) (by omega) (by omega),
        parseIPv4Fields_digit (by omega) (by omega) (by omega)]
      congr 1
      omega

/-- A dot ends it. -/
theorem parseIPv4Fields_dot {val digLen : Nat} {rest : List Char} {fields : IP} (hdig : digLen ≠ 0)
    (hfields : fields.length < 3) :
    parseIPv4Fields ('.' :: rest) val digLen fields =
      parseIPv4Fields rest 0 0 (fields ++ [UInt8.ofNat val]) := by
  have hroom : ¬ (digLen = 0 ∨ fields.length = 3) := by omega
  rw [parseIPv4Fields, if_neg (by decide), if_pos rfl, if_neg hroom]

theorem parseIPv4Fields_decimals (a b c d : UInt8) :
    parseIPv4Fields (['.'].intercalate ([a, b, c, d].map decimal)) 0 0 [] = some [a, b, c, d] := by
  have htext : ['.'].intercalate ([a, b, c, d].map decimal) =
      decimal a ++ '.' :: (decimal b ++ '.' :: (decimal c ++ '.' :: (decimal d ++ []))) := by
    simp [List.intercalate, List.intersperse]
  -- octet and dot in turn, the last octet ending the text
  obtain ⟨da, hda, ha⟩ := parseIPv4Fields_decimal a
    ('.' :: (decimal b ++ '.' :: (decimal c ++ '.' :: (decimal d ++ [])))) []
  obtain ⟨db, hdb, hb⟩ := parseIPv4Fields_decimal b ('.' :: (decimal c ++ '.' :: (decimal d ++ []))) [a]
  obtain ⟨dc, hdc, hc⟩ := parseIPv4Fields_decimal c ('.' :: (decimal d ++ [])) [a, b]
  obtain ⟨dd, hdd, hd⟩ := parseIPv4Fields_decimal d [] [a, b, c]
  rw [htext, ha, parseIPv4Fields_dot hda (by decide), List.nil_append, UInt8.ofNat_toNat, hb,
    parseIPv4Fields_dot hdb (by simp), List.singleton_append, UInt8.ofNat_toNat, hc,
    parseIPv4Fields_dot hdc (by simp), UInt8.ofNat_toNat]
  show parseIPv4Fields _ 0 0 [a, b, c] = _
  rw [hd, parseIPv4Fields]
  simp [hdd]

theorem mem_decimal {x : UInt8} {c : Char} (h : c ∈ decimal x) : ∃ d < 10, c = Nat.digitChar d := by
  have hx := x.toNat_lt
  have hif : ∀ (p : Prop) [Decidable p] (d : Nat),
      c ∈ (if p then [] else [Nat.digitChar d]) → c = Nat.digitChar d := by
    intro p hp d hc
    by_cases hpos : p
    · rw [if_pos hpos] at hc
      cases hc
    · rw [if_neg hpos] at hc
      exact List.mem_singleton.mp hc
  rw [decimal, List.mem_append, List.mem_append, List.mem_singleton] at h
  rcases h with (h | h) | h
  · exact ⟨_, by omega, hif _ _ h⟩
  · exact ⟨_, by omega, hif _ _ h⟩
  · exact ⟨_, by omega, h⟩

/-- The first of the three characters is a dot. -/
theorem find_decimal (x : UInt8) (rest : List Char) :
    (decimal x ++ '.' :: rest).find? (fun c => c = '.' ∨ c = ':' ∨ c = '%') = some '.' := by
  have hnone : (decimal x).find? (fun c => c = '.' ∨ c = ':' ∨ c = '%') = none := by
    refine List.find?_eq_none.mpr fun c hc => ?_
    obtain ⟨d, hd, rfl⟩ := mem_decimal hc
    interval_cases d <;> decide
  rw [List.find?_append, hnone]
  rfl

/-- **`net.ParseIP` of what `IP.String` writes.** It has sixteen bytes. -/
theorem parseIP_string {ip : IP} (h : ip.length = 4) : parseIP ip.string = some (v4InV6Prefix ++ ip) := by
  obtain ⟨a, b, c, d, rfl⟩ : ∃ a b c d, ip = [a, b, c, d] := by
    match ip, h with
    | [a, b, c, d], _ => exact ⟨a, b, c, d, rfl⟩
  have hdot : (['.'].intercalate ([a, b, c, d].map decimal)).find?
      (fun c => c = '.' ∨ c = ':' ∨ c = '%') = some '.' := by
    have htext : ['.'].intercalate ([a, b, c, d].map decimal) =
        decimal a ++ '.' :: ['.'].intercalate ([b, c, d].map decimal) := by
      simp [List.intercalate, List.intersperse]
    rw [htext]
    exact find_decimal a _
  rw [parseIP, IP.string, String.toList_ofList, hdot]
  show (parseIPv4Fields _ 0 0 []).map _ = _
  rw [parseIPv4Fields_decimals]
  rfl

/-! ## Properties -/

/-- `IP.To4`. -/
def to4 (ip : IP) : Option IP :=
  if ip.length = 4 then some ip
  else if ip.length = 16 ∧ ip.take 12 = v4InV6Prefix then some (ip.drop 12)
  else none

/-- `IP.Equal`: an IPv4 address and the same address in 16 bytes are equal. -/
def equal (ip x : IP) : Bool :=
  if ip.length = x.length then ip == x
  else if ip.length = 4 ∧ x.length = 16 then x.take 12 == v4InV6Prefix && ip == x.drop 12
  else if ip.length = 16 ∧ x.length = 4 then ip.take 12 == v4InV6Prefix && ip.drop 12 == x
  else false

def IPv6loopback : IP := List.replicate 15 0 ++ [1]

def IPv6unspecified : IP := List.replicate 16 0

def IPv4zero : IP := v4InV6Prefix ++ [0, 0, 0, 0]

def isUnspecified (ip : IP) : Bool := equal ip IPv4zero || equal ip IPv6unspecified

def isLoopback (ip : IP) : Bool :=
  match to4 ip with
  | some ip4 => ip4.getD 0 0 == 127
  | none => equal ip IPv6loopback

def isPrivate (ip : IP) : Bool :=
  match to4 ip with
  | some ip4 =>
      ip4.getD 0 0 == 10 || (ip4.getD 0 0 == 172 && ip4.getD 1 0 &&& 0xf0 == 16) ||
        (ip4.getD 0 0 == 192 && ip4.getD 1 0 == 168)
  | none => ip.length == 16 && ip.getD 0 0 &&& 0xfe == 0xfc

/-- The daemon's `isPrivateIP`. -/
def isPrivateIP (ip : IP) : Bool :=
  if isLoopback ip || isPrivate ip then true
  else
    match to4 ip with
    | some ip4 => ip4.getD 0 0 == 100 && ip4.getD 1 0 ≥ 64 && ip4.getD 1 0 ≤ 127
    | none => false

theorem length_of_to4 {ip ip4 : IP} (h : to4 ip = some ip4) : ip4.length = 4 := by
  unfold to4 at h
  split at h
  · rename_i hlen
    obtain rfl := Option.some.inj h
    exact hlen
  · split at h
    · rename_i hlen
      obtain rfl := Option.some.inj h
      rw [List.length_drop, hlen.1]
    · cases h

theorem to4_of_length {ip : IP} (h : ip.length = 4) : to4 ip = some ip := if_pos h

theorem equal_refl (ip : IP) : equal ip ip = true := by
  rw [equal, if_pos rfl]
  exact BEq.rfl

/-- The four bytes of an address are equal to what the address is equal to. -/
theorem equal_to4 {ip ip4 x : IP} (h : to4 ip = some ip4) (heq : equal ip x = true) : equal ip4 x = true := by
  unfold to4 at h
  split at h
  · rwa [← Option.some.inj h]
  · split at h
    · rename_i hlen
      obtain rfl := Option.some.inj h
      have hdrop : (ip.drop 12).length = 4 := by rw [List.length_drop, hlen.1]
      unfold equal at heq
      split at heq
      · rename_i hsame
        obtain rfl := eq_of_beq heq
        rw [equal, if_neg (by omega), if_pos ⟨hdrop, hlen.1⟩, hlen.2]
        simp
      · split at heq
        · omega
        · split at heq
          · rename_i hx
            rw [Bool.and_eq_true, beq_iff_eq, beq_iff_eq] at heq
            rw [heq.2]
            exact equal_refl x
          · cases heq
    · cases h

/-- The number the bytes of an address are. -/
def number (ip : IP) : Nat := ip.foldl (fun n b => n * 256 + b.toNat) 0

/-- A block of addresses: those that have its first bits. -/
structure Block where
  base : IP
  bits : Nat

/-- The addresses of a block, IPv4 addresses being taken in four bytes. -/
def Block.Has (b : Block) (ip : IP) : Prop :=
  let ip := (to4 ip).getD ip
  ip.length = b.base.length ∧
    number ip / 2 ^ (8 * b.base.length - b.bits) = number b.base / 2 ^ (8 * b.base.length - b.bits)

/-- Loopback, private networks and carrier-grade NAT. -/
def trustedBlocks : List Block :=
  [⟨[127, 0, 0, 0], 8⟩, ⟨IPv6loopback, 128⟩,
    ⟨[10, 0, 0, 0], 8⟩, ⟨[172, 16, 0, 0], 12⟩, ⟨[192, 168, 0, 0], 16⟩,
    ⟨0xfc :: List.replicate 15 0, 7⟩,
    ⟨[100, 64, 0, 0], 10⟩]

/-- **`Trusted ip`** — the address is loopback, private or one of `100.64.0.0/10`. -/
def Trusted (ip : IP) : Prop := ∃ b ∈ trustedBlocks, b.Has ip

theorem number_cons (x : UInt8) (rest : IP) :
    number (x :: rest) = 256 ^ rest.length * x.toNat + number rest := by
  have hstart : ∀ (rest : IP) (n : Nat),
      rest.foldl (fun n b => n * 256 + b.toNat) n = 256 ^ rest.length * n + number rest := by
    intro rest
    induction rest with
    | nil => intro n; simp [number]
    | cons y rest ih =>
        intro n
        rw [number, List.foldl_cons, List.foldl_cons, ih, ih, List.length_cons, Nat.pow_succ]
        ring
  rw [number, List.foldl_cons, hstart]
  simp

theorem number_lt (ip : IP) : number ip < 256 ^ ip.length := by
  induction ip with
  | nil => exact Nat.one_pos
  | cons x rest ih =>
      have hx : x.toNat + 1 ≤ 256 := x.toNat_lt
      calc number (x :: rest) = 256 ^ rest.length * x.toNat + number rest := number_cons x rest
        _ < 256 ^ rest.length * (x.toNat + 1) := by rw [Nat.mul_add, Nat.mul_one]; omega
        _ ≤ 256 ^ rest.length * 256 := Nat.mul_le_mul_left _ hx
        _ = 256 ^ (x :: rest).length := (Nat.pow_succ ..).symm

/-- Addresses of one length are their numbers. -/
theorem number_inj : ∀ {ip x : IP}, ip.length = x.length → number ip = number x → ip = x := by
  intro ip
  induction ip with
  | nil =>
      intro x hlen _
      exact (List.eq_nil_of_length_eq_zero hlen.symm).symm
  | cons a rest ih =>
      intro x hlen h
      cases x with
      | nil => cases hlen
      | cons b rest' =>
          have hlen' : rest.length = rest'.length := Nat.succ.inj hlen
          have hhead : ∀ (c : UInt8) (r : IP), r.length = rest.length →
              number (c :: r) / 256 ^ rest.length = c.toNat := by
            intro c r hr
            have hr' := number_lt r
            rw [hr] at hr'
            rw [number_cons, hr, Nat.mul_add_div (Nat.pow_pos (by decide)), Nat.div_eq_of_lt hr', Nat.add_zero]
          have hab : a.toNat = b.toNat := by
            rw [← hhead a rest rfl, h, hhead b rest' hlen'.symm]
          rw [number_cons, number_cons, hlen', hab, Nat.add_left_cancel_iff] at h
          rw [ih hlen' h, UInt8.toNat_inj.mp hab]

/-- The two masks of the code. -/
theorem and_f0 (b : UInt8) : (b &&& 0xf0 == 16) = decide (b.toNat / 16 = 1) := by
  have hall : ∀ n : Fin 256, (UInt8.ofNat n.val &&& 0xf0 == 16) = decide (n.val / 16 = 1) := by
    decide +kernel
  have hb := hall ⟨b.toNat, b.toNat_lt⟩
  rwa [UInt8.ofNat_toNat] at hb

theorem and_fe (b : UInt8) : (b &&& 0xfe == 0xfc) = decide (b.toNat / 2 = 126) := by
  have hall : ∀ n : Fin 256, (UInt8.ofNat n.val &&& 0xfe == 0xfc) = decide (n.val / 2 = 126) := by
    decide +kernel
  have hb := hall ⟨b.toNat, b.toNat_lt⟩
  rwa [UInt8.ofNat_toNat] at hb

theorem beq_toNat (b k : UInt8) : (b == k) = decide (b.toNat = k.toNat) := by
  rw [Bool.eq_iff_iff, beq_iff_eq, decide_eq_true_iff, UInt8.toNat_inj]

/-- Four bytes. -/
theorem isPrivateIP_iff_of_some {ip ip4 : IP} (h : to4 ip = some ip4) : isPrivateIP ip = true ↔ Trusted ip := by
  obtain ⟨a, b, c, d, rfl⟩ : ∃ a b c d, ip4 = [a, b, c, d] := by
    match ip4, length_of_to4 h with
    | [a, b, c, d], _ => exact ⟨a, b, c, d, rfl⟩
  have hnumber : number [a, b, c, d] =
      ((a.toNat * 256 + b.toNat) * 256 + c.toNat) * 256 + d.toNat := by simp [number]
  have ha := a.toNat_lt
  have hb := b.toNat_lt
  have hc := c.toNat_lt
  have hd := d.toNat_lt
  have hcode : isPrivateIP ip = true ↔ a.toNat = 127 ∨ a.toNat = 10 ∨ (a.toNat = 172 ∧ b.toNat / 16 = 1) ∨
      (a.toNat = 192 ∧ b.toNat = 168) ∨ (a.toNat = 100 ∧ 64 ≤ b.toNat ∧ b.toNat ≤ 127) := by
    simp only [isPrivateIP, isLoopback, isPrivate, h, List.getD_cons_zero, List.getD_cons_succ, and_f0]
    simp only [beq_toNat, Bool.if_true_left, Bool.or_eq_true, Bool.and_eq_true, decide_eq_true_eq,
      ge_iff_le, UInt8.le_iff_toNat_le, UInt8.reduceToNat]
    omega
  have hspec : Trusted ip ↔ number [a, b, c, d] / 2 ^ 24 = 127 ∨ number [a, b, c, d] / 2 ^ 24 = 10 ∨
      number [a, b, c, d] / 2 ^ 20 = 2753 ∨ number [a, b, c, d] / 2 ^ 16 = 49320 ∨
      number [a, b, c, d] / 2 ^ 22 = 401 := by
    simp [Trusted, trustedBlocks, Block.Has, h, IPv6loopback, number]
  rw [hcode, hspec, hnumber]
  omega

/-- Sixteen bytes, or no address. -/
theorem isPrivateIP_iff_of_none {ip : IP} (h : to4 ip = none) : isPrivateIP ip = true ↔ Trusted ip := by
  have hfour : ip.length ≠ 4 := by
    intro hlen
    rw [to4_of_length hlen] at h
    cases h
  have hspec : Trusted ip ↔ ip.length = 16 ∧ (number ip = 1 ∨ number ip / 2 ^ 121 = 126) := by
    simp [Trusted, trustedBlocks, Block.Has, h, IPv6loopback, number, hfour, and_or_left]
  have hcode : isPrivateIP ip = true ↔
      equal ip IPv6loopback = true ∨ ip.length = 16 ∧ (ip.getD 0 0).toNat / 2 = 126 := by
    simp only [isPrivateIP, isLoopback, isPrivate, h, and_fe]
    simp
  rw [hcode, hspec]
  by_cases hlen : ip.length = 16
  · have hloop : equal ip IPv6loopback = true ↔ number ip = 1 := by
      have hsame : ip.length = IPv6loopback.length := hlen
      rw [equal, if_pos hsame, beq_iff_eq]
      exact ⟨fun heq => by rw [heq]; rfl, fun hone => number_inj hsame hone⟩
    obtain ⟨x, rest, rfl⟩ := List.exists_cons_of_length_eq_add_one hlen
    have hrest := number_lt rest
    have hlength : rest.length = 15 := Nat.succ.inj hlen
    rw [hloop, number_cons, hlength, List.getD_cons_zero]
    rw [hlength] at hrest
    norm_num at hrest ⊢
    omega
  · have hloop : equal ip IPv6loopback = false := by
      have hlong : IPv6loopback.length = 16 := rfl
      rw [equal, if_neg (by omega), if_neg (by omega), if_neg (by omega)]
    simp [hloop, hlen]

/-- **The daemon's question is the right one.** -/
theorem isPrivateIP_iff (ip : IP) : isPrivateIP ip = true ↔ Trusted ip := by
  cases h : to4 ip with
  | some ip4 => exact isPrivateIP_iff_of_some h
  | none => exact isPrivateIP_iff_of_none h

end Harness.Net
