/-
# Harness.Client.Value — the JavaScript values a frame can hold, and `types.ts`.

The client is TypeScript: a frame is whatever `JSON.parse` returns, and the declared types of its
members are promises nobody checks. `JsValue` is such a value. Objects keep their members as text, a
member is looked up by its exact name and the last occurrence of a repeated name counts.

Numbers are exact. A double is exact on the integers below 2 ^ 53, which holds every seq, millisecond
and token count that occurs; a literal beyond the largest double is an infinity. There is no NaN:
`JSON.parse` cannot produce one.

A string is a sequence of UTF-16 code units. Strings that are only stored or compared are kept as they
came; where the client cuts a string (`slice`), the result is a `JsString`.
-/
import Harness.Wire.Encode
import Mathlib.Algebra.Order.Field.Rat
import Mathlib.Data.Nat.Cast.Order.Ring
import Mathlib.Tactic.NormNum
import Mathlib.Tactic.Linarith

namespace Harness.Client

open Wire

/-! ## Numbers -/

/-- A number that is not NaN. -/
inductive JsNumber where
  | finite (q : ℚ)
  | infinite (negative : Bool)
  deriving DecidableEq

/-- The value of a literal. -/
def literalValue (n : Number) : ℚ :=
  match n.exponent with
  | .ofNat e => n.mantissa * 10 ^ e
  | .negSucc e => n.mantissa / 10 ^ (e + 1)

/-- Literals from here on round to an infinity: `2 ^ 1024` less half a unit in the last place. -/
def overflow : ℚ := (2 ^ 54 - 1) * 2 ^ 970

namespace JsNumber

/-- What a number literal denotes. -/
def ofLiteral (n : Number) : JsNumber :=
  let q := literalValue n
  if overflow ≤ q then infinite false else if q ≤ -overflow then infinite true else finite q

/-- `x <= y` for a finite `y`. -/
def le : JsNumber → ℚ → Bool
  | finite x, y => decide (x ≤ y)
  | infinite negative, _ => negative

end JsNumber

theorem overflow_large : (2 : ℚ) ^ 63 < overflow := by
  have h : (2 : ℚ) ^ 10 ≤ 2 ^ 970 := pow_le_pow_right₀ (by norm_num) (by norm_num)
  calc (2 : ℚ) ^ 63 < (2 ^ 54 - 1) * 2 ^ 10 := by norm_num
    _ ≤ (2 ^ 54 - 1) * 2 ^ 970 := mul_le_mul_of_nonneg_left h (by norm_num)

/-- An `int64` that is not negative is a finite number. -/
theorem JsNumber.ofLiteral_natCast {n : Nat} (h : n < 2 ^ 63) :
    ofLiteral ⟨(n : Int), 0⟩ = finite n := by
  have hv : literalValue ⟨(n : Int), 0⟩ = n := by
    show ((n : Int) : ℚ) * 10 ^ 0 = n
    simp
  have hlt : (n : ℚ) < overflow := by
    have : (n : ℚ) < 2 ^ 63 := by exact_mod_cast h
    exact this.trans overflow_large
  have hge : ¬ (n : ℚ) ≤ -overflow := by
    have h0 : (0 : ℚ) ≤ n := Nat.cast_nonneg n
    have hpos : (0 : ℚ) < overflow := lt_trans (by norm_num) overflow_large
    linarith
  simp only [ofLiteral, hv]
  rw [if_neg (not_le.mpr hlt), if_neg hge]

/-! ## Strings -/

/-- A string as the sequence of its UTF-16 code units. -/
abbrev JsString := List UInt16

/-- The code units of one rune: itself, or a surrogate pair. -/
def utf16Units (c : Char) : List UInt16 :=
  let n := c.toNat
  if n < 0x10000 then [n.toUInt16]
  else [(0xD800 + (n - 0x10000) / 0x400).toUInt16, (0xDC00 + (n - 0x10000) % 0x400).toUInt16]

def utf16 (s : String) : JsString := s.toList.flatMap utf16Units

/-- `textByteLength`, the length of `new TextEncoder().encode(text)`: a surrogate pair takes four
bytes, a lone surrogate is replaced by U+FFFD and takes three. -/
def textByteLength : JsString → Nat
  | [] => 0
  | [u] => if u < 0x80 then 1 else if u < 0x800 then 2 else 3
  | u :: v :: rest =>
      if 0xD800 ≤ u && u < 0xDC00 && 0xDC00 ≤ v && v < 0xE000 then 4 + textByteLength rest
      else (if u < 0x80 then 1 else if u < 0x800 then 2 else 3) + textByteLength (v :: rest)

/-! ## Values -/

/-- A JavaScript value that came out of `JSON.parse`, or `undefined`. -/
inductive JsValue where
  | undefined
  | null
  | bool (b : Bool)
  | num (n : JsNumber)
  | str (s : String)
  | arr (xs : List Json)
  | obj (members : List (String × Json))

namespace JsValue

def ofJson : Json → JsValue
  | .null => .null
  | .bool b => .bool b
  | .num n => .num (.ofLiteral n)
  | .str s => .str s
  | .arr xs => .arr xs
  | .obj ms => .obj ms

/-- `===`. Two parsed arrays or objects are never the same reference. -/
def strictEq : JsValue → JsValue → Bool
  | undefined, undefined => true
  | null, null => true
  | bool a, bool b => a == b
  | num a, num b => decide (a = b)
  | str a, str b => a == b
  | _, _ => false

/-- `=== null`. -/
def isNull : JsValue → Bool
  | null => true
  | _ => false

/-- `!value`. -/
def isFalsy : JsValue → Bool
  | undefined => true
  | null => true
  | bool b => !b
  | num n => decide (n = .finite 0)
  | str s => s == ""
  | _ => false

theorem eq_of_strictEq {a b : JsValue} (h : strictEq a b = true) : a = b := by
  unfold strictEq at h
  split at h
  · rfl
  · rfl
  · rw [eq_of_beq h]
  · rw [of_decide_eq_true h]
  · rw [eq_of_beq h]
  · cases h

@[simp] theorem strictEq_str (s : String) (v : JsValue) : strictEq v (.str s) = true ↔ v = .str s := by
  constructor
  · exact eq_of_strictEq
  · rintro rfl
    simp [strictEq]

theorem strictEq_comm (a b : JsValue) : strictEq a b = strictEq b a := by
  rw [Bool.eq_iff_iff]
  constructor
  · intro h
    obtain rfl := eq_of_strictEq h
    exact h
  · intro h
    obtain rfl := eq_of_strictEq h
    exact h

theorem isNull_iff {v : JsValue} : v.isNull = true ↔ v = .null := by
  cases v <;> simp [isNull]

end JsValue

/-! ## The readers of `types.ts` -/

/-- The members of an object. -/
abbrev JsRecord := List (String × Json)

/-- `record[key]`; no name the client asks for is a member of `Object.prototype`. -/
def JsRecord.get (r : JsRecord) (key : String) : JsValue :=
  match r.reverse.find? fun m => m.1 == key with
  | some m => .ofJson m.2
  | none => .undefined

/-- `isRecord`. -/
def isRecord : JsValue → Option JsRecord
  | .obj ms => some ms
  | _ => none

def asString (v : JsValue) (fallback : String) : String :=
  match v with
  | .str s => s
  | _ => fallback

def asNumber (v : JsValue) (fallback : ℚ) : ℚ :=
  match v with
  | .num (.finite q) => q
  | _ => fallback

def asBool (v : JsValue) (fallback : Bool) : Bool :=
  match v with
  | .bool b => b
  | _ => fallback

def asArray : JsValue → List Json
  | .arr xs => xs
  | _ => []

/-- `optionalString` of `reducer.ts`. -/
def optionalString : JsValue → Option String
  | .str s => some s
  | _ => none

@[simp] theorem asString_str (s fallback : String) : asString (.str s) fallback = s := rfl

/-- `Envelope`: the members that passed `isRecord`. -/
structure Envelope where
  v : ℚ
  type : String
  hello : Option JsRecord
  snapshot : Option JsRecord
  event : Option JsRecord
  command : Option JsRecord
  ack : Option JsRecord
  error : Option JsRecord
  paired : Option JsRecord

/-- `PROTOCOL_VERSION`. -/
def protocolVersion : ℚ := 1

/-- `parseEnvelope`. -/
def parseEnvelope (raw : Json) : Option Envelope :=
  match raw with
  | .obj ms =>
      match JsRecord.get ms "type" with
      | .str type =>
          some
            { v := asNumber (JsRecord.get ms "v") protocolVersion
              type := type
              hello := isRecord (JsRecord.get ms "hello")
              snapshot := isRecord (JsRecord.get ms "snapshot")
              event := isRecord (JsRecord.get ms "event")
              command := isRecord (JsRecord.get ms "command")
              ack := isRecord (JsRecord.get ms "ack")
              error := isRecord (JsRecord.get ms "error")
              paired := isRecord (JsRecord.get ms "paired") }
      | _ => none
  | _ => none

/-- What the handlers dispatch on: a type they know, with its payload there. -/
inductive Inbound where
  | snapshot (snap : JsRecord)
  | event (ev : JsRecord)
  | ack (ack : JsRecord)
  | error (err : JsRecord)
  | paired (p : JsRecord)
  | other

def Envelope.inbound (e : Envelope) : Inbound :=
  let known :=
    if e.type = "snapshot" then e.snapshot.map Inbound.snapshot
    else if e.type = "event" then e.event.map Inbound.event
    else if e.type = "ack" then e.ack.map Inbound.ack
    else if e.type = "error" then e.error.map Inbound.error
    else if e.type = "paired" then e.paired.map Inbound.paired
    else none
  known.getD .other

/-- `TERMINAL_ERROR_CODES.has`. -/
def isTerminalCode (code : JsValue) : Bool :=
  ["auth_required", "pairing_denied", "device_mismatch", "unauthorized"].any fun c =>
    code.strictEq (.str c)

mutual

/-- Whether a template literal turns a value into text. An object of the frame with a member
`toString` hides the method of that name and the conversion throws; an array converts its
elements. -/
def templateOk : Json → Bool
  | .obj ms => !ms.any fun m => m.1 == "toString"
  | .arr xs => templateOkList xs
  | _ => true

def templateOkList : List Json → Bool
  | [] => true
  | x :: xs => templateOk x && templateOkList xs

end

/-- `templateOk` on a value. -/
def JsValue.templateOk : JsValue → Bool
  | .obj ms => Client.templateOk (.obj ms)
  | .arr xs => Client.templateOk (.arr xs)
  | _ => true

-- The frame of an ack, its members in any order and one of them repeated.
example :
    (parseEnvelope (.obj [("type", .str "event"), ("ack", .obj [("commandId", .str "c1")]),
        ("type", .str "ack")])).map (fun env => (env.type, env.ack.isSome, env.event.isSome)) =
      some ("ack", true, false) := by decide

end Harness.Client
