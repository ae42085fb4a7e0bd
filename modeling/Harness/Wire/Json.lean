/-
# Harness.Wire.Json — JSON values and the part of `encoding/json` the daemon relies on.

Payloads travel as `json.RawMessage`; here a raw message is the value it denotes. Decoding a value
into a Go struct is the place where the daemon's behaviour depends on more than the happy path, so
`unmarshal` follows the documented rules of `json.Unmarshal`:

* `null` leaves the target unchanged and is no error; any other non-object is a type error;
* object members are visited in order (a repeated key overwrites), a key selects the struct field
  with exactly that name or else the one equal to it under case folding, unknown keys are skipped;
* a member of the wrong type is remembered as an error, its field keeps its value, and the remaining
  members are still decoded, so a caller that ignores the error (`_ = json.Unmarshal`) sees the
  partial result.
-/
import Mathlib.Data.Option.Basic

namespace Harness.Wire

/-- A JSON number literal, `mantissa * 10 ^ exponent`; the exponent is zero only where the literal has neither a
point nor an exponent. -/
structure Number where
  mantissa : Int
  exponent : Int
  deriving DecidableEq, Repr

/-- A JSON value. Objects keep their members in textual order, duplicates included. -/
inductive Json where
  | null
  | bool (b : Bool)
  | num (n : Number)
  | str (s : String)
  | arr (xs : List Json)
  | obj (members : List (String × Json))
  deriving Repr

namespace Json

/-- Folding of one rune of a member name. Only the long s and the Kelvin sign fold into ASCII
besides the lower case letters, and every field name of the protocol is ASCII. -/
def foldRune (c : Char) : Char :=
  if c = '\u017f' then 'S' else if c = '\u212a' then 'K' else c.toUpper

/-- `encoding/json.foldName`. -/
def foldName (s : String) : List Char := s.toList.map foldRune

/-- A field of a Go struct with a `json` tag: how a member of that name is stored. `none` is an
`UnmarshalTypeError`. -/
structure Field (B : Type) where
  name : String
  set : Json → B → Option B

namespace Field

variable {B : Type}

def string (name : String) (put : String → B → B) : Field B where
  name := name
  set
    | .null, b => some b
    | .str s, b => some (put s b)
    | _, _ => none

def bool (name : String) (put : Bool → B → B) : Field B where
  name := name
  set
    | .null, b => some b
    | .bool v, b => some (put v b)
    | _, _ => none

end Field

variable {B : Type}

/-- The field a member name selects: the exact name first, then the case-folded one. -/
def selectField (fields : List (Field B)) (key : String) : Option (Field B) :=
  (fields.find? fun f => f.name == key) <|>
    fields.find? fun f => foldName f.name == foldName key

/-- Decode one object member into the struct, remembering whether every member so far fitted. -/
def unmarshalMember (fields : List (Field B)) (acc : B × Bool) (m : String × Json) : B × Bool :=
  match selectField fields m.1 with
  | none => acc
  | some f =>
      match f.set m.2 acc.1 with
      | some b => (b, acc.2)
      | none => (acc.1, false)

/-- `json.Unmarshal(raw, &body)`: the struct afterwards and whether the call returned no error. -/
def unmarshal (fields : List (Field B)) (zero : B) : Json → B × Bool
  | .null => (zero, true)
  | .obj members => members.foldl (unmarshalMember fields) (zero, true)
  | _ => (zero, false)

/-- `json.Unmarshal` of a raw message that may be absent (an absent one is a syntax error), for
callers that give up on any error. -/
def decode (fields : List (Field B)) (zero : B) : Option Json → Option B
  | none => none
  | some v => if (unmarshal fields zero v).2 then some (unmarshal fields zero v).1 else none

/-- For callers that ignore the error. -/
def decodeLax (fields : List (Field B)) (zero : B) (v : Json) : B := (unmarshal fields zero v).1

-- A key in another case still selects the field, and a misfit member does not stop the decoding.
example :
    unmarshal [Field.string "requestId" fun s (b : String × Bool) => (s, b.2),
        Field.bool "allow" fun v b => (b.1, v)] ("", false)
      (.obj [("REQUESTID", .str "r1"), ("requestId", .num ⟨7, 0⟩), ("allow", .bool true)]) =
    (("r1", true), false) := by decide

end Json

end Harness.Wire
