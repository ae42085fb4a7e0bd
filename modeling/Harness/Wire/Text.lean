/-
# Harness.Wire.Text — the string functions of the Go standard library the daemon uses.

Only the behaviour the daemon can observe is kept: lower-casing is exact on the runes whose lower
case is ASCII, because every use compares the result with ASCII words.
-/
import Mathlib.Data.List.Infix

namespace Harness.Wire.Text

/-- `unicode.IsSpace`. -/
def isSpace (c : Char) : Bool :=
  c ∈ ['\t', '\n', '\u000b', '\u000c', '\r', ' ', '\u0085', '\u00a0', '\u1680', '\u2028', '\u2029',
    '\u202f', '\u205f', '\u3000'] || ('\u2000' ≤ c && c ≤ '\u200a')

/-- `strings.TrimSpace`. -/
def trimSpace (s : String) : String :=
  String.ofList (((s.toList.dropWhile isSpace).reverse.dropWhile isSpace).reverse)

/-- `strings.Fields`. -/
def fields (s : String) : List String :=
  ((s.toList.splitOnP isSpace).filter fun w => !w.isEmpty).map String.ofList

/-- `unicode.ToLower`, where the result is ASCII. -/
def lowerRune (c : Char) : Char :=
  if c = '\u0130' then 'i' else if c = '\u212a' then 'k' else c.toLower

/-- `strings.ToLower`. -/
def toLower (s : String) : String := String.ofList (s.toList.map lowerRune)

/-- `strings.TrimPrefix`. -/
def trimPrefix (s pre : String) : String :=
  if pre.toList.isPrefixOf s.toList then String.ofList (s.toList.drop pre.length) else s

/-- `s[:n]` on the UTF-8 bytes of `s`; the bytes of a rune cut in half read as U+FFFD. -/
def takeBytes : Nat → List Char → List Char
  | _, [] => []
  | n, c :: cs =>
      if c.utf8Size ≤ n then c :: takeBytes (n - c.utf8Size) cs else List.replicate n '\ufffd'

/-- The shape `nameFromUserAgent` has in the hub and in the console: the first row with a word that
occurs in the lower-cased agent names the device, otherwise the agent itself does, cut at 32 bytes. -/
def nameFromTable (rows : List (List String × String)) (userAgent : String) : String :=
  let ua := trimSpace userAgent
  if ua = "" then "device"
  else
    let lower := (toLower ua).toList
    match rows.find? fun row => row.1.any fun w => decide (w.toList <:+: lower) with
    | some row => row.2
    | none => if 32 < ua.utf8ByteSize then String.ofList (takeBytes 32 ua.toList) else ua

/-- The platforms both versions of `nameFromUserAgent` recognise, in order. -/
def platforms : List (List String × String) :=
  [(["android"], "Android"), (["iphone", "ipad"], "iOS"), (["chrome"], "Chrome"),
    (["firefox"], "Firefox"), (["safari"], "Safari")]

end Harness.Wire.Text
