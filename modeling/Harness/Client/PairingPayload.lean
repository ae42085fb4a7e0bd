/-
# Harness.Client.PairingPayload — `pairing.ts`: where a host can be reached.

`candidateUrls` ranks the addresses of a host, renders them as URLs and drops the repeated ones. Two hosts never
have one URL (`urlOf_injective`), so what is dropped are the repeated addresses, and the result is the ranking of
the addresses: each once, the better ranks first, and within a rank in the order of the payload.

Strings are sequences of UTF-16 code units here, so that an address can be anything a script can put there.
-/
import Harness.Client.Value
import Harness.Lib.NumberText
import Harness.Lib.Ranking

namespace Harness.Client

open Lib

/-! ## Hosts -/

/-- `\d`. -/
def isDigitUnit (u : UInt16) : Bool := 48 ≤ u && u ≤ 57

/-- `Number` of a row of digits. -/
def digitsValue (digits : JsString) : Nat := digits.foldl (fun n u => 10 * n + (u.toNat - 48)) 0

/-- `/^\d{1,3}(\.\d{1,3}){3}$/`. -/
def isIPv4 (host : JsString) : Bool :=
  let parts := host.splitOn 46
  parts.length = 4 && parts.all fun part => 1 ≤ part.length && part.length ≤ 3 && part.all isDigitUnit

/-- `host.includes(':')`. -/
def isIPv6 (host : JsString) : Bool := host.contains 58

/-- `toLowerCase`, as far as the comparisons below can tell: no other letter becomes one of theirs. -/
def toLowerUnit (u : UInt16) : UInt16 := if 65 ≤ u && u ≤ 90 then u + 32 else u

/-- `rankHost`: tailnet (CGNAT) first, then RFC1918, then public, then loopback. -/
def rankHost (host : JsString) : Nat :=
  if isIPv4 host then
    match (host.splitOn 46).map digitsValue with
    | a :: b :: _ =>
        if a = 100 ∧ 64 ≤ b ∧ b ≤ 127 then 0
        else if a = 10 then 1
        else if a = 172 ∧ 16 ≤ b ∧ b ≤ 31 then 1
        else if a = 192 ∧ b = 168 then 1
        else if a = 127 then 3
        else 2
    | _ => 2
  else if isIPv6 host then
    let lower := host.map toLowerUnit
    if lower = utf16 "::1" then 3
    else if (utf16 "fc").isPrefixOf lower || (utf16 "fd").isPrefixOf lower then 1
    else 2
  -- hostnames are as good as RFC1918
  else 1

/-! ## Candidates -/

/-- `PairingInfo`; a port that is `NaN` is `none`. -/
structure PairingInfo where
  addrs : List JsString
  port : Option JsNumber
  token : JsString
  spki : JsString
  code : Option JsString := none
  scheme : Option JsString := none
  ws : Option JsString := none
  deriving DecidableEq

/-- A number in a template literal. -/
def numberString : Option JsNumber → JsString
  | none => utf16 "NaN"
  | some (.finite q) => utf16 (numberText q)
  | some (.infinite negative) => utf16 (if negative then "-Infinity" else "Infinity")

/-- An IPv6 address is put in brackets. -/
def literal (host : JsString) : JsString := if isIPv6 host then 91 :: host ++ [93] else host

namespace PairingInfo

variable (info : PairingInfo)

/-- The scheme of the candidates. -/
def wsScheme : JsString :=
  match info.ws with
  | some ws => ws
  | none => if info.scheme = some (utf16 "http") then utf16 "ws" else utf16 "wss"

def hosts : List JsString := if info.addrs = [] then [utf16 "localhost"] else info.addrs

/-- The URL of a host. -/
def urlOf (path host : JsString) : JsString :=
  info.wsScheme ++ utf16 "://" ++ literal host ++ utf16 ":" ++ numberString info.port ++ path

end PairingInfo

/-- `candidateUrls`: the ordered list of websocket URLs to try. `sort` is stable. -/
def candidateUrls (info : PairingInfo) (path : JsString := utf16 "/ws") : List JsString :=
  let ranked := info.hosts.mergeSort fun a b => decide (rankHost a ≤ rankHost b)
  (ranked.map (info.urlOf path)).foldl pushNew []

theorem literal_injective : Function.Injective literal := by
  -- what is put in brackets still has its colon, so it is no host without one
  have hplain : ∀ {a b : JsString}, isIPv6 a = true → ¬ isIPv6 b = true → literal a ≠ literal b := by
    intro a b ha hb heq
    rw [literal, literal, if_pos ha, if_neg hb] at heq
    refine hb ?_
    rw [isIPv6, List.contains_iff_mem] at ha ⊢
    rw [← heq]
    exact List.mem_append_left _ (List.mem_cons_of_mem _ ha)
  intro a b heq
  by_cases ha : isIPv6 a = true
  · by_cases hb : isIPv6 b = true
    · rw [literal, literal, if_pos ha, if_pos hb] at heq
      exact (List.cons.inj (List.append_cancel_right heq)).2
    · exact absurd heq (hplain ha hb)
  · by_cases hb : isIPv6 b = true
    · exact absurd heq.symm (hplain hb ha)
    · rwa [literal, literal, if_neg ha, if_neg hb] at heq

/-- **Two hosts have two URLs.** -/
theorem urlOf_injective (info : PairingInfo) (path : JsString) : Function.Injective (info.urlOf path) := by
  intro a b heq
  unfold PairingInfo.urlOf at heq
  rw [List.append_cancel_right_eq, List.append_cancel_right_eq, List.append_cancel_right_eq,
    List.append_cancel_left_eq] at heq
  exact literal_injective heq

/-- The repeated URLs are those of the repeated addresses. -/
theorem candidateUrls_eq (info : PairingInfo) (path : JsString) :
    candidateUrls info path = (ranking rankHost info.hosts).map (info.urlOf path) := by
  unfold candidateUrls
  dsimp only
  rw [foldl_pushNew, List.nil_append, List.filter_eq_self.mpr (by simp), eraseDups_map (urlOf_injective info path)]
  rfl

/-- **A ranking of the addresses, each once**: the URLs differ, they are those of the addresses, and they are
ordered by rank, within a rank by the first occurrence of the address. -/
theorem candidateUrls_ranked (info : PairingInfo) (path : JsString) :
    (candidateUrls info path).Nodup ∧
      (∀ host, info.urlOf path host ∈ candidateUrls info path ↔ host ∈ info.hosts) ∧
      ∃ ranked : List JsString, candidateUrls info path = ranked.map (info.urlOf path) ∧
        ranked.Pairwise fun a b => rankHost a < rankHost b ∨
          (rankHost a = rankHost b ∧ info.hosts.idxOf a < info.hosts.idxOf b) := by
  have hinj := urlOf_injective info path
  rw [candidateUrls_eq]
  refine ⟨(ranking_nodup rankHost info.hosts).map hinj, fun host => ?_, _, rfl, ?_⟩
  · rw [List.mem_map_of_injective hinj, mem_ranking]
  · exact (ranking_pairwise rankHost info.hosts).imp fun h =>
      h.imp_right fun ⟨heq, hearlier⟩ => ⟨heq, hearlier.idxOf_lt⟩

end Harness.Client
