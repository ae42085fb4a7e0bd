/-
# Harness.Client.PairingForms — `parsePairingPayload`: the two forms of a pairing payload.

A host offers itself as a JSON blob or as a `harness://` URL. For an offer that names its host, or gives an IPv4
address, the two forms parse to the same token, pin and code and lead to the same URL, the one of that host
(`parse_blob`, `parse_link`).

An IPv6 address is a different matter. The hostname of a URL keeps its brackets, and `candidateUrls` puts
brackets around whatever has a colon in it: the URL of such an offer has two pairs, and nothing can be reached
under it.
-/
import Harness.Client.PairingPayload
import Harness.Lib.Url

namespace Harness.Client

open Wire Lib

/-! ## The parser -/

/-- What the runtime brings: `JSON.parse`, `toUpperCase`, and what the URL parser makes of an IPv6 address, its
normal form if it is one. -/
structure Platform where
  parseJson : String → Option Json
  toUpperCase : JsString → JsString
  ipv6 : List Char → Option (List Char)

/-- What is thrown: an `Error` of ours, or what `new URL` throws. -/
inductive PairingError where
  | message (text : String)
  | invalidUrl
  deriving DecidableEq

/-- White space and line ends, as `trim` knows them. -/
def isSpace (c : Char) : Bool :=
  let n := c.toNat
  9 ≤ n && n ≤ 13 || n == 0x20 || n == 0xA0 || n == 0x1680 || 0x2000 ≤ n && n ≤ 0x200A || n == 0x2028 ||
    n == 0x2029 || n == 0x202F || n == 0x205F || n == 0x3000 || n == 0xFEFF

def trim (raw : String) : List Char := (raw.toList.dropWhile isSpace).rdropWhile isSpace

namespace Platform

variable (p : Platform)

/-- `pairingCode`: the 4-character approval code derived from a pairing token. -/
def pairingCode (token : JsString) : JsString := p.toUpperCase (token.take 4)

/-- `typeof a === 'string'`. -/
def stringElement : Json → Option JsString
  | .str s => some (utf16 s)
  | _ => none

/-- A member that is only kept when it is not empty. -/
def nonEmpty (s : String) : Option JsString := if s = "" then none else some (utf16 s)

/-- The JSON blob. -/
def parseBlob (trimmed : List Char) : Except PairingError PairingInfo :=
  match p.parseJson (String.ofList trimmed) with
  | none => .error (.message "pairing payload is not valid JSON")
  | some parsed =>
    match isRecord (.ofJson parsed) with
    | none => .error (.message "pairing payload is not an object")
    | some record =>
      let addrs := (asArray (record.get "addrs")).filterMap stringElement
      let port := asNumber (record.get "port") 0
      let token := asString (record.get "token") ""
      let spki := asString (record.get "spki") ""
      if token = "" then .error (.message "pairing payload is missing a token")
      else if spki = "" then .error (.message "pairing payload is missing an spki pin")
      else if port = 0 then .error (.message "pairing payload is missing a port")
      else
        let code := (nonEmpty (asString (record.get "code") "")).getD (p.pairingCode (utf16 token))
        .ok {
          addrs, port := some (.finite port), token := utf16 token, spki := utf16 spki, code := some code
          scheme := nonEmpty (asString (record.get "scheme") "")
          ws := nonEmpty (asString (record.get "ws") "") }

def linkStart : List Char := "harness://".toList

/-- The `harness://` URL, from what stands behind the `://`. -/
def parseLink (text : List Char) : Except PairingError PairingInfo :=
  match parseUrl p.ipv6 text with
  | none => .error .invalidUrl
  | some url =>
    let param name := (firstValue (parseQuery url.query) name).map String.ofList
    let addrs := if url.hostname = [] then [] else [utf16 (String.ofList url.hostname)]
    let port := url.port.getD 7432
    let token := (param "token".toList).getD ""
    let spki := (param "spki".toList).getD ""
    let scheme := (param "scheme".toList).getD "https"
    if token = "" ∨ spki = "" then .error (.message "pairing URL is missing token or spki")
    else
      .ok {
        addrs, port := some (.finite port), token := utf16 token, spki := utf16 spki
        code := some (p.pairingCode (utf16 token)), scheme := some (utf16 scheme)
        ws := some (utf16 (if scheme = "http" then "ws" else "wss")) }

/-- `parsePairingPayload`. -/
def parsePairingPayload (raw : String) : Except PairingError PairingInfo :=
  let trimmed := trim raw
  if trimmed = [] then .error (.message "empty pairing payload")
  else if trimmed.head? = some '\x7b' then p.parseBlob trimmed
  else if linkStart.isPrefixOf trimmed then p.parseLink (trimmed.drop linkStart.length)
  else .error (.message "unrecognized pairing payload")

end Platform

/-! ## Offers -/

inductive Scheme where
  | http
  | https
  deriving DecidableEq

def Scheme.text : Scheme → String
  | http => "http"
  | https => "https"

/-- The scheme of the websocket. -/
def Scheme.ws : Scheme → String
  | http => "ws"
  | https => "wss"

def isNameChar (c : Char) : Bool := isAlphanumeric c || c = '-' || c = '.' || c = '_'

/-- A DNS name or an IPv4 address. -/
def IsName (host : String) : Prop := host ≠ "" ∧ host.toList.all isNameChar = true

def isAddressChar (c : Char) : Bool := (hexValue c).isSome || c = ':' || c = '.'

/-- An IPv6 address. -/
def IsAddress (p : Platform) (host : String) : Prop :=
  ':' ∈ host.toList ∧ host.toList.all isAddressChar = true ∧ (p.ipv6 host.toList).isSome = true

theorem IsName.unreserved {host : String} (h : IsName host) : ∀ c ∈ host.toList, isUnreserved c = true := by
  intro c hc
  have hname := List.all_eq_true.mp h.2 c hc
  simp only [isNameChar, Bool.or_eq_true, decide_eq_true_eq] at hname
  rcases hname with ((hname | rfl) | rfl) | rfl
  · rw [isUnreserved, hname, Bool.true_or]
  · rfl
  · rfl
  · rfl

theorem IsName.no_colon {host : String} (h : IsName host) : ':' ∉ host.toList := by
  intro hmem
  exact absurd (h.unreserved ':' hmem) (by decide)

/-- What cannot stand in an address. -/
theorem IsAddress.not_mem {p : Platform} {host : String} (h : IsAddress p host) {c : Char}
    (hc : isAddressChar c = false) : c ∉ host.toList := by
  intro hmem
  have haddress := List.all_eq_true.mp h.2.1 c hmem
  rw [hc] at haddress
  cases haddress

/-- **`Offer p`** — what a host offers to be paired with. -/
structure Offer (p : Platform) where
  host : String
  port : Nat
  token : String
  spki : String
  scheme : Scheme
  host_valid : IsName host ∨ IsAddress p host
  port_pos : 1 ≤ port
  port_le : port ≤ 65535
  token_ne : token ≠ ""
  spki_ne : spki ≠ ""

namespace Offer

variable {p : Platform} (o : Offer p)

/-- The host in a URL: an IPv6 address stands in brackets. -/
def hostText : List Char :=
  if ':' ∈ o.host.toList then '[' :: o.host.toList ++ [']'] else o.host.toList

def portText : List Char := Nat.toDigits 10 o.port

/-- The websocket of the host. -/
def endpoint : JsString :=
  utf16 (o.scheme.ws ++ "://" ++ String.ofList o.hostText ++ ":" ++ String.ofList o.portText ++ "/ws")

/-- A member that is not there, or empty. -/
def LeftOut (v : JsValue) : Prop := v = .undefined ∨ v = .str ""

/-- The code of a blob: left to the client, or the one that belongs to the token. -/
def Coded (v : JsValue) : Prop :=
  LeftOut v ∨ ∃ code, v = .str code ∧ utf16 code = p.pairingCode (utf16 o.token)

/-- The websocket's scheme of a blob: left to the client, or the one that belongs to the scheme. -/
def Schemed (v : JsValue) : Prop := LeftOut v ∨ v = .str o.scheme.ws

/-- **`o.Blob raw`** — the offer as a JSON blob. The host writes every member; the code and the websocket's scheme
may be missing. -/
structure Blob (raw : String) : Prop where
  starts : (trim raw).head? = some '\x7b'
  parses : ∃ record : JsRecord, p.parseJson (String.ofList (trim raw)) = some (.obj record) ∧
    record.get "addrs" = .arr [.str o.host] ∧ record.get "port" = .num (.finite o.port) ∧
    record.get "token" = .str o.token ∧ record.get "spki" = .str o.spki ∧
    record.get "scheme" = .str o.scheme.text ∧
    o.Coded (record.get "code") ∧ o.Schemed (record.get "ws")

/-- The parameters of the URL. -/
def params : List (List Char × List Char) :=
  [("token".toList, o.token.toList), ("spki".toList, o.spki.toList), ("scheme".toList, o.scheme.text.toList)]

/-- **`o.Link raw`** — the offer as a URL, its parameters in any order and percent-encoded in any way. -/
def Link (raw : String) : Prop :=
  ∃ params query, params.Perm o.params ∧ QueryText params query ∧
    trim raw = Platform.linkStart ++ (o.hostText ++ ':' :: o.portText ++ '?' :: query)

/-- The URL with `encodeURIComponent` on its parameters. -/
theorem link_encode {raw : String} (h : trim raw = Platform.linkStart ++
    (o.hostText ++ ':' :: o.portText ++ '?' :: encodeQuery o.params)) : o.Link raw :=
  ⟨o.params, encodeQuery o.params, .refl _, .encode _, h⟩

/-- **`o.Agree blob link`** — both forms are accepted, with the same token, pin and code, and the URLs to try are
the same and those of the host. -/
def Agree (blob link : String) : Prop :=
  ∃ a b, p.parsePairingPayload blob = .ok a ∧ p.parsePairingPayload link = .ok b ∧
    a.token = b.token ∧ a.spki = b.spki ∧ a.code = b.code ∧ candidateUrls a = candidateUrls b ∧
    ∀ url ∈ candidateUrls a, url = o.endpoint

end Offer

/-! ## Text -/

theorem utf16_append (s t : String) : utf16 (s ++ t) = utf16 s ++ utf16 t := by
  rw [utf16, String.toList_append, List.flatMap_append]
  rfl

/-- A character that is no part of a surrogate pair is found among the code units. -/
theorem mem_utf16 {c : Char} (h : c.toNat < 0xD800) {s : String} :
    c.toNat.toUInt16 ∈ utf16 s ↔ c ∈ s.toList := by
  have hunits : ∀ d : Char, c.toNat.toUInt16 ∈ utf16Units d ↔ c = d := by
    intro d
    have hd : d.toNat < 0xD800 ∨ 0xDFFF < d.toNat ∧ d.toNat < 0x110000 := d.valid
    unfold utf16Units
    dsimp only
    split
    · rename_i hlow
      rw [List.mem_singleton, ← Char.toNat_inj, ← UInt16.toNat_inj, UInt16.toNat_ofNat', UInt16.toNat_ofNat',
        Nat.mod_eq_of_lt (by omega), Nat.mod_eq_of_lt (by omega)]
    · -- both units of a pair are surrogates, which `c` is not
      rename_i hhigh
      rw [List.mem_pair, ← Char.toNat_inj, ← UInt16.toNat_inj, ← UInt16.toNat_inj, UInt16.toNat_ofNat',
        UInt16.toNat_ofNat', UInt16.toNat_ofNat']
      omega
  rw [utf16, List.mem_flatMap]
  constructor
  · rintro ⟨d, hd, hmem⟩
    rwa [(hunits d).mp hmem]
  · intro hmem
    exact ⟨c, hmem, (hunits c).mpr rfl⟩

/-- The units of one rune are told apart from those of another. -/
theorem utf16Units_append {c d : Char} {us vs : JsString} (h : utf16Units c ++ us = utf16Units d ++ vs) :
    c = d ∧ us = vs := by
  have hc : c.toNat < 0xD800 ∨ 0xDFFF < c.toNat ∧ c.toNat < 0x110000 := c.valid
  have hd : d.toNat < 0xD800 ∨ 0xDFFF < d.toNat ∧ d.toNat < 0x110000 := d.valid
  rw [← Char.toNat_inj]
  unfold utf16Units at h
  dsimp only at h
  split at h <;> split at h
  all_goals
    simp only [List.cons_append, List.nil_append, List.cons.injEq, ← UInt16.toNat_inj, UInt16.toNat_ofNat'] at h
  · exact ⟨by omega, h.2⟩
  · -- a unit that stands alone is no surrogate
    have hunit := h.1
    omega
  · have hunit := h.1
    omega
  · obtain ⟨hhigh, hlow, hrest⟩ := h
    exact ⟨by omega, hrest⟩

theorem utf16Units_ne_nil (c : Char) : utf16Units c ≠ [] := by
  unfold utf16Units
  dsimp only
  split <;> exact List.cons_ne_nil _ _

theorem utf16_injective : Function.Injective utf16 := by
  have hlist : ∀ cs ds : List Char, cs.flatMap utf16Units = ds.flatMap utf16Units → cs = ds := by
    intro cs
    induction cs with
    | nil =>
      intro ds h
      cases ds with
      | nil => rfl
      | cons d ds => exact absurd (List.append_eq_nil_iff.mp h.symm).1 (utf16Units_ne_nil d)
    | cons c cs ih =>
      intro ds h
      cases ds with
      | nil => exact absurd (List.append_eq_nil_iff.mp h).1 (utf16Units_ne_nil c)
      | cons d ds =>
        rw [List.flatMap_cons, List.flatMap_cons] at h
        obtain ⟨rfl, hrest⟩ := utf16Units_append h
        rw [ih ds hrest]
  intro s t h
  exact String.toList_inj.mp (hlist _ _ h)

theorem isIPv6_utf16 (s : String) : isIPv6 (utf16 s) = true ↔ ':' ∈ s.toList := by
  rw [isIPv6, List.contains_iff_mem]
  exact mem_utf16 (c := ':') (by decide)

/-- One address, one URL. -/
theorem candidateUrls_single {info : PairingInfo} {host : JsString} (h : info.addrs = [host]) (path : JsString) :
    candidateUrls info path = [info.urlOf path host] := by
  have hhosts : info.hosts = [host] := by
    rw [PairingInfo.hosts, if_neg (by rw [h]; exact List.cons_ne_nil _ _), h]
  rw [candidateUrls_eq, hhosts, ranking, List.mergeSort_singleton]
  rfl

namespace Offer

variable {p : Platform} (o : Offer p)

/-- The URL of the websocket, for a host as it is put into the URL. -/
def urlFor (literal : JsString) : JsString :=
  utf16 o.scheme.ws ++ utf16 "://" ++ literal ++ utf16 ":" ++ utf16 (String.ofList o.portText) ++ utf16 "/ws"

theorem urlFor_injective : Function.Injective o.urlFor := by
  intro a b heq
  unfold urlFor at heq
  rw [List.append_cancel_right_eq, List.append_cancel_right_eq, List.append_cancel_right_eq,
    List.append_cancel_left_eq] at heq
  exact heq

theorem literal_host : literal (utf16 o.host) = utf16 (String.ofList o.hostText) := by
  unfold literal hostText
  by_cases hcolon : ':' ∈ o.host.toList
  · rw [if_pos ((isIPv6_utf16 o.host).mpr hcolon), if_pos hcolon]
    simp only [utf16, String.toList_ofList, List.flatMap_append, List.flatMap_cons, List.flatMap_nil,
      List.append_nil]
    rfl
  · rw [if_neg (fun h => hcolon ((isIPv6_utf16 o.host).mp h)), if_neg hcolon, String.ofList_toList]

theorem endpoint_eq : o.endpoint = o.urlFor (literal (utf16 o.host)) := by
  rw [endpoint, urlFor, literal_host]
  simp only [utf16_append]

theorem portText_eq : numberString (some (.finite o.port)) = utf16 (String.ofList o.portText) := by
  have hport : o.port < 10 ^ 21 := Nat.lt_of_le_of_lt o.port_le (by norm_num)
  rw [numberString, numberText_short hport]
  rfl

/-- What both forms parse to, but for the address and the `ws` member. -/
structure Reads (info : PairingInfo) (address : JsString) : Prop where
  addrs : info.addrs = [address]
  port : info.port = some (.finite o.port)
  token : info.token = utf16 o.token
  spki : info.spki = utf16 o.spki
  code : info.code = some (p.pairingCode (utf16 o.token))
  wsScheme : info.wsScheme = utf16 o.scheme.ws

theorem Reads.candidateUrls {o : Offer p} {info : PairingInfo} {address : JsString} (h : o.Reads info address) :
    candidateUrls info = [o.urlFor (literal address)] := by
  rw [candidateUrls_single h.addrs, PairingInfo.urlOf, h.wsScheme, h.port, portText_eq]
  rfl

/-! ## The two forms are read -/

theorem nonEmpty_text (scheme : Scheme) : Platform.nonEmpty scheme.text = some (utf16 scheme.text) := by
  cases scheme <;> rfl

theorem wsScheme_text (scheme : Scheme) :
    (if some (utf16 scheme.text) = some (utf16 "http") then utf16 "ws" else utf16 "wss") = utf16 scheme.ws := by
  cases scheme with
  | http => rfl
  | https => exact if_neg (by decide)

theorem LeftOut.nonEmpty {v : JsValue} (h : LeftOut v) : Platform.nonEmpty (asString v "") = none := by
  rcases h with rfl | rfl <;> rfl

/-- The code is the token's, whoever derives it. -/
theorem Coded.code {o : Offer p} {v : JsValue} (h : o.Coded v) :
    (Platform.nonEmpty (asString v "")).getD (p.pairingCode (utf16 o.token)) = p.pairingCode (utf16 o.token) := by
  rcases h with hout | ⟨code, rfl, hcode⟩
  · rw [hout.nonEmpty, Option.getD_none]
  · rw [asString_str, Platform.nonEmpty]
    split
    · rw [Option.getD_none]
    · rw [Option.getD_some, hcode]

/-- The websocket's scheme is the one of the scheme, whoever derives it. -/
theorem Schemed.wsScheme {o : Offer p} {v : JsValue} (h : o.Schemed v) {info : PairingInfo}
    (hws : info.ws = Platform.nonEmpty (asString v "")) (hscheme : info.scheme = some (utf16 o.scheme.text)) :
    info.wsScheme = utf16 o.scheme.ws := by
  unfold PairingInfo.wsScheme
  rcases h with hout | rfl
  · rw [hws, hout.nonEmpty, hscheme]
    exact wsScheme_text o.scheme
  · rw [hws, asString_str]
    cases o.scheme <;> rfl

theorem hostText_name (h : IsName o.host) : o.hostText = o.host.toList := if_neg h.no_colon

theorem hostText_address (h : IsAddress p o.host) : o.hostText = '[' :: o.host.toList ++ [']'] := if_pos h.1

/-- The URL is taken apart again. -/
theorem parseUrl_offer {params : List (List Char × List Char)} {query hostname : List Char}
    (hquery : QueryText params query) (hname : parseHost p.ipv6 o.hostText = some hostname) :
    parseUrl p.ipv6 (o.hostText ++ ':' :: o.portText ++ '?' :: query) = some ⟨hostname, some o.port, query⟩ := by
  have hdigits : ∀ c ∈ o.portText, c.isDigit = true :=
    fun c hc => Nat.isDigit_of_mem_toDigits (by decide) (by decide) hc
  have hport : parsePort o.portText = some (some o.port) := parsePort_toDigits o.port_le
  rcases o.host_valid with h | h
  · rw [hostText_name o h] at hname ⊢
    have hne : o.host.toList ≠ [] := by
      rw [Ne, String.toList_eq_nil_iff]
      exact h.1
    refine parseUrl_text p.ipv6 hne ?_ hdigits hquery.plain (splitPort_plain ?_) hname hport
    · intro c hc
      have hplain := h.unreserved c hc
      refine ⟨(isUnreserved_graphic hplain).1, (isUnreserved_host hplain).1, ?_⟩
      rintro rfl
      exact absurd hplain (by decide)
    · intro c hc
      have hplain := h.unreserved c hc
      refine ⟨?_, ?_, ?_⟩
      all_goals
        rintro rfl
        exact absurd hplain (by decide)
  · rw [hostText_address o h] at hname ⊢
    refine parseUrl_text p.ipv6 (List.cons_ne_nil _ _) ?_ hdigits hquery.plain ?_ hname hport
    · refine List.forall_mem_append.mpr ⟨List.forall_mem_cons.mpr ⟨by decide, fun c hc => ?_⟩,
        List.forall_mem_singleton.mpr (by decide)⟩
      have haddress := List.all_eq_true.mp h.2.1 c hc
      simp only [isAddressChar, Bool.or_eq_true, decide_eq_true_eq] at haddress
      rcases haddress with (hhex | rfl) | rfl
      · obtain ⟨v, hv⟩ := Option.isSome_iff_exists.mp hhex
        have hplain := isUnreserved_of_hexValue hv
        refine ⟨(isUnreserved_graphic hplain).1, (isUnreserved_host hplain).1, ?_⟩
        rintro rfl
        exact absurd hplain (by decide)
      · decide
      · decide
    · refine splitPort_bracketed ?_
      rintro c hc rfl
      exact h.not_mem (by decide) hc

/-- **The blob is read.** -/
theorem parse_blob {raw : String} (h : o.Blob raw) :
    ∃ info, p.parsePairingPayload raw = .ok info ∧ o.Reads info (utf16 o.host) := by
  obtain ⟨record, hparse, haddrs, hport, htoken, hspki, hscheme, hcode, hws⟩ := h.parses
  have hne : trim raw ≠ [] := by
    intro hnil
    have hstarts := h.starts
    rw [hnil] at hstarts
    cases hstarts
  replace htoken : asString (record.get "token") "" = o.token := by rw [htoken, asString_str]
  replace hspki : asString (record.get "spki") "" = o.spki := by rw [hspki, asString_str]
  replace hport : asNumber (record.get "port") 0 = o.port := by rw [hport]; rfl
  replace haddrs : (asArray (record.get "addrs")).filterMap Platform.stringElement = [utf16 o.host] := by
    rw [haddrs]
    rfl
  replace hscheme : Platform.nonEmpty (asString (record.get "scheme") "") = some (utf16 o.scheme.text) := by
    rw [hscheme, asString_str, nonEmpty_text]
  have hport0 : (o.port : ℚ) ≠ 0 := Nat.cast_ne_zero.mpr (Nat.one_le_iff_ne_zero.mp o.port_pos)
  have hparsed : p.parsePairingPayload raw = .ok {
      addrs := [utf16 o.host], port := some (.finite o.port), token := utf16 o.token, spki := utf16 o.spki
      code := some (p.pairingCode (utf16 o.token)), scheme := some (utf16 o.scheme.text)
      ws := Platform.nonEmpty (asString (record.get "ws") "") } := by
    rw [Platform.parsePairingPayload, if_neg hne, if_pos h.starts, Platform.parseBlob, hparse]
    simp only [JsValue.ofJson, isRecord, haddrs, hport, htoken, hspki, hscheme, hcode.code, if_neg o.token_ne,
      if_neg o.spki_ne, if_neg hport0]
  exact ⟨_, hparsed, rfl, rfl, rfl, rfl, rfl, hws.wsScheme rfl rfl⟩

/-- **The URL is read**, up to what becomes of its host. -/
theorem parse_link {raw : String} (h : o.Link raw) {hostname : List Char}
    (hname : parseHost p.ipv6 o.hostText = some hostname) (hne : hostname ≠ []) :
    ∃ info, p.parsePairingPayload raw = .ok info ∧ o.Reads info (utf16 (String.ofList hostname)) := by
  obtain ⟨params, query, hperm, hquery, hraw⟩ := h
  have hnames : (params.map Prod.fst).Nodup :=
    (hperm.map Prod.fst).nodup_iff.mpr
      (by decide : ["token".toList, "spki".toList, "scheme".toList].Nodup)
  have hparam : ∀ {name value}, (name, value) ∈ o.params →
      (firstValue (parseQuery query) name).map String.ofList = some (String.ofList value) := by
    intro name value hmem
    rw [hquery.parse, firstValue_eq hnames (hperm.mem_iff.mpr hmem)]
    rfl
  have htoken := hparam (List.mem_cons_self)
  have hspki := hparam (List.mem_cons_of_mem _ List.mem_cons_self)
  have hscheme := hparam (List.mem_cons_of_mem _ (List.mem_cons_of_mem _ List.mem_cons_self))
  rw [String.ofList_toList] at htoken hspki hscheme
  have hurl := o.parseUrl_offer hquery hname
  have hstart : Platform.linkStart.isPrefixOf (trim raw) = true := by
    rw [hraw, List.isPrefixOf_iff_prefix]
    exact List.prefix_append _ _
  -- of the branches of the parser only the one of the URL is left
  have hbrace : (trim raw).head? ≠ some '\x7b' := by
    rw [hraw]
    exact (by decide : some 'h' ≠ some '\x7b')
  have hempty : trim raw ≠ [] := by
    rw [hraw]
    exact List.cons_ne_nil _ _
  have hparsed : p.parsePairingPayload raw = .ok {
      addrs := [utf16 (String.ofList hostname)], port := some (.finite o.port), token := utf16 o.token
      spki := utf16 o.spki, code := some (p.pairingCode (utf16 o.token)), scheme := some (utf16 o.scheme.text)
      ws := some (utf16 o.scheme.ws) } := by
    have hws : (if o.scheme.text = "http" then "ws" else "wss") = o.scheme.ws := by
      cases o.scheme <;> rfl
    rw [Platform.parsePairingPayload, if_neg hempty, if_neg hbrace, if_pos hstart, hraw, List.drop_left,
      Platform.parseLink, hurl]
    simp only [htoken, hspki, hscheme, hws, Option.getD_some, if_neg hne, o.token_ne, o.spki_ne, or_self,
      if_false]
  exact ⟨_, hparsed, rfl, rfl, rfl, rfl, rfl, rfl⟩

/-! ## Where the forms agree -/

/-- **A name is the same in both forms.** -/
theorem agree_of_name {blob link : String} (hname : IsName o.host) (hblob : o.Blob blob) (hlink : o.Link link) :
    o.Agree blob link := by
  have hhost : parseHost p.ipv6 o.hostText = some o.host.toList := by
    rw [hostText_name o hname]
    exact parseHost_plain p.ipv6 fun c hc => (isUnreserved_host (hname.unreserved c hc)).2
  have hne : o.host.toList ≠ [] := by
    rw [Ne, String.toList_eq_nil_iff]
    exact hname.1
  obtain ⟨a, ha, hareads⟩ := o.parse_blob hblob
  obtain ⟨b, hb, hbreads⟩ := o.parse_link hlink hhost hne
  rw [String.ofList_toList] at hbreads
  refine ⟨a, b, ha, hb, ?_, ?_, ?_, ?_, ?_⟩
  · rw [hareads.token, hbreads.token]
  · rw [hareads.spki, hbreads.spki]
  · rw [hareads.code, hbreads.code]
  · rw [hareads.candidateUrls, hbreads.candidateUrls]
  · rw [hareads.candidateUrls, endpoint_eq]
    exact fun url hurl => List.mem_singleton.mp hurl

/-- **An address is not**: the hostname of the URL is not the host. -/
theorem not_agree_of_address {blob link : String} (haddress : IsAddress p o.host) (hblob : o.Blob blob)
    (hlink : o.Link link) : ¬ o.Agree blob link := by
  obtain ⟨read, hread⟩ := Option.isSome_iff_exists.mp haddress.2.2
  have hhost : parseHost p.ipv6 o.hostText = some ('[' :: read ++ [']']) := by
    rw [hostText_address o haddress]
    exact parseHost_bracketed p.ipv6 hread
  obtain ⟨a, ha, hareads⟩ := o.parse_blob hblob
  obtain ⟨b, hb, hbreads⟩ := o.parse_link hlink hhost (List.cons_ne_nil _ _)
  rintro ⟨a', b', ha', hb', -, -, -, hurls, -⟩
  cases ha.symm.trans ha'
  cases hb.symm.trans hb'
  rw [hareads.candidateUrls, hbreads.candidateUrls] at hurls
  -- one URL would mean one address, and the address of the link starts with a bracket
  have hliteral := o.urlFor_injective (List.singleton_inj.mp hurls)
  have hsame := literal_injective hliteral
  have hopen : '[' ∈ o.host.toList := by
    rw [← mem_utf16 (by decide), hsame, mem_utf16 (by decide), String.toList_ofList]
    exact List.mem_cons_self
  exact haddress.not_mem (by decide) hopen

end Offer

/-- **The two forms agree exactly for a host that is not an IPv6 address.** -/
theorem forms_agree_iff {p : Platform} (o : Offer p) {blob link : String} (hblob : o.Blob blob)
    (hlink : o.Link link) : o.Agree blob link ↔ IsName o.host := by
  constructor
  · intro hagree
    exact o.host_valid.resolve_right fun haddress => o.not_agree_of_address haddress hblob hlink hagree
  · exact fun hname => o.agree_of_name hname hblob hlink

/-! A host of the local network, and one that is reached over IPv6. -/

def sampleRecord (host : String) : JsRecord :=
  [("addrs", .arr [.str host]), ("port", .num ⟨7432, 0⟩), ("token", .str "abcdef012345"),
    ("spki", .str "dead+beef="), ("code", .str "ABCD"), ("scheme", .str "https"), ("ws", .str "wss")]

def sampleBlob (host : String) : String :=
  "\x7b\"addrs\":[\"" ++ host ++ "\"],\"port\":7432,\"token\":\"abcdef012345\"," ++
    "\"spki\":\"dead+beef=\",\"code\":\"ABCD\",\"scheme\":\"https\",\"ws\":\"wss\"\x7d"

def sampleLink (hostText : String) : String :=
  "harness://" ++ hostText ++ ":7432?token=abcdef012345&spki=dead%2Bbeef%3D&scheme=https"

/-- A runtime, as far as the samples ask it. -/
def samplePlatform : Platform where
  parseJson text :=
    if text = sampleBlob "192.168.1.20" then some (.obj (sampleRecord "192.168.1.20"))
    else if text = sampleBlob "::1" then some (.obj (sampleRecord "::1"))
    else none
  toUpperCase s := s.map fun u => if 97 ≤ u && u ≤ 122 then u - 32 else u
  ipv6 address := if address = "::1".toList then some address else none

def localHost : Offer samplePlatform where
  host := "192.168.1.20"
  port := 7432
  token := "abcdef012345"
  spki := "dead+beef="
  scheme := .https
  host_valid := .inl ⟨by decide, by decide⟩
  port_pos := by decide
  port_le := by decide
  token_ne := by decide
  spki_ne := by decide

def loopbackHost : Offer samplePlatform :=
  { localHost with host := "::1", host_valid := .inr ⟨by decide, by decide, by decide⟩ }

theorem sampleRecord_port (host : String) : (sampleRecord host).get "port" = .num (.finite (7432 : ℕ)) :=
  congrArg JsValue.num (JsNumber.ofLiteral_natCast (n := 7432) (by norm_num))

theorem sampleRecord_code {o : Offer samplePlatform} (host : String) (htoken : o.token = "abcdef012345") :
    o.Coded ((sampleRecord host).get "code") := by
  refine .inr ⟨"ABCD", rfl, ?_⟩
  rw [htoken]
  decide

theorem localHost_blob : localHost.Blob (sampleBlob "192.168.1.20") where
  starts := by decide +kernel
  parses := by
    have htrim : String.ofList (trim (sampleBlob "192.168.1.20")) = sampleBlob "192.168.1.20" := by
      decide +kernel
    refine ⟨sampleRecord "192.168.1.20", ?_, rfl, sampleRecord_port _, rfl, rfl, rfl,
      sampleRecord_code _ rfl, .inr rfl⟩
    simp only [samplePlatform, htrim, if_true]

theorem loopbackHost_blob : loopbackHost.Blob (sampleBlob "::1") where
  starts := by decide +kernel
  parses := by
    have htrim : String.ofList (trim (sampleBlob "::1")) = sampleBlob "::1" := by decide +kernel
    have hne : sampleBlob "::1" ≠ sampleBlob "192.168.1.20" := by decide +kernel
    refine ⟨sampleRecord "::1", ?_, rfl, sampleRecord_port _, rfl, rfl, rfl, sampleRecord_code _ rfl, .inr rfl⟩
    simp only [samplePlatform, htrim, hne, if_true, if_false]

theorem forms_agree_iff_localHost : localHost.Agree (sampleBlob "192.168.1.20") (sampleLink "192.168.1.20") :=
  (forms_agree_iff localHost localHost_blob (localHost.link_encode (by decide))).mpr ⟨by decide, by decide⟩

/-- Over IPv6 the two forms lead to different URLs: the URL of the link has its brackets twice. -/
theorem loopbackHost_disagrees :
    loopbackHost.Blob (sampleBlob "::1") ∧ loopbackHost.Link (sampleLink "[::1]") ∧
      ¬ loopbackHost.Agree (sampleBlob "::1") (sampleLink "[::1]") ∧
      ∃ b, samplePlatform.parsePairingPayload (sampleLink "[::1]") = .ok b ∧
        candidateUrls b = [utf16 "wss://[[::1]]:7432/ws"] := by
  have hlink : loopbackHost.Link (sampleLink "[::1]") := loopbackHost.link_encode (by decide)
  have hhost : parseHost samplePlatform.ipv6 loopbackHost.hostText = some "[::1]".toList := by decide
  obtain ⟨b, hb, hreads⟩ := loopbackHost.parse_link hlink hhost (by decide)
  refine ⟨loopbackHost_blob, hlink, ?_, b, hb, ?_⟩
  · exact loopbackHost.not_agree_of_address ⟨by decide, by decide, by decide⟩ loopbackHost_blob hlink
  · rw [hreads.candidateUrls]
    decide

end Harness.Client
