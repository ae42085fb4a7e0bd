/-
# Harness.Qr — what the host prints, and where it leads the phone that scans it.

`serve` and `pair --qr` print a pairing token, the pin of the host's key and the addresses of the host as one
JSON text, in letters and as a QR code. The phone reads it with `parsePairingPayload` and dials what
`candidateUrls` makes of it. Here the two ends are put together: the text is read as it was written, whatever
the `--bind` value has in it (`scan_printed`), the URLs are those of the addresses, and where the host listens
on every interface each of them is one it is reached on (`dialled_listens`).
-/
import Harness.Auth
import Harness.Client.PairingForms
import Harness.Listen
import Harness.Wire.JsonText

namespace Harness.Qr

open Wire Listen
open Client (JsString JsRecord utf16)

/-! ## What is printed -/

/-- `auth.ApprovalCode`, of a token, which is hexadecimal text. -/
def approvalCode (token : String) : String := String.ofList ((token.toList.take 4).map Char.toUpper)

/-- `pairingInfo`. -/
structure PairingInfo where
  addrs : List String
  port : UInt16
  token : String
  spki : String
  code : String
  scheme : String
  ws : String
  deriving DecidableEq

def mustAdvertisedAddrs (m : Machine) (bind : String) : List String :=
  (advertisedAddrs m bind).getD ["127.0.0.1"]

/-- The payload of `serveCmd`, unless `--insecure-http` is refused. -/
def serveInfo (m : Machine) (bind : String) (port : UInt16) (insecureHTTP : Bool) (token spki : String) :
    Except BindError PairingInfo :=
  let addrs := mustAdvertisedAddrs m bind
  if insecureHTTP then
    match validateInsecureBind addrs with
    | .error err => .error err
    | .ok _ => .ok ⟨addrs, port, token, spki, approvalCode token, "http", "ws"⟩
  else .ok ⟨addrs, port, token, spki, approvalCode token, "https", "wss"⟩

/-- The payload of `pairCmd --qr`. -/
def qrInfo (m : Machine) (bind : String) (port : UInt16) (token spki : String) : PairingInfo :=
  ⟨mustAdvertisedAddrs m bind, port, token, spki, approvalCode token, "https", "wss"⟩

namespace PairingInfo

variable (info : PairingInfo)

def members : List (String × Json) :=
  [("addrs", .arr (info.addrs.map .str)), ("port", .int info.port.toNat), ("token", .str info.token),
    ("spki", .str info.spki), ("code", .str info.code), ("scheme", .str info.scheme), ("ws", .str info.ws)]

/-- The JSON text that is printed, and encoded in the QR code. -/
def printed : List Char := Json.text goEscape (.obj info.members)

/-! ## What is read -/

/-- What the phone takes the payload for. -/
def read : Client.PairingInfo where
  addrs := info.addrs.map utf16
  port := some (.finite info.port.toNat)
  token := utf16 info.token
  spki := utf16 info.spki
  code := some (utf16 info.code)
  scheme := some (utf16 info.scheme)
  ws := some (utf16 info.ws)

/-- The URL of an address. -/
def url (addr : String) : JsString :=
  utf16 info.ws ++ utf16 "://" ++ Client.literal (utf16 addr) ++ utf16 ":" ++
    utf16 (String.ofList (Nat.toDigits 10 info.port.toNat)) ++ utf16 "/ws"

/-- Nothing that the phone asks for is empty. -/
structure Complete : Prop where
  addrs : info.addrs ≠ []
  port : info.port ≠ 0
  token : info.token ≠ ""
  spki : info.spki ≠ ""
  code : info.code ≠ ""
  scheme : info.scheme ≠ ""
  ws : info.ws ≠ ""

end PairingInfo

/-- A runtime with the `JSON.parse` of the language. -/
def scanner (p : Client.Platform) : Client.Platform :=
  { p with parseJson := fun text => Json.parse text.toList }

/-! ## The text is read as it was written -/

section
variable {info : PairingInfo}

theorem stringElements (addrs : List String) :
    (addrs.map Json.str).filterMap Client.Platform.stringElement = addrs.map utf16 := by
  rw [List.filterMap_map]
  induction addrs with
  | nil => rfl
  | cons a addrs ih => rw [List.filterMap_cons, Function.comp_apply, Client.Platform.stringElement, ih]; rfl

theorem port_pos (h : info.port ≠ 0) : info.port.toNat ≠ 0 := by
  intro hzero
  exact h (UInt16.toNat_inj.mp hzero)

theorem get_port : Client.asNumber (JsRecord.get info.members "port") 0 = (info.port.toNat : ℚ) := by
  have hsmall : info.port.toNat < 2 ^ 63 := Nat.lt_trans info.port.toNat_lt (by norm_num)
  have hnum : JsRecord.get info.members "port" = .num (.finite info.port.toNat) :=
    congrArg Client.JsValue.num (Client.JsNumber.ofLiteral_natCast hsmall)
  rw [hnum]
  rfl

theorem nonEmpty_str {s : String} (h : s ≠ "") : Client.Platform.nonEmpty s = some (utf16 s) := if_neg h

/-- **The payload is read as it was printed**, with any white space around it. -/
theorem scan_printed (p : Client.Platform) (h : info.Complete) {text : String}
    (htext : Client.trim text = info.printed) : (scanner p).parsePairingPayload text = .ok info.read := by
  have hopens : info.printed.head? = some '\x7b' := rfl
  have hne : info.printed ≠ [] := by
    intro hnil
    rw [hnil] at hopens
    cases hopens
  have hparse : (scanner p).parseJson (String.ofList info.printed) = some (.obj info.members) := by
    show Json.parse (String.ofList info.printed).toList = _
    rw [String.toList_ofList]
    exact Json.parse_text Json.goEscape_writer _
  -- every member is found under its name
  have haddrs : (Client.asArray (JsRecord.get info.members "addrs")).filterMap Client.Platform.stringElement =
      info.addrs.map utf16 := stringElements info.addrs
  have htoken : Client.asString (JsRecord.get info.members "token") "" = info.token := rfl
  have hspki : Client.asString (JsRecord.get info.members "spki") "" = info.spki := rfl
  have hcode : Client.asString (JsRecord.get info.members "code") "" = info.code := rfl
  have hscheme : Client.asString (JsRecord.get info.members "scheme") "" = info.scheme := rfl
  have hws : Client.asString (JsRecord.get info.members "ws") "" = info.ws := rfl
  have hport : (info.port.toNat : ℚ) ≠ 0 := Nat.cast_ne_zero.mpr (port_pos h.port)
  rw [Client.Platform.parsePairingPayload, htext, if_neg hne, if_pos hopens, Client.Platform.parseBlob, hparse]
  simp only [Client.JsValue.ofJson, Client.isRecord, haddrs, get_port, htoken, hspki, hcode, hscheme, hws,
    if_neg h.token, if_neg h.spki, if_neg hport, nonEmpty_str h.code, nonEmpty_str h.scheme, nonEmpty_str h.ws,
    Option.getD_some]
  rfl

/-- What is printed has no white space around it. -/
theorem trim_printed : Client.trim (String.ofList info.printed) = info.printed := by
  obtain ⟨body, hbody⟩ : ∃ body, info.printed = '\x7b' :: body ++ ['\x7d'] := ⟨_, rfl⟩
  rw [Client.trim, String.toList_ofList, hbody, List.cons_append, List.dropWhile_cons_of_neg (by decide)]
  rw [← List.cons_append, List.rdropWhile_concat_neg _ _ _ (by decide)]

/-! ## Where it leads -/

theorem urlOf_read (addr : String) : info.read.urlOf (utf16 "/ws") (utf16 addr) = info.url addr := by
  have hport : info.port.toNat < 10 ^ 21 := Nat.lt_trans info.port.toNat_lt (by norm_num)
  have hnumber : Client.numberString info.read.port =
      utf16 (String.ofList (Nat.toDigits 10 info.port.toNat)) := by
    show utf16 (Lib.numberText (info.port.toNat : ℚ)) = _
    rw [Lib.numberText_short hport]
  rw [Client.PairingInfo.urlOf, hnumber]
  rfl

/-- **The phone dials the addresses of the payload**, each once. -/
theorem candidates (h : info.Complete) :
    (Client.candidateUrls info.read).Nodup ∧
      ∀ url, url ∈ Client.candidateUrls info.read ↔ ∃ a ∈ info.addrs, url = info.url a := by
  obtain ⟨hnodup, hmem, ranked, hranked, -⟩ := Client.candidateUrls_ranked info.read (utf16 "/ws")
  have hhosts : info.read.hosts = info.addrs.map utf16 := if_neg fun hnil => h.addrs (List.map_eq_nil_iff.mp hnil)
  refine ⟨hnodup, fun url => ⟨fun hurl => ?_, ?_⟩⟩
  · -- a candidate is the URL of some host, and a host is an address of the payload
    rw [hranked] at hurl
    obtain ⟨host, hhost, rfl⟩ := List.mem_map.mp hurl
    have hfrom := (hmem host).mp (by rw [hranked]; exact List.mem_map_of_mem hhost)
    rw [hhosts] at hfrom
    obtain ⟨a, ha, rfl⟩ := List.mem_map.mp hfrom
    exact ⟨a, ha, urlOf_read a⟩
  · rintro ⟨a, ha, rfl⟩
    rw [← urlOf_read]
    apply (hmem _).mpr
    rw [hhosts]
    exact List.mem_map_of_mem ha

end

/-! ## What the host advertises -/

section
variable {m : Machine} {bind : String}

/-- The addresses of the machine, and the `--bind` value in front if it is one. -/
theorem mem_advertised {a : String} (h : a ∈ mustAdvertisedAddrs m bind) :
    a = "127.0.0.1" ∨ (∃ ip ∈ m.lan, a = ip.string) ∨ (everyInterface bind = false ∧ a = bind) := by
  unfold mustAdvertisedAddrs advertisedAddrs at h
  cases hlan : lanIPs m with
  | none =>
      rw [hlan] at h
      exact .inl (List.mem_singleton.mp h)
  | some addrs =>
      rw [hlan] at h
      have hfound : ∀ a ∈ addrs, a = "127.0.0.1" ∨ ∃ ip ∈ m.lan, a = ip.string := by
        intro a ha
        unfold lanIPs at hlan
        split at hlan
        · obtain rfl := Option.some.inj hlan
          split at ha
          · exact .inl (List.mem_singleton.mp ha)
          · obtain ⟨ip, hip, rfl⟩ := List.mem_map.mp ha
            exact .inr ⟨ip, hip, rfl⟩
        · cases hlan
      rw [Option.map_some, Option.getD_some] at h
      split at h
      · exact (hfound a h).imp_right .inl
      · rename_i hbind
        rcases List.mem_cons.mp h with rfl | h
        · exact .inr (.inr ⟨Bool.eq_false_iff.mpr hbind, rfl⟩)
        · exact (hfound a h).imp_right .inl

theorem lanIPs_ne_nil {addrs : List String} (h : lanIPs m = some addrs) : addrs ≠ [] := by
  unfold lanIPs at h
  split at h
  · obtain rfl := Option.some.inj h
    split
    · exact List.cons_ne_nil _ _
    · assumption
  · cases h

theorem advertised_ne_nil : mustAdvertisedAddrs m bind ≠ [] := by
  unfold mustAdvertisedAddrs advertisedAddrs
  cases hlan : lanIPs m with
  | none => exact List.cons_ne_nil _ _
  | some addrs =>
      rw [Option.map_some, Option.getD_some]
      split
      · exact lanIPs_ne_nil hlan
      · exact List.cons_ne_nil _ _

/-- An address that `LANIPs` finds is one the machine is reached on. -/
theorem lan_local {ip : Net.IP} (h : ip ∈ m.lan) : ∃ l ∈ m.locals, Net.equal ip l = true := by
  obtain ⟨i, hi, hip⟩ := List.mem_flatMap.mp h
  unfold Interface.lan at hip
  split at hip
  · cases hip
  · rename_i hup
    split at hip
    · cases hip
    · split at hip
      · cases hip
      · obtain ⟨a, ha, haddr⟩ := List.mem_filterMap.mp hip
        cases a with
        | ipNet l =>
            have hlocal : l ∈ i.locals := by
              rw [Interface.locals, if_pos (by simpa using hup)]
              exact List.mem_map_of_mem (f := Addr.ip) ha
            refine ⟨l, List.mem_flatMap.mpr ⟨i, hi, hlocal⟩, ?_⟩
            -- the four bytes are those of the address
            exact Net.equal_to4 haddr (Net.equal_refl l)
        | other l => cases haddr

end

/-! ## From the host to the listener -/

/-- What `serve` or `pair --qr` prints for a token and a pin. -/
inductive Printed (m : Machine) (bind : String) (port : UInt16) (token spki : String) : PairingInfo → Prop
  | serve {insecureHTTP : Bool} {info : PairingInfo}
      (h : serveInfo m bind port insecureHTTP token spki = .ok info) : Printed m bind port token spki info
  | qr : Printed m bind port token spki (qrInfo m bind port token spki)

section
variable {m : Machine} {bind : String} {port : UInt16} {token spki : String} {info : PairingInfo}

theorem serveInfo_ok {insecureHTTP : Bool} (h : serveInfo m bind port insecureHTTP token spki = .ok info) :
    info = qrInfo m bind port token spki ∨
      (info = { qrInfo m bind port token spki with scheme := "http", ws := "ws" } ∧ insecureHTTP = true ∧
        validateInsecureBind (mustAdvertisedAddrs m bind) = .ok ()) := by
  unfold serveInfo at h
  cases insecureHTTP with
  | false => exact .inl (Except.ok.inj h).symm
  | true =>
      dsimp only at h
      rw [if_pos rfl] at h
      split at h
      · cases h
      · rename_i hok
        exact .inr ⟨(Except.ok.inj h).symm, rfl, hok⟩

/-- What is printed, but for the two schemes. -/
theorem Printed.fields (h : Printed m bind port token spki info) :
    ∃ scheme ws, info = { qrInfo m bind port token spki with scheme, ws } ∧ scheme ≠ "" ∧ ws ≠ "" ∧
      (ws = "wss" ∨ (ws = "ws" ∧ validateInsecureBind (mustAdvertisedAddrs m bind) = .ok ())) := by
  have hsecure : ∃ scheme ws, qrInfo m bind port token spki = { qrInfo m bind port token spki with scheme, ws } ∧
      scheme ≠ "" ∧ ws ≠ "" ∧
      (ws = "wss" ∨ (ws = "ws" ∧ validateInsecureBind (mustAdvertisedAddrs m bind) = .ok ())) :=
    ⟨"https", "wss", rfl, by decide, by decide, .inl rfl⟩
  cases h with
  | qr => exact hsecure
  | serve h =>
      rcases serveInfo_ok h with rfl | ⟨rfl, -, hok⟩
      · exact hsecure
      · exact ⟨"http", "ws", rfl, by decide, by decide, .inr ⟨rfl, hok⟩⟩

theorem approvalCode_ne (h : token ≠ "") : approvalCode token ≠ "" := by
  intro hcode
  have hnil := congrArg String.toList hcode
  rw [approvalCode, String.toList_ofList, String.toList_empty, List.map_eq_nil_iff, List.take_eq_nil_iff] at hnil
  rcases hnil with hzero | hnil
  · omega
  · exact h (String.toList_eq_nil_iff.mp hnil)

theorem Printed.complete (h : Printed m bind port token spki info) (hport : port ≠ 0) (htoken : token ≠ "")
    (hspki : spki ≠ "") : info.Complete := by
  obtain ⟨scheme, ws, rfl, hscheme, hws, -⟩ := h.fields
  exact ⟨advertised_ne_nil, hport, htoken, hspki, approvalCode_ne htoken, hscheme, hws⟩

theorem hexText_ne {bs : List UInt8} (h : bs ≠ []) : String.ofList (hexEncode bs) ≠ "" := by
  intro hempty
  have hlen := hexEncode_length bs
  rw [String.ofList_eq_empty_iff.mp hempty] at hlen
  have hpos : 0 < bs.length := List.length_pos_iff.mpr h
  exact absurd hlen (by simp only [List.length_nil]; omega)

/-- A token is 64 hexadecimal digits. -/
theorem pairingToken_ne (raw : Vector UInt8 32) (ttl now : Int) : (Auth.pairingToken raw ttl now).1 ≠ "" := by
  apply hexText_ne
  apply List.ne_nil_of_length_pos
  rw [raw.length_toList]
  decide

end

/-- What the phone makes of a payload for this token and this pin: it is told both, with the code to compare, and
dials every address of the host once, in the clear only where all of them passed the check, and where the host
listens on every interface at addresses the host is reached on. -/
structure Leads (m : Machine) (bind : String) (port : UInt16) (token spki : String) (info : PairingInfo)
    (read : Client.PairingInfo) : Prop where
  told : read.token = utf16 token
  pinned : read.spki = utf16 spki
  compared : read.code = some (utf16 (approvalCode token))
  once : (Client.candidateUrls read).Nodup
  dialled : ∀ url, url ∈ Client.candidateUrls read ↔ ∃ a ∈ mustAdvertisedAddrs m bind, url = info.url a
  plaintext : info.ws = "wss" ∨
    (info.ws = "ws" ∧ ∀ a ∈ mustAdvertisedAddrs m bind, ∃ ip, Net.parseIP a = some ip ∧ Net.Trusted ip)
  listens : everyInterface bind = true → ∀ url ∈ Client.candidateUrls read,
    url = info.url "127.0.0.1" ∨
      ∃ ip l, url = info.url ip.string ∧ l ∈ m.accepts (resolveAddr bind port) ∧ Net.equal ip l = true

theorem Printed.leads {m : Machine} {bind : String} {port : UInt16} {token spki : String} {info : PairingInfo}
    (h : Printed m bind port token spki info) (hcomplete : info.Complete) :
    Leads m bind port token spki info info.read := by
  obtain ⟨honce, hdialled⟩ := candidates hcomplete
  obtain ⟨scheme, ws, rfl, -, -, hplain⟩ := h.fields
  refine ⟨rfl, rfl, rfl, honce, hdialled, ?_, fun hbind url hurl => ?_⟩
  · refine hplain.imp_right fun ⟨hws, hok⟩ => ⟨hws, fun a ha => ?_⟩
    obtain ⟨ip, hip, hprivate⟩ := validateInsecureBind_ok.mp hok a ha
    exact ⟨ip, hip, (Net.isPrivateIP_iff ip).mp hprivate⟩
  · obtain ⟨a, ha, rfl⟩ := (hdialled url).mp hurl
    rcases mem_advertised ha with rfl | ⟨ip, hip, rfl⟩ | ⟨hnot, -⟩
    · exact .inl rfl
    · -- an empty host listens on every local address
      obtain ⟨l, hl, hequal⟩ := lan_local hip
      have hwild : m.wildcard bind = true := by rw [Machine.wildcard, hbind, Bool.true_or]
      exact .inr ⟨ip, l, rfl, accepts_wildcard port hwild ▸ hl, hequal⟩
    · rw [hbind] at hnot
      cases hnot

/-- **The code that is scanned leads to the host that printed it.** -/
theorem scanned_leads (p : Client.Platform) (m : Machine) (bind : String) (port : UInt16) (hport : port ≠ 0)
    (raw : Vector UInt8 32) (ttl now : Int) (spki : String) (hspki : spki ≠ "") (info : PairingInfo)
    (hprinted : Printed m bind port (Auth.pairingToken raw ttl now).1 spki info) (text : String)
    (htext : Client.trim text = info.printed) :
    ∃ read, (scanner p).parsePairingPayload text = .ok read ∧
      Leads m bind port (Auth.pairingToken raw ttl now).1 spki info read := by
  have hcomplete := hprinted.complete hport (pairingToken_ne raw ttl now) hspki
  exact ⟨info.read, scan_printed p hcomplete htext, hprinted.leads hcomplete⟩

/-- A `--bind` value with quotes and markup in it, on the machine of the listeners above. -/
theorem scanned_leads_quoted :
    ∃ read, (scanner Client.samplePlatform).parsePairingPayload
        (String.ofList (qrInfo Sample.host "a\"<b>" 7432 (Auth.pairingToken (Vector.replicate 32 0xab) 0 0).1
          "0c4044c4").printed) = .ok read ∧
      Leads Sample.host "a\"<b>" 7432 (Auth.pairingToken (Vector.replicate 32 0xab) 0 0).1 "0c4044c4"
        (qrInfo Sample.host "a\"<b>" 7432 (Auth.pairingToken (Vector.replicate 32 0xab) 0 0).1 "0c4044c4")
        read :=
  scanned_leads Client.samplePlatform Sample.host "a\"<b>" 7432 (by decide) (Vector.replicate 32 0xab) 0 0
    "0c4044c4" (by decide) _ .qr _ trim_printed

end Harness.Qr
