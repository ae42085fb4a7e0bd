/-
# Harness.Qr.Trust — the pin that was scanned, and the certificates the host serves later.

The certificate of a host changes: its names follow the machine, it expires, `cert.pem` may be lost. The phone
pins the key. Here the history of the two files (`Harness.Cert`), the code a daemon prints (`Harness.Qr`) and the
trust decision of the app (`Harness.Tls`) are put together: with the pin of any code the host ever printed the app
accepts every certificate the host ever serves, from whatever address, and no other that the platform does not
vouch for (`pin_is_key`).
-/
import Harness.Cert.Stability
import Harness.Client.Tls
import Harness.Qr

namespace Harness.Qr

open Wire Cert
open Client (JsString utf16)
open Listen (Machine lanIPs)

/-! ## The certificates of a machine -/

/-- `buildSANs`. The hostname is `none` when `os.Hostname` fails. -/
def buildSANs (m : Machine) (hostname : Option String) : SANs where
  dnsNames := "localhost" :: match hostname with
    | some host => if host = "" then [] else [host, host ++ ".local"]
    | none => []
  ips := (Net.v4InV6Prefix ++ [127, 0, 0, 1]) :: Net.IPv6loopback ::
    ((lanIPs m).getD []).filterMap Net.parseIP

/-- What `LANIPs` writes is read as an address of sixteen bytes. -/
theorem parse_lan {m : Machine} {addrs : List String} (h : lanIPs m = some addrs) :
    ∀ a ∈ addrs, ∃ ip, Net.parseIP a = some ip ∧ ip ≠ [] := by
  intro a ha
  unfold lanIPs at h
  split at h
  · obtain rfl := Option.some.inj h
    split at ha
    · obtain rfl := List.mem_singleton.mp ha
      exact ⟨Net.v4InV6Prefix ++ [127, 0, 0, 1], rfl, List.cons_ne_nil _ _⟩
    · obtain ⟨ip, hip, rfl⟩ := List.mem_map.mp ha
      exact ⟨_, Net.parseIP_string (Listen.length_of_mem_lan hip), List.cons_ne_nil _ _⟩
  · cases h

/-- The names a daemon asks for are names. -/
theorem buildSANs_named (m : Machine) (hostname : Option String) : (buildSANs m hostname).Named where
  dnsNames := by
    refine List.forall_mem_cons.mpr ⟨by decide, fun dns hdns => ?_⟩
    cases hostname with
    | none => cases hdns
    | some host =>
        dsimp only at hdns
        split at hdns
        · cases hdns
        · rename_i hne
          rcases List.mem_pair.mp hdns with rfl | rfl
          · exact hne
          · intro hempty
            exact hne (String.append_eq_empty_iff.mp hempty).1
  ips := by
    refine List.forall_mem_cons.mpr ⟨by decide, List.forall_mem_cons.mpr ⟨by decide, fun ip hip => ?_⟩⟩
    obtain ⟨a, ha, hparse⟩ := List.mem_filterMap.mp hip
    cases hlan : lanIPs m with
    | none =>
        rw [hlan] at ha
        cases ha
    | some addrs =>
        rw [hlan] at ha
        obtain ⟨ip', hip', hne⟩ := parse_lan hlan a ha
        rw [hip'] at hparse
        rwa [← Option.some.inj hparse]

variable {EC Other Public : Type}

/-- The calls are those of daemons, on the machine as it is at that time. -/
def Starts (_ : List (Obs EC Other)) (_ : Disk) (a : Cert.Action EC) : Prop :=
  ∀ env want, a = .call env want → ∃ m hostname, want = buildSANs m hostname

/-! ## The phone -/

/-- `pinFor`. `newURL` gives the hostname and the port of a URL, the port `none` where the text has none. -/
def pinFor (newURL : JsString → Option (String × Option Nat)) (url : JsString) (spki : String) :
    List (List (List (String × Json))) :=
  match newURL url with
  | none => []
  | some (hostname, port) =>
      [[[("host", .str hostname), ("port", .int ((port.getD 7432 : Nat) : Int)), ("spki", .str spki)]]]

/-- The handshake shows the certificate: its leaf, with the encoding of its public key. -/
def Shows (c : Crypto EC Other Public) (cert : KeyPair EC Other) (chain : List Tls.X509Certificate) : Prop :=
  ∃ leaf pub x, cert.leaf c = some leaf ∧ leaf.publicKey = some pub ∧ chain.head? = some x ∧
    c.marshalPKIXPublicKey pub = some x.publicKey

/-- What the two sides have in common: the hexadecimal text of a SHA-256 sum, which has no upper case. -/
structure Agree (c : Crypto EC Other Public) (rt : Tls.Runtime) : Prop where
  sum : ∀ b, c.sha256Hex b = String.ofList (hexEncode (rt.sha256 b))
  sum_ne : ∀ b, rt.sha256 b ≠ []
  lowercase_hex : ∀ b, rt.lowercase (String.ofList (hexEncode b)) = String.ofList (hexEncode b)

section
variable {rt : Tls.Runtime}

/-- Of the calls of `setPinnedHosts` the last one counts. -/
theorem after_pinFor (rt : Tls.Runtime) {newURL : JsString → Option (String × Option Nat)} {url : JsString}
    {hostname : String} {port : Option Nat} (hurl : newURL url = some (hostname, port)) (spki : String)
    (calls : List (List (List (String × Json)))) :
    (Tls.HarnessTls.after rt (calls ++ pinFor newURL url spki)).pins =
      [⟨rt.lowercase hostname, rt.toInt ⟨(port.getD 7432 : Nat), 0⟩, rt.lowercase spki⟩] := by
  rw [pinFor, hurl, Tls.HarnessTls.after, List.foldl_append]
  rfl

/-- With one pin, the app accepts that key at that host, and what the platform accepts. -/
theorem accepts_one (platform : Tls.Platform) {calls : List (List (List (String × Json)))} {server : Tls.Server}
    {pin : Tls.SpkiPin} (hpins : (Tls.HarnessTls.after rt calls).pins = [pin])
    (hhost : rt.equalsIgnoreCase pin.host server.hostname = true) :
    (Tls.HarnessTls.after rt calls).accepts rt platform server = true ↔
      (∃ x ∈ server.chain.head?, Tls.spkiHex rt x = pin.spkiHex) ∨
        (platform.checkServerTrusted server.chain server.authType = true ∧
          platform.verify server.hostname server.chain = true) := by
  have hkey : ∀ which : Tls.SpkiPin → Bool, which pin = true →
      (Tls.KeyPinned rt (Tls.HarnessTls.after rt calls).pins server which ↔
        ∃ x ∈ server.chain.head?, Tls.spkiHex rt x = pin.spkiHex) := by
    intro which hwhich
    rw [Tls.KeyPinned, hpins]
    constructor
    · rintro ⟨x, hx, pin', hpin', -, heq⟩
      obtain rfl := List.mem_singleton.mp hpin'
      exact ⟨x, hx, heq.symm⟩
    · rintro ⟨x, hx, heq⟩
      exact ⟨x, hx, pin, List.mem_singleton_self pin, hwhich, heq.symm⟩
  rw [Tls.HarnessTls.accepts_iff, hkey (fun _ => true) rfl, hkey (·.isForHost rt server) hhost, or_and_left]

end

/-! ## One key, one pin -/

variable {c : Crypto EC Other Public}

section
variable [DecidableEq Public]

theorem Starts.proper {tr : List (Obs EC Other)} {disk : Disk} {a : Cert.Action EC} (h : Starts tr disk a) :
    Proper tr disk a := by
  intro env want ha
  obtain ⟨m, hostname, rfl⟩ := h env want ha
  exact buildSANs_named m hostname

/-- Whatever a start of the daemon returned, it is a certificate of one key, with the pin of that key. -/
theorem one_key (hc : c.Lawful) {disk disk' : Disk} (hkey : disk.key = .absent ∨ ∃ k, Holds c disk.key k)
    {tr : List (Obs EC Other)} (hrun : (system c).Run Starts [] disk tr disk') {o : Obs EC Other} (ho : o ∈ tr)
    {cert : KeyPair EC Other} {pins : Pins} {regenerated : Bool}
    (hout : o.outcome = .returned cert pins regenerated) :
    ∃ k, ∀ o' ∈ tr, o'.Serves c k := by
  have hproper : (system c).Run Proper [] disk tr disk' := hrun.mono fun _ _ _ h => h.proper
  rcases absent_or_holds_run hc hkey hproper with ⟨-, hnone⟩ | ⟨k, -, hserves⟩
  · have hfalse := hnone o ho
    rw [hout] at hfalse
    cases hfalse
  · exact ⟨k, hserves⟩

end

/-- The key of a leaf has the pin its certificate is served with. -/
theorem spkiHex_shown {rt : Tls.Runtime} (hagree : Agree c rt) {k : EC} {want : SANs} {cert : KeyPair EC Other}
    {pins : Pins} (hserves : Serves c k want cert pins) {chain : List Tls.X509Certificate}
    (hshows : Shows c cert chain) : ∃ x ∈ chain.head?, Tls.spkiHex rt x = pins.spki := by
  obtain ⟨leaf, hleaf, hpub, -, hspki⟩ := hserves
  obtain ⟨leaf', pub, x, hleaf', hpub', hx, hder⟩ := hshows
  obtain rfl := Option.some.inj (hleaf.symm.trans hleaf')
  obtain rfl := Option.some.inj (hpub.symm.trans hpub')
  rw [spkiPin, hder, Option.map_some, Option.some.injEq] at hspki
  exact ⟨x, hx, by rw [← hspki, hagree.sum, Tls.spkiHex]⟩

theorem served_spki_eq {k : EC} {want want' : SANs} {cert cert' : KeyPair EC Other} {pins pins' : Pins}
    (h : Serves c k want cert pins) (h' : Serves c k want' cert' pins') : pins.spki = pins'.spki := by
  obtain ⟨-, -, -, -, hspki⟩ := h
  obtain ⟨-, -, -, -, hspki'⟩ := h'
  exact Option.some.inj (hspki.symm.trans hspki')

theorem served_spki_hex {rt : Tls.Runtime} (hagree : Agree c rt) {k : EC} {want : SANs} {cert : KeyPair EC Other}
    {pins : Pins} (h : Serves c k want cert pins) : ∃ b, b ≠ [] ∧ pins.spki = String.ofList (hexEncode b) := by
  obtain ⟨-, -, -, -, hspki⟩ := h
  obtain ⟨der, -, hsum⟩ := Option.map_eq_some_iff.mp hspki
  exact ⟨rt.sha256 der, hagree.sum_ne der, by rw [← hsum, hagree.sum]⟩

/-- **A code that was scanned stays good.** Let the host print a code at any of its starts. With the pin of
that code the app accepts whatever certificate the host serves at any other start, and any other server only
if it shows a key of the same pin or the platform accepts it. The name of the host is one that a lower-case
copy of it is found equal to, as every ASCII name is. -/
theorem pin_is_key [DecidableEq Public] (c : Crypto EC Other Public) (hc : c.Lawful) (rt : Tls.Runtime)
    (hagree : Agree c rt) (disk disk' : Disk) (hkey : disk.key = .absent ∨ ∃ k, Holds c disk.key k)
    (tr : List (Obs EC Other)) (hrun : (system c).Run Starts [] disk tr disk') (o : Obs EC Other) (ho : o ∈ tr)
    (cert : KeyPair EC Other) (pins : Pins) (regenerated : Bool)
    (hout : o.outcome = .returned cert pins regenerated)
    (p : Client.Platform) (m : Machine) (bind : String) (port : UInt16) (hport : port ≠ 0) (raw : Vector UInt8 32)
    (ttl now : Int) (info : PairingInfo)
    (hprinted : Printed m bind port (Auth.pairingToken raw ttl now).1 pins.spki info) (text : String)
    (htext : Client.trim text = info.printed) :
    ∃ read, (scanner p).parsePairingPayload text = .ok read ∧
      ∀ spki, utf16 spki = read.spki →
        ∀ newURL url hostname urlPort, newURL url = some (hostname, urlPort) →
          rt.equalsIgnoreCase (rt.lowercase hostname) hostname = true →
          ∀ platform calls (server : Tls.Server), server.hostname = hostname →
            (∀ o' ∈ tr, ∀ cert' pins' regenerated', o'.outcome = .returned cert' pins' regenerated' →
              Shows c cert' server.chain →
                (Tls.HarnessTls.after rt (calls ++ pinFor newURL url spki)).accepts rt platform server = true) ∧
            ((Tls.HarnessTls.after rt (calls ++ pinFor newURL url spki)).accepts rt platform server = true →
              (∃ x ∈ server.chain.head?, Tls.spkiHex rt x = pins.spki) ∨
                (platform.checkServerTrusted server.chain server.authType = true ∧
                  platform.verify server.hostname server.chain = true)) := by
  obtain ⟨k, hserves⟩ := one_key hc hkey hrun ho hout
  have hprinter := hserves o ho cert pins regenerated hout
  obtain ⟨b, hb, hhex⟩ := served_spki_hex hagree hprinter
  have hspki : pins.spki ≠ "" := by
    rw [hhex]
    exact hexText_ne hb
  have hcomplete := hprinted.complete hport (pairingToken_ne raw ttl now) hspki
  refine ⟨info.read, scan_printed p hcomplete htext, ?_⟩
  intro spki heq newURL url hostname urlPort hurl hcase platform calls server hhost
  -- the pin of the app is the pin that was printed
  obtain rfl : spki = pins.spki := Client.utf16_injective (heq.trans (hprinted.leads hcomplete).pinned)
  have hlower : rt.lowercase pins.spki = pins.spki := by rw [hhex, hagree.lowercase_hex]
  have hpins := after_pinFor rt hurl pins.spki calls
  rw [hlower] at hpins
  have hsame : rt.equalsIgnoreCase (rt.lowercase hostname) server.hostname = true := by
    rw [hhost]
    exact hcase
  have haccepts := accepts_one platform hpins hsame
  refine ⟨fun o' ho' cert' pins' regenerated' hout' hshows => ?_, haccepts.mp⟩
  have hother := hserves o' ho' cert' pins' regenerated' hout'
  apply haccepts.mpr
  obtain ⟨x, hx, hsame⟩ := spkiHex_shown hagree hother hshows
  exact .inl ⟨x, hx, by rw [hsame, ← served_spki_eq hprinter hother]⟩

/-! ## A host that moves -/

namespace Sample

def bytes (text : String) : Bytes := text.toList.map fun c => c.toUInt8

/-- A host at `192.168.1.20`, and later at `10.0.0.9`. -/
def machine (ip : Net.IP) : Machine where
  interfaces := [⟨true, false, [.ipNet ip], true⟩]
  lookup _ := []

def home : Machine := machine [192, 168, 1, 20]

def office : Machine := machine [10, 0, 0, 9]

def ips (m : Machine) : List Net.IP := (dedupeIPs (buildSANs m none).ips).map short

/-- The key is the byte 5. Its certificates, one for each place, are encoded as these two texts. -/
def crypto : Crypto UInt8 UInt8 (Bool × UInt8) :=
  { Cert.Sample.crypto with
    marshalPKIXPublicKey := fun _ => some (bytes "harness host key")
    createCertificate := fun _ t k =>
      if k = 5 ∧ t.dnsNames = ["localhost"] ∧ t.notAfter = 365 * day then
        if t.ipAddresses.map short = ips home then some (bytes "harness host key")
        else if t.ipAddresses.map short = ips office then some (bytes "another key")
        else none
      else none
    parseCertificate := fun der =>
      if der = bytes "harness host key" then some ⟨der, some (true, 5), 365 * day, ["localhost"], ips home⟩
      else if der = bytes "another key" then some ⟨der, some (true, 5), 365 * day, ["localhost"], ips office⟩
      else none
    sha256Hex := fun b => String.ofList (hexEncode (Tls.Sample.runtime.sha256 b)) }

theorem lawful : crypto.Lawful where
  pem_certificate := Cert.Sample.lawful.pem_certificate
  pem_key := Cert.Sample.lawful.pem_key
  ec := Cert.Sample.lawful.ec
  certificate r t k der leaf hder hleaf := by
    simp only [crypto] at hder hleaf
    split at hder
    · rename_i ht
      obtain ⟨rfl, hdns, hafter⟩ := ht
      have hother : bytes "another key" ≠ bytes "harness host key" := by decide
      split at hder
      · rename_i hips
        obtain rfl := Option.some.inj hder
        rw [if_pos rfl] at hleaf
        rw [← Option.some.inj hleaf, hdns, hafter, hips]
        rfl
      · split at hder
        · rename_i hips
          obtain rfl := Option.some.inj hder
          rw [if_neg hother, if_pos rfl] at hleaf
          rw [← Option.some.inj hleaf, hdns, hafter, hips]
          rfl
        · cases hder
    · cases hder

theorem toLower_hexDigit (n : Nat) : (hexDigit n).toLower = hexDigit n := by
  by_cases h : n < 16
  · have key : ∀ k < 16, (hexDigit k).toLower = hexDigit k := by decide
    exact key n h
  · have hlen : "0123456789abcdef".toList.length ≤ n := Nat.le_of_not_lt h
    rw [hexDigit, List.getD, List.getElem?_eq_none hlen]
    rfl

theorem agree : Agree crypto Tls.Sample.runtime where
  sum b := rfl
  sum_ne b := by
    show (if b = _ then _ else _) ≠ []
    split <;> exact List.cons_ne_nil _ _
  lowercase_hex b := by
    show String.ofList ((String.ofList (hexEncode b)).toList.map Char.toLower) = _
    rw [String.toList_ofList, hexEncode, List.map_flatMap]
    simp only [List.map_cons, List.map_nil, toLower_hexDigit]

def newURL (url : JsString) : Option (String × Option Nat) :=
  if url = utf16 "wss://10.0.0.9:7432/ws" then some ("10.0.0.9", some 7432) else none

def spki : String := "0c4044c49e961e5940ee7286824bfcf2e836a17ecf3cd661bf71d6f7f6a25486"

def homeCert : KeyPair UInt8 UInt8 := ⟨[bytes "harness host key"], .ecdsa 5⟩

def officeCert : KeyPair UInt8 UInt8 := ⟨[bytes "another key"], .ecdsa 5⟩

def officeSum : String := "2aa50b47c92342ddda1dccb774e50e497d759632db2c3a8b86b31a9d737f8151"

/-- The first start mints the key, the second one finds no certificate for its addresses. -/
theorem moved : ∃ disk', (system crypto).Run Starts [] ⟨.absent, .absent⟩
    [⟨buildSANs home none, .returned homeCert ⟨spki, spki⟩ true⟩,
      ⟨buildSANs office none, .returned officeCert ⟨spki, officeSum⟩ true⟩] disk' := by
  have hstarts : ∀ m (tr : List (Obs UInt8 UInt8)) disk,
      Starts tr disk (.call Cert.Sample.env (buildSANs m none)) := by
    rintro m tr disk _ _ ⟨⟩
    exact ⟨m, none, rfl⟩
  have hhome : (system crypto).step ⟨.absent, .absent⟩ (.call Cert.Sample.env (buildSANs home none)) =
      some (⟨.data (1 :: bytes "harness host key"), .data [2, 5]⟩,
        [⟨buildSANs home none, .returned homeCert ⟨spki, spki⟩ true⟩]) := by
    rfl
  have hoffice : (system crypto).step ⟨.data (1 :: bytes "harness host key"), .data [2, 5]⟩
      (.call Cert.Sample.env (buildSANs office none)) =
      some (⟨.data (1 :: bytes "another key"), .data [2, 5]⟩,
        [⟨buildSANs office none, .returned officeCert ⟨spki, officeSum⟩ true⟩]) := by
    rfl
  exact ⟨_, (Lib.Lts.Run.single (hstarts home _ _) hhome).tail (hstarts office _ _) hoffice⟩

def officeLeaf : Tls.X509Certificate := ⟨bytes "another key", bytes "harness host key"⟩

end Sample

/-- The code was printed at home; the certificate the host serves at the office is accepted with it. -/
theorem pin_is_key_moved :
    ∃ read, (scanner Client.samplePlatform).parsePairingPayload
        (String.ofList (qrInfo Sample.home "lan" 7432 (Auth.pairingToken (Vector.replicate 32 0xab) 0 0).1
          Sample.spki).printed) = .ok read ∧
      ∀ platform, (Tls.HarnessTls.after Tls.Sample.runtime
          (pinFor Sample.newURL (utf16 "wss://10.0.0.9:7432/ws") Sample.spki)).accepts Tls.Sample.runtime platform
        ⟨"10.0.0.9", 7432, [Sample.officeLeaf], "ECDHE_ECDSA"⟩ = true := by
  obtain ⟨disk', hrun⟩ := Sample.moved
  obtain ⟨read, hread, htrust⟩ := pin_is_key Sample.crypto Sample.lawful Tls.Sample.runtime Sample.agree _ disk'
    (.inl rfl) _ hrun _ List.mem_cons_self _ _ _ rfl Client.samplePlatform Sample.home "lan" 7432 (by decide)
    (Vector.replicate 32 0xab) 0 0 _ .qr _ trim_printed
  have hspki : utf16 Sample.spki = read.spki := by
    have hscan := hread.symm.trans (scan_printed Client.samplePlatform ?_ trim_printed)
    · rw [Except.ok.inj hscan]
      rfl
    · exact Printed.complete .qr (by decide) (pairingToken_ne _ 0 0) (by decide)
  refine ⟨read, hread, fun platform => ?_⟩
  obtain ⟨haccepts, -⟩ := htrust Sample.spki hspki Sample.newURL (utf16 "wss://10.0.0.9:7432/ws") "10.0.0.9"
    (some 7432) rfl rfl platform [] ⟨"10.0.0.9", 7432, [Sample.officeLeaf], "ECDHE_ECDSA"⟩ rfl
  refine haccepts _ (List.mem_cons_of_mem _ List.mem_cons_self) _ _ _ rfl ?_
  exact ⟨⟨Sample.bytes "another key", some (true, 5), 365 * day, ["localhost"], Sample.ips Sample.office⟩,
    (true, 5), Sample.officeLeaf, rfl, rfl, rfl, rfl⟩

end Harness.Qr
