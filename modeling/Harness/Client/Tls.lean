/-
# Harness.Client.Tls — the trust decision of the Android app.

`HarnessTlsModule` replaces the factory of OkHttp clients. A connection is accepted when two checks pass: the
trust manager, which sees the certificate chain and not the host, and the hostname verifier, which sees the
host and not the port. Each accepts a pinned key and asks the platform otherwise.

Pins are registered for a host and a port. `pinned_trust` says for which pins, hosts and chains the two checks
together respect that, and `pin_leaks` shows a host without a pin that is accepted with the key of another.
-/
import Harness.Wire.Protocol
import Mathlib.Data.Nat.Bitwise

namespace Harness.Tls

open Wire

/-- What the module uses of the Kotlin and Java libraries. -/
structure Runtime where
  lowercase : String → String
  equalsIgnoreCase : String → String → Bool
  toInt : Number → Int
  sha256 : List UInt8 → List UInt8

/-- A certificate: its encoding, and the encoding of its public key. -/
structure X509Certificate where
  encoded : List UInt8
  publicKey : List UInt8
  deriving DecidableEq

/-- The platform's trust manager (whether the call returns) and its default hostname verifier. -/
structure Platform where
  checkServerTrusted : List X509Certificate → String → Bool
  verify : String → List X509Certificate → Bool

/-! ## Pins -/

structure SpkiPin where
  host : String
  port : Int
  spkiHex : String
  deriving DecidableEq, Repr

/-- The argument of `setPinnedHosts` is a list of maps. -/
def get (map : List (String × Json)) (key : String) : Option Json :=
  (map.find? fun kv => kv.1 == key).map (·.2)

def asString : Option Json → Option String
  | some (.str s) => some s
  | _ => none

def portOf (rt : Runtime) : Option Json → Int
  | some (.num n) => rt.toInt n
  | _ => 443

/-- A pin needs a host and a key. -/
def pinOf (rt : Runtime) (map : List (String × Json)) : Option SpkiPin :=
  match asString (get map "host"), asString (get map "spki") with
  | some host, some spki => some ⟨rt.lowercase host, portOf rt (get map "port"), rt.lowercase spki⟩
  | _, _ => none

/-- The fields of `HarnessTlsModule`. -/
structure HarnessTls where
  pins : List SpkiPin := []
  installed : Bool := false

/-- `setPinnedHosts`, which installs the client factory. -/
def HarnessTls.setPinnedHosts (_ : HarnessTls) (rt : Runtime) (hosts : List (List (String × Json))) :
    HarnessTls where
  pins := hosts.filterMap (pinOf rt)
  installed := true

/-! ## The two checks -/

def spkiHex (rt : Runtime) (cert : X509Certificate) : String :=
  String.ofList (hexEncode (rt.sha256 cert.publicKey))

/-- The differences of all characters are collected before the result is looked at. -/
def constantTimeEquals (a b : String) : Bool :=
  if a.toList.length ≠ b.toList.length then false
  else (a.toList.zip b.toList).foldl (fun result c => result ||| (c.1.toNat ^^^ c.2.toNat)) 0 == 0

/-- `PinningTrustManager.checkServerTrusted`: a pin of any host will do. -/
def checkServerTrusted (rt : Runtime) (platform : Platform) (pins : List SpkiPin)
    (chain : List X509Certificate) (authType : String) : Bool :=
  if chain.head?.any fun leaf => pins.any fun pin => constantTimeEquals (spkiHex rt leaf) pin.spkiHex then
    true
  else platform.checkServerTrusted chain authType

/-- The hostname verifier: a pin of any port will do. -/
def verify (rt : Runtime) (platform : Platform) (pins : List SpkiPin) (hostname : String)
    (chain : List X509Certificate) : Bool :=
  if chain.head?.any fun leaf => pins.any fun pin =>
      rt.equalsIgnoreCase pin.host hostname && constantTimeEquals (spkiHex rt leaf) pin.spkiHex then
    true
  else platform.verify hostname chain

/-- A server as the app meets it: what the app dials and what the handshake shows. -/
structure Server where
  hostname : String
  port : Int
  chain : List X509Certificate
  authType : String

/-- Whether an OkHttp client accepts the connection. The port plays no part. -/
def HarnessTls.accepts (m : HarnessTls) (rt : Runtime) (platform : Platform) (server : Server) : Bool :=
  if m.installed then
    checkServerTrusted rt platform m.pins server.chain server.authType
      && verify rt platform m.pins server.hostname server.chain
  else platform.checkServerTrusted server.chain server.authType
    && platform.verify server.hostname server.chain

/-! ## Whose pin it is -/

def SpkiPin.isForHost (pin : SpkiPin) (rt : Runtime) (server : Server) : Bool :=
  rt.equalsIgnoreCase pin.host server.hostname

def SpkiPin.isFor (pin : SpkiPin) (rt : Runtime) (server : Server) : Bool :=
  pin.isForHost rt server && pin.port == server.port

/-- The host and the port of the server have a pin. -/
def Pinned (rt : Runtime) (pins : List SpkiPin) (server : Server) : Prop :=
  ∃ pin ∈ pins, pin.isFor rt server = true

/-- The server's leaf has the key of a pin that `which` selects. -/
def KeyPinned (rt : Runtime) (pins : List SpkiPin) (server : Server) (which : SpkiPin → Bool) : Prop :=
  ∃ leaf ∈ server.chain.head?, ∃ pin ∈ pins, which pin = true ∧ pin.spkiHex = spkiHex rt leaf

instance (rt : Runtime) (pins : List SpkiPin) (server : Server) : Decidable (Pinned rt pins server) :=
  inferInstanceAs (Decidable (∃ pin ∈ pins, pin.isFor rt server = true))

instance (rt : Runtime) (pins : List SpkiPin) (server : Server) (which : SpkiPin → Bool) :
    Decidable (KeyPinned rt pins server which) :=
  inferInstanceAs (Decidable (∃ leaf ∈ server.chain.head?, ∃ pin ∈ pins,
    which pin = true ∧ pin.spkiHex = spkiHex rt leaf))

section
variable {rt : Runtime} {platform : Platform} {pins : List SpkiPin} {server : Server}

theorem KeyPinned.mono {which which' : SpkiPin → Bool} (h : KeyPinned rt pins server which)
    (himp : ∀ pin, which pin = true → which' pin = true) : KeyPinned rt pins server which' := by
  obtain ⟨leaf, hleaf, pin, hpin, hwhich, hkey⟩ := h
  exact ⟨leaf, hleaf, pin, hpin, himp pin hwhich, hkey⟩

theorem KeyPinned.anywhere {which : SpkiPin → Bool} (h : KeyPinned rt pins server which) :
    KeyPinned rt pins server fun _ => true :=
  h.mono fun _ _ => rfl

end

/-! ## constantTimeEquals -/

/-- The collected difference is zero when there is none. -/
theorem foldl_difference_eq_zero (cs : List (Char × Char)) :
    ∀ result : Nat, cs.foldl (fun result c => result ||| (c.1.toNat ^^^ c.2.toNat)) result = 0 ↔
      result = 0 ∧ ∀ c ∈ cs, c.1 = c.2 := by
  induction cs with
  | nil => intro result; simp
  | cons c cs ih =>
    intro result
    have hxor : c.1.toNat ^^^ c.2.toNat = 0 ↔ c.1 = c.2 := by
      rw [Nat.xor_eq_zero_iff]
      exact Char.toNat_inj
    rw [List.foldl_cons, ih, Nat.or_eq_zero_iff, hxor, List.forall_mem_cons, and_assoc]

/-- Lists of one length that agree at every place are equal. -/
theorem zip_all_eq_iff {α : Type} : ∀ {as bs : List α}, as.length = bs.length →
    ((∀ c ∈ as.zip bs, c.1 = c.2) ↔ as = bs) := by
  intro as
  induction as with
  | nil =>
    intro bs hlen
    have hbs : bs = [] := List.eq_nil_of_length_eq_zero hlen.symm
    simp [hbs]
  | cons a as ih =>
    intro bs hlen
    cases bs with
    | nil => exact absurd hlen (Nat.succ_ne_zero _)
    | cons b bs =>
      have hlen' : as.length = bs.length := Nat.succ.inj hlen
      rw [List.zip_cons_cons, List.forall_mem_cons, ih hlen', List.cons.injEq]

theorem constantTimeEquals_iff (a b : String) : constantTimeEquals a b = true ↔ a = b := by
  unfold constantTimeEquals
  split
  · rename_i hlen
    refine iff_of_false Bool.false_ne_true ?_
    rintro rfl
    exact hlen rfl
  · rename_i hlen
    have hlen : a.toList.length = b.toList.length := not_not.mp hlen
    rw [beq_iff_eq, foldl_difference_eq_zero, zip_all_eq_iff hlen, String.toList_inj]
    exact and_iff_right rfl

/-! ## What the two checks accept -/

section
variable {rt : Runtime} {platform : Platform} {pins : List SpkiPin} {server : Server}

/-- Both checks look for the leaf's key among pins they select. -/
theorem keyPinned_iff (which : SpkiPin → Bool) :
    (server.chain.head?.any fun leaf => pins.any fun pin =>
      which pin && constantTimeEquals (spkiHex rt leaf) pin.spkiHex) = true ↔
      KeyPinned rt pins server which := by
  simp only [Option.any_eq_true, List.any_eq_true, Bool.and_eq_true, constantTimeEquals_iff, KeyPinned,
    Option.mem_def, eq_comm (a := spkiHex rt _)]

theorem checkServerTrusted_iff :
    checkServerTrusted rt platform pins server.chain server.authType = true ↔
      (KeyPinned rt pins server fun _ => true) ∨
        platform.checkServerTrusted server.chain server.authType = true := by
  rw [checkServerTrusted, ← keyPinned_iff]
  simp only [Bool.true_and]
  split
  · rename_i h
    exact iff_of_true rfl (.inl h)
  · rename_i h
    exact (or_iff_right h).symm

theorem verify_iff :
    verify rt platform pins server.hostname server.chain = true ↔
      KeyPinned rt pins server (·.isForHost rt server) ∨
        platform.verify server.hostname server.chain = true := by
  rw [verify, ← keyPinned_iff]
  split
  · rename_i h
    exact iff_of_true rfl (.inl h)
  · rename_i h
    exact (or_iff_right h).symm

end

/-! ## Runs of the module -/

/-- The module after the app's calls of `setPinnedHosts`. -/
def HarnessTls.after (rt : Runtime) (calls : List (List (List (String × Json)))) : HarnessTls :=
  calls.foldl (fun m hosts => m.setPinnedHosts rt hosts) {}

/-- The client factory is in place before there is a pin. -/
theorem HarnessTls.pins_eq_nil (rt : Runtime) (calls : List (List (List (String × Json))))
    (h : (HarnessTls.after rt calls).installed = false) : (HarnessTls.after rt calls).pins = [] := by
  cases List.eq_nil_or_concat calls with
  | inl hnil => rw [hnil]; rfl
  | inr hconcat =>
    obtain ⟨earlier, hosts, rfl⟩ := hconcat
    rw [HarnessTls.after, List.concat_eq_append, List.foldl_concat] at h
    exact absurd h.symm Bool.false_ne_true

/-- What a client of the app accepts. The first check asks for a pinned key or a chain, the second for a key of
the host or a name. -/
theorem HarnessTls.accepts_iff (rt : Runtime) (platform : Platform)
    (calls : List (List (List (String × Json)))) (server : Server) :
    (HarnessTls.after rt calls).accepts rt platform server = true ↔
      ((KeyPinned rt (HarnessTls.after rt calls).pins server fun _ => true) ∨
        platform.checkServerTrusted server.chain server.authType = true) ∧
      (KeyPinned rt (HarnessTls.after rt calls).pins server (·.isForHost rt server) ∨
        platform.verify server.hostname server.chain = true) := by
  rw [HarnessTls.accepts]
  split
  · rw [Bool.and_eq_true, checkServerTrusted_iff, verify_iff]
  · rename_i h
    have hpins := HarnessTls.pins_eq_nil rt calls (Bool.eq_false_iff.mpr h)
    have hno : ∀ which, ¬ KeyPinned rt (HarnessTls.after rt calls).pins server which := by
      rintro which ⟨leaf, hleaf, pin, hpin, -⟩
      rw [hpins] at hpin
      exact absurd hpin List.not_mem_nil
    rw [Bool.and_eq_true, or_iff_right (hno _), or_iff_right (hno _)]

/-! ## Trust per host -/

/-- An accepted server has the key pinned for its host and port, or it has no pin and the platform trusts it. -/
def PerHost (rt : Runtime) (platform : Platform) (m : HarnessTls) (server : Server) : Prop :=
  m.accepts rt platform server = true →
    KeyPinned rt m.pins server (·.isFor rt server) ∨
      (¬ Pinned rt m.pins server ∧ platform.checkServerTrusted server.chain server.authType = true ∧
        platform.verify server.hostname server.chain = true)

instance (rt : Runtime) (platform : Platform) (m : HarnessTls) (server : Server) :
    Decidable (PerHost rt platform m server) :=
  inferInstanceAs (Decidable (_ → _))

/-- Where the leaf's key is pinned, and what that leaves to the platform. -/
inductive Apart (rt : Runtime) (platform : Platform) (pins : List SpkiPin) (server : Server) : Prop
  | own (key : KeyPinned rt pins server (·.isFor rt server))
  | otherPort (notOwn : ¬ KeyPinned rt pins server (·.isFor rt server))
      (key : KeyPinned rt pins server (·.isForHost rt server)) (unpinned : ¬ Pinned rt pins server)
      (chain : platform.checkServerTrusted server.chain server.authType = true)
      (name : platform.verify server.hostname server.chain = true)
  | otherHost (notHost : ¬ KeyPinned rt pins server (·.isForHost rt server))
      (key : KeyPinned rt pins server fun _ => true)
      (name : platform.verify server.hostname server.chain = true → ¬ Pinned rt pins server ∧
        platform.checkServerTrusted server.chain server.authType = true)
  | nowhere (key : ¬ KeyPinned rt pins server fun _ => true)
      (pinned : Pinned rt pins server → ¬ (platform.checkServerTrusted server.chain server.authType = true ∧
        platform.verify server.hostname server.chain = true))

/-- The two checks respect the host and the port of every pin exactly when the pins, the server's key and the
platform are apart: a key of this host and port is enough, a key of the host at another port lets everything
through, a key of another host leaves the decision to the name alone, and any other key leaves both decisions to
the platform, whether or not the host is pinned. -/
theorem pinned_trust (rt : Runtime) (platform : Platform) (calls : List (List (List (String × Json))))
    (server : Server) :
    PerHost rt platform (HarnessTls.after rt calls) server ↔
      Apart rt platform (HarnessTls.after rt calls).pins server := by
  unfold PerHost
  rw [HarnessTls.accepts_iff]
  constructor
  · intro h
    by_cases hown : KeyPinned rt (HarnessTls.after rt calls).pins server (·.isFor rt server)
    · exact .own hown
    by_cases hhost : KeyPinned rt (HarnessTls.after rt calls).pins server (·.isForHost rt server)
    · obtain hkey | ⟨hunpinned, hchain, hname⟩ := h ⟨.inl hhost.anywhere, .inl hhost⟩
      · exact absurd hkey hown
      · exact .otherPort hown hhost hunpinned hchain hname
    by_cases hany : KeyPinned rt (HarnessTls.after rt calls).pins server fun _ => true
    · refine .otherHost hhost hany fun hname => ?_
      obtain hkey | ⟨hunpinned, hchain, -⟩ := h ⟨.inl hany, .inr hname⟩
      · exact absurd hkey hown
      · exact ⟨hunpinned, hchain⟩
    · refine .nowhere hany fun hpinned hplatform => ?_
      obtain hkey | ⟨hunpinned, -⟩ := h ⟨.inr hplatform.1, .inr hplatform.2⟩
      · exact hown hkey
      · exact hunpinned hpinned
  · rintro hapart ⟨htrusted, hverified⟩
    cases hapart with
    | own key => exact .inl key
    | otherPort _ _ unpinned chain name => exact .inr ⟨unpinned, chain, name⟩
    | otherHost notHost _ name =>
      have hname := hverified.resolve_left notHost
      exact .inr ⟨(name hname).1, (name hname).2, hname⟩
    | nowhere key pinned =>
      have hchain := htrusted.resolve_left key
      have hname := hverified.resolve_left fun hhost => key hhost.anywhere
      exact .inr ⟨fun hpinned => pinned hpinned ⟨hchain, hname⟩, hchain, hname⟩

/-! ## Pins that leak -/

namespace Sample

/-- The library functions, as they are at the names and keys below. -/
def runtime : Runtime where
  lowercase s := String.ofList (s.toList.map Char.toLower)
  equalsIgnoreCase a b := a.toList.map Char.toLower == b.toList.map Char.toLower
  toInt n := n.mantissa
  sha256 key :=
    if key = ("harness host key".toList.map fun c => c.toUInt8) then
      [0x0c, 0x40, 0x44, 0xc4, 0x9e, 0x96, 0x1e, 0x59, 0x40, 0xee, 0x72, 0x86, 0x82, 0x4b, 0xfc, 0xf2,
       0xe8, 0x36, 0xa1, 0x7e, 0xcf, 0x3c, 0xd6, 0x61, 0xbf, 0x71, 0xd6, 0xf7, 0xf6, 0xa2, 0x54, 0x86]
    else
      [0x2a, 0xa5, 0x0b, 0x47, 0xc9, 0x23, 0x42, 0xdd, 0xda, 0x1d, 0xcc, 0xb7, 0x74, 0xe5, 0x0e, 0x49,
       0x7d, 0x75, 0x96, 0x32, 0xdb, 0x2c, 0x3a, 0x8b, 0x86, 0xb3, 0x1a, 0x9d, 0x73, 0x7f, 0x81, 0x51]

/-- The certificate of the harness host, which it signed itself. -/
def hostCertificate : X509Certificate := ⟨[0], "harness host key".toList.map fun c => c.toUInt8⟩

/-- A certificate of the name `harness.local` from a public authority. -/
def publicCertificate : X509Certificate := ⟨[1], "another key".toList.map fun c => c.toUInt8⟩

/-- The platform trusts the public authority, and verifies the names a certificate has. The certificate that the
harness host signed has the name `bank.example`. -/
def platform : Platform where
  checkServerTrusted chain _ := chain == [publicCertificate]
  verify hostname chain := (chain == [publicCertificate] && hostname == "harness.local") ||
    (chain == [hostCertificate] && hostname == "bank.example")

/-- The host of a QR code. -/
def hosts : List (List (String × Json)) :=
  [[("host", .str "harness.local"), ("port", .num ⟨7432, 0⟩),
    ("spki", .str "0c4044c49e961e5940ee7286824bfcf2e836a17ecf3cd661bf71d6f7f6a25486")]]

end Sample

/-- The harness host is accepted as `bank.example`, which has no pin and whose chain the platform refuses; and at
the pinned host and port a key without a pin is accepted. -/
theorem pin_leaks :
    ¬ PerHost Sample.runtime Sample.platform (HarnessTls.after Sample.runtime [Sample.hosts])
        ⟨"bank.example", 443, [Sample.hostCertificate], "ECDHE_ECDSA"⟩ ∧
      ¬ PerHost Sample.runtime Sample.platform (HarnessTls.after Sample.runtime [Sample.hosts])
        ⟨"harness.local", 7432, [Sample.publicCertificate], "ECDHE_ECDSA"⟩ := by
  decide +kernel

end Harness.Tls
