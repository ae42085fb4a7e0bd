/-
# Harness.Cert — the host certificate and its key.

`LoadOrGenerate` of `internal/certutil`: a pair of files that loads, covers the wanted names and is not about
to expire is used as it is; otherwise the key is read, or minted when it cannot be read, a certificate is
issued for it and both files are replaced, the key first.

Keys, PEM, X.509 and SHA-256 are the `Crypto` parameter; what is relied on of it is `Crypto.Lawful`, the
round trips of what the daemon itself writes. `loadOrGenerate_result` says all a call can do.
-/
import Harness.Net
import Mathlib.Data.List.Induction

namespace Harness.Cert

open Net (IP equal to4)

abbrev Bytes := List UInt8

/-! ## Names and addresses -/

structure SANs where
  dnsNames : List String
  ips : List IP

section Dedupe

variable {T : Type} (skip : T → Bool) (same : T → T → Bool)

/-- The loop of `dedupeStrings` and `dedupeIPs`. -/
def dedupe (xs : List T) : List T :=
  xs.foldl (fun out x => if skip x || out.any fun seen => same seen x then out else out ++ [x]) []

variable {skip same}

/-- Every element that is not skipped has one like it. -/
theorem exists_mem_dedupe (hrefl : ∀ x, same x x = true) {xs : List T} {x : T} (hx : x ∈ xs)
    (hskip : skip x = false) : ∃ seen ∈ dedupe skip same xs, same seen x = true := by
  induction xs using List.reverseRecOn with
  | nil => cases hx
  | append_singleton xs y ih =>
      rw [dedupe, List.foldl_concat, ← dedupe]
      rcases List.mem_append.mp hx with hx | hx
      · obtain ⟨seen, hseen, hsame⟩ := ih hx
        split
        · exact ⟨seen, hseen, hsame⟩
        · exact ⟨seen, List.mem_append_left _ hseen, hsame⟩
      · obtain rfl := List.mem_singleton.mp hx
        split
        · rename_i hany
          rw [hskip, Bool.false_or] at hany
          exact List.any_eq_true.mp hany
        · exact ⟨x, List.mem_append_right _ List.mem_cons_self, hrefl x⟩

end Dedupe

def dedupeStrings (xs : List String) : List String := dedupe (· == "") (· == ·) xs

/-- A nil address has no bytes. -/
def dedupeIPs (xs : List IP) : List IP := dedupe (· == []) equal xs

/-! ## Keys and certificates -/

/-- A PEM block. -/
structure Block where
  type : String
  bytes : Bytes
  deriving DecidableEq, Repr

/-- A private key: an ECDSA one, or one of another type. -/
inductive PrivateKey (EC Other : Type) where
  | ecdsa (k : EC)
  | other (k : Other)

/-- What is set of a certificate before it is signed. Times are in nanoseconds. -/
structure Template where
  serialNumber : Nat
  notBefore : Int
  notAfter : Int
  dnsNames : List String
  ipAddresses : List IP

/-- A certificate that has been parsed. The public key is `none` if its algorithm is not known. -/
structure Leaf (Public : Type) where
  raw : Bytes
  publicKey : Option Public
  notAfter : Int
  dnsNames : List String
  ipAddresses : List IP

/-- The parts of `crypto` and `encoding/pem` that are used, `none` standing for an error. -/
structure Crypto (EC Other Public : Type) where
  /-- the blocks that `pem.Decode` finds, one after the other -/
  pemDecode : Bytes → List Block
  pemEncode : Block → Bytes
  parseECPrivateKey : Bytes → Option EC
  parsePKCS1PrivateKey : Bytes → Option Other
  parsePKCS8PrivateKey : Bytes → Option (PrivateKey EC Other)
  marshalECPrivateKey : EC → Option Bytes
  publicEC : EC → Public
  /-- `none` for a type of key that TLS does not support -/
  publicOther : Other → Option Public
  marshalPKIXPublicKey : Public → Option Bytes
  /-- a self-signed certificate, signed with the given random number -/
  createCertificate : Nat → Template → EC → Option Bytes
  parseCertificate : Bytes → Option (Leaf Public)
  /-- the hex text of the SHA-256 sum -/
  sha256Hex : Bytes → String

def second : Int := 1000000000

def day : Int := 24 * 60 * 60 * second

/-- The form in which a certificate has an address: four bytes for IPv4. -/
def short (ip : IP) : IP := (to4 ip).getD ip

theorem equal_short {ip x : IP} (h : equal ip x = true) : equal (short ip) x = true := by
  unfold short
  cases h4 : to4 ip with
  | none => exact h
  | some ip4 => exact Net.equal_to4 h4 h

section

variable {EC Other Public : Type}

/-- What is assumed of them: what the daemon writes can be read again. -/
structure Crypto.Lawful (c : Crypto EC Other Public) : Prop where
  pem_certificate : ∀ der, c.pemDecode (c.pemEncode ⟨"CERTIFICATE", der⟩) = [⟨"CERTIFICATE", der⟩]
  pem_key : ∀ b, c.pemDecode (c.pemEncode ⟨"EC PRIVATE KEY", b⟩) = [⟨"EC PRIVATE KEY", b⟩]
  /-- The format of an ECDSA key is none of the other two. -/
  ec : ∀ k b, c.marshalECPrivateKey k = some b →
    c.parseECPrivateKey b = some k ∧ c.parsePKCS1PrivateKey b = none ∧ c.parsePKCS8PrivateKey b = none
  /-- A certificate has the names it was issued for, and its times in whole seconds. -/
  certificate : ∀ r t k der leaf, c.createCertificate r t k = some der → c.parseCertificate der = some leaf →
    leaf = ⟨der, some (c.publicEC k), t.notAfter - t.notAfter % second, t.dnsNames, t.ipAddresses.map short⟩

variable (c : Crypto EC Other Public)

def Crypto.public : PrivateKey EC Other → Option Public
  | .ecdsa k => some (c.publicEC k)
  | .other k => c.publicOther k

/-- `tls.parsePrivateKey`. -/
def parsePrivateKey (b : Bytes) : Option (PrivateKey EC Other) :=
  match c.parsePKCS1PrivateKey b with
  | some k => some (.other k)
  | none =>
      match c.parsePKCS8PrivateKey b with
      | some k => if (c.public k).isSome then some k else none
      | none => (c.parseECPrivateKey b).map .ecdsa

/-- `strings.HasSuffix`. -/
def hasSuffix (s suffix : String) : Bool := suffix.toList.isSuffixOf s.toList

/-- The key `tls.X509KeyPair` takes from a file: the first block that is called a private key. -/
def tlsKey (keyPEM : Bytes) : Option (PrivateKey EC Other) :=
  ((c.pemDecode keyPEM).find? fun block =>
    block.type == "PRIVATE KEY" || hasSuffix block.type " PRIVATE KEY").bind fun block =>
      parsePrivateKey c block.bytes

/-- `parseECKey`: the first block, whatever it is called. -/
def parseECKey (pemData : Bytes) : Option EC :=
  match c.pemDecode pemData with
  | [] => none
  | block :: _ =>
      match c.parseECPrivateKey block.bytes with
      | some k => some k
      | none =>
          match c.parsePKCS8PrivateKey block.bytes with
          | some (.ecdsa k) => some k
          | _ => none

/-- `tls.Certificate`. -/
structure KeyPair (EC Other : Type) where
  certificate : List Bytes
  privateKey : PrivateKey EC Other

/-- The certificate that is served. -/
def KeyPair.leaf (cert : KeyPair EC Other) : Option (Leaf Public) :=
  cert.certificate.head?.bind c.parseCertificate

variable [DecidableEq Public]

def x509KeyPair (certPEM keyPEM : Bytes) : Option (KeyPair EC Other) :=
  let chain := ((c.pemDecode certPEM).filter fun block => block.type == "CERTIFICATE").map Block.bytes
  match chain.head?.bind c.parseCertificate, tlsKey c keyPEM with
  | some leaf, some priv =>
      -- the public key has to be known, and that of the private key
      if leaf.publicKey.isSome ∧ leaf.publicKey = c.public priv then some ⟨chain, priv⟩ else none
  | _, _ => none

/-! ## Pins and coverage -/

structure Pins where
  spki : String
  certificate : String
  deriving DecidableEq, Repr

/-- The pin of a public key. -/
def spkiPin (pub : Public) : Option String := (c.marshalPKIXPublicKey pub).map c.sha256Hex

def pinsFromLeaf (leaf : Leaf Public) : Option Pins :=
  (leaf.publicKey.bind (spkiPin c)).map fun spki => ⟨spki, c.sha256Hex leaf.raw⟩

def covers (leaf : Leaf Public) (want : SANs) : Bool :=
  (want.dnsNames.all fun dns => leaf.dnsNames.any fun seen => seen == dns) &&
    want.ips.all fun ip => leaf.ipAddresses.any fun seen => equal seen ip

def regenWindow : Int := 30 * day

def nearExpiry (now : Int) (leaf : Leaf Public) : Bool := now + regenWindow > leaf.notAfter

/-! ## Files -/

inductive File where
  | absent
  | unreadable
  | data (b : Bytes)
  deriving DecidableEq, Repr

def File.exists : File → Bool
  | absent => false
  | _ => true

/-- `os.ReadFile`. -/
def File.read : File → Option Bytes
  | data b => some b
  | _ => none

/-- The files `cert.pem` and `key.pem`. -/
structure Disk where
  cert : File
  key : File
  deriving DecidableEq, Repr

/-- How a `writeFileAtomic` ends: the file is replaced, or it stays what it was, with an error or because the
process ends. -/
inductive Write where
  | done
  | fails
  | crashes
  deriving DecidableEq, Repr

/-! ## LoadOrGenerate -/

/-- What a call meets: the time, what comes from `rand.Reader` and how its writes end. -/
structure Env (EC : Type) where
  now : Int
  /-- the key it mints, if it does -/
  minted : Option EC
  serial : Option Nat
  random : Nat
  keyWrite : Write := .done
  certWrite : Write := .done

inductive Outcome (EC Other : Type) where
  | crashed
  | failed
  | returned (cert : KeyPair EC Other) (pins : Pins) (regenerated : Bool)

def Outcome.isReturned : Outcome EC Other → Bool
  | returned _ _ _ => true
  | _ => false

def loadX509KeyPair (disk : Disk) : Option (KeyPair EC Other) :=
  match disk.cert.read, disk.key.read with
  | some certPEM, some keyPEM => x509KeyPair c certPEM keyPEM
  | _, _ => none

/-- The pair of files that is used as it is. -/
def accepted (now : Int) (want : SANs) (disk : Disk) : Option (KeyPair EC Other × Pins) :=
  if disk.cert.exists && disk.key.exists then
    match loadX509KeyPair c disk with
    | none => none
    | some cert =>
        match cert.leaf c with
        | none => none
        | some leaf =>
            match pinsFromLeaf c leaf with
            | none => none
            | some pins => if covers leaf want && !nearExpiry now leaf then some (cert, pins) else none
  else none

def loadOrGenerateKey (env : Env EC) (key : File) : Option EC :=
  if key.exists then
    match key.read.bind (parseECKey c) with
    | some priv => some priv
    | none => env.minted
  else env.minted

/-- The two texts and the pins of a new certificate. -/
structure SelfSigned where
  certPEM : Bytes
  keyPEM : Bytes
  pins : Pins

def template (env : Env EC) (serial : Nat) (want : SANs) : Template where
  serialNumber := serial
  notBefore := env.now - 60 * second
  notAfter := env.now + 365 * day
  dnsNames := dedupeStrings want.dnsNames
  ipAddresses := dedupeIPs want.ips

def generateSelfSigned (env : Env EC) (want : SANs) (priv : EC) : Option SelfSigned :=
  match env.serial with
  | none => none
  | some serial =>
      match c.createCertificate env.random (template env serial want) priv with
      | none => none
      | some der =>
          match spkiPin c (c.publicEC priv), c.marshalECPrivateKey priv with
          | some spki, some keyBytes =>
              some ⟨c.pemEncode ⟨"CERTIFICATE", der⟩, c.pemEncode ⟨"EC PRIVATE KEY", keyBytes⟩,
                ⟨spki, c.sha256Hex der⟩⟩
          | _, _ => none

/-- Writing the new files, the key first. -/
def install (env : Env EC) (disk : Disk) (new : SelfSigned) : Disk × Outcome EC Other :=
  match env.keyWrite with
  | .crashes => (disk, .crashed)
  | .fails => (disk, .failed)
  | .done =>
      match env.certWrite with
      | .crashes => ({ disk with key := .data new.keyPEM }, .crashed)
      | .fails => ({ disk with key := .data new.keyPEM }, .failed)
      | .done =>
          (⟨.data new.certPEM, .data new.keyPEM⟩,
            match x509KeyPair c new.certPEM new.keyPEM with
            | none => .failed
            | some cert => .returned cert new.pins true)

def loadOrGenerate (env : Env EC) (want : SANs) (disk : Disk) : Disk × Outcome EC Other :=
  match accepted c env.now want disk with
  | some (cert, pins) => (disk, .returned cert pins false)
  | none =>
      match (loadOrGenerateKey c env disk.key).bind (generateSelfSigned c env want) with
      | none => (disk, .failed)
      | some new => install c env disk new

/-! ## What a call can do -/

variable {c}

/-- A key pair: the public key of the certificate is that of the private key. -/
theorem x509KeyPair_eq_some {certPEM keyPEM : Bytes} {cert : KeyPair EC Other}
    (h : x509KeyPair c certPEM keyPEM = some cert) :
    ∃ leaf pub, cert.leaf c = some leaf ∧ leaf.publicKey = some pub ∧
      (tlsKey c keyPEM).bind c.public = some pub ∧
      cert.certificate =
        ((c.pemDecode certPEM).filter fun block => block.type == "CERTIFICATE").map Block.bytes := by
  unfold x509KeyPair at h
  dsimp only at h
  split at h
  · rename_i leaf priv hleaf hpriv
    split at h
    · rename_i hpub
      obtain rfl := Option.some.inj h
      obtain ⟨pub, hsome⟩ := Option.isSome_iff_exists.mp hpub.1
      refine ⟨leaf, pub, hleaf, hsome, ?_, rfl⟩
      rw [hpriv, Option.bind_some, ← hpub.2, hsome]
    · cases h
  · cases h

omit [DecidableEq Public] in
theorem pinsFromLeaf_eq {leaf : Leaf Public} {pub : Public} (h : leaf.publicKey = some pub) :
    pinsFromLeaf c leaf = (spkiPin c pub).map fun spki => ⟨spki, c.sha256Hex leaf.raw⟩ := by
  rw [pinsFromLeaf, h, Option.bind_some]

/-- What it takes to be used as it is. -/
theorem accepted_eq_some {now : Int} {want : SANs} {disk : Disk} {cert : KeyPair EC Other} {pins : Pins} :
    accepted c now want disk = some (cert, pins) ↔
      ∃ certPEM keyPEM leaf, disk = ⟨.data certPEM, .data keyPEM⟩ ∧
        x509KeyPair c certPEM keyPEM = some cert ∧ cert.leaf c = some leaf ∧
        pinsFromLeaf c leaf = some pins ∧ covers leaf want = true ∧ nearExpiry now leaf = false := by
  obtain ⟨certFile, keyFile⟩ := disk
  constructor
  · intro h
    unfold accepted loadX509KeyPair at h
    split at h
    · split at h
      · cases h
      · rename_i cert' hload
        split at hload
        · rename_i certPEM keyPEM hcert hkey
          split at h
          · cases h
          · rename_i leaf hleaf
            split at h
            · cases h
            · rename_i pins' hpins
              split at h
              · rename_i hok
                obtain ⟨rfl, rfl⟩ : cert' = cert ∧ pins' = pins := by simpa using h
                rw [Bool.and_eq_true, Bool.not_eq_true'] at hok
                have hcertFile : certFile = .data certPEM := by
                  cases certFile <;> simp_all [File.read]
                have hkeyFile : keyFile = .data keyPEM := by
                  cases keyFile <;> simp_all [File.read]
                exact ⟨certPEM, keyPEM, leaf, by rw [hcertFile, hkeyFile], hload, hleaf, hpins, hok⟩
              · cases h
        · cases hload
    · cases h
  · rintro ⟨certPEM, keyPEM, leaf, hdisk, hload, hleaf, hpins, hcovers, hexpiry⟩
    obtain ⟨rfl, rfl⟩ := Disk.mk.inj hdisk
    have hpair : loadX509KeyPair c ⟨.data certPEM, .data keyPEM⟩ = some cert := hload
    simp [accepted, File.exists, hpair, hleaf, hpins, hcovers, hexpiry]

omit [DecidableEq Public] in
theorem generateSelfSigned_eq_some {env : Env EC} {want : SANs} {priv : EC} {new : SelfSigned}
    (h : generateSelfSigned c env want priv = some new) :
    ∃ serial der spki keyBytes,
      c.createCertificate env.random (template env serial want) priv = some der ∧
      spkiPin c (c.publicEC priv) = some spki ∧ c.marshalECPrivateKey priv = some keyBytes ∧
      new = ⟨c.pemEncode ⟨"CERTIFICATE", der⟩, c.pemEncode ⟨"EC PRIVATE KEY", keyBytes⟩,
        ⟨spki, c.sha256Hex der⟩⟩ := by
  unfold generateSelfSigned at h
  split at h
  · cases h
  · rename_i serial hserial
    split at h
    · cases h
    · rename_i der hder
      split at h
      · rename_i spki keyBytes hspki hkey
        exact ⟨serial, der, spki, keyBytes, hder, hspki, hkey, (Option.some.inj h).symm⟩
      · cases h

/-- **`Result c env want disk disk' out`** — all a call can do. -/
inductive Result (c : Crypto EC Other Public) (env : Env EC) (want : SANs) (disk : Disk) :
    Disk → Outcome EC Other → Prop
  | kept {cert : KeyPair EC Other} {pins : Pins} (h : accepted c env.now want disk = some (cert, pins)) :
      Result c env want disk disk (.returned cert pins false)
  | stopped {out : Outcome EC Other} (h : out.isReturned = false) :
      Result c env want disk disk out
  | interrupted {priv : EC} {new : SelfSigned} {cert : File} {out : Outcome EC Other}
      (hpriv : loadOrGenerateKey c env disk.key = some priv)
      (hnew : generateSelfSigned c env want priv = some new)
      (h : out.isReturned = false) :
      Result c env want disk ⟨cert, .data new.keyPEM⟩ out
  | regenerated {priv : EC} {new : SelfSigned} {cert : KeyPair EC Other}
      (hnone : accepted c env.now want disk = none)
      (hpriv : loadOrGenerateKey c env disk.key = some priv)
      (hnew : generateSelfSigned c env want priv = some new)
      (hcert : x509KeyPair c new.certPEM new.keyPEM = some cert) :
      Result c env want disk ⟨.data new.certPEM, .data new.keyPEM⟩ (.returned cert new.pins true)

theorem loadOrGenerate_result (env : Env EC) (want : SANs) (disk : Disk) :
    Result c env want disk (loadOrGenerate c env want disk).1 (loadOrGenerate c env want disk).2 := by
  unfold loadOrGenerate
  split
  · rename_i cert pins h
    exact .kept h
  · rename_i hnone
    split
    · exact .stopped rfl
    · rename_i new hbind
      obtain ⟨priv, hpriv, hnew⟩ := Option.bind_eq_some_iff.mp hbind
      unfold install
      split
      · exact .stopped rfl
      · exact .stopped rfl
      · split
        · exact .interrupted hpriv hnew rfl
        · exact .interrupted hpriv hnew rfl
        · cases hcert : x509KeyPair c new.certPEM new.keyPEM with
          | none => exact .interrupted hpriv hnew rfl
          | some cert => exact .regenerated hnone hpriv hnew hcert

/-! ## What is written -/

variable (c) in
/-- The public key `tls.X509KeyPair` takes from a key file. -/
def tlsPublic (keyPEM : Bytes) : Option Public := (tlsKey c keyPEM).bind c.public

omit [DecidableEq Public] in
/-- The pin of the key goes with it. -/
theorem spki_of_new {env : Env EC} {want : SANs} {priv : EC} {new : SelfSigned}
    (hnew : generateSelfSigned c env want priv = some new) :
    spkiPin c (c.publicEC priv) = some new.pins.spki := by
  obtain ⟨serial, der, spki, keyBytes, -, hspki, -, rfl⟩ := generateSelfSigned_eq_some hnew
  exact hspki

section Lawful

variable (hc : c.Lawful) {env : Env EC} {want : SANs} {priv : EC} {new : SelfSigned}
  (hnew : generateSelfSigned c env want priv = some new)

include hc hnew

omit [DecidableEq Public] in
/-- The key is read back, by the daemon and by TLS. -/
theorem keys_of_new :
    parseECKey c new.keyPEM = some priv ∧ tlsPublic c new.keyPEM = some (c.publicEC priv) := by
  obtain ⟨serial, der, spki, keyBytes, -, -, hkey, rfl⟩ := generateSelfSigned_eq_some hnew
  obtain ⟨hec, hpkcs1, hpkcs8⟩ := hc.ec priv keyBytes hkey
  constructor
  · rw [parseECKey, hc.pem_key]
    dsimp only
    rw [hec]
  · have hfind : ([⟨"EC PRIVATE KEY", keyBytes⟩] : List Block).find? (fun block =>
        block.type == "PRIVATE KEY" || hasSuffix block.type " PRIVATE KEY") =
          some ⟨"EC PRIVATE KEY", keyBytes⟩ := by
      have hsuffix : hasSuffix "EC PRIVATE KEY" " PRIVATE KEY" = true := by decide
      rw [List.find?_cons_of_pos]
      rw [hsuffix, Bool.or_true]
    rw [tlsPublic, tlsKey, hc.pem_key, hfind, Option.bind_some, parsePrivateKey, hpkcs1]
    dsimp only
    rw [hpkcs8]
    dsimp only
    rw [hec]
    rfl

/-- What is served is the new certificate. -/
theorem leaf_of_new {cert : KeyPair EC Other} (hcert : x509KeyPair c new.certPEM new.keyPEM = some cert) :
    ∃ leaf, cert.leaf c = some leaf ∧ leaf.publicKey = some (c.publicEC priv) ∧
      pinsFromLeaf c leaf = some new.pins ∧
      leaf.notAfter = env.now + 365 * day - (env.now + 365 * day) % second ∧
      leaf.dnsNames = dedupeStrings want.dnsNames ∧ leaf.ipAddresses = (dedupeIPs want.ips).map short := by
  obtain ⟨serial, der, spki, keyBytes, hder, hspki, -, rfl⟩ := generateSelfSigned_eq_some hnew
  obtain ⟨leaf, pub, hleaf, -, -, hchain⟩ := x509KeyPair_eq_some hcert
  have hparse : c.parseCertificate der = some leaf := by
    rw [hc.pem_certificate] at hchain
    rw [KeyPair.leaf, hchain] at hleaf
    exact hleaf
  obtain rfl := hc.certificate _ _ _ _ _ hder hparse
  refine ⟨_, hleaf, rfl, ?_, rfl, rfl, rfl⟩
  rw [pinsFromLeaf_eq rfl, hspki]
  rfl

end Lawful

end

namespace Sample

/-! A toy of the parameter: a key is a byte, its public key is the same byte, a PEM text is the type of its one
block, as a byte, before the bytes of the block, and certificates are issued for `localhost`, on the first day. -/

def crypto : Crypto UInt8 UInt8 (Bool × UInt8) where
  pemDecode
    | 1 :: b => [⟨"CERTIFICATE", b⟩]
    | 2 :: b => [⟨"EC PRIVATE KEY", b⟩]
    | 3 :: b => [⟨"RSA PRIVATE KEY", b⟩]
    | _ => []
  pemEncode block := (if block.type = "CERTIFICATE" then 1 else 2) :: block.bytes
  parseECPrivateKey
    | [k] => if k = 7 then none else some k
    | _ => none
  parsePKCS1PrivateKey b := if b = [7] then some 7 else none
  parsePKCS8PrivateKey _ := none
  marshalECPrivateKey k := if k = 7 then none else some [k]
  publicEC k := (true, k)
  publicOther k := some (false, k)
  marshalPKIXPublicKey pub := some [pub.1.toNat.toUInt8, pub.2]
  createCertificate random t k :=
    if t.dnsNames = ["localhost"] ∧ t.ipAddresses = [] ∧ t.notAfter = 365 * day then
      some [k, random.toUInt8]
    else none
  parseCertificate
    | [k, r] => some ⟨[k, r], some (true, k), 365 * day, ["localhost"], []⟩
    | _ => none
  sha256Hex b := ", ".intercalate (b.map fun x => x.toNat.repr)

theorem lawful : crypto.Lawful where
  pem_certificate der := rfl
  pem_key b := rfl
  ec k b h := by
    have h' : (if k = 7 then none else some [k]) = some b := h
    split at h'
    · cases h'
    · rename_i hk
      obtain rfl := Option.some.inj h'
      exact ⟨if_neg hk, if_neg fun heq => hk (List.singleton_inj.mp heq), rfl⟩
  certificate r t k der leaf hder hleaf := by
    have hder' : (if t.dnsNames = ["localhost"] ∧ t.ipAddresses = [] ∧ t.notAfter = 365 * day then
        some [k, r.toUInt8] else none) = some der := hder
    split at hder'
    · rename_i ht
      obtain rfl := Option.some.inj hder'
      obtain rfl : _ = leaf := Option.some.inj hleaf
      rw [ht.1, ht.2.1, ht.2.2]
      rfl
    · cases hder'

def env : Env UInt8 where
  now := 0
  minted := some 5
  serial := some 1
  random := 4

def want : SANs := ⟨["localhost"], []⟩

end Sample

end Harness.Cert
