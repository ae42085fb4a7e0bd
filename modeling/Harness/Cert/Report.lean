/-
# Harness.Cert.Report — what the daemon says about its identity.

A certificate that is issued anew is reported in one of two ways: the host identity has changed, when there
was no `key.pem`, or the SPKI pin is unchanged, when there was one. But a key that is there is not always
used again: one that cannot be read or is no ECDSA key in the first block of the file is replaced.

`report_truthful_iff` says when the report is right.
-/
import Harness.Cert

namespace Harness.Cert

variable {EC Other Public : Type} [DecidableEq Public] {c : Crypto EC Other Public}

/-- What `serveCmd` logs of a certificate. -/
inductive Message where
  | identityChanged
  | spkiUnchanged
  deriving DecidableEq, Repr

def message (keyExisted regenerated : Bool) : Option Message :=
  if regenerated then
    if !keyExisted then some .identityChanged else some .spkiUnchanged
  else none

variable (c) in
/-- The pin of the key in a file: the key TLS takes from it, or else the one that is read from its first
block. -/
def spkiIn (file : File) : Option String :=
  match file.read with
  | none => none
  | some data => ((tlsPublic c data).or ((parseECKey c data).map c.publicEC)).bind (spkiPin c)

variable (c) in
/-- **`Truthful c before after pins m`** — unless the identity is said to have changed, the pin is that of
the key that was in `key.pem`, and of the one that is there now. -/
def Truthful (before after : File) (pins : Pins) (m : Option Message) : Prop :=
  m ≠ some .identityChanged → spkiIn c before = some pins.spki ∧ spkiIn c after = some pins.spki

variable (c) in
/-- **`Reusable c file`** — a key is read from the first block of the file, and TLS takes no key with
another pin from it. -/
def Reusable (file : File) : Prop :=
  ∃ data k, file = .data data ∧ parseECKey c data = some k ∧
    ∀ pub, tlsPublic c data = some pub → spkiPin c pub = spkiPin c (c.publicEC k)

variable (c) in
/-- **`Fresh c env file`** — a key that is minted has not the pin of the key in the file. -/
def Fresh (env : Env EC) (file : File) : Prop :=
  ∀ k, env.minted = some k → ∀ spki, spkiPin c (c.publicEC k) = some spki → spkiIn c file ≠ some spki

/-- The key of an accepted pair is the one that was there. -/
theorem spkiIn_of_accepted {now : Int} {want : SANs} {disk : Disk} {cert : KeyPair EC Other} {pins : Pins}
    (h : accepted c now want disk = some (cert, pins)) : spkiIn c disk.key = some pins.spki := by
  obtain ⟨certPEM, keyPEM, leaf, rfl, hpair, hleaf, hpins, -⟩ := accepted_eq_some.mp h
  obtain ⟨leaf', pub, hleaf', hpub, hkey, -⟩ := x509KeyPair_eq_some hpair
  obtain rfl : leaf = leaf' := Option.some.inj (hleaf.symm.trans hleaf')
  rw [pinsFromLeaf_eq hpub, Option.map_eq_some_iff] at hpins
  obtain ⟨spki, hspki, rfl⟩ := hpins
  show ((tlsPublic c keyPEM).or _).bind (spkiPin c) = some spki
  rw [tlsPublic, hkey]
  exact hspki

omit [DecidableEq Public] in
theorem spkiIn_of_reusable {data : Bytes} {k : EC} (hk : parseECKey c data = some k)
    (htls : ∀ pub, tlsPublic c data = some pub → spkiPin c pub = spkiPin c (c.publicEC k)) :
    spkiIn c (.data data) = spkiPin c (c.publicEC k) := by
  show ((tlsPublic c data).or ((parseECKey c data).map c.publicEC)).bind (spkiPin c) = _
  cases h : tlsPublic c data with
  | some pub => exact htls pub h
  | none =>
      rw [hk]
      rfl

omit [DecidableEq Public] in
/-- The key that is written is the one that was signed with. -/
theorem spkiIn_new (hc : c.Lawful) {env : Env EC} {want : SANs} {priv : EC} {new : SelfSigned}
    (hnew : generateSelfSigned c env want priv = some new) :
    spkiIn c (.data new.keyPEM) = some new.pins.spki := by
  obtain ⟨hparse, htls⟩ := keys_of_new hc hnew
  rw [spkiIn_of_reusable hparse, spki_of_new hnew]
  intro pub hpub
  rw [htls] at hpub
  rw [Option.some.inj hpub]

omit [DecidableEq Public] in
/-- A key that is read is used again, otherwise one is minted. -/
theorem loadOrGenerateKey_cases {env : Env EC} {file : File} {priv : EC}
    (h : loadOrGenerateKey c env file = some priv) :
    (∃ data, file = .data data ∧ parseECKey c data = some priv) ∨
      env.minted = some priv ∧ ∀ data, file = .data data → parseECKey c data = none := by
  have hexists : ∀ data, (File.data data).exists = true := fun _ => rfl
  unfold loadOrGenerateKey at h
  cases file with
  | absent => exact .inr ⟨h, fun _ hdata => File.noConfusion hdata⟩
  | unreadable => exact .inr ⟨h, fun _ hdata => File.noConfusion hdata⟩
  | data data =>
      cases hparse : parseECKey c data with
      | some k =>
          have hread : (File.data data).read.bind (parseECKey c) = some k := hparse
          rw [if_pos (hexists data), hread] at h
          exact .inl ⟨data, rfl, hparse.trans h⟩
      | none =>
          have hread : (File.data data).read.bind (parseECKey c) = none := hparse
          rw [if_pos (hexists data), hread] at h
          refine .inr ⟨h, fun data' heq => ?_⟩
          obtain rfl := File.data.inj heq
          exact hparse

/-- **When the report is truthful.** -/
theorem report_truthful_iff (c : Crypto EC Other Public) (hc : c.Lawful) (env : Env EC) (want : SANs)
    (disk disk' : Disk) (cert : KeyPair EC Other) (pins : Pins) (regenerated : Bool)
    (h : loadOrGenerate c env want disk = (disk', .returned cert pins regenerated))
    (hfresh : Fresh c env disk.key) :
    Truthful c disk.key disk'.key pins (message disk.key.exists regenerated) ↔
      disk.key = .absent ∨ (accepted c env.now want disk).isSome ∨ Reusable c disk.key := by
  have hresult := loadOrGenerate_result (c := c) env want disk
  rw [h] at hresult
  cases hresult with
  | kept haccepted =>
      have hpin := spkiIn_of_accepted haccepted
      refine ⟨fun _ => .inr (.inl ?_), fun _ _ => ⟨hpin, hpin⟩⟩
      rw [haccepted]
      rfl
  | stopped hnot => cases hnot
  | interrupted _ _ hnot => cases hnot
  | @regenerated priv new _ hnone hpriv hnew hcert =>
      have hafter := spkiIn_new hc hnew
      have hspki := spki_of_new hnew
      by_cases hexists : disk.key = .absent
      · refine ⟨fun _ => .inl hexists, fun _ hm => ?_⟩
        rw [hexists] at hm
        exact absurd rfl hm
      · have hmessage : message disk.key.exists true = some .spkiUnchanged := by
          cases hkey : disk.key with
          | absent => exact absurd hkey hexists
          | _ => rfl
        rw [hmessage, hnone]
        constructor
        · intro htruthful
          have hbefore := (htruthful (by decide)).1
          rcases loadOrGenerateKey_cases hpriv with ⟨data, hdata, hparse⟩ | ⟨hminted, -⟩
          · refine .inr (.inr ⟨data, priv, hdata, hparse, fun pub hpub => ?_⟩)
            rw [hspki, ← hbefore, hdata, spkiIn]
            show _ = ((tlsPublic c data).or _).bind (spkiPin c)
            rw [hpub]
            rfl
          · -- the pin of a new key is not that of the old one
            exact absurd hbefore (hfresh priv hminted _ hspki)
        · rintro (habsent | hsome | ⟨data, k, hdata, hparse, htls⟩) -
          · exact absurd habsent hexists
          · cases hsome
          · -- a key that can be read is signed with
            rcases loadOrGenerateKey_cases hpriv with ⟨data', hdata', hparse'⟩ | ⟨-, hunread⟩
            · obtain rfl : data = data' := File.data.inj (hdata.symm.trans hdata')
              obtain rfl : k = priv := Option.some.inj (hparse.symm.trans hparse')
              refine ⟨?_, hafter⟩
              rw [hdata, spkiIn_of_reusable hparse htls, hspki]
            · rw [hunread data hdata] at hparse
              cases hparse

namespace Sample

def keyNine : Bytes := [2, 9]

/-- The RSA key of another program. -/
def rsaKey : Bytes := [3, 7]

end Sample

/-- An ECDSA key is used again. -/
theorem report_truthful_ecKey :
    ∃ disk' cert pins,
      loadOrGenerate Sample.crypto Sample.env Sample.want ⟨.absent, .data Sample.keyNine⟩ =
        (disk', .returned cert pins true) ∧
      Truthful Sample.crypto (.data Sample.keyNine) disk'.key pins (some .spkiUnchanged) := by
  have hfresh : Fresh Sample.crypto Sample.env (.data Sample.keyNine) := by
    intro k hk spki hspki
    obtain rfl : (5 : UInt8) = k := Option.some.inj hk
    rw [← hspki]
    decide +kernel
  have hreusable : Reusable Sample.crypto (.data Sample.keyNine) := by
    refine ⟨Sample.keyNine, 9, rfl, rfl, fun pub hpub => ?_⟩
    obtain rfl : (true, 9) = pub := Option.some.inj hpub
    rfl
  refine ⟨_, _, _, rfl, ?_⟩
  exact (report_truthful_iff Sample.crypto Sample.lawful Sample.env Sample.want
    ⟨.absent, .data Sample.keyNine⟩ _ _ _ true rfl hfresh).mpr (.inr (.inr hreusable))

/-- **A key of another type is replaced, and the pin is said to be unchanged.** -/
theorem rsa_replaced :
    ∃ disk' cert pins,
      loadOrGenerate Sample.crypto Sample.env Sample.want ⟨.absent, .data Sample.rsaKey⟩ =
        (disk', .returned cert pins true) ∧
      message (File.data Sample.rsaKey).exists true = some .spkiUnchanged ∧
      spkiIn Sample.crypto (.data Sample.rsaKey) ≠ some pins.spki ∧ disk'.key ≠ .data Sample.rsaKey :=
  ⟨_, _, _, rfl, rfl, by decide +kernel, by decide⟩

end Harness.Cert
