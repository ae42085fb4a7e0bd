/-
# Harness.Cert.Stability — one key, whatever happens to the certificate.

Calls of `LoadOrGenerate` at any times and for any names, some of them cut short between their two writes, and
between them `cert.pem` deleted or changed in any way. `certificate_stable` says that from the first `key.pem`
on every certificate that is served is one of its key, and covers what was asked for; a call that is repeated
at once finds the same pins and changes nothing.
-/
import Harness.Cert
import Harness.Lib.Transition

namespace Harness.Cert

open Lib
open Net (equal)

variable {EC Other Public : Type} [DecidableEq Public] {c : Crypto EC Other Public}

/-! ## The key that is kept -/

variable (c) in
/-- **`Holds c file k`** — the file holds the key `k`: the daemon reads it, and TLS reads no other. -/
def Holds (file : File) (k : EC) : Prop :=
  ∃ data, file = .data data ∧ parseECKey c data = some k ∧
    ∀ pub, tlsPublic c data = some pub → pub = c.publicEC k

variable (c) in
/-- **`Serves c k want cert pins`** — the certificate is one of the key, covers what was asked for, and its
pin is that of the key. -/
def Serves (k : EC) (want : SANs) (cert : KeyPair EC Other) (pins : Pins) : Prop :=
  ∃ leaf, cert.leaf c = some leaf ∧ leaf.publicKey = some (c.publicEC k) ∧ covers leaf want = true ∧
    spkiPin c (c.publicEC k) = some pins.spki

/-- No name is empty, and no address is nil. -/
structure SANs.Named (want : SANs) : Prop where
  dnsNames : ∀ dns ∈ want.dnsNames, dns ≠ ""
  ips : ∀ ip ∈ want.ips, ip ≠ []

omit [DecidableEq Public] in
/-- What was de-duplicated covers what was asked for. -/
theorem covers_of_dedupe {leaf : Leaf Public} {want : SANs} (h : want.Named)
    (hdns : leaf.dnsNames = dedupeStrings want.dnsNames)
    (hips : leaf.ipAddresses = (dedupeIPs want.ips).map short) : covers leaf want = true := by
  rw [covers, Bool.and_eq_true, List.all_eq_true, List.all_eq_true]
  refine ⟨fun dns hmem => ?_, fun ip hmem => ?_⟩
  · rw [hdns, List.any_eq_true]
    exact exists_mem_dedupe (fun _ => BEq.rfl) hmem (beq_eq_false_iff_ne.mpr (h.dnsNames dns hmem))
  · rw [hips, List.any_map, List.any_eq_true]
    have hskip : (ip == []) = false := beq_eq_false_iff_ne.mpr (h.ips ip hmem)
    have hlike : ∃ seen ∈ dedupeIPs want.ips, equal seen ip = true :=
      exists_mem_dedupe Net.equal_refl hmem hskip
    obtain ⟨seen, hseen, hsame⟩ := hlike
    exact ⟨seen, hseen, equal_short hsame⟩

section Step

variable {env : Env EC} {want : SANs} {disk disk' : Disk} {out : Outcome EC Other}

omit [DecidableEq Public] in
/-- The key that is written is held. -/
theorem holds_new (hc : c.Lawful) {priv : EC} {new : SelfSigned}
    (hnew : generateSelfSigned c env want priv = some new) : Holds c (.data new.keyPEM) priv := by
  obtain ⟨hparse, htls⟩ := keys_of_new hc hnew
  refine ⟨_, rfl, hparse, fun pub hpub => ?_⟩
  exact (Option.some.inj (htls.symm.trans hpub)).symm

/-- A new certificate serves its key. -/
theorem serves_new (hc : c.Lawful) (hwant : want.Named) {priv : EC} {new : SelfSigned}
    (hnew : generateSelfSigned c env want priv = some new) {cert : KeyPair EC Other}
    (hcert : x509KeyPair c new.certPEM new.keyPEM = some cert) : Serves c priv want cert new.pins := by
  obtain ⟨leaf, hleaf, hpub, -, -, hdns, hips⟩ := leaf_of_new hc hnew hcert
  exact ⟨leaf, hleaf, hpub, covers_of_dedupe hwant hdns hips, spki_of_new hnew⟩

omit [DecidableEq Public] in
/-- The key that is held is the one that is used. -/
theorem priv_of_holds {k priv : EC} (hk : Holds c disk.key k)
    (hpriv : loadOrGenerateKey c env disk.key = some priv) : priv = k := by
  obtain ⟨data, hdata, hparse, -⟩ := hk
  have hread : loadOrGenerateKey c env (.data data) = some k := by
    have hbind : (File.data data).read.bind (parseECKey c) = some k := hparse
    have hexists : (File.data data).exists = true := rfl
    rw [loadOrGenerateKey, if_pos hexists, hbind]
  rw [hdata, hread] at hpriv
  exact (Option.some.inj hpriv).symm

/-- A pair that is accepted serves the key that is held. -/
theorem serves_accepted {k : EC} (hk : Holds c disk.key k) {now : Int} {cert : KeyPair EC Other}
    {pins : Pins} (h : accepted c now want disk = some (cert, pins)) : Serves c k want cert pins := by
  obtain ⟨certPEM, keyPEM, leaf, rfl, hpair, hleaf, hpins, hcovers, -⟩ := accepted_eq_some.mp h
  obtain ⟨leaf', pub, hleaf', hpub, hkey, -⟩ := x509KeyPair_eq_some hpair
  obtain rfl : leaf = leaf' := Option.some.inj (hleaf.symm.trans hleaf')
  obtain ⟨data, hdata, -, htls⟩ := hk
  obtain rfl := File.data.inj hdata
  obtain rfl := htls pub hkey
  rw [pinsFromLeaf_eq hpub, Option.map_eq_some_iff] at hpins
  obtain ⟨spki, hspki, rfl⟩ := hpins
  exact ⟨leaf, hleaf, hpub, hcovers, hspki⟩

/-- A key that is held is held after a call, and served if the call returns. -/
theorem Result.holds (hc : c.Lawful) (h : Result c env want disk disk' out) {k : EC}
    (hk : Holds c disk.key k) :
    Holds c disk'.key k ∧ ∀ cert pins regenerated, want.Named →
      out = .returned cert pins regenerated → Serves c k want cert pins := by
  cases h with
  | kept haccepted =>
      refine ⟨hk, fun cert pins regenerated _ heq => ?_⟩
      cases heq
      exact serves_accepted hk haccepted
  | stopped hnot =>
      refine ⟨hk, fun cert pins regenerated _ heq => ?_⟩
      rw [heq] at hnot
      cases hnot
  | interrupted hpriv hnew hnot =>
      obtain rfl := priv_of_holds hk hpriv
      refine ⟨holds_new hc hnew, fun cert pins regenerated _ heq => ?_⟩
      rw [heq] at hnot
      cases hnot
  | regenerated _ hpriv hnew hcert =>
      obtain rfl := priv_of_holds hk hpriv
      refine ⟨holds_new hc hnew, fun cert pins regenerated hwant heq => ?_⟩
      cases heq
      exact serves_new hc hwant hnew hcert

/-- A call that returns leaves a key that is held, also when there was none. -/
theorem Result.holds_of_absent (hc : c.Lawful) (h : Result c env want disk disk' out)
    (habsent : disk.key = .absent) :
    (disk'.key = .absent ∧ out.isReturned = false) ∨
      ∃ k, Holds c disk'.key k ∧ ∀ cert pins regenerated, want.Named →
        out = .returned cert pins regenerated → Serves c k want cert pins := by
  cases h with
  | kept haccepted =>
      obtain ⟨certPEM, keyPEM, leaf, rfl, -⟩ := accepted_eq_some.mp haccepted
      cases habsent
  | stopped hnot => exact .inl ⟨habsent, hnot⟩
  | interrupted hpriv hnew hnot =>
      refine .inr ⟨_, holds_new hc hnew, fun cert pins regenerated _ heq => ?_⟩
      rw [heq] at hnot
      cases hnot
  | regenerated _ hpriv hnew hcert =>
      refine .inr ⟨_, holds_new hc hnew, fun cert pins regenerated hwant heq => ?_⟩
      cases heq
      exact serves_new hc hwant hnew hcert

/-- What a call returns is accepted at the same instant. -/
theorem Result.accepted_again (hc : c.Lawful) {cert : KeyPair EC Other} {pins : Pins} {regenerated : Bool}
    (h : Result c env want disk disk' (.returned cert pins regenerated)) (hwant : want.Named) :
    accepted c env.now want disk' = some (cert, pins) := by
  cases h with
  | kept haccepted => exact haccepted
  | stopped hnot => cases hnot
  | interrupted _ _ hnot => cases hnot
  | regenerated _ hpriv hnew hcert =>
      obtain ⟨leaf, hleaf, -, hpins, hafter, hdns, hips⟩ := leaf_of_new hc hnew hcert
      refine accepted_eq_some.mpr ⟨_, _, leaf, rfl, hcert, hleaf, hpins,
        covers_of_dedupe hwant hdns hips, ?_⟩
      -- the whole seconds of a year from now are more than thirty days away
      rw [nearExpiry, hafter, decide_eq_false_iff_not, regenWindow, day, second]
      omega

end Step

/-! ## Histories -/

/-- What happens to the files. -/
inductive Action (EC : Type) where
  | call (env : Env EC) (want : SANs)
  /-- `cert.pem` is deleted or replaced by anything -/
  | tamper (cert : File)

/-- A call, and how it ended. -/
structure Obs (EC Other : Type) where
  want : SANs
  outcome : Outcome EC Other

variable (c) in
def system : Lts Disk (Action EC) (Obs EC Other) where
  step disk
    | .call env want =>
        some ((loadOrGenerate c env want disk).1, [⟨want, (loadOrGenerate c env want disk).2⟩])
    | .tamper cert => some ({ disk with cert := cert }, [])

/-- Names that are asked for are names. -/
def Proper (_ : List (Obs EC Other)) (_ : Disk) (a : Action EC) : Prop :=
  ∀ env want, a = .call env want → want.Named

variable (c) in
/-- **`o.Serves c k`** — if the call returned, it serves the key. -/
def Obs.Serves (o : Obs EC Other) (k : EC) : Prop :=
  ∀ cert pins regenerated, o.outcome = .returned cert pins regenerated →
    Cert.Serves c k o.want cert pins

section Run

variable (hc : c.Lawful) {disk disk' : Disk}

include hc

/-- One step, when a key is held. -/
theorem holds_step {k : EC} (hk : Holds c disk.key k) {tr os : List (Obs EC Other)} {a : Action EC}
    (hproper : Proper tr disk a) (hs : (system c).step disk a = some (disk', os)) :
    Holds c disk'.key k ∧ ∀ o ∈ os, o.Serves c k := by
  cases a with
  | call env want =>
      cases hs
      obtain ⟨hkey, hserves⟩ := (loadOrGenerate_result env want disk).holds hc hk
      refine ⟨hkey, fun o ho cert pins regenerated heq => ?_⟩
      obtain rfl := List.mem_singleton.mp ho
      exact hserves cert pins regenerated (hproper env want rfl) heq
  | tamper cert =>
      cases hs
      exact ⟨hk, fun o ho => absurd ho List.not_mem_nil⟩

/-- One step, when there is no key. -/
theorem absent_step (habsent : disk.key = .absent) {tr os : List (Obs EC Other)} {a : Action EC}
    (hproper : Proper tr disk a) (hs : (system c).step disk a = some (disk', os)) :
    (disk'.key = .absent ∧ ∀ o ∈ os, o.outcome.isReturned = false) ∨
      ∃ k, Holds c disk'.key k ∧ ∀ o ∈ os, o.Serves c k := by
  cases a with
  | call env want =>
      cases hs
      rcases (loadOrGenerate_result (c := c) env want disk).holds_of_absent hc habsent with
        ⟨hstill, hnot⟩ | ⟨k, hk, hserves⟩
      · refine .inl ⟨hstill, fun o ho => ?_⟩
        obtain rfl := List.mem_singleton.mp ho
        exact hnot
      · refine .inr ⟨k, hk, fun o ho cert pins regenerated heq => ?_⟩
        obtain rfl := List.mem_singleton.mp ho
        exact hserves cert pins regenerated (hproper env want rfl) heq
  | tamper cert =>
      cases hs
      exact .inl ⟨habsent, fun o ho => absurd ho List.not_mem_nil⟩

/-- A key that is held is served from then on. -/
theorem holds_run {k : EC} (hk : Holds c disk.key k) {tr : List (Obs EC Other)}
    (h : (system c).Run Proper [] disk tr disk') : Holds c disk'.key k ∧ ∀ o ∈ tr, o.Serves c k := by
  refine h.invariant (I := fun tr disk => Holds c disk.key k ∧ ∀ o ∈ tr, o.Serves c k)
    ⟨hk, fun o ho => absurd ho List.not_mem_nil⟩ ?_
  intro t u a u' os _ ih hproper hs
  obtain ⟨hkey, hserves⟩ := holds_step hc ih.1 hproper hs
  exact ⟨hkey, List.forall_mem_append.mpr ⟨ih.2, hserves⟩⟩

/-- Until there is a key nothing is returned. -/
theorem absent_or_holds_run (hkey : disk.key = .absent ∨ ∃ k, Holds c disk.key k)
    {tr : List (Obs EC Other)} (h : (system c).Run Proper [] disk tr disk') :
    (disk'.key = .absent ∧ ∀ o ∈ tr, o.outcome.isReturned = false) ∨
      ∃ k, Holds c disk'.key k ∧ ∀ o ∈ tr, o.Serves c k := by
  refine h.invariant (I := fun tr disk => (disk.key = .absent ∧ ∀ o ∈ tr, o.outcome.isReturned = false) ∨
    ∃ k, Holds c disk.key k ∧ ∀ o ∈ tr, o.Serves c k) ?_ ?_
  · rcases hkey with habsent | ⟨k, hk⟩
    · exact .inl ⟨habsent, fun o ho => absurd ho List.not_mem_nil⟩
    · exact .inr ⟨k, hk, fun o ho => absurd ho List.not_mem_nil⟩
  · intro t u a u' os _ ih hproper hs
    rcases ih with ⟨habsent, hnone⟩ | ⟨k, hk, hserved⟩
    · rcases absent_step hc habsent hproper hs with ⟨hstill, hnot⟩ | ⟨k, hk, hserves⟩
      · exact .inl ⟨hstill, List.forall_mem_append.mpr ⟨hnone, hnot⟩⟩
      · refine .inr ⟨k, hk, List.forall_mem_append.mpr ⟨fun o ho cert pins regenerated heq => ?_, hserves⟩⟩
        have hfalse := hnone o ho
        rw [heq] at hfalse
        cases hfalse
    · obtain ⟨hk', hserves⟩ := holds_step hc hk hproper hs
      exact .inr ⟨k, hk', List.forall_mem_append.mpr ⟨hserved, hserves⟩⟩

end Run

/-- **One key, whatever happens to the certificate.** -/
theorem certificate_stable (c : Crypto EC Other Public) (hc : c.Lawful) (disk : Disk)
    (hkey : disk.key = .absent ∨ ∃ k, Holds c disk.key k) (tr : List (Obs EC Other)) (disk₁ : Disk)
    (h : (system c).Run Proper [] disk tr disk₁) :
    ((disk₁.key = .absent ∧ ∀ o ∈ tr, o.outcome.isReturned = false) ∨
      ∃ k, Holds c disk₁.key k ∧ (∀ o ∈ tr, o.Serves c k) ∧
        ∀ tr' disk₂, (system c).Run Proper [] disk₁ tr' disk₂ →
          Holds c disk₂.key k ∧ ∀ o ∈ tr', o.Serves c k) ∧
    ∀ env want disk₂ cert pins regenerated, want.Named →
      loadOrGenerate c env want disk₁ = (disk₂, .returned cert pins regenerated) →
      ∀ env', env'.now = env.now →
        loadOrGenerate c env' want disk₂ = (disk₂, .returned cert pins false) := by
  refine ⟨?_, fun env want disk₂ cert pins regenerated hwant hcall env' hnow => ?_⟩
  · rcases absent_or_holds_run hc hkey h with hnone | ⟨k, hk, hserves⟩
    · exact .inl hnone
    · exact .inr ⟨k, hk, hserves, fun tr' disk₂ h' => holds_run hc hk h'⟩
  · have hresult := loadOrGenerate_result (c := c) env want disk₁
    rw [hcall] at hresult
    have haccepted := hresult.accepted_again hc hwant
    rw [loadOrGenerate, hnow, haccepted]

/-- From an empty directory, through a crash between the two writes. -/
theorem certificate_stable_crash :
    ∃ tr disk₁, (system Sample.crypto).Run Proper [] ⟨.absent, .absent⟩ tr disk₁ ∧ tr.length = 2 ∧
      ∃ k, Holds Sample.crypto disk₁.key k ∧ ∀ o ∈ tr, o.Serves Sample.crypto k := by
  have hproper : ∀ (tr : List (Obs UInt8 UInt8)) disk env, Proper tr disk (.call env Sample.want) := by
    rintro tr disk env _ _ ⟨⟩
    exact ⟨by decide, by decide⟩
  have hcrash : (system Sample.crypto).Run Proper [] ⟨.absent, .absent⟩ ([] ++ _) _ :=
    Lts.Run.single (hproper _ _ { Sample.env with certWrite := .crashes }) rfl
  have hrun := hcrash.tail (hproper _ _ { Sample.env with minted := some 6 }) rfl
  refine ⟨_, _, hrun, rfl, ?_⟩
  obtain ⟨hkey, -⟩ := certificate_stable Sample.crypto Sample.lawful _ (.inl rfl) _ _ hrun
  rcases hkey with ⟨habsent, -⟩ | ⟨k, hk, hserves, -⟩
  · cases habsent
  · exact ⟨k, hk, hserves⟩

end Harness.Cert
