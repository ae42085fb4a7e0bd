/-
# Harness.Auth — pairing tokens and device credentials over the store.

`hashCredential` (SHA-256, hex) is a parameter: the daemon stores and compares digests only.
-/
import Harness.Store

namespace Harness.Auth

open Wire

/-- `GeneratePairingTokenTTL` up to the insert: the hex token and its expiry. A ttl of zero never
expires. -/
def pairingToken (raw : Vector UInt8 32) (ttl now : Int) : String × Int :=
  (String.ofList (hexEncode raw.toList),
    unixMilli (if ttl = 0 then 9223372036854775807 else now + ttl))

/-- `PeekPairingToken`, also the check at the head of `ApprovePairingToken`: the row exists and has
not expired. -/
def peekPairingToken (db : Store) (token : String) (now : Int) : Option PendingToken :=
  match db.pendingTokens token with
  | none => none
  | some pt => if pt.expired now then none else some pt

/-- `ConsumePairingToken`: the name given at approval, and the tables afterwards. -/
def consumePairingToken (db : Store) (token : String) (now : Int) : Option String × Store :=
  match db.consumePendingToken token now with
  | (pt, db') => (pt.map (·.name), db')

/-- `IssueCredential` from the 32 random bytes: the credential, and the tables with its digest. -/
def issueCredential (db : Store) (hashCredential : String → String) (deviceID : DeviceID)
    (name : String) (raw : Vector UInt8 32) (now : Int) : String × Store :=
  let credential := String.ofList (hexEncode raw.toList)
  (credential, db.addDevice deviceID name (hashCredential credential) now)

/-- `ValidateCredential`. -/
def validateCredential (db : Store) (hashCredential : String → String) (credential : String) :
    Option DeviceID :=
  (db.getDeviceByHash (hashCredential credential)).map (·.deviceID)

/-- A consumption that hands out a name found an approved, unexpired row and deleted it. -/
theorem consumePairingToken_some {db db' : Store} {token name : String} {now : Int}
    (h : consumePairingToken db token now = (some name, db')) :
    (∃ pt, db.pendingTokens token = some pt ∧ pt.approved = true ∧ pt.expired now = false) ∧
      db' = db.deletePendingToken token := by
  unfold consumePairingToken at h
  rcases db.consumePendingToken_cases token now with ⟨pt, h1, h2, h3, he⟩ | ⟨pt, _, he⟩ | he
  · simp only [he, Option.map_some, Prod.mk.injEq, Option.some.injEq] at h
    exact ⟨⟨pt, h1, h2, h3⟩, h.2.symm⟩
  · simp [he] at h
  · simp [he] at h

/-- One that does not leaves the tables alone or deletes an expired row. -/
theorem consumePairingToken_none {db db' : Store} {token : String} {now : Int}
    (h : consumePairingToken db token now = (none, db')) :
    db' = db ∨ db' = db.deletePendingToken token := by
  unfold consumePairingToken at h
  rcases db.consumePendingToken_cases token now with ⟨pt, _, _, _, he⟩ | ⟨pt, _, he⟩ | he
  · simp [he] at h
  · simp only [he, Option.map_none, Prod.mk.injEq] at h
    exact .inr h.2.symm
  · simp only [he, Option.map_none, Prod.mk.injEq] at h
    exact .inl h.2.symm

/-- An approved, unexpired row is consumed. -/
theorem consumePairingToken_approved {db : Store} {token : String} {now : Int} {pt : PendingToken}
    (h : db.pendingTokens token = some pt) (ha : pt.approved = true) (he : pt.expired now = false) :
    consumePairingToken db token now = (some pt.name, db.deletePendingToken token) := by
  simp [consumePairingToken, Store.consumePendingToken, h, ha, he]

theorem validateCredential_spec {db : Store} {hash : String → String} {cred : String}
    {d : DeviceID} (h : validateCredential db hash cred = some d) :
    ∃ row ∈ db.devices, row.deviceID = d ∧ row.credentialHash = hash cred ∧ row.revoked = false := by
  simp only [validateCredential, Option.map_eq_some_iff] at h
  obtain ⟨row, hrow, rfl⟩ := h
  obtain ⟨hm, hh, hr⟩ := Store.getDeviceByHash_spec hrow
  exact ⟨row, hm, rfl, hh, hr⟩

end Harness.Auth
