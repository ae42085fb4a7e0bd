/-
# Harness.Hub.Grants — how many credentials a yes is worth.

A yes of the approver lets its own pairing issue a credential, whatever its second consumption finds, and it
approves the row of the token, which one other pairing may consume first. So a yes is worth two credentials, and
`harness pair --approve` one. `issued_le_granted` is the account, in every run: nothing else is worth any.
-/
import Harness.Hub.Pairing

namespace Harness.Hub

open Wire Auth Lib

/-! ## What is counted -/

def Obs.saidFor (t : String) : Obs → Bool
  | .approverSaid _ t' ok => decide (t' = t) && ok
  | _ => false

def Obs.connApprovedFor (t : String) : Obs → Bool
  | .approved (.conn _) t' => decide (t' = t)
  | _ => false

def Obs.outOfBandFor (t : String) : Obs → Bool
  | .approved .outOfBand t' => decide (t' = t)
  | _ => false

/-- The pairing has its yes, and is to approve the row and to issue. -/
def promised (t : String) : Attempt → PairPc → Bool
  | p, .approveGet _ | p, .approveSet _ => decide (p.token = t)
  | _, _ => false

/-- The pairing is to issue. -/
def owed (t : String) : Attempt → PairPc → Bool
  | p, .consumeApproved _ | p, .issue _ => decide (p.token = t)
  | _, _ => false

/-- An approved row is worth a credential to whoever consumes it. -/
def approvedRow (r : Option PendingToken) : Nat := (r.any (·.approved)).toNat

/-- The credentials that may still be issued for `t` without another yes. -/
def World.grants (w : World) (t : String) : Nat :=
  w.conns.countP (ConnPhase.inPairing (owed t)) + 2 * w.conns.countP (ConnPhase.inPairing (promised t)) +
    approvedRow (w.row t)

/-! ## One step -/

/-- A consumption takes an approved row, and an approval makes at most one. -/
theorem RowTrans.approvals {t : String} {now : Int} {r r' : Option PendingToken} {os : List Obs}
    (h : RowTrans t now r r' os) :
    os.countP (Obs.consumedFor t) + approvedRow r' ≤
      approvedRow r + os.countP (Obs.connApprovedFor t) + os.countP (Obs.outOfBandFor t) := by
  have none_counted (hno : ∀ o ∈ os, o.tokenOf ≠ some t) : os.countP (Obs.consumedFor t) = 0 := by
    rw [List.countP_eq_zero]
    intro o ho hc
    cases o with
    | consumed c t' =>
      simp only [Obs.consumedFor, decide_eq_true_eq] at hc
      exact hno _ ho (by rw [Obs.tokenOf, hc])
    | _ => cases hc
  cases h with
  | same hno =>
    rw [none_counted hno]
    omega
  | expired hno =>
    rw [none_counted hno]
    simp [approvedRow]
  | created hpt => simp [Obs.consumedFor, approvedRow, hpt]
  | @approved pt name a =>
    -- the row may have been approved before
    have hone : approvedRow (some { pt with name := name, approved := true }) = 1 := rfl
    cases a <;> simp [hone, Obs.consumedFor, Obs.connApprovedFor, Obs.outOfBandFor]
  | @consumed pt c hap hexp =>
    have hone : approvedRow (some pt) = 1 := by rw [approvedRow, Option.any_some, hap]; rfl
    have hnone : approvedRow none = 0 := rfl
    rw [hone, hnone, countP_one]
    simp [Obs.consumedFor, Obs.connApprovedFor, Obs.outOfBandFor]

/-- A pairing issues what it was promised, what it approved it gives away, and what it consumed it has. -/
theorem PairTrans.grants {cfg : Config} {c : ConnId} {h h' : Hub} {p : Attempt} {pc : PairPc} {ch : Choice}
    {ph : ConnPhase} {os : List Obs} (ht : PairTrans cfg c h p pc ch h' ph os) (t : String) :
    os.countP (Obs.issuedFor t) + (ph.inPairing (owed t)).toNat + 2 * (ph.inPairing (promised t)).toNat +
        os.countP (Obs.connApprovedFor t) ≤
      (owed t p pc).toNat + 2 * (promised t p pc).toNat + os.countP (Obs.consumedFor t) +
        2 * os.countP (Obs.saidFor t) := by
  cases ht with
  | consume | consumeOwn | allowed | approve =>
    simp only [countP_one, Obs.issuedFor, Obs.consumedFor, Obs.connApprovedFor, Obs.saidFor, ConnPhase.inPairing,
      owed, promised, Bool.and_true]
    generalize decide (p.token = t) = b
    cases b <;> simp
  | issue | issueFails =>
    -- the pairing leaves `issue`, and what it was owed pays for the credential
    rw [← List.singleton_append]
    simp only [List.countP_append, countP_one, Obs.issuedFor, Obs.consumedFor, Obs.connApprovedFor, Obs.saidFor,
      ConnPhase.inPairing, owed, promised]
    generalize decide (p.token = t) = b
    cases b <;> simp
  | quit _ hos =>
    -- a refusal counts for nothing
    have h0 : os.countP (Obs.issuedFor t) = 0 ∧ os.countP (Obs.connApprovedFor t) = 0 := by
      rw [List.countP_eq_zero, List.countP_eq_zero]
      refine ⟨fun o ho hc => ?_, fun o ho hc => ?_⟩ <;>
        rcases hos o ho with ⟨code, msg, rfl⟩ | rfl <;> cases hc
    rw [h0.1, h0.2]
    simp [ConnPhase.inPairing]
  | peek | ask | check | consumeLost =>
    simp [ConnPhase.inPairing, owed, promised]

/-- **One step of the daemon**: what is issued and what may still be issued is covered by what could be issued
before, two for a yes, and one for an approval out of band. -/
theorem StepTrans.grants {cfg : Config} {w w' : World} {a : Action} {os : List Obs} (h : StepTrans cfg w a w' os)
    (t : String) :
    os.countP (Obs.issuedFor t) + w'.grants t ≤
      w.grants t + 2 * os.countP (Obs.saidFor t) + os.countP (Obs.outOfBandFor t) := by
  have hrow := (h.row t).approvals
  -- the row is accounted for; what is left is about the pairings
  suffices hpairs : os.countP (Obs.issuedFor t) + (w'.conns.countP (ConnPhase.inPairing (owed t)) +
        2 * w'.conns.countP (ConnPhase.inPairing (promised t))) + os.countP (Obs.connApprovedFor t) ≤
      w.conns.countP (ConnPhase.inPairing (owed t)) + 2 * w.conns.countP (ConnPhase.inPairing (promised t)) +
        os.countP (Obs.consumedFor t) + 2 * os.countP (Obs.saidFor t) by
    unfold World.grants
    omega
  have quiet {f : Obs → Bool} (hno : ∀ o ∈ os, f o = false) : os.countP f = 0 := by
    rw [List.countP_eq_zero]
    intro o ho hf
    rw [hno o ho] at hf
    cases hf
  rcases h.registrars with ⟨c, p, pc, ch, h', ph', -, hph, ht, rfl⟩ | ⟨token, exp, st, -, -, hc, rfl⟩ |
    ⟨token, name, st, -, -, hc, rfl⟩ | ⟨d, -, hc, rfl⟩ | ⟨-, -, hno, hc⟩
  · have howed : (w.conns.set c ph').countP (ConnPhase.inPairing (owed t)) + (owed t p pc).toNat =
        w.conns.countP (ConnPhase.inPairing (owed t)) + (ph'.inPairing (owed t)).toNat := countP_set_add hph
    have hpromised : (w.conns.set c ph').countP (ConnPhase.inPairing (promised t)) + (promised t p pc).toNat =
        w.conns.countP (ConnPhase.inPairing (promised t)) + (ph'.inPairing (promised t)).toNat :=
      countP_set_add hph
    have hb := ht.grants t
    show os.countP (Obs.issuedFor t) + ((w.conns.set c ph').countP _ + 2 * (w.conns.set c ph').countP _) + _ ≤ _
    omega
  · rw [hc, quiet (List.forall_mem_singleton.mpr rfl), quiet (List.forall_mem_singleton.mpr rfl)]
    omega
  · rw [hc, quiet (List.forall_mem_singleton.mpr rfl), quiet (List.forall_mem_singleton.mpr rfl)]
    omega
  · rw [hc, quiet (List.forall_mem_singleton.mpr rfl), quiet (List.forall_mem_singleton.mpr rfl)]
    omega
  · have hsilent : ∀ o ∈ os, Obs.issuedFor t o = false ∧ Obs.connApprovedFor t o = false := by
      intro o ho
      have hpair := (hno o ho).2
      cases o with
      | issued c _ _ _ => exact absurd rfl (hpair c)
      | approved a _ =>
        cases a with
        | conn c => exact absurd rfl (hpair c)
        | outOfBand => exact ⟨rfl, rfl⟩
      | _ => exact ⟨rfl, rfl⟩
    rw [hc (owed t) fun _ => rfl, hc (promised t) fun _ => rfl, quiet fun o ho => (hsilent o ho).1,
      quiet fun o ho => (hsilent o ho).2]
    omega

/-- **Two credentials for a yes, one for an approval out of band**, in every run; a row that was approved before
the daemon started is worth one. -/
theorem issued_le_granted {cfg : Config} {P : List Obs → World → Action → Prop} {db : Store} {now : Int}
    {tr : List Obs} {w : World} (h : (system cfg).Run P [] (World.init cfg db now) tr w) (t : String) :
    tr.countP (Obs.issuedFor t) + w.grants t ≤
      approvedRow (db.pendingTokens t) + 2 * tr.countP (Obs.saidFor t) + tr.countP (Obs.outOfBandFor t) := by
  refine h.invariant (I := fun tr w => tr.countP (Obs.issuedFor t) + w.grants t ≤
    approvedRow (db.pendingTokens t) + 2 * tr.countP (Obs.saidFor t) + tr.countP (Obs.outOfBandFor t)) ?_ ?_
  · simp [World.grants, World.init, World.row, Store.createSession]
  · intro tr u a u' os _ ih _ hs
    have hst : StepTrans cfg u a u' os := World.step_trans hs
    have hstep := hst.grants t
    simp only [List.countP_append]
    omega

end Harness.Hub
