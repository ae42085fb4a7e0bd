/-
# Harness.Hub.Pairing — from a pairing token to a credential.

A pairing token is a row of `pending_tokens`; `handlePairing` peeks at it, consumes it if somebody has
approved it, and otherwise asks the host's approver, approves the row itself and consumes it. Any number
of connections may present one token, `harness pair` acts on the same row, and rows expire.

`StepTrans.row` is the life of one row, whoever acts on it. From it: a token is consumed at most as often
as it was created, in every run. What a token yields is another matter, because the result of the SECOND
consumption, the one after the approver's yes, is not looked at (`doublePairing_issues_twice`); in every
run where that consumption finds its row, `one_credential_per_token` holds.
-/
import Harness.Hub.Frame

namespace Harness.Hub

open Wire Auth Lib

/-! ## The token row -/

/-- The row of a pairing token. -/
def World.row (w : World) (t : String) : Option PendingToken := w.hub.store.pendingTokens t

/-- The token an observation of the token table is about. -/
def Obs.tokenOf : Obs → Option String
  | .tokenCreated t | .approved _ t | .consumed _ t => some t
  | _ => none

/-- **The life of a row**: what one step does to the row of `t`, and what is observed of it. -/
inductive RowTrans (t : String) (now : Int) : Option PendingToken → Option PendingToken → List Obs → Prop
  | same {r : Option PendingToken} {os : List Obs} (hno : ∀ o ∈ os, o.tokenOf ≠ some t) :
      RowTrans t now r r os
  | created {pt : PendingToken} (hpt : pt.approved = false) :
      RowTrans t now none (some pt) [.tokenCreated t]
  | approved {pt : PendingToken} {name : String} {a : Approval} :
      RowTrans t now (some pt) (some { pt with name := name, approved := true }) [.approved a t]
  | consumed {pt : PendingToken} {c : ConnId} (hap : pt.approved = true)
      (hexp : pt.expired now = false) : RowTrans t now (some pt) none [.consumed c t]
  | expired {r : Option PendingToken} {os : List Obs} (hno : ∀ o ∈ os, o.tokenOf ≠ some t) :
      RowTrans t now r none os

theorem createPendingToken_row {db st : Store} {token : String} {exp : Int}
    (h : db.createPendingToken token exp = some st) :
    db.pendingTokens token = none ∧
      st.pendingTokens = Function.update db.pendingTokens token (some ⟨token, "", false, exp⟩) := by
  unfold Store.createPendingToken at h
  split at h
  · cases h
  · rename_i hnone
    cases h
    exact ⟨hnone, rfl⟩

theorem approvePendingToken_row {db st : Store} {token name : String}
    (h : db.approvePendingToken token name = some st) :
    ∃ pt, db.pendingTokens token = some pt ∧ st.pendingTokens =
      Function.update db.pendingTokens token (some { pt with name := name, approved := true }) := by
  unfold Store.approvePendingToken at h
  split at h
  · cases h
  · rename_i pt hpt
    cases h
    exact ⟨pt, hpt, rfl⟩

theorem row_created {db st : Store} {token : String} {exp now : Int}
    (h : db.createPendingToken token exp = some st) (t : String) :
    RowTrans t now (db.pendingTokens t) (st.pendingTokens t) [.tokenCreated token] := by
  obtain ⟨hnone, hst⟩ := createPendingToken_row h
  rw [hst]
  by_cases ht : t = token
  · subst ht
    rw [Function.update_self, hnone]
    exact .created rfl
  · rw [Function.update_of_ne ht]
    refine .same fun o ho he => ht ?_
    rw [List.mem_singleton.mp ho] at he
    exact (Option.some.inj he).symm

theorem row_approved {db st : Store} {token name : String} {a : Approval} {now : Int}
    (h : db.approvePendingToken token name = some st) (t : String) :
    RowTrans t now (db.pendingTokens t) (st.pendingTokens t) [.approved a token] := by
  obtain ⟨pt, hpt, hst⟩ := approvePendingToken_row h
  rw [hst]
  by_cases ht : t = token
  · subst ht
    rw [Function.update_self, hpt]
    exact .approved
  · rw [Function.update_of_ne ht]
    refine .same fun o ho he => ht ?_
    rw [List.mem_singleton.mp ho] at he
    exact (Option.some.inj he).symm

theorem row_consumed {db st : Store} {token name : String} {c : ConnId} {now : Int}
    (h : consumePairingToken db token now = (some name, st)) (t : String) :
    RowTrans t now (db.pendingTokens t) (st.pendingTokens t) [.consumed c token] := by
  obtain ⟨⟨pt, hpt, hap, hexp⟩, rfl⟩ := consumePairingToken_some h
  by_cases ht : t = token
  · subst ht
    show RowTrans t now _ (Function.update db.pendingTokens t none t) _
    rw [Function.update_self, hpt]
    exact .consumed hap hexp
  · show RowTrans t now _ (Function.update db.pendingTokens token none t) _
    rw [Function.update_of_ne ht]
    refine .same fun o ho he => ht ?_
    rw [List.mem_singleton.mp ho] at he
    exact (Option.some.inj he).symm

/-- A row left alone, or deleted because it had expired. -/
theorem row_kept {db st : Store} {token : String} {os : List Obs} {now : Int}
    (hst : st = db ∨ st = db.deletePendingToken token) (hno : ∀ o ∈ os, o.tokenOf = none) (t : String) :
    RowTrans t now (db.pendingTokens t) (st.pendingTokens t) os := by
  have hno' : ∀ o ∈ os, o.tokenOf ≠ some t := fun o ho he => by
    rw [hno o ho] at he
    cases he
  rcases hst with rfl | rfl
  · exact .same hno'
  · by_cases ht : t = token
    · subst ht
      show RowTrans t now _ (Function.update db.pendingTokens t none t) _
      rw [Function.update_self]
      exact .expired hno'
    · show RowTrans t now _ (Function.update db.pendingTokens token none t) _
      rw [Function.update_of_ne ht]
      exact .same hno'

theorem PairTrans.row {cfg : Config} {c : ConnId} {h h' : Hub} {p : Attempt} {pc : PairPc}
    {ch : Choice} {ph : ConnPhase} {os : List Obs} (ht : PairTrans cfg c h p pc ch h' ph os)
    (t : String) :
    RowTrans t h.now (h.store.pendingTokens t) (h'.store.pendingTokens t) os := by
  have said {o : Obs} (ho : o.tokenOf = none) : ∀ o' ∈ [o], o'.tokenOf ≠ some t := by
    intro o' ho' he
    rw [List.mem_singleton.mp ho', ho] at he
    cases he
  cases ht with
  | peek | check => exact .same (List.forall_mem_nil _)
  | allowed => exact .same (said rfl)
  | consume hcons | consumeOwn hcons => exact row_consumed hcons t
  | ask hst | consumeLost _ hst => exact row_kept hst (List.forall_mem_nil _) t
  | approve happ => exact row_approved happ t
  | issue hiss =>
    cases hiss
    refine .same fun o ho he => ?_
    rcases List.mem_pair.mp ho with rfl | rfl <;> cases he
  | issueFails =>
    refine .same fun o ho he => ?_
    rcases List.mem_pair.mp ho with rfl | rfl <;> cases he
  | quit hst hos =>
    refine row_kept hst (fun o ho => ?_) t
    rcases hos o ho with ⟨code, msg, rfl⟩ | rfl <;> rfl

/-! ## Who touches the tables -/

/-- Lift a property of pairing positions to the phases of a connection. -/
def ConnPhase.inPairing (q : Attempt → PairPc → Bool) : ConnPhase → Bool
  | .pairing p pc => q p pc
  | _ => false

/-- Neither a pairing's nor an operator's observation. -/
def Obs.Unrelated (o : Obs) : Prop := o.source ≠ .operator ∧ ∀ c, o.source ≠ .pairing c

/-- **Who touches the tables.** A step of the daemon is a step of one pairing, a statement of
`harness pair`, or it leaves both tables alone and makes none of their observations. -/
theorem StepTrans.registrars {cfg : Config} {w w' : World} {a : Action} {os : List Obs}
    (h : StepTrans cfg w a w' os) :
    (∃ c p pc ch h' ph', a = .conn c ch ∧ w.conns[c]? = some (.pairing p pc) ∧
      PairTrans cfg c w.hub p pc ch h' ph' os ∧
      w' = { w with hub := h', conns := w.conns.set c ph' }) ∨
    (∃ token exp st, w.hub.store.createPendingToken token exp = some st ∧ w'.hub.store = st ∧
      w'.conns = w.conns ∧ os = [.tokenCreated token]) ∨
    (∃ token name st, w.hub.store.approvePendingToken token name = some st ∧ w'.hub.store = st ∧
      w'.conns = w.conns ∧ os = [.approved .outOfBand token]) ∨
    (∃ d, w'.hub.store = w.hub.store.revokeDevice d ∧ w'.conns = w.conns ∧ os = [.revoked d]) ∨
    (w'.hub.store.devices = w.hub.store.devices ∧
      w'.hub.store.pendingTokens = w.hub.store.pendingTokens ∧ (∀ o ∈ os, o.Unrelated) ∧
      ∀ q : Attempt → PairPc → Bool, (∀ p, q p .peek = false) →
        w'.conns.countP (ConnPhase.inPairing q) = w.conns.countP (ConnPhase.inPairing q)) := by
  cases h with
  | @conn c ch ph ph' h' _ hph ht =>
    have hobs := ht.obs
    have unrelated (hsrc : ∀ c', ph.source c ≠ .pairing c') : ∀ o ∈ os, o.Unrelated := by
      intro o ho
      rcases hobs o ho with h1 | h1 | h1
      · refine ⟨?_, fun c' => h1 ▸ hsrc c'⟩
        rw [h1]
        cases ph <;> exact nofun
      · rw [Obs.Unrelated, h1]
        exact ⟨nofun, fun _ => nofun⟩
      · rw [Obs.Unrelated, h1]
        exact ⟨nofun, fun _ => nofun⟩
    have moved {q : Attempt → PairPc → Bool} (h0 : ph.inPairing q = false)
        (h1 : ph'.inPairing q = false) : (w.conns.set c ph').countP (ConnPhase.inPairing q) =
          w.conns.countP (ConnPhase.inPairing q) := by
      have hmove := countP_set_add (y := ph') (p := ConnPhase.inPairing q) hph
      rw [h0, h1] at hmove
      exact hmove
    cases ht with
    | pairing ht => exact .inl ⟨c, _, _, ch, h', ph', rfl, hph, ht, rfl⟩
    | unauthenticated =>
      exact .inr (.inr (.inr (.inr ⟨rfl, rfl, unrelated fun _ => nofun, fun q hq => moved rfl (hq _)⟩)))
    | authenticated | turnedAway | frame | skip | gone =>
      exact .inr (.inr (.inr (.inr ⟨rfl, rfl, unrelated fun _ => nofun, fun q _ => moved rfl rfl⟩)))
    | serving ht =>
      have hst := ht.frame.2
      refine .inr (.inr (.inr (.inr ⟨by rw [hst], by rw [hst], unrelated fun _ => nofun,
        fun q _ => moved rfl ?_⟩)))
      cases ht <;> rfl
    | handling ht =>
      obtain ⟨hd, hp⟩ := ht.tables
      refine .inr (.inr (.inr (.inr ⟨hd, hp, unrelated fun _ => nofun, fun q _ => moved rfl ?_⟩)))
      cases ht <;> rfl
  | ingest ht =>
    obtain ⟨hd, hp⟩ := ht.tables
    refine .inr (.inr (.inr (.inr ⟨hd, hp, fun o ho => ?_, fun q _ => rfl⟩)))
    rcases ht.obs o ho with h1 | h1 <;> rw [Obs.Unrelated, h1] <;> exact ⟨nofun, fun _ => nofun⟩
  | accept =>
    refine .inr (.inr (.inr (.inr ⟨rfl, rfl, List.forall_mem_nil _, fun q _ => ?_⟩)))
    show (w.conns ++ [_]).countP (ConnPhase.inPairing q) = _
    simp [ConnPhase.inPairing]
  | write hw hos =>
    refine .inr (.inr (.inr (.inr ⟨rfl, rfl, fun o ho => ?_, fun q _ => rfl⟩)))
    rcases hos with ⟨f, rfl, -⟩ | rfl
    · rw [List.mem_singleton.mp ho]
      exact ⟨nofun, fun _ => nofun⟩
    · exact absurd ho List.not_mem_nil
  | pairGenerate hst => exact .inr (.inl ⟨_, _, _, hst, rfl, rfl, rfl⟩)
  | pairApproveSet hst => exact .inr (.inr (.inl ⟨_, _, _, hst, rfl, rfl, rfl⟩))
  | pairRevoke => exact .inr (.inr (.inr (.inl ⟨_, rfl, rfl, rfl⟩)))
  | pairApproveGet | pairApproveLost | clock =>
    exact .inr (.inr (.inr (.inr ⟨rfl, rfl, List.forall_mem_nil _, fun q _ => rfl⟩)))

theorem Obs.Unrelated.tokenOf {o : Obs} (h : o.Unrelated) : o.tokenOf = none := by
  cases o with
  | tokenCreated t => exact absurd rfl h.1
  | consumed c t => exact absurd rfl (h.2 c)
  | approved a t =>
    cases a with
    | conn c => exact absurd rfl (h.2 c)
    | outOfBand => exact absurd rfl h.1
  | _ => rfl

/-- **One step of the daemon, as the row of `t` sees it.** -/
theorem StepTrans.row {cfg : Config} {w w' : World} {a : Action} {os : List Obs}
    (h : StepTrans cfg w a w' os) (t : String) : RowTrans t w.hub.now (w.row t) (w'.row t) os := by
  rcases h.registrars with ⟨c, p, pc, ch, h', ph', -, -, ht, rfl⟩ | ⟨token, exp, st, hst, hw, -, rfl⟩ |
    ⟨token, name, st, hst, hw, -, rfl⟩ | ⟨d, hw, -, rfl⟩ | ⟨-, hrow, hno, -⟩
  · exact ht.row t
  · rw [World.row, World.row, hw]
    exact row_created hst t
  · rw [World.row, World.row, hw]
    exact row_approved hst t
  · rw [World.row, World.row, hw]
    refine .same fun o ho he => ?_
    rw [List.mem_singleton.mp ho] at he
    cases he
  · rw [World.row, World.row, hrow]
    refine .same fun o ho he => ?_
    rw [(hno o ho).tokenOf] at he
    cases he

/-- A consumption finds its row approved and unexpired, and deletes it. -/
theorem consumed_row {t : String} {now : Int} {r r' : Option PendingToken} {os : List Obs}
    {c : ConnId} (h : RowTrans t now r r' os) (hc : .consumed c t ∈ os) :
    (∃ pt, r = some pt ∧ pt.approved = true ∧ pt.expired now = false) ∧ r' = none := by
  cases h with
  | same hno | expired hno => exact absurd rfl (hno _ hc)
  | created | approved => simp at hc
  | consumed hap hexp => exact ⟨⟨_, rfl, hap, hexp⟩, rfl⟩

/-! ## One credential per token -/

def Obs.createdFor (t : String) : Obs → Bool
  | .tokenCreated t' => decide (t' = t)
  | _ => false

def Obs.consumedFor (t : String) : Obs → Bool
  | .consumed _ t' => decide (t' = t)
  | _ => false

def Obs.issuedFor (t : String) : Obs → Bool
  | .issued _ t' _ _ => decide (t' = t)
  | _ => false

/-- The connection that called `IssueCredential`, and the token it called it for, whatever came of the call. -/
def Obs.issueCall : Obs → Option (ConnId × String)
  | .issued c t _ _ | .issueFailed c t => some (c, t)
  | _ => none

def Obs.calledFor (t : String) (o : Obs) : Bool := o.issueCall.any fun call => decide (call.2 = t)

/-- The connection has a name for the device and is about to issue its credential. -/
def issuing (t : String) : Attempt → PairPc → Bool
  | p, .issue _ => decide (p.token = t)
  | _, _ => false

/-- A consumption is paid for by a row, and a row by a creation. -/
theorem RowTrans.ledger {t : String} {now : Int} {r r' : Option PendingToken} {os : List Obs}
    (h : RowTrans t now r r' os) :
    os.countP (Obs.consumedFor t) + r'.isSome.toNat ≤ r.isSome.toNat + os.countP (Obs.createdFor t) := by
  have none_counted (hno : ∀ o ∈ os, o.tokenOf ≠ some t) : os.countP (Obs.consumedFor t) = 0 := by
    rw [List.countP_eq_zero]
    intro o ho hc
    cases o with
    | consumed c t' =>
      simp only [Obs.consumedFor, decide_eq_true_eq] at hc
      exact hno _ ho (by rw [Obs.tokenOf, hc])
    | _ => cases hc
  cases h with
  | same hno =>
    rw [none_counted hno]
    omega
  | expired hno =>
    rw [none_counted hno]
    simp
  | created | approved | consumed => simp [Obs.consumedFor, Obs.createdFor]

/-- In every run a token is consumed at most as often as it was created. -/
theorem consumed_le_created {cfg : Config} {P : List Obs → World → Action → Prop} {db : Store}
    {now : Int} {tr : List Obs} {w : World} (h : (system cfg).Run P [] (World.init cfg db now) tr w)
    (t : String) :
    tr.countP (Obs.consumedFor t) ≤
      (db.pendingTokens t).isSome.toNat + tr.countP (Obs.createdFor t) := by
  have hled := h.ledger (Obs.createdFor t) (Obs.consumedFor t) (fun w => (w.row t).isSome.toNat)
    (db.pendingTokens t).isSome.toNat ?_ ?_
  · omega
  · simp [World.init, World.row, Store.createSession]
  · intro t' u a u' os _ _ hs
    exact ((World.step_trans hs).row t).ledger

/-- The condition on a step: the consumption after an approver's yes gets its answer, and finds the row
present, approved and unexpired. -/
def OwnConsumeFinds (_ : List Obs) (w : World) (a : Action) : Prop :=
  ∀ c ch p name, a = .conn c ch → w.conns[c]? = some (.pairing p (.consumeApproved name)) →
    ch = .call .ok ∧
      ∃ pt, w.row p.token = some pt ∧ pt.approved = true ∧ pt.expired w.hub.now = false

/-- Under the condition the result of the second consumption is never lost. -/
theorem consume_not_lost {h : Hub} {p : Attempt} {ch : Choice}
    (hfind : ch = .call .ok ∧ ∃ pt, h.store.pendingTokens p.token = some pt ∧ pt.approved = true ∧
      pt.expired h.now = false)
    (hlost : ch = .call .ok → (consumePairingToken h.store p.token h.now).1 = none) : False := by
  obtain ⟨hch, pt, hpt, hap, hexp⟩ := hfind
  have hnone := hlost hch
  rw [consumePairingToken_approved hpt hap hexp] at hnone
  cases hnone

/-- A pairing calls `IssueCredential` for what it consumed. -/
theorem PairTrans.ledger {cfg : Config} {c : ConnId} {h h' : Hub} {p : Attempt} {pc : PairPc}
    {ch : Choice} {ph : ConnPhase} {os : List Obs} (ht : PairTrans cfg c h p pc ch h' ph os)
    (hfind : ∀ name, pc = .consumeApproved name → ch = .call .ok ∧
      ∃ pt, h.store.pendingTokens p.token = some pt ∧ pt.approved = true ∧ pt.expired h.now = false)
    (t : String) :
    os.countP (Obs.calledFor t) + (ph.inPairing (issuing t)).toNat ≤
      (issuing t p pc).toNat + os.countP (Obs.consumedFor t) := by
  cases ht with
  | consumeLost hlost => exact (consume_not_lost (hfind _ rfl) hlost).elim
  | consume | consumeOwn =>
    rw [countP_one, countP_one]
    simp [Obs.calledFor, Obs.issueCall, Obs.consumedFor, ConnPhase.inPairing, issuing]
  | issue | issueFails =>
    -- the pairing leaves `issue`, and what it held pays for the call
    rw [← List.singleton_append, List.countP_append, countP_one, countP_one]
    simp [Obs.calledFor, Obs.issueCall, ConnPhase.inPairing, issuing]
  | quit _ hos =>
    have h0 : os.countP (Obs.calledFor t) = 0 := by
      rw [List.countP_eq_zero]
      intro o ho hc
      rcases hos o ho with ⟨code, msg, rfl⟩ | rfl <;> cases hc
    rw [h0]
    simp [ConnPhase.inPairing]
  | peek | ask | allowed | check | approve =>
    simp [Obs.calledFor, Obs.issueCall, ConnPhase.inPairing, issuing]

/-- Under the condition `IssueCredential` is called no more often for a token than it was consumed. -/
theorem called_le_consumed {cfg : Config} {db : Store} {now : Int} {tr : List Obs} {w : World}
    (h : (system cfg).Run OwnConsumeFinds [] (World.init cfg db now) tr w) (t : String) :
    tr.countP (Obs.calledFor t) ≤ tr.countP (Obs.consumedFor t) := by
  have hled := h.ledger (Obs.consumedFor t) (Obs.calledFor t)
    (fun w => w.conns.countP (ConnPhase.inPairing (issuing t))) 0 ?_ ?_
  · omega
  · simp [World.init]
  · intro t' u a u' os _ hP hs
    have hst : StepTrans cfg u a u' os := World.step_trans hs
    have quiet (hno : ∀ o ∈ os, ∀ c, o.source ≠ .pairing c) : os.countP (Obs.calledFor t) = 0 := by
      rw [List.countP_eq_zero]
      intro o ho hc
      cases o with
      | issued c _ _ _ | issueFailed c _ => exact hno _ ho c rfl
      | _ => cases hc
    rcases hst.registrars with ⟨c, p, pc, ch, h', ph', rfl, hph, ht, rfl⟩ |
      ⟨token, exp, st, -, -, hc, rfl⟩ | ⟨token, name, st, -, -, hc, rfl⟩ | ⟨d, -, hc, rfl⟩ |
      ⟨-, -, hno, hc⟩
    · -- the pairing that moves; the others hold what they held
      have hmove : (u.conns.set c ph').countP (ConnPhase.inPairing (issuing t)) +
          (issuing t p pc).toNat =
            u.conns.countP (ConnPhase.inPairing (issuing t)) +
              (ph'.inPairing (issuing t)).toNat := countP_set_add hph
      have hb := ht.ledger (fun name hpc => hP c ch p name rfl (hpc ▸ hph)) t
      show os.countP (Obs.calledFor t) + (u.conns.set c ph').countP _ ≤ _
      omega
    · rw [hc]
      simp [Obs.calledFor, Obs.issueCall]
    · rw [hc]
      simp [Obs.calledFor, Obs.issueCall]
    · rw [hc]
      simp [Obs.calledFor, Obs.issueCall]
    · rw [hc (issuing t) fun _ => rfl, quiet fun o ho => (hno o ho).2]
      omega

/-- At most one call of `IssueCredential` per created token, and so at most one credential; a token that was
there at the start counts once. -/
def OneCredentialPerToken (db : Store) (tr : List Obs) : Prop :=
  ∀ t, tr.countP (Obs.calledFor t) ≤
    (db.pendingTokens t).isSome.toNat + tr.countP (Obs.createdFor t)

/-- Every call of `IssueCredential` comes after a consumption of the token by the same pairing. -/
def IssuedByConsumption (tr : List Obs) : Prop :=
  Lts.Preceded (fun q o => ∀ c t, o.issueCall = some (c, t) → .consumed c t ∈ q) tr

/-- Under the condition a pairing that is about to issue has consumed its token. -/
theorem issuing_consumed {cfg : Config} {db : Store} {now : Int} {tr : List Obs} {w : World}
    (h : (system cfg).Run OwnConsumeFinds [] (World.init cfg db now) tr w) :
    ∀ c ph, w.conns[c]? = some ph → ∀ p name, ph = .pairing p (.issue name) →
      .consumed c p.token ∈ tr := by
  refine phase_rule (I := fun c ph t => ∀ p name, ph = .pairing p (.issue name) →
    .consumed c p.token ∈ t) ?_ ?_ ?_ h
  · intro c ph t t' hp hI p name hph
    exact hp.mem (hI p name hph)
  · intro c hc ra ua t p name hph
    cases hph
  · intro t u c ch ph h' ph' os hr hP hph0 hI ht p name hph
    subst hph
    cases ht with
    | pairing ht =>
      cases ht with
      | consume | consumeOwn => exact List.mem_append_right _ List.mem_cons_self
      | consumeLost hlost => exact (consume_not_lost (hP c ch p _ rfl hph0) hlost).elim
    | serving ht => cases ht
    | handling ht => cases ht

theorem Obs.source_of_issueCall {o : Obs} {c : ConnId} {t : String} (h : o.issueCall = some (c, t)) :
    o.source = .pairing c := by
  cases o with
  | issued | issueFailed =>
    cases h
    rfl
  | _ => cases h

/-- `IssueCredential` is called by a pairing in its last step. -/
theorem StepTrans.issueCall {cfg : Config} {w w' : World} {a : Action} {os : List Obs}
    (h : StepTrans cfg w a w' os) {o : Obs} (ho : o ∈ os) {c : ConnId} {t : String}
    (hcall : o.issueCall = some (c, t)) :
    ∃ p name, w.conns[c]? = some (.pairing p (.issue name)) ∧ p.token = t := by
  have hof := Obs.source_of_issueCall hcall
  obtain ⟨ch, ph, h', ph', rfl, hph, hsrc, ht, -⟩ := h.of_conn ho (c := c) (by rw [hof]; rfl)
  rw [hof] at hsrc
  have hpair : ∃ p pc, ph = .pairing p pc := by
    rcases hsrc with h1 | h1
    · cases ph <;> first | exact ⟨_, _, rfl⟩ | cases h1
    · cases h1
  obtain ⟨p, pc, rfl⟩ := hpair
  cases ht with
  | pairing ht =>
    cases ht with
    | issue | issueFails =>
      rcases List.mem_pair.mp ho with rfl | rfl
      · cases hcall
        exact ⟨p, _, hph, rfl⟩
      · cases hcall
    | quit _ hos =>
      rcases hos _ ho with ⟨code, msg, rfl⟩ | rfl <;> cases hcall
    | peek | ask | check | consumeLost => exact absurd ho List.not_mem_nil
    | consume | allowed | approve | consumeOwn =>
      rw [List.mem_singleton.mp ho] at hcall
      cases hcall

/-- An issued credential was issued by a pairing in its last step. -/
theorem StepTrans.issued {cfg : Config} {w w' : World} {a : Action} {os : List Obs}
    (h : StepTrans cfg w a w' os) {c : ConnId} {t : String} {dev : DeviceID} {cred : String}
    (ho : .issued c t dev cred ∈ os) :
    ∃ p name, w.conns[c]? = some (.pairing p (.issue name)) ∧ p.token = t :=
  h.issueCall ho rfl

/-- Every consumption found its row approved and unexpired, and deleted it. -/
theorem consumed_found {cfg : Config} {P : List Obs → World → Action → Prop} {db : Store} {now : Int}
    {tr : List Obs} {w : World} (h : (system cfg).Run P [] (World.init cfg db now) tr w) {c : ConnId}
    {t : String} (hc : .consumed c t ∈ tr) :
    ∃ q u ch u' os, (system cfg).Run P [] (World.init cfg db now) q u ∧
      (system cfg).step u (.conn c ch) = some (u', os) ∧ .consumed c t ∈ os ∧ q ++ os <+: tr ∧
      (∃ pt, u.row t = some pt ∧ pt.approved = true ∧ pt.expired u.hub.now = false) ∧
      u'.row t = none := by
  obtain ⟨q, u, a, u', os, hr, -, hs, hm, hrest⟩ := h.step_of_mem hc List.not_mem_nil
  have hst : StepTrans cfg u a u' os := World.step_trans hs
  obtain ⟨ch, _, _, _, rfl, -⟩ := hst.of_conn hm (c := c) rfl
  obtain ⟨hfound, hgone⟩ := consumed_row (hst.row t) hm
  exact ⟨q, u, ch, u', os, hr, hs, hm, hrest.prefix_trace, hfound, hgone⟩

/-- **One credential per token, and only through consumption**, in every run whose second consumptions
find their rows: `IssueCredential` is called at most once for a token, failures included; each call comes after
the same pairing consumed the token; and every consumption found the token approved and unexpired, and deleted
it. -/
theorem one_credential_per_token {cfg : Config} {db : Store} {now : Int} {tr : List Obs} {w : World}
    (h : (system cfg).Run OwnConsumeFinds [] (World.init cfg db now) tr w) :
    OneCredentialPerToken db tr ∧ IssuedByConsumption tr ∧
      ∀ c t, .consumed c t ∈ tr →
        ∃ q u ch u' os, (system cfg).Run OwnConsumeFinds [] (World.init cfg db now) q u ∧
          (system cfg).step u (.conn c ch) = some (u', os) ∧ .consumed c t ∈ os ∧ q ++ os <+: tr ∧
          (∃ pt, u.row t = some pt ∧ pt.approved = true ∧ pt.expired u.hub.now = false) ∧
          u'.row t = none := by
  refine ⟨fun t => ?_, ?_, fun c t hc => consumed_found h hc⟩
  · have h1 := called_le_consumed h t
    have h2 := consumed_le_created h t
    omega
  · refine h.invariant (I := fun t _ => IssuedByConsumption t) (Lts.preceded_nil _) ?_
    intro t u a u' os hr ih _ hs
    refine Lts.preceded_append_of_mono ?_ ih ?_
    · intro q q' hq o hR c t hcall
      exact hq.mem (hR c t hcall)
    · intro o ho c t hcall
      obtain ⟨p, name, hph, rfl⟩ := (World.step_trans hs).issueCall ho hcall
      exact issuing_consumed hr c _ hph p name rfl

/-- A decision of the condition. -/
def ownConsumeFinds (_ : List Obs) (w : World) : Action → Bool
  | .conn c ch =>
      match w.conns[c]? with
      | some (.pairing p (.consumeApproved _)) =>
          (match ch with
            | .call .ok => true
            | _ => false) &&
          (w.row p.token).any fun pt => pt.approved && !pt.expired w.hub.now
      | _ => true
  | _ => true

theorem ownConsumeFinds_sound (t : List Obs) (w : World) (a : Action)
    (h : ownConsumeFinds t w a = true) : OwnConsumeFinds t w a := by
  rintro c ch p name rfl hph
  simp only [ownConsumeFinds, hph, Bool.and_eq_true, Option.any_eq_true] at h
  obtain ⟨hch, pt, hpt, hap, hexp⟩ := h
  refine ⟨?_, pt, hpt, hap, by simpa using hexp⟩
  split at hch
  · rfl
  · cases hch

/-- The approver says yes to connection 0, which approves, consumes and issues. -/
def approvedPairing : List Action :=
  [.pairGenerate Sample.tokenBytes 0] ++ Sample.present 0 Sample.token ++
    [.conn 0 (.approval (some "Pixel")), .conn 0 (.call .ok), .conn 0 (.call .ok), .conn 0 (.call .ok),
      .conn 0 (.fresh (Vector.replicate 16 0x33) (Vector.replicate 32 0x44))]

theorem one_credential_per_token_approvedPairing :
    ∃ tr w, (system Sample.config).Run OwnConsumeFinds [] Sample.start tr w ∧
      tr.countP (Obs.issuedFor Sample.token) = 1 ∧
      OneCredentialPerToken Sample.database tr ∧ IssuedByConsumption tr ∧
      ∀ c t, .consumed c t ∈ tr →
        ∃ q u ch u' os, (system Sample.config).Run OwnConsumeFinds [] Sample.start q u ∧
          (system Sample.config).step u (.conn c ch) = some (u', os) ∧ .consumed c t ∈ os ∧
          q ++ os <+: tr ∧
          (∃ pt, u.row t = some pt ∧ pt.approved = true ∧ pt.expired u.hub.now = false) ∧
          u'.row t = none := by
  have hexec : ∃ tr, ((system Sample.config).exec ownConsumeFinds [] Sample.start approvedPairing).map
      Prod.fst = some tr ∧ tr.countP (Obs.issuedFor Sample.token) = 1 := ⟨_, rfl, by decide⟩
  obtain ⟨tr, he, hone⟩ := hexec
  obtain ⟨w, hr⟩ := Lts.run_of_exec_trace ownConsumeFinds_sound he
  exact ⟨tr, w, hr, hone, one_credential_per_token hr⟩

/-- Two connections present one token and the approver says yes to both: the second consumption of the
slower one finds the row gone, and the pairing goes on. -/
def doublePairing : List Action :=
  [.pairGenerate Sample.tokenBytes 0] ++ Sample.present 0 Sample.token ++ Sample.present 1 Sample.token ++
    [.conn 0 (.approval (some "Pixel")), .conn 1 (.approval (some "Tablet")),
      .conn 0 (.call .ok), .conn 1 (.call .ok), .conn 0 (.call .ok), .conn 1 (.call .ok),
      .conn 0 (.call .ok), .conn 1 (.call .ok),
      .conn 0 (.fresh (Vector.replicate 16 0x33) (Vector.replicate 32 0x44)),
      .conn 1 (.fresh (Vector.replicate 16 0x55) (Vector.replicate 32 0x66))]

theorem doublePairing_issues_twice :
    ∃ tr w, (system Sample.config).Run Lts.Free [] Sample.start tr w ∧
      ¬ (OneCredentialPerToken Sample.database tr ∧ IssuedByConsumption tr) := by
  have hexec : ∃ tr, ((system Sample.config).exec (fun _ _ _ => true) [] Sample.start doublePairing).map
      Prod.fst = some tr ∧ tr.countP (Obs.calledFor Sample.token) = 2 ∧
      tr.countP (Obs.createdFor Sample.token) = 1 := ⟨_, rfl, by decide, by decide⟩
  obtain ⟨tr, he, htwo, hone⟩ := hexec
  obtain ⟨w, hr⟩ := Lts.run_of_exec_trace (fun _ _ _ _ => trivial) he
  refine ⟨tr, w, hr, fun hboth => ?_⟩
  have hle := hboth.1 Sample.token
  have hdb : (Sample.database.pendingTokens Sample.token).isSome.toNat = 0 := rfl
  omega

end Harness.Hub
