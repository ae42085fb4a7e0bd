/-
# Harness.Hub.Approval — whose pairing was approved.

The host's approver answers for one connection: the one whose address it was shown. `handlePairing`
records that answer on the row of the token, and a row does not say for whom it was approved. Between
`ApprovePairingToken` and the connection's own consumption any other connection that presents the same
token consumes the approved row at its FIRST attempt and never reaches the approver
(`stolenApproval_issues`).

`approvals` is the missing record: who approved the current row of a token. In every run where no first
consumption takes a row approved by a connection, `approval_bound` holds.
-/
import Harness.Hub.Pairing

namespace Harness.Hub

open Wire Auth Lib

/-! ## The record of approvals -/

/-- One observation, as the record of `t` sees it. -/
def approvalsStep (t : String) (acc : List Approval) : Obs → List Approval
  | .tokenCreated t' => if t' = t then [] else acc
  | .approved a t' => if t' = t then a :: acc else acc
  | _ => acc

/-- Who approved the current row of `t`, newest first. A row that was approved before the daemon started
counts as approved out of band. -/
def approvals (db : Store) (t : String) (tr : List Obs) : List Approval :=
  tr.foldl (approvalsStep t) (if (db.pendingTokens t).any (·.approved) then [.outOfBand] else [])

theorem approvals_append (db : Store) (t : String) (tr os : List Obs) :
    approvals db t (tr ++ os) = os.foldl (approvalsStep t) (approvals db t tr) := by
  rw [approvals, List.foldl_append, approvals]

theorem foldl_approvalsStep_of_tokenOf {t : String} {os : List Obs}
    (hno : ∀ o ∈ os, o.tokenOf ≠ some t) (acc : List Approval) :
    os.foldl (approvalsStep t) acc = acc := by
  induction os generalizing acc with
  | nil => rfl
  | cons o os ih =>
    have hstep : approvalsStep t acc o = acc := by
      have ho := hno o List.mem_cons_self
      cases o with
      | tokenCreated t' => exact if_neg fun he => ho (congrArg some he)
      | approved a t' => exact if_neg fun he => ho (congrArg some he)
      | _ => rfl
    rw [List.foldl_cons, hstep]
    exact ih (fun o' ho' => hno o' (List.mem_cons_of_mem _ ho')) acc

/-- Whoever stands in the record approved the token in the trace, or before it. -/
theorem mem_approvals {db : Store} {t : String} {a : Approval} {tr : List Obs}
    (h : a ∈ approvals db t tr) :
    .approved a t ∈ tr ∨ (db.pendingTokens t).any (·.approved) = true := by
  induction tr using List.reverseRecOn with
  | nil =>
    rw [approvals, List.foldl_nil] at h
    split at h
    · exact .inr ‹_›
    · exact absurd h List.not_mem_nil
  | append_singleton tr o ih =>
    rw [approvals_append, List.foldl_cons, List.foldl_nil] at h
    have old (hold : a ∈ approvals db t tr) :
        .approved a t ∈ tr ++ [o] ∨ (db.pendingTokens t).any (·.approved) = true :=
      (ih hold).imp_left (List.mem_append_left _)
    cases o with
    | tokenCreated t' =>
      simp only [approvalsStep] at h
      split at h
      · exact absurd h List.not_mem_nil
      · exact old h
    | approved a' t' =>
      simp only [approvalsStep] at h
      split at h
      · rename_i ht
        subst ht
        rcases List.mem_cons.mp h with rfl | hold
        · exact .inl (List.mem_append_right _ List.mem_cons_self)
        · exact old hold
      · exact old h
    | _ => exact old h

/-- **An approved row has an approver on record.** -/
theorem approved_on_record {cfg : Config} {P : List Obs → World → Action → Prop} {db : Store}
    {now : Int} {tr : List Obs} {w : World} (h : (system cfg).Run P [] (World.init cfg db now) tr w)
    {t : String} {pt : PendingToken} (hrow : w.row t = some pt) (hap : pt.approved = true) :
    approvals db t tr ≠ [] := by
  refine h.invariant (I := fun tr w => ∀ pt, w.row t = some pt → pt.approved = true →
    approvals db t tr ≠ []) ?_ ?_ pt hrow hap
  · intro pt hrow hap
    have hdb : db.pendingTokens t = some pt := hrow
    simp [approvals, hdb, hap]
  · intro tr u a u' os _ ih _ hs pt hrow hap
    have hst : StepTrans cfg u a u' os := World.step_trans hs
    have hr := hst.row t
    rw [hrow] at hr
    rw [approvals_append]
    generalize hold : u.row t = r at hr
    cases hr with
    | same hno =>
      -- neither the row nor the record changes
      rw [foldl_approvalsStep_of_tokenOf hno]
      exact ih pt hold hap
    | created hpt =>
      rw [hpt] at hap
      cases hap
    | approved => simp [approvalsStep]

/-! ## Binding -/

/-- The token was approved out of band, and not by a connection, when `c` consumed it. -/
def ConsumedOutOfBand (db : Store) (c : ConnId) (t : String) (q : List Obs) : Prop :=
  ∃ q₁ q₂, q = q₁ ++ .consumed c t :: q₂ ∧ .outOfBand ∈ approvals db t q₁ ∧
    ∀ c', .conn c' ∉ approvals db t q₁

/-- Every credential goes to a connection the approver said yes to, or to one that consumed a token
approved out of band. -/
def ApprovalBound (db : Store) (tr : List Obs) : Prop :=
  Lts.Preceded (fun q o => ∀ c t dev cred, o = .issued c t dev cred →
    .approverSaid c t true ∈ q ∨ ConsumedOutOfBand db c t q) tr

/-- The condition on a step: a first consumption that finds its row approved does not find it approved
by a connection. -/
def NoBorrowedApproval (db : Store) (tr : List Obs) (w : World) (a : Action) : Prop :=
  ∀ c p, a = .conn c (.call .ok) → w.conns[c]? = some (.pairing p .consume) →
    (∃ pt, w.row p.token = some pt ∧ pt.approved = true ∧ pt.expired w.hub.now = false) →
    ∀ c', .conn c' ∉ approvals db p.token tr

theorem ConsumedOutOfBand.mono {db : Store} {c : ConnId} {t : String} {q q' : List Obs}
    (hq : q <+: q') (h : ConsumedOutOfBand db c t q) : ConsumedOutOfBand db c t q' := by
  obtain ⟨r, rfl⟩ := hq
  obtain ⟨q₁, q₂, rfl, hout, hno⟩ := h
  exact ⟨q₁, q₂ ++ r, by rw [List.append_assoc, List.cons_append], hout, hno⟩

/-- What the position of a pairing says about its approval. -/
def Backed (db : Store) (c : ConnId) (ph : ConnPhase) (tr : List Obs) : Prop :=
  match ph with
  | .pairing p (.approveGet _) | .pairing p (.approveSet _) | .pairing p (.consumeApproved _) =>
      .approverSaid c p.token true ∈ tr
  | .pairing p (.issue _) => .approverSaid c p.token true ∈ tr ∨ ConsumedOutOfBand db c p.token tr
  | _ => True

theorem Backed.mono {db : Store} {c : ConnId} {ph : ConnPhase} {t t' : List Obs} (ht : t <+: t')
    (h : Backed db c ph t) : Backed db c ph t' := by
  unfold Backed at h ⊢
  split at h
  · exact ht.mem h
  · exact ht.mem h
  · exact ht.mem h
  · exact h.imp ht.mem (ConsumedOutOfBand.mono ht)
  · trivial

/-- **Under the condition every pairing past its approval is backed.** -/
theorem backed {cfg : Config} {db : Store} {now : Int} {tr : List Obs} {w : World}
    (h : (system cfg).Run (NoBorrowedApproval db) [] (World.init cfg db now) tr w) :
    ∀ c ph, w.conns[c]? = some ph → Backed db c ph tr := by
  refine phase_rule (fun ht hI => hI.mono ht) trivial ?_ h
  intro t u c ch ph h' ph' os hr hP hph hI ht
  cases ht with
  | pairing ht =>
    cases ht with
    | allowed => exact List.mem_append_right _ List.mem_cons_self
    | check | approve => exact List.mem_append_left _ hI
    | consumeOwn | consumeLost => exact .inl (List.mem_append_left _ hI)
    | consume hcons =>
      -- nobody was asked: the row was approved, and by nobody's connection
      obtain ⟨⟨pt, hrow, hap, hexp⟩, -⟩ := consumePairingToken_some hcons
      have hno := hP c _ rfl hph ⟨pt, hrow, hap, hexp⟩
      refine .inr ⟨t, [], rfl, ?_, hno⟩
      obtain ⟨a, ha⟩ := List.exists_mem_of_ne_nil _ (approved_on_record hr hrow hap)
      cases a with
      | conn c' => exact absurd ha (hno c')
      | outOfBand => exact ha
    | peek | ask | issue | issueFails | quit => trivial
  | serving ht => cases ht <;> trivial
  | handling ht => cases ht <;> trivial
  | _ => trivial

/-- **Approval is bound to the connection it was given for**, in every run in which no first consumption
borrows another connection's approval. -/
theorem approval_bound {cfg : Config} {db : Store} {now : Int} {tr : List Obs} {w : World}
    (h : (system cfg).Run (NoBorrowedApproval db) [] (World.init cfg db now) tr w) :
    ApprovalBound db tr := by
  refine h.invariant (I := fun t _ => ApprovalBound db t) (Lts.preceded_nil _) ?_
  intro t u a u' os hr ih _ hs
  refine Lts.preceded_append_of_mono ?_ ih ?_
  · intro q q' hq o hR c t dev cred ho
    exact (hR c t dev cred ho).imp hq.mem (ConsumedOutOfBand.mono hq)
  · rintro o ho c t dev cred rfl
    obtain ⟨p, name, hph, rfl⟩ := (World.step_trans hs).issued ho
    exact backed hr c _ hph

/-- A decision of the condition. -/
def noBorrowedApproval (db : Store) (tr : List Obs) (w : World) : Action → Bool
  | .conn c _ =>
      match w.conns[c]? with
      | some (.pairing p .consume) =>
          (approvals db p.token tr).all fun a => decide (a = .outOfBand)
      | _ => true
  | _ => true

theorem noBorrowedApproval_sound (db : Store) (t : List Obs) (w : World) (a : Action)
    (h : noBorrowedApproval db t w a = true) : NoBorrowedApproval db t w a := by
  rintro c p rfl hph - c' hc'
  simp only [noBorrowedApproval, hph, List.all_eq_true, decide_eq_true_eq] at h
  cases h _ hc'

/-- `harness pair --approve` approves a token, and a connection presents it. -/
def outOfBandPairing : List Action :=
  [.pairGenerate Sample.tokenBytes 0, .pairApproveGet Sample.token "Kitchen",
    .pairApproveSet Sample.token "Kitchen"] ++ Sample.present 0 Sample.token ++
    [.conn 0 (.fresh (Vector.replicate 16 0x33) (Vector.replicate 32 0x44))]

theorem approval_bound_outOfBandPairing :
    ∃ tr w, (system Sample.config).Run (NoBorrowedApproval Sample.database) [] Sample.start tr w ∧
      tr.countP (Obs.issuedFor Sample.token) = 1 ∧ ApprovalBound Sample.database tr := by
  have hexec : ∃ tr, ((system Sample.config).exec (noBorrowedApproval Sample.database) []
      Sample.start outOfBandPairing).map Prod.fst = some tr ∧
      tr.countP (Obs.issuedFor Sample.token) = 1 := ⟨_, rfl, by decide⟩
  obtain ⟨tr, he, hone⟩ := hexec
  obtain ⟨w, hr⟩ := Lts.run_of_exec_trace (noBorrowedApproval_sound _) he
  exact ⟨tr, w, hr, hone, approval_bound hr⟩

/-- The approver says yes to connection 0. Before connection 0 consumes its token, connection 1 presents
the same token and is issued a credential without asking anybody. -/
def stolenApproval : List Action :=
  [.pairGenerate Sample.tokenBytes 0] ++ Sample.present 0 Sample.token ++
    [.conn 0 (.approval (some "Pixel")), .conn 0 (.call .ok), .conn 0 (.call .ok)] ++
    Sample.present 1 Sample.token ++
    [.conn 1 (.fresh (Vector.replicate 16 0x55) (Vector.replicate 32 0x66))]

/-- The observations that could justify a credential of connection 1. -/
def Obs.justifies (c : ConnId) (t : String) : Obs → Bool
  | .approverSaid c' t' ok => decide (c' = c ∧ t' = t) && ok
  | .approved .outOfBand t' => decide (t' = t)
  | _ => false

def Obs.issuedTo (c : ConnId) (t : String) : Obs → Bool
  | .issued c' t' _ _ => decide (c' = c ∧ t' = t)
  | _ => false

theorem stolenApproval_issues :
    ∃ tr w, (system Sample.config).Run Lts.Free [] Sample.start tr w ∧
      ¬ ApprovalBound Sample.database tr := by
  have hexec : ∃ tr, ((system Sample.config).exec (fun _ _ _ => true) [] Sample.start stolenApproval).map
      Prod.fst = some tr ∧ 0 < tr.countP (Obs.issuedTo 1 Sample.token) ∧
      tr.countP (Obs.justifies 1 Sample.token) = 0 := ⟨_, rfl, by decide, by decide⟩
  obtain ⟨tr, he, hissued, hno⟩ := hexec
  obtain ⟨w, hr⟩ := Lts.run_of_exec_trace (fun _ _ _ _ => trivial) he
  refine ⟨tr, w, hr, fun hbound => ?_⟩
  rw [List.countP_eq_zero] at hno
  obtain ⟨o, hm, ho⟩ := List.countP_pos_iff.mp hissued
  cases o with
  | issued c t dev cred =>
    simp only [Obs.issuedTo, decide_eq_true_eq] at ho
    obtain ⟨rfl, rfl⟩ := ho
    obtain ⟨q, hq, hR⟩ := hbound.of_mem hm
    rcases hR 1 Sample.token dev cred rfl with hsaid | ⟨q₁, q₂, rfl, hout, -⟩
    · exact hno _ (hq.mem hsaid) (by simp [Obs.justifies])
    · rcases mem_approvals hout with hap | hdb
      · refine hno _ (hq.mem (List.mem_append_left _ hap)) (by simp [Obs.justifies])
      · cases hdb
  | _ => cases ho

end Harness.Hub
