import Kora.FinancingPool.PayOff
import Kora.RiskRegistry.Counters
import Kora.RiskRegistry.Stake

set_option autoImplicit false

/-!
# Writing off a deal

Past the due date the admin can mark a funded invoice as defaulted, whatever the registry does: the
investors are paid their shares of what was repaid so far, and a registry that accepts the record
counts the default and slashes the verifier of the SME.

* `Overdue`, `WrittenOff`: when an invoice can be written off, and what that leaves;
* `recordDefaultAt_runs`, `Overdue.defaults`: the default goes through;
* **`written_off`**: in every reachable ledger.
-/

namespace Kora.FinancingPool

open Exec Run

/-! ## Statement -/

/-- An open deal is overdue, its contracts have the admin `admin`, and the pool holds what was
repaid so far, which is within the ceiling of the arithmetic. -/
structure Overdue (d : Deployment) (w : World) (i : ℕ) (p : Pool) (inv : Invoice)
    (admin : Address) : Prop extends OpenDeal d w i p inv where
  overdue : inv.dueDate < w.now
  poolAccessControl : w.pool.accessControl = some d.accessControl
  poolAdmin : w.pool.admin = some admin
  invoiceAdmin : w.invoiceNft.admin = some admin
  ceiling : p.repaidAmount * 10_000 ≤ i128Max
  holds : p.repaidAmount ≤ w.tokens.balance p.token d.financingPool

/-- The default of invoice `i`, with the token of its pool. -/
def writeOff (i : ℕ) (p : Pool) (admin : Address) : Entry := .pool (.markDefault admin i p.token)

/-- The registry takes the record of the default. -/
def Takes (d : Deployment) (w : World) (admin sme : Address) : Prop :=
  w.pool.riskRegistry = some d.riskRegistry ∧ w.riskRegistry.AcceptsDefault admin sme

/-- The default ended the invoice and paid every investor its share of what was repaid, and nobody
else; and it was recorded where the registry takes the record. -/
structure WrittenOff (d : Deployment) (i : ℕ) (w w' : World) (p : Pool) (inv : Invoice)
    (admin : Address) : Prop where
  status : w'.invoiceNft.status i = some .defaulted
  transfers : newTransfers w w' = if 0 < p.repaidAmount then
      (w.pool.positions i).toList.map fun e =>
        ⟨p.token, d.financingPool, e.1, p.repaidAmount * e.2.shareBps / 10_000⟩
    else []
  recorded : Takes d w admin inv.sme → ∃ profile, w.riskRegistry.smeProfile inv.sme = some profile ∧
    w'.riskRegistry.smeProfile inv.sme = some { profile with defaults := profile.defaults + 1 } ∧
    ∀ v, w'.riskRegistry.stake v = w.riskRegistry.stake v -
      if profile.verifier = v then w.riskRegistry.slash v else 0
  unrecorded : ¬ Takes d w admin inv.sme → w'.riskRegistry = w.riskRegistry

/-! ## The default -/

section Default

variable {w w' : World} {env : Env} {i : ℕ} {p : Pool} {inv : Invoice} {admin sme : Address}

/-- Recording a default never fails. -/
theorem recordDefaultAt_runs : ∃ w', recordDefaultAt admin sme env w = .ok () w' := by
  rw [recordDefaultAt, gets_run]
  cases w.pool.riskRegistry with
  | none => exact ⟨w, rfl⟩
  | some rr =>
    obtain ⟨o, w', ho⟩ := attempt_runs (callFrom env.net.financingPool rr env.net.riskRegistry
      (onRiskRegistry (RiskRegistry.own (RiskRegistry.recordDefault admin sme)))) env w
    exact ⟨w', net_run.trans (bind_ok.mpr ⟨o, w', ho, rfl⟩)⟩

theorem Overdue.ends (h : Overdue env.net w i p inv admin) (hlocks : w.Unlocked)
    (hadmin : admin ∈ env.signers) (hnow : env.timestamp = w.now)
    (hnft : w'.invoiceNft = w.invoiceNft) (hwired : w'.pool.invoiceNft = w.pool.invoiceNft) :
    ∃ w'', (do
      callInvoiceNft (InvoiceNft.setDefaulted admin i)
      let invoice ← loadInvoice i
      recordDefaultAt admin invoice.sme) env w' = .ok () w'' ∧ w''.tokens = w'.tokens := by
  have hcall : w'.pool.invoiceNft = some env.net.invoiceNft := hwired.trans h.invoiceNft
  have hdefaults : InvoiceNft.setDefaulted admin i (env.from env.net.financingPool)
      ⟨w'.invoiceNft, w'.accessControl, w'.riskRegistry⟩ =
        .ok () ⟨w'.invoiceNft.asDefaulted i inv, w'.accessControl, w'.riskRegistry⟩ := by
    rw [InvoiceNft.setDefaulted_iff, hnft]
    exact ⟨Or.inr hadmin, h.invoiceAdmin, hlocks.invoiceNft, inv, h.invoice, h.funded,
      hnow ▸ h.overdue, rfl⟩
  have hafter : (w'.invoiceNft.asDefaulted i inv).invoice i =
      some (.current { inv with status := .defaulted }) := Function.update_self ..
  rw [ok_run (callInvoiceNft_ok.mpr ⟨hcall, _, hdefaults, rfl⟩)]
  obtain ⟨w'', hrecord⟩ : ∃ w'', recordDefaultAt admin inv.sme env
      { w' with invoiceNft := w'.invoiceNft.asDefaulted i inv } = .ok () w'' := recordDefaultAt_runs
  refine ⟨w'', Eq.trans (loadInvoice_run hcall hafter) hrecord, ?_⟩
  obtain ⟨registry, rfl⟩ := recordDefaultAt_frame hrecord
  rfl

/-- The shares of the investors in what was repaid so far. -/
def repaidShares (w : World) (i : ℕ) (p : Pool) : List (Address × ℤ) :=
  if 0 < p.repaidAmount then
    (w.pool.positions i).toList.map fun e => (e.1, p.repaidAmount * e.2.shareBps / 10_000)
  else []

/-- **The default goes through**, and pays the investors their shares. -/
theorem Overdue.defaults (h : Overdue env.net w i p inv admin) (hlocks : w.Unlocked)
    (hbounded : PositionsBounded w) (hadmin : admin ∈ env.signers) (hnow : env.timestamp = w.now) :
    ∃ w', (writeOff i p admin).exec env w = .ok () w' ∧
      w'.tokens = w.tokens.payAll p.token env.net.financingPool (repaidShares w i p) := by
  have hend : ∃ w', (if 0 < p.repaidAmount then do
        distributeYield i p.token p.repaidAmount p.faceValue
        callInvoiceNft (InvoiceNft.setDefaulted admin i)
        let invoice ← loadInvoice i
        recordDefaultAt admin invoice.sme
      else do
        callInvoiceNft (InvoiceNft.setDefaulted admin i)
        let invoice ← loadInvoice i
        recordDefaultAt admin invoice.sme) env w = .ok () w' ∧
      w'.tokens = w.tokens.payAll p.token env.net.financingPool (repaidShares w i p) := by
    rw [ite_run, repaidShares]
    split_ifs with hpos
    · obtain ⟨w₁, hd⟩ : ∃ w₁, distributeYield i p.token p.repaidAmount p.faceValue env w =
          .ok () w₁ :=
        distributeYield_runs hpos.le (h.fits hpos.le h.ceiling) h.decimals (hbounded.toList i)
          h.shares h.holds
      rw [ok_run hd]
      obtain ⟨decimals, payments, hdecimals, hpay, rfl⟩ := distributeYield_pays hd
      obtain rfl := Option.some.inj (hdecimals.symm.trans h.decimals)
      rw [← hpay.eq_standard]
      exact h.ends hlocks hadmin hnow rfl rfl
    · exact h.ends hlocks hadmin hnow rfl rfl
  obtain ⟨w', hend, htokens⟩ := hend
  refine ⟨w', ?_, htokens⟩
  show markDefault admin i p.token env w = .ok () w'
  simp only [markDefault, requireAuth_seq_ok, requireAdmin_seq_ok, requireNotPaused_seq_ok,
    requireUnlocked_seq_ok, loadPool_seq_ok, ensure_seq_ok]
  exact ⟨Or.inr hadmin, h.poolAdmin, h.poolAccessControl, h.unpaused, hlocks.repayment i (by simp),
    p, h.pool, h.unclosed, hend⟩

theorem Overdue.recordedSme_iff (h : Overdue env.net w i p inv admin)
    (hadmin : admin ∈ env.signers) :
    recordedSme env w admin i = some sme ↔ Takes env.net w admin inv.sme ∧ inv.sme = sme := by
  have hauth : (env.from env.net.financingPool).Authenticates admin := Or.inr hadmin
  rw [recordedSme, h.invoice]
  simp only [RiskRegistry.recordDefault_isOk, hauth, true_and, Option.ite_none_right_eq_some,
    Option.some.injEq]
  rfl

theorem recordDefault_counts {S T : RiskRegistry.Storage}
    (h : RiskRegistry.recordDefault admin sme env S = .ok () T) :
    ∃ profile, S.smeProfile sme = some profile ∧
      T.smeProfile sme = some { profile with defaults := profile.defaults + 1 } ∧
      ∀ v, T.stake v = S.stake v - if profile.verifier = v then S.slash v else 0 := by
  have heffect := RiskRegistry.recordDefault_effect h
  have hslashes : ∀ v, ∃ profile, S.smeProfile sme = some profile ∧
      T.stake v = S.stake v - if profile.verifier = v then S.slash v else 0 :=
    fun _ => heffect.slashes
  cases heffect with
  | rest _ _ hquiet => exact hquiet.elim
  | recordDefault _ _ profile reputation log _ _ hprofile =>
    refine ⟨profile, hprofile, Function.update_self .., fun v => ?_⟩
    obtain ⟨profile', hprofile', hstake⟩ := hslashes v
    obtain rfl := Option.some.inj (hprofile.symm.trans hprofile')
    exact hstake

theorem Overdue.writtenOff (h : Overdue env.net w i p inv admin) (hadmin : admin ∈ env.signers)
    (hrun : (writeOff i p admin).exec env w = .ok () w')
    (htokens : w'.tokens =
      w.tokens.payAll p.token env.net.financingPool (repaidShares w i p)) :
    WrittenOff env.net i w w' p inv admin := by
  have hdefault : markDefault admin i p.token env w = .ok () w' := hrun
  obtain ⟨-, -, hregistry⟩ := markDefault_registry hdefault
  refine ⟨?_, (newTransfers_of_payAll htokens).trans ?_, fun htakes => ?_, fun htakes => ?_⟩
  · obtain ⟨_, _, -, -, -, -, -, _, _, _, -, rfl⟩ := markDefault_ok hdefault
    exact InvoiceNft.Storage.status_asDefaulted.trans (if_pos rfl)
  · rw [repaidShares]
    split_ifs
    · rw [List.map_map]
      rfl
    · rfl
  · have hsme := (h.recordedSme_iff hadmin).mpr ⟨htakes, rfl⟩
    rcases hregistry with ⟨sme, hs, hrecord⟩ | ⟨hnone, -⟩
    · obtain rfl := Option.some.inj (hsme.symm.trans hs)
      exact recordDefault_counts hrecord
    · rw [hsme] at hnone
      cases hnone
  · rcases hregistry with ⟨sme, hs, -⟩ | ⟨-, hsame⟩
    · exact absurd ((h.recordedSme_iff hadmin).mp hs).1 htakes
    · exact hsame

end Default

/-! ## Runs -/

/-- **Written off.** In every reachable ledger, the admin can write off an overdue invoice: the call
succeeds whatever the registry does, ends the invoice and pays every investor its share of what
was repaid so far, and nobody else; and where the registry takes the record, the default counts
for the SME and slashes its verifier. -/
theorem written_off (d : Deployment) (start : ℕ) (tokens : Tokens) (as : List Action) (w : World)
    (hw : w = run (step d) (genesis start tokens) as) (i : ℕ) (p : Pool) (inv : Invoice)
    (admin : Address) (h : Overdue d w i p inv admin) (signers : List Address)
    (hsigned : admin ∈ signers) (hadmin : admin ∉ d.contracts) :
    Call.Succeeds ⟨signers, writeOff i p admin⟩ d w ∧
      WrittenOff d i w (step d w (.call ⟨signers, writeOff i p admin⟩)) p inv admin := by
  set c : Call := ⟨signers, writeOff i p admin⟩
  subst hw
  have hsigner : admin ∈ signers.filter (· ∉ d.contracts) := by simp [hsigned, hadmin]
  obtain ⟨w', hrun, htokens⟩ : ∃ w', c.entry.exec (c.env d _) _ = .ok () w' ∧ w'.tokens = _ :=
    Overdue.defaults h (unlocked_run d start tokens as) (positionsBounded_run d start tokens as)
      hsigner rfl
  refine ⟨Call.succeeds_iff.mpr ⟨w', hrun⟩, ?_⟩
  rw [step_call_of_ok hrun]
  exact Overdue.writtenOff h hsigner hrun htokens

theorem overdue_sample : Overdue sample (run (step sample) sampleGenesis overdueInPart) 1
    overdueInPartPool fundedInvoice 1 where
  toOpenDeal := repayable_sample.toOpenDeal
  overdue := by decide +kernel
  poolAccessControl := by decide +kernel
  poolAdmin := by decide +kernel
  invoiceAdmin := by decide +kernel
  ceiling := by decide +kernel
  holds := by decide +kernel

/-- The admin writes off the sample invoice. -/
theorem written_off_sample :
    Call.Succeeds ⟨[1], .pool (.markDefault 1 1 50)⟩ sample
        (run (step sample) sampleGenesis overdueInPart) ∧
      WrittenOff sample 1 (run (step sample) sampleGenesis overdueInPart)
        (step sample (run (step sample) sampleGenesis overdueInPart)
          (.call ⟨[1], .pool (.markDefault 1 1 50)⟩)) overdueInPartPool fundedInvoice 1 :=
  written_off sample 0 sampleTokens overdueInPart _ rfl 1 overdueInPartPool fundedInvoice 1
    overdue_sample [1] (by decide) (by decide)

end Kora.FinancingPool
