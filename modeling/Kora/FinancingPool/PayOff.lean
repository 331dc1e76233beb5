import Kora.FinancingPool.LateRepayment

set_option autoImplicit false

/-!
# Paying off a deal

Whoever has the money can pay off a funded invoice: one repayment of what is outstanding, with the
penalty when it is late, closes the pool, ends the invoice and pays every investor its share.

* `Payable`, `PaidOff`: when what is owed can be paid, and what the payment leaves;
* `Payable.fits`: the payment fits in an `i128`;
* **`paid_off`**: in every reachable ledger.
-/

namespace Kora.FinancingPool

open Exec Run

/-! ## Statement -/

/-- An open deal admits a repayment, and what is owed is within the ceiling of the arithmetic. -/
structure Payable (d : Deployment) (w : World) (i : ℕ) (p : Pool) (inv : Invoice) : Prop
    extends Repayable d w i p inv where
  ceiling : owedAt w.now inv.dueDate p * 10_000 ≤ i128Max

/-- The repayment of what is outstanding. -/
def payOff (w : World) (i : ℕ) (p : Pool) (inv : Invoice) (payer : Address) : Entry :=
  .pool (.repay payer i p.token (owedAt w.now inv.dueDate p - p.repaidAmount))

/-- The payment closed the pool, ended the invoice and paid every investor its share. -/
structure PaidOff (d : Deployment) (i : ℕ) (w w' : World) (payer : Address) (p : Pool)
    (inv : Invoice) : Prop where
  pool : ∃ q, w'.pool.pool i = some q ∧ q.isClosed = true ∧
    q.repaidAmount = owedAt w.now inv.dueDate p ∧ q.totalOwed = owedAt w.now inv.dueDate p
  status : w'.invoiceNft.status i = some .repaid
  transfers : newTransfers w w' =
    ⟨p.token, payer, d.financingPool, owedAt w.now inv.dueDate p - p.repaidAmount⟩ ::
      (w.pool.positions i).toList.map fun e =>
        ⟨p.token, d.financingPool, e.1, owedAt w.now inv.dueDate p * e.2.shareBps / 10_000⟩

/-! ## The payment -/

section Payment

variable {d : Deployment} {w w' : World} {env : Env} {i : ℕ} {p : Pool} {inv : Invoice}
  {payer : Address}

theorem Payable.fits (h : Payable d w i p inv) (hface : 0 ≤ p.faceValue) (hp : Accounted p) :
    RepaymentFits w i p inv (owedAt w.now inv.dueDate p - p.repaidAmount) := by
  obtain ⟨hrepaid, howed⟩ := hp.repaid h.unclosed
  have hle : p.totalOwed ≤ owedAt w.now inv.dueDate p := totalOwed_le_owedAt hface
  have hceiling := h.ceiling
  have hall : p.repaidAmount + (owedAt w.now inv.dueDate p - p.repaidAmount) =
      owedAt w.now inv.dueDate p := by omega
  refine ⟨fun hnew hdue => ?_, ?_, fun _ => ?_⟩
  · rcases Nat.eq_zero_or_pos p.latePenaltyBps with hzero | hpos
    · rw [hzero, Nat.cast_zero, mul_zero]
      decide
    · rw [owedAt, if_pos ⟨hnew, hpos, hdue⟩, hp.plain hnew] at hceiling
      rcases hface.eq_or_lt with hnothing | hsome
      · rw [← hnothing, zero_mul]
        decide
      · omega
  · unfold i128Max at *
    omega
  · rw [hall]
    exact h.toOpenDeal.fits (by omega) hceiling

theorem payOff_exec : (payOff w i p inv payer).exec =
    repay payer i p.token (owedAt w.now inv.dueDate p - p.repaidAmount) := rfl

theorem Payable.repays (h : Payable env.net w i p inv) (hlock : w.pool.repaymentLock i = false)
    (hface : 0 ≤ p.faceValue) (hmax : p.faceValue ≤ maxAmount) (hp : Accounted p)
    (hbounded : PositionsBounded w) (hpayer : payer ∈ env.signers)
    (hself : payer ≠ env.net.financingPool) (hnow : env.timestamp = w.now)
    (hfunds : owedAt w.now inv.dueDate p - p.repaidAmount ≤ w.tokens.balance p.token payer) :
    ∃ w', (payOff w i p inv payer).exec env w = .ok () w' := by
  rw [payOff_exec]
  obtain ⟨hrepaid, howed⟩ := hp.repaid h.unclosed
  have hle : p.totalOwed ≤ owedAt w.now inv.dueDate p := totalOwed_le_owedAt hface
  have hpaid : 0 < owedAt w.now inv.dueDate p - p.repaidAmount ∧
      owedAt w.now inv.dueDate p - p.repaidAmount ≤ maxAmount := by
    have hceiling := h.ceiling
    unfold maxAmount i128Max at *
    omega
  exact (h.repays_iff hlock hface hmax hp hbounded hpayer hself hnow hpaid hfunds).mpr
    (h.fits hface hp)

theorem Payable.paidOff (h : Payable env.net w i p inv) (hface : 0 ≤ p.faceValue)
    (hmax : p.faceValue ≤ maxAmount) (hp : Accounted p) (hnow : env.timestamp = w.now)
    (hrun : (payOff w i p inv payer).exec env w = .ok () w') :
    PaidOff env.net i w w' payer p inv := by
  rw [payOff_exec] at hrun
  obtain ⟨applied, hpenalty⟩ := applyLatePenalty_owedAt hface hmax hp (h.fits hface hp).penalty
  obtain ⟨-, hpos, q, inv', owed, applied', hq, -, hinv, -, hpenalty', hcases⟩ := repay_ok hrun
  obtain rfl := Option.some.inj (h.pool.symm.trans hq)
  obtain rfl := InvoiceNft.Storage.current_inj h.invoice hinv
  obtain rfl : owedAt w.now inv.dueDate p = owed := by
    rw [hnow, hpenalty] at hpenalty'
    exact congrArg Pool.totalOwed (Except.ok.inj hpenalty')
  have hcredit : credit w (owedAt w.now inv.dueDate p - p.repaidAmount) inv.currency = _ :=
    (convertIfNeeded_ok hpos h.convert).1.symm
  rw [hcredit] at hcases
  set owed := owedAt w.now inv.dueDate p
  have hall : p.repaidAmount + (owed - p.repaidAmount) = owed := by omega
  rcases hcases with ⟨hlt, -⟩ | ⟨hle, -, _, _, locks, -, hw'⟩
  · omega
  have hpool : w'.pool.pool i = some (repaidPool p owed applied' (owed - p.repaidAmount)) := by
    rw [hw']
    exact Function.update_self ..
  obtain ⟨-, _, payments, hdecimals, hpay, htokens⟩ :=
    repay_closes hrun hpool (decide_eq_true hle)
  obtain rfl := Option.some.inj (hdecimals.symm.trans h.decimals)
  refine ⟨⟨_, hpool, decide_eq_true hle, hall, rfl⟩, ?_, ?_⟩
  · rw [hw']
    exact InvoiceNft.Storage.status_asRepaid.trans (if_pos rfl)
  · rw [newTransfers_of_move_payAll htokens, hpay.eq_standard, List.map_map]
    simp only [repaidPool, hall, Function.comp_def]
    rfl

end Payment

/-! ## Runs -/

/-- **Paid off.** In every reachable ledger, whoever holds what is outstanding on a payable invoice
can pay it off: the repayment succeeds, closes the pool at exactly what was owed, ends the invoice
and pays every investor its share, and nobody else. -/
theorem paid_off (d : Deployment) (start : ℕ) (tokens : Tokens) (as : List Action) (w : World)
    (hw : w = run (step d) (genesis start tokens) as) (i : ℕ) (p : Pool) (inv : Invoice)
    (h : Payable d w i p inv) (payer : Address) (signers : List Address)
    (hsigned : payer ∈ signers) (hpayer : payer ∉ d.contracts)
    (hfunds : owedAt w.now inv.dueDate p - p.repaidAmount ≤ w.tokens.balance p.token payer) :
    Call.Succeeds ⟨signers, payOff w i p inv payer⟩ d w ∧
      PaidOff d i w (step d w (.call ⟨signers, payOff w i p inv payer⟩)) payer p inv := by
  set c : Call := ⟨signers, payOff w i p inv payer⟩
  subst hw
  obtain ⟨hface, hmax⟩ := withinCeiling_run d start tokens as i p h.pool
  have hp : Accounted p := poolsAccounted_run d start tokens as i p h.pool
  have hlock := (unlocked_run d start tokens as).repayment i (by simp)
  have hsigner : payer ∈ signers.filter (· ∉ d.contracts) := by simp [hsigned, hpayer]
  have hself : payer ≠ d.financingPool := by
    rintro rfl
    exact hpayer (by simp [Deployment.contracts])
  have hruns : ∃ w', c.entry.exec (c.env d _) _ = .ok () w' :=
    Payable.repays h hlock hface hmax hp (positionsBounded_run d start tokens as) hsigner hself rfl
      hfunds
  obtain ⟨w', hrun⟩ := hruns
  refine ⟨Call.succeeds_iff.mpr ⟨w', hrun⟩, ?_⟩
  rw [step_call_of_ok hrun]
  exact h.paidOff hface hmax hp rfl hrun

theorem payable_sample : Payable sample (run (step sample) sampleGenesis overdueInPart) 1
    overdueInPartPool fundedInvoice :=
  ⟨repayable_sample, by decide +kernel⟩

/-- An investor pays off the sample invoice, with the penalty. -/
theorem paid_off_sample :
    Call.Succeeds ⟨[5], .pool (.repay 5 1 50 10_100)⟩ sample
        (run (step sample) sampleGenesis overdueInPart) ∧
      PaidOff sample 1 (run (step sample) sampleGenesis overdueInPart)
        (step sample (run (step sample) sampleGenesis overdueInPart)
          (.call ⟨[5], .pool (.repay 5 1 50 10_100)⟩)) 5 overdueInPartPool fundedInvoice := by
  have howed : payOff (run (step sample) sampleGenesis overdueInPart) 1 overdueInPartPool
      fundedInvoice 5 = .pool (.repay 5 1 50 10_100) := by
    rw [payOff, show owedAt _ _ _ - _ = (10_100 : ℤ) by decide +kernel]
    rfl
  rw [← howed]
  exact paid_off sample 0 sampleTokens overdueInPart _ rfl 1 overdueInPartPool fundedInvoice
    payable_sample 5 [5] (by decide) (by decide) (by decide +kernel)

end Kora.FinancingPool
