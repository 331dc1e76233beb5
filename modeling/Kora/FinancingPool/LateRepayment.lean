import Kora.FinancingPool.Distributing
import Kora.System.Locks

set_option autoImplicit false

/-!
# Late repayments and the ceiling

A repayment of an open deal computes the late penalty, the repaid total and, when that closes the
pool, the payout of every position. Once everything else a repayment needs is there, it goes through
exactly where these numbers fit in an `i128`, which `max_amount` does not ensure.

* `owedAt`, `Repayable`, `RepaymentFits`: what is owed, and what a repayment needs and computes;
* `Repayable.repays_iff`: one repayment;
* **`overflowFree_iff`**: the amounts that are safe, and the repayments of every reachable ledger.
-/

namespace Kora.FinancingPool

open Exec Run

/-! ## Statement -/

/-- What a repayment at time `now` makes the pool owe: past the due date the late penalty is added,
once. -/
def owedAt (now due : ℕ) (p : Pool) : ℤ :=
  if p.penaltyApplied = false ∧ 0 < p.latePenaltyBps ∧ due < now then
    p.totalOwed + p.faceValue * p.latePenaltyBps / 10_000
  else p.totalOwed

/-- An open deal admits a repayment in the token of its pool, which is credited as it is, and the
pool holds what was repaid so far. -/
structure Repayable (d : Deployment) (w : World) (i : ℕ) (p : Pool) (inv : Invoice) : Prop
    extends OpenDeal d w i p inv where
  unfrozen : w.invoiceNft.invoiceFrozen i = false
  financingPool : w.invoiceNft.financingPool = some d.financingPool
  accessControl : w.invoiceNft.accessControl = some d.accessControl
  currency : w.pool.priceOracle = none ∨
    w.pool.priceOracle = some d.priceOracle ∧ inv.currency = "USDC"
  holds : p.repaidAmount ≤ w.tokens.balance p.token d.financingPool

/-- The products and sums in a repayment of `paid` fit in an `i128`. -/
structure RepaymentFits (w : World) (i : ℕ) (p : Pool) (inv : Invoice) (paid : ℤ) : Prop where
  /-- The late penalty, if it is still to be charged. -/
  penalty : p.penaltyApplied = false → inv.dueDate < w.now →
    p.faceValue * p.latePenaltyBps ≤ i128Max
  total : p.repaidAmount + paid ≤ i128Max
  /-- The payouts, if the repayment closes the pool. -/
  payouts : owedAt w.now inv.dueDate p ≤ p.repaidAmount + paid →
    ∀ e ∈ (w.pool.positions i).toList, (p.repaidAmount + paid) * e.2.shareBps ≤ i128Max

/-! ## One repayment -/

section Repayments

variable {w w' : World} {env : Env} {i : ℕ} {p : Pool} {inv : Invoice} {payer : Address}
  {paid : ℤ} {now due : ℕ}

theorem totalOwed_le_owedAt (hface : 0 ≤ p.faceValue) : p.totalOwed ≤ owedAt now due p := by
  have hpenalty : 0 ≤ p.faceValue * p.latePenaltyBps / 10_000 := by positivity
  unfold owedAt
  split_ifs <;> omega

/-- The penalty is charged where it fits. -/
theorem applyLatePenalty_owedAt (hface : 0 ≤ p.faceValue) (hmax : p.faceValue ≤ maxAmount)
    (hp : Accounted p)
    (hfits : p.penaltyApplied = false → due < now → p.faceValue * p.latePenaltyBps ≤ i128Max) :
    ∃ applied, applyLatePenalty now due p =
      .ok { p with totalOwed := owedAt now due p, penaltyApplied := applied } := by
  rw [applyLatePenalty_eq hface hmax hp.plain]
  unfold owedAt
  split_ifs with hlate hle
  · exact ⟨_, rfl⟩
  · exact absurd (hfits hlate.1 hlate.2.2) hle
  · exact ⟨p.penaltyApplied, rfl⟩

theorem penaltyFits_of_ok {q : Pool} (hface : 0 ≤ p.faceValue) (hmax : p.faceValue ≤ maxAmount)
    (hp : Accounted p) (h : applyLatePenalty now due p = .ok q) (hnew : p.penaltyApplied = false)
    (hdue : due < now) : p.faceValue * p.latePenaltyBps ≤ i128Max := by
  rw [applyLatePenalty_eq hface hmax hp.plain] at h
  rcases Nat.eq_zero_or_pos p.latePenaltyBps with hzero | hpos
  · rw [hzero, Nat.cast_zero, mul_zero]
    decide
  · by_contra hle
    rw [if_pos ⟨hnew, hpos, hdue⟩, if_neg hle] at h
    cases h

theorem Repayable.convert {amount : ℤ} (h : Repayable env.net w i p inv) :
    convertIfNeeded amount inv.currency p.token env (held w i) = .ok amount (held w i) := by
  rw [convertIfNeeded_ok_iff]
  refine ⟨?_, rfl⟩
  rcases h.currency with hnone | ⟨hsome, husdc⟩
  · rw [Converts, show (held w i).pool.priceOracle = none from hnone]
  · rw [Converts, show (held w i).pool.priceOracle = _ from hsome]
    refine ⟨rfl, ?_⟩
    rw [PriceOracle.convert, if_pos husdc]
    rfl

/-- The ledger once the payer has paid. -/
def whenPaid (env : Env) (w : World) (i : ℕ) (p : Pool) (owed : ℤ) (applied : Bool)
    (payer : Address) (paid : ℤ) : World :=
  { credited w i (repaidPool p owed applied paid) with
    tokens := w.tokens.move p.token payer env.net.financingPool paid }

theorem Repayable.closes {owed : ℤ} {applied : Bool} (h : Repayable env.net w i p inv)
    (hbounded : PositionsBounded w) (htotal : 0 ≤ p.repaidAmount + paid)
    (hself : payer ≠ env.net.financingPool)
    (hfits : ∀ e ∈ (w.pool.positions i).toList,
      (p.repaidAmount + paid) * e.2.shareBps ≤ i128Max) : ∃ w', (do
      distributeYield i p.token (p.repaidAmount + paid) p.faceValue
      callInvoiceNft (InvoiceNft.setRepaid env.net.financingPool i)
      setRepaymentLock i false) env (whenPaid env w i p owed applied payer paid) = .ok () w' := by
  have hbalance : p.repaidAmount + paid ≤
      (whenPaid env w i p owed applied payer paid).tokens.balance p.token
        env.net.financingPool := by
    have := h.holds
    rw [whenPaid, Tokens.move_balance, if_neg fun hsrc => hself hsrc.2.symm, if_pos ⟨rfl, rfl⟩]
    omega
  obtain ⟨w₂, hd⟩ : ∃ w₂, distributeYield i p.token (p.repaidAmount + paid) p.faceValue env
      (whenPaid env w i p owed applied payer paid) = .ok () w₂ :=
    distributeYield_runs htotal hfits h.decimals (hbounded.toList i) h.shares hbalance
  simp only [bind_ok (x := distributeYield _ _ _ _), bind_ok (x := callInvoiceNft _),
    callInvoiceNft_ok, setRepaymentLock, modifyOwn, modify_ok]
  obtain ⟨_, payments, -, -, rfl⟩ := distributeYield_pays hd
  exact ⟨_, (), _, hd, (), _, ⟨h.invoiceNft, _, InvoiceNft.setRepaid_iff.mpr
    ⟨env.authenticates_from _, h.financingPool, h.accessControl, h.unpaused, inv, h.invoice,
      h.funded, rfl⟩, rfl⟩, rfl⟩

/-- **A repayment goes through exactly where its numbers fit.** -/
theorem Repayable.repays_iff (h : Repayable env.net w i p inv)
    (hlock : w.pool.repaymentLock i = false) (hface : 0 ≤ p.faceValue)
    (hmax : p.faceValue ≤ maxAmount) (hp : Accounted p) (hbounded : PositionsBounded w)
    (hpayer : payer ∈ env.signers) (hself : payer ≠ env.net.financingPool)
    (hnow : env.timestamp = w.now) (hpaid : 0 < paid ∧ paid ≤ maxAmount)
    (hfunds : paid ≤ w.tokens.balance p.token payer) :
    (∃ w', repay payer i p.token paid env w = .ok () w') ↔ RepaymentFits w i p inv paid := by
  have hrepaid := (hp.repaid h.unclosed).1
  constructor
  · rintro ⟨w', hrun⟩
    obtain ⟨-, -, -, -, -, q, inv', r, owed, applied, hq, -, hinv, hr, hpenalty, hcredit, w₁,
      htransfer, hrun⟩ := repay_iff.mp hrun
    obtain rfl := Option.some.inj (h.pool.symm.trans hq)
    obtain rfl := InvoiceNft.Storage.current_inj h.invoice hinv
    obtain rfl : paid = r := by
      rw [h.convert] at hr
      cases hr
      rfl
    rw [hnow] at hpenalty
    have hfits := penaltyFits_of_ok hface hmax hp hpenalty
    refine ⟨hfits, (checkI128_some.mp hcredit).2.2, fun hcloses => ?_⟩
    obtain ⟨_, howed⟩ := applyLatePenalty_owedAt hface hmax hp hfits
    obtain rfl : owedAt w.now inv.dueDate p = owed := by
      rw [howed] at hpenalty
      exact congrArg Pool.totalOwed (Except.ok.inj hpenalty)
    rw [if_pos hcloses] at hrun
    obtain ⟨_, w₂, hd, -⟩ := bind_ok.mp hrun
    obtain ⟨-, -, -, -, rfl⟩ := callToken_transfer_ok.mp htransfer
    obtain ⟨decimals, payments, hdecimals, hpay, -⟩ := distributeYield_pays hd
    obtain rfl := Option.some.inj (h.decimals.symm.trans hdecimals)
    exact hpay.fits (by omega)
  · intro hfits
    obtain ⟨applied, hpenalty⟩ := applyLatePenalty_owedAt hface hmax hp hfits.penalty
    set owed := owedAt w.now inv.dueDate p
    have hsum : checkedAdd p.repaidAmount paid = some (p.repaidAmount + paid) := by
      rw [checkedAdd, checkI128_some]
      have := hfits.total
      unfold i128Min i128Max at *
      omega
    have htransfer : callToken env.net.financingPool
        (Token.transfer p.token payer env.net.financingPool paid) env
        (credited w i (repaidPool p owed applied paid)) =
          .ok () (whenPaid env w i p owed applied payer paid) :=
      callToken_transfer_ok.mpr ⟨fun _ => Or.inr hpayer, by
        rw [show (credited w i _).tokens.decimals p.token = _ from h.decimals]; rfl, hpaid.1.le,
        hfunds, rfl⟩
    obtain ⟨w', hend⟩ : ∃ w', (if owed ≤ p.repaidAmount + paid then do
          distributeYield i p.token (p.repaidAmount + paid) p.faceValue
          callInvoiceNft (InvoiceNft.setRepaid env.net.financingPool i)
          setRepaymentLock i false
        else setRepaymentLock i false) env (whenPaid env w i p owed applied payer paid) =
          .ok () w' := by
      split_ifs with hcloses
      · exact h.closes hbounded (by omega) hself (hfits.payouts hcloses)
      · exact ⟨_, rfl⟩
    exact ⟨w', repay_iff.mpr ⟨Or.inr hpayer, hpaid, h.invoiceNft, h.unfrozen, hlock, p, inv, paid,
      owed, applied, h.pool, h.unclosed, h.invoice, h.convert, hnow ▸ hpenalty, hsum, _, htransfer,
      hend⟩⟩

end Repayments

/-! ## Runs -/

section Runs

/-- Two positions in the pool of invoice `1`, a part of it repaid, and the due date passed. -/
def overdueInPart : List Action := sampleFunding "USDC" ++ [
  signed 1 (.pool (.recordPosition 1 1 3 3_000 9_000)),
  signed 1 (.pool (.recordPosition 1 1 4 6_000 9_000)),
  signed 2 (.pool (.repay 2 1 50 100)),
  .tick 1_001]

/-- The pool of invoice `1`, of which `100` is repaid. -/
def overdueInPartPool : Pool := ⟨1, 50, 0, 10_000, 100, false, 200, 10_000, false⟩

/-- Invoice `1` once it is funded. -/
def fundedInvoice : Invoice :=
  ⟨1, 2, [1], 10_000, "USDC", 1000, "cid", [], 50, .a, .funded, 0, some 0, none, none⟩

theorem repayable_sample : Repayable sample (run (step sample) sampleGenesis overdueInPart) 1
    overdueInPartPool fundedInvoice where
  pool := by decide +kernel
  unclosed := rfl
  invoice := by decide +kernel
  funded := rfl
  unpaused := by decide +kernel
  invoiceNft := by decide +kernel
  decimals := by decide +kernel
  shares := by decide +kernel
  unfrozen := by decide +kernel
  financingPool := by decide +kernel
  accessControl := by decide +kernel
  currency := Or.inr ⟨by decide +kernel, rfl⟩
  holds := by decide +kernel

end Runs

end Kora.FinancingPool
