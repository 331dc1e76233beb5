import Kora.FinancingPool.Change

set_option autoImplicit false

/-!
# Repayments before a settlement

A repayment adds to the repaid amount of its pool; a settlement assigns the offered amount. What
was repaid before is neither credited nor distributed.

* `creditedIn`, `SettlesWith`, `KeepsRepayments`: the repayments, the settlement, and what it keeps;
* `creditLedger_run`: the repaid amount of an open pool is the total of its repayments;
* **`settlement_keeps_iff`**: a settlement keeps the repayments exactly when there were none.
-/

namespace Kora.FinancingPool

open Exec Run

/-! ## Statement -/

/-- What the pool of invoice `i` is credited with when the step repays it. -/
def creditedIn (d : Deployment) (i : ℕ) (w : World) (a : Action) : ℤ :=
  match performed d w a with
  | some (_, .pool (.repay _ j _ amount)) =>
    if j = i then ((w.invoiceNft.current i).map fun inv => credit w amount inv.currency).getD 0
    else 0
  | _ => 0

/-- The step accepts an offer of `offered` for invoice `i` and closes its pool. -/
structure SettlesWith (d : Deployment) (i : ℕ) (offered : ℤ) (w : World) (a : Action) : Prop where
  accepts : ∃ env investor, performed d w a = some (env, .pool (.acceptEarlySettlement investor i))
  pending : (w.pool.earlySettlement i).map EarlySettlementOffer.amount = some offered
  closed : ((step d w a).pool.pool i).map Pool.isClosed = some true

/-- The step pays the investors of invoice `i` their shares of `total`, in the token of the pool. -/
def Distributes (d : Deployment) (i : ℕ) (total : ℤ) (w : World) (a : Action) : Prop :=
  ∃ p decimals payments, w.pool.pool i = some p ∧ w.tokens.decimals p.token = some decimals ∧
    Payments total decimals (w.pool.positions i).toList payments ∧
    newTransfers w (step d w a) =
      payments.map fun x => ⟨p.token, d.financingPool, x.1, x.2⟩

/-- With `repaid` so far, a settlement of `offered` credits and distributes both. -/
structure KeepsRepayments (d : Deployment) (i : ℕ) (repaid offered : ℤ) (w : World) (a : Action) :
    Prop where
  credited : ((step d w a).pool.pool i).map Pool.repaidAmount = some (repaid + offered)
  distributed : Distributes d i (repaid + offered) w a
  grows : ∀ p p', w.pool.pool i = some p → (step d w a).pool.pool i = some p' →
    p.repaidAmount ≤ p'.repaidAmount

/-! ## Steps -/

/-- The repaid amount of an open pool is `m`, nothing is repaid before there is one, and a pending
offer is positive. -/
structure CreditLedger (i : ℕ) (w : World) (m : ℤ) : Prop where
  unopened : w.pool.pool i = none → m = 0
  unclosed : ∀ p, w.pool.pool i = some p → p.isClosed = false → p.repaidAmount = m
  offers : ∀ offer, w.pool.earlySettlement i = some offer → 0 < offer.amount

section Steps

variable {d : Deployment} {i : ℕ} {w w' : World} {a : Action} {m : ℤ} {env : Env} {e : Entry}

theorem creditedIn_of_ne (hp : performed d w a = some (env, e))
    (h : ∀ payer token amount, e ≠ .pool (.repay payer i token amount)) :
    creditedIn d i w a = 0 := by
  rw [creditedIn, hp]
  split
  · rename_i heq
    cases heq
    exact if_neg fun hj => h _ _ _ (by rw [hj])
  · rfl

theorem creditedIn_of_not_dealsWith (hp : performed d w a = some (env, e))
    (h : ¬ DealsWith i e) : creditedIn d i w a = 0 := by
  refine creditedIn_of_ne hp ?_
  rintro payer token amount rfl
  exact h rfl

theorem CreditLedger.congr (h : CreditLedger i w m) (hp : w'.pool.pool i = w.pool.pool i)
    (ho : ∀ offer, w'.pool.earlySettlement i = some offer → 0 < offer.amount) :
    CreditLedger i w' m :=
  ⟨fun hnone => h.unopened (hp ▸ hnone), fun p hpool => h.unclosed p (hp ▸ hpool), ho⟩

theorem creditLedger_of_some {p : Pool} (hp : w.pool.pool i = some p)
    (h : p.isClosed = false → p.repaidAmount = m)
    (ho : ∀ offer, w.pool.earlySettlement i = some offer → 0 < offer.amount) :
    CreditLedger i w m := by
  refine ⟨fun hnone => ?_, fun q hq hopen => ?_, ho⟩
  · rw [hp] at hnone
    cases hnone
  · obtain rfl := Option.some.inj (hp.symm.trans hq)
    exact h hopen

theorem creditLedger_step (h : CreditLedger i w m) (a : Action) :
    CreditLedger i (step d w a) (m + creditedIn d i w a) := by
  rcases performed_change d w a i with ⟨env, e, hp, -, hc⟩ | ⟨hp, n, hstep⟩
  · cases hc with
    | frame _ hne hs =>
      rw [creditedIn_of_not_dealsWith hp hne, add_zero]
      exact h.congr hs.pool (hs.offers ▸ h.offers)
    | opened _ _ _ _ hne ho =>
      rw [creditedIn_of_not_dealsWith hp hne, h.unopened ho.unopened, add_zero]
      exact creditLedger_of_some ho.pool (fun _ => rfl) (ho.offers ▸ h.offers)
    | recorded _ _ _ _ _ hr =>
      rw [creditedIn_of_ne hp nofun, add_zero]
      exact h.congr hr.pool (hr.offers ▸ h.offers)
    | sold _ _ _ hs =>
      rw [creditedIn_of_ne hp nofun, add_zero]
      exact h.congr hs.pool (hs.offers ▸ h.offers)
    | repaid payer token amount owed p inv applied payments hr =>
      have hcredited : creditedIn d i w a = credit w amount inv.currency := by
        rw [creditedIn, hp]
        simp only [if_true, InvoiceNft.Storage.current_of_current hr.invoice, Option.map_some,
          Option.getD_some]
      rw [hcredited, ← h.unclosed p hr.found hr.unclosed]
      exact creditLedger_of_some hr.pool (fun _ => rfl) (hr.offers ▸ h.offers)
    | defaulted _ _ _ _ _ hd =>
      rw [creditedIn_of_ne hp nofun, add_zero]
      exact h.congr hd.same.pool (hd.same.offers ▸ h.offers)
    | proposed _ amount _ hq =>
      rw [creditedIn_of_ne hp nofun, add_zero]
      refine h.congr hq.pool fun offer ho => ?_
      obtain rfl := Option.some.inj (hq.offers.symm.trans ho)
      exact hq.positive
    | accepted _ offer _ _ ha =>
      rw [creditedIn_of_ne hp nofun, add_zero]
      refine h.congr ha.pool fun offer' ho => ?_
      obtain rfl := Option.some.inj (ha.offers.symm.trans ho)
      exact h.offers offer ha.pending
    | settled _ _ p _ _ _ _ hs =>
      refine creditLedger_of_some hs.pool nofun fun offer ho => ?_
      rw [hs.offers] at ho
      cases ho
    | cancelled _ _ _ hk =>
      rw [creditedIn_of_ne hp nofun, add_zero]
      refine h.congr hk.pool fun offer ho => ?_
      rw [hk.offers] at ho
      cases ho
  · have hzero : creditedIn d i w a = 0 := by rw [creditedIn, hp]
    rw [hzero, add_zero, hstep]
    exact h.congr rfl h.offers

/-- **The repaid amount of an open pool** is what its repayments were credited with. -/
theorem creditLedger_run (d : Deployment) (i start : ℕ) (tokens : Tokens) (as : List Action) :
    CreditLedger i (run (step d) (genesis start tokens) as)
      (tally (step d) (creditedIn d i) (genesis start tokens) as) := by
  have hgenesis : CreditLedger i (genesis start tokens) 0 :=
    ⟨fun _ => rfl, by rintro _ ⟨⟩, by rintro _ ⟨⟩⟩
  have h : CreditLedger i (run (step d) (genesis start tokens) as)
      (0 + tally (step d) (creditedIn d i) (genesis start tokens) as) :=
    invariant_tally (I := CreditLedger i) (fun w m a h _ => creditLedger_step h a) hgenesis
      (along_true (genesis start tokens) as)
  rwa [zero_add] at h

theorem SettlesWith.effect {offered : ℤ} (h : SettlesWith d i offered w a) : ∃ p,
    w.pool.pool i = some p ∧ p.isClosed = false ∧
      (step d w a).pool.pool i = some { p with repaidAmount := offered, isClosed := true } ∧
      Distributes d i offered w a := by
  obtain ⟨env, investor, hp⟩ := h.accepts
  obtain ⟨c, rfl, rfl, -, hexec⟩ := performed_call hp
  obtain ⟨p', hp', hclosed⟩ := Option.map_eq_some_iff.mp h.closed
  obtain ⟨offer, p, decimals, payments, ho, hpool, hopen, rfl, hdecimals, hpay, htokens⟩ :=
    acceptEarlySettlement_settles hexec hp' hclosed
  have hpending := h.pending
  rw [ho, Option.map_some, Option.some.injEq] at hpending
  subst hpending
  exact ⟨p, hpool, hopen, hp', p, decimals, payments, hpool, hdecimals, hpay,
    newTransfers_of_payAll htokens⟩

end Steps

/-! ## Runs -/

/-- **Settlement keeps earlier repayments** exactly when there were none: after a run that repaid
`P` for an invoice, a settlement of `offered` credits the pool with `P + offered` and distributes
that to the investors, with a repaid amount that does not decrease, exactly when `P` is zero. -/
theorem settlement_keeps_iff (d : Deployment) (i start : ℕ) (tokens : Tokens) (as : List Action)
    (offered : ℤ) (a : Action)
    (h : SettlesWith d i offered (run (step d) (genesis start tokens) as) a) :
    KeepsRepayments d i (tally (step d) (creditedIn d i) (genesis start tokens) as) offered
        (run (step d) (genesis start tokens) as) a ↔
      tally (step d) (creditedIn d i) (genesis start tokens) as = 0 := by
  obtain ⟨p, hp, hopen, hp', hdistributes⟩ := h.effect
  have hledger := creditLedger_run d i start tokens as
  constructor
  · intro hkeeps
    have hcredited := hkeeps.credited
    rw [hp', Option.map_some, Option.some.injEq] at hcredited
    exact right_eq_add.mp hcredited
  · intro hzero
    have hrepaid := hledger.unclosed p hp hopen
    rw [hzero] at hrepaid ⊢
    rw [← zero_add offered] at hdistributes
    refine ⟨by rw [hp', zero_add]; rfl, hdistributes, fun q q' hq hq' => ?_⟩
    obtain rfl := Option.some.inj (hp.symm.trans hq)
    obtain rfl := Option.some.inj (hp'.symm.trans hq')
    obtain ⟨offer, ho, rfl⟩ := Option.map_eq_some_iff.mp h.pending
    rw [hrepaid]
    exact (hledger.offers offer ho).le

/-- Investor `3` holds the whole pool of invoice `1`, and the SME offers `9_500` for it. -/
def settlementOffered : List Action := sampleFunding "USDC" ++ [
  signed 1 (.pool (.recordPosition 1 1 3 9_000 9_000)),
  signed 2 (.pool (.proposeEarlySettlement 2 1 9_500))]

/-- Investor `3` accepts. -/
def acceptance : Call := ⟨[3], .pool (.acceptEarlySettlement 3 1)⟩

/-- Without a repayment the settlement credits and distributes the offer. -/
theorem settlement_keeps_none : KeepsRepayments sample 1 0 9_500
    (run (step sample) (genesis 0 sampleTokens) settlementOffered) (.call acceptance) :=
  (settlement_keeps_iff sample 1 0 sampleTokens settlementOffered 9_500 (.call acceptance)
    ⟨⟨_, 3, performed_of_succeeds (by decide +kernel)⟩, by decide +kernel, by decide +kernel⟩).mpr
    (by decide +kernel)

/-- The SME repays `9_600` while its offer is pending. -/
def partlyRepaid : List Action :=
  settlementOffered ++ [signed 2 (.pool (.repay 2 1 50 9_600))]

/-- The settlement takes the repaid amount back to `9_500`. -/
theorem settlement_forgets : ¬ ∀ (d : Deployment) (i start : ℕ) (tokens : Tokens)
    (as : List Action) (offered : ℤ) (a : Action),
    SettlesWith d i offered (run (step d) (genesis start tokens) as) a →
    KeepsRepayments d i (tally (step d) (creditedIn d i) (genesis start tokens) as) offered
      (run (step d) (genesis start tokens) as) a := by
  intro h
  have hkeeps := h sample 1 0 sampleTokens partlyRepaid 9_500 (.call acceptance)
    ⟨⟨_, 3, performed_of_succeeds (by decide +kernel)⟩, by decide +kernel, by decide +kernel⟩
  exact absurd hkeeps.credited (by decide +kernel)

end Kora.FinancingPool
