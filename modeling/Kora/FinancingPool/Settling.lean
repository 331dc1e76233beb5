import Kora.FinancingPool.Consent
import Kora.FinancingPool.PayOff
import Kora.FinancingPool.SettlementCredit

set_option autoImplicit false

/-!
# Settling a deal early

Investors accept the offer of the SME one after another. The acceptance that brings the shares to
the whole settles the deal: the pool closes at the offered amount, the invoice ends and every
investor is paid its share.

* `Settleable`, `SettledEarly`: when an offer can be settled, and what the settlement leaves;
* `Settleable.accepts`, `Settleable.next`: an acceptance goes through, and leaves an offer that can
  be settled;
* **`settled_early`**: in every reachable ledger the acceptances settle, in any order.
-/

namespace Kora.FinancingPool

open Exec Run

/-! ## Statement -/

/-- The acceptance of the offer on invoice `i` by `x`. -/
def accept (i : ℕ) (x : Address) : Call := ⟨[x], .pool (.acceptEarlySettlement x i)⟩

/-- Acceptances one after another. -/
def accepting (i : ℕ) (xs : List Address) : List Action := xs.map fun x => .call (accept i x)

/-- The shares of the addresses. -/
def heldSum (positions : FinMap Address Position) (xs : List Address) : ℤ :=
  (xs.map (heldBps positions)).sum

/-- An open deal has a pending offer, the contracts are wired to each other and the pool holds the
amount in escrow, which is within the ceiling of the arithmetic. -/
structure Settleable (d : Deployment) (w : World) (i : ℕ) (p : Pool) (inv : Invoice)
    (offer : EarlySettlementOffer) : Prop extends OpenDeal d w i p inv where
  pending : w.pool.earlySettlement i = some offer
  poolAccessControl : w.pool.accessControl = some d.accessControl
  financingPool : w.invoiceNft.financingPool = some d.financingPool
  accessControl : w.invoiceNft.accessControl = some d.accessControl
  ceiling : offer.amount * 10_000 ≤ i128Max
  holds : offer.amount ≤ w.tokens.balance p.token d.financingPool

/-- The settlement closed the pool, ended the invoice and the offer and paid every investor its
share, and nobody else. -/
structure SettledEarly (d : Deployment) (i : ℕ) (w w' : World) (p : Pool) (amount : ℤ) : Prop where
  pool : w'.pool.pool i = some { p with repaidAmount := amount, isClosed := true }
  status : w'.invoiceNft.status i = some .repaid
  offer : w'.pool.earlySettlement i = none
  transfers : newTransfers w w' = (w.pool.positions i).toList.map fun e =>
    ⟨p.token, d.financingPool, e.1, amount * e.2.shareBps / 10_000⟩

/-! ## One acceptance -/

section Acceptances

variable {d : Deployment} {w w' : World} {env : Env} {i : ℕ} {p : Pool} {inv : Invoice}
  {offer : EarlySettlementOffer} {pos : Position} {x : Address}

theorem Settleable.settles (h : Settleable env.net w i p inv offer) (hbounded : PositionsBounded w)
    (hamount : 0 < offer.amount) : ∃ w', (do
      setRepaymentLock i true
      putPool i { p with repaidAmount := offer.amount, isClosed := true }
      distributeYield i p.token offer.amount p.faceValue
      let d ← net
      callInvoiceNft (InvoiceNft.setRepaid d.financingPool i)
      putEarlySettlement i none
      setRepaymentLock i false) env w = .ok () w' := by
  set w₁ : World := credited w i { p with repaidAmount := offer.amount, isClosed := true }
  obtain ⟨w₂, hd⟩ : ∃ w₂, distributeYield i p.token offer.amount p.faceValue env w₁ = .ok () w₂ :=
    distributeYield_runs hamount.le (h.fits hamount.le h.ceiling) h.decimals (hbounded.toList i)
      h.shares h.holds
  simp only [setRepaymentLock, putPool, putEarlySettlement, modifyOwn, modify_run,
    bind_ok (x := distributeYield _ _ _ _), net_run, bind_ok (x := callInvoiceNft _),
    callInvoiceNft_ok, modify_ok]
  obtain ⟨_, payments, -, -, rfl⟩ := distributeYield_pays hd
  exact ⟨_, (), _, hd, (), _, ⟨h.invoiceNft, _, InvoiceNft.setRepaid_iff.mpr
    ⟨env.authenticates_from _, h.financingPool, h.accessControl, h.unpaused, inv, h.invoice,
      h.funded, rfl⟩, rfl⟩, rfl⟩

theorem Settleable.accepts (h : Settleable env.net w i p inv offer)
    (hlock : w.pool.repaymentLock i = false) (hbounded : PositionsBounded w)
    (hamount : 0 < offer.amount) (hx : x ∈ env.signers)
    (hpos : (w.pool.positions i)[x]? = some pos) (hnew : x ∉ offer.accepted)
    (hpartly : offer.acceptedBps < 10_000) :
    ∃ w', acceptEarlySettlement x i env w = .ok () w' := by
  have hshare : (pos.shareBps : ℤ) ≤ 10_000 :=
    share_le_of_sum h.shares (x, pos) (FinMap.mem_toList.mpr hpos)
  have hfits : offer.acceptedBps + pos.shareBps < 2 ^ 32 := by omega
  have hend : ∃ w', (if 10_000 ≤ offer.acceptedBps + pos.shareBps then do
        setRepaymentLock i true
        putPool i { p with repaidAmount := offer.amount, isClosed := true }
        distributeYield i p.token offer.amount p.faceValue
        let d ← net
        callInvoiceNft (InvoiceNft.setRepaid d.financingPool i)
        putEarlySettlement i none
        setRepaymentLock i false
      else putEarlySettlement i (some { offer with
        acceptedBps := offer.acceptedBps + pos.shareBps
        accepted := offer.accepted ++ [x] })) env w = .ok () w' := by
    rw [ite_run]
    split_ifs
    · exact h.settles hbounded hamount
    · exact ⟨_, rfl⟩
  obtain ⟨w', hend⟩ := hend
  refine ⟨w', ?_⟩
  simp only [acceptEarlySettlement, requireAuth_seq_ok, requireNotPaused_seq_ok,
    requireUnlocked_seq_ok, fetch_seq_ok, loadPool_seq_ok, ensure_seq_ok, check_seq_ok, okOr_ok,
    checkedAddU32_some]
  exact ⟨Or.inr hx, h.poolAccessControl, h.unpaused, hlock, offer, h.pending, p, h.pool, h.unclosed,
    pos, hpos, hnew, _, ⟨rfl, hfits⟩, hend⟩

/-- The acceptance that brings the shares to the whole settles. -/
theorem Settleable.last (h : Settleable env.net w i p inv offer)
    (hpos : (w.pool.positions i)[x]? = some pos)
    (hwhole : 10_000 ≤ offer.acceptedBps + pos.shareBps)
    (hrun : acceptEarlySettlement x i env w = .ok () w') :
    SettledEarly env.net i w w' p offer.amount := by
  obtain ⟨-, offer', p', pos', ho, hp, -, hpos', -, hcases⟩ := acceptEarlySettlement_ok hrun
  obtain rfl := Option.some.inj (h.pending.symm.trans ho)
  obtain rfl := Option.some.inj (h.pool.symm.trans hp)
  obtain rfl := Option.some.inj (hpos.symm.trans hpos')
  rcases hcases with ⟨hlt, -⟩ | ⟨-, inv', _, _, locks, hinv, -, -, hw'⟩
  · omega
  have hpool : w'.pool.pool i = some { p with repaidAmount := offer.amount, isClosed := true } := by
    rw [hw']
    exact Function.update_self ..
  obtain ⟨offer', q, _, payments, ho, hq, -, -, hdecimals, hpay, htokens⟩ :=
    acceptEarlySettlement_settles hrun hpool rfl
  obtain rfl := Option.some.inj (h.pending.symm.trans ho)
  obtain rfl := Option.some.inj (h.pool.symm.trans hq)
  obtain rfl := Option.some.inj (hdecimals.symm.trans h.decimals)
  refine ⟨hpool, ?_, ?_, ?_⟩
  · rw [hw']
    exact InvoiceNft.Storage.status_asRepaid.trans (if_pos rfl)
  · rw [hw']
    exact Function.update_self ..
  · rw [newTransfers_of_payAll htokens, hpay.eq_standard, List.map_map]
    rfl

/-- The offer after an acceptance that does not settle it. -/
def counting (offer : EarlySettlementOffer) (x : Address) (pos : Position) :
    EarlySettlementOffer :=
  { offer with
    acceptedBps := offer.acceptedBps + pos.shareBps
    accepted := offer.accepted ++ [x] }

/-- The ledger after an acceptance that does not settle the offer. -/
def partlyAccepted (w : World) (i : ℕ) (offer : EarlySettlementOffer) : World :=
  { w with pool := { w.pool with
      earlySettlement := Function.update w.pool.earlySettlement i (some offer) } }

theorem Settleable.partly (h : Settleable env.net w i p inv offer)
    (hpos : (w.pool.positions i)[x]? = some pos)
    (hlt : offer.acceptedBps + pos.shareBps < 10_000)
    (hrun : acceptEarlySettlement x i env w = .ok () w') :
    w' = partlyAccepted w i (counting offer x pos) := by
  obtain ⟨-, offer', _, pos', ho, -, -, hpos', -, hcases⟩ := acceptEarlySettlement_ok hrun
  obtain rfl := Option.some.inj (h.pending.symm.trans ho)
  obtain rfl := Option.some.inj (hpos.symm.trans hpos')
  rcases hcases with ⟨-, hw'⟩ | ⟨hle, -⟩
  · exact hw'
  · omega

/-- **What is left** of the offer can be settled. -/
theorem Settleable.next (h : Settleable d w i p inv offer) (x : Address) (pos : Position) :
    Settleable d (partlyAccepted w i (counting offer x pos)) i p inv (counting offer x pos) where
  toOpenDeal := { h.toOpenDeal with }
  pending := Function.update_self ..
  poolAccessControl := h.poolAccessControl
  financingPool := h.financingPool
  accessControl := h.accessControl
  ceiling := h.ceiling
  holds := h.holds

end Acceptances

/-! ## All acceptances -/

section Runs

variable {d : Deployment} {w : World} {i : ℕ} {p : Pool} {inv : Invoice}
  {offer : EarlySettlementOffer} {x last : Address} {others : List Address}

@[simp] theorem heldSum_nil (positions : FinMap Address Position) : heldSum positions [] = 0 :=
  rfl

@[simp] theorem heldSum_cons (positions : FinMap Address Position) (xs : List Address) :
    heldSum positions (x :: xs) = heldBps positions x + heldSum positions xs := by
  rw [heldSum, List.map_cons, List.sum_cons, heldSum]

theorem heldBps_nonneg (positions : FinMap Address Position) (y : Address) :
    0 ≤ heldBps positions y := by
  rw [heldBps]
  cases h : positions[y]? with
  | none => rw [FinMap.entry_of_none _ _ h]
  | some pos =>
    rw [FinMap.entry_of_some _ _ h]
    exact Int.natCast_nonneg _

theorem heldSum_nonneg (positions : FinMap Address Position) (xs : List Address) :
    0 ≤ heldSum positions xs := by
  refine List.sum_nonneg fun z hz => ?_
  obtain ⟨y, -, rfl⟩ := List.mem_map.mp hz
  exact heldBps_nonneg positions y

/-- The investor can accept the offer: it holds a position and has not accepted. -/
def CanAccept (d : Deployment) (w : World) (i : ℕ) (offer : EarlySettlementOffer) (x : Address) :
    Prop :=
  x ∉ d.contracts ∧ x ∉ offer.accepted ∧ (w.pool.positions i)[x]? ≠ none

theorem Settleable.acceptance (h : Settleable d w i p inv offer) (hlocks : w.Unlocked)
    (hbounded : PositionsBounded w) (hamount : 0 < offer.amount)
    (hpartly : offer.acceptedBps < 10_000) (hcan : CanAccept d w i offer x) :
    ∃ pos, (w.pool.positions i)[x]? = some pos ∧ (accept i x).Succeeds d w ∧
      acceptEarlySettlement x i ((accept i x).env d w) w =
        .ok () (step d w (.call (accept i x))) := by
  obtain ⟨hout, hnew, hholds⟩ := hcan
  obtain ⟨pos, hpos⟩ := Option.ne_none_iff_exists'.mp hholds
  have hsigned : x ∈ ((accept i x).env d w).signers := by simp [accept, Call.env, hout]
  obtain ⟨w', hrun⟩ : ∃ w', acceptEarlySettlement x i ((accept i x).env d w) w = .ok () w' :=
    Settleable.accepts h (hlocks.repayment i (by simp)) hbounded hamount hsigned hpos hnew hpartly
  have hexec : (accept i x).entry.exec ((accept i x).env d w) w = .ok () w' := hrun
  refine ⟨pos, hpos, Call.succeeds_iff.mpr ⟨w', hexec⟩, ?_⟩
  rw [step_call_of_ok hexec]
  exact hrun

/-- **Acceptances that bring the shares to the whole** settle. -/
theorem Settleable.settled (h : Settleable d w i p inv offer) (hlocks : w.Unlocked)
    (hbounded : PositionsBounded w) (hamount : 0 < offer.amount)
    (hnodup : (others ++ [last]).Nodup) (hcan : ∀ x ∈ others ++ [last], CanAccept d w i offer x)
    (hpartly : offer.acceptedBps + heldSum (w.pool.positions i) others < 10_000)
    (hwhole : 10_000 ≤ offer.acceptedBps + heldSum (w.pool.positions i) (others ++ [last])) :
    Along (step d) (fun w a => ∃ e, Performs d w e a) w (accepting i (others ++ [last])) ∧
      SettledEarly d i w (run (step d) w (accepting i (others ++ [last]))) p offer.amount := by
  induction others generalizing w offer with
  | nil =>
    rw [List.nil_append, heldSum_cons, heldSum_nil, add_zero] at hwhole
    rw [heldSum_nil, add_zero] at hpartly
    obtain ⟨pos, hpos, hs, hrun⟩ := h.acceptance hlocks hbounded hamount (by omega)
      (hcan last (by simp))
    rw [heldBps_of_some hpos] at hwhole
    exact ⟨⟨⟨_, hs, rfl⟩, trivial⟩, Settleable.last h hpos (by omega) hrun⟩
  | cons x others ih =>
    rw [List.cons_append, List.nodup_cons] at hnodup
    rw [List.cons_append, List.forall_mem_cons] at hcan
    rw [List.cons_append, heldSum_cons] at hwhole
    rw [heldSum_cons] at hpartly
    have hheld := heldBps_nonneg (w.pool.positions i) x
    have hothers := heldSum_nonneg (w.pool.positions i) others
    obtain ⟨pos, hpos, hs, hrun⟩ := h.acceptance hlocks hbounded hamount (by omega) hcan.1
    rw [heldBps_of_some hpos] at hpartly hwhole
    have hlater : step d w (.call (accept i x)) = partlyAccepted w i (counting offer x pos) :=
      Settleable.partly h hpos (by omega) hrun
    have hlocks' := unlocked_step (d := d) hlocks (.call (accept i x))
    have hbounded' := positionsBounded_step (d := d) hbounded (.call (accept i x))
    rw [hlater] at hlocks' hbounded'
    have hcan' : ∀ y ∈ others ++ [last],
        CanAccept d (partlyAccepted w i (counting offer x pos)) i (counting offer x pos) y := by
      intro y hy
      obtain ⟨hout, hnew, hholds⟩ := hcan.2 y hy
      refine ⟨hout, fun hmem => ?_, hholds⟩
      rcases List.mem_append.mp hmem with hold | hx
      · exact hnew hold
      · obtain rfl := List.mem_singleton.mp hx
        exact hnodup.1 hy
    have hcounted : ((counting offer x pos).acceptedBps : ℤ) =
        offer.acceptedBps + pos.shareBps := Int.natCast_add ..
    obtain ⟨halong, hsettled⟩ := ih (h.next x pos) hlocks' hbounded' hamount
      hnodup.2 hcan' (by rw [hcounted, add_assoc]; exact hpartly)
      (by rw [hcounted, add_assoc]; exact hwhole)
    rw [accepting, List.cons_append, List.map_cons, ← accepting, along_cons, run_cons, hlater]
    exact ⟨⟨⟨_, hs, rfl⟩, halong⟩,
      hsettled.pool, hsettled.status, hsettled.offer, hsettled.transfers⟩

/-- **Settled early.** In every reachable ledger, once investors whose shares, with those already
counted, reach the whole accept a settleable offer, in any order, every acceptance goes through,
and the last one closes the pool at the offered amount, ends the invoice and pays every investor
its share, and nobody else. -/
theorem settled_early (d : Deployment) (start : ℕ) (tokens : Tokens) (as : List Action) (w : World)
    (hw : w = run (step d) (genesis start tokens) as) (i : ℕ) (p : Pool) (inv : Invoice)
    (offer : EarlySettlementOffer) (h : Settleable d w i p inv offer) (others : List Address)
    (last : Address) (hnodup : (others ++ [last]).Nodup)
    (hcan : ∀ x ∈ others ++ [last], CanAccept d w i offer x)
    (hpartly : offer.acceptedBps + heldSum (w.pool.positions i) others < 10_000)
    (hwhole : 10_000 ≤ offer.acceptedBps + heldSum (w.pool.positions i) (others ++ [last])) :
    Along (step d) (fun w a => ∃ e, Performs d w e a) w (accepting i (others ++ [last])) ∧
      SettledEarly d i w (run (step d) w (accepting i (others ++ [last]))) p offer.amount := by
  subst hw
  exact h.settled (unlocked_run d start tokens as) (positionsBounded_run d start tokens as)
    ((creditLedger_run d i start tokens as).offers offer h.pending) hnodup hcan hpartly hwhole

/-- Three positions in the pool of invoice `1`, a part of it repaid, and an offer that the first
investor has accepted. -/
def offeredInPart : List Action := sampleFunding "USDC" ++ [
  signed 1 (.pool (.recordPosition 1 1 3 2_000 10_000)),
  signed 1 (.pool (.recordPosition 1 1 4 3_000 10_000)),
  signed 1 (.pool (.recordPosition 1 1 5 5_000 10_000)),
  signed 2 (.pool (.proposeEarlySettlement 2 1 9_500)),
  signed 3 (.pool (.acceptEarlySettlement 3 1))]

/-- The offer for invoice `1`. -/
def offerInPart : EarlySettlementOffer := ⟨1, 9_500, 2_000, [3]⟩

/-- The pool of invoice `1`. -/
def offeredPool : Pool := ⟨1, 50, 0, 10_000, 0, false, 200, 10_000, false⟩

theorem settleable_sample : Settleable sample (run (step sample) sampleGenesis offeredInPart) 1
    offeredPool fundedInvoice offerInPart where
  pool := by decide +kernel
  unclosed := rfl
  invoice := by decide +kernel
  funded := rfl
  unpaused := by decide +kernel
  invoiceNft := by decide +kernel
  decimals := by decide +kernel
  shares := by decide +kernel
  pending := by decide +kernel
  poolAccessControl := by decide +kernel
  financingPool := by decide +kernel
  accessControl := by decide +kernel
  ceiling := by decide +kernel
  holds := by decide +kernel

/-- The other two investors settle the sample deal. -/
theorem settled_early_sample : SettledEarly sample 1 (run (step sample) sampleGenesis offeredInPart)
    (run (step sample) (run (step sample) sampleGenesis offeredInPart) (accepting 1 [5, 4]))
    offeredPool 9_500 :=
  (settled_early sample 0 sampleTokens offeredInPart _ rfl 1 offeredPool fundedInvoice offerInPart
    settleable_sample [5] 4 (by decide) (by
      intro x hx
      refine ⟨?_, ?_, ?_⟩
      all_goals
        revert x
        decide +kernel) (by decide +kernel) (by decide +kernel)).2

end Runs

end Kora.FinancingPool
