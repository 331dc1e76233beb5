import Kora.Lib.Apportion
import Kora.FinancingPool.Aggregate
import Kora.FinancingPool.Flow

set_option autoImplicit false

/-!
# The distribution of a closing repayment

Every position of a pool was recorded with the same total, the sum of the contributions. The
repayment that closes the pool pays each position its share in whole basis points, and so loses
what the two divisions cut off.

* `RecordsWith`, `ClosesWith`: the recordings and the closing repayment;
* `SharesOf`, `sharesOf_run`: the shares of a pool recorded with one total;
* `ClosesWith.pays`: the payments of a closing repayment;
* **`drift_le_iff`**: when at most one unit for each position stays undistributed;
* **`principal_paid_iff`**: when every investor gets its contribution back.
-/

namespace Kora.FinancingPool

open Exec Run

/-! ## Statement -/

/-- The pool total with which a step records a position of invoice `i`. -/
def recordedTotal (d : Deployment) (i : ℕ) (w : World) (a : Action) : Option ℤ :=
  match performed d w a with
  | some (_, .pool (.recordPosition _ j _ _ total)) => if j = i then some total else none
  | _ => none

/-- A position that the step records for invoice `i` is recorded with the pool total `T`. -/
def RecordsWith (d : Deployment) (i : ℕ) (T : ℤ) (w : World) (a : Action) : Prop :=
  recordedTotal d i w a = none ∨ recordedTotal d i w a = some T

instance (d : Deployment) (i : ℕ) (T : ℤ) (w : World) (a : Action) :
    Decidable (RecordsWith d i T w a) := by
  unfold RecordsWith
  infer_instance

/-- The step repays invoice `i` in `token` and closes its pool, with `total` repaid. -/
structure ClosesWith (d : Deployment) (i : ℕ) (token : Address) (total : ℤ) (w : World)
    (a : Action) : Prop where
  repays : ∃ env payer amount, performed d w a = some (env, .pool (.repay payer i token amount))
  closed : ∃ p, (step d w a).pool.pool i = some p ∧ p.isClosed = true ∧ p.repaidAmount = total

/-- A reachable state in which the positions of invoice `i` were recorded with the common total
`T`, the sum of their contributions. -/
structure CommonTotal (d : Deployment) (i : ℕ) (T : ℤ) (w : World) : Prop where
  reached : ∃ start tokens as, run (step d) (genesis start tokens) as = w ∧
    Along (step d) (RecordsWith d i T) (genesis start tokens) as
  whole : contributions w i = T
  positive : 0 < T

/-- What a step leaves in the pool of the `total` that it distributes in `token`. -/
def undistributed (d : Deployment) (token : Address) (total : ℤ) (w : World) (a : Action) : ℤ :=
  total - outflow d.financingPool (newTransfers w (step d w a)) token

/-- The contribution of a position, which it is paid for. -/
def contributionOf (_ : Address) (p : Position) : ℤ := p.contributed

/-- What the transfers pay from `src` to `dst`, in each token. -/
def paidTo (src dst : Address) (ts : List Transfer) (token : Address) : ℤ :=
  (ts.map fun x => if x.token = token ∧ x.src = src ∧ x.dst = dst then x.amount else 0).sum

/-! ## Positions -/

/-- The positions have contributed, and their shares are those of the total `T`. -/
def SharesOf (T : ℤ) (positions : FinMap Address Position) : Prop :=
  ∀ (investor : Address) (p : Position), positions[investor]? = some p →
    0 < p.contributed ∧ (p.shareBps : ℤ) = Apportion.share 10_000 T p.contributed

section Positions

variable {d : Deployment} {i : ℕ} {T : ℤ} {w : World} {a : Action}

theorem SharesOf.insert {m : FinMap Address Position} {investor : Address} {p : Position}
    (h : SharesOf T m) (hpos : 0 < p.contributed)
    (hshare : (p.shareBps : ℤ) = Apportion.share 10_000 T p.contributed) :
    SharesOf T (m.insert investor p) := by
  intro x q hq
  rw [FinMap.getElem?_insert'] at hq
  split_ifs at hq
  · cases hq
    exact ⟨hpos, hshare⟩
  · exact h x q hq

theorem SharesOf.erase {m : FinMap Address Position} (h : SharesOf T m) (investor : Address) :
    SharesOf T (m.erase investor) := by
  intro x q hq
  rw [FinMap.getElem?_erase'] at hq
  split_ifs at hq
  exact h x q hq

theorem sharesOf_step (h : SharesOf T (w.pool.positions i)) (hT : RecordsWith d i T w a) :
    SharesOf T ((step d w a).pool.positions i) := by
  rcases performed_change d w a i with ⟨env, e, hperformed, -, hc⟩ | ⟨-, n, hstep⟩
  · rw [RecordsWith, recordedTotal, hperformed] at hT
    cases hc.positions with
    | kept _ hkept => rwa [hkept]
    | recorded caller investor contributed total share hr =>
      obtain rfl : total = T := by simpa using hT
      rw [hr.positions]
      exact h.insert hr.positive hr.floor
    | sold buyer seller pos hs =>
      rw [hs.positions]
      obtain ⟨hpos, hshare⟩ := h seller pos hs.sold
      exact (h.erase seller).insert hpos hshare
  · rwa [hstep]

theorem sharesOf_run {start : ℕ} {tokens : Tokens} {as : List Action}
    (hT : Along (step d) (RecordsWith d i T) (genesis start tokens) as) :
    SharesOf T ((run (step d) (genesis start tokens) as).pool.positions i) := by
  refine invariant (I := fun w => SharesOf T (w.pool.positions i))
    (fun w a => sharesOf_step) ?_ hT
  rintro investor p ⟨⟩

end Positions

/-! ## Payments -/

section Payments

variable {d : Deployment} {i : ℕ} {T R : ℤ} {w : World} {a : Action} {token : Address}
  {m : FinMap Address Position} {payments : List (Address × ℤ)}

theorem Payments.map_sum_eq {l : List (Address × Position)}
    (h : Payments R standardDecimals l payments) (f : Address → ℤ → ℤ) :
    (payments.map fun x => f x.1 x.2).sum =
      (l.map fun e => f e.1 (Apportion.paid 10_000 R e.2.shareBps)).sum := by
  induction h with
  | nil => rfl
  | cons hp _ ih =>
    rw [List.map_cons, List.map_cons, List.sum_cons, List.sum_cons, ih, hp.1,
      bpsOfNormalized_standard hp.2]
    rfl

theorem Payments.sum_eq (h : Payments R standardDecimals m.toList payments) (hm : SharesOf T m)
    (f : Address → ℤ → ℤ) : (payments.map fun x => f x.1 x.2).sum =
      FinMap.total (fun investor p => f investor
        (Apportion.paid 10_000 R (Apportion.share 10_000 T p.contributed))) m := by
  have hshares : (payments.map fun x => f x.1 x.2).sum =
      FinMap.total (fun investor p => f investor (Apportion.paid 10_000 R p.shareBps)) m :=
    h.map_sum_eq f
  rw [hshares]
  refine FinMap.total_congr fun investor p hp => ?_
  rw [(hm investor p hp).2]

theorem ClosesWith.pays (h : ClosesWith d i token R w a) : ∃ payer amount decimals payments,
    payer ≠ d.financingPool ∧ w.tokens.decimals token = some decimals ∧
      Payments R decimals (w.pool.positions i).toList payments ∧
      newTransfers w (step d w a) = ⟨token, payer, d.financingPool, amount⟩ ::
        payments.map fun x => ⟨token, d.financingPool, x.1, x.2⟩ := by
  obtain ⟨env, payer, amount, hp⟩ := h.repays
  obtain ⟨p, hpool, hclosed, rfl⟩ := h.closed
  obtain ⟨c, rfl, rfl, -, hexec⟩ := performed_call hp
  obtain ⟨ha, decimals, payments, hdecimals, hpay, htokens⟩ := repay_closes hexec hpool hclosed
  exact ⟨payer, amount, decimals, payments, Call.ne_financingPool ha, hdecimals, hpay,
    newTransfers_of_move_payAll htokens⟩

/-- **What is left** of a closing repayment is what the two divisions cut off. -/
theorem undistributed_eq (hm : SharesOf T (w.pool.positions i)) (h : ClosesWith d i token R w a)
    (hdecimals : w.tokens.decimals token = some standardDecimals) :
    undistributed d token R w a =
      Apportion.leftover 10_000 T R contributionOf (w.pool.positions i) := by
  obtain ⟨payer, amount, decimals, payments, hpayer, hd, hpay, htransfers⟩ := h.pays
  obtain rfl : decimals = standardDecimals := Option.some.inj (hd.symm.trans hdecimals)
  have hsum : (payments.map Prod.snd).sum = _ := hpay.sum_eq hm fun _ x => x
  rw [undistributed, htransfers, outflow_cons, if_neg fun hp => hpayer hp.2, outflow_payments,
    if_pos rfl, hsum, zero_add]
  rfl

theorem CommonTotal.shares (hw : CommonTotal d i T w) : SharesOf T (w.pool.positions i) := by
  obtain ⟨start, tokens, as, rfl, hT⟩ := hw.reached
  exact sharesOf_run hT

end Payments

/-! ## Drift -/

section Drift

variable {d : Deployment} {i : ℕ} {T R : ℤ} {w : World} {a : Action} {token : Address}

/-- **The drift bound**: a closing repayment in a token of standard precision leaves at most one
unit for each position undistributed exactly when the remainders of the shares, scaled by the
repaid total, and those of the payments stay within `10_000` for each position. -/
theorem drift_le_iff (hw : CommonTotal d i T w) (hclose : ClosesWith d i token R w a)
    (hdecimals : w.tokens.decimals token = some 7) :
    undistributed d token R w a ≤ (w.pool.positions i).size ↔
      R * Apportion.shareRest 10_000 T contributionOf (w.pool.positions i) +
          T * Apportion.paidRest 10_000 T R contributionOf (w.pool.positions i) ≤
        10_000 * T * (w.pool.positions i).size := by
  rw [undistributed_eq hw.shares hclose hdecimals]
  exact Apportion.leftover_le_iff hw.whole hw.positive (by norm_num)

/-- The shares of the positions are whole basis points. -/
def ExactShares (T : ℤ) (positions : FinMap Address Position) : Prop :=
  ∀ (investor : Address) (p : Position), positions[investor]? = some p →
    T ∣ p.contributed * 10_000

theorem CommonTotal.exact_iff (hw : CommonTotal d i T w) :
    Apportion.shareRest 10_000 T contributionOf (w.pool.positions i) = 0 ↔
      ExactShares T (w.pool.positions i) := by
  rw [Apportion.shareRest,
    FinMap.total_eq_zero_iff fun _ _ _ => Int.emod_nonneg _ hw.positive.ne']
  exact forall₃_congr fun _ _ _ => Int.dvd_iff_emod_eq_zero.symm

/-- **Exact shares** keep the bound, whatever is repaid. -/
theorem drift_le_of_exact (hw : CommonTotal d i T w) (hexact : ExactShares T (w.pool.positions i))
    (hclose : ClosesWith d i token R w a) (hdecimals : w.tokens.decimals token = some 7) :
    undistributed d token R w a ≤ (w.pool.positions i).size := by
  rw [undistributed_eq hw.shares hclose hdecimals]
  exact Apportion.leftover_le_of_exact hw.whole hw.positive (by norm_num)
    (hw.exact_iff.mpr hexact)

/-- **Truncated shares** break the bound once more than `10_000` is repaid for each position. -/
theorem lt_drift_of_truncated (hw : CommonTotal d i T w)
    (hshares : ¬ ExactShares T (w.pool.positions i)) (hclose : ClosesWith d i token R w a)
    (hdecimals : w.tokens.decimals token = some 7)
    (hR : 10_000 * ((w.pool.positions i).size : ℤ) < R) :
    (w.pool.positions i).size < undistributed d token R w a := by
  rw [undistributed_eq hw.shares hclose hdecimals]
  have hrest : 0 < Apportion.shareRest 10_000 T contributionOf (w.pool.positions i) := by
    refine lt_of_le_of_ne ?_ fun h => hshares (hw.exact_iff.mp h.symm)
    exact FinMap.total_nonneg fun _ _ _ => Int.emod_nonneg _ hw.positive.ne'
  exact Apportion.lt_leftover_of_inexact hw.whole hw.positive (by norm_num) hrest hR (by omega)

/-- Three positions of `3_000` in the pool of invoice `1`. -/
def thirds : List Action := sampleFunding "USDC" ++ [
  signed 1 (.pool (.recordPosition 1 1 3 3_000 9_000)),
  signed 1 (.pool (.recordPosition 1 1 4 3_000 9_000)),
  signed 1 (.pool (.recordPosition 1 1 5 3_000 9_000))]

theorem commonTotal_thirds :
    CommonTotal sample 1 9_000 (run (step sample) sampleGenesis thirds) where
  reached := ⟨0, sampleTokens, thirds, rfl, by decide +kernel⟩
  whole := by decide +kernel
  positive := by norm_num

/-- The SME repays `amount`. -/
def repayThirds (amount : ℤ) : Call := ⟨[2], .pool (.repay 2 1 50 amount)⟩

theorem closesWith_thirds {amount : ℤ}
    (hs : (repayThirds amount).Succeeds sample (run (step sample) sampleGenesis thirds))
    (hp : (step sample (run (step sample) sampleGenesis thirds)
      (.call (repayThirds amount))).pool.pool 1 =
        some ⟨1, 50, 0, 10_000, amount, true, 200, 10_000, false⟩) :
    ClosesWith sample 1 50 amount (run (step sample) sampleGenesis thirds)
      (.call (repayThirds amount)) :=
  ⟨⟨_, 2, amount, performed_of_succeeds hs⟩, _, hp, rfl, rfl⟩

/-- A repayment of `10_000` leaves one unit. -/
theorem drift_thirds : undistributed sample 50 10_000 (run (step sample) sampleGenesis thirds)
    (.call (repayThirds 10_000)) ≤
      ((run (step sample) sampleGenesis thirds).pool.positions 1).size :=
  (drift_le_iff commonTotal_thirds (closesWith_thirds (by decide +kernel) (by decide +kernel))
    (by decide +kernel)).mpr (by decide +kernel)

/-- A repayment of `100_000` leaves ten. -/
theorem drift_exceeds : ¬ ∀ (d : Deployment) (i : ℕ) (T R : ℤ) (w : World) (a : Action)
    (token : Address), CommonTotal d i T w → ClosesWith d i token R w a →
    w.tokens.decimals token = some 7 →
    undistributed d token R w a ≤ (w.pool.positions i).size := by
  intro h
  exact absurd (h sample 1 9_000 100_000 _ (.call (repayThirds 100_000)) 50 commonTotal_thirds
    (closesWith_thirds (by decide +kernel) (by decide +kernel)) (by decide +kernel))
    (by decide +kernel)

end Drift

/-! ## Principal -/

section Principal

variable {d : Deployment} {i : ℕ} {T R : ℤ} {w : World} {a : Action} {token : Address}

theorem paidTo_payments {src dst t : Address} {payments : List (Address × ℤ)} :
    paidTo src dst (payments.map fun x => ⟨token, src, x.1, x.2⟩) t =
      if token = t then (payments.map fun x => if x.1 = dst then x.2 else 0).sum else 0 := by
  rw [paidTo, List.map_map]
  split_ifs with htoken
  · refine congrArg List.sum (List.map_congr_left fun x _ => ?_)
    simp [htoken]
  · refine List.sum_eq_zero fun y hy => ?_
    obtain ⟨x, -, rfl⟩ := List.mem_map.mp hy
    exact if_neg fun h => htoken h.1

theorem paidTo_eq (hm : SharesOf T (w.pool.positions i)) (h : ClosesWith d i token R w a)
    (hdecimals : w.tokens.decimals token = some standardDecimals) {investor : Address}
    {p : Position} (hp : (w.pool.positions i)[investor]? = some p) :
    paidTo d.financingPool investor (newTransfers w (step d w a)) token =
      R * (p.contributed * 10_000 / T) / 10_000 := by
  obtain ⟨payer, amount, decimals, payments, hpayer, hd, hpay, htransfers⟩ := h.pays
  obtain rfl : decimals = standardDecimals := Option.some.inj (hd.symm.trans hdecimals)
  have hsum := hpay.sum_eq hm fun x y => if x = investor then y else 0
  rw [FinMap.total_single, FinMap.entry_of_some _ _ hp] at hsum
  rw [htransfers, paidTo, List.map_cons, List.sum_cons, if_neg fun h => hpayer h.2.1, zero_add,
    ← paidTo, paidTo_payments, if_pos rfl, hsum]
  rfl

theorem paidTo_other (h : ClosesWith d i token R w a) {investor t : Address} (ht : token ≠ t) :
    paidTo d.financingPool investor (newTransfers w (step d w a)) t = 0 := by
  obtain ⟨payer, amount, decimals, payments, -, -, -, htransfers⟩ := h.pays
  rw [htransfers, paidTo, List.map_cons, List.sum_cons, if_neg fun h => ht h.1, zero_add,
    ← paidTo, paidTo_payments, if_neg ht]

theorem CommonTotal.exists_position (hw : CommonTotal d i T w) :
    ∃ (investor : Address) (p : Position), (w.pool.positions i)[investor]? = some p := by
  by_contra hnone
  push Not at hnone
  have hzero : contributions w i = 0 := by
    rw [contributions, FinMap.total_congr (ψ := fun _ _ => 0)
      fun investor p hp => absurd hp (hnone investor p)]
    simp [FinMap.total]
  have hpos := hw.positive
  rw [← hw.whole, hzero] at hpos
  exact lt_irrefl _ hpos

/-- **No loss on full repayment**: the repayment that closes a pool pays every investor at least
its contribution, in the token of the pool, exactly when it names that token and no contribution
exceeds what its truncated share makes of the repaid total. -/
theorem principal_paid_iff (hw : CommonTotal d i T w) (hclose : ClosesWith d i token R w a) :
    ∀ pool, w.pool.pool i = some pool → w.tokens.decimals pool.token = some 7 →
      ((∀ (investor : Address) (p : Position), (w.pool.positions i)[investor]? = some p →
          p.contributed ≤
            paidTo d.financingPool investor (newTransfers w (step d w a)) pool.token) ↔
        token = pool.token ∧ ∀ (investor : Address) (p : Position),
          (w.pool.positions i)[investor]? = some p →
            p.contributed * 10_000 ≤ R * (p.contributed * 10_000 / T)) := by
  intro pool _ hdecimals
  by_cases htoken : token = pool.token
  · subst htoken
    rw [and_iff_right rfl]
    refine forall₃_congr fun investor p hp => ?_
    rw [paidTo_eq hw.shares hclose hdecimals hp, Int.le_ediv_iff_mul_le (by norm_num)]
  · refine iff_of_false (fun h => ?_) fun h => htoken h.1
    obtain ⟨investor, p, hp⟩ := hw.exists_position
    have hpaid := h investor p hp
    rw [paidTo_other hclose htoken] at hpaid
    exact absurd (hw.shares investor p hp).1 (not_lt.mpr hpaid)

/-- A repayment of `10_000` returns the contribution of account `3`. -/
theorem principal_paid_thirds : 3_000 ≤ paidTo sample.financingPool 3
    (newTransfers (run (step sample) sampleGenesis thirds)
      (step sample (run (step sample) sampleGenesis thirds) (.call (repayThirds 10_000)))) 50 := by
  have hall : ∀ e ∈ ((run (step sample) sampleGenesis thirds).pool.positions 1).toList,
      e.2.contributed * 10_000 ≤ 10_000 * (e.2.contributed * 10_000 / 9_000) := by decide +kernel
  exact (principal_paid_iff commonTotal_thirds
    (closesWith_thirds (by decide +kernel) (by decide +kernel))
    ⟨1, 50, 0, 10_000, 0, false, 200, 10_000, false⟩ (by decide +kernel) (by decide +kernel)).mpr
    ⟨rfl, fun investor p hp => hall (investor, p) (FinMap.mem_toList.mpr hp)⟩
    3 ⟨3, 1, 3_000, 3_333, 0⟩ (by decide +kernel)

/-- Invoice `2` of `100_000` is sold for `90_000`, of which account `4` contributed one unit. -/
def smallPosition : List Action := sampleSetup "USDC" ++ [
  signed 2 (.invoiceNft (.mintInvoice 2 [1] 100_000 "USDC" 1000 "cid" 50 none)),
  signed 2 (.marketplace (.listInvoice 2 2 90_000 100_000 50 500 none)),
  signed 3 (.marketplace (.fundInvoice 3 2 90_000)),
  signed 1 (.pool (.recordPosition 1 2 3 89_999 90_000)),
  signed 1 (.pool (.recordPosition 1 2 4 1 90_000))]

/-- The SME repays the whole face value, and account `4` gets nothing. -/
theorem principal_lost : ¬ ∀ (d : Deployment) (i : ℕ) (T R : ℤ) (w : World) (a : Action)
    (pool : Pool), CommonTotal d i T w → w.pool.pool i = some pool →
    w.tokens.decimals pool.token = some 7 → T < pool.faceValue →
    (w.invoiceNft.current i).map Invoice.currency = some "USDC" →
    ClosesWith d i pool.token R w a →
    ∀ (investor : Address) (p : Position), (w.pool.positions i)[investor]? = some p →
      p.contributed ≤
        paidTo d.financingPool investor (newTransfers w (step d w a)) pool.token := by
  intro h
  have hw : CommonTotal sample 2 90_000 (run (step sample) sampleGenesis smallPosition) :=
    ⟨⟨0, sampleTokens, smallPosition, rfl, by decide +kernel⟩, by decide +kernel, by norm_num⟩
  have hclose : ClosesWith sample 2 50 100_000 (run (step sample) sampleGenesis smallPosition)
      (.call ⟨[2], .pool (.repay 2 2 50 100_000)⟩) :=
    ⟨⟨_, 2, 100_000, performed_of_succeeds (by decide +kernel)⟩,
      ⟨2, 50, 0, 100_000, 100_000, true, 200, 100_000, false⟩, by decide +kernel, rfl, rfl⟩
  exact absurd (h _ _ _ _ _ _ ⟨2, 50, 0, 100_000, 0, false, 200, 100_000, false⟩ hw
    (by decide +kernel) (by decide +kernel) (by norm_num) (by decide +kernel) hclose
    4 ⟨4, 2, 1, 0, 0⟩ (by decide +kernel)) (by decide +kernel)

end Principal

end Kora.FinancingPool
