import Kora.FinancingPool.Flow

set_option autoImplicit false

/-!
# The payouts of a distribution

A contribution to a pool is turned into a share of whole basis points when it is recorded, and the
share into a payout when the pool is distributed. Both are rounded down.

* `payoutOf`, `PayoutsOf`: the payouts of contributions;
* `PayoutsOf.sum_le`: together they stay within what is distributed;
* `Payments.payouts`, `distributeYield_outflow_le`: the payments that a distribution makes;
* **`payouts_within`**: both, for the contributions to one pool.
-/

namespace Kora.FinancingPool

open Exec

/-- What a contribution to a pool of `total` is paid when `repaid` is distributed. -/
def payoutOf (total repaid : ℤ) (decimals : ℕ) (contributed : ℤ) : Except KoraError ℤ := do
  let shareBps ← shareBpsOf contributed total
  bpsOfNormalized repaid shareBps decimals

/-- The payouts of the contributions, in order. -/
def PayoutsOf (total repaid : ℤ) (decimals : ℕ) (contributions payouts : List ℤ) : Prop :=
  List.Forall₂ (fun c payout => payoutOf total repaid decimals c = .ok payout)
    contributions payouts

section Payouts

variable {total repaid payout c : ℤ} {decimals : ℕ} {contributions payouts : List ℤ}

theorem payoutOf_le (hc : 0 ≤ c) (htotal : 0 < total) (hrepaid : 0 ≤ repaid)
    (h : payoutOf total repaid decimals c = .ok payout) :
    payout * 10_000 * total ≤ repaid * (c * 10_000) := by
  obtain ⟨share, hshare, hpayout⟩ := except_bind_ok.mp h
  have hfloor : (share : ℤ) * total ≤ c * 10_000 := by
    rw [shareBpsOf_ok hc hshare htotal.le]
    exact Int.ediv_mul_le _ htotal.ne'
  calc payout * 10_000 * total ≤ repaid * share * total :=
        mul_le_mul_of_nonneg_right (bpsOfNormalized_mul_le hpayout) htotal.le
    _ = repaid * (share * total) := mul_assoc ..
    _ ≤ repaid * (c * 10_000) := mul_le_mul_of_nonneg_left hfloor hrepaid

theorem PayoutsOf.sum_mul_le (h : PayoutsOf total repaid decimals contributions payouts)
    (htotal : 0 < total) (hrepaid : 0 ≤ repaid) (hc : ∀ c ∈ contributions, 0 ≤ c) :
    payouts.sum * 10_000 * total ≤ repaid * (contributions.sum * 10_000) := by
  induction h with
  | nil => simp
  | cons hpayout _ ih =>
    rw [List.forall_mem_cons] at hc
    have hhead := payoutOf_le hc.1 htotal hrepaid hpayout
    have htail := ih hc.2
    simp only [List.sum_cons]
    linarith

/-- **Payouts stay within the repayment.** -/
theorem PayoutsOf.sum_le (h : PayoutsOf total repaid decimals contributions payouts)
    (hpos : ∀ c ∈ contributions, 0 < c) (hsum : contributions.sum ≤ total)
    (hrepaid : 0 ≤ repaid) : payouts.sum ≤ repaid := by
  have hnonneg : ∀ c ∈ contributions, 0 ≤ c := fun c hc => (hpos c hc).le
  cases contributions with
  | nil =>
    obtain rfl := List.forall₂_nil_left_iff.mp h
    exact hrepaid
  | cons c cs =>
    have htotal : 0 < total := by
      have hc : 0 < c := hpos c (List.mem_cons_self ..)
      have hcs : 0 ≤ cs.sum := List.sum_nonneg fun x hx => hnonneg x (List.mem_cons_of_mem c hx)
      rw [List.sum_cons] at hsum
      omega
    refine le_of_mul_le_mul_right ?_ (mul_pos (by norm_num : (0 : ℤ) < 10_000) htotal)
    calc payouts.sum * (10_000 * total) = payouts.sum * 10_000 * total := by ring
      _ ≤ repaid * ((c :: cs).sum * 10_000) := h.sum_mul_le htotal hrepaid hnonneg
      _ ≤ repaid * (total * 10_000) := by gcongr
      _ = repaid * (10_000 * total) := by ring

end Payouts

/-! ## Distributions -/

section Distributions

variable {env : Env} {w w' : World} {u : Unit} {i decimals : ℕ} {token : Address}
  {total repaid face : ℤ} {positions : List (Address × Position)}
  {payments : List (Address × ℤ)}

/-- The shares of the positions are those of their contributions to a pool of `total`. -/
def RecordedFor (total : ℤ) (positions : List (Address × Position)) : Prop :=
  ∀ e ∈ positions, 0 < e.2.contributed ∧
    shareBpsOf e.2.contributed total = .ok e.2.shareBps

/-- Payments to recorded positions are the payouts of the contributions. -/
theorem Payments.payouts (h : Payments repaid decimals positions payments)
    (hrecorded : RecordedFor total positions) :
    PayoutsOf total repaid decimals (positions.map fun e => e.2.contributed)
      (payments.map Prod.snd) := by
  induction h with
  | nil => exact .nil
  | cons hp _ ih =>
    obtain ⟨⟨-, hshare⟩, hrest⟩ := List.forall_mem_cons.mp hrecorded
    exact .cons (except_bind_ok.mpr ⟨_, hshare, hp.2⟩) (ih hrest)

/-- **A distribution** to positions recorded with one total takes at most what is distributed out
of the pool, in the token that it names, and nothing in another one. -/
theorem distributeYield_outflow_le (h : distributeYield i token repaid face env w = .ok u w')
    (hrecorded : RecordedFor total (w.pool.positions i).toList)
    (hsum : ((w.pool.positions i).toList.map fun e => e.2.contributed).sum ≤ total)
    (hrepaid : 0 ≤ repaid) (t : Address) :
    outflow env.net.financingPool (newTransfers w w') t ≤ if token = t then repaid else 0 := by
  obtain ⟨decimals, payments, hpay, rfl⟩ := distributeYield_ok h
  rw [newTransfers_of_payAll rfl, outflow_payments]
  have hpos : ∀ c ∈ (w.pool.positions i).toList.map fun e => e.2.contributed, 0 < c := by
    intro c hc
    obtain ⟨e, he, rfl⟩ := List.mem_map.mp hc
    exact (hrecorded e he).1
  split_ifs
  · exact (hpay.payouts hrecorded).sum_le hpos hsum hrepaid
  · exact le_rfl

end Distributions

/-- **Payouts never exceed the repayment.** The contributions to a pool of `total`, however many,
are together paid at most what is distributed, at any number of decimals; and a distribution to
positions recorded so takes no more than that out of the pool. -/
theorem payouts_within (total repaid : ℤ) (decimals : ℕ) (contributions : List ℤ)
    (hpos : ∀ c ∈ contributions, 0 < c) (hsum : contributions.sum ≤ total)
    (hrepaid : 0 ≤ repaid) :
    (∀ payouts, PayoutsOf total repaid decimals contributions payouts → payouts.sum ≤ repaid) ∧
    ∀ (env : Env) (w w' : World) (i : ℕ) (token : Address) (face : ℤ),
      distributeYield i token repaid face env w = .ok () w' →
      RecordedFor total (w.pool.positions i).toList →
      ((w.pool.positions i).toList.map fun e => e.2.contributed) = contributions →
      ∀ t, outflow env.net.financingPool (newTransfers w w') t ≤
        if token = t then repaid else 0 := by
  refine ⟨fun payouts h => h.sum_le hpos hsum hrepaid, ?_⟩
  intro env w w' i token face h hrecorded hc
  exact distributeYield_outflow_le h hrecorded (hc ▸ hsum) hrepaid

/-- Three contributions of `3_000` are paid `3_333` each of `10_001`, in a token of six decimals. -/
theorem payouts_within_thirds : [3_333, 3_333, 3_333].sum ≤ (10_001 : ℤ) :=
  (payouts_within 9_000 10_001 6 [3_000, 3_000, 3_000] (by decide) (by decide) (by decide)).1 _
    (.cons rfl (.cons rfl (.cons rfl .nil)))

end Kora.FinancingPool
