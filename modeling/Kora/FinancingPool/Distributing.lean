import Kora.FinancingPool.Ceiling
import Kora.FinancingPool.Errors

set_option autoImplicit false

/-!
# Distributions that go through

* `OpenDeal`: an open pool whose money can be distributed;
* `payInvestors_runs`, `distributeYield_runs`: a distribution that the pool can afford goes through;
* `Payments.fits`: and only where its products fit in an `i128`;
* `positionsBounded_run`: the contributions are positive and within the ceiling.
-/

namespace Kora.FinancingPool

open Exec Run

/-- The invoice is funded and its pool open, in a token of seven decimals and with shares within
the whole, the pool calls the invoice contract of the deployment, and the protocol is not
paused. -/
structure OpenDeal (d : Deployment) (w : World) (i : ℕ) (p : Pool) (inv : Invoice) : Prop where
  pool : w.pool.pool i = some p
  unclosed : p.isClosed = false
  invoice : w.invoiceNft.invoice i = some (.current inv)
  funded : inv.status = .funded
  unpaused : w.accessControl.paused.getD false = false
  invoiceNft : w.pool.invoiceNft = some d.invoiceNft
  decimals : w.tokens.decimals p.token = some standardDecimals
  shares : ((w.pool.positions i).toList.map fun e => (e.2.shareBps : ℤ)).sum ≤ 10_000

/-! ## Distributions -/

section Distributions

variable {env : Env} {w : World} {i decimals : ℕ} {token : Address} {total acc : ℤ}
  {positions : List (Address × Position)} {payments : List (Address × ℤ)}

/-- The contribution of a position is positive and within the ceiling. -/
def Bounded (pos : Position) : Prop := 0 < pos.contributed ∧ pos.contributed ≤ maxAmount

theorem checkedSub_payout {payout : ℤ} {pos : Position} (hpos : Bounded pos) (h : 0 ≤ payout)
    (hmax : payout ≤ i128Max) :
    checkedSub payout pos.contributed = some (payout - pos.contributed) := by
  obtain ⟨hc, hle⟩ := hpos
  rw [checkedSub, checkI128_some]
  unfold i128Min maxAmount i128Max at *
  omega

theorem payInvestors_runs (h : Payments total decimals positions payments)
    (hdecimals : (w.tokens.decimals token).isSome = true)
    (hbounded : ∀ e ∈ positions, Bounded e.2) (hmax : ∀ q ∈ payments, q.2 ≤ i128Max)
    (hfunds : (payments.map Prod.snd).sum ≤ w.tokens.balance token env.net.financingPool) :
    ∃ c w', payInvestors token total decimals positions acc env w = .ok c w' := by
  induction h generalizing w acc with
  | nil => exact ⟨acc, w, rfl⟩
  | @cons e q positions payments hq hrest ih =>
    obtain ⟨investor, pos⟩ := e
    obtain ⟨payee, payout⟩ := q
    obtain ⟨rfl, hpayout⟩ := hq
    rw [List.forall_mem_cons] at hbounded hmax
    rw [List.map_cons, List.sum_cons] at hfunds
    have hnonneg : 0 ≤ payout := bpsOfNormalized_nonneg hpayout
    have hothers : 0 ≤ (payments.map Prod.snd).sum := by
      refine List.sum_nonneg fun x hx => ?_
      obtain ⟨r, hr, rfl⟩ := List.mem_map.mp hx
      exact Payments.nonneg hrest r hr
    have hleft : (payments.map Prod.snd).sum ≤
        (w.tokens.move token env.net.financingPool payee payout).balance token
          env.net.financingPool := by
      rw [Tokens.move_balance, if_pos ⟨rfl, rfl⟩]
      split_ifs <;> omega
    obtain ⟨c, w', hrun⟩ := @ih { w with
      tokens := w.tokens.move token env.net.financingPool payee payout }
      (saturatingAdd acc pos.contributed) hdecimals hbounded.2 hmax.2 hleft
    refine ⟨c, w', ?_⟩
    simp only [payInvestors, check_seq_ok, okOr_ok, net_run, bind_ok (x := callToken _ _),
      callToken_transfer_ok]
    exact ⟨payout, hpayout, _, checkedSub_payout hbounded.1 hnonneg hmax.1, (), _,
      ⟨fun _ => env.authenticates_from _, hdecimals, hnonneg, by omega, rfl⟩, hrun⟩

/-- At seven decimals a position is paid its share of the total, rounded down. -/
theorem payments_standard (htotal : 0 ≤ total)
    (hfits : ∀ e ∈ positions, total * e.2.shareBps ≤ i128Max) :
    Payments total standardDecimals positions
      (positions.map fun e => (e.1, total * e.2.shareBps / 10_000)) := by
  rw [Payments, List.forall₂_map_right_iff, List.forall₂_same]
  intro e he
  rw [bpsOfNormalized_eq, bpsOf_eq htotal, if_pos (hfits e he)]
  exact ⟨rfl, rfl⟩

/-- **Payments are made only where the products fit.** -/
theorem Payments.fits (h : Payments total standardDecimals positions payments)
    (htotal : 0 ≤ total) : ∀ e ∈ positions, total * e.2.shareBps ≤ i128Max := by
  induction h with
  | nil => simp
  | @cons e q _ _ hq _ ih =>
    refine List.forall_mem_cons.mpr ⟨?_, ih⟩
    have hpayout := hq.2
    rw [bpsOfNormalized_eq, bpsOf_eq htotal] at hpayout
    by_contra hle
    rw [if_neg hle] at hpayout
    cases hpayout

theorem Payments.eq_standard (h : Payments total standardDecimals positions payments) :
    payments = positions.map fun e => (e.1, total * e.2.shareBps / 10_000) := by
  induction h with
  | nil => rfl
  | @cons e q _ _ hq _ ih =>
    obtain ⟨payee, payout⟩ := q
    obtain ⟨rfl, hpayout⟩ := hq
    have hshare : payout = total * e.2.shareBps / 10_000 := bpsOfNormalized_standard hpayout
    rw [List.map_cons, ← ih, hshare]

theorem share_le_of_sum {whole : ℤ}
    (h : (positions.map fun e => (e.2.shareBps : ℤ)).sum ≤ whole) (e : Address × Position)
    (he : e ∈ positions) : (e.2.shareBps : ℤ) ≤ whole := by
  have hmem : (e.2.shareBps : ℤ) ∈ positions.map fun e => (e.2.shareBps : ℤ) :=
    List.mem_map.mpr ⟨e, he, rfl⟩
  refine le_trans (List.single_le_sum (fun x hx => ?_) _ hmem) h
  obtain ⟨f, -, rfl⟩ := List.mem_map.mp hx
  exact Int.natCast_nonneg _

/-- **A distribution that the pool can afford** goes through. -/
theorem distributeYield_runs {face : ℤ} (htotal : 0 ≤ total)
    (hfits : ∀ e ∈ (w.pool.positions i).toList, total * e.2.shareBps ≤ i128Max)
    (hdecimals : w.tokens.decimals token = some standardDecimals)
    (hbounded : ∀ e ∈ (w.pool.positions i).toList, Bounded e.2)
    (hshares : ((w.pool.positions i).toList.map fun e => (e.2.shareBps : ℤ)).sum ≤ 10_000)
    (hfunds : total ≤ w.tokens.balance token env.net.financingPool) :
    ∃ w', distributeYield i token total face env w = .ok () w' := by
  have hpay := payments_standard htotal hfits
  have hsum := hpay.sum_le htotal hshares
  have hmax : ∀ q ∈ (w.pool.positions i).toList.map
      (fun e => (e.1, total * e.2.shareBps / 10_000)), q.2 ≤ i128Max := by
    intro q hq
    obtain ⟨e, he, rfl⟩ := List.mem_map.mp hq
    have hle := hfits e he
    have hnonneg : 0 ≤ total * e.2.shareBps := mul_nonneg htotal (Int.natCast_nonneg _)
    omega
  have hruns : ∃ c w', payInvestors token total standardDecimals (w.pool.positions i).toList 0 env
      w = .ok c w' :=
    payInvestors_runs hpay (by rw [hdecimals]; rfl) hbounded hmax (hsum.trans hfunds)
  obtain ⟨c, w', hrun⟩ := hruns
  simp only [distributeYield, gets_run, net_run, bind_ok (x := callToken _ _),
    bind_ok (x := payInvestors _ _ _ _ _), callToken_decimals_ok, modifyOwn, modify_ok]
  exact ⟨_, standardDecimals, w, ⟨hdecimals, rfl⟩, c, w', hrun, rfl⟩

theorem OpenDeal.fits {d : Deployment} {p : Pool} {inv : Invoice} (h : OpenDeal d w i p inv)
    (htotal : 0 ≤ total) (hceiling : total * 10_000 ≤ i128Max) :
    ∀ e ∈ (w.pool.positions i).toList, total * e.2.shareBps ≤ i128Max := fun e he =>
  (mul_le_mul_of_nonneg_left (share_le_of_sum h.shares e he) htotal).trans hceiling

end Distributions

/-! ## Positions within the ceiling -/

section Positions

variable {d : Deployment} {w w' : World} {env : Env} {i : ℕ}

/-- The contributions are positive and within the ceiling. -/
def PositionsBounded (w : World) : Prop :=
  ∀ (i : ℕ) (x : Address) (pos : Position), (w.pool.positions i)[x]? = some pos → Bounded pos

theorem recordPosition_bounded {caller investor : Address} {contributed total : ℤ}
    (h : recordPosition caller i investor contributed total env w = .ok () w') :
    0 < contributed ∧ contributed ≤ maxAmount := by
  simp only [recordPosition, requireAuth_seq_ok, requireAdmin_seq_ok, requireNotPaused_seq_ok,
    ensure_seq_ok] at h
  obtain ⟨-, -, -, -, ⟨hpos, -⟩, ⟨-, hmax, -⟩, -⟩ := h
  exact ⟨hpos, hmax⟩

theorem positionsBounded_step (hw : PositionsBounded w) (a : Action) :
    PositionsBounded (step d w a) := by
  intro i x pos hpos
  rcases performed_change d w a i with ⟨env, e, hperf, -, hc⟩ | ⟨-, n, h⟩
  · obtain ⟨_, -, -, -, hexec⟩ := performed_call hperf
    cases hc.positions with
    | kept _ h =>
      rw [h] at hpos
      exact hw i x pos hpos
    | recorded caller investor contributed total share h =>
      rw [h.positions, FinMap.getElem?_insert'] at hpos
      split_ifs at hpos
      · obtain rfl := Option.some.inj hpos
        exact recordPosition_bounded hexec
      · exact hw i x pos hpos
    | sold buyer seller old h =>
      rw [h.positions, FinMap.getElem?_insert'] at hpos
      split_ifs at hpos
      · obtain rfl := Option.some.inj hpos
        exact hw i seller old h.sold
      · rw [FinMap.getElem?_erase'] at hpos
        split_ifs at hpos
        exact hw i x pos hpos
  · rw [h] at hpos
    exact hw i x pos hpos

theorem positionsBounded_run (d : Deployment) (now : ℕ) (tokens : Tokens) (as : List Action) :
    PositionsBounded (run (step d) (genesis now tokens) as) := by
  have hgenesis : PositionsBounded (genesis now tokens) := by
    intro i x pos h
    simp [genesis] at h
  exact always (I := PositionsBounded) (fun _ a hw => positionsBounded_step hw a) hgenesis as

theorem PositionsBounded.toList (hw : PositionsBounded w) (i : ℕ) :
    ∀ e ∈ (w.pool.positions i).toList, Bounded e.2 := by
  intro e he
  exact hw i e.1 e.2 (FinMap.mem_toList.mp he)

end Positions

end Kora.FinancingPool
