import Kora.FinancingPool
import Kora.InvoiceNft.Spec

set_option autoImplicit false

/-!
# What the financing pool does

The ledger after each successful entry point, with the guards it passed.

* `distributeYield_ok`, `Payments`: a distribution pays every position its rounded share;
* **`Payments.sum_le`**: the payments of one distribution stay within the distributed total when
  the shares do;
* `releaseFunds_ok`, `recordPosition_ok`, `buyPosition_ok`, `repay_ok`, `markDefault_ok`, …: one
  lemma for each entry point;
* **`Op.exec_outside`**: what the other contracts see of an entry point.
-/

namespace Kora.FinancingPool

open Exec

variable {env : Env} {w w' : World} {u : Unit} {i : ℕ}

/-! ## Helpers -/

section Helpers

variable {β : Type} {b : β} {l : Unit → Host World β}

theorem requireAdmin_seq_ok {caller : Address} : (requireAdmin caller >>= l) env w = .ok b w' ↔
    w.pool.admin = some caller ∧ l () env w = .ok b w' := by
  simp only [requireAdmin, assoc_run, fetch_seq_ok, ensure_seq_ok]
  constructor
  · rintro ⟨a, h, rfl, hl⟩
    exact ⟨h, hl⟩
  · rintro ⟨h, hl⟩
    exact ⟨caller, h, rfl, hl⟩

theorem requireNotPaused_seq_ok : (requireNotPaused >>= l) env w = .ok b w' ↔
    w.pool.accessControl = some env.net.accessControl ∧
      w.accessControl.paused.getD false = false ∧ l () env w = .ok b w' := by
  simp only [requireNotPaused, assoc_run, fetch_seq_ok, net_run, callFrom_seq_ok, ensure_seq_ok,
    onAccessControl_ok, AccessControl.isPaused_ok]
  constructor
  · rintro ⟨a, h, rfl, _, _, ⟨_, ⟨rfl, rfl⟩, rfl⟩, hp, hl⟩
    exact ⟨h, hp, hl⟩
  · rintro ⟨h, hp, hl⟩
    exact ⟨_, h, rfl, _, w, ⟨_, ⟨rfl, rfl⟩, rfl⟩, hp, hl⟩

theorem loadPool_seq_ok {k : Pool → Host World β} : (loadPool i >>= k) env w = .ok b w' ↔
    ∃ p, w.pool.pool i = some p ∧ k p env w = .ok b w' := fetch_seq_ok

theorem callInvoiceNft_ok {α : Type} {m : InvoiceNft.Body α} {a : α} :
    callInvoiceNft m env w = .ok a w' ↔ w.pool.invoiceNft = some env.net.invoiceNft ∧
      ∃ s, m (env.from env.net.financingPool) ⟨w.invoiceNft, w.accessControl, w.riskRegistry⟩ =
        .ok a s ∧ { w with
          invoiceNft := s.own
          accessControl := s.accessControl
          riskRegistry := s.riskRegistry } = w' := by
  simp only [callInvoiceNft, fetch_seq_ok, net_run, callFrom_ok, onInvoiceNft_ok]
  constructor
  · rintro ⟨a, h, rfl, hm⟩
    exact ⟨h, hm⟩
  · rintro ⟨h, hm⟩
    exact ⟨_, h, rfl, hm⟩

theorem loadInvoice_seq_ok {k : Invoice → Host World β} :
    (loadInvoice i >>= k) env w = .ok b w' ↔ w.pool.invoiceNft = some env.net.invoiceNft ∧
      ∃ inv, w.invoiceNft.invoice i = some (.current inv) ∧ k inv env w = .ok b w' := by
  simp only [bind_ok, loadInvoice, callInvoiceNft_ok, InvoiceNft.getInvoice_ok]
  constructor
  · rintro ⟨inv, _, ⟨h, _, ⟨hi, rfl⟩, rfl⟩, hk⟩
    exact ⟨h, inv, hi, hk⟩
  · rintro ⟨h, inv, hi, hk⟩
    exact ⟨inv, w, ⟨h, _, ⟨hi, rfl⟩, rfl⟩, hk⟩

theorem invoiceFrozen_seq_ok {k : Bool → Host World β} :
    (callInvoiceNft (InvoiceNft.isInvoiceFrozen i) >>= k) env w = .ok b w' ↔
      w.pool.invoiceNft = some env.net.invoiceNft ∧
        k (w.invoiceNft.invoiceFrozen i) env w = .ok b w' := by
  simp only [bind_ok, callInvoiceNft_ok, InvoiceNft.isInvoiceFrozen_ok]
  constructor
  · rintro ⟨_, _, ⟨h, _, ⟨rfl, rfl⟩, rfl⟩, hk⟩
    exact ⟨h, hk⟩
  · rintro ⟨h, hk⟩
    exact ⟨_, w, ⟨h, _, ⟨rfl, rfl⟩, rfl⟩, hk⟩

theorem requireUnlocked_seq_ok : (requireUnlocked i >>= l) env w = .ok b w' ↔
    w.pool.repaymentLock i = false ∧ l () env w = .ok b w' := by
  rw [requireUnlocked, assoc_run, gets_run, ensure_seq_ok]

theorem requireAdmin_run {caller : Address} (h : w.pool.admin = some caller) :
    (requireAdmin caller >>= l) env w = l () env w := by
  have hok : requireAdmin caller env w = .ok () w := by
    rw [requireAdmin, fetch_seq_ok]
    exact ⟨caller, h, ensure_ok.mpr ⟨rfl, rfl⟩⟩
  exact ok_run hok

theorem requireNotPaused_run (h : w.pool.accessControl = some env.net.accessControl ∧
    w.accessControl.paused.getD false = false) :
    (requireNotPaused >>= l) env w = l () env w := by
  have hok : requireNotPaused env w = .ok () w := by
    simp only [requireNotPaused, fetch_seq_ok, net_run, callFrom_seq_ok, onAccessControl_ok,
      AccessControl.isPaused_ok, ensure_ok]
    exact ⟨_, h.1, rfl, _, w, ⟨_, ⟨rfl, rfl⟩, rfl⟩, h.2, rfl⟩
  exact ok_run hok

theorem requireUnlocked_run (h : w.pool.repaymentLock i = false) :
    (requireUnlocked i >>= l) env w = l () env w := by
  rw [requireUnlocked, assoc_run, gets_run, ensure_run h]

theorem loadPool_run {p : Pool} {k : Pool → Host World β} (h : w.pool.pool i = some p) :
    (loadPool i >>= k) env w = k p env w := fetch_run h

theorem invoiceFrozen_run {k : Bool → Host World β}
    (hnft : w.pool.invoiceNft = some env.net.invoiceNft) :
    (callInvoiceNft (InvoiceNft.isInvoiceFrozen i) >>= k) env w =
      k (w.invoiceNft.invoiceFrozen i) env w :=
  ok_run (callInvoiceNft_ok.mpr ⟨hnft, _, InvoiceNft.isInvoiceFrozen_ok.mpr ⟨rfl, rfl⟩, rfl⟩)

theorem loadInvoice_run {inv : Invoice} {k : Invoice → Host World β}
    (hnft : w.pool.invoiceNft = some env.net.invoiceNft)
    (hinv : w.invoiceNft.invoice i = some (.current inv)) :
    (loadInvoice i >>= k) env w = k inv env w :=
  ok_run (callInvoiceNft_ok.mpr ⟨hnft, _, InvoiceNft.getInvoice_ok.mpr ⟨hinv, rfl⟩, rfl⟩)

/-- What a repayment is credited with. -/
def credit (w : World) (amount : ℤ) (currency : Symbol) : ℤ :=
  if w.pool.priceOracle = none then amount
  else PriceOracle.quote w.priceOracle amount currency "USDC"

theorem convertIfNeeded_ok {amount r : ℤ} {currency : Symbol} {token : Address}
    (ha : 0 < amount) (h : convertIfNeeded amount currency token env w = .ok r w') :
    r = credit w amount currency ∧ 0 < r ∧ w' = w := by
  rw [convertIfNeeded, gets_run] at h
  cases ho : w.pool.priceOracle with
  | none =>
    rw [ho] at h
    obtain ⟨rfl, rfl⟩ := pure_ok.mp h
    exact ⟨(if_pos ho).symm, ha, rfl⟩
  | some oracle =>
    rw [ho] at h
    simp only [net_run, callFrom_ok, onPriceOracle_ok] at h
    obtain ⟨-, S, hS, rfl⟩ := h
    obtain ⟨hr, rfl⟩ := PriceOracle.convert_ok hS
    refine ⟨?_, PriceOracle.convert_pos ha hS, rfl⟩
    rw [credit, if_neg (by simp [ho]), hr]

end Helpers

/-! ## Distribution -/

/-- `payments` pay every position of the list its share of `total`, in order. -/
def Payments (total : ℤ) (decimals : ℕ) (positions : List (Address × Position))
    (payments : List (Address × ℤ)) : Prop :=
  List.Forall₂ (fun e p => p.1 = e.1 ∧ bpsOfNormalized total e.2.shareBps decimals = .ok p.2)
    positions payments

section Distribution

variable {token : Address} {total c acc : ℤ} {decimals : ℕ}
  {positions : List (Address × Position)} {payments : List (Address × ℤ)}

theorem Payments.nonneg (h : Payments total decimals positions payments) :
    ∀ p ∈ payments, 0 ≤ p.2 := by
  induction h with
  | nil => simp
  | cons hp _ ih =>
    rw [List.forall_mem_cons]
    exact ⟨bpsOfNormalized_nonneg hp.2, ih⟩

theorem Payments.sum_mul_le (h : Payments total decimals positions payments) :
    (payments.map Prod.snd).sum * 10_000 ≤
      total * (positions.map fun e => (e.2.shareBps : ℤ)).sum := by
  induction h with
  | nil => simp
  | cons hp _ ih =>
    simp only [List.map_cons, List.sum_cons]
    have := bpsOfNormalized_mul_le hp.2
    linarith

/-- **A distribution pays at most its total.** -/
theorem Payments.sum_le (h : Payments total decimals positions payments) (ht : 0 ≤ total)
    (hs : (positions.map fun e => (e.2.shareBps : ℤ)).sum ≤ 10_000) :
    (payments.map Prod.snd).sum ≤ total := by
  have h₁ := h.sum_mul_le
  have h₂ := mul_le_mul_of_nonneg_left hs ht
  omega

/-- The contributions of the positions, added up from `acc` with saturation. -/
def contributedSum (positions : List (Address × Position)) (acc : ℤ) : ℤ :=
  positions.foldl (fun acc e => saturatingAdd acc e.2.contributed) acc

/-- The aggregates after a distribution of `token` to the investors of an invoice. -/
def Storage.distributed (S : Storage) (invoiceId : ℕ) (token : Address) : Address → Option ℤ :=
  Function.update S.aggregateFunded token (some (saturatingSub
    ((S.aggregateFunded token).getD 0) (contributedSum (S.positions invoiceId).toList 0)))

theorem payInvestors_ok
    (h : payInvestors token total decimals positions acc env w = .ok c w') :
    c = contributedSum positions acc ∧ ∃ payments, Payments total decimals positions payments ∧
      w' = { w with tokens := w.tokens.payAll token env.net.financingPool payments } := by
  induction positions generalizing acc w with
  | nil =>
    obtain ⟨rfl, rfl⟩ := pure_ok.mp h
    exact ⟨rfl, [], .nil, rfl⟩
  | cons e rest ih =>
    obtain ⟨investor, position⟩ := e
    simp only [payInvestors, check_seq_ok, net_run, bind_ok (x := callToken _ _),
      callToken_transfer_ok] at h
    obtain ⟨payout, hp, _, -, _, _, ⟨-, -, -, -, rfl⟩, h⟩ := h
    obtain ⟨hc, payments, hps, rfl⟩ := ih h
    exact ⟨hc, (investor, payout) :: payments, .cons ⟨rfl, hp⟩ hps, rfl⟩

theorem distributeYield_pays {face : ℤ}
    (h : distributeYield i token total face env w = .ok u w') :
    ∃ decimals payments, w.tokens.decimals token = some decimals ∧
      Payments total decimals (w.pool.positions i).toList payments ∧ w' = { w with
        tokens := w.tokens.payAll token env.net.financingPool payments
        pool := { w.pool with aggregateFunded := w.pool.distributed i token } } := by
  simp only [distributeYield, gets_run, net_run, bind_ok (x := callToken _ _),
    bind_ok (x := payInvestors _ _ _ _ _), callToken_decimals_ok, modifyOwn, modify_ok] at h
  obtain ⟨d, _, ⟨hd, rfl⟩, c, _, hp, rfl⟩ := h
  obtain ⟨rfl, payments, hps, rfl⟩ := payInvestors_ok hp
  exact ⟨d, payments, hd, hps, rfl⟩

theorem distributeYield_ok {face : ℤ} (h : distributeYield i token total face env w = .ok u w') :
    ∃ decimals payments, Payments total decimals (w.pool.positions i).toList payments ∧
      w' = { w with
        tokens := w.tokens.payAll token env.net.financingPool payments
        pool := { w.pool with aggregateFunded := w.pool.distributed i token } } := by
  obtain ⟨d, payments, -, hps, hw⟩ := distributeYield_pays h
  exact ⟨d, payments, hps, hw⟩

end Distribution

/-! ## Administration and opening -/

theorem initializeContract_ok {admin nft rr treasury ac oracle : Address} {bps cap : ℕ}
    (h : initializeContract admin nft rr treasury ac bps oracle cap env w = .ok u w') :
    w.pool.admin = none ∧ w' = { w with pool := { w.pool with
      admin := some admin
      invoiceNft := some nft
      riskRegistry := some rr
      treasury := some treasury
      accessControl := some ac
      latePenaltyBps := some bps
      priceOracle := some oracle
      maxPositionBps := some cap } } := by
  simp only [initializeContract, gets_run, ensure_seq_ok, check_seq_ok, net_run, modifyOwn,
    modify_ok] at h
  obtain ⟨hnone, _, -, -, _, -, _, -, _, -, _, -, _, -, rfl⟩ := h
  exact ⟨hnone, rfl⟩

theorem setMaxPositionBps_ok {admin : Address} {cap : ℕ}
    (h : setMaxPositionBps admin cap env w = .ok u w') :
    w' = { w with pool := { w.pool with maxPositionBps := some cap } } := by
  simp only [setMaxPositionBps, requireAuth_seq_ok, requireAdmin_seq_ok, ensure_seq_ok, modifyOwn,
    modify_ok] at h
  obtain ⟨-, -, -, rfl⟩ := h
  rfl

/-- **When funds are released**, and what that leaves. -/
theorem releaseFunds_iff {marketplace token : Address} :
    releaseFunds marketplace i token env w = .ok u w' ↔
      env.Authenticates marketplace ∧ w.pool.accessControl = some env.net.accessControl ∧
      w.accessControl.paused.getD false = false ∧ w.pool.pool i = none ∧
      token ≠ env.net.financingPool ∧ w.pool.invoiceNft = some env.net.invoiceNft ∧
      w.invoiceNft.financingPool = some env.net.financingPool ∧
      w.invoiceNft.accessControl = some env.net.accessControl ∧ w.invoiceNft.lock = false ∧
      ∃ inv bps, w.pool.latePenaltyBps = some bps ∧
        w.invoiceNft.invoice i = some (.current inv) ∧ inv.status = .listed ∧
        (0 < inv.amount ∧ inv.amount ≤ maxAmount) ∧ w' = { w with
          pool := { w.pool with
            pool := Function.update w.pool.pool i
              (some ⟨i, token, 0, inv.amount, 0, false, bps, inv.amount, false⟩) }
          invoiceNft := w.invoiceNft.asFunded i inv env.timestamp } := by
  simp only [releaseFunds, requireAuth_seq_ok, requireNotPaused_seq_ok, gets_run, ensure_seq_ok,
    net_run, loadInvoice_seq_ok, fetch_seq_ok, putPool, modifyOwn, modify_run,
    callInvoiceNft_ok, InvoiceNft.setFunded_iff]
  constructor
  · rintro ⟨ha, hac, hp, hnone, htoken, -, inv, hinv, hamount, bps, hbps, hnft, s,
      ⟨-, hfp, hnac, -, hlock, inv', hinv', hst, rfl⟩, rfl⟩
    obtain rfl := InvoiceNft.Storage.current_inj hinv hinv'
    exact ⟨ha, hac, hp, hnone, htoken, hnft, hfp, hnac, hlock, inv, bps, hbps, hinv, hst, hamount,
      rfl⟩
  · rintro ⟨ha, hac, hp, hnone, htoken, hnft, hfp, hnac, hlock, inv, bps, hbps, hinv, hst, hamount,
      rfl⟩
    exact ⟨ha, hac, hp, hnone, htoken, hnft, inv, hinv, hamount, bps, hbps, hnft, _,
      ⟨env.authenticates_from _, hfp, hnac, hp, hlock, inv, hinv, hst, rfl⟩, rfl⟩

/-- Releasing funds opens a pool with the penalty the contract was initialised with, for an amount
within the ceiling. -/
theorem releaseFunds_opens {marketplace token : Address}
    (h : releaseFunds marketplace i token env w = .ok u w') :
    env.Authenticates marketplace ∧ w.pool.pool i = none ∧
      w.invoiceNft.financingPool = some env.net.financingPool ∧
      ∃ inv bps, w.pool.latePenaltyBps = some bps ∧
        w.invoiceNft.invoice i = some (.current inv) ∧ inv.status = .listed ∧
        (0 < inv.amount ∧ inv.amount ≤ maxAmount) ∧ w' = { w with
          pool := { w.pool with
            pool := Function.update w.pool.pool i
              (some ⟨i, token, 0, inv.amount, 0, false, bps, inv.amount, false⟩) }
          invoiceNft := w.invoiceNft.asFunded i inv env.timestamp } := by
  obtain ⟨ha, -, -, hnone, -, -, hfp, -, -, inv, bps, hbps, hinv, hst, hamount, hw⟩ :=
    releaseFunds_iff.mp h
  exact ⟨ha, hnone, hfp, inv, bps, hbps, hinv, hst, hamount, hw⟩

theorem releaseFunds_ok {marketplace token : Address}
    (h : releaseFunds marketplace i token env w = .ok u w') :
    env.Authenticates marketplace ∧ w.pool.pool i = none ∧
      w.invoiceNft.financingPool = some env.net.financingPool ∧
      ∃ inv bps, w.invoiceNft.invoice i = some (.current inv) ∧ inv.status = .listed ∧
        0 < inv.amount ∧ w' = { w with
          pool := { w.pool with
            pool := Function.update w.pool.pool i
              (some ⟨i, token, 0, inv.amount, 0, false, bps, inv.amount, false⟩) }
          invoiceNft := w.invoiceNft.asFunded i inv env.timestamp } := by
  obtain ⟨ha, hnone, hfp, inv, bps, -, hinv, hst, ⟨hpos, -⟩, hw⟩ := releaseFunds_opens h
  exact ⟨ha, hnone, hfp, inv, bps, hinv, hst, hpos, hw⟩

/-! ## Positions -/

theorem shareBpsOf_ok {contributed total : ℤ} {share : ℕ} (hc : 0 ≤ contributed)
    (h : shareBpsOf contributed total = .ok share) (ht : 0 ≤ total) :
    (share : ℤ) = contributed * 10_000 / total := by
  simp only [shareBpsOf, except_bind_ok, okOr_ok, Option.bind_eq_some_iff] at h
  obtain ⟨q, ⟨v, hv, hq⟩, hs⟩ := h
  cases hs
  obtain rfl := checkedMul_some hv
  have hpos : 0 ≤ contributed * 10_000 := by positivity
  rw [checkedDiv_some hpos hq]
  exact Int.toNat_of_nonneg (Int.ediv_nonneg hpos ht)

/-- The contribution recorded for an investor so far. -/
def Storage.contributedBy (S : Storage) (invoiceId : ℕ) (investor : Address) : ℤ :=
  ((S.positions invoiceId)[investor]?.map Position.contributed).getD 0

/-- The aggregates after a position is recorded: the new contribution replaces the old one. -/
def Storage.recorded (S : Storage) (invoiceId : ℕ) (investor token : Address)
    (contributed : ℤ) : Address → Option ℤ :=
  Function.update S.aggregateFunded token (some
    ((S.aggregateFunded token).getD 0 - S.contributedBy invoiceId investor + contributed))

theorem checked_delta {agg old new r : ℤ}
    (h : ((checkedSub agg old).bind fun v => checkedAdd v new) = some r) :
    r = agg - old + new := by
  obtain ⟨v, hv, hr⟩ := Option.bind_eq_some_iff.mp h
  rw [checkedAdd_some hr, checkedSub_some hv]

/-- **Recording a position**: the admin sets it, within the cap, over any position the investor
had, and the aggregate stays in range. -/
theorem recordPosition_records {caller investor : Address} {contributed total : ℤ}
    (h : recordPosition caller i investor contributed total env w = .ok u w') :
    w.pool.admin = some caller ∧ (0 < contributed ∧ contributed ≤ total) ∧
      ∃ share p, shareBpsOf contributed total = .ok share ∧
        share ≤ w.pool.maxPositionBps.getD 5_000 ∧ w.pool.pool i = some p ∧
        (w.pool.aggregateFunded p.token).getD 0 - w.pool.contributedBy i investor + contributed ≤
          i128Max ∧
        w' = { w with pool := { w.pool with
          positions := Function.update w.pool.positions i
            ((w.pool.positions i).insert investor ⟨investor, i, contributed, share, 0⟩)
          aggregateFunded := w.pool.recorded i investor p.token contributed } } := by
  simp only [recordPosition, requireAuth_seq_ok, requireAdmin_seq_ok, requireNotPaused_seq_ok,
    ensure_seq_ok, check_seq_ok, gets_run, modifyOwn, modify_run, loadPool_seq_ok, modify_ok,
    okOr_ok] at h
  obtain ⟨-, hadmin, -, -, ⟨hc, -⟩, ⟨hle, -⟩, share, hs, hcap, p, hp, agg, hagg, rfl⟩ := h
  obtain ⟨x, hx, hv⟩ := Option.bind_eq_some_iff.mp hagg
  obtain ⟨-, -, hmax⟩ := checkI128_some.mp hv
  rw [checkedSub_some hx] at hmax
  rw [checked_delta hagg]
  exact ⟨hadmin, ⟨hc, hle⟩, share, p, hs, hcap, hp, hmax, rfl⟩

theorem recordPosition_ok {caller investor : Address} {contributed total : ℤ}
    (h : recordPosition caller i investor contributed total env w = .ok u w') :
    0 < contributed ∧ contributed ≤ total ∧
      ∃ share p, shareBpsOf contributed total = .ok share ∧
        share ≤ w.pool.maxPositionBps.getD 5_000 ∧ w.pool.pool i = some p ∧
        w' = { w with pool := { w.pool with
          positions := Function.update w.pool.positions i
            ((w.pool.positions i).insert investor ⟨investor, i, contributed, share, 0⟩)
          aggregateFunded := w.pool.recorded i investor p.token contributed } } := by
  obtain ⟨-, ⟨hc, hle⟩, share, p, hs, hcap, hp, -, hw⟩ := recordPosition_records h
  exact ⟨hc, hle, share, p, hs, hcap, hp, hw⟩

theorem recordPosition_range {caller investor : Address} {contributed total : ℤ}
    (h : recordPosition caller i investor contributed total env w = .ok u w') {p : Pool}
    (hp : w.pool.pool i = some p) :
    (w.pool.aggregateFunded p.token).getD 0 - w.pool.contributedBy i investor + contributed ≤
      i128Max := by
  obtain ⟨-, -, share, q, -, -, hq, hmax, -⟩ := recordPosition_records h
  obtain rfl := Option.some.inj (hp.symm.trans hq)
  exact hmax

theorem listPositionForSale_offers {seller token : Address} {price : ℤ}
    (h : listPositionForSale seller i token price env w = .ok u w') :
    env.Authenticates seller ∧ (w.pool.positions i)[seller]?.isSome = true ∧
      w.pool.saleOffer i seller = none ∧ w' = { w with pool := { w.pool with
        saleOffer := Function.update w.pool.saleOffer i
          (Function.update (w.pool.saleOffer i) seller (some ⟨seller, i, token, price⟩)) } } := by
  simp only [listPositionForSale, requireAuth_seq_ok, requireNotPaused_seq_ok, ensure_seq_ok,
    loadPool_seq_ok, gets_run, modifyOwn, modify_ok] at h
  obtain ⟨ha, -, -, -, _, -, -, hpos, hnone, rfl⟩ := h
  exact ⟨ha, hpos, hnone, rfl⟩

theorem listPositionForSale_ok {seller token : Address} {price : ℤ}
    (h : listPositionForSale seller i token price env w = .ok u w') :
    env.Authenticates seller ∧ ∃ offers,
      w' = { w with pool := { w.pool with saleOffer := offers } } := by
  obtain ⟨ha, -, -, hw⟩ := listPositionForSale_offers h
  exact ⟨ha, _, hw⟩

/-- **A sale moves the seller's position to the buyer**, over any position the buyer had, for the
price of the offer, which is used up. -/
theorem buyPosition_sells {buyer seller : Address}
    (h : buyPosition buyer i seller env w = .ok u w') :
    env.Authenticates buyer ∧ ∃ p pos offer, w.pool.saleOffer i seller = some offer ∧
      w.pool.pool i = some p ∧ p.isClosed = false ∧
      (w.pool.positions i)[seller]? = some pos ∧ 0 ≤ offer.price ∧
      w' = { w with
        pool := { w.pool with
          saleOffer := Function.update w.pool.saleOffer i
            (Function.update (w.pool.saleOffer i) seller none)
          positions := Function.update w.pool.positions i
            (((w.pool.positions i).erase seller).insert buyer
              { pos with investor := buyer, invoiceId := i }) }
        tokens := w.tokens.move offer.token buyer seller offer.price } := by
  simp only [buyPosition, requireAuth_seq_ok, requireNotPaused_seq_ok, fetch_seq_ok, ensure_seq_ok,
    loadPool_seq_ok, gets_run, modifyOwn, modify_run, net_run, callToken_transfer_ok] at h
  obtain ⟨ha, -, -, offer, hoffer, p, hp, hopen, pos, hpos, -, -, hprice, -, rfl⟩ := h
  exact ⟨ha, p, pos, offer, hoffer, hp, hopen, hpos, hprice, rfl⟩

theorem buyPosition_ok {buyer seller : Address} (h : buyPosition buyer i seller env w = .ok u w') :
    env.Authenticates buyer ∧ ∃ p pos offers token price, w.pool.pool i = some p ∧
      p.isClosed = false ∧ (w.pool.positions i)[seller]? = some pos ∧
      w' = { w with
        pool := { w.pool with
          saleOffer := offers
          positions := Function.update w.pool.positions i
            (((w.pool.positions i).erase seller).insert buyer
              { pos with investor := buyer, invoiceId := i }) }
        tokens := w.tokens.move token buyer seller price } := by
  obtain ⟨ha, p, pos, offer, -, hp, hopen, hpos, -, hw⟩ := buyPosition_sells h
  exact ⟨ha, p, pos, _, offer.token, offer.price, hp, hopen, hpos, hw⟩

theorem buyPosition_pays {buyer seller : Address}
    (h : buyPosition buyer i seller env w = .ok u w') : ∃ token price, 0 ≤ price ∧
      w'.tokens = w.tokens.move token buyer seller price := by
  obtain ⟨-, p, pos, offer, -, -, -, -, hprice, rfl⟩ := buyPosition_sells h
  exact ⟨offer.token, offer.price, hprice, rfl⟩

theorem cancelEarlySettlement_pays {sme : Address}
    (h : cancelEarlySettlement sme i env w = .ok u w') : ∃ token amount, 0 ≤ amount ∧
      w'.tokens = w.tokens.move token env.net.financingPool sme amount := by
  simp only [cancelEarlySettlement, requireAuth_seq_ok, fetch_seq_ok, loadPool_seq_ok,
    loadInvoice_seq_ok, ensure_seq_ok, putEarlySettlement, modifyOwn, modify_run, net_run,
    callToken_transfer_ok] at h
  obtain ⟨-, offer, -, p, -, -, _, -, -, -, -, hamount, -, rfl⟩ := h
  exact ⟨p.token, offer.amount, hamount, rfl⟩

/-! ## Repayment and default -/

theorem applyLatePenalty_ok {now due : ℕ} {p p' : Pool} (h : applyLatePenalty now due p = .ok p') :
    ∃ owed applied, p' = { p with totalOwed := owed, penaltyApplied := applied } := by
  unfold applyLatePenalty at h
  split_ifs at h
  · simp only [except_bind_ok] at h
    obtain ⟨_, -, owed, -, h⟩ := h
    cases h
    exact ⟨owed, true, rfl⟩
  · cases h
    exact ⟨_, _, rfl⟩

/-- The pool after a repayment credited with `r`. -/
def repaidPool (p : Pool) (owed : ℤ) (applied : Bool) (r : ℤ) : Pool := { p with
  totalOwed := owed
  penaltyApplied := applied
  repaidAmount := p.repaidAmount + r
  isClosed := decide (owed ≤ p.repaidAmount + r) }

/-- The ledger while the repayment lock of an invoice is held. -/
def held (w : World) (i : ℕ) : World :=
  { w with pool := { w.pool with repaymentLock := Function.update w.pool.repaymentLock i true } }

/-- The locked ledger with the pool of the invoice written. -/
def credited (w : World) (i : ℕ) (p : Pool) : World :=
  { w with pool := { w.pool with
      repaymentLock := Function.update w.pool.repaymentLock i true
      pool := Function.update w.pool.pool i (some p) } }

theorem credited_pool (w : World) (i : ℕ) (p : Pool) : (credited w i p).pool.pool i = some p :=
  Function.update_self ..

theorem repay_iff {payer token : Address} {amount : ℤ} :
    repay payer i token amount env w = .ok u w' ↔
    env.Authenticates payer ∧ (0 < amount ∧ amount ≤ maxAmount) ∧
      w.pool.invoiceNft = some env.net.invoiceNft ∧ w.invoiceNft.invoiceFrozen i = false ∧
      w.pool.repaymentLock i = false ∧ ∃ p inv r owed applied, w.pool.pool i = some p ∧
      p.isClosed = false ∧ w.invoiceNft.invoice i = some (.current inv) ∧
      convertIfNeeded amount inv.currency p.token env (held w i) = .ok r (held w i) ∧
      applyLatePenalty env.timestamp inv.dueDate p =
        .ok { p with totalOwed := owed, penaltyApplied := applied } ∧
      checkedAdd p.repaidAmount r = some (p.repaidAmount + r) ∧ ∃ w₁,
      callToken env.net.financingPool (Token.transfer token payer env.net.financingPool amount)
        env (credited w i (repaidPool p owed applied r)) = .ok () w₁ ∧
      (if owed ≤ p.repaidAmount + r then do
          distributeYield i token (p.repaidAmount + r) p.faceValue
          callInvoiceNft (InvoiceNft.setRepaid env.net.financingPool i)
          setRepaymentLock i false
        else setRepaymentLock i false) env w₁ = .ok u w' := by
  simp only [repay, requireAuth_seq_ok, ensure_seq_ok, invoiceFrozen_seq_ok,
    requireUnlocked_seq_ok, setRepaymentLock, modifyOwn, modify_run, loadPool_seq_ok, ite_run]
  constructor
  · rintro ⟨ha, hpay, hwired, hfrozen, hlock, p, hp, h⟩
    split_ifs at h with hclosed
    · exact absurd h (by rw [throw_seq_ok]; exact id)
    rw [Bool.not_eq_true] at hclosed
    simp only [loadInvoice_seq_ok, bind_ok (x := convertIfNeeded _ _ _), timestamp_run,
      check_seq_ok, okOr_ok] at h
    obtain ⟨-, inv, hinv, r, v, hr, q, hq, repaid, hcredit, h⟩ := h
    obtain ⟨-, -, rfl⟩ := convertIfNeeded_ok hpay.1 hr
    obtain rfl := checkedAdd_some hcredit
    obtain ⟨owed, applied, rfl⟩ := applyLatePenalty_ok hq
    simp only [putPool, modifyOwn, modify_run, net_run, bind_ok (x := callToken _ _), hclosed,
      Bool.false_or, decide_eq_true_iff] at h
    obtain ⟨_, w₁, htransfer, h⟩ := h
    rw [ite_run] at h
    exact ⟨ha, hpay, hwired, hfrozen, hlock, p, inv, r, owed, applied, hp, hclosed, hinv, hr, hq,
      hcredit, w₁, htransfer, h⟩
  · rintro ⟨ha, hpay, hwired, hfrozen, hlock, p, inv, r, owed, applied, hp, hclosed, hinv, hr, hq,
      hcredit, w₁, htransfer, h⟩
    refine ⟨ha, hpay, hwired, hfrozen, hlock, p, hp, ?_⟩
    rw [if_neg (by simp [hclosed])]
    simp only [loadInvoice_seq_ok, bind_ok (x := convertIfNeeded _ _ _), timestamp_run,
      check_seq_ok, okOr_ok]
    refine ⟨hwired, inv, hinv, r, _, hr, _, hq, _, hcredit, ?_⟩
    simp only [putPool, modifyOwn, modify_run, net_run, bind_ok (x := callToken _ _), hclosed,
      Bool.false_or, decide_eq_true_iff, ite_run]
    exact ⟨(), w₁, htransfer, h⟩

/-- **A repayment** moves `amount` of the token the payer names, credits the pool with the
converted amount, and distributes everything repaid when that covers what is owed. -/
theorem repay_ok {payer token : Address} {amount : ℤ}
    (h : repay payer i token amount env w = .ok u w') :
    env.Authenticates payer ∧ 0 < amount ∧ ∃ p inv owed applied,
      w.pool.pool i = some p ∧ p.isClosed = false ∧
      w.invoiceNft.invoice i = some (.current inv) ∧ 0 < credit w amount inv.currency ∧
      applyLatePenalty env.timestamp inv.dueDate p =
        .ok { p with totalOwed := owed, penaltyApplied := applied } ∧
      ((p.repaidAmount + credit w amount inv.currency < owed ∧ ∃ locks, w' = { w with
          pool := { w.pool with
            pool := Function.update w.pool.pool i
              (some (repaidPool p owed applied (credit w amount inv.currency)))
            repaymentLock := locks }
          tokens := w.tokens.move token payer env.net.financingPool amount }) ∨
        owed ≤ p.repaidAmount + credit w amount inv.currency ∧ inv.status = .funded ∧
        ∃ decimals payments locks,
          Payments (p.repaidAmount + credit w amount inv.currency) decimals
            (w.pool.positions i).toList payments ∧
          w' = { w with
            pool := { w.pool with
              pool := Function.update w.pool.pool i
                (some (repaidPool p owed applied (credit w amount inv.currency)))
              repaymentLock := locks
              aggregateFunded := w.pool.distributed i token }
            invoiceNft := w.invoiceNft.asRepaid i inv env.timestamp
            tokens := (w.tokens.move token payer env.net.financingPool amount).payAll token
              env.net.financingPool payments }) := by
  obtain ⟨ha, ⟨hpos, -⟩, -, -, -, p, inv, r, owed, applied, hp, hclosed, hinv, hr, hq, -, w₁,
    htransfer, h⟩ := repay_iff.mp h
  obtain ⟨rfl, hrpos, -⟩ := convertIfNeeded_ok hpos hr
  obtain ⟨-, -, -, -, rfl⟩ := callToken_transfer_ok.mp htransfer
  refine ⟨ha, hpos, p, inv, owed, applied, hp, hclosed, hinv, hrpos, hq, ?_⟩
  rw [ite_run] at h
  split_ifs at h with hclose
  · refine Or.inr ⟨hclose, ?_⟩
    simp only [bind_ok (x := distributeYield _ _ _ _), bind_ok (x := callInvoiceNft _),
      callInvoiceNft_ok, setRepaymentLock, modifyOwn, modify_ok] at h
    obtain ⟨_, _, hd, _, _, ⟨-, s, hs, rfl⟩, rfl⟩ := h
    obtain ⟨d, payments, hpay, rfl⟩ := distributeYield_ok hd
    obtain ⟨-, -, inv', hinv', hst, rfl⟩ := InvoiceNft.setRepaid_ok hs
    obtain rfl := InvoiceNft.Storage.current_inj hinv hinv'
    exact ⟨hst, d, payments, _, hpay, rfl⟩
  · simp only [setRepaymentLock, modifyOwn, modify_ok] at h
    exact Or.inl ⟨not_le.mp hclose, _, h.symm⟩

theorem repay_closes {payer token : Address} {amount : ℤ} {p : Pool}
    (h : repay payer i token amount env w = .ok u w') (hp : w'.pool.pool i = some p)
    (hclosed : p.isClosed = true) : env.Authenticates payer ∧
      ∃ decimals payments, w.tokens.decimals token = some decimals ∧
        Payments p.repaidAmount decimals (w.pool.positions i).toList payments ∧
        w'.tokens = (w.tokens.move token payer env.net.financingPool amount).payAll token
          env.net.financingPool payments := by
  obtain ⟨ha, ⟨hpos, -⟩, -, -, -, q, inv, r, owed, applied, -, -, -, -, -, -, w₁, htransfer, h⟩ :=
    repay_iff.mp h
  obtain ⟨-, -, -, -, rfl⟩ := callToken_transfer_ok.mp htransfer
  rw [ite_run] at h
  split_ifs at h with hclose
  · simp only [bind_ok (x := distributeYield _ _ _ _), bind_ok (x := callInvoiceNft _),
      callInvoiceNft_ok, setRepaymentLock, modifyOwn, modify_ok] at h
    obtain ⟨_, _, hd, _, _, ⟨-, s, -, rfl⟩, rfl⟩ := h
    obtain ⟨decimals, payments, hdecimals, hpay, rfl⟩ := distributeYield_pays hd
    obtain rfl : repaidPool q owed applied r = p :=
      Option.some.inj ((credited_pool w i _).symm.trans hp)
    exact ⟨ha, decimals, payments, hdecimals, hpay, rfl⟩
  · simp only [setRepaymentLock, modifyOwn, modify_ok] at h
    obtain rfl := h
    obtain rfl : repaidPool q owed applied r = p :=
      Option.some.inj ((credited_pool w i _).symm.trans hp)
    exact absurd (of_decide_eq_true hclosed) hclose

/-- **A default is recorded in the configured risk registry**; when the record fails, nothing
happens. -/
theorem recordDefaultAt_ok {admin sme : Address}
    (h : recordDefaultAt admin sme env w = .ok u w') :
    (w.pool.riskRegistry = some env.net.riskRegistry ∧ ∃ S,
        RiskRegistry.recordDefault admin sme (env.from env.net.financingPool) w.riskRegistry =
          .ok () S ∧ w' = { w with riskRegistry := S }) ∨
      (w.pool.riskRegistry = some env.net.riskRegistry →
        (RiskRegistry.recordDefault admin sme (env.from env.net.financingPool)
          w.riskRegistry).isOk = false) ∧ w' = w := by
  rw [recordDefaultAt, gets_run] at h
  cases hr : w.pool.riskRegistry with
  | none =>
    rw [hr] at h
    obtain ⟨-, rfl⟩ := pure_ok.mp h
    exact Or.inr ⟨nofun, rfl⟩
  | some rr =>
    rw [hr] at h
    simp only [net_run, bind_ok, tryCallFrom, attempt_ok, callFrom_ok, onRiskRegistry_ok,
      RiskRegistry.own, zoom_ok, pure_ok] at h
    obtain ⟨_, _, ⟨_, -, rfl, _, ⟨S, hS, rfl⟩, rfl⟩ | ⟨-, rfl, hfails⟩, -, rfl⟩ := h
    · exact Or.inl ⟨rfl, S, hS, rfl⟩
    · refine Or.inr ⟨?_, rfl⟩
      rintro ⟨⟩
      -- a record that succeeds would make the call succeed
      rw [Bool.eq_false_iff, Ne, Outcome.isOk_iff] at hfails ⊢
      rintro ⟨v, S, hS⟩
      exact hfails ⟨v, _, callFrom_ok.mpr ⟨rfl, onRiskRegistry_ok.mpr
        ⟨_, zoom_ok.mpr ⟨S, hS, rfl⟩, rfl⟩⟩⟩

theorem recordDefaultAt_frame {admin sme : Address}
    (h : recordDefaultAt admin sme env w = .ok u w') :
    ∃ registry, w' = { w with riskRegistry := registry } := by
  rcases recordDefaultAt_ok h with ⟨-, S, -, rfl⟩ | ⟨-, rfl⟩
  · exact ⟨S, rfl⟩
  · exact ⟨_, rfl⟩

theorem markDefault_peel {admin token : Address} (h : markDefault admin i token env w = .ok u w') :
    env.Authenticates admin ∧ w.pool.admin = some admin ∧ ∃ p inv, w.pool.pool i = some p ∧
      p.isClosed = false ∧ w.invoiceNft.invoice i = some (.current inv) ∧ inv.status = .funded ∧
      inv.dueDate < env.timestamp ∧ ∃ decimals payments,
        (0 < p.repaidAmount ∧
            Payments p.repaidAmount decimals (w.pool.positions i).toList payments ∨
          p.repaidAmount ≤ 0 ∧ payments = []) ∧
        recordDefaultAt admin inv.sme env { w with
          pool := { w.pool with aggregateFunded :=
            if 0 < p.repaidAmount then w.pool.distributed i token else w.pool.aggregateFunded }
          invoiceNft := w.invoiceNft.asDefaulted i inv
          tokens := w.tokens.payAll token env.net.financingPool payments } = .ok u w' := by
  simp only [markDefault, requireAuth_seq_ok, requireAdmin_seq_ok, requireNotPaused_seq_ok,
    requireUnlocked_seq_ok, loadPool_seq_ok, ensure_seq_ok] at h
  obtain ⟨ha, hadmin, -, -, -, p, hp, hopen, h⟩ := h
  refine ⟨ha, hadmin, p, ?_⟩
  -- the state after the optional distribution
  obtain ⟨decimals, payments, hpay, h⟩ : ∃ decimals payments,
      (0 < p.repaidAmount ∧ Payments p.repaidAmount decimals (w.pool.positions i).toList payments ∨
        p.repaidAmount ≤ 0 ∧ payments = []) ∧
      (callInvoiceNft (InvoiceNft.setDefaulted admin i) >>= fun _ => loadInvoice i >>=
        fun invoice => recordDefaultAt admin invoice.sme) env { w with
          pool := { w.pool with aggregateFunded :=
            if 0 < p.repaidAmount then w.pool.distributed i token else w.pool.aggregateFunded }
          tokens := w.tokens.payAll token env.net.financingPool payments } = .ok u w' := by
    rw [ite_run] at h
    split_ifs at h ⊢ with hpos
    · rw [bind_ok] at h
      obtain ⟨_, _, hd, h⟩ := h
      obtain ⟨d, payments, hpay, rfl⟩ := distributeYield_ok hd
      exact ⟨d, payments, Or.inl ⟨hpos, hpay⟩, h⟩
    · exact ⟨0, [], Or.inr ⟨not_lt.mp hpos, rfl⟩, h⟩
  simp only [bind_ok (x := callInvoiceNft _), callInvoiceNft_ok, loadInvoice_seq_ok] at h
  obtain ⟨_, _, ⟨-, s, hs, rfl⟩, -, inv₁, hinv₁, h⟩ := h
  obtain ⟨-, -, inv, hinv, hst, hdue, rfl⟩ := InvoiceNft.setDefaulted_ok hs
  have hafter : { inv with status := .defaulted } = inv₁ :=
    InvoiceNft.Storage.current_inj (Function.update_self ..) hinv₁
  subst hafter
  exact ⟨inv, hp, hopen, hinv, hst, hdue, decimals, payments, hpay, h⟩

/-- **A default** distributes what was repaid so far, in the token the admin names, and leaves the
pool record as it is. -/
theorem markDefault_ok {admin token : Address} (h : markDefault admin i token env w = .ok u w') :
    ∃ p inv, w.pool.pool i = some p ∧ p.isClosed = false ∧
      w.invoiceNft.invoice i = some (.current inv) ∧ inv.status = .funded ∧
      inv.dueDate < env.timestamp ∧ ∃ decimals payments registry,
        (0 < p.repaidAmount ∧
            Payments p.repaidAmount decimals (w.pool.positions i).toList payments ∨
          p.repaidAmount ≤ 0 ∧ payments = []) ∧
        w' = { w with
          pool := { w.pool with aggregateFunded :=
            if 0 < p.repaidAmount then w.pool.distributed i token else w.pool.aggregateFunded }
          invoiceNft := w.invoiceNft.asDefaulted i inv
          riskRegistry := registry
          tokens := w.tokens.payAll token env.net.financingPool payments } := by
  obtain ⟨-, -, p, inv, hp, hopen, hinv, hst, hdue, decimals, payments, hpay, h⟩ :=
    markDefault_peel h
  obtain ⟨registry, rfl⟩ := recordDefaultAt_frame h
  exact ⟨p, inv, hp, hopen, hinv, hst, hdue, decimals, payments, registry, hpay, rfl⟩

/-- The SME whose default is recorded in the risk registry when invoice `i` is marked as defaulted:
none where no registry is configured, or where it refuses the record. -/
def recordedSme (env : Env) (w : World) (admin : Address) (i : ℕ) : Option Address :=
  match w.invoiceNft.invoice i with
  | some (.current inv) =>
    if w.pool.riskRegistry = some env.net.riskRegistry ∧
        (RiskRegistry.recordDefault admin inv.sme (env.from env.net.financingPool)
          w.riskRegistry).isOk = true then some inv.sme
    else none
  | _ => none

theorem markDefault_registry {admin token : Address}
    (h : markDefault admin i token env w = .ok u w') :
    env.Authenticates admin ∧ w.pool.admin = some admin ∧
      ((∃ sme, recordedSme env w admin i = some sme ∧
          RiskRegistry.recordDefault admin sme (env.from env.net.financingPool) w.riskRegistry =
            .ok () w'.riskRegistry) ∨
        recordedSme env w admin i = none ∧ w'.riskRegistry = w.riskRegistry) := by
  obtain ⟨ha, hadmin, p, inv, -, -, hinv, -, -, decimals, payments, -, h⟩ := markDefault_peel h
  refine ⟨ha, hadmin, ?_⟩
  rw [recordedSme, hinv]
  rcases recordDefaultAt_ok h with ⟨hwired, S, hS, rfl⟩ | ⟨hfails, rfl⟩
  · exact Or.inl ⟨inv.sme, if_pos ⟨hwired, Outcome.isOk_iff.mpr ⟨_, S, hS⟩⟩, hS⟩
  · refine Or.inr ⟨if_neg ?_, rfl⟩
    rintro ⟨hwired, hok⟩
    rw [hfails hwired] at hok
    cases hok

/-! ## Early settlement -/

theorem proposeEarlySettlement_ok {sme : Address} {amount : ℤ}
    (h : proposeEarlySettlement sme i amount env w = .ok u w') :
    env.Authenticates sme ∧ 0 < amount ∧ ∃ p, w.pool.pool i = some p ∧ p.isClosed = false ∧
      w.pool.earlySettlement i = none ∧ w' = { w with
        pool := { w.pool with
          earlySettlement := Function.update w.pool.earlySettlement i (some ⟨i, amount, 0, []⟩) }
        tokens := w.tokens.move p.token sme env.net.financingPool amount } := by
  simp only [proposeEarlySettlement, requireAuth_seq_ok, requireNotPaused_seq_ok, ensure_seq_ok,
    loadPool_seq_ok, gets_run, loadInvoice_seq_ok, net_run, bind_ok (x := callToken _ _),
    callToken_transfer_ok, putEarlySettlement, modifyOwn, modify_ok] at h
  obtain ⟨ha, -, -, ⟨hpos, -⟩, p, hp, hopen, -, hnone, -, _, -, -, _, _, ⟨-, -, -, -, rfl⟩, rfl⟩ :=
    h
  exact ⟨ha, hpos, p, hp, hopen, hnone, rfl⟩

theorem proposeEarlySettlement_guard {sme : Address} {amount : ℤ}
    (h : proposeEarlySettlement sme i amount env w = .ok u w') :
    ∃ p, w.pool.pool i = some p ∧ p.totalFunded ≤ amount := by
  simp only [proposeEarlySettlement, requireAuth_seq_ok, requireNotPaused_seq_ok, ensure_seq_ok,
    loadPool_seq_ok] at h
  obtain ⟨-, -, -, -, p, hp, -, ⟨hle, -⟩, -⟩ := h
  exact ⟨p, hp, hle⟩

theorem proposeEarlySettlement_sme {sme : Address} {amount : ℤ}
    (h : proposeEarlySettlement sme i amount env w = .ok u w') :
    ∃ inv, w.invoiceNft.invoice i = some (.current inv) ∧ inv.sme = sme := by
  simp only [proposeEarlySettlement, requireAuth_seq_ok, requireNotPaused_seq_ok, ensure_seq_ok,
    loadPool_seq_ok, gets_run, loadInvoice_seq_ok] at h
  obtain ⟨-, -, -, -, _, -, -, -, -, -, inv, hinv, hsme, -⟩ := h
  exact ⟨inv, hinv, hsme⟩

/-- **An acceptance** adds the investor's share to the offer; once all shares are in, it settles. -/
theorem acceptEarlySettlement_ok {investor : Address}
    (h : acceptEarlySettlement investor i env w = .ok u w') :
    env.Authenticates investor ∧ ∃ offer p pos, w.pool.earlySettlement i = some offer ∧
      w.pool.pool i = some p ∧ p.isClosed = false ∧
      (w.pool.positions i)[investor]? = some pos ∧ investor ∉ offer.accepted ∧
      ((offer.acceptedBps + pos.shareBps < 10_000 ∧ w' = { w with
          pool := { w.pool with
            earlySettlement := Function.update w.pool.earlySettlement i (some { offer with
              acceptedBps := offer.acceptedBps + pos.shareBps
              accepted := offer.accepted ++ [investor] }) } }) ∨
        10_000 ≤ offer.acceptedBps + pos.shareBps ∧ ∃ inv decimals payments locks,
          w.invoiceNft.invoice i = some (.current inv) ∧ inv.status = .funded ∧
          Payments offer.amount decimals (w.pool.positions i).toList payments ∧
          w' = { w with
            pool := { w.pool with
              pool := Function.update w.pool.pool i
                (some { p with repaidAmount := offer.amount, isClosed := true })
              earlySettlement := Function.update w.pool.earlySettlement i none
              repaymentLock := locks
              aggregateFunded := w.pool.distributed i p.token }
            invoiceNft := w.invoiceNft.asRepaid i inv env.timestamp
            tokens := w.tokens.payAll p.token env.net.financingPool payments }) := by
  simp only [acceptEarlySettlement, requireAuth_seq_ok, requireNotPaused_seq_ok,
    requireUnlocked_seq_ok, fetch_seq_ok, loadPool_seq_ok, ensure_seq_ok, check_seq_ok, okOr_ok,
    checkedAddU32_some] at h
  obtain ⟨ha, -, -, -, offer, ho, p, hp, hopen, pos, hpos, hnot, _, ⟨rfl, -⟩, h⟩ := h
  refine ⟨ha, offer, p, pos, ho, hp, hopen, hpos, hnot, ?_⟩
  rw [ite_run] at h
  split_ifs at h with hall
  · refine Or.inr ⟨hall, ?_⟩
    simp only [setRepaymentLock, putPool, putEarlySettlement, modifyOwn, modify_run,
      bind_ok (x := distributeYield _ _ _ _), net_run, bind_ok (x := callInvoiceNft _),
      callInvoiceNft_ok, modify_ok] at h
    obtain ⟨_, _, hd, _, _, ⟨-, s, hs, rfl⟩, rfl⟩ := h
    obtain ⟨d, payments, hpay, rfl⟩ := distributeYield_ok hd
    obtain ⟨-, -, inv, hinv, hst, rfl⟩ := InvoiceNft.setRepaid_ok hs
    exact ⟨inv, d, payments, _, hinv, hst, hpay, rfl⟩
  · rw [putEarlySettlement, modifyOwn, modify_ok] at h
    exact Or.inl ⟨not_le.mp hall, h.symm⟩

theorem acceptEarlySettlement_settles {investor : Address} {p' : Pool}
    (h : acceptEarlySettlement investor i env w = .ok u w') (hp' : w'.pool.pool i = some p')
    (hclosed : p'.isClosed = true) : ∃ offer p decimals payments,
      w.pool.earlySettlement i = some offer ∧ w.pool.pool i = some p ∧ p.isClosed = false ∧
      p' = { p with repaidAmount := offer.amount, isClosed := true } ∧
      w.tokens.decimals p.token = some decimals ∧
      Payments offer.amount decimals (w.pool.positions i).toList payments ∧
      w'.tokens = w.tokens.payAll p.token env.net.financingPool payments := by
  simp only [acceptEarlySettlement, requireAuth_seq_ok, requireNotPaused_seq_ok,
    requireUnlocked_seq_ok, fetch_seq_ok, loadPool_seq_ok, ensure_seq_ok, check_seq_ok, okOr_ok,
    checkedAddU32_some] at h
  obtain ⟨-, -, -, -, offer, ho, p, hp, hopen, pos, -, -, _, ⟨rfl, -⟩, h⟩ := h
  rw [ite_run] at h
  split_ifs at h with hall
  · simp only [setRepaymentLock, putPool, putEarlySettlement, modifyOwn, modify_run,
      bind_ok (x := distributeYield _ _ _ _), net_run, bind_ok (x := callInvoiceNft _),
      callInvoiceNft_ok, modify_ok] at h
    obtain ⟨_, _, hd, _, _, ⟨-, s, -, rfl⟩, rfl⟩ := h
    obtain ⟨decimals, payments, hdecimals, hpay, rfl⟩ := distributeYield_pays hd
    obtain rfl : { p with repaidAmount := offer.amount, isClosed := true } = p' :=
      Option.some.inj ((credited_pool w i _).symm.trans hp')
    exact ⟨offer, p, decimals, payments, ho, hp, hopen, rfl, hdecimals, hpay, rfl⟩
  · rw [putEarlySettlement, modifyOwn, modify_ok] at h
    obtain rfl := h
    obtain rfl : p = p' := Option.some.inj (hp.symm.trans hp')
    rw [hopen] at hclosed
    cases hclosed

theorem cancelEarlySettlement_ok {sme : Address}
    (h : cancelEarlySettlement sme i env w = .ok u w') :
    env.Authenticates sme ∧ ∃ offer p, w.pool.earlySettlement i = some offer ∧
      w.pool.pool i = some p ∧ w' = { w with
        pool := { w.pool with
          earlySettlement := Function.update w.pool.earlySettlement i none }
        tokens := w.tokens.move p.token env.net.financingPool sme offer.amount } := by
  simp only [cancelEarlySettlement, requireAuth_seq_ok, fetch_seq_ok, loadPool_seq_ok,
    loadInvoice_seq_ok, ensure_seq_ok, putEarlySettlement, modifyOwn, modify_run, net_run,
    callToken_transfer_ok] at h
  obtain ⟨ha, offer, ho, p, hp, -, _, -, -, -, -, -, -, rfl⟩ := h
  exact ⟨ha, offer, p, ho, hp, rfl⟩

theorem cancelEarlySettlement_sme {sme : Address}
    (h : cancelEarlySettlement sme i env w = .ok u w') :
    ∃ inv, w.invoiceNft.invoice i = some (.current inv) ∧ inv.sme = sme := by
  simp only [cancelEarlySettlement, requireAuth_seq_ok, fetch_seq_ok, loadPool_seq_ok,
    loadInvoice_seq_ok, ensure_seq_ok] at h
  obtain ⟨-, _, -, _, -, -, inv, hinv, hsme, -⟩ := h
  exact ⟨inv, hinv, hsme⟩

/-! ## Outside the pools -/

/-- The late penalty that an entry point sets. -/
def Op.setsPenalty : Op → Option ℕ
  | .initializeContract _ _ _ _ _ bps _ _ => some bps
  | _ => none

/-- The entry point can repay invoice `i`. -/
def Op.Repays (i : ℕ) : Op → Prop
  | .repay _ j _ _ | .acceptEarlySettlement _ j => j = i
  | _ => False

/-- What an entry point tells the invoice contract. -/
inductive Notice (env : Env) (w w' : World) : Op → Prop
  | silent (op : Op) : w'.invoiceNft = w.invoiceNft → Notice env w w' op
  | funded (marketplace : Address) (i : ℕ) (token : Address) (inv : Invoice) :
      w.pool.pool i = none → w'.pool.pool i ≠ none →
      w.invoiceNft.invoice i = some (.current inv) → inv.status = .listed →
      w'.invoiceNft = w.invoiceNft.asFunded i inv env.timestamp →
      Notice env w w' (.releaseFunds marketplace i token)
  | repaid (op : Op) (i : ℕ) (inv : Invoice) : op.Repays i →
      w.invoiceNft.invoice i = some (.current inv) → inv.status = .funded →
      w'.invoiceNft = w.invoiceNft.asRepaid i inv env.timestamp → Notice env w w' op
  | defaulted (admin : Address) (i : ℕ) (token : Address) (inv : Invoice) :
      w.invoiceNft.invoice i = some (.current inv) → inv.status = .funded →
      inv.dueDate < env.timestamp → w'.invoiceNft = w.invoiceNft.asDefaulted i inv →
      Notice env w w' (.markDefault admin i token)

/-- What an entry point does outside the pools: the marketplace and the clock stay, only
initialisation sets the late penalty, and the invoice contract is told. -/
structure Outside (env : Env) (w w' : World) (op : Op) : Prop where
  marketplace : w'.marketplace = w.marketplace
  now : w'.now = w.now
  penalty : w'.pool.latePenaltyBps = op.setsPenalty.or w.pool.latePenaltyBps
  notice : Notice env w w' op

/-- **Outside the pools, an entry point at most moves one invoice on.** -/
theorem Op.exec_outside {op : Op} (h : op.exec env w = .ok u w') : Outside env w w' op := by
  cases op with
  | initializeContract =>
    obtain ⟨-, rfl⟩ := initializeContract_ok h
    exact ⟨rfl, rfl, rfl, .silent _ rfl⟩
  | setMaxPositionBps =>
    obtain rfl := setMaxPositionBps_ok h
    exact ⟨rfl, rfl, rfl, .silent _ rfl⟩
  | releaseFunds marketplace j token =>
    obtain ⟨-, hnone, -, inv, _, hinv, hst, -, rfl⟩ := releaseFunds_ok h
    exact ⟨rfl, rfl, rfl, .funded marketplace j token inv hnone (by simp) hinv hst rfl⟩
  | recordPosition =>
    obtain ⟨-, -, _, _, -, -, -, rfl⟩ := recordPosition_ok h
    exact ⟨rfl, rfl, rfl, .silent _ rfl⟩
  | listPositionForSale =>
    obtain ⟨-, _, rfl⟩ := listPositionForSale_ok h
    exact ⟨rfl, rfl, rfl, .silent _ rfl⟩
  | buyPosition =>
    obtain ⟨-, _, _, _, _, _, -, -, -, rfl⟩ := buyPosition_ok h
    exact ⟨rfl, rfl, rfl, .silent _ rfl⟩
  | repay payer j token amount =>
    obtain ⟨-, -, _, inv, _, _, -, -, hinv, -, -, ⟨-, _, rfl⟩ | ⟨-, hst, _, _, _, -, rfl⟩⟩ :=
      repay_ok h
    · exact ⟨rfl, rfl, rfl, .silent _ rfl⟩
    · exact ⟨rfl, rfl, rfl, .repaid _ j inv rfl hinv hst rfl⟩
  | markDefault admin j token =>
    obtain ⟨_, inv, -, -, hinv, hst, hdue, _, _, _, -, rfl⟩ := markDefault_ok h
    exact ⟨rfl, rfl, rfl, .defaulted admin j token inv hinv hst hdue rfl⟩
  | proposeEarlySettlement =>
    obtain ⟨-, -, _, -, -, -, rfl⟩ := proposeEarlySettlement_ok h
    exact ⟨rfl, rfl, rfl, .silent _ rfl⟩
  | acceptEarlySettlement investor j =>
    obtain ⟨-, _, _, _, -, -, -, -, -, ⟨-, rfl⟩ | ⟨-, inv, _, _, _, hinv, hst, -, rfl⟩⟩ :=
      acceptEarlySettlement_ok h
    · exact ⟨rfl, rfl, rfl, .silent _ rfl⟩
    · exact ⟨rfl, rfl, rfl, .repaid _ j inv rfl hinv hst rfl⟩
  | cancelEarlySettlement =>
    obtain ⟨-, _, _, -, -, rfl⟩ := cancelEarlySettlement_ok h
    exact ⟨rfl, rfl, rfl, .silent _ rfl⟩

end Kora.FinancingPool
