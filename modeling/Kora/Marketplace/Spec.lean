import Kora.Marketplace
import Kora.FinancingPool.Spec

set_option autoImplicit false

/-!
# What the marketplace does

The ledger after each successful entry point, with the guards it passed.

* `chargedFee`: the fee of a contribution, as a function of the ledger;
* **`fundInvoice_ok`**: a contribution splits into fee and net amount, and the one that reaches
  the asking price opens the pool;
* `SameBooks`, `Op.exec_books`: the entry points that leave the listings alone;
* `claimRefund_ok`, `cancelListing_ok`, …: one lemma for each of the others.
-/

namespace Kora.Marketplace

open Exec

variable {env : Env} {w w' : World} {u : Unit} {i : ℕ}

/-! ## Helpers -/

/-- The configuration in force. -/
def Storage.currentConfig (S : Storage) : Option MarketplaceConfig :=
  match S.config with
  | some config => some config
  | none => legacyConfig S

section Helpers

variable {α β : Type} {b : β} {l : Unit → Host World β}

theorem loadConfig_ok {config : MarketplaceConfig} : loadConfig env w = .ok config w' ↔
    w.marketplace.currentConfig = some config ∧
      w' = { w with marketplace := { w.marketplace with config := some config } } := by
  rw [loadConfig, gets_run, Storage.currentConfig]
  cases hc : w.marketplace.config with
  | some c =>
    simp only [pure_ok, Option.some.injEq]
    constructor
    · rintro ⟨rfl, rfl⟩
      exact ⟨rfl, by rw [← hc]⟩
    · rintro ⟨rfl, rfl⟩
      exact ⟨rfl, by rw [← hc]⟩
  | none =>
    simp only [fetch_seq_ok, modifyOwn, modify_run, pure_ok]
    constructor
    · rintro ⟨c, h, rfl, rfl⟩
      exact ⟨h, rfl⟩
    · rintro ⟨h, rfl⟩
      exact ⟨config, h, rfl, rfl⟩

theorem loadConfig_seq_ok {k : MarketplaceConfig → Host World β} :
    (loadConfig >>= k) env w = .ok b w' ↔ ∃ config, w.marketplace.currentConfig = some config ∧
      k config env { w with marketplace := { w.marketplace with config := some config } } =
        .ok b w' := by
  simp only [bind_ok, loadConfig_ok]
  constructor
  · rintro ⟨config, _, ⟨h, rfl⟩, hk⟩
    exact ⟨config, h, hk⟩
  · rintro ⟨config, h, hk⟩
    exact ⟨config, _, ⟨h, rfl⟩, hk⟩

theorem requireAdmin_seq_ok {caller : Address} {k : MarketplaceConfig → Host World β} :
    (requireAdmin caller >>= k) env w = .ok b w' ↔ ∃ config,
      w.marketplace.currentConfig = some config ∧ config.admin = caller ∧
      k config env { w with marketplace := { w.marketplace with config := some config } } =
        .ok b w' := by
  simp only [requireAdmin, assoc_run, loadConfig_seq_ok, ensure_seq_ok, pure_run]

theorem requireNotPaused_seq_ok (h : (requireNotPaused >>= l) env w = .ok b w') :
    l () env w = .ok b w' := by
  rw [requireNotPaused, assoc_run, gets_run] at h
  cases hac : w.marketplace.accessControl with
  | none =>
    rw [hac] at h
    exact h
  | some ac =>
    rw [hac] at h
    simp only [assoc_run, net_run, callFrom_seq_ok, ensure_seq_ok, onAccessControl_ok,
      AccessControl.isPaused_ok] at h
    obtain ⟨-, _, _, ⟨_, ⟨-, rfl⟩, rfl⟩, -, h⟩ := h
    exact h

theorem requireWhitelistedToken_seq_ok {token : Address} :
    (requireWhitelistedToken token >>= l) env w = .ok b w' ↔
      w.marketplace.whitelistedToken token = true ∧ l () env w = .ok b w' := by
  rw [requireWhitelistedToken, assoc_run, gets_run, ensure_seq_ok]

theorem loadListing_seq_ok {k : Listing → Host World β} :
    (loadListing i >>= k) env w = .ok b w' ↔
      ∃ listing, w.marketplace.listing i = some listing ∧ k listing env w = .ok b w' :=
  fetch_seq_ok

theorem getInvoice_seq_ok {config : MarketplaceConfig} {k : Invoice → Host World β} :
    (callInvoiceNft config (InvoiceNft.getInvoice i) >>= k) env w = .ok b w' ↔
      config.invoiceNft = env.net.invoiceNft ∧
        ∃ inv, w.invoiceNft.invoice i = some (.current inv) ∧ k inv env w = .ok b w' := by
  simp only [callInvoiceNft, assoc_run, net_run, callFrom_seq_ok, onInvoiceNft_ok,
    InvoiceNft.getInvoice_ok]
  constructor
  · rintro ⟨h, inv, _, ⟨_, ⟨hi, rfl⟩, rfl⟩, hk⟩
    exact ⟨h, inv, hi, hk⟩
  · rintro ⟨h, inv, hi, hk⟩
    exact ⟨h, inv, w, ⟨_, ⟨hi, rfl⟩, rfl⟩, hk⟩

theorem invoiceFrozen_seq_ok {config : MarketplaceConfig} {k : Bool → Host World β} :
    (callInvoiceNft config (InvoiceNft.isInvoiceFrozen i) >>= k) env w = .ok b w' ↔
      config.invoiceNft = env.net.invoiceNft ∧
        k (w.invoiceNft.invoiceFrozen i) env w = .ok b w' := by
  simp only [callInvoiceNft, assoc_run, net_run, callFrom_seq_ok, onInvoiceNft_ok,
    InvoiceNft.isInvoiceFrozen_ok]
  constructor
  · rintro ⟨h, _, _, ⟨_, ⟨rfl, rfl⟩, rfl⟩, hk⟩
    exact ⟨h, hk⟩
  · rintro ⟨h, hk⟩
    exact ⟨h, _, w, ⟨_, ⟨rfl, rfl⟩, rfl⟩, hk⟩

theorem requireComplianceAttested_seq_ok {sme : Address}
    (h : (requireComplianceAttested sme >>= l) env w = .ok b w') : ∃ config,
      w.marketplace.currentConfig = some config ∧
      l () env { w with marketplace := { w.marketplace with config := some config } } =
        .ok b w' := by
  simp only [requireComplianceAttested, assoc_run, loadConfig_seq_ok, net_run, callFrom_seq_ok,
    onRiskRegistry_ok, RiskRegistry.own, zoom_ok, RiskRegistry.isComplianceAttested, gets_ok,
    ensure_seq_ok] at h
  obtain ⟨config, hc, -, _, _, ⟨_, ⟨_, ⟨-, rfl⟩, rfl⟩, rfl⟩, -, h⟩ := h
  exact ⟨config, hc, h⟩

end Helpers

/-! ## Funding -/

section Funding

/-- The fee rate for an invoice of a tier. -/
def Storage.effectiveFeeBps (S : Storage) (config : MarketplaceConfig) (tier : RiskTier) : ℕ :=
  (S.tierFeeBps (tierOrdinal tier)).getD config.feeBps

/-- The fee of contributing `amount` to a listing. -/
def chargedFee (w : World) (invoiceId : ℕ) (amount : ℤ) : Option ℤ := do
  let listing ← w.marketplace.listing invoiceId
  let config ← w.marketplace.currentConfig
  let decimals ← w.tokens.decimals listing.token
  match w.invoiceNft.invoice invoiceId with
  | some (.current inv) =>
    match bpsOfNormalized amount (w.marketplace.effectiveFeeBps config inv.riskTier) decimals with
    | .ok fee => some fee
    | .error _ => none
  | _ => none

/-- The tokens after a contribution. -/
def contributed (T : Tokens) (config : MarketplaceConfig) (token investor : Address)
    (fee net : ℤ) : Tokens :=
  let T := if 0 < fee then T.move token investor config.treasury fee else T
  if 0 < net then T.move token investor config.financingPool net else T

/-- The transfers of a contribution. -/
def contributionTransfers (config : MarketplaceConfig) (token investor : Address) (fee net : ℤ) :
    List Transfer :=
  (if 0 < fee then [⟨token, investor, config.treasury, fee⟩] else []) ++
    if 0 < net then [⟨token, investor, config.financingPool, net⟩] else []

theorem contributed_transfers (T : Tokens) (config : MarketplaceConfig) (token investor : Address)
    (fee net : ℤ) : (contributed T config token investor fee net).transfers =
      T.transfers ++ contributionTransfers config token investor fee net := by
  unfold contributed contributionTransfers
  split_ifs <;> simp

/-- The storage after a contribution of `amount`, of which `net` after the fee. -/
def Storage.funded (S : Storage) (config : MarketplaceConfig) (invoiceId : ℕ) (listing : Listing)
    (investor : Address) (amount net : ℤ) : Storage := { S with
  config := some config
  contribution := Function.update S.contribution invoiceId
    ((S.contribution invoiceId).insert investor
      (((S.contribution invoiceId)[investor]?).getD 0 + net))
  listing := Function.update S.listing invoiceId (some { listing with
    fundedAmount := listing.fundedAmount + amount
    isActive := decide (listing.fundedAmount + amount < listing.askingPrice) }) }

/-- The treasury after a contribution with a fee. -/
def chargedTo (S : Treasury.Storage) (token : Address) (fee : ℤ) : Treasury.Storage :=
  if 0 < fee then { S with
    collected := Function.update S.collected token (some ((S.collected token).getD 0 + fee)) }
  else S

theorem collectContribution_ok {config : MarketplaceConfig} {token investor : Address}
    {fee net : ℤ} (h : collectContribution config token investor fee net env w = .ok u w') :
    (0 < fee → config.treasury = env.net.treasury) ∧ w' = { w with
        treasury := chargedTo w.treasury token fee
        tokens := contributed w.tokens config token investor fee net } := by
  simp only [collectContribution, net_run, ite_run] at h
  unfold contributed chargedTo
  split_ifs at h ⊢ with hfee hnet hnet
  · simp only [bind_ok (x := callToken _ _), callToken_transfer_ok, callFrom_seq_ok,
      onTreasury_ok, Treasury.own, zoom_ok] at h
    obtain ⟨_, _, ⟨-, -, -, -, rfl⟩, ht, _, _, ⟨_, ⟨S, hS, rfl⟩, rfl⟩, -, -, -, -, rfl⟩ := h
    obtain ⟨-, -, rfl⟩ := Treasury.collectFee_ok hS
    exact ⟨fun _ => ht, rfl⟩
  · simp only [bind_ok (x := callToken _ _), callToken_transfer_ok, callFrom_seq_ok,
      onTreasury_ok, Treasury.own, zoom_ok, pure_ok] at h
    obtain ⟨_, _, ⟨-, -, -, -, rfl⟩, ht, _, _, ⟨_, ⟨S, hS, rfl⟩, rfl⟩, -, rfl⟩ := h
    obtain ⟨-, -, rfl⟩ := Treasury.collectFee_ok hS
    exact ⟨fun _ => ht, rfl⟩
  · rw [callToken_transfer_ok] at h
    obtain ⟨-, -, -, -, rfl⟩ := h
    exact ⟨fun h => absurd h hfee, rfl⟩
  · obtain ⟨-, rfl⟩ := pure_ok.mp h
    exact ⟨fun h => absurd h hfee, rfl⟩

/-- What a successful contribution found, and what it leaves. The pool and the invoice contract
only change when it reaches the asking price. -/
structure Funding (env : Env) (w : World) (investor : Address) (invoiceId : ℕ) (amount : ℤ)
    (w' : World) (listing : Listing) (config : MarketplaceConfig) (inv : Invoice) (fee : ℤ) :
    Prop where
  authenticated : env.Authenticates investor
  positive : 0 < amount
  listed : w.marketplace.listing invoiceId = some listing
  active : listing.isActive = true
  intime : env.timestamp ≤ listing.fundingDeadline
  within : listing.fundedAmount + amount ≤ listing.askingPrice
  configured : w.marketplace.currentConfig = some config
  invoice : w.invoiceNft.invoice invoiceId = some (.current inv)
  charged : ∃ decimals, w.tokens.decimals listing.token = some decimals ∧
    bpsOfNormalized amount (w.marketplace.effectiveFeeBps config inv.riskTier) decimals = .ok fee
  toTreasury : 0 < fee → config.treasury = env.net.treasury
  marketplace : w'.marketplace =
    w.marketplace.funded config invoiceId listing investor amount (amount - fee)
  tokens : w'.tokens = contributed w.tokens config listing.token investor fee (amount - fee)
  unreleased : listing.fundedAmount + amount < listing.askingPrice →
    w'.pool = w.pool ∧ w'.invoiceNft = w.invoiceNft
  released : listing.askingPrice ≤ listing.fundedAmount + amount →
    config.financingPool = env.net.financingPool ∧ w.pool.pool invoiceId = none ∧
    w.invoiceNft.financingPool = some env.net.financingPool ∧
    inv.status = .listed ∧ 0 < inv.amount ∧
    ∃ bps, w'.pool = { w.pool with
        pool := Function.update w.pool.pool invoiceId
          (some ⟨invoiceId, listing.token, 0, inv.amount, 0, false, bps, inv.amount, false⟩) } ∧
      w'.invoiceNft = w.invoiceNft.asFunded invoiceId inv env.timestamp
  now : w'.now = w.now

/-- A contribution up to the point where the pool may open. -/
theorem fundInvoice_peel {investor : Address} {amount : ℤ}
    (h : fundInvoice investor i amount env w = .ok u w') :
    ∃ listing config inv fee, env.Authenticates investor ∧ 0 < amount ∧
      w.marketplace.listing i = some listing ∧ listing.isActive = true ∧
      env.timestamp ≤ listing.fundingDeadline ∧
      listing.fundedAmount + amount ≤ listing.askingPrice ∧
      w.marketplace.currentConfig = some config ∧
      w.invoiceNft.invoice i = some (.current inv) ∧
      (∃ decimals, w.tokens.decimals listing.token = some decimals ∧
        bpsOfNormalized amount (w.marketplace.effectiveFeeBps config inv.riskTier) decimals =
          .ok fee) ∧
      (0 < fee → config.treasury = env.net.treasury) ∧
      (if listing.askingPrice ≤ listing.fundedAmount + amount then
          callFrom env.net.marketplace config.financingPool env.net.financingPool
            (FinancingPool.releaseFunds env.net.marketplace i listing.token)
        else pure ()) env { w with
          marketplace := w.marketplace.funded config i listing investor amount (amount - fee)
          treasury := chargedTo w.treasury listing.token fee
          tokens := contributed w.tokens config listing.token investor fee (amount - fee) } =
        .ok u w' := by
  simp only [fundInvoice, requireAuth_seq_ok] at h
  obtain ⟨ha, h⟩ := h
  replace h := requireNotPaused_seq_ok h
  simp only [check_seq_ok, requireNonZeroAmount, requireWithinMaxAmount, guardK_ok,
    loadListing_seq_ok, ensure_seq_ok, timestamp_run, loadConfig_seq_ok, invoiceFrozen_seq_ok,
    net_run, bind_ok (x := callToken _ _), callToken_decimals_ok, getInvoice_seq_ok, gets_run,
    okOr_ok, bind_ok (x := collectContribution _ _ _ _ _), modifyOwn, modify_run, putListing,
    decide_eq_true_iff] at h
  obtain ⟨_, hpos, _, -, listing, hl, hact, htime, remaining, hrem, hle, config, hc, -, -, dec, _,
    ⟨hdec, rfl⟩, -, inv, hinv, fee, hfee, net, hnet, _, _, hcollect, funded, hfunded, contrib,
    hcontrib, h⟩ := h
  obtain ⟨htreasury, rfl⟩ := collectContribution_ok hcollect
  obtain rfl := safeSub_ok hrem
  obtain rfl := checkedSub_some hnet
  obtain rfl := safeAdd_ok hfunded
  obtain rfl := safeAdd_ok hcontrib
  have hactive : (listing.isActive && !decide (listing.askingPrice ≤ listing.fundedAmount + amount))
      = decide (listing.fundedAmount + amount < listing.askingPrice) := by
    rw [hact, Bool.true_and, ← decide_not]
    exact decide_eq_decide.mpr not_le
  have hwithin : listing.fundedAmount + amount ≤ listing.askingPrice := by omega
  rw [hactive] at h
  exact ⟨listing, config, inv, fee, ha, hpos, hl, hact, htime, hwithin, hc, hinv,
    ⟨dec, hdec, hfee⟩, htreasury, h⟩

theorem fundInvoice_unfrozen {investor : Address} {amount : ℤ}
    (h : fundInvoice investor i amount env w = .ok u w') :
    w.invoiceNft.invoiceFrozen i = false := by
  simp only [fundInvoice, requireAuth_seq_ok] at h
  obtain ⟨-, h⟩ := h
  replace h := requireNotPaused_seq_ok h
  simp only [check_seq_ok, loadListing_seq_ok, ensure_seq_ok, timestamp_run, loadConfig_seq_ok,
    invoiceFrozen_seq_ok] at h
  obtain ⟨_, -, _, -, _, -, -, -, _, -, -, _, -, -, hfrozen, -⟩ := h
  exact hfrozen

theorem fundInvoice_ok {investor : Address} {amount : ℤ}
    (h : fundInvoice investor i amount env w = .ok u w') :
    ∃ listing config inv fee, Funding env w investor i amount w' listing config inv fee := by
  obtain ⟨listing, config, inv, fee, ha, hpos, hl, hact, htime, hwithin, hc, hinv, hfee,
    htreasury, h⟩ := fundInvoice_peel h
  refine ⟨listing, config, inv, fee, ?_⟩
  rw [ite_run] at h
  split_ifs at h with hfull
  · obtain ⟨hfp, h⟩ := callFrom_ok.mp h
    obtain ⟨-, hnone, hwired, inv', bps, hinv', hst, hamt, rfl⟩ := FinancingPool.releaseFunds_ok h
    obtain rfl := InvoiceNft.Storage.current_inj hinv hinv'
    exact ⟨ha, hpos, hl, hact, htime, hwithin, hc, hinv, hfee, htreasury, rfl, rfl,
      fun hlt => absurd hfull (not_le.mpr hlt),
      fun _ => ⟨hfp, hnone, hwired, hst, hamt, bps, rfl, rfl⟩, rfl⟩
  · obtain ⟨-, rfl⟩ := pure_ok.mp h
    exact ⟨ha, hpos, hl, hact, htime, hwithin, hc, hinv, hfee, htreasury, rfl, rfl,
      fun _ => ⟨rfl, rfl⟩, fun hle => absurd hle hfull, rfl⟩

theorem fundInvoice_treasury {investor : Address} {amount : ℤ}
    (h : fundInvoice investor i amount env w = .ok u w') :
    ∃ listing fee, w.marketplace.listing i = some listing ∧
      chargedFee w i amount = some fee ∧ w'.treasury = chargedTo w.treasury listing.token fee := by
  obtain ⟨listing, config, inv, fee, -, -, hl, -, -, -, hc, hinv, ⟨decimals, hdec, hfee⟩, -, h⟩ :=
    fundInvoice_peel h
  refine ⟨listing, fee, hl, by simp [chargedFee, hl, hc, hdec, hinv, hfee], ?_⟩
  rw [ite_run] at h
  split_ifs at h
  · obtain ⟨-, h⟩ := callFrom_ok.mp h
    obtain ⟨-, -, -, _, _, -, -, -, rfl⟩ := FinancingPool.releaseFunds_ok h
    rfl
  · obtain ⟨-, rfl⟩ := pure_ok.mp h
    rfl

/-- The contribution that reaches the asking price has the pool opened. -/
theorem fundInvoice_release {investor : Address} {amount : ℤ} {listing : Listing}
    (h : fundInvoice investor i amount env w = .ok u w')
    (hl : w.marketplace.listing i = some listing)
    (hfull : listing.askingPrice ≤ listing.fundedAmount + amount) :
    ∃ w₁, w₁.pool = w.pool ∧ FinancingPool.releaseFunds env.net.marketplace i listing.token
      (env.from env.net.marketplace) w₁ = .ok u w' := by
  obtain ⟨listing', config, inv, fee, -, -, hl', -, -, -, -, -, -, -, h⟩ := fundInvoice_peel h
  obtain rfl : listing = listing' := by
    rw [hl] at hl'
    exact Option.some.inj hl'
  rw [if_pos hfull] at h
  obtain ⟨-, h⟩ := callFrom_ok.mp h
  refine ⟨_, ?_, h⟩
  rfl

end Funding

/-! ## Listing, cancellation and refunds -/

section Listings

/-- The referrers after a listing. -/
def Storage.referred (S : Storage) (invoiceId : ℕ) :
    Option Address → ℕ → Option Address
  | none => S.referrer
  | some r => Function.update S.referrer invoiceId (some r)

theorem listInvoice_ok {seller token : Address} {price face : ℤ} {deadline : ℕ}
    {referrer : Option Address}
    (h : listInvoice seller i price face token deadline referrer env w = .ok u w') :
    0 < price ∧ price < face ∧ w.marketplace.listing i = none ∧ env.timestamp < deadline ∧
      w.invoiceNft.marketplace = some env.net.marketplace ∧
      ∃ config inv, w.marketplace.currentConfig = some config ∧
        w.invoiceNft.invoice i = some (.current inv) ∧ inv.status = .created ∧
        inv.amount = face ∧ w' = { w with
          marketplace := { w.marketplace with
            config := some config
            referrer := w.marketplace.referred i referrer
            listing := Function.update w.marketplace.listing i
              (some ⟨i, seller, price, face, token, 0, deadline, true⟩)
            lock := false }
          invoiceNft := w.invoiceNft.asListed i inv } := by
  simp only [listInvoice, requireAuth_seq_ok] at h
  obtain ⟨-, h⟩ := h
  replace h := requireNotPaused_seq_ok h
  simp only [timestamp_run, check_seq_ok, requireNonZeroAmount, requireWithinMaxAmount,
    requireFutureTimestamp, guardK_ok, ensure_seq_ok, requireWhitelistedToken_seq_ok] at h
  obtain ⟨_, hprice, _, -, _, -, _, -, _, htime, hlt, -, h⟩ := h
  obtain ⟨config, hc, h⟩ := requireComplianceAttested_seq_ok h
  simp only [gets_run, ensure_seq_ok, guard, guarded_ok, loadConfig_seq_ok] at h
  obtain ⟨hnone, -, v, ⟨config', hc', h⟩, rfl⟩ := h
  obtain rfl : config = config' := Option.some.inj hc'
  replace h : (callInvoiceNft config (InvoiceNft.getInvoice i) >>= fun invoice =>
      ensure (invoice.amount = face) KoraError.invalidAmount >>= fun _ => net >>= fun d =>
      callInvoiceNft config (InvoiceNft.setListed d.marketplace i) >>= fun _ =>
      putListing i ⟨i, seller, price, face, token, 0, deadline, true⟩) env { w with
        marketplace := { w.marketplace with
          config := some config
          referrer := w.marketplace.referred i referrer
          lock := true } } = .ok u v := by
    cases referrer with
    | none => exact h
    | some r =>
      simp only [ensure_seq_ok, modifyOwn, modify_run] at h
      exact h.2
  simp only [getInvoice_seq_ok, ensure_seq_ok, net_run] at h
  obtain ⟨-, inv, hinv, hface, h⟩ := h
  simp only [callInvoiceNft, assoc_run, net_run, callFrom_seq_ok, onInvoiceNft_ok, putListing,
    modifyOwn, modify_ok] at h
  obtain ⟨-, _, _, ⟨s, hs, rfl⟩, rfl⟩ := h
  obtain ⟨-, hm, inv', hinv', hst, rfl⟩ := InvoiceNft.setListed_ok hs
  obtain rfl := InvoiceNft.Storage.current_inj hinv hinv'
  exact ⟨hprice, hlt, hnone, htime, hm, config, inv, hc, hinv, hst, hface, rfl⟩

/-- The storage with a listing deactivated. -/
def Storage.deactivated (S : Storage) (config : MarketplaceConfig) (invoiceId : ℕ)
    (listing : Listing) : Storage := { S with
  config := some config
  listing := Function.update S.listing invoiceId (some { listing with isActive := false }) }

theorem cancelListing_ok {caller : Address} (h : cancelListing caller i env w = .ok u w') :
    ∃ listing config, w.marketplace.listing i = some listing ∧ listing.isActive = true ∧
      w.marketplace.currentConfig = some config ∧
      w' = { w with marketplace := w.marketplace.deactivated config i listing } := by
  simp only [cancelListing, requireAuth_seq_ok, loadListing_seq_ok, ensure_seq_ok,
    loadConfig_seq_ok, putListing, modifyOwn, modify_ok] at h
  obtain ⟨-, listing, hl, hact, config, hc, -, rfl⟩ := h
  exact ⟨listing, config, hl, hact, hc, rfl⟩

theorem requestCancellation_ok {caller : Address}
    (h : requestCancellation caller i env w = .ok u w') :
    ∃ listing config, w.marketplace.listing i = some listing ∧ listing.isActive = true ∧
      w.marketplace.currentConfig = some config ∧
      (listing.fundedAmount = 0 ∧
          w' = { w with marketplace := w.marketplace.deactivated config i listing } ∨
        ∃ requests, w' = { w with marketplace := { w.marketplace with
          config := some config
          cancellationRequest := requests } }) := by
  simp only [requestCancellation, requireAuth_seq_ok, loadListing_seq_ok, ensure_seq_ok,
    loadConfig_seq_ok, putListing, modifyOwn, gets_run, ite_run] at h
  obtain ⟨-, listing, hl, hact, config, hc, -, h⟩ := h
  refine ⟨listing, config, hl, hact, hc, ?_⟩
  split_ifs at h with hzero
  · obtain rfl := modify_ok.mp h
    exact Or.inl ⟨hzero, rfl⟩
  · rw [ensure_seq_ok, modify_ok] at h
    obtain ⟨-, rfl⟩ := h
    exact Or.inr ⟨_, rfl⟩

theorem adminConfirmCancellation_ok {admin : Address}
    (h : adminConfirmCancellation admin i env w = .ok u w') :
    ∃ listing config requests, w.marketplace.listing i = some listing ∧
      listing.isActive = true ∧ w.marketplace.currentConfig = some config ∧
      w' = { w with marketplace := { w.marketplace.deactivated config i listing with
        cancellationRequest := requests
        cancellationConfirmed :=
          Function.update w.marketplace.cancellationConfirmed i true } } := by
  simp only [adminConfirmCancellation, requireAuth_seq_ok, requireAdmin_seq_ok, gets_run,
    loadListing_seq_ok, ensure_seq_ok, putListing, modifyOwn, modify_run, modify_ok] at h
  obtain ⟨-, config, hc, -, -, listing, hl, hact, rfl⟩ := h
  exact ⟨listing, config, _, hl, hact, hc, rfl⟩

/-- The ledger after a refund of `net` to `investor`. -/
def refunded (w : World) (config : MarketplaceConfig) (i : ℕ) (l : Listing) (investor : Address)
    (net : ℤ) : World := { w with
  marketplace := { w.marketplace with
    config := some config
    refundClaimed := Function.update w.marketplace.refundClaimed i
      (Function.update (w.marketplace.refundClaimed i) investor true) }
  tokens := w.tokens.move l.token config.financingPool investor net }

/-- **When a refund is paid**: once, for a listing that did not reach its price and whose
cancellation is confirmed or whose deadline has passed, if the token lets the marketplace move the
money of the configured pool. -/
theorem claimRefund_iff {investor : Address} : claimRefund investor i env w = .ok u w' ↔
    env.Authenticates investor ∧ ∃ listing config net, w.marketplace.listing i = some listing ∧
      listing.fundedAmount < listing.askingPrice ∧
      (w.marketplace.cancellationConfirmed i = true ∨ listing.fundingDeadline < env.timestamp) ∧
      w.marketplace.refundClaimed i investor = false ∧
      (w.marketplace.contribution i)[investor]? = some net ∧ 0 < net ∧
      w.marketplace.currentConfig = some config ∧
      (w.tokens.asksAuth listing.token = true →
        (env.from env.net.marketplace).Authenticates config.financingPool) ∧
      (w.tokens.decimals listing.token).isSome = true ∧
      net ≤ w.tokens.balance listing.token config.financingPool ∧
      w' = refunded w config i listing investor net := by
  simp only [claimRefund, requireAuth_seq_ok, loadListing_seq_ok, ensure_seq_ok, gets_run,
    timestamp_run, modifyOwn, modify_run, loadConfig_seq_ok, net_run, callToken_transfer_ok]
  constructor
  · rintro ⟨ha, listing, hl, hlt, hgate, hclaimed, hpos, config, hc, hauth, hdec, -, hle, rfl⟩
    cases hn : (w.marketplace.contribution i)[investor]? with
    | none =>
      rw [hn] at hpos
      exact absurd hpos (lt_irrefl 0)
    | some net =>
      rw [hn] at hpos hle
      exact ⟨ha, listing, config, net, hl, hlt, hgate, hclaimed, rfl, hpos, hc, hauth, hdec, hle,
        rfl⟩
  · rintro ⟨ha, listing, config, net, hl, hlt, hgate, hclaimed, hn, hpos, hc, hauth, hdec, hle,
      rfl⟩
    rw [hn, Option.getD_some]
    exact ⟨ha, listing, hl, hlt, hgate, hclaimed, hpos, config, hc, hauth, hdec, hpos.le, hle, rfl⟩

theorem claimRefund_ok {investor : Address} (h : claimRefund investor i env w = .ok u w') :
    ∃ listing config net, w.marketplace.listing i = some listing ∧
      listing.fundedAmount < listing.askingPrice ∧
      (w.marketplace.cancellationConfirmed i = true ∨ listing.fundingDeadline < env.timestamp) ∧
      w.marketplace.refundClaimed i investor = false ∧
      (w.marketplace.contribution i)[investor]? = some net ∧ 0 < net ∧
      w.marketplace.currentConfig = some config ∧
      w' = refunded w config i listing investor net := by
  obtain ⟨-, listing, config, net, hl, hlt, hgate, hclaimed, hn, hpos, hc, -, -, -, hw⟩ :=
    claimRefund_iff.mp h
  exact ⟨listing, config, net, hl, hlt, hgate, hclaimed, hn, hpos, hc, hw⟩

end Listings

/-! ## Administration -/

section Administration

/-- The books of the listings are the same. -/
structure SameBooks (S T : Storage) : Prop where
  listing : T.listing = S.listing
  contribution : T.contribution = S.contribution
  refundClaimed : T.refundClaimed = S.refundClaimed
  cancellationConfirmed : T.cancellationConfirmed = S.cancellationConfirmed

/-- No fee rate exceeds the whole amount. -/
structure Storage.FeesValid (S : Storage) : Prop where
  config : ∀ c, S.config = some c → c.feeBps ≤ 10_000
  legacy : ∀ bps, S.feeBps = some bps → bps ≤ 10_000
  tier : ∀ t bps, S.tierFeeBps t = some bps → bps ≤ 10_000

theorem Storage.FeesValid.currentConfig {S : Storage} (h : S.FeesValid)
    {config : MarketplaceConfig} (hc : S.currentConfig = some config) :
    config.feeBps ≤ 10_000 := by
  unfold Storage.currentConfig at hc
  cases hp : S.config with
  | some c =>
    rw [hp] at hc
    cases hc
    exact h.config _ hp
  | none =>
    rw [hp] at hc
    simp only [legacyConfig, Option.bind_eq_bind, Option.bind_eq_some_iff, Option.pure_def,
      Option.some.injEq] at hc
    obtain ⟨_, -, _, -, _, -, _, -, _, -, bps, hbps, _, -, rfl⟩ := hc
    exact h.legacy bps hbps

theorem Storage.FeesValid.effectiveFeeBps {S : Storage} (h : S.FeesValid)
    {config : MarketplaceConfig} (hc : S.currentConfig = some config) (tier : RiskTier) :
    S.effectiveFeeBps config tier ≤ 10_000 := by
  unfold Storage.effectiveFeeBps
  cases ht : S.tierFeeBps (tierOrdinal tier) with
  | none => exact h.currentConfig hc
  | some bps => exact h.tier _ bps ht

theorem Storage.FeesValid.settled {S T : Storage} (h : S.FeesValid) {config : MarketplaceConfig}
    (hc : S.currentConfig = some config) (hT : T.config = some config)
    (hb : T.feeBps = S.feeBps) (ht : T.tierFeeBps = S.tierFeeBps) : T.FeesValid where
  config := by
    rw [hT]
    rintro _ ⟨⟩
    exact h.currentConfig hc
  legacy := hb ▸ h.legacy
  tier := ht ▸ h.tier

/-- The entry points that only administer the contract. -/
def Op.Administers : Op → Prop
  | .listInvoice .. | .fundInvoice .. | .cancelListing .. | .requestCancellation ..
  | .adminConfirmCancellation .. | .claimRefund .. => False
  | _ => True

/-- The entry points that neither list nor fund. -/
def Op.Plain : Op → Prop
  | .listInvoice .. | .fundInvoice .. => False
  | _ => True

theorem Op.Administers.plain {op : Op} (h : op.Administers) : op.Plain := by
  cases op <;> first | exact trivial | exact h

/-- What administration does. -/
structure Administration (w w' : World) : Prop where
  rest : w' = { w with marketplace := w'.marketplace }
  books : SameBooks w.marketplace w'.marketplace
  fees : w.marketplace.FeesValid → w'.marketplace.FeesValid

theorem initializeContract_ok {admin nft fp treasury ac rr : Address} {bps : ℕ}
    (h : initializeContract admin nft fp treasury ac rr bps env w = .ok u w') :
    bps ≤ 10_000 ∧ w' = { w with marketplace := { w.marketplace with
      admin := some admin
      invoiceNft := some nft
      financingPool := some fp
      treasury := some treasury
      feeBps := some bps
      accessControl := some ac
      riskRegistry := some rr
      config := some ⟨admin, nft, fp, treasury, ac, rr, bps, 0⟩ } } := by
  simp only [initializeContract, gets_run, ensure_seq_ok, check_seq_ok, requireValidFeeBps,
    guardK_ok, modifyOwn, modify_ok] at h
  obtain ⟨-, _, hbps, rfl⟩ := h
  exact ⟨hbps, rfl⟩

theorem setReferrerSplitBps_ok {admin : Address} {bps : ℕ}
    (h : setReferrerSplitBps admin bps env w = .ok u w') :
    ∃ config, w.marketplace.currentConfig = some config ∧ w' = { w with
      marketplace := { w.marketplace with
        config := some { config with referrerSplitBps := bps } } } := by
  simp only [setReferrerSplitBps, requireAuth_seq_ok, requireAdmin_seq_ok, check_seq_ok, modifyOwn,
    modify_ok] at h
  obtain ⟨-, config, hc, -, _, -, rfl⟩ := h
  exact ⟨config, hc, rfl⟩

theorem setFeeBps_ok {admin : Address} {bps : ℕ} (h : setFeeBps admin bps env w = .ok u w') :
    bps ≤ 10_000 ∧ ∃ config, w.marketplace.currentConfig = some config ∧ w' = { w with
      marketplace := { w.marketplace with config := some { config with feeBps := bps } } } := by
  simp only [setFeeBps, requireAuth_seq_ok, requireAdmin_seq_ok, check_seq_ok, requireValidFeeBps,
    guardK_ok, modifyOwn, modify_ok] at h
  obtain ⟨-, config, hc, -, _, hbps, rfl⟩ := h
  exact ⟨hbps, config, hc, rfl⟩

theorem setTierFeeBps_ok {admin : Address} {tier : RiskTier} {bps : ℕ}
    (h : setTierFeeBps admin tier bps env w = .ok u w') :
    bps ≤ 10_000 ∧ ∃ config, w.marketplace.currentConfig = some config ∧ w' = { w with
      marketplace := { w.marketplace with
        config := some config
        tierFeeBps :=
          Function.update w.marketplace.tierFeeBps (tierOrdinal tier) (some bps) } } := by
  simp only [setTierFeeBps, requireAuth_seq_ok, requireAdmin_seq_ok, check_seq_ok,
    requireValidFeeBps, guardK_ok, modifyOwn, modify_ok] at h
  obtain ⟨-, config, hc, -, _, hbps, rfl⟩ := h
  exact ⟨hbps, config, hc, rfl⟩

theorem whitelistToken_ok {admin token : Address}
    (h : whitelistToken admin token env w = .ok u w') :
    ∃ config, w.marketplace.currentConfig = some config ∧ w' = { w with
      marketplace := { w.marketplace with
        config := some config
        whitelistedToken := Function.update w.marketplace.whitelistedToken token true } } := by
  simp only [whitelistToken, requireAuth_seq_ok, requireAdmin_seq_ok, modifyOwn, modify_ok] at h
  obtain ⟨-, config, hc, -, rfl⟩ := h
  exact ⟨config, hc, rfl⟩

theorem removeTokenWhitelist_ok {admin token : Address}
    (h : removeTokenWhitelist admin token env w = .ok u w') :
    ∃ config, w.marketplace.currentConfig = some config ∧ w' = { w with
      marketplace := { w.marketplace with
        config := some config
        whitelistedToken := Function.update w.marketplace.whitelistedToken token false } } := by
  simp only [removeTokenWhitelist, requireAuth_seq_ok, requireAdmin_seq_ok,
    requireWhitelistedToken_seq_ok, modifyOwn, modify_ok] at h
  obtain ⟨-, config, hc, -, -, rfl⟩ := h
  exact ⟨config, hc, rfl⟩

theorem setFeeBps_administration {admin : Address} {bps : ℕ}
    (h : setFeeBps admin bps env w = .ok u w') : Administration w w' := by
  obtain ⟨hbps, config, hc, rfl⟩ := setFeeBps_ok h
  refine ⟨rfl, ⟨rfl, rfl, rfl, rfl⟩, fun hf => ⟨?_, hf.legacy, hf.tier⟩⟩
  rintro _ ⟨⟩
  exact hbps

theorem Op.exec_admin {op : Op} (hop : op.Administers) (h : op.exec env w = .ok u w') :
    Administration w w' := by
  cases op with
  | initializeContract admin nft fp treasury ac rr bps =>
    obtain ⟨hbps, rfl⟩ := initializeContract_ok h
    refine ⟨rfl, ⟨rfl, rfl, rfl, rfl⟩, fun hf => ⟨?_, ?_, hf.tier⟩⟩
    · rintro _ ⟨⟩
      exact hbps
    · rintro _ ⟨⟩
      exact hbps
  | setReferrerSplitBps admin bps =>
    obtain ⟨config, hc, rfl⟩ := setReferrerSplitBps_ok h
    refine ⟨rfl, ⟨rfl, rfl, rfl, rfl⟩, fun hf => ⟨?_, hf.legacy, hf.tier⟩⟩
    rintro _ ⟨⟩
    have := hf.currentConfig hc
    exact this
  | setFeeBps admin bps => exact setFeeBps_administration h
  | updateFeeBps admin bps => exact setFeeBps_administration h
  | setTierFeeBps admin tier bps =>
    obtain ⟨hbps, config, hc, rfl⟩ := setTierFeeBps_ok h
    refine ⟨rfl, ⟨rfl, rfl, rfl, rfl⟩, fun hf => ⟨?_, hf.legacy, ?_⟩⟩
    · rintro _ ⟨⟩
      exact hf.currentConfig hc
    · intro t b ht
      simp only [Function.update_apply] at ht
      split_ifs at ht
      · cases ht
        exact hbps
      · exact hf.tier t b ht
  | whitelistToken admin token =>
    obtain ⟨config, hc, rfl⟩ := whitelistToken_ok h
    exact ⟨rfl, ⟨rfl, rfl, rfl, rfl⟩, fun hf => hf.settled hc rfl rfl rfl⟩
  | removeTokenWhitelist admin token =>
    obtain ⟨config, hc, rfl⟩ := removeTokenWhitelist_ok h
    exact ⟨rfl, ⟨rfl, rfl, rfl, rfl⟩, fun hf => hf.settled hc rfl rfl rfl⟩
  | listInvoice | fundInvoice | cancelListing | requestCancellation | adminConfirmCancellation
  | claimRefund => exact hop.elim

end Administration

/-! ## Configuration -/

section Configuration

/-- The flat fee that an entry point sets. -/
def Op.setsFee : Op → Option ℕ
  | .initializeContract _ _ _ _ _ _ feeBps => some feeBps
  | .setFeeBps _ feeBps | .updateFeeBps _ feeBps => some feeBps
  | _ => none

/-- The flat fee in force. -/
def Storage.flatFee (S : Storage) : Option ℕ := S.currentConfig.map MarketplaceConfig.feeBps

/-- What a call on a configured marketplace does to the configuration. -/
structure Settled (S T : Storage) (fee : Option ℕ) (config : MarketplaceConfig) : Prop where
  before : S.currentConfig = some config
  after : T.flatFee = fee.or (some config.feeBps)
  accessControl : T.accessControl = S.accessControl

/-- **Only initialisation works without a configuration.** Every other entry point packs the
configuration in force, up to the fee rates. -/
theorem Op.exec_packed {op : Op} (h : op.exec env w = .ok u w') :
    (∃ admin nft fp treasury ac rr bps, op = .initializeContract admin nft fp treasury ac rr bps ∧
      w'.marketplace.accessControl = some ac ∧ w'.marketplace.flatFee = some bps) ∨
    ∃ config packed, w.marketplace.currentConfig = some config ∧
      w'.marketplace.config = some packed ∧ packed.admin = config.admin ∧
      packed.feeBps = op.setsFee.getD config.feeBps ∧
      w'.marketplace.accessControl = w.marketplace.accessControl := by
  cases op with
  | initializeContract admin nft fp treasury ac rr bps =>
    obtain ⟨-, rfl⟩ := initializeContract_ok h
    exact Or.inl ⟨admin, nft, fp, treasury, ac, rr, bps, rfl, rfl, rfl⟩
  | setReferrerSplitBps admin bps =>
    obtain ⟨config, hc, rfl⟩ := setReferrerSplitBps_ok h
    exact Or.inr ⟨config, _, hc, rfl, rfl, rfl, rfl⟩
  | setFeeBps admin bps =>
    obtain ⟨-, config, hc, rfl⟩ := setFeeBps_ok h
    exact Or.inr ⟨config, _, hc, rfl, rfl, rfl, rfl⟩
  | updateFeeBps admin bps =>
    obtain ⟨-, config, hc, rfl⟩ := setFeeBps_ok h
    exact Or.inr ⟨config, _, hc, rfl, rfl, rfl, rfl⟩
  | setTierFeeBps admin tier bps =>
    obtain ⟨-, config, hc, rfl⟩ := setTierFeeBps_ok h
    exact Or.inr ⟨config, _, hc, rfl, rfl, rfl, rfl⟩
  | whitelistToken admin token =>
    obtain ⟨config, hc, rfl⟩ := whitelistToken_ok h
    exact Or.inr ⟨config, _, hc, rfl, rfl, rfl, rfl⟩
  | removeTokenWhitelist admin token =>
    obtain ⟨config, hc, rfl⟩ := removeTokenWhitelist_ok h
    exact Or.inr ⟨config, _, hc, rfl, rfl, rfl, rfl⟩
  | listInvoice seller i price face token deadline referrer =>
    obtain ⟨-, -, -, -, -, config, _, hc, -, -, -, rfl⟩ := listInvoice_ok h
    exact Or.inr ⟨config, _, hc, rfl, rfl, rfl, rfl⟩
  | fundInvoice investor i amount =>
    obtain ⟨listing, config, inv, fee, hF⟩ := fundInvoice_ok h
    rw [hF.marketplace]
    exact Or.inr ⟨config, _, hF.configured, rfl, rfl, rfl, rfl⟩
  | cancelListing caller i =>
    obtain ⟨_, config, -, -, hc, rfl⟩ := cancelListing_ok h
    exact Or.inr ⟨config, _, hc, rfl, rfl, rfl, rfl⟩
  | requestCancellation caller i =>
    obtain ⟨_, config, -, -, hc, ⟨-, rfl⟩ | ⟨_, rfl⟩⟩ := requestCancellation_ok h
    · exact Or.inr ⟨config, _, hc, rfl, rfl, rfl, rfl⟩
    · exact Or.inr ⟨config, _, hc, rfl, rfl, rfl, rfl⟩
  | adminConfirmCancellation admin i =>
    obtain ⟨_, config, _, -, -, hc, rfl⟩ := adminConfirmCancellation_ok h
    exact Or.inr ⟨config, _, hc, rfl, rfl, rfl, rfl⟩
  | claimRefund investor i =>
    obtain ⟨_, config, _, -, -, -, -, -, -, hc, rfl⟩ := claimRefund_ok h
    exact Or.inr ⟨config, _, hc, rfl, rfl, rfl, rfl⟩

theorem Op.exec_config {op : Op} (h : op.exec env w = .ok u w') :
    (∃ admin nft fp treasury ac rr bps, op = .initializeContract admin nft fp treasury ac rr bps ∧
      w'.marketplace.accessControl = some ac ∧ w'.marketplace.flatFee = some bps) ∨
    ∃ config, Settled w.marketplace w'.marketplace op.setsFee config := by
  refine (exec_packed h).imp_right ?_
  rintro ⟨config, packed, hc, hpacked, -, hfee, hac⟩
  refine ⟨config, hc, ?_, hac⟩
  rw [Storage.flatFee, Storage.currentConfig, hpacked, Option.map_some, hfee]
  cases op.setsFee <;> rfl

theorem Op.exec_flatFee {op : Op} (h : op.exec env w = .ok u w') :
    w'.marketplace.flatFee = op.setsFee.or w.marketplace.flatFee := by
  rcases exec_config h with ⟨_, _, _, _, _, _, bps, rfl, -, hfee⟩ | ⟨config, hs⟩
  · exact hfee
  · rw [hs.after, Storage.flatFee, hs.before]
    rfl

end Configuration

end Kora.Marketplace
