import Kora.FinancingPool

set_option autoImplicit false

/-!
# The marketplace

`marketplace/src/lib.rs`: fees, the token whitelist, listings, their funding, cancellation and
refunds.
-/

namespace Kora.Marketplace

open Exec

/-! ## Helpers -/

section Helpers

variable {α : Type}

/-- Change the contract's own storage. -/
def modifyOwn (f : Storage → Storage) : Host World Unit :=
  modify fun w => { w with marketplace := f w.marketplace }

/-- Run `m` under the reentrancy guard. -/
def guard (m : Host World α) : Host World α :=
  guarded (fun w => w.marketplace.lock)
    (fun b w => { w with marketplace := { w.marketplace with lock := b } }) m

/-- The configuration assembled from the individual keys. -/
def legacyConfig (S : Storage) : Option MarketplaceConfig := do
  let admin ← S.admin
  let invoiceNft ← S.invoiceNft
  let financingPool ← S.financingPool
  let treasury ← S.treasury
  let accessControl ← S.accessControl
  let feeBps ← S.feeBps
  let riskRegistry ← S.riskRegistry
  pure ⟨admin, invoiceNft, financingPool, treasury, accessControl, riskRegistry, feeBps, 0⟩

/-- The packed configuration; when there is none it is assembled and stored. -/
def loadConfig : Host World MarketplaceConfig := do
  let packed ← gets fun w => w.marketplace.config
  match packed with
  | some config => pure config
  | none =>
    let config ← fetch (fun w => legacyConfig w.marketplace) .notInitialized
    modifyOwn fun S => { S with config := some config }
    pure config

/-- The configuration, for its admin only. -/
def requireAdmin (caller : Address) : Host World MarketplaceConfig := do
  let config ← loadConfig
  ensure (config.admin = caller) .notAdmin
  pure config

/-- Fail while the protocol is paused, when access control is known. -/
def requireNotPaused : Host World Unit := do
  let ac ← gets fun w => w.marketplace.accessControl
  match ac with
  | none => pure ()
  | some ac =>
    let d ← net
    let paused ← callFrom d.marketplace ac d.accessControl (onAccessControl AccessControl.isPaused)
    ensure (paused = false) .protocolPaused

/-- Only whitelisted tokens pass. -/
def requireWhitelistedToken (token : Address) : Host World Unit := do
  let ok ← gets fun w => w.marketplace.whitelistedToken token
  ensure (ok = true) .tokenNotWhitelisted

/-- Only SMEs that attested compliance pass. -/
def requireComplianceAttested (sme : Address) : Host World Unit := do
  let config ← loadConfig
  let d ← net
  let ok ← callFrom d.marketplace config.riskRegistry d.riskRegistry
    (onRiskRegistry (RiskRegistry.own (RiskRegistry.isComplianceAttested sme)))
  ensure (ok = true) .complianceNotAttested

/-- The storage key of a tier. -/
def tierOrdinal : RiskTier → ℕ
  | .aaa => 0
  | .aa => 1
  | .a => 2
  | .b => 3
  | .c => 4

/-- Call the configured invoice contract. -/
def callInvoiceNft (config : MarketplaceConfig) (m : InvoiceNft.Body α) : Host World α := do
  let d ← net
  callFrom d.marketplace config.invoiceNft d.invoiceNft (onInvoiceNft m)

/-- Read a listing. -/
def loadListing (invoiceId : ℕ) : Host World Listing :=
  fetch (fun w => w.marketplace.listing invoiceId) .listingNotFound

/-- Write a listing. -/
def putListing (invoiceId : ℕ) (listing : Listing) : Host World Unit :=
  modifyOwn fun S => { S with listing := Function.update S.listing invoiceId (some listing) }

end Helpers

/-! ## Administration -/

/-- One-time initialisation. -/
def initializeContract
    (admin invoiceNft financingPool treasury accessControl riskRegistry : Address)
    (feeBps : ℕ) : Host World Unit := do
  let old ← gets fun w => w.marketplace.config
  ensure (old = none) .alreadyInitialized
  check (requireValidFeeBps feeBps)
  modifyOwn fun S => { S with
    admin := some admin
    invoiceNft := some invoiceNft
    financingPool := some financingPool
    treasury := some treasury
    feeBps := some feeBps
    accessControl := some accessControl
    riskRegistry := some riskRegistry
    config := some ⟨admin, invoiceNft, financingPool, treasury, accessControl, riskRegistry,
      feeBps, 0⟩ }

/-- Update the share of the fee that goes to the referrer. -/
def setReferrerSplitBps (admin : Address) (referrerSplitBps : ℕ) : Host World Unit := do
  requireAuth admin
  let config ← requireAdmin admin
  check (requireValidFeeBps referrerSplitBps)
  modifyOwn fun S => { S with config := some { config with referrerSplitBps } }

/-- Update the flat fee. -/
def setFeeBps (admin : Address) (feeBps : ℕ) : Host World Unit := do
  requireAuth admin
  let config ← requireAdmin admin
  check (requireValidFeeBps feeBps)
  modifyOwn fun S => { S with config := some { config with feeBps } }

/-- Another name of `setFeeBps`. -/
def updateFeeBps (admin : Address) (feeBps : ℕ) : Host World Unit := setFeeBps admin feeBps

/-- Set the fee of a risk tier. -/
def setTierFeeBps (admin : Address) (tier : RiskTier) (feeBps : ℕ) : Host World Unit := do
  requireAuth admin
  let _ ← requireAdmin admin
  check (requireValidFeeBps feeBps)
  modifyOwn fun S => { S with
    tierFeeBps := Function.update S.tierFeeBps (tierOrdinal tier) (some feeBps) }

/-- Whitelist a token. -/
def whitelistToken (admin token : Address) : Host World Unit := do
  requireAuth admin
  let _ ← requireAdmin admin
  modifyOwn fun S => { S with whitelistedToken := Function.update S.whitelistedToken token true }

/-- Remove a token from the whitelist. -/
def removeTokenWhitelist (admin token : Address) : Host World Unit := do
  requireAuth admin
  let _ ← requireAdmin admin
  requireWhitelistedToken token
  modifyOwn fun S => { S with whitelistedToken := Function.update S.whitelistedToken token false }

/-! ## Listing and funding -/

/-- List an invoice. -/
def listInvoice (seller : Address) (invoiceId : ℕ) (askingPrice faceValue : ℤ) (token : Address)
    (fundingDeadline : ℕ) (referrer : Option Address) : Host World Unit := do
  requireAuth seller
  requireNotPaused
  let now ← timestamp
  check (requireNonZeroAmount askingPrice)
  check (requireNonZeroAmount faceValue)
  check (requireWithinMaxAmount askingPrice)
  check (requireWithinMaxAmount faceValue)
  check (requireFutureTimestamp now fundingDeadline)
  ensure (askingPrice < faceValue) .invalidAmount
  requireWhitelistedToken token
  requireComplianceAttested seller
  let old ← gets fun w => w.marketplace.listing invoiceId
  ensure (old = none) .invoiceAlreadyExists
  guard do
    let config ← loadConfig
    match referrer with
    | none => pure ()
    | some r =>
      ensure (r ≠ seller) .invalidAddress
      modifyOwn fun S => { S with referrer := Function.update S.referrer invoiceId (some r) }
    let invoice ← callInvoiceNft config (InvoiceNft.getInvoice invoiceId)
    ensure (invoice.amount = faceValue) .invalidAmount
    let d ← net
    callInvoiceNft config (InvoiceNft.setListed d.marketplace invoiceId)
    putListing invoiceId {
      invoiceId
      seller
      askingPrice
      faceValue
      token
      fundedAmount := 0
      fundingDeadline
      isActive := true }

/-- Move a contribution: the fee to the treasury, the rest to the financing pool. -/
def collectContribution (config : MarketplaceConfig) (token investor : Address) (fee net : ℤ) :
    Host World Unit := do
  let d ← Kora.net
  if 0 < fee then
    callToken d.marketplace (Token.transfer token investor config.treasury fee)
    callFrom d.marketplace config.treasury d.treasury
      (onTreasury (Treasury.own (Treasury.collectFee token fee)))
  if 0 < net then
    callToken d.marketplace (Token.transfer token investor config.financingPool net)

/-- Fund a share of an invoice. -/
def fundInvoice (investor : Address) (invoiceId : ℕ) (amount : ℤ) : Host World Unit := do
  requireAuth investor
  requireNotPaused
  check (requireNonZeroAmount amount)
  check (requireWithinMaxAmount amount)
  let listing ← loadListing invoiceId
  ensure (listing.isActive = true) .listingAlreadyCancelled
  let now ← timestamp
  ensure (now ≤ listing.fundingDeadline) .fundingDeadlinePassed
  let remaining ← check (safeSub listing.askingPrice listing.fundedAmount)
  ensure (amount ≤ remaining) .exceedsFundingTarget
  let config ← loadConfig
  let frozen ← callInvoiceNft config (InvoiceNft.isInvoiceFrozen invoiceId)
  ensure (frozen = false) .invoiceFrozen
  let d ← net
  let tokenDecimals ← callToken d.marketplace (Token.decimals listing.token)
  let invoice ← callInvoiceNft config (InvoiceNft.getInvoice invoiceId)
  let effectiveFeeBps ← gets fun w =>
    (w.marketplace.tierFeeBps (tierOrdinal invoice.riskTier)).getD config.feeBps
  let fee ← check (bpsOfNormalized amount effectiveFeeBps tokenDecimals)
  let net ← check (okOr (checkedSub amount fee) .arithmeticOverflow)
  collectContribution config listing.token investor fee net
  let fundedAmount ← check (safeAdd listing.fundedAmount amount)
  let prevContrib ← gets fun w => ((w.marketplace.contribution invoiceId)[investor]?).getD 0
  let newContrib ← check (safeAdd prevContrib net)
  modifyOwn fun S => { S with
    contribution := Function.update S.contribution invoiceId
      ((S.contribution invoiceId).insert investor newContrib) }
  let fullyFunded := decide (listing.askingPrice ≤ fundedAmount)
  putListing invoiceId { listing with
    fundedAmount
    isActive := listing.isActive && !fullyFunded }
  if fullyFunded = true then
    callFrom d.marketplace config.financingPool d.financingPool
      (FinancingPool.releaseFunds d.marketplace invoiceId listing.token)

/-! ## Cancellation and refunds -/

/-- Cancel a listing. -/
def cancelListing (caller : Address) (invoiceId : ℕ) : Host World Unit := do
  requireAuth caller
  let listing ← loadListing invoiceId
  ensure (listing.isActive = true) .listingAlreadyCancelled
  let config ← loadConfig
  ensure (caller = listing.seller ∨ caller = config.admin) .unauthorized
  putListing invoiceId { listing with isActive := false }

/-- Request the cancellation of a listing; without contributions it takes effect at once. -/
def requestCancellation (caller : Address) (invoiceId : ℕ) : Host World Unit := do
  requireAuth caller
  let listing ← loadListing invoiceId
  ensure (listing.isActive = true) .listingAlreadyCancelled
  let config ← loadConfig
  ensure (caller = listing.seller ∨ caller = config.admin) .unauthorized
  if listing.fundedAmount = 0 then
    putListing invoiceId { listing with isActive := false }
  else
    let pending ← gets fun w => w.marketplace.cancellationRequest invoiceId
    ensure (pending = none) .cancellationPending
    modifyOwn fun S => { S with
      cancellationRequest := Function.update S.cancellationRequest invoiceId (some caller) }

/-- Confirm a requested cancellation. -/
def adminConfirmCancellation (admin : Address) (invoiceId : ℕ) : Host World Unit := do
  requireAuth admin
  let _ ← requireAdmin admin
  let pending ← gets fun w => w.marketplace.cancellationRequest invoiceId
  ensure (pending.isSome = true) .noCancellationPending
  let listing ← loadListing invoiceId
  ensure (listing.isActive = true) .listingAlreadyCancelled
  putListing invoiceId { listing with isActive := false }
  modifyOwn fun S => { S with
    cancellationRequest := Function.update S.cancellationRequest invoiceId none
    cancellationConfirmed := Function.update S.cancellationConfirmed invoiceId true }

/-- Claim back the contribution to a listing that did not reach its price. -/
def claimRefund (investor : Address) (invoiceId : ℕ) : Host World Unit := do
  requireAuth investor
  let listing ← loadListing invoiceId
  ensure (listing.fundedAmount < listing.askingPrice) .listingFullyFunded
  let confirmed ← gets fun w => w.marketplace.cancellationConfirmed invoiceId
  let now ← timestamp
  ensure (confirmed = true ∨ listing.fundingDeadline < now) .fundingNotExpired
  let claimed ← gets fun w => w.marketplace.refundClaimed invoiceId investor
  ensure (claimed = false) .refundAlreadyClaimed
  let netContributed ← gets fun w => ((w.marketplace.contribution invoiceId)[investor]?).getD 0
  ensure (0 < netContributed) .noContribution
  modifyOwn fun S => { S with
    refundClaimed := Function.update S.refundClaimed invoiceId
      (Function.update (S.refundClaimed invoiceId) investor true) }
  let config ← loadConfig
  let d ← net
  callToken d.marketplace
    (Token.transfer listing.token config.financingPool investor netContributed)

/-! ## Views -/

/-- The flat fee. -/
def getFeeBps : Host World ℕ := do
  let config ← loadConfig
  pure config.feeBps

/-- The fee of a risk tier. -/
def getTierFeeBps (tier : RiskTier) : Host World ℕ := do
  let fee ← gets fun w => w.marketplace.tierFeeBps (tierOrdinal tier)
  match fee with
  | some fee => pure fee
  | none =>
    let config ← attempt loadConfig
    pure ((config.map MarketplaceConfig.feeBps).getD 50)

/-- The configuration. -/
def getConfig : Host World MarketplaceConfig := loadConfig

/-- The admin. -/
def getAdmin : Host World Address := do
  let config ← loadConfig
  pure config.admin

/-! ## Entry points -/

/-- The entry points that write. -/
inductive Op : Type
  | initializeContract
      (admin invoiceNft financingPool treasury accessControl riskRegistry : Address) (feeBps : ℕ)
  | setReferrerSplitBps (admin : Address) (referrerSplitBps : ℕ)
  | setFeeBps (admin : Address) (feeBps : ℕ)
  | updateFeeBps (admin : Address) (feeBps : ℕ)
  | setTierFeeBps (admin : Address) (tier : RiskTier) (feeBps : ℕ)
  | whitelistToken (admin token : Address)
  | removeTokenWhitelist (admin token : Address)
  | listInvoice (seller : Address) (invoiceId : ℕ) (askingPrice faceValue : ℤ) (token : Address)
      (fundingDeadline : ℕ) (referrer : Option Address)
  | fundInvoice (investor : Address) (invoiceId : ℕ) (amount : ℤ)
  | cancelListing (caller : Address) (invoiceId : ℕ)
  | requestCancellation (caller : Address) (invoiceId : ℕ)
  | adminConfirmCancellation (admin : Address) (invoiceId : ℕ)
  | claimRefund (investor : Address) (invoiceId : ℕ)
  deriving DecidableEq

/-- Run an entry point. -/
def Op.exec : Op → Host World Unit
  | .initializeContract admin nft fp treasury ac rr bps =>
    Marketplace.initializeContract admin nft fp treasury ac rr bps
  | .setReferrerSplitBps admin bps => Marketplace.setReferrerSplitBps admin bps
  | .setFeeBps admin bps => Marketplace.setFeeBps admin bps
  | .updateFeeBps admin bps => Marketplace.updateFeeBps admin bps
  | .setTierFeeBps admin tier bps => Marketplace.setTierFeeBps admin tier bps
  | .whitelistToken admin token => Marketplace.whitelistToken admin token
  | .removeTokenWhitelist admin token => Marketplace.removeTokenWhitelist admin token
  | .listInvoice seller id price face token deadline referrer =>
    Marketplace.listInvoice seller id price face token deadline referrer
  | .fundInvoice investor id amount => Marketplace.fundInvoice investor id amount
  | .cancelListing caller id => Marketplace.cancelListing caller id
  | .requestCancellation caller id => Marketplace.requestCancellation caller id
  | .adminConfirmCancellation admin id => Marketplace.adminConfirmCancellation admin id
  | .claimRefund investor id => Marketplace.claimRefund investor id

end Kora.Marketplace
