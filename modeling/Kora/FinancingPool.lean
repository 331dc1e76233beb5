import Kora.World

set_option autoImplicit false

/-!
# The financing pool

`financing_pool/src/lib.rs`: the pool of a funded invoice, the positions of its investors,
repayment and distribution, defaults, early settlement and the secondary market.
-/

namespace Kora.FinancingPool

open Exec

/-! ## Helpers -/

section Helpers

/-- Change the contract's own storage. -/
def modifyOwn (f : Storage → Storage) : Host World Unit :=
  modify fun w => { w with pool := f w.pool }

/-- Only the stored admin passes. -/
def requireAdmin (caller : Address) : Host World Unit := do
  let admin ← fetch (fun w => w.pool.admin) .notInitialized
  ensure (admin = caller) .notAdmin

/-- Fail while the protocol is paused. -/
def requireNotPaused : Host World Unit := do
  let ac ← fetch (fun w => w.pool.accessControl) .notInitialized
  let d ← net
  let paused ← callFrom d.financingPool ac d.accessControl (onAccessControl AccessControl.isPaused)
  ensure (paused = false) .protocolPaused

/-- Call the invoice contract. -/
def callInvoiceNft {α : Type} (m : InvoiceNft.Body α) : Host World α := do
  let nft ← fetch (fun w => w.pool.invoiceNft) .notInitialized
  let d ← net
  callFrom d.financingPool nft d.invoiceNft (onInvoiceNft m)

/-- Read an invoice. -/
def loadInvoice (invoiceId : ℕ) : Host World Invoice :=
  callInvoiceNft (InvoiceNft.getInvoice invoiceId)

/-- Read a pool. -/
def loadPool (invoiceId : ℕ) : Host World Pool :=
  fetch (fun w => w.pool.pool invoiceId) .poolNotFound

/-- Write a pool. -/
def putPool (invoiceId : ℕ) (pool : Pool) : Host World Unit :=
  modifyOwn fun S => { S with pool := Function.update S.pool invoiceId (some pool) }

/-- Fail while the repayment lock of an invoice is held. -/
def requireUnlocked (invoiceId : ℕ) : Host World Unit := do
  let locked ← gets fun w => w.pool.repaymentLock invoiceId
  ensure (locked = false) .unauthorized

/-- Set or remove the repayment lock of an invoice. -/
def setRepaymentLock (invoiceId : ℕ) (held : Bool) : Host World Unit :=
  modifyOwn fun S => { S with repaymentLock := Function.update S.repaymentLock invoiceId held }

/-- The amount a repayment is credited with: the invoice currency is converted to USDC. -/
def convertIfNeeded (amount : ℤ) (invoiceCurrency : Symbol) (_poolToken : Address) :
    Host World ℤ := do
  let oracle ← gets fun w => w.pool.priceOracle
  match oracle with
  | none => pure amount
  | some oracle =>
    let d ← net
    callFrom d.financingPool oracle d.priceOracle
      (onPriceOracle (PriceOracle.convert amount invoiceCurrency "USDC"))

/-- Pay the investors of the list and return the sum of their contributions. -/
def payInvestors (token : Address) (totalRepaid : ℤ) (tokenDecimals : ℕ) :
    List (Address × Position) → ℤ → Host World ℤ
  | [], totalContributed => pure totalContributed
  | (investor, position) :: rest, totalContributed => do
    let payout ← check (bpsOfNormalized totalRepaid position.shareBps tokenDecimals)
    let _yieldAmount ← check (okOr (checkedSub payout position.contributed) .arithmeticOverflow)
    let d ← net
    callToken d.financingPool (Token.transfer token d.financingPool investor payout)
    payInvestors token totalRepaid tokenDecimals rest
      (saturatingAdd totalContributed position.contributed)

/-- Pay every investor of an invoice its share of `totalRepaid`. -/
def distributeYield (invoiceId : ℕ) (token : Address) (totalRepaid _faceValue : ℤ) :
    Host World Unit := do
  let positions ← gets fun w => w.pool.positions invoiceId
  let d ← net
  let tokenDecimals ← callToken d.financingPool (Token.decimals token)
  let totalContributed ← payInvestors token totalRepaid tokenDecimals positions.toList 0
  modifyOwn fun S => { S with
    aggregateFunded := Function.update S.aggregateFunded token
      (some (saturatingSub ((S.aggregateFunded token).getD 0) totalContributed)) }

end Helpers

/-! ## Administration -/

/-- One-time initialisation. -/
def initializeContract (admin invoiceNft riskRegistry treasury accessControl : Address)
    (latePenaltyBps : ℕ) (priceOracle : Address) (maxPositionBps : ℕ) : Host World Unit := do
  let old ← gets fun w => w.pool.admin
  ensure (old = none) .alreadyInitialized
  check (requireValidFeeBps latePenaltyBps)
  ensure (maxPositionBps ≠ 0 ∧ maxPositionBps ≤ 10_000) .invalidFeeRate
  let d ← net
  check (requireNotSelf d.financingPool admin)
  check (requireNotSelf d.financingPool invoiceNft)
  check (requireNotSelf d.financingPool riskRegistry)
  check (requireNotSelf d.financingPool treasury)
  check (requireNotSelf d.financingPool accessControl)
  modifyOwn fun S => { S with
    admin := some admin
    invoiceNft := some invoiceNft
    riskRegistry := some riskRegistry
    treasury := some treasury
    accessControl := some accessControl
    latePenaltyBps := some latePenaltyBps
    priceOracle := some priceOracle
    maxPositionBps := some maxPositionBps }

/-- Update the concentration cap of an investor. -/
def setMaxPositionBps (admin : Address) (maxPositionBps : ℕ) : Host World Unit := do
  requireAuth admin
  requireAdmin admin
  ensure (maxPositionBps ≠ 0 ∧ maxPositionBps ≤ 10_000) .invalidFeeRate
  modifyOwn fun S => { S with maxPositionBps := some maxPositionBps }

/-- Open the pool of a fully funded invoice. Called by the marketplace. -/
def releaseFunds (marketplace : Address) (invoiceId : ℕ) (token : Address) :
    Host World Unit := do
  requireAuth marketplace
  requireNotPaused
  let old ← gets fun w => w.pool.pool invoiceId
  ensure (old = none) .poolAlreadyClosed
  let d ← net
  ensure (token ≠ d.financingPool) .invalidAddress
  let invoice ← loadInvoice invoiceId
  ensure (0 < invoice.amount ∧ invoice.amount ≤ maxAmount) .invalidAmount
  let latePenaltyBps ← fetch (fun w => w.pool.latePenaltyBps) .notInitialized
  putPool invoiceId {
    invoiceId
    token
    totalFunded := 0
    faceValue := invoice.amount
    repaidAmount := 0
    isClosed := false
    latePenaltyBps
    totalOwed := invoice.amount
    penaltyApplied := false }
  callInvoiceNft (InvoiceNft.setFunded d.financingPool invoiceId)

/-! ## Positions -/

/-- The share of a position in basis points: `contributed * 10_000 / total_pool`. -/
def shareBpsOf (contributed totalPool : ℤ) : Except KoraError ℕ := do
  let share ← okOr ((checkedMul contributed 10_000).bind fun v => checkedDiv v totalPool)
    .arithmeticOverflow
  pure share.toNat

/-- Register the position of an investor. -/
def recordPosition (caller : Address) (invoiceId : ℕ) (investor : Address)
    (contributed totalPool : ℤ) : Host World Unit := do
  requireAuth caller
  requireAdmin caller
  requireNotPaused
  ensure (0 < contributed ∧ 0 < totalPool) .invalidAmount
  ensure (contributed ≤ totalPool ∧ contributed ≤ maxAmount ∧ totalPool ≤ maxAmount)
    .invalidAmount
  let shareBps ← check (shareBpsOf contributed totalPool)
  let maxPositionBps ← gets fun w => w.pool.maxPositionBps.getD 5_000
  ensure (shareBps ≤ maxPositionBps) .exceedsFundingTarget
  let positions ← gets fun w => w.pool.positions invoiceId
  let oldContributed := (positions[investor]?.map Position.contributed).getD 0
  modifyOwn fun S => { S with
    positions := Function.update S.positions invoiceId
      (positions.insert investor ⟨investor, invoiceId, contributed, shareBps, 0⟩) }
  let pool ← loadPool invoiceId
  let prevAgg ← gets fun w => (w.pool.aggregateFunded pool.token).getD 0
  let newAgg ← check (okOr ((checkedSub prevAgg oldContributed).bind fun v =>
    checkedAdd v contributed) .arithmeticOverflow)
  modifyOwn fun S => { S with
    aggregateFunded := Function.update S.aggregateFunded pool.token (some newAgg) }

/-- Offer a position for sale. -/
def listPositionForSale (seller : Address) (invoiceId : ℕ) (token : Address) (price : ℤ) :
    Host World Unit := do
  requireAuth seller
  requireNotPaused
  ensure (0 < price) .invalidAmount
  let pool ← loadPool invoiceId
  ensure (pool.isClosed = false) .poolAlreadyClosed
  let positions ← gets fun w => w.pool.positions invoiceId
  ensure (positions[seller]?.isSome = true) .positionNotFound
  let old ← gets fun w => w.pool.saleOffer invoiceId seller
  ensure (old = none) .saleAlreadyListed
  modifyOwn fun S => { S with
    saleOffer := Function.update S.saleOffer invoiceId
      (Function.update (S.saleOffer invoiceId) seller (some ⟨seller, invoiceId, token, price⟩)) }

/-- Buy a position that is for sale. -/
def buyPosition (buyer : Address) (invoiceId : ℕ) (seller : Address) : Host World Unit := do
  requireAuth buyer
  requireNotPaused
  let offer ← fetch (fun w => w.pool.saleOffer invoiceId seller) .saleNotFound
  let pool ← loadPool invoiceId
  ensure (pool.isClosed = false) .poolAlreadyClosed
  let positions ← gets fun w => w.pool.positions invoiceId
  let sellerPosition ← fetch (fun w => (w.pool.positions invoiceId)[seller]?) .positionNotFound
  modifyOwn fun S => { S with
    saleOffer := Function.update S.saleOffer invoiceId
      (Function.update (S.saleOffer invoiceId) seller none)
    positions := Function.update S.positions invoiceId
      ((positions.erase seller).insert buyer { sellerPosition with investor := buyer, invoiceId }) }
  let d ← net
  callToken d.financingPool (Token.transfer offer.token buyer seller offer.price)

/-! ## Repayment and default -/

/-- The pool after the late penalty, which is added once, in the first repayment past the due
date. -/
def applyLatePenalty (now dueDate : ℕ) (pool : Pool) : Except KoraError Pool :=
  if pool.penaltyApplied = false ∧ 0 < pool.latePenaltyBps ∧ dueDate < now then do
    let penalty ← bpsOf pool.faceValue pool.latePenaltyBps
    let totalOwed ← okOr (checkedAdd pool.totalOwed penalty) .arithmeticOverflow
    pure { pool with totalOwed, penaltyApplied := true }
  else pure pool

/-- Repay an invoice. -/
def repay (payer : Address) (invoiceId : ℕ) (token : Address) (amount : ℤ) : Host World Unit := do
  requireAuth payer
  ensure (0 < amount ∧ amount ≤ maxAmount) .invalidAmount
  let frozen ← callInvoiceNft (InvoiceNft.isInvoiceFrozen invoiceId)
  ensure (frozen = false) .invoiceFrozen
  requireUnlocked invoiceId
  setRepaymentLock invoiceId true
  let pool ← loadPool invoiceId
  if pool.isClosed = true then
    setRepaymentLock invoiceId false
    throw (.contract .repaymentAlreadyMade)
  let invoice ← loadInvoice invoiceId
  let effectiveAmount ← convertIfNeeded amount invoice.currency pool.token
  let now ← timestamp
  let pool ← check (applyLatePenalty now invoice.dueDate pool)
  let repaidAmount ← check (okOr (checkedAdd pool.repaidAmount effectiveAmount)
    .arithmeticOverflow)
  let shouldClose := decide (pool.totalOwed ≤ repaidAmount)
  let pool := { pool with repaidAmount, isClosed := pool.isClosed || shouldClose }
  putPool invoiceId pool
  let d ← net
  callToken d.financingPool (Token.transfer token payer d.financingPool amount)
  if shouldClose = true then
    distributeYield invoiceId token pool.repaidAmount pool.faceValue
    callInvoiceNft (InvoiceNft.setRepaid d.financingPool invoiceId)
  setRepaymentLock invoiceId false

/-- Record a default of the SME in the risk registry; a failure to do so is ignored. -/
def recordDefaultAt (admin sme : Address) : Host World Unit := do
  let registry ← gets fun w => w.pool.riskRegistry
  match registry with
  | none => pure ()
  | some rr =>
    let d ← net
    let _ ← tryCallFrom d.financingPool rr d.riskRegistry
      (onRiskRegistry (RiskRegistry.own (RiskRegistry.recordDefault admin sme)))

/-- Mark an invoice as defaulted. -/
def markDefault (admin : Address) (invoiceId : ℕ) (token : Address) : Host World Unit := do
  requireAuth admin
  requireAdmin admin
  requireNotPaused
  requireUnlocked invoiceId
  let pool ← loadPool invoiceId
  ensure (pool.isClosed = false) .poolAlreadyClosed
  if 0 < pool.repaidAmount then
    distributeYield invoiceId token pool.repaidAmount pool.faceValue
  callInvoiceNft (InvoiceNft.setDefaulted admin invoiceId)
  let invoice ← loadInvoice invoiceId
  recordDefaultAt admin invoice.sme

/-! ## Early settlement -/

/-- Write or remove the pending early-settlement offer. -/
def putEarlySettlement (invoiceId : ℕ) (offer : Option EarlySettlementOffer) : Host World Unit :=
  modifyOwn fun S => { S with
    earlySettlement := Function.update S.earlySettlement invoiceId offer }

/-- Propose to settle early, escrowing the amount. -/
def proposeEarlySettlement (sme : Address) (invoiceId : ℕ) (amount : ℤ) : Host World Unit := do
  requireAuth sme
  requireNotPaused
  ensure (0 < amount ∧ amount ≤ maxAmount) .invalidAmount
  let pool ← loadPool invoiceId
  ensure (pool.isClosed = false) .poolAlreadyClosed
  ensure (pool.totalFunded ≤ amount ∧ amount < pool.totalOwed) .invalidAmount
  let old ← gets fun w => w.pool.earlySettlement invoiceId
  ensure (old = none) .alreadyInitialized
  let invoice ← loadInvoice invoiceId
  ensure (invoice.sme = sme) .unauthorized
  let d ← net
  callToken d.financingPool (Token.transfer pool.token sme d.financingPool amount)
  putEarlySettlement invoiceId (some ⟨invoiceId, amount, 0, []⟩)

/-- Accept the pending offer; once all shares have accepted, settle. -/
def acceptEarlySettlement (investor : Address) (invoiceId : ℕ) : Host World Unit := do
  requireAuth investor
  requireNotPaused
  requireUnlocked invoiceId
  let offer ← fetch (fun w => w.pool.earlySettlement invoiceId) .poolNotFound
  let pool ← loadPool invoiceId
  ensure (pool.isClosed = false) .poolAlreadyClosed
  let position ← fetch (fun w => (w.pool.positions invoiceId)[investor]?) .unauthorized
  ensure (investor ∉ offer.accepted) .alreadyInitialized
  let acceptedBps ← check (okOr (checkedAddU32 offer.acceptedBps position.shareBps)
    .arithmeticOverflow)
  if 10_000 ≤ acceptedBps then
    setRepaymentLock invoiceId true
    putPool invoiceId { pool with repaidAmount := offer.amount, isClosed := true }
    distributeYield invoiceId pool.token offer.amount pool.faceValue
    let d ← net
    callInvoiceNft (InvoiceNft.setRepaid d.financingPool invoiceId)
    putEarlySettlement invoiceId none
    setRepaymentLock invoiceId false
  else
    putEarlySettlement invoiceId
      (some { offer with acceptedBps, accepted := offer.accepted ++ [investor] })

/-- Cancel the pending offer and refund the escrow. -/
def cancelEarlySettlement (sme : Address) (invoiceId : ℕ) : Host World Unit := do
  requireAuth sme
  let offer ← fetch (fun w => w.pool.earlySettlement invoiceId) .poolNotFound
  let pool ← loadPool invoiceId
  let invoice ← loadInvoice invoiceId
  ensure (invoice.sme = sme) .unauthorized
  putEarlySettlement invoiceId none
  let d ← net
  callToken d.financingPool (Token.transfer pool.token d.financingPool sme offer.amount)

/-! ## Views -/

/-- The positions of an invoice, in the order of their investors. -/
def getPositions (invoiceId : ℕ) : Host World (List Position) := do
  let positions ← gets fun w => w.pool.positions invoiceId
  pure positions.values

/-- Push the positions at the indices to the page; an index out of range traps. -/
def pushRange (all : List Position) : List ℕ → List Position → Host World (List Position)
  | [], page => pure page
  | i :: indices, page => do
    let position ← ofOption all[i]? .trap
    pushRange all indices (page ++ [position])

/-- At most `limit` positions from `offset` on, and never more than a hundred. -/
def getPositionsPage (invoiceId offset limit : ℕ) : Host World (List Position) := do
  let limit := min limit 100
  let positions ← gets fun w => w.pool.positions invoiceId
  let all := positions.values
  let total := all.length
  let start := min offset total
  let stop := min (start + limit) total
  pushRange all (List.range' start (stop - start)) []

/-! ## Entry points -/

/-- The entry points that write. -/
inductive Op : Type
  | initializeContract (admin invoiceNft riskRegistry treasury accessControl : Address)
      (latePenaltyBps : ℕ) (priceOracle : Address) (maxPositionBps : ℕ)
  | setMaxPositionBps (admin : Address) (maxPositionBps : ℕ)
  | releaseFunds (marketplace : Address) (invoiceId : ℕ) (token : Address)
  | recordPosition (caller : Address) (invoiceId : ℕ) (investor : Address)
      (contributed totalPool : ℤ)
  | listPositionForSale (seller : Address) (invoiceId : ℕ) (token : Address) (price : ℤ)
  | buyPosition (buyer : Address) (invoiceId : ℕ) (seller : Address)
  | repay (payer : Address) (invoiceId : ℕ) (token : Address) (amount : ℤ)
  | markDefault (admin : Address) (invoiceId : ℕ) (token : Address)
  | proposeEarlySettlement (sme : Address) (invoiceId : ℕ) (amount : ℤ)
  | acceptEarlySettlement (investor : Address) (invoiceId : ℕ)
  | cancelEarlySettlement (sme : Address) (invoiceId : ℕ)
  deriving DecidableEq

/-- Run an entry point. -/
def Op.exec : Op → Host World Unit
  | .initializeContract admin nft rr treasury ac bps oracle cap =>
    FinancingPool.initializeContract admin nft rr treasury ac bps oracle cap
  | .setMaxPositionBps admin cap => FinancingPool.setMaxPositionBps admin cap
  | .releaseFunds marketplace id token => FinancingPool.releaseFunds marketplace id token
  | .recordPosition caller id investor contributed total =>
    FinancingPool.recordPosition caller id investor contributed total
  | .listPositionForSale seller id token price =>
    FinancingPool.listPositionForSale seller id token price
  | .buyPosition buyer id seller => FinancingPool.buyPosition buyer id seller
  | .repay payer id token amount => FinancingPool.repay payer id token amount
  | .markDefault admin id token => FinancingPool.markDefault admin id token
  | .proposeEarlySettlement sme id amount => FinancingPool.proposeEarlySettlement sme id amount
  | .acceptEarlySettlement investor id => FinancingPool.acceptEarlySettlement investor id
  | .cancelEarlySettlement sme id => FinancingPool.cancelEarlySettlement sme id

end Kora.FinancingPool
