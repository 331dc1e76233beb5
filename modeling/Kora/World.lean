import Kora.PriceOracle
import Kora.Treasury
import Kora.Lib.FinMap
import Kora.InvoiceNft

set_option autoImplicit false

/-!
# The ledger

`World` is the ledger the protocol lives on: the clock, the storage of every contract and the
tokens. The storages of the financing pool and of the marketplace, whose bodies call the other
contracts, are declared here; the bodies of the other contracts are run on their part of the
ledger.

* `onAccessControl_ok`, …: each part of the ledger a body may change;
* `newTransfers`: the token transfers between two ledgers.
-/

namespace Kora

/-- The storage of the financing pool. -/
structure FinancingPool.Storage where
  admin : Option Address := none
  invoiceNft : Option Address := none
  riskRegistry : Option Address := none
  treasury : Option Address := none
  accessControl : Option Address := none
  latePenaltyBps : Option ℕ := none
  priceOracle : Option Address := none
  maxPositionBps : Option ℕ := none
  pool : ℕ → Option Pool := fun _ => none
  positions : ℕ → FinMap Address Position := fun _ => ∅
  repaymentLock : ℕ → Bool := fun _ => false
  saleOffer : ℕ → Address → Option PositionSaleOffer := fun _ _ => none
  earlySettlement : ℕ → Option EarlySettlementOffer := fun _ => none
  aggregateFunded : Address → Option ℤ := fun _ => none

/-- The packed configuration of the marketplace. -/
structure Marketplace.MarketplaceConfig where
  admin : Address
  invoiceNft : Address
  financingPool : Address
  treasury : Address
  accessControl : Address
  riskRegistry : Address
  feeBps : ℕ
  referrerSplitBps : ℕ
  deriving DecidableEq, Repr

/-- The storage of the marketplace: the packed configuration, the individual keys it replaced,
and the listings. -/
structure Marketplace.Storage where
  config : Option Marketplace.MarketplaceConfig := none
  admin : Option Address := none
  invoiceNft : Option Address := none
  financingPool : Option Address := none
  treasury : Option Address := none
  accessControl : Option Address := none
  riskRegistry : Option Address := none
  feeBps : Option ℕ := none
  listing : ℕ → Option Listing := fun _ => none
  whitelistedToken : Address → Bool := fun _ => false
  tierFeeBps : ℕ → Option ℕ := fun _ => none
  contribution : ℕ → FinMap Address ℤ := fun _ => ∅
  refundClaimed : ℕ → Address → Bool := fun _ _ => false
  referrer : ℕ → Option Address := fun _ => none
  cancellationRequest : ℕ → Option Address := fun _ => none
  cancellationConfirmed : ℕ → Bool := fun _ => false
  lock : Bool := false

/-- The ledger. -/
structure World where
  now : ℕ
  accessControl : AccessControl.Storage
  invoiceNft : InvoiceNft.Storage
  marketplace : Marketplace.Storage
  pool : FinancingPool.Storage
  treasury : Treasury.Storage
  riskRegistry : RiskRegistry.Storage
  priceOracle : PriceOracle.Storage
  tokens : Tokens

section Parts

open Exec

variable {α : Type}

/-- Run a body of access control. -/
def onAccessControl (m : AccessControl.Body α) : Host World α :=
  zoom World.accessControl (fun S w => { w with accessControl := S }) m

/-- Run a body of the price oracle. -/
def onPriceOracle (m : PriceOracle.Body α) : Host World α :=
  zoom World.priceOracle (fun S w => { w with priceOracle := S }) m

/-- Run a body of the treasury. -/
def onTreasury (m : Host Treasury.State α) : Host World α :=
  zoom (fun w => (w.treasury, w.tokens)) (fun s w => { w with treasury := s.1, tokens := s.2 }) m

/-- Run a body of the risk registry. -/
def onRiskRegistry (m : Host RiskRegistry.State α) : Host World α :=
  zoom (fun w => (w.riskRegistry, w.tokens))
    (fun s w => { w with riskRegistry := s.1, tokens := s.2 }) m

/-- Run a body of the invoice contract. -/
def onInvoiceNft (m : InvoiceNft.Body α) : Host World α :=
  zoom (fun w => ⟨w.invoiceNft, w.accessControl, w.riskRegistry⟩)
    (fun s w => { w with
      invoiceNft := s.own
      accessControl := s.accessControl
      riskRegistry := s.riskRegistry }) m

/-- Contract `self` calls a token contract. -/
def callToken (self : Address) (m : Host Tokens α) : Host World α :=
  Token.callFrom World.tokens (fun T w => { w with tokens := T }) self m

variable {env : Env} {w w' : World} {a : α}

theorem onAccessControl_ok {m : AccessControl.Body α} :
    onAccessControl m env w = .ok a w' ↔
      ∃ S, m env w.accessControl = .ok a S ∧ { w with accessControl := S } = w' := zoom_ok

theorem onPriceOracle_ok {m : PriceOracle.Body α} :
    onPriceOracle m env w = .ok a w' ↔
      ∃ S, m env w.priceOracle = .ok a S ∧ { w with priceOracle := S } = w' := zoom_ok

theorem onTreasury_ok {m : Host Treasury.State α} : onTreasury m env w = .ok a w' ↔
    ∃ s, m env (w.treasury, w.tokens) = .ok a s ∧
      { w with treasury := s.1, tokens := s.2 } = w' := zoom_ok

theorem onRiskRegistry_ok {m : Host RiskRegistry.State α} :
    onRiskRegistry m env w = .ok a w' ↔
      ∃ s, m env (w.riskRegistry, w.tokens) = .ok a s ∧
        { w with riskRegistry := s.1, tokens := s.2 } = w' := zoom_ok

theorem onInvoiceNft_ok {m : InvoiceNft.Body α} : onInvoiceNft m env w = .ok a w' ↔
    ∃ s, m env ⟨w.invoiceNft, w.accessControl, w.riskRegistry⟩ = .ok a s ∧
      { w with
        invoiceNft := s.own
        accessControl := s.accessControl
        riskRegistry := s.riskRegistry } = w' := zoom_ok

theorem callToken_ok {self : Address} {m : Host Tokens α} : callToken self m env w = .ok a w' ↔
    ∃ T, m (env.from self) w.tokens = .ok a T ∧ { w with tokens := T } = w' := Token.callFrom_ok

theorem callToken_transfer_ok {self token src dst : Address} {amount : ℤ} {u : Unit} :
    callToken self (Token.transfer token src dst amount) env w = .ok u w' ↔
      (w.tokens.asksAuth token = true → (env.from self).Authenticates src) ∧
        (w.tokens.decimals token).isSome = true ∧ 0 ≤ amount ∧
        amount ≤ w.tokens.balance token src ∧
        w' = { w with tokens := w.tokens.move token src dst amount } := by
  simp only [callToken_ok, Token.transfer_ok]
  constructor
  · rintro ⟨T, ⟨h₁, h₂, h₃, h₄, rfl⟩, rfl⟩
    exact ⟨h₁, h₂, h₃, h₄, rfl⟩
  · rintro ⟨h₁, h₂, h₃, h₄, rfl⟩
    exact ⟨_, ⟨h₁, h₂, h₃, h₄, rfl⟩, rfl⟩

theorem callToken_decimals_ok {self token : Address} {d : ℕ} :
    callToken self (Token.decimals token) env w = .ok d w' ↔
      w.tokens.decimals token = some d ∧ w = w' := by
  simp only [callToken_ok, Token.decimals_ok]
  constructor
  · rintro ⟨T, ⟨h, rfl⟩, rfl⟩
    exact ⟨h, rfl⟩
  · rintro ⟨h, rfl⟩
    exact ⟨_, ⟨h, rfl⟩, rfl⟩

theorem traps_callToken {self : Address} {m : Host Tokens α} : Traps (callToken self m) :=
  traps_local

end Parts

/-! ## Transfers -/

/-- The transfers that lead from one ledger to a later one. -/
def newTransfers (w w' : World) : List Transfer :=
  w'.tokens.transfers.drop w.tokens.transfers.length

section NewTransfers

variable {w w' : World} {account token src dst : Address} {amount : ℤ}
  {payments : List (Address × ℤ)}

theorem newTransfers_of_append {ts : List Transfer}
    (h : w'.tokens.transfers = w.tokens.transfers ++ ts) : newTransfers w w' = ts := by
  rw [newTransfers, h, List.drop_left]

theorem newTransfers_of_same (h : w'.tokens = w.tokens) : newTransfers w w' = [] :=
  newTransfers_of_append (by rw [h, List.append_nil])

theorem newTransfers_of_move (h : w'.tokens = w.tokens.move token src dst amount) :
    newTransfers w w' = [⟨token, src, dst, amount⟩] :=
  newTransfers_of_append (by rw [h, Tokens.move_transfers])

theorem newTransfers_of_payAll (h : w'.tokens = w.tokens.payAll token src payments) :
    newTransfers w w' = payments.map fun p => ⟨token, src, p.1, p.2⟩ :=
  newTransfers_of_append (by rw [h, Tokens.payAll_transfers])

theorem newTransfers_of_move_payAll
    (h : w'.tokens = (w.tokens.move token src dst amount).payAll token dst payments) :
    newTransfers w w' = ⟨token, src, dst, amount⟩ :: payments.map fun p => ⟨token, dst, p.1, p.2⟩ :=
  newTransfers_of_append (by
    rw [h, Tokens.payAll_transfers, Tokens.move_transfers, List.append_assoc]
    rfl)

end NewTransfers

end Kora
