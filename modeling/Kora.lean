import Kora.Lib.Exec
import Kora.Lib.Natural
import Kora.Lib.FinMap
import Kora.Lib.Run
import Kora.Lib.Cooldown
import Kora.Lib.Ballot
import Kora.Lib.Apportion
import Kora.Lib.CashBook
import Kora.Lib.RunningTotal
import Kora.Lib.Slot
import Kora.Lib.StakeAccount
import Kora.Lib.RingBuffer
import Kora.Lib.Rescale
import Kora.Lib.Pages
import Kora.Lib.Timelock
import Kora.Lib.Radix
import Kora.Shared.Types
import Kora.Shared.Validation
import Kora.Shared.Decimals
import Kora.Shared.Cid
import Kora.Host
import Kora.Token
import Kora.Shared.Audit
import Kora.Shared.AuditPages
import Kora.AccessControl
import Kora.PriceOracle
import Kora.Treasury
import Kora.RiskRegistry
import Kora.InvoiceNft
import Kora.World
import Kora.FinancingPool
import Kora.Marketplace
import Kora.System
import Kora.Upgrade
import Kora.InvoiceNft.Books
import Kora.InvoiceNft.Spec
import Kora.FinancingPool.Spec
import Kora.Marketplace.Spec
import Kora.System.Effect
import Kora.FinancingPool.Change
import Kora.FinancingPool.Errors
import Kora.FinancingPool.CleanUp
import Kora.FinancingPool.Market
import Kora.System.Status
import Kora.Marketplace.Change
import Kora.Marketplace.Accounting
import Kora.System.Joint
import Kora.Marketplace.Refund
import Kora.Marketplace.Release
import Kora.FinancingPool.Flow
import Kora.FinancingPool.Payouts
import Kora.FinancingPool.Pages
import Kora.FinancingPool.Repayment
import Kora.FinancingPool.Shares
import Kora.FinancingPool.Solvency
import Kora.FinancingPool.Consent
import Kora.FinancingPool.Unanimity
import Kora.System.Gate
import Kora.System.Agreement
import Kora.AccessControl.Spec
import Kora.RiskRegistry.Spec
import Kora.System.Controls
import Kora.System.Registry
import Kora.RiskRegistry.Stake
import Kora.RiskRegistry.Verifiers
import Kora.RiskRegistry.Counters
import Kora.RiskRegistry.Slashing
import Kora.RiskRegistry.Scores
import Kora.AccessControl.Roles
import Kora.AccessControl.Binding
import Kora.AccessControl.Proposals
import Kora.AccessControl.Quorum
import Kora.AccessControl.Attainable
import Kora.InvoiceNft.Refinement
import Kora.System.Books
import Kora.InvoiceNft.Lifecycle
import Kora.InvoiceNft.Exposure
import Kora.InvoiceNft.Migration
import Kora.InvoiceNft.Fields
import Kora.InvoiceNft.Commitment
import Kora.InvoiceNft.Switches
import Kora.InvoiceNft.Currencies
import Kora.System.Pause
import Kora.System.Settlement
import Kora.System.Governance
import Kora.Treasury.RateLimit
import Kora.Treasury.CapChange
import Kora.System.Timelock
import Kora.Marketplace.Initialization
import Kora.System.AuditTrail
import Kora.System.AuditPages
import Kora.System.Purse
import Kora.Treasury.Fees
import Kora.FinancingPool.Aggregate
import Kora.FinancingPool.Distribution
import Kora.FinancingPool.Ledger
import Kora.FinancingPool.Principal
import Kora.FinancingPool.SettlementCredit
import Kora.FinancingPool.Sales
import Kora.Marketplace.Claimable
import Kora.Marketplace.Referral
import Kora.System.Listings
import Kora.System.Freeze
import Kora.FinancingPool.Escrow
import Kora.FinancingPool.Ceiling
import Kora.TransferLog
import Kora.System.Custody
import Kora.Marketplace.LegacyConfig
import Kora.System.Payout
import Kora.Marketplace.Phases
import Kora.System.Prices
import Kora.RiskRegistry.Solvency
import Kora.System.Standstill
import Kora.FinancingPool.Title
import Kora.System.Authority
import Kora.System.Isolation
import Kora.System.Locks
import Kora.System.Drift
import Kora.Marketplace.Completion
import Kora.FinancingPool.Distributing
import Kora.FinancingPool.LateRepayment
import Kora.FinancingPool.PayOff
import Kora.System.Provenance
import Kora.FinancingPool.Settling
import Kora.FinancingPool.WriteOff
