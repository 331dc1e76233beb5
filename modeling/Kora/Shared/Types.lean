import Mathlib.Data.Int.Notation
import Mathlib.Data.Nat.Notation

set_option autoImplicit false

/-!
# Shared types

The records of `shared/src/types.rs` and the error enumeration of `shared/src/errors.rs`.

Machine integers are `ℕ` (`u32`, `u64`) and `ℤ` (`i128`); where the code can overflow it uses
checked arithmetic, modelled in `Kora.Shared.Validation`. Addresses are only compared, for
equality and for their order as map keys.
-/

namespace Kora

/-- An account or contract address. -/
abbrev Address : Type := ℕ

/-- A currency symbol. -/
abbrev Symbol : Type := String

/-- A byte string. -/
abbrev Bytes : Type := List UInt8

/-- The shared error enumeration. -/
inductive KoraError : Type
  | unauthorized | notAdmin | notVerifier | protocolPaused | alreadyPaused | notPaused
  | roleNotAssigned
  | invoiceNotFound | invoiceAlreadyExists | invalidInvoiceStatus | invoiceExpired
  | invalidAmount | invalidDueDate | invalidRiskScore | invalidCid | invoiceFrozen
  | listingNotFound | listingAlreadyCancelled | listingExpired | fundingDeadlinePassed
  | insufficientFunds | exceedsFundingTarget | alreadyFullyFunded | listingFullyFunded
  | fundingNotExpired | refundAlreadyClaimed | noContribution
  | poolNotFound | poolAlreadyClosed | repaymentAlreadyMade | insufficientPoolBalance
  | positionNotFound | saleAlreadyListed | saleNotFound
  | invalidFeeRate | withdrawalFailed | tokenNotWhitelisted | withdrawalRateLimitExceeded
  | withdrawalCapTimelockNotElapsed | noCapChangeProposed
  | smeNotRegistered | debtorNotRegistered | riskScoreOutOfRange | complianceNotAttested
  | arithmeticOverflow | arithmeticUnderflow | invalidAddress | emptyString
  | alreadyInitialized | notInitialized | emptyBytes | fieldTooLong | reentrancy | invalidLength
  | noUpgradeProposed | upgradeTimelockNotElapsed
  | parameterProposalNotFound | parameterProposalExecuted | notMultisigSigner | alreadyVoted
  | governanceThresholdNotMet | governanceTimelockNotElapsed | invalidParameterValue
  | scoreUpdateCooldownNotElapsed | cancellationPending | noCancellationPending
  | invalidThreshold | proposalNotFound | proposalAlreadyExecuted | proposalExpired
  | alreadyApproved | thresholdNotMet | multisigNotConfigured | signerNotFound
  | creditLimitExceeded | notInvoiceOwner | currencyNotAllowed
  deriving DecidableEq, Repr

/-- Invoice lifecycle status: `created → listed → funded → repaid | defaulted`. -/
inductive InvoiceStatus : Type
  | created | listed | funded | repaid | defaulted
  deriving DecidableEq, Repr

/-- Risk tier of an invoice. -/
inductive RiskTier : Type
  | aaa | aa | a | b | c
  deriving DecidableEq, Repr

/-- The tier of a risk score. -/
def RiskTier.fromScore (score : ℕ) : RiskTier :=
  if score ≤ 20 then .aaa
  else if score ≤ 40 then .aa
  else if score ≤ 60 then .a
  else if score ≤ 80 then .b
  else .c

/-- An invoice (schema version 2). -/
structure Invoice where
  id : ℕ
  sme : Address
  debtorHash : Bytes
  amount : ℤ
  currency : Symbol
  dueDate : ℕ
  ipfsCid : String
  metadataHash : Bytes
  riskScore : ℕ
  riskTier : RiskTier
  status : InvoiceStatus
  createdAt : ℕ
  fundedAt : Option ℕ
  repaidAt : Option ℕ
  notes : Option String
  deriving DecidableEq, Repr

/-- A marketplace listing. -/
structure Listing where
  invoiceId : ℕ
  seller : Address
  askingPrice : ℤ
  faceValue : ℤ
  token : Address
  fundedAmount : ℤ
  fundingDeadline : ℕ
  isActive : Bool
  deriving DecidableEq, Repr

/-- An investor position in a pool; `shareBps` is in basis points of the pool. -/
structure Position where
  investor : Address
  invoiceId : ℕ
  contributed : ℤ
  shareBps : ℕ
  yieldClaimed : ℤ
  deriving DecidableEq, Repr

/-- Pool state of a funded invoice. -/
structure Pool where
  invoiceId : ℕ
  token : Address
  totalFunded : ℤ
  faceValue : ℤ
  repaidAmount : ℤ
  isClosed : Bool
  latePenaltyBps : ℕ
  totalOwed : ℤ
  penaltyApplied : Bool
  deriving DecidableEq, Repr

/-- An offer to sell a position. -/
structure PositionSaleOffer where
  seller : Address
  invoiceId : ℕ
  token : Address
  price : ℤ
  deriving DecidableEq, Repr

/-- An SME's early-termination buyout offer. -/
structure EarlySettlementOffer where
  invoiceId : ℕ
  amount : ℤ
  acceptedBps : ℕ
  accepted : List Address
  deriving DecidableEq, Repr

/-- SME profile in the risk registry. -/
structure SmeProfile where
  address : Address
  verified : Bool
  verifier : Address
  riskScore : ℕ
  totalInvoices : ℕ
  defaults : ℕ
  registeredAt : ℕ
  complianceAttested : Bool
  creditLimit : ℤ
  deriving DecidableEq, Repr

/-- An administrative action that the multisig can take; roles are given by number. -/
inductive AdminAction : Type
  | pause
  | unpause
  | grantRole (target : Address) (role : ℕ)
  | revokeRole (target : Address)
  | transferAdmin (newAdmin : Address)
  deriving DecidableEq, Repr

/-- A multisig proposal. -/
structure Proposal where
  id : ℕ
  action : AdminAction
  proposer : Address
  approvals : List Address
  executed : Bool
  createdAt : ℕ
  expiresAt : ℕ
  deriving DecidableEq, Repr

/-- The multisig configuration. -/
structure MultisigConfig where
  threshold : ℕ
  signers : List Address
  deriving DecidableEq, Repr

/-- A governed protocol parameter: the fee, the late penalty, the ceiling for risk scores. -/
inductive ParameterKey : Type
  | feeBps | latePenaltyBps | maxRiskScore
  deriving DecidableEq, Repr

/-- A proposal to change a protocol parameter. -/
structure ParameterProposal where
  id : ℕ
  key : ParameterKey
  newValue : ℕ
  proposer : Address
  approvals : List Address
  createdAt : ℕ
  executed : Bool
  deriving DecidableEq, Repr

end Kora
