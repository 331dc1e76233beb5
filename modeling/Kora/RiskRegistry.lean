import Kora.Token
import Kora.Shared.Audit

set_option autoImplicit false

/-!
# The risk registry

`risk_registry/src/lib.rs`: staked verifiers, SME profiles, recorded defaults and debtor scores.
Only adding and removing a verifier see the tokens.
-/

namespace Kora.RiskRegistry

open Exec

/-- Seconds between two updates of a debtor score by one verifier. -/
def minScoreUpdateInterval : ℕ := 3_600

/-- The storage of the contract. -/
structure Storage where
  admin : Option Address := none
  invoiceNft : Option Address := none
  stakingToken : Option Address := none
  minimumStake : Option ℤ := none
  slashPercentage : Option ℕ := none
  verifier : Address → Bool := fun _ => false
  verifierStake : Address → Option ℤ := fun _ => none
  verifierReputation : Address → Option ℕ := fun _ => none
  smeProfile : Address → Option SmeProfile := fun _ => none
  debtorScore : Bytes → Option ℕ := fun _ => none
  debtorScoreLastUpdate : Address → Bytes → Option ℕ := fun _ _ => none
  audit : AuditLog := {}
  lock : Bool := false

/-- A body that touches the contract's own storage only. -/
abbrev Body (α : Type) : Type := Host Storage α

/-- The storage together with the tokens. -/
abbrev State : Type := Storage × Tokens

/-- Run a body on the storage. -/
def own {α : Type} (m : Body α) : Host State α := zoom Prod.fst (fun S s => (S, s.2)) m

/-- Call a token. -/
def callToken {α : Type} (m : Host Tokens α) : Host State α := do
  let d ← net
  Token.callFrom Prod.snd (fun T s => (s.1, T)) d.riskRegistry m

/-- Run `m` under the reentrancy guard. -/
def guard {α : Type} (m : Body α) : Body α :=
  guarded Storage.lock (fun b S => { S with lock := b }) m

/-- Only the stored admin passes. -/
def requireAdmin (caller : Address) : Body Unit := do
  let admin ← fetch Storage.admin .notInitialized
  ensure (admin = caller) .notAdmin

/-- Only verifiers pass. -/
def requireVerifier (caller : Address) : Body Unit := do
  let ok ← gets fun S => S.verifier caller
  ensure (ok = true) .notVerifier

/-- Only the invoice contract passes. -/
def requireInvoiceNft (caller : Address) : Body Unit := do
  let invoiceNft ← fetch (fun S => S.invoiceNft) .notInitialized
  ensure (invoiceNft = caller) .unauthorized

/-- Record an administrative action. -/
def appendAuditEntry (actor : Address) (action : AdminActionType) : Body Unit := do
  let now ← timestamp
  modify fun S => { S with audit := S.audit.append .riskRegistry now actor action }

/-- Store a profile. -/
def putProfile (sme : Address) (profile : SmeProfile) : Body Unit :=
  modify fun S => { S with smeProfile := Function.update S.smeProfile sme (some profile) }

/-- One-time initialisation. -/
def initializeContract (admin invoiceNft stakingToken : Address) (minimumStake : ℤ)
    (slashPercentageBps : ℕ) : Body Unit := do
  let old ← gets Storage.admin
  ensure (old = none) .alreadyInitialized
  let d ← net
  check (requireNotSelf d.riskRegistry admin)
  modify fun S => { S with
    admin := some admin
    invoiceNft := some invoiceNft
    stakingToken := some stakingToken
    minimumStake := some minimumStake
    slashPercentage := some slashPercentageBps }

/-- Hand the admin role over. -/
def transferAdmin (admin newAdmin : Address) : Body Unit := do
  requireAuth admin
  requireAdmin admin
  modify fun S => { S with admin := some newAdmin }
  appendAuditEntry admin .registryTransferAdmin

/-- Add a verifier, who deposits a stake. -/
def addVerifier (admin verifier : Address) (stakeAmount : ℤ) : Host State Unit := do
  requireAuth admin
  let d ← net
  let token ← own do
    requireAdmin admin
    check (requireNotSelf d.riskRegistry verifier)
    let minimumStake ← fetch (fun S => S.minimumStake) .notInitialized
    ensure (minimumStake ≤ stakeAmount) .insufficientFunds
    fetch (fun S => S.stakingToken) .notInitialized
  callToken (Token.transfer token verifier d.riskRegistry stakeAmount)
  own do
    modify fun S => { S with
      verifier := Function.update S.verifier verifier true
      verifierStake := Function.update S.verifierStake verifier (some stakeAmount)
      verifierReputation := Function.update S.verifierReputation verifier (some 100) }
    appendAuditEntry admin .addVerifier

/-- Remove a verifier and return the stake. -/
def removeVerifier (admin verifier : Address) : Host State Unit := do
  requireAuth admin
  let d ← net
  let stake ← own do
    requireAdmin admin
    requireVerifier verifier
    gets fun S => (S.verifierStake verifier).getD 0
  if 0 < stake then
    let token ← own (fetch (fun S => S.stakingToken) .notInitialized)
    callToken (Token.transfer token d.riskRegistry verifier stake)
  own do
    modify fun S => { S with
      verifier := Function.update S.verifier verifier false
      verifierStake := Function.update S.verifierStake verifier none
      verifierReputation := Function.update S.verifierReputation verifier none }
    appendAuditEntry admin .removeVerifier

/-- Register an SME. -/
def registerSme (verifier sme : Address) (riskScore : ℕ) (complianceAttested : Bool) :
    Body Unit := do
  requireAuth verifier
  requireVerifier verifier
  check (requireValidRiskScore riskScore)
  let old ← gets fun S => S.smeProfile sme
  ensure (old = none) .alreadyInitialized
  let now ← timestamp
  putProfile sme {
    address := sme
    verified := true
    verifier
    riskScore
    totalInvoices := 0
    defaults := 0
    registeredAt := now
    complianceAttested
    creditLimit := 0 }

/-- Update the risk score of an SME. -/
def updateSmeScore (verifier sme : Address) (newScore : ℕ) : Body Unit := do
  requireAuth verifier
  requireVerifier verifier
  check (requireValidRiskScore newScore)
  guard do
    let profile ← fetch (fun S => S.smeProfile sme) .smeNotRegistered
    putProfile sme { profile with riskScore := newScore }

/-- Set the credit limit of an SME. -/
def setCreditLimit (verifier sme : Address) (creditLimit : ℤ) : Body Unit := do
  requireAuth verifier
  requireVerifier verifier
  ensure (0 ≤ creditLimit) .invalidAmount
  let profile ← fetch (fun S => S.smeProfile sme) .smeNotRegistered
  putProfile sme { profile with creditLimit }

/-- Count an invoice of an SME. -/
def incrementInvoiceCount (caller sme : Address) : Body Unit := do
  requireAuth caller
  requireInvoiceNft caller
  let profile ← fetch (fun S => S.smeProfile sme) .smeNotRegistered
  let totalInvoices ← check (okOr (checkedAddU32 profile.totalInvoices 1) .arithmeticOverflow)
  putProfile sme { profile with totalInvoices }

/-- Record a default of an SME, slashing the stake and the reputation of its verifier. -/
def recordDefault (admin sme : Address) : Body Unit := do
  requireAuth admin
  requireAdmin admin
  guard do
    let profile ← fetch (fun S => S.smeProfile sme) .smeNotRegistered
    let defaults ← check (okOr (checkedAddU32 profile.defaults 1) .arithmeticOverflow)
    let verifier := profile.verifier
    let slashPercentage ← fetch (fun S => S.slashPercentage) .notInitialized
    let currentStake ← gets fun S => (S.verifierStake verifier).getD 0
    if 0 < currentStake then
      -- the product is taken in `u128` and traps on overflow
      require (currentStake * slashPercentage < 2 ^ 128) .trap
      let remainingStake ← check (okOr
        (checkedSub currentStake (currentStake * slashPercentage / 10_000)) .arithmeticUnderflow)
      modify fun S => { S with
        verifierStake := Function.update S.verifierStake verifier (some remainingStake) }
    modify fun S => { S with
      verifierReputation := Function.update S.verifierReputation verifier
        (some ((S.verifierReputation verifier).getD 100 - 10)) }
    putProfile sme { profile with defaults }
    appendAuditEntry admin .recordDefault

/-- Store a debtor score. -/
def setDebtorScore (verifier : Address) (debtorHash : Bytes) (score : ℕ) : Body Unit := do
  requireAuth verifier
  requireVerifier verifier
  check (requireExactLength debtorHash 32)
  check (requireValidRiskScore score)
  let now ← timestamp
  let last ← gets fun S => S.debtorScoreLastUpdate verifier debtorHash
  match last with
  | some lastUpdate =>
    let nextAllowed ← check (okOr (checkedAddU64 lastUpdate minScoreUpdateInterval)
      .arithmeticOverflow)
    ensure (nextAllowed ≤ now) .scoreUpdateCooldownNotElapsed
  | none => pure ()
  modify fun S => { S with
    debtorScore := Function.update S.debtorScore debtorHash (some score)
    debtorScoreLastUpdate := Function.update S.debtorScoreLastUpdate verifier
      (Function.update (S.debtorScoreLastUpdate verifier) debtorHash (some now)) }

/-- The profile of an SME. -/
def getSmeProfile (sme : Address) : Body SmeProfile :=
  fetch (fun S => S.smeProfile sme) .smeNotRegistered

/-- Whether an SME has attested compliance. -/
def isComplianceAttested (sme : Address) : Body Bool :=
  gets fun S => ((S.smeProfile sme).map SmeProfile.complianceAttested).getD false

/-- A page of the audit log, newest entry first. -/
def getAuditLog (page pageSize : ℕ) : Body (List AdminAuditEntry) := do
  let log ← gets Storage.audit
  ofOption (log.getAuditLog page pageSize) .trap

/-- The entry points that write. -/
inductive Op : Type
  | initializeContract (admin invoiceNft stakingToken : Address) (minimumStake : ℤ)
      (slashPercentageBps : ℕ)
  | transferAdmin (admin newAdmin : Address)
  | addVerifier (admin verifier : Address) (stakeAmount : ℤ)
  | removeVerifier (admin verifier : Address)
  | registerSme (verifier sme : Address) (riskScore : ℕ) (complianceAttested : Bool)
  | updateSmeScore (verifier sme : Address) (newScore : ℕ)
  | setCreditLimit (verifier sme : Address) (creditLimit : ℤ)
  | incrementInvoiceCount (caller sme : Address)
  | recordDefault (admin sme : Address)
  | setDebtorScore (verifier : Address) (debtorHash : Bytes) (score : ℕ)

/-- Run an entry point. -/
def Op.exec : Op → Host State Unit
  | .initializeContract admin nft token stake slash =>
    own (RiskRegistry.initializeContract admin nft token stake slash)
  | .transferAdmin admin newAdmin => own (RiskRegistry.transferAdmin admin newAdmin)
  | .addVerifier admin verifier stake => RiskRegistry.addVerifier admin verifier stake
  | .removeVerifier admin verifier => RiskRegistry.removeVerifier admin verifier
  | .registerSme verifier sme score attested =>
    own (RiskRegistry.registerSme verifier sme score attested)
  | .updateSmeScore verifier sme score => own (RiskRegistry.updateSmeScore verifier sme score)
  | .setCreditLimit verifier sme limit => own (RiskRegistry.setCreditLimit verifier sme limit)
  | .incrementInvoiceCount caller sme => own (RiskRegistry.incrementInvoiceCount caller sme)
  | .recordDefault admin sme => own (RiskRegistry.recordDefault admin sme)
  | .setDebtorScore verifier hash score => own (RiskRegistry.setDebtorScore verifier hash score)

end Kora.RiskRegistry
