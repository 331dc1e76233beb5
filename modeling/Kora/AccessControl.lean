import Kora.Host
import Kora.Shared.Audit

set_option autoImplicit false

/-!
# Access control

`access_control/src/lib.rs`: the admin, the pause flag and the roles; the multisig, whose signers
propose, approve and execute administrative actions; and the governance of the protocol parameters
by the same signers. The bodies only touch the contract's own storage.
-/

namespace Kora.AccessControl

open Exec

/-- The delay between a parameter proposal and its execution, in seconds. -/
def governanceTimelockDelay : ℕ := upgradeTimelockDelay

/-- What is added to the creation time of a proposal to give its expiry. -/
def proposalTtlLedgers : ℕ := 120_960

/-- The role of an address. -/
inductive Role : Type
  | admin | operator | verifier | none
  deriving DecidableEq, Repr

/-- The storage of the contract. -/
structure Storage where
  admin : Option Address := none
  paused : Option Bool := none
  role : Address → Option Role := fun _ => none
  multisigConfig : Option MultisigConfig := none
  nextProposalId : Option ℕ := none
  proposal : ℕ → Option Proposal := fun _ => none
  parameterProposal : ℕ → Option ParameterProposal := fun _ => none
  nextParamProposalId : Option ℕ := none
  parameter : ParameterKey → Option ℕ := fun _ => none
  audit : AuditLog := {}
  lock : Bool := false

/-- A body of the contract. -/
abbrev Body (α : Type) : Type := Host Storage α

/-- Run `m` under the reentrancy guard. -/
def guard {α : Type} (m : Body α) : Body α :=
  guarded Storage.lock (fun b S => { S with lock := b }) m

/-- Only the stored admin passes. -/
def requireAdmin (caller : Address) : Body Unit := do
  let admin ← fetch Storage.admin .notInitialized
  ensure (admin = caller) .notAdmin

/-- Record an administrative action. -/
def appendAuditEntry (actor : Address) (action : AdminActionType) : Body Unit := do
  let now ← timestamp
  modify fun S => { S with audit := S.audit.append .accessControl now actor action }

/-- One-time initialisation. -/
def initializeContract (admin : Address) : Body Unit := do
  let old ← gets Storage.admin
  ensure (old = none) .alreadyInitialized
  let self ← net
  check (requireNotSelf self.accessControl admin)
  modify fun S => { S with
    admin := some admin
    paused := some false
    role := Function.update S.role admin (some .admin) }

/-- Whether the protocol is paused. -/
def isPaused : Body Bool := gets fun S => S.paused.getD false

/-- Pause the protocol. -/
def pause (admin : Address) : Body Unit := do
  requireAuth admin
  requireAdmin admin
  let paused ← isPaused
  ensure (paused = false) .alreadyPaused
  guard do
    modify fun S => { S with paused := some true }
    appendAuditEntry admin .pause

/-- Unpause the protocol. -/
def unpause (admin : Address) : Body Unit := do
  requireAuth admin
  requireAdmin admin
  let paused ← isPaused
  ensure (paused = true) .notPaused
  guard do
    modify fun S => { S with paused := some false }
    appendAuditEntry admin .unpause

/-- The role of an address, `Role.none` when there is none. -/
def getRole (address : Address) : Body Role := gets fun S => (S.role address).getD .none

/-- Assign a role. -/
def grantRole (admin target : Address) (role : Role) : Body Unit := do
  requireAuth admin
  requireAdmin admin
  ensure (role ≠ .admin) .unauthorized
  ensure (role ≠ .none) .unauthorized
  ensure (target ≠ admin) .unauthorized
  modify fun S => { S with role := Function.update S.role target (some role) }
  appendAuditEntry admin .grantRole

/-- Revoke a role. -/
def revokeRole (admin target : Address) : Body Unit := do
  requireAuth admin
  requireAdmin admin
  let current ← getRole target
  ensure (current ≠ .admin) .unauthorized
  ensure (current ≠ .none) .roleNotAssigned
  modify fun S => { S with role := Function.update S.role target none }
  appendAuditEntry admin .revokeRole

/-- Hand the admin role over. -/
def transferAdmin (currentAdmin newAdmin : Address) : Body Unit := do
  requireAuth currentAdmin
  requireAdmin currentAdmin
  ensure (currentAdmin ≠ newAdmin) .invalidAddress
  let self ← net
  check (requireNotSelf self.accessControl newAdmin)
  let existing ← getRole newAdmin
  ensure (existing = .none ∨ existing = .admin) .unauthorized
  modify fun S => { S with admin := some newAdmin }
  modify fun S => { S with role := Function.update S.role newAdmin (some .admin) }
  modify fun S => { S with role := Function.update S.role currentAdmin none }
  appendAuditEntry currentAdmin .transferAdmin

/-! ## Multisig -/

/-- The multisig configuration. -/
def loadMultisigConfig : Body MultisigConfig :=
  fetch Storage.multisigConfig .multisigNotConfigured

/-- Only the configured signers pass. -/
def requireSigner (config : MultisigConfig) (caller : Address) : Body Unit :=
  ensure (caller ∈ config.signers) .signerNotFound

/-- Configure the multisig. -/
def configureMultisig (admin : Address) (signers : List Address) (threshold : ℕ) :
    Body Unit := do
  requireAuth admin
  requireAdmin admin
  ensure (¬ (threshold = 0 ∨ signers.length < threshold)) .invalidThreshold
  modify fun S => { S with multisigConfig := some ⟨threshold, signers⟩ }
  modify fun S => { S with nextProposalId := some (S.nextProposalId.getD 1) }
  appendAuditEntry admin .configureMultisig

/-- Propose an administrative action. -/
def proposeAction (proposer : Address) (action : AdminAction) : Body ℕ := do
  requireAuth proposer
  let config ← loadMultisigConfig
  requireSigner config proposer
  let id ← gets fun S => S.nextProposalId.getD 1
  let now ← timestamp
  let expiresAt ← ofOption (checkedAddU64 now proposalTtlLedgers) .trap
  modify fun S => { S with
    proposal := Function.update S.proposal id (some {
      id
      action
      proposer
      approvals := [proposer]
      executed := false
      createdAt := now
      expiresAt }) }
  let next ← check (okOr (checkedAddU64 id 1) .arithmeticOverflow)
  modify fun S => { S with nextProposalId := some next }
  pure id

/-- Approve a proposal. -/
def approveAction (approver : Address) (proposalId : ℕ) : Body Unit := do
  requireAuth approver
  let config ← loadMultisigConfig
  requireSigner config approver
  let proposal ← fetch (fun S => S.proposal proposalId) .proposalNotFound
  ensure (proposal.executed = false) .proposalAlreadyExecuted
  let now ← timestamp
  ensure (now ≤ proposal.expiresAt) .proposalExpired
  ensure (approver ∉ proposal.approvals) .alreadyApproved
  modify fun S => { S with
    proposal := Function.update S.proposal proposalId
      (some { proposal with approvals := proposal.approvals ++ [approver] }) }

/-- The role with a number. -/
def roleOf : ℕ → Option Role
  | 1 => some .operator
  | 2 => some .verifier
  | _ => none

/-- Carry out the action of a proposal. -/
def performAction : AdminAction → Body Unit
  | .pause => modify fun S => { S with paused := some true }
  | .unpause => modify fun S => { S with paused := some false }
  | .grantRole target role => do
    let role ← check (okOr (roleOf role) .unauthorized)
    modify fun S => { S with role := Function.update S.role target (some role) }
  | .revokeRole target => modify fun S => { S with role := Function.update S.role target none }
  | .transferAdmin newAdmin => modify fun S => { S with
      admin := some newAdmin
      role := Function.update S.role newAdmin (some .admin) }

/-- Execute a proposal that reached the threshold. -/
def executeAction (executor : Address) (proposalId : ℕ) : Body Unit := do
  requireAuth executor
  let config ← loadMultisigConfig
  requireSigner config executor
  let proposal ← fetch (fun S => S.proposal proposalId) .proposalNotFound
  ensure (proposal.executed = false) .proposalAlreadyExecuted
  let now ← timestamp
  ensure (now ≤ proposal.expiresAt) .proposalExpired
  ensure (config.threshold ≤ proposal.approvals.length) .thresholdNotMet
  modify fun S => { S with
    proposal := Function.update S.proposal proposalId (some { proposal with executed := true }) }
  performAction proposal.action
  appendAuditEntry executor .multisigExecuteAction

/-! ## Parameter governance -/

/-- Reject values outside the range of a parameter. -/
def requireValidParameter (key : ParameterKey) (value : ℕ) : Except KoraError Unit :=
  match key with
  | .feeBps | .latePenaltyBps => guardK (value ≤ 10_000) .invalidParameterValue
  | .maxRiskScore => guardK (value ≤ 100) .invalidParameterValue

/-- Propose a new value of a parameter. -/
def proposeParameterChange (proposer : Address) (key : ParameterKey) (newValue : ℕ) :
    Body ℕ := do
  requireAuth proposer
  let config ← loadMultisigConfig
  requireSigner config proposer
  check (requireValidParameter key newValue)
  let id ← gets fun S => S.nextParamProposalId.getD 1
  let now ← timestamp
  modify fun S => { S with
    parameterProposal := Function.update S.parameterProposal id (some {
      id
      key
      newValue
      proposer
      approvals := [proposer]
      createdAt := now
      executed := false }) }
  let next ← check (okOr (checkedAddU64 id 1) .arithmeticOverflow)
  modify fun S => { S with nextParamProposalId := some next }
  appendAuditEntry proposer .proposeParameter
  pure id

/-- Vote for a proposal. -/
def voteParameterChange (signer : Address) (proposalId : ℕ) : Body Unit := do
  requireAuth signer
  let config ← loadMultisigConfig
  requireSigner config signer
  let proposal ← fetch (fun S => S.parameterProposal proposalId) .parameterProposalNotFound
  ensure (proposal.executed = false) .parameterProposalExecuted
  ensure (signer ∉ proposal.approvals) .alreadyVoted
  modify fun S => { S with
    parameterProposal := Function.update S.parameterProposal proposalId
      (some { proposal with approvals := proposal.approvals ++ [signer] }) }

/-- Execute a proposal that reached the threshold and is old enough. -/
def executeParameterChange (caller : Address) (proposalId : ℕ) : Body Unit := do
  requireAuth caller
  let config ← loadMultisigConfig
  requireSigner config caller
  let proposal ← fetch (fun S => S.parameterProposal proposalId) .parameterProposalNotFound
  ensure (proposal.executed = false) .parameterProposalExecuted
  ensure (config.threshold ≤ proposal.approvals.length) .governanceThresholdNotMet
  let now ← timestamp
  let ready ← ofOption (checkedAddU64 proposal.createdAt governanceTimelockDelay) .trap
  ensure (ready ≤ now) .governanceTimelockNotElapsed
  modify fun S => { S with
    parameterProposal := Function.update S.parameterProposal proposalId
      (some { proposal with executed := true }) }
  modify fun S => { S with
    parameter := Function.update S.parameter proposal.key (some proposal.newValue) }
  appendAuditEntry caller .executeParameter

/-- The governed value of a parameter. -/
def getParameter (key : ParameterKey) : Body (Option ℕ) := gets fun S => S.parameter key

/-- A page of the audit log, newest entry first. -/
def getAuditLog (page pageSize : ℕ) : Body (List AdminAuditEntry) := do
  let log ← gets Storage.audit
  ofOption (log.getAuditLog page pageSize) .trap

/-! ## Entry points -/

/-- The entry points that write. -/
inductive Op : Type
  | initializeContract (admin : Address)
  | pause (admin : Address)
  | unpause (admin : Address)
  | grantRole (admin target : Address) (role : Role)
  | revokeRole (admin target : Address)
  | transferAdmin (currentAdmin newAdmin : Address)
  | configureMultisig (admin : Address) (signers : List Address) (threshold : ℕ)
  | proposeAction (proposer : Address) (action : AdminAction)
  | approveAction (approver : Address) (proposalId : ℕ)
  | executeAction (executor : Address) (proposalId : ℕ)
  | proposeParameterChange (proposer : Address) (key : ParameterKey) (newValue : ℕ)
  | voteParameterChange (signer : Address) (proposalId : ℕ)
  | executeParameterChange (caller : Address) (proposalId : ℕ)
  deriving DecidableEq

/-- Run an entry point, dropping its value. -/
def Op.exec : Op → Body Unit
  | .initializeContract admin => AccessControl.initializeContract admin
  | .pause admin => AccessControl.pause admin
  | .unpause admin => AccessControl.unpause admin
  | .grantRole admin target role => AccessControl.grantRole admin target role
  | .revokeRole admin target => AccessControl.revokeRole admin target
  | .transferAdmin currentAdmin newAdmin => AccessControl.transferAdmin currentAdmin newAdmin
  | .configureMultisig admin signers threshold =>
    AccessControl.configureMultisig admin signers threshold
  | .proposeAction proposer action => do
    let _ ← AccessControl.proposeAction proposer action
  | .approveAction approver id => AccessControl.approveAction approver id
  | .executeAction executor id => AccessControl.executeAction executor id
  | .proposeParameterChange proposer key value => do
    let _ ← AccessControl.proposeParameterChange proposer key value
  | .voteParameterChange signer id => AccessControl.voteParameterChange signer id
  | .executeParameterChange caller id => AccessControl.executeParameterChange caller id

theorem isPaused_ok {env : Env} {S T : Storage} {b : Bool} :
    isPaused env S = .ok b T ↔ S.paused.getD false = b ∧ S = T := gets_ok

end Kora.AccessControl
