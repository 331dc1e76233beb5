import Kora.System

set_option autoImplicit false

/-!
# Contract upgrades

`propose_upgrade` and `execute_upgrade` of the six contracts that have them. They write a storage
key of their own and the code of the contract, which no other entry point reads, so they form a
layer over the system: a `Chain` is a ledger with the pending upgrades and the installed codes. A
contract is taken to behave as modelled after an upgrade too; the hash of its code is recorded.

* `proposeUpgrade`, `executeUpgrade`: the code shared by the six contracts, with what differs as
  parameters, and each contract's own;
* `Chain.step`: the system with upgrades; `Chain.step_base` is a step of the system below.
-/

namespace Kora

open Exec

/-- The hash of an uploaded code, a `BytesN<32>`. -/
structure WasmHash where
  bytes : Bytes
  length_eq : bytes.length = 32
  deriving DecidableEq

/-- The contracts with an upgrade entry point. -/
inductive Upgradable : Type
  | accessControl | invoiceNft | marketplace | financingPool | treasury | riskRegistry
  deriving DecidableEq, Repr

/-- The ledger with each contract's key `UpgradeProposal`, the code that its last upgrade installed,
and the codes uploaded to the host. -/
structure Chain where
  world : World
  upgradeProposal : Upgradable → Option (WasmHash × ℕ)
  wasm : Upgradable → Option WasmHash
  uploaded : WasmHash → Bool

/-- Run a body on the ledger. -/
def onWorld {α : Type} (m : Host World α) : Host Chain α :=
  zoom Chain.world (fun w s => { s with world := w }) m

/-- Store a proposal, after the contract's own check of the admin, and record the action. -/
def proposeUpgrade (c : Upgradable) (requireAdmin record : Host World Unit) (admin : Address)
    (newWasmHash : WasmHash) : Host Chain Unit := do
  requireAuth admin
  onWorld requireAdmin
  let now ← timestamp
  modify fun s => { s with
    upgradeProposal := Function.update s.upgradeProposal c (some (newWasmHash, now)) }
  onWorld record

/-- Replace the code of a contract; the host traps on a hash that was not uploaded. -/
def updateCurrentContractWasm (c : Upgradable) (wasmHash : WasmHash) : Host Chain Unit := do
  let ok ← gets fun s => s.uploaded wasmHash
  require (ok = true) .trap
  modify fun s => { s with wasm := Function.update s.wasm c (some wasmHash) }

/-- Install the proposed code once the delay is over, after the contract's own check of the admin,
and record the action. -/
def executeUpgrade (c : Upgradable) (requireAdmin record : Host World Unit) (admin : Address) :
    Host Chain Unit := do
  requireAuth admin
  onWorld requireAdmin
  let proposal ← fetch (fun s => s.upgradeProposal c) .noUpgradeProposed
  let now ← timestamp
  let ready ← ofOption (checkedAddU64 proposal.2 upgradeTimelockDelay) .trap
  ensure (ready ≤ now) .upgradeTimelockNotElapsed
  modify fun s => { s with upgradeProposal := Function.update s.upgradeProposal c none }
  onWorld record
  updateCurrentContractWasm c proposal.1

/-! ## The six contracts -/

section Contracts

variable (admin : Address) (newWasmHash : WasmHash)

def AccessControl.proposeUpgrade : Host Chain Unit :=
  Kora.proposeUpgrade .accessControl (onAccessControl (requireAdmin admin))
    (onAccessControl (appendAuditEntry admin .proposeUpgrade)) admin newWasmHash

def AccessControl.executeUpgrade : Host Chain Unit :=
  Kora.executeUpgrade .accessControl (onAccessControl (requireAdmin admin))
    (onAccessControl (appendAuditEntry admin .executeUpgrade)) admin

def InvoiceNft.proposeUpgrade : Host Chain Unit :=
  Kora.proposeUpgrade .invoiceNft (onInvoiceNft (requireAdmin admin)) (pure ()) admin newWasmHash

def InvoiceNft.executeUpgrade : Host Chain Unit :=
  Kora.executeUpgrade .invoiceNft (onInvoiceNft (requireAdmin admin)) (pure ()) admin

/-- The marketplace loads its configuration to check the admin. -/
def Marketplace.checkAdmin : Host World Unit := do
  let _ ← Marketplace.requireAdmin admin

def Marketplace.proposeUpgrade : Host Chain Unit :=
  Kora.proposeUpgrade .marketplace (checkAdmin admin) (pure ()) admin newWasmHash

def Marketplace.executeUpgrade : Host Chain Unit :=
  Kora.executeUpgrade .marketplace (checkAdmin admin) (pure ()) admin

def FinancingPool.proposeUpgrade : Host Chain Unit :=
  Kora.proposeUpgrade .financingPool (requireAdmin admin) (pure ()) admin newWasmHash

def FinancingPool.executeUpgrade : Host Chain Unit :=
  Kora.executeUpgrade .financingPool (requireAdmin admin) (pure ()) admin

def Treasury.proposeUpgrade : Host Chain Unit :=
  Kora.proposeUpgrade .treasury (onTreasury (own (requireAdmin admin)))
    (onTreasury (own (appendAuditEntry admin .treasuryProposeUpgrade))) admin newWasmHash

def Treasury.executeUpgrade : Host Chain Unit :=
  Kora.executeUpgrade .treasury (onTreasury (own (requireAdmin admin)))
    (onTreasury (own (appendAuditEntry admin .treasuryExecuteUpgrade))) admin

def RiskRegistry.proposeUpgrade : Host Chain Unit :=
  Kora.proposeUpgrade .riskRegistry (onRiskRegistry (own (requireAdmin admin)))
    (onRiskRegistry (own (appendAuditEntry admin .registryProposeUpgrade))) admin newWasmHash

def RiskRegistry.executeUpgrade : Host Chain Unit :=
  Kora.executeUpgrade .riskRegistry (onRiskRegistry (own (requireAdmin admin)))
    (onRiskRegistry (own (appendAuditEntry admin .registryExecuteUpgrade))) admin

end Contracts

/-- The upgrade entry points. -/
inductive UpgradeOp : Type
  | propose (c : Upgradable) (admin : Address) (newWasmHash : WasmHash)
  | execute (c : Upgradable) (admin : Address)

/-- Run an upgrade entry point. -/
def UpgradeOp.exec : UpgradeOp → Host Chain Unit
  | .propose .accessControl admin hash => AccessControl.proposeUpgrade admin hash
  | .propose .invoiceNft admin hash => InvoiceNft.proposeUpgrade admin hash
  | .propose .marketplace admin hash => Marketplace.proposeUpgrade admin hash
  | .propose .financingPool admin hash => FinancingPool.proposeUpgrade admin hash
  | .propose .treasury admin hash => Treasury.proposeUpgrade admin hash
  | .propose .riskRegistry admin hash => RiskRegistry.proposeUpgrade admin hash
  | .execute .accessControl admin => AccessControl.executeUpgrade admin
  | .execute .invoiceNft admin => InvoiceNft.executeUpgrade admin
  | .execute .marketplace admin => Marketplace.executeUpgrade admin
  | .execute .financingPool admin => FinancingPool.executeUpgrade admin
  | .execute .treasury admin => Treasury.executeUpgrade admin
  | .execute .riskRegistry admin => RiskRegistry.executeUpgrade admin

/-! ## The system with upgrades -/

namespace Chain

/-- A step of the system, an upgrade transaction, or the upload of a code. -/
inductive Action : Type
  | base (a : Kora.Action)
  | upgrade (signers : List Address) (op : UpgradeOp)
  | upload (hash : WasmHash)

/-- The environment of an upgrade transaction. -/
def env (d : Deployment) (s : Chain) (signers : List Address) : Env :=
  ⟨d, s.world.now, none, signers.filter (· ∉ d.contracts)⟩

/-- The upgrade transaction succeeds. -/
def Upgrades (d : Deployment) (s : Chain) (signers : List Address) (op : UpgradeOp) : Prop :=
  (op.exec (env d s signers) s).isOk = true

instance (d : Deployment) (s : Chain) (signers : List Address) (op : UpgradeOp) :
    Decidable (Upgrades d s signers op) := by
  unfold Upgrades; infer_instance

/-- One step. -/
def step (d : Deployment) (s : Chain) : Action → Chain
  | .base a => { s with world := Kora.step d s.world a }
  | .upgrade signers op => (op.exec (env d s signers) s).commit s
  | .upload hash => { s with uploaded := Function.update s.uploaded hash true }

/-- The chain before the contracts are initialised. -/
def genesis (now : ℕ) (tokens : Tokens) : Chain where
  world := Kora.genesis now tokens
  upgradeProposal := fun _ => none
  wasm := fun _ => none
  uploaded := fun _ => false

section Step

variable {d : Deployment} {s : Chain} {signers : List Address} {op : UpgradeOp}

@[simp] theorem step_base (a : Kora.Action) :
    (step d s (.base a)).world = Kora.step d s.world a := rfl

theorem step_upgrade_cases (d : Deployment) (s : Chain) (signers : List Address)
    (op : UpgradeOp) :
    (op.exec (env d s signers) s = .ok () (step d s (.upgrade signers op)) ∧
        Upgrades d s signers op) ∨
      (¬ Upgrades d s signers op ∧ step d s (.upgrade signers op) = s) := by
  by_cases hs : Upgrades d s signers op
  · obtain ⟨⟨⟩, t, ht⟩ := Outcome.isOk_iff.mp hs
    rw [step, ht]
    exact Or.inl ⟨rfl, hs⟩
  · refine Or.inr ⟨hs, ?_⟩
    rw [Upgrades, Outcome.isOk_iff] at hs
    cases hr : op.exec (env d s signers) s with
    | ok a t => exact absurd ⟨a, t, hr⟩ hs
    | error e t => rw [step, hr, Outcome.commit_error]

end Step

end Chain

end Kora
