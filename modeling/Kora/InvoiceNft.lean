import Kora.AccessControl
import Kora.RiskRegistry

set_option autoImplicit false

/-!
# The invoice contract

`invoice_nft/src/lib.rs`: invoice records and their lifecycle. A body sees the contract's own
storage and, through cross-contract calls, access control and the risk registry.
-/

namespace Kora.InvoiceNft

open Exec

/-- An invoice of schema version 1. -/
structure InvoiceV1 where
  id : ℕ
  sme : Address
  debtorHash : Bytes
  amount : ℤ
  currency : Symbol
  dueDate : ℕ
  ipfsCid : String
  riskScore : ℕ
  riskTier : RiskTier
  status : InvoiceStatus
  createdAt : ℕ
  fundedAt : Option ℕ
  repaidAt : Option ℕ
  deriving DecidableEq, Repr

/-- A stored invoice, in the schema it was written in. Reading it in the other one traps. -/
inductive InvoiceRecord : Type
  | v1 (invoice : InvoiceV1)
  | current (invoice : Invoice)
  deriving DecidableEq, Repr

/-- The storage of the contract. -/
structure Storage where
  admin : Option Address := none
  accessControl : Option Address := none
  invoice : ℕ → Option InvoiceRecord := fun _ => none
  nextId : Option ℕ := none
  migrationVersion : Option ℕ := none
  marketplace : Option Address := none
  financingPool : Option Address := none
  riskRegistry : Option Address := none
  outstandingExposure : Address → Option ℤ := fun _ => none
  currencyAllowlist : Symbol → Bool := fun _ => false
  invoiceFrozen : ℕ → Bool := fun _ => false
  lock : Bool := false

/-- The storages a body of the contract sees. -/
structure State where
  own : Storage
  accessControl : AccessControl.Storage
  riskRegistry : RiskRegistry.Storage

/-- A body of the contract. -/
abbrev Body (α : Type) : Type := Host State α

/-! ## Helpers -/

section Helpers

variable {α : Type}

/-- Change the contract's own storage. -/
def modifyOwn (f : Storage → Storage) : Body Unit := modify fun s => { s with own := f s.own }

/-- Run `m` under the reentrancy guard. -/
def guard (m : Body α) : Body α :=
  guarded (fun s => s.own.lock) (fun b s => { s with own := { s.own with lock := b } }) m

/-- Only the stored admin passes. -/
def requireAdmin (caller : Address) : Body Unit := do
  let admin ← fetch (fun s => s.own.admin) .notInitialized
  ensure (admin = caller) .notAdmin

/-- Only the addresses stored under the `allowed` keys pass. -/
def requireAuthorizedCaller (caller : Address) (allowed : List (Storage → Option Address)) :
    Body Unit := do
  let own ← gets State.own
  ensure (∃ key ∈ allowed, key own = some caller) .unauthorized

/-- Only an allowed currency passes. -/
def requireAllowedCurrency (currency : Symbol) : Body Unit := do
  let allowed ← gets fun s => s.own.currencyAllowlist currency
  ensure (allowed = true) .currencyNotAllowed

/-- Fail while the protocol is paused. -/
def requireNotPaused : Body Unit := do
  let ac ← fetch (fun s => s.own.accessControl) .notInitialized
  let d ← net
  let paused ← callFrom d.invoiceNft ac d.accessControl
    (zoom State.accessControl (fun S s => { s with accessControl := S }) AccessControl.isPaused)
  ensure (paused = false) .protocolPaused

/-- Read an invoice. -/
def loadInvoice (id : ℕ) : Body Invoice := do
  let record ← fetch (fun s => s.own.invoice id) .invoiceNotFound
  match record with
  | .current invoice => pure invoice
  | .v1 _ => throw .trap

/-- Write an invoice. -/
def putInvoice (id : ℕ) (invoice : Invoice) : Body Unit :=
  modifyOwn fun S => { S with invoice := Function.update S.invoice id (some (.current invoice)) }

/-- Take an invoice off the exposure of its SME. -/
def releaseExposure (invoice : Invoice) : Body Unit := modifyOwn fun S => { S with
  outstandingExposure := Function.update S.outstandingExposure invoice.sme
    (some (saturatingSub ((S.outstandingExposure invoice.sme).getD 0) invoice.amount)) }

end Helpers

/-! ## Administration -/

/-- One-time initialisation. -/
def initializeContract (admin accessControl : Address) : Body Unit := do
  let old ← gets fun s => s.own.admin
  ensure (old = none) .alreadyInitialized
  let d ← net
  check (requireNotSelf d.invoiceNft admin)
  check (requireNotSelf d.invoiceNft accessControl)
  check (requireDistinct admin accessControl)
  modifyOwn fun S => { S with
    admin := some admin
    accessControl := some accessControl
    nextId := some 1
    migrationVersion := some 1 }

/-- Set the risk registry, which enables credit limits. -/
def setRiskRegistry (admin riskRegistry : Address) : Body Unit := do
  requireAuth admin
  requireAdmin admin
  let d ← net
  check (requireNotSelf d.invoiceNft riskRegistry)
  modifyOwn fun S => { S with riskRegistry := some riskRegistry }

/-- The version 2 form of a version 1 invoice. -/
def InvoiceV1.upgrade (old : InvoiceV1) : Invoice where
  id := old.id
  sme := old.sme
  debtorHash := old.debtorHash
  amount := old.amount
  currency := old.currency
  dueDate := old.dueDate
  ipfsCid := old.ipfsCid
  metadataHash := []
  riskScore := old.riskScore
  riskTier := old.riskTier
  status := old.status
  createdAt := old.createdAt
  fundedAt := old.fundedAt
  repaidAt := old.repaidAt
  notes := none

/-- Read the record of `id` as version 1 and rewrite it. -/
def migrateRecord (id : ℕ) : Body Unit := do
  let record ← gets fun s => s.own.invoice id
  match record with
  | none => pure ()
  | some (.v1 old) => putInvoice id old.upgrade
  | some (.current _) => throw .trap

/-- Rewrite the records of `ids`, in order. -/
def migrateRecords : List ℕ → Body Unit
  | [] => pure ()
  | id :: ids => do
    migrateRecord id
    migrateRecords ids

/-- Bring the storage to the current schema version. -/
def migrate (admin : Address) : Body Unit := do
  requireAuth admin
  requireAdmin admin
  let currentVersion ← gets fun s => s.own.migrationVersion.getD 0
  if currentVersion < 1 then modifyOwn fun S => { S with migrationVersion := some 1 }
  if currentVersion < 2 then
    let nextId ← gets fun s => s.own.nextId.getD 1
    migrateRecords (List.range' 1 (nextId - 1))
    modifyOwn fun S => { S with migrationVersion := some 2 }

/-- Set the contracts that may change the status of an invoice. -/
def setAuthorizedCallers (admin marketplace financingPool : Address) : Body Unit := do
  requireAuth admin
  requireAdmin admin
  modifyOwn fun S => { S with
    marketplace := some marketplace
    financingPool := some financingPool }

/-! ## Creating and editing -/

/-- Fail when a new invoice would exceed the SME's credit limit. -/
def requireWithinCreditLimit (sme : Address) (amount : ℤ) : Body Unit := do
  let registry ← gets fun s => s.own.riskRegistry
  match registry with
  | none => pure ()
  | some rr =>
    let d ← net
    let profile ← tryCallFrom d.invoiceNft rr d.riskRegistry
      (zoom State.riskRegistry (fun S s => { s with riskRegistry := S })
        (RiskRegistry.getSmeProfile sme))
    match profile with
    | none => pure ()
    | some profile =>
      if 0 < profile.creditLimit then
        let outstanding ← gets fun s => (s.own.outstandingExposure sme).getD 0
        let newExposure ← check (okOr (checkedAdd outstanding amount) .arithmeticOverflow)
        ensure (newExposure ≤ profile.creditLimit) .creditLimitExceeded

/-- Mint an invoice. -/
def mintInvoice (sme : Address) (debtorHash : Bytes) (amount : ℤ) (currency : Symbol)
    (dueDate : ℕ) (ipfsCid : String) (riskScore : ℕ) (notes : Option String) : Body ℕ := do
  requireAuth sme
  requireNotPaused
  guard do
    let now ← timestamp
    check (requireNonZeroAmount amount)
    check (requireFutureTimestamp now dueDate)
    check (requireValidRiskScore riskScore)
    check (requireNonEmptyBytes debtorHash)
    check (requireMaxLengthBytes debtorHash maxDebtorHashLen)
    check (requireNonEmptyString ipfsCid)
    check (requireMaxLengthString ipfsCid maxIpfsCidLen)
    requireWithinCreditLimit sme amount
    let id ← gets fun s => s.own.nextId.getD 1
    putInvoice id {
      id
      sme
      debtorHash
      amount
      currency
      dueDate
      ipfsCid
      metadataHash := []
      riskScore
      riskTier := RiskTier.fromScore riskScore
      status := .created
      createdAt := now
      fundedAt := none
      repaidAt := none
      notes }
    let next ← check (okOr (checkedAddU64 id 1) .arithmeticOverflow)
    modifyOwn fun S => { S with nextId := some next }
    pure id

/-- Amend an invoice that is not listed yet. -/
def amendInvoice (sme : Address) (invoiceId : ℕ) (debtorHash : Bytes) (amount : ℤ)
    (dueDate : ℕ) (ipfsCid : String) (riskScore : ℕ) : Body Unit := do
  requireAuth sme
  requireNotPaused
  let now ← timestamp
  check (requireNonZeroAmount amount)
  check (requireFutureTimestamp now dueDate)
  check (requireValidRiskScore riskScore)
  check (requireNonEmptyBytes debtorHash)
  check (requireNonEmptyString ipfsCid)
  let invoice ← loadInvoice invoiceId
  ensure (invoice.status = .created) .invalidInvoiceStatus
  ensure (invoice.sme = sme) .notInvoiceOwner
  putInvoice invoiceId { invoice with
    debtorHash
    amount
    dueDate
    ipfsCid
    riskScore
    riskTier := RiskTier.fromScore riskScore }

/-- Void an invoice that is not listed yet. -/
def withdrawInvoice (sme : Address) (invoiceId : ℕ) : Body Unit := do
  requireAuth sme
  requireNotPaused
  let invoice ← loadInvoice invoiceId
  ensure (invoice.status = .created) .invalidInvoiceStatus
  ensure (invoice.sme = sme) .notInvoiceOwner
  modifyOwn fun S => { S with invoice := Function.update S.invoice invoiceId none }
  releaseExposure invoice

/-- Commit to the hash of the metadata document. -/
def commitMetadataHash (sme : Address) (invoiceId : ℕ) (metadataHash : Bytes) : Body Unit := do
  requireAuth sme
  requireNotPaused
  guard do
    check (requireNonEmptyBytes metadataHash)
    let invoice ← loadInvoice invoiceId
    ensure (invoice.sme = sme) .unauthorized
    ensure (invoice.status = .created) .invalidInvoiceStatus
    ensure (invoice.metadataHash.length = 0) .alreadyInitialized
    putInvoice invoiceId { invoice with metadataHash }

/-! ## Status transitions -/

/-- `created → listed`, by the marketplace. -/
def setListed (caller : Address) (invoiceId : ℕ) : Body Unit := do
  requireAuth caller
  requireAuthorizedCaller caller [Storage.marketplace]
  requireNotPaused
  guard do
    let invoice ← loadInvoice invoiceId
    ensure (invoice.status = .created) .invalidInvoiceStatus
    putInvoice invoiceId { invoice with status := .listed }

/-- `listed → funded`, by the financing pool. -/
def setFunded (caller : Address) (invoiceId : ℕ) : Body Unit := do
  requireAuth caller
  requireAuthorizedCaller caller [Storage.financingPool]
  requireNotPaused
  guard do
    let invoice ← loadInvoice invoiceId
    ensure (invoice.status = .listed) .invalidInvoiceStatus
    let now ← timestamp
    putInvoice invoiceId { invoice with status := .funded, fundedAt := some now }

/-- `funded → repaid`, by the financing pool. -/
def setRepaid (caller : Address) (invoiceId : ℕ) : Body Unit := do
  requireAuth caller
  requireAuthorizedCaller caller [Storage.financingPool]
  requireNotPaused
  let invoice ← loadInvoice invoiceId
  ensure (invoice.status = .funded) .invalidInvoiceStatus
  let now ← timestamp
  putInvoice invoiceId { invoice with status := .repaid, repaidAt := some now }
  releaseExposure invoice

/-- `funded → defaulted`, by the admin, after the due date. -/
def setDefaulted (caller : Address) (invoiceId : ℕ) : Body Unit := do
  requireAuth caller
  requireAdmin caller
  guard do
    let invoice ← loadInvoice invoiceId
    ensure (invoice.status = .funded) .invalidInvoiceStatus
    let now ← timestamp
    ensure (invoice.dueDate < now) .invalidInvoiceStatus
    putInvoice invoiceId { invoice with status := .defaulted }
    releaseExposure invoice

/-! ## Freezing, currencies and views -/

/-- Read an invoice. -/
def getInvoice (invoiceId : ℕ) : Body Invoice := loadInvoice invoiceId

/-- Freeze an invoice. -/
def freezeInvoice (admin : Address) (invoiceId : ℕ) : Body Unit := do
  requireAuth admin
  requireAdmin admin
  let _ ← loadInvoice invoiceId
  modifyOwn fun S => { S with invoiceFrozen := Function.update S.invoiceFrozen invoiceId true }

/-- Unfreeze an invoice. -/
def unfreezeInvoice (admin : Address) (invoiceId : ℕ) : Body Unit := do
  requireAuth admin
  requireAdmin admin
  let _ ← loadInvoice invoiceId
  modifyOwn fun S => { S with invoiceFrozen := Function.update S.invoiceFrozen invoiceId false }

/-- Whether an invoice is frozen. -/
def isInvoiceFrozen (invoiceId : ℕ) : Body Bool := gets fun s => s.own.invoiceFrozen invoiceId

/-- Allow a currency. -/
def addAllowedCurrency (admin : Address) (currency : Symbol) : Body Unit := do
  requireAuth admin
  requireAdmin admin
  modifyOwn fun S => { S with
    currencyAllowlist := Function.update S.currencyAllowlist currency true }

/-- Remove a currency. -/
def removeAllowedCurrency (admin : Address) (currency : Symbol) : Body Unit := do
  requireAuth admin
  requireAdmin admin
  modifyOwn fun S => { S with
    currencyAllowlist := Function.update S.currencyAllowlist currency false }

/-! ## Entry points -/

/-- The entry points that write. -/
inductive Op : Type
  | initializeContract (admin accessControl : Address)
  | setRiskRegistry (admin riskRegistry : Address)
  | migrate (admin : Address)
  | setAuthorizedCallers (admin marketplace financingPool : Address)
  | mintInvoice (sme : Address) (debtorHash : Bytes) (amount : ℤ) (currency : Symbol)
      (dueDate : ℕ) (ipfsCid : String) (riskScore : ℕ) (notes : Option String)
  | amendInvoice (sme : Address) (invoiceId : ℕ) (debtorHash : Bytes) (amount : ℤ)
      (dueDate : ℕ) (ipfsCid : String) (riskScore : ℕ)
  | withdrawInvoice (sme : Address) (invoiceId : ℕ)
  | commitMetadataHash (sme : Address) (invoiceId : ℕ) (metadataHash : Bytes)
  | setListed (caller : Address) (invoiceId : ℕ)
  | setFunded (caller : Address) (invoiceId : ℕ)
  | setRepaid (caller : Address) (invoiceId : ℕ)
  | setDefaulted (caller : Address) (invoiceId : ℕ)
  | freezeInvoice (admin : Address) (invoiceId : ℕ)
  | unfreezeInvoice (admin : Address) (invoiceId : ℕ)
  | addAllowedCurrency (admin : Address) (currency : Symbol)
  | removeAllowedCurrency (admin : Address) (currency : Symbol)

/-- Run an entry point, dropping its value. -/
def Op.exec : Op → Body Unit
  | .initializeContract admin ac => InvoiceNft.initializeContract admin ac
  | .setRiskRegistry admin rr => InvoiceNft.setRiskRegistry admin rr
  | .migrate admin => InvoiceNft.migrate admin
  | .setAuthorizedCallers admin mp fp => InvoiceNft.setAuthorizedCallers admin mp fp
  | .mintInvoice sme hash amount currency due cid score notes => do
    let _ ← InvoiceNft.mintInvoice sme hash amount currency due cid score notes
  | .amendInvoice sme id hash amount due cid score =>
    InvoiceNft.amendInvoice sme id hash amount due cid score
  | .withdrawInvoice sme id => InvoiceNft.withdrawInvoice sme id
  | .commitMetadataHash sme id hash => InvoiceNft.commitMetadataHash sme id hash
  | .setListed caller id => InvoiceNft.setListed caller id
  | .setFunded caller id => InvoiceNft.setFunded caller id
  | .setRepaid caller id => InvoiceNft.setRepaid caller id
  | .setDefaulted caller id => InvoiceNft.setDefaulted caller id
  | .freezeInvoice admin id => InvoiceNft.freezeInvoice admin id
  | .unfreezeInvoice admin id => InvoiceNft.unfreezeInvoice admin id
  | .addAllowedCurrency admin currency => InvoiceNft.addAllowedCurrency admin currency
  | .removeAllowedCurrency admin currency => InvoiceNft.removeAllowedCurrency admin currency

end Kora.InvoiceNft
