import Mathlib.Logic.Function.Basic
import Kora.Shared.Validation

set_option autoImplicit false

/-!
# The audit log

`shared/src/audit.rs`: a ring buffer of the last `maxAuditLogSize` administrative actions, kept
by access control, treasury and risk registry, with the same code for writing an entry (`append`)
and for reading a page (`getAuditLog`) in each of them.
-/

namespace Kora

/-- Slots of the ring buffer. -/
def maxAuditLogSize : ℕ := 500

/-- The largest page of the log. -/
def maxAuditPageSize : ℕ := 50

/-- The contract that recorded an entry. -/
inductive AuditSource : Type
  | accessControl | treasury | riskRegistry
  deriving DecidableEq, Repr

/-- The kinds of administrative action. -/
inductive AdminActionType : Type
  | pause | unpause | grantRole | revokeRole | transferAdmin | configureMultisig
  | proposeUpgrade | executeUpgrade | multisigExecuteAction | proposeParameter | executeParameter
  | setFeeBps | whitelistToken | withdraw | emergencyWithdraw | proposeWithdrawalCap
  | executeWithdrawalCap | treasuryProposeUpgrade | treasuryExecuteUpgrade
  | addVerifier | removeVerifier | recordDefault | registryTransferAdmin
  | registryProposeUpgrade | registryExecuteUpgrade
  deriving DecidableEq, Repr

/-- One entry of the log. -/
structure AdminAuditEntry where
  sequence : ℕ
  timestamp : ℕ
  actor : Address
  action : AdminActionType
  source : AuditSource
  deriving DecidableEq, Repr

/-- The ring buffer: `head` is the next slot, `total` counts all entries ever written. -/
structure AuditLog where
  head : ℕ := 0
  total : ℕ := 0
  entry : ℕ → Option AdminAuditEntry := fun _ => none

/-- Append one entry. -/
def AuditLog.append (log : AuditLog) (source : AuditSource) (now : ℕ) (actor : Address)
    (action : AdminActionType) : AuditLog where
  head := (log.head + 1) % maxAuditLogSize
  total := log.total + 1
  entry := Function.update log.entry log.head (some ⟨log.total, now, actor, action, source⟩)

/-- The slot `offset` entries before the last one written; none when the index underflows. -/
def AuditLog.position (head offset : ℕ) : Option ℕ := do
  let a ← checkedAddU64 head maxAuditLogSize
  let b ← checkedSubU64 a 1
  let c ← checkedSubU64 b offset
  some (c % maxAuditLogSize)

/-- The loop of `getAuditLog` with `n` rounds left, from the index `i`. -/
def AuditLog.collect (log : AuditLog) (skip stored : ℕ) :
    ℕ → ℕ → List AdminAuditEntry → Option (List AdminAuditEntry)
  | 0, _, results => some results
  | n + 1, i, results => do
    let offset ← checkedAddU64 skip i
    if stored ≤ offset then some results
    else do
      let pos ← AuditLog.position log.head offset
      log.collect skip stored n (i + 1) (results ++ (log.entry pos).toList)

/-- The size of a page. -/
def clampPageSize (pageSize : ℕ) : ℕ := min (max pageSize 1) maxAuditPageSize

/-- A page of the log, newest entry first; none when an index leaves the `u64` range. -/
def AuditLog.getAuditLog (log : AuditLog) (page pageSize : ℕ) : Option (List AdminAuditEntry) :=
  let size := clampPageSize pageSize
  let stored := min log.total maxAuditLogSize
  let skip := saturatingMulU64 page size
  log.collect skip stored size 0 []

end Kora
