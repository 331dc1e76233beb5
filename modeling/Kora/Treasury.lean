import Kora.Token
import Kora.Shared.Audit

set_option autoImplicit false

/-!
# The treasury

`treasury/src/lib.rs`: the fee ledger, withdrawals under a rolling cap and the timelocked change
of that cap. Only the two withdrawals see the tokens.

* `collectFee_ok`: what recording a fee changes.
-/

namespace Kora.Treasury

open Exec

/-- Length of a rate-limit epoch, in seconds. -/
def epochDuration : ℕ := 86_400

/-- The storage of the contract. -/
structure Storage where
  admin : Option Address := none
  feeBps : Option ℕ := none
  collected : Address → Option ℤ := fun _ => none
  whitelistedToken : Address → Bool := fun _ => false
  withdrawalCap : Option ℤ := none
  withdrawalCapProposal : Option (ℤ × ℕ) := none
  epochStart : Option ℕ := none
  epochWithdrawn : Option ℤ := none
  audit : AuditLog := {}
  lock : Bool := false

/-- A body that touches the contract's own storage only. -/
abbrev Body (α : Type) : Type := Host Storage α

/-- The storage together with the tokens. -/
abbrev State : Type := Storage × Tokens

/-- Run a body on the storage. -/
def own {α : Type} (m : Body α) : Host State α := zoom Prod.fst (fun S s => (S, s.2)) m

/-- Call a token. -/
def callToken {α : Type} (m : Host Tokens α) : Host State α := do
  let d ← net
  Token.callFrom Prod.snd (fun T s => (s.1, T)) d.treasury m

/-- Run `m` under the reentrancy guard. -/
def guard {α : Type} (m : Host State α) : Host State α :=
  guarded (fun s => s.1.lock) (fun b s => ({ s.1 with lock := b }, s.2)) m

/-- Only the stored admin passes. -/
def requireAdmin (caller : Address) : Body Unit := do
  let admin ← fetch Storage.admin .notInitialized
  ensure (admin = caller) .notAdmin

/-- Only whitelisted tokens pass. -/
def requireWhitelistedToken (token : Address) : Body Unit := do
  let whitelisted ← gets fun S => S.whitelistedToken token
  ensure (whitelisted = true) .tokenNotWhitelisted

/-- Record an administrative action. -/
def appendAuditEntry (actor : Address) (action : AdminActionType) : Body Unit := do
  let now ← timestamp
  modify fun S => { S with audit := S.audit.append .treasury now actor action }

/-- One-time initialisation. -/
def initializeContract (admin : Address) (feeBps : ℕ) : Body Unit := do
  let old ← gets Storage.admin
  ensure (old = none) .alreadyInitialized
  check (requireValidFeeBps feeBps)
  let d ← net
  check (requireNotSelf d.treasury admin)
  let now ← timestamp
  modify fun S => { S with
    admin := some admin
    feeBps := some feeBps
    withdrawalCap := some 0
    epochStart := some now
    epochWithdrawn := some 0 }

/-- Update the protocol fee. -/
def setFeeBps (admin : Address) (feeBps : ℕ) : Body Unit := do
  requireAuth admin
  requireAdmin admin
  check (requireValidFeeBps feeBps)
  modify fun S => { S with feeBps := some feeBps }
  appendAuditEntry admin .setFeeBps

/-- Whitelist a token. -/
def whitelistToken (admin token : Address) : Body Unit := do
  requireAuth admin
  requireAdmin admin
  modify fun S => { S with
    whitelistedToken := Function.update S.whitelistedToken token true }
  appendAuditEntry admin .whitelistToken

/-- Record an incoming fee. -/
def collectFee (token : Address) (amount : ℤ) : Body Unit := do
  ensure (0 < amount) .invalidAmount
  requireWhitelistedToken token
  let current ← gets fun S => (S.collected token).getD 0
  let newTotal ← check (okOr (checkedAdd current amount) .arithmeticOverflow)
  modify fun S => { S with collected := Function.update S.collected token (some newTotal) }

/-- Start a new epoch when the old one is over, then check the cap. -/
def enforceRateLimit (amount : ℤ) : Body Unit := do
  let cap ← gets fun S => S.withdrawalCap.getD 0
  if cap = 0 then pure ()
  else do
    let now ← timestamp
    let epochStart ← gets fun S => S.epochStart.getD now
    if epochDuration ≤ now - epochStart then
      modify fun S => { S with epochStart := some now, epochWithdrawn := some 0 }
    let epochWithdrawn ← if epochDuration ≤ now - epochStart then pure 0
      else gets fun S => S.epochWithdrawn.getD 0
    let newTotal ← check (okOr (checkedAdd epochWithdrawn amount) .arithmeticOverflow)
    ensure (newTotal ≤ cap) .withdrawalRateLimitExceeded

/-- Count a withdrawal against the current epoch. -/
def recordWithdrawal (amount : ℤ) : Body Unit := do
  let cap ← gets fun S => S.withdrawalCap.getD 0
  if cap = 0 then pure ()
  else modify fun S => { S with
    epochWithdrawn := some (saturatingAdd (S.epochWithdrawn.getD 0) amount) }

/-- Withdraw collected fees. -/
def withdraw (admin token recipient : Address) (amount : ℤ) : Host State Unit := do
  requireAuth admin
  own do
    requireAdmin admin
    ensure (0 < amount) .invalidAmount
    check (requireWithinMaxAmount amount)
    requireWhitelistedToken token
    enforceRateLimit amount
  guard do
    let d ← net
    let balance ← callToken (Token.balance token d.treasury)
    ensure (amount ≤ balance) .insufficientPoolBalance
    own do
      modify fun S => match S.collected token with
        | some c => { S with
            collected := Function.update S.collected token (some (saturatingSub c amount)) }
        | none => S
      recordWithdrawal amount
    callToken (Token.transfer token d.treasury recipient amount)
    own (appendAuditEntry admin .withdraw)

/-- Withdraw the whole balance of a token. -/
def emergencyWithdraw (admin token recipient : Address) : Host State Unit := do
  requireAuth admin
  own do
    requireAdmin admin
    requireWhitelistedToken token
  guard do
    let d ← net
    let balance ← callToken (Token.balance token d.treasury)
    if 0 < balance then callToken (Token.transfer token d.treasury recipient balance)
    own (appendAuditEntry admin .emergencyWithdraw)

/-- Propose a withdrawal cap. -/
def proposeWithdrawalCap (admin : Address) (newCap : ℤ) : Body Unit := do
  requireAuth admin
  requireAdmin admin
  ensure (0 ≤ newCap) .invalidAmount
  let now ← timestamp
  modify fun S => { S with withdrawalCapProposal := some (newCap, now) }
  appendAuditEntry admin .proposeWithdrawalCap

/-- Install the proposed cap once the delay is over. -/
def executeWithdrawalCap (admin : Address) : Body Unit := do
  requireAuth admin
  requireAdmin admin
  let proposal ← fetch (fun S => S.withdrawalCapProposal) .noCapChangeProposed
  let now ← timestamp
  let ready ← ofOption (checkedAddU64 proposal.2 upgradeTimelockDelay) .trap
  ensure (ready ≤ now) .withdrawalCapTimelockNotElapsed
  modify fun S => { S with
    withdrawalCap := some proposal.1
    withdrawalCapProposal := none }
  appendAuditEntry admin .executeWithdrawalCap

/-- A page of the audit log, newest entry first. -/
def getAuditLog (page pageSize : ℕ) : Body (List AdminAuditEntry) := do
  let log ← gets Storage.audit
  ofOption (log.getAuditLog page pageSize) .trap

/-- The entry points that write. -/
inductive Op : Type
  | initializeContract (admin : Address) (feeBps : ℕ)
  | setFeeBps (admin : Address) (feeBps : ℕ)
  | whitelistToken (admin token : Address)
  | collectFee (token : Address) (amount : ℤ)
  | withdraw (admin token recipient : Address) (amount : ℤ)
  | emergencyWithdraw (admin token recipient : Address)
  | proposeWithdrawalCap (admin : Address) (newCap : ℤ)
  | executeWithdrawalCap (admin : Address)

/-- Run an entry point. -/
def Op.exec : Op → Host State Unit
  | .initializeContract admin feeBps => own (Treasury.initializeContract admin feeBps)
  | .setFeeBps admin feeBps => own (Treasury.setFeeBps admin feeBps)
  | .whitelistToken admin token => own (Treasury.whitelistToken admin token)
  | .collectFee token amount => own (Treasury.collectFee token amount)
  | .withdraw admin token recipient amount => Treasury.withdraw admin token recipient amount
  | .emergencyWithdraw admin token recipient => Treasury.emergencyWithdraw admin token recipient
  | .proposeWithdrawalCap admin newCap => own (Treasury.proposeWithdrawalCap admin newCap)
  | .executeWithdrawalCap admin => own (Treasury.executeWithdrawalCap admin)

theorem collectFee_iff {env : Env} {token : Address} {amount : ℤ} {S T : Storage} {u : Unit} :
    collectFee token amount env S = .ok u T ↔
      0 < amount ∧ S.whitelistedToken token = true ∧
      checkedAdd ((S.collected token).getD 0) amount =
        some ((S.collected token).getD 0 + amount) ∧
      T = { S with
        collected := Function.update S.collected token
          (some ((S.collected token).getD 0 + amount)) } := by
  simp only [collectFee, requireWhitelistedToken, assoc_run, gets_run, ensure_seq_ok, check_seq_ok,
    okOr_ok, modify_ok]
  constructor
  · rintro ⟨hpos, hw, n, hn, rfl⟩
    obtain rfl := checkedAdd_some hn
    exact ⟨hpos, hw, hn, rfl⟩
  · rintro ⟨hpos, hw, hn, rfl⟩
    exact ⟨hpos, hw, _, hn, rfl⟩

theorem collectFee_ok {env : Env} {token : Address} {amount : ℤ} {S T : Storage} {u : Unit}
    (h : collectFee token amount env S = .ok u T) :
    0 < amount ∧ S.whitelistedToken token = true ∧ T = { S with
      collected := Function.update S.collected token
        (some ((S.collected token).getD 0 + amount)) } := by
  obtain ⟨hpos, hw, -, hT⟩ := collectFee_iff.mp h
  exact ⟨hpos, hw, hT⟩

end Kora.Treasury
