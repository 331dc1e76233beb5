import Kora.Lib.Avoids
import Kora.System.Controls

set_option autoImplicit false

/-!
# Locks

Five contracts keep a reentrancy lock, and the pool a repayment lock for every invoice. A lock is
taken by the body of an entry point and released when the body ends, so that between transactions
all of them are free, and no transaction is turned away by one.

* `World.Unlocked`: no lock is held;
* `Op.enters` for each contract, **`Entry.enters`**: from there, an entry point leaves the locks
  free and does not fail with `Reentrancy`;
* `enters_of_released`: the entry points that take a repayment lock release it;
* **`never_locked`**: both in every run.
-/

namespace Kora

open Exec Run

/-! ## Statement -/

/-- No lock is held, but for the one of the marketplace, which is `held`, and maybe the repayment
lock of invoice `busy`. -/
structure World.LockedBy (held : Bool) (busy : Option ℕ) (w : World) : Prop where
  accessControl : w.accessControl.lock = false
  treasury : w.treasury.lock = false
  riskRegistry : w.riskRegistry.lock = false
  invoiceNft : w.invoiceNft.lock = false
  repayment : ∀ i, busy ≠ some i → w.pool.repaymentLock i = false
  marketplace : w.marketplace.lock = held

/-- No lock is held. -/
abbrev World.Unlocked (w : World) : Prop := w.LockedBy false none

/-- No transaction is turned away by a reentrancy lock. -/
def Admits (d : Deployment) (w : World) : Prop :=
  ∀ (c : Call) (t : World), c.run d w ≠ .error (.contract .reentrancy) t

/-! ## Bodies that do not return `Reentrancy` -/

/-- From a state in which `I` holds, `m` keeps `I` and does not return `Reentrancy`. -/
abbrev Enters {σ α : Type} (I : σ → Prop) (m : Host σ α) : Prop :=
  Avoids I (.contract .reentrancy) m

section Rules

variable {σ α δ : Type} {I J : σ → Prop} {m : Host σ α}

/-- The value is not the error `Reentrancy`. -/
def Unreentrant (x : Except KoraError α) : Prop := x ≠ .error .reentrancy

@[grind ←] theorem unreentrant_guardK {c : Prop} [Decidable c] {e : KoraError}
    (he : e ≠ .reentrancy) : Unreentrant (guardK c e) := by
  unfold Unreentrant guardK
  split_ifs <;> simp [he]

@[grind ←] theorem unreentrant_okOr {o : Option α} {e : KoraError} (he : e ≠ .reentrancy) :
    Unreentrant (okOr o e) := by
  intro h
  exact he (okOr_error.mp h).2

@[grind ←] theorem unreentrant_bind {x : Except KoraError α} {k : α → Except KoraError δ}
    (hx : Unreentrant x) (hk : ∀ a, Unreentrant (k a)) : Unreentrant (x >>= k) := by
  cases x with
  | error e =>
    intro h
    cases h
    exact hx rfl
  | ok a => exact hk a

@[grind ←] theorem unreentrant_ok {a : α} : Unreentrant (.ok a : Except KoraError α) := by
  intro h
  cases h

@[grind ←] theorem unreentrant_pure {a : α} : Unreentrant (pure a : Except KoraError α) :=
  unreentrant_ok

@[grind ←] theorem unreentrant_error {e : KoraError} (he : e ≠ .reentrancy) :
    Unreentrant (.error e : Except KoraError α) := by
  intro h
  cases h
  exact he rfl

@[grind ←] theorem enters_requireAuth {a : Address} : Enters I (requireAuth a : Host σ Unit) := by
  unfold requireAuth
  grind

@[grind ←] theorem enters_timestamp : Enters I (timestamp : Host σ ℕ) := .asks _

@[grind ←] theorem enters_net : Enters I (net : Host σ Deployment) := .asks _

@[grind ←] theorem enters_check {x : Except KoraError α} (hx : Unreentrant x) :
    Enters I (check x : Host σ α) := by
  refine .ofExcept x fun e he h => hx ?_
  cases h
  exact he

@[grind ←] theorem enters_ensure {c : Prop} [Decidable c] {e : KoraError}
    (he : e ≠ .reentrancy) : Enters I (ensure c e : Host σ Unit) :=
  .require c fun h => he (Failure.contract.inj h)

@[grind ←] theorem enters_fetch {o : σ → Option α} {e : KoraError} (he : e ≠ .reentrancy) :
    Enters I (fetch o e : Host σ α) :=
  .bind (.gets o) fun _ => .ofOption _ fun h => he (Failure.contract.inj h)

@[grind ←] theorem enters_callFrom {self target expected : Address} (hm : Enters I m) :
    Enters I (callFrom self target expected m) :=
  .bind (.require _ nofun) fun _ => .local hm.keeps nofun

@[grind ←] theorem enters_tryCallFrom {self target expected : Address} (hm : Enters I m) :
    Enters I (tryCallFrom self target expected m) := .attempt (enters_callFrom hm).keeps

/-- **The guard is passed** when the lock is free, and it is free again at the end. -/
theorem enters_guarded {isLocked : σ → Bool} {setLock : Bool → σ → σ}
    (hfree : ∀ s, I s → isLocked s = false) (he : ∀ s, I s → J (setLock true s))
    (hl : ∀ s, J s → I (setLock false s)) (hm : Enters J m) :
    Enters I (guarded isLocked setLock m) := by
  have hbracket : Enters I (bracket (setLock true) (setLock false) m) := .bracket he hl hm
  have hrun : ∀ env s, I s → guarded isLocked setLock m env s =
      bracket (setLock true) (setLock false) m env s := by
    intro env s hs
    rw [guarded, gets_run, ensure_run (hfree s hs)]
  refine ⟨fun env s a t hs h => ?_, fun env s t hs h => ?_⟩
  · rw [hrun env s hs] at h
    exact hbracket.keeps env s a t hs h
  · rw [hrun env s hs] at h
    exact hbracket.avoids env s t hs h

end Rules

/-! ## Access control -/

namespace AccessControl

/-- The lock is free. -/
def Storage.Free (S : Storage) : Prop := S.lock = false

theorem enters_guard {α : Type} {m : Body α} (hm : Enters (fun _ => True) m) :
    Enters Storage.Free (guard m) :=
  enters_guarded (fun _ hs => hs) (fun _ _ => trivial) (fun _ _ => rfl) hm

@[grind ←] theorem enters_appendAuditEntry {I : Storage → Prop} {actor : Address}
    {action : AdminActionType} (hI : ∀ S log, I S → I { S with audit := log }) :
    Enters I (appendAuditEntry actor action) :=
  .bind (.asks _) fun _ => .modify fun S hS => hI S _ hS

theorem enters_performAction {action : AdminAction} :
    Enters Storage.Free (performAction action) := by
  cases action
  all_goals
    unfold performAction
    grind [Storage.Free]

theorem Op.enters (op : Op) : Enters Storage.Free op.exec := by
  cases op
  all_goals
    simp only [exec, AccessControl.initializeContract, AccessControl.pause, AccessControl.unpause,
      AccessControl.grantRole, AccessControl.revokeRole, AccessControl.transferAdmin,
      AccessControl.configureMultisig, AccessControl.proposeAction, AccessControl.approveAction,
      AccessControl.executeAction, AccessControl.proposeParameterChange,
      AccessControl.voteParameterChange, AccessControl.executeParameterChange, requireAdmin,
      isPaused, getRole, loadMultisigConfig, requireSigner, requireValidParameter]
    repeat' first
      | with_reducible refine Avoids.bind ?_ fun _ => ?_
      | with_reducible refine enters_guard ?_
  all_goals grind [Storage.Free, requireNotSelf, enters_performAction]

end AccessControl

/-! ## The treasury and the risk registry -/

/-- The first part of the state satisfies `P`. -/
def First {σ τ : Type} (P : σ → Prop) (s : σ × τ) : Prop := P s.1

section Pairs

variable {σ τ α : Type} {P : σ → Prop}

theorem enters_first {m : Host σ α} (hm : Enters P m) :
    Enters (First P) (zoom Prod.fst (fun S (s : σ × τ) => (S, s.2)) m) := by
  refine Avoids.zoom (P := P) (fun s hs => ?_) (fun S s hS _ => ?_) hm
  · exact hs
  · exact hS

theorem keeps_second {m : Host τ α} :
    Keeps (First P) (zoom Prod.snd (fun T (s : σ × τ) => (s.1, T)) m) := by
  intro env s a t hs h
  obtain ⟨T, -, rfl⟩ := zoom_ok.mp h
  exact hs

end Pairs

namespace Treasury

/-- The lock is free. -/
def Storage.Free (S : Storage) : Prop := S.lock = false

@[grind ←] theorem enters_callToken {α : Type} {P : Storage → Prop} {m : Host Tokens α} :
    Enters (First P) (callToken m) :=
  .bind (.asks _) fun _ => .local keeps_second nofun

theorem enters_guard {α : Type} {m : Host State α} (hm : Enters (First fun _ => True) m) :
    Enters (First Storage.Free) (guard m) :=
  enters_guarded (fun _ hs => hs) (fun _ _ => trivial) (fun _ _ => rfl) hm

theorem Op.enters (op : Op) : Enters (First Storage.Free) op.exec := by
  cases op
  all_goals
    simp only [exec, Treasury.initializeContract, Treasury.setFeeBps, Treasury.whitelistToken,
      Treasury.collectFee, Treasury.withdraw, Treasury.emergencyWithdraw,
      Treasury.proposeWithdrawalCap, Treasury.executeWithdrawalCap, requireAdmin,
      requireWhitelistedToken, appendAuditEntry, enforceRateLimit, recordWithdrawal]
    repeat' first
      | with_reducible refine Avoids.bind ?_ fun _ => ?_
      | with_reducible refine enters_guard ?_
      | with_reducible refine Avoids.ite ?_ ?_
      | refine enters_first ?_
  all_goals grind [Storage.Free, requireNotSelf, requireValidFeeBps, requireWithinMaxAmount]

end Treasury

namespace RiskRegistry

/-- The lock is free. -/
def Storage.Free (S : Storage) : Prop := S.lock = false

@[grind ←] theorem enters_callToken {α : Type} {P : Storage → Prop} {m : Host Tokens α} :
    Enters (First P) (callToken m) :=
  .bind (.asks _) fun _ => .local keeps_second nofun

theorem enters_guard {α : Type} {m : Body α} (hm : Enters (fun _ => True) m) :
    Enters Storage.Free (guard m) :=
  enters_guarded (fun _ hs => hs) (fun _ _ => trivial) (fun _ _ => rfl) hm

theorem enters_setDebtorScore {verifier : Address} {hash : Bytes} {score : ℕ} :
    Enters Storage.Free (setDebtorScore verifier hash score) := by
  unfold setDebtorScore requireVerifier
  repeat' first
    | with_reducible refine Avoids.bind ?_ fun _ => ?_
    | split
  all_goals grind [Storage.Free, requireExactLength, requireValidRiskScore]

theorem enters_recordDefault {admin sme : Address} :
    Enters Storage.Free (recordDefault admin sme) := by
  simp only [recordDefault, requireAdmin, putProfile, appendAuditEntry]
  repeat' first
    | with_reducible refine Avoids.bind ?_ fun _ => ?_
    | with_reducible refine enters_guard ?_
    | with_reducible refine Avoids.ite ?_ ?_
  all_goals grind [Storage.Free]

theorem Op.enters (op : Op) : Enters (First Storage.Free) op.exec := by
  cases op
  case setDebtorScore => exact enters_first enters_setDebtorScore
  case recordDefault => exact enters_first enters_recordDefault
  all_goals
    simp only [exec, RiskRegistry.initializeContract, RiskRegistry.transferAdmin,
      RiskRegistry.addVerifier, RiskRegistry.removeVerifier, RiskRegistry.registerSme,
      RiskRegistry.updateSmeScore, RiskRegistry.setCreditLimit,
      RiskRegistry.incrementInvoiceCount, requireAdmin, requireVerifier, requireInvoiceNft,
      putProfile, appendAuditEntry]
    repeat' first
      | with_reducible refine Avoids.bind ?_ fun _ => ?_
      | with_reducible refine enters_guard ?_
      | with_reducible refine Avoids.ite ?_ ?_
      | refine enters_first ?_
  all_goals grind [Storage.Free, requireNotSelf, requireValidRiskScore]

end RiskRegistry

/-! ## Invoices -/

namespace InvoiceNft

/-- The locks that the contract sees are free, but for its own, which is `held`. -/
structure State.LockedBy (held : Bool) (s : State) : Prop where
  accessControl : s.accessControl.lock = false
  riskRegistry : s.riskRegistry.lock = false
  own : s.own.lock = held

section Helpers

variable {α : Type} {held : Bool}

@[grind ←] theorem enters_modifyOwn {f : Storage → Storage} (h : ∀ S, (f S).lock = S.lock) :
    Enters (State.LockedBy held) (modifyOwn f) :=
  .modify fun s hs => ⟨hs.accessControl, hs.riskRegistry, (h s.own).trans hs.own⟩

theorem enters_guard {m : Body α} (hm : Enters (State.LockedBy true) m) :
    Enters (State.LockedBy false) (guard m) :=
  enters_guarded (fun _ hs => hs.own) (fun _ hs => ⟨hs.accessControl, hs.riskRegistry, rfl⟩)
    (fun _ hs => ⟨hs.accessControl, hs.riskRegistry, rfl⟩) hm

@[grind ←] theorem enters_requireNotPaused : Enters (State.LockedBy held) requireNotPaused := by
  have hread : Enters (State.LockedBy held)
      (zoom State.accessControl (fun S s => { s with accessControl := S })
        AccessControl.isPaused) := by
    refine Avoids.zoom (P := AccessControl.Storage.Free) (fun s hs => hs.accessControl)
      (fun S s hS hs => ⟨hS, hs.riskRegistry, hs.own⟩) (.gets _)
  unfold requireNotPaused
  grind

@[grind ←] theorem enters_requireWithinCreditLimit {sme : Address} {amount : ℤ} :
    Enters (State.LockedBy held) (requireWithinCreditLimit sme amount) := by
  have hread : Enters (State.LockedBy held)
      (zoom State.riskRegistry (fun S s => { s with riskRegistry := S })
        (RiskRegistry.getSmeProfile sme)) := by
    refine Avoids.zoom (P := RiskRegistry.Storage.Free) (fun s hs => hs.riskRegistry)
      (fun S s hS hs => ⟨hs.accessControl, hS, hs.own⟩) ?_
    unfold RiskRegistry.getSmeProfile
    grind
  unfold requireWithinCreditLimit
  repeat' first
    | with_reducible refine Avoids.bind ?_ fun _ => ?_
    | with_reducible refine Avoids.ite ?_ ?_
    | split
  all_goals grind

@[grind ←] theorem enters_loadInvoice {id : ℕ} :
    Enters (State.LockedBy held) (loadInvoice id) := by
  unfold loadInvoice
  grind

@[grind ←] theorem enters_migrateRecords {ids : List ℕ} :
    Enters (State.LockedBy held) (migrateRecords ids) := by
  induction ids with
  | nil => exact .pure ()
  | cons id ids ih =>
    unfold migrateRecords migrateRecord putInvoice
    grind

end Helpers

theorem Op.enters (op : Op) : Enters (State.LockedBy false) op.exec := by
  cases op
  all_goals simp only [exec, InvoiceNft.initializeContract, InvoiceNft.setRiskRegistry,
    InvoiceNft.migrate, InvoiceNft.setAuthorizedCallers, InvoiceNft.mintInvoice,
    InvoiceNft.amendInvoice, InvoiceNft.withdrawInvoice, InvoiceNft.commitMetadataHash,
    InvoiceNft.setListed, InvoiceNft.setFunded, InvoiceNft.setRepaid, InvoiceNft.setDefaulted,
    InvoiceNft.freezeInvoice, InvoiceNft.unfreezeInvoice, InvoiceNft.addAllowedCurrency,
    InvoiceNft.removeAllowedCurrency, requireAdmin, requireAuthorizedCaller, putInvoice,
    releaseExposure]
  all_goals
    repeat' first
      | with_reducible refine Avoids.bind ?_ fun _ => ?_
      | with_reducible refine enters_guard ?_
      | with_reducible refine Avoids.ite ?_ ?_
  all_goals grind [requireNotSelf, requireDistinct, requireNonZeroAmount, requireFutureTimestamp,
    requireValidRiskScore, requireNonEmptyBytes, requireMaxLengthBytes, requireNonEmptyString,
    requireMaxLengthString]

end InvoiceNft

/-! ## The ledger -/

section Ledger

variable {α : Type} {held : Bool} {busy : Option ℕ}

@[grind ←] theorem enters_onAccessControl {m : AccessControl.Body α}
    (hm : Enters AccessControl.Storage.Free m) :
    Enters (World.LockedBy held busy) (onAccessControl m) := by
  refine Avoids.zoom (P := AccessControl.Storage.Free) (fun w hw => hw.accessControl) ?_ hm
  intro S w hS hw
  exact { hw with accessControl := hS }

@[grind ←] theorem enters_onPriceOracle {m : PriceOracle.Body α} (hm : Enters (fun _ => True) m) :
    Enters (World.LockedBy held busy) (onPriceOracle m) := by
  refine Avoids.zoom (P := fun _ => True) (fun _ _ => trivial) ?_ hm
  intro S w _ hw
  exact { hw with }

@[grind ←] theorem enters_onTreasury {m : Host Treasury.State α}
    (hm : Enters (First Treasury.Storage.Free) m) :
    Enters (World.LockedBy held busy) (onTreasury m) := by
  refine Avoids.zoom (P := First Treasury.Storage.Free) (fun w hw => hw.treasury) ?_ hm
  intro s w hs hw
  exact { hw with treasury := hs }

@[grind ←] theorem enters_onRiskRegistry {m : Host RiskRegistry.State α}
    (hm : Enters (First RiskRegistry.Storage.Free) m) :
    Enters (World.LockedBy held busy) (onRiskRegistry m) := by
  refine Avoids.zoom (P := First RiskRegistry.Storage.Free) (fun w hw => hw.riskRegistry) ?_ hm
  intro s w hs hw
  exact { hw with riskRegistry := hs }

@[grind ←] theorem enters_onInvoiceNft {m : InvoiceNft.Body α}
    (hm : Enters (InvoiceNft.State.LockedBy false) m) :
    Enters (World.LockedBy held busy) (onInvoiceNft m) := by
  refine Avoids.zoom (P := InvoiceNft.State.LockedBy false)
    (fun w hw => ⟨hw.accessControl, hw.riskRegistry, hw.invoiceNft⟩) ?_ hm
  intro s w hs hw
  exact { hw with
    accessControl := hs.accessControl
    riskRegistry := hs.riskRegistry
    invoiceNft := hs.own }

@[grind ←] theorem enters_callToken {self : Address} {m : Host Tokens α} :
    Enters (World.LockedBy held busy) (callToken self m) := by
  refine .local (fun env w a w' hw h => ?_) nofun
  obtain ⟨T, -, rfl⟩ := zoom_ok.mp h
  exact { hw with }

end Ledger

/-! ## The pool -/

namespace FinancingPool

section Helpers

variable {α : Type} {held : Bool} {busy : Option ℕ}

@[grind ←] theorem enters_modifyOwn {f : Storage → Storage}
    (h : ∀ S, (f S).repaymentLock = S.repaymentLock) :
    Enters (World.LockedBy held busy) (modifyOwn f) :=
  .modify fun w hw => { hw with repayment := fun i hi => by rw [h]; exact hw.repayment i hi }

@[grind ←] theorem enters_setRepaymentLock {i : ℕ} {b : Bool} :
    Enters (World.LockedBy held (some i)) (setRepaymentLock i b) := by
  refine .modify fun w hw => { hw with repayment := fun j hj => ?_ }
  have hne : j ≠ i := fun h => hj (by rw [h])
  exact (Function.update_of_ne hne _ _).trans (hw.repayment j hj)

@[grind ←] theorem enters_requireNotPaused :
    Enters (World.LockedBy held busy) requireNotPaused := by
  unfold requireNotPaused AccessControl.isPaused
  grind

@[grind ←] theorem enters_callInvoiceNft {m : InvoiceNft.Body α}
    (hm : Enters (InvoiceNft.State.LockedBy false) m) :
    Enters (World.LockedBy held busy) (callInvoiceNft m) := by
  unfold callInvoiceNft
  grind

@[grind ←] theorem enters_loadInvoice {i : ℕ} :
    Enters (World.LockedBy held busy) (loadInvoice i) :=
  enters_callInvoiceNft InvoiceNft.enters_loadInvoice

@[grind ←] theorem enters_distributeYield {i : ℕ} {token : Address} {total face : ℤ} :
    Enters (World.LockedBy held busy) (distributeYield i token total face) := by
  have hpay : ∀ decimals positions acc,
      Enters (World.LockedBy held busy) (payInvestors token total decimals positions acc) := by
    intro decimals positions
    induction positions with
    | nil => exact fun acc => .pure acc
    | cons e rest ih =>
      intro acc
      unfold payInvestors bpsOfNormalized normalizeAmount denormalizeAmount bpsQuotient
      grind
  unfold distributeYield
  grind

@[grind ←] theorem enters_getInvoice {i : ℕ} :
    Enters (InvoiceNft.State.LockedBy held) (InvoiceNft.getInvoice i) :=
  InvoiceNft.enters_loadInvoice

@[grind ←] theorem enters_isInvoiceFrozen {i : ℕ} :
    Enters (InvoiceNft.State.LockedBy held) (InvoiceNft.isInvoiceFrozen i) := .gets _

@[grind ←] theorem enters_setFunded {caller : Address} {i : ℕ} :
    Enters (InvoiceNft.State.LockedBy false) (InvoiceNft.setFunded caller i) :=
  InvoiceNft.Op.enters (.setFunded caller i)

@[grind ←] theorem enters_setRepaid {caller : Address} {i : ℕ} :
    Enters (InvoiceNft.State.LockedBy false) (InvoiceNft.setRepaid caller i) :=
  InvoiceNft.Op.enters (.setRepaid caller i)

@[grind ←] theorem enters_setDefaulted {caller : Address} {i : ℕ} :
    Enters (InvoiceNft.State.LockedBy false) (InvoiceNft.setDefaulted caller i) :=
  InvoiceNft.Op.enters (.setDefaulted caller i)

@[grind ←] theorem enters_recordDefaultAt {admin sme : Address} :
    Enters (World.LockedBy held busy) (recordDefaultAt admin sme) := by
  have hrecord : Enters (World.LockedBy held busy)
      (onRiskRegistry (RiskRegistry.own (RiskRegistry.recordDefault admin sme))) :=
    enters_onRiskRegistry (enters_first RiskRegistry.enters_recordDefault)
  unfold recordDefaultAt
  grind

@[grind ←] theorem enters_convertIfNeeded {amount : ℤ} {currency : Symbol} {token : Address} :
    Enters (World.LockedBy held busy) (convertIfNeeded amount currency token) := by
  have hconvert : Enters (World.LockedBy held busy)
      (onPriceOracle (PriceOracle.convert amount currency "USDC")) := by
    refine enters_onPriceOracle ?_
    unfold PriceOracle.convert PriceOracle.getPrice
    grind
  unfold convertIfNeeded
  grind

end Helpers

theorem enters_repay {payer token : Address} {i : ℕ} {amount : ℤ} {held : Bool} :
    Enters (World.LockedBy held (some i)) (repay payer i token amount) := by
  simp only [repay, requireUnlocked, loadPool, putPool]
  repeat' first
    | with_reducible refine Avoids.bind ?_ fun _ => ?_
    | with_reducible refine Avoids.ite ?_ ?_
  all_goals grind [applyLatePenalty, bpsOf, bpsQuotient]

theorem enters_acceptEarlySettlement {investor : Address} {i : ℕ} {held : Bool} :
    Enters (World.LockedBy held (some i)) (acceptEarlySettlement investor i) := by
  simp only [acceptEarlySettlement, requireUnlocked, loadPool, putPool, putEarlySettlement]
  repeat' first
    | with_reducible refine Avoids.bind ?_ fun _ => ?_
    | with_reducible refine Avoids.ite ?_ ?_
  all_goals grind

/-- A body that ends by releasing the lock it may have taken. -/
theorem enters_of_released {i : ℕ} {m : Host World Unit}
    (hm : Enters (World.LockedBy false (some i)) m)
    (h : ∀ env w w', m env w = .ok () w' → w.pool.repaymentLock i = false →
      w'.pool.repaymentLock i = false) : Enters World.Unlocked m := by
  refine hm.strengthen (fun w hw => { hw with repayment := fun j _ => hw.repayment j nofun }) ?_
  intro env w u w' hw hw' hrun
  refine { hw' with repayment := fun j _ => ?_ }
  by_cases hj : j = i
  · subst hj
    exact h env w w' hrun (hw.repayment j nofun)
  · exact hw'.repayment j fun heq => hj (Option.some.inj heq).symm

theorem setRepaymentLock_released {i : ℕ} {env : Env} {w w' : World} {u : Unit}
    (h : setRepaymentLock i false env w = .ok u w') : w'.pool.repaymentLock i = false := by
  rw [setRepaymentLock, modifyOwn, modify_ok] at h
  subst h
  exact Function.update_self ..

theorem repay_released {payer token : Address} {i : ℕ} {amount : ℤ} {env : Env} {w w' : World}
    (h : repay payer i token amount env w = .ok () w') : w'.pool.repaymentLock i = false := by
  obtain ⟨-, -, -, -, -, p, inv, r, owed, applied, -, -, -, -, -, -, w₁, -, h⟩ := repay_iff.mp h
  rw [ite_run] at h
  split_ifs at h
  · obtain ⟨_, _, -, h⟩ := bind_ok.mp h
    obtain ⟨_, _, -, h⟩ := bind_ok.mp h
    exact setRepaymentLock_released h
  · exact setRepaymentLock_released h

theorem acceptEarlySettlement_released {investor : Address} {i : ℕ} {env : Env} {w w' : World}
    (h : acceptEarlySettlement investor i env w = .ok () w')
    (hfree : w.pool.repaymentLock i = false) : w'.pool.repaymentLock i = false := by
  simp only [acceptEarlySettlement, requireAuth_seq_ok, requireNotPaused_seq_ok,
    requireUnlocked_seq_ok, fetch_seq_ok, loadPool_seq_ok, ensure_seq_ok, check_seq_ok,
    ite_run] at h
  obtain ⟨-, -, -, -, offer, -, p, -, -, pos, -, -, bps, -, h⟩ := h
  split_ifs at h
  · iterate 6 obtain ⟨_, _, -, h⟩ := bind_ok.mp h
    exact setRepaymentLock_released h
  · rw [putEarlySettlement, modifyOwn, modify_ok] at h
    subst h
    exact hfree

theorem Op.enters (op : Op) : Enters World.Unlocked op.exec := by
  cases op
  case repay payer i token amount =>
    exact enters_of_released enters_repay fun _ _ _ h _ => repay_released h
  case acceptEarlySettlement investor i =>
    exact enters_of_released enters_acceptEarlySettlement fun _ _ _ h hfree =>
      acceptEarlySettlement_released h hfree
  all_goals simp only [exec, FinancingPool.initializeContract, FinancingPool.setMaxPositionBps,
    FinancingPool.releaseFunds, FinancingPool.recordPosition, FinancingPool.listPositionForSale,
    FinancingPool.buyPosition, FinancingPool.markDefault, FinancingPool.proposeEarlySettlement,
    FinancingPool.cancelEarlySettlement, requireAdmin, loadPool, putPool, requireUnlocked,
    putEarlySettlement, shareBpsOf]
  all_goals
    repeat' first
      | with_reducible refine Avoids.bind ?_ fun _ => ?_
      | with_reducible refine Avoids.ite ?_ ?_
  all_goals grind [requireNotSelf, requireValidFeeBps]

end FinancingPool

/-! ## The marketplace -/

namespace Marketplace

section Helpers

variable {α : Type} {held : Bool}

@[grind ←] theorem enters_modifyOwn {f : Storage → Storage} (h : ∀ S, (f S).lock = S.lock) :
    Enters (World.LockedBy held none) (modifyOwn f) :=
  .modify fun w hw => { hw with marketplace := (h w.marketplace).trans hw.marketplace }

theorem enters_guard {m : Host World α} (hm : Enters (World.LockedBy true none) m) :
    Enters World.Unlocked (guard m) :=
  enters_guarded (fun _ hw => hw.marketplace) (fun _ hw => { hw with marketplace := rfl })
    (fun _ hw => { hw with marketplace := rfl }) hm

@[grind ←] theorem enters_loadConfig : Enters (World.LockedBy held none) loadConfig := by
  unfold loadConfig
  refine .bind (.gets _) fun packed => ?_
  cases packed with
  | some config => exact .pure config
  | none =>
    refine .bind (enters_fetch nofun) fun config => .bind (enters_modifyOwn fun S => ?_) fun _ =>
      .pure config
    rfl

@[grind ←] theorem enters_requireNotPaused :
    Enters (World.LockedBy held none) requireNotPaused := by
  unfold requireNotPaused AccessControl.isPaused
  grind

@[grind ←] theorem enters_callInvoiceNft {config : MarketplaceConfig} {m : InvoiceNft.Body α}
    (hm : Enters (InvoiceNft.State.LockedBy false) m) :
    Enters (World.LockedBy held none) (callInvoiceNft config m) := by
  unfold callInvoiceNft
  grind

@[grind ←] theorem enters_setListed {caller : Address} {i : ℕ} :
    Enters (InvoiceNft.State.LockedBy false) (InvoiceNft.setListed caller i) :=
  InvoiceNft.Op.enters (.setListed caller i)

@[grind ←] theorem enters_requireComplianceAttested {sme : Address} :
    Enters (World.LockedBy held none) (requireComplianceAttested sme) := by
  have hread : Enters (World.LockedBy held none)
      (onRiskRegistry (RiskRegistry.own (RiskRegistry.isComplianceAttested sme))) :=
    enters_onRiskRegistry (enters_first (.gets _))
  unfold requireComplianceAttested
  grind

@[grind ←] theorem enters_collectContribution {config : MarketplaceConfig}
    {token investor : Address} {fee net : ℤ} :
    Enters World.Unlocked (collectContribution config token investor fee net) := by
  have hcollect : Enters World.Unlocked
      (onTreasury (Treasury.own (Treasury.collectFee token fee))) :=
    enters_onTreasury (Treasury.Op.enters (.collectFee token fee))
  unfold collectContribution
  repeat' first
    | with_reducible refine Avoids.bind ?_ fun _ => ?_
    | with_reducible refine Avoids.ite ?_ ?_
  all_goals grind

@[grind ←] theorem enters_releaseFunds {caller token : Address} {i : ℕ} :
    Enters World.Unlocked (FinancingPool.releaseFunds caller i token) :=
  FinancingPool.Op.enters (.releaseFunds caller i token)

end Helpers

theorem Op.enters (op : Op) : Enters World.Unlocked op.exec := by
  cases op
  all_goals simp only [exec, Marketplace.initializeContract, Marketplace.setReferrerSplitBps,
    Marketplace.updateFeeBps, Marketplace.setFeeBps, Marketplace.setTierFeeBps,
    Marketplace.whitelistToken, Marketplace.removeTokenWhitelist, Marketplace.listInvoice,
    Marketplace.fundInvoice, Marketplace.cancelListing, Marketplace.requestCancellation,
    Marketplace.adminConfirmCancellation, Marketplace.claimRefund, requireAdmin,
    requireWhitelistedToken, loadListing, putListing]
  all_goals
    repeat' first
      | with_reducible refine Avoids.bind ?_ fun _ => ?_
      | with_reducible refine Avoids.ite ?_ ?_
      | with_reducible refine enters_guard ?_
      | split
  all_goals grind [requireValidFeeBps, requireNonZeroAmount, requireWithinMaxAmount,
    requireFutureTimestamp, bpsOfNormalized, normalizeAmount, denormalizeAmount, bpsQuotient,
    safeAdd, safeSub]

end Marketplace

/-! ## Runs -/

/-- **Every entry point enters and leaves** a ledger with free locks. -/
theorem Entry.enters (e : Entry) : Enters World.Unlocked e.exec := by
  cases e with
  | accessControl op => exact enters_onAccessControl (AccessControl.Op.enters op)
  | priceOracle op =>
    refine enters_onPriceOracle ?_
    cases op
    all_goals
      simp only [PriceOracle.Op.exec, PriceOracle.initializeContract, PriceOracle.setPrice,
        PriceOracle.requireAdmin]
      grind
  | treasury op => exact enters_onTreasury (Treasury.Op.enters op)
  | riskRegistry op => exact enters_onRiskRegistry (RiskRegistry.Op.enters op)
  | invoiceNft op => exact enters_onInvoiceNft (InvoiceNft.Op.enters op)
  | pool op => exact FinancingPool.Op.enters op
  | marketplace op => exact Marketplace.Op.enters op
  | transfer token src dst amount =>
    have htransfer : Enters (fun _ => True) (Token.transfer token src dst amount) := by
      unfold Token.transfer Token.authorise
      grind
    refine Avoids.zoom (P := fun _ => True) (fun _ _ => trivial) ?_ htransfer
    intro T w _ hw
    exact { hw with }

theorem unlocked_step {d : Deployment} {w : World} (hw : w.Unlocked) (a : Action) :
    (step d w a).Unlocked := by
  rcases step_cases d w a with ⟨c, rfl, -, h⟩ | ⟨n, rfl, h⟩ | ⟨c, rfl, -, h⟩
  · exact (Entry.enters c.entry).keeps _ _ _ _ hw h
  · rw [h]
    exact { hw with }
  · rw [h]
    exact hw

theorem unlocked_run (d : Deployment) (now : ℕ) (tokens : Tokens) (as : List Action) :
    (run (step d) (genesis now tokens) as).Unlocked := by
  have hgenesis : (genesis now tokens).Unlocked := ⟨rfl, rfl, rfl, rfl, fun _ _ => rfl, rfl⟩
  exact always (I := World.Unlocked) (fun _ a hw => unlocked_step hw a) hgenesis as

/-- **Never locked.** In every run, all the locks are free between two transactions: the five
reentrancy locks and the repayment lock of every invoice; and no transaction fails with
`Reentrancy`. -/
theorem never_locked (d : Deployment) (now : ℕ) (tokens : Tokens) (as : List Action) :
    (run (step d) (genesis now tokens) as).Unlocked ∧
      Admits d (run (step d) (genesis now tokens) as) := by
  have hfree := unlocked_run d now tokens as
  exact ⟨hfree, fun c t => (Entry.enters c.entry).avoids _ _ t hfree⟩

end Kora
