import Kora.AccessControl.Spec
import Kora.System.Effect

set_option autoImplicit false

/-!
# Who writes the controls

The storage of access control and the rate limit of the treasury are written by the entry points
of these two contracts only, whatever calls the other contracts make.

* `Entry.exec_outer`, `Entry.exec_controls`: every other entry point leaves them alone;
* `Performs`: the action is a successful transaction at an entry point;
* **`accessControl_step`**, **`limit_step`**: what a step does to each of them.
-/

namespace Kora

open Exec

/-- The rate limit of the treasury: its cap, the start of the epoch and what was withdrawn in it. -/
def Treasury.Storage.limit (S : Treasury.Storage) : Option ℤ × Option ℕ × Option ℤ :=
  (S.withdrawalCap, S.epochStart, S.epochWithdrawn)

/-- The storage of access control and the rate limit. -/
def World.controls (w : World) : AccessControl.Storage × Option ℤ × Option ℕ × Option ℤ :=
  (w.accessControl, w.treasury.limit)

/-- What the invoice contract sees of the other contracts. -/
def InvoiceNft.State.others (s : InvoiceNft.State) : AccessControl.Storage × RiskRegistry.Storage :=
  (s.accessControl, s.riskRegistry)

/-- Access control, the risk registry, and the treasury up to its fee ledger. -/
def World.outer (w : World) : AccessControl.Storage × RiskRegistry.Storage × Treasury.Storage :=
  (w.accessControl, w.riskRegistry, { w.treasury with collected := fun _ => none })

/-! ## Frames -/

section Frames

variable {α σ τ : Type} {f : σ → τ}

@[grind ←] theorem frames_requireAuth {a : Address} : Frames f (requireAuth a : Host σ Unit) := by
  unfold requireAuth
  grind

@[grind ←] theorem frames_timestamp : Frames f (timestamp : Host σ ℕ) := Frames.asks _

@[grind ←] theorem frames_net : Frames f (net : Host σ Deployment) := Frames.asks _

@[grind ←] theorem frames_check {x : Except KoraError α} : Frames f (check x : Host σ α) :=
  Frames.ofExcept _ _

@[grind ←] theorem frames_ensure {c : Prop} [Decidable c] {e : KoraError} :
    Frames f (ensure c e : Host σ Unit) := Frames.require c _

@[grind ←] theorem frames_fetch {o : σ → Option α} {e : KoraError} :
    Frames f (fetch o e : Host σ α) := by
  unfold fetch
  grind

theorem frames_guarded {isLocked : σ → Bool} {setLock : Bool → σ → σ} {m : Host σ α}
    (h : ∀ b s, f (setLock b s) = f s) (hm : Frames f m) :
    Frames f (guarded isLocked setLock m) := by
  unfold guarded
  grind

@[grind ←] theorem frames_callFrom {self target expected : Address} {m : Host σ α}
    (hm : Frames f m) : Frames f (callFrom self target expected m) := by
  unfold callFrom
  grind

section Invariants

variable {I : σ → Prop}

@[grind ←] theorem keeps_requireAuth {a : Address} : Keeps I (requireAuth a : Host σ Unit) :=
  (frames_requireAuth (f := id)).keeps I

@[grind ←] theorem keeps_timestamp : Keeps I (timestamp : Host σ ℕ) := Keeps.asks _

@[grind ←] theorem keeps_ensure {c : Prop} [Decidable c] {e : KoraError} :
    Keeps I (ensure c e : Host σ Unit) := Keeps.require c _

@[grind ←] theorem keeps_fetch {o : σ → Option α} {e : KoraError} :
    Keeps I (fetch o e : Host σ α) := (frames_fetch (f := id)).keeps I

end Invariants

@[grind ←] theorem frames_callToken {self : Address} {m : Host Tokens α} :
    Frames World.outer (callToken self m) := by
  intro env w a w' h
  obtain ⟨T, -, rfl⟩ := callToken_ok.mp h
  rfl

@[grind ←] theorem frames_onPriceOracle {m : PriceOracle.Body α} :
    Frames World.outer (onPriceOracle m) := by
  intro env w a w' h
  obtain ⟨S, -, rfl⟩ := onPriceOracle_ok.mp h
  rfl

@[grind ←] theorem frames_isComplianceAttested {sme : Address} : Frames World.outer
    (onRiskRegistry (RiskRegistry.own (RiskRegistry.isComplianceAttested sme))) := by
  intro env w a w' h
  obtain ⟨s, hs, rfl⟩ := onRiskRegistry_ok.mp h
  obtain ⟨S, hS, rfl⟩ := zoom_ok.mp hs
  obtain ⟨-, rfl⟩ := gets_ok.mp hS
  rfl

@[grind ←] theorem frames_isPaused :
    Frames World.outer (onAccessControl AccessControl.isPaused) := by
  intro env w b w' h
  obtain ⟨S, hS, rfl⟩ := onAccessControl_ok.mp h
  obtain ⟨-, rfl⟩ := AccessControl.isPaused_ok.mp hS
  rfl

@[grind ←] theorem frames_collectFee {token : Address} {amount : ℤ} :
    Frames World.outer (onTreasury (Treasury.own (Treasury.collectFee token amount))) := by
  intro env w a w' h
  obtain ⟨s, hs, rfl⟩ := onTreasury_ok.mp h
  obtain ⟨S, hS, rfl⟩ := zoom_ok.mp hs
  obtain ⟨-, -, rfl⟩ := Treasury.collectFee_ok hS
  rfl

namespace InvoiceNft

@[grind ←] theorem frames_modifyOwn {g : Storage → Storage} :
    Frames State.others (modifyOwn g) := Frames.modify fun _ => rfl

theorem frames_guard {m : Body α} (hm : Frames State.others m) :
    Frames State.others (guard m) := frames_guarded (fun _ _ => rfl) hm

@[grind ←] theorem frames_requireNotPaused : Frames State.others requireNotPaused := by
  have hread : Frames State.others
      (zoom State.accessControl (fun S s => { s with accessControl := S })
        AccessControl.isPaused) := by
    intro env s b t h
    obtain ⟨S, hS, rfl⟩ := zoom_ok.mp h
    obtain ⟨-, rfl⟩ := AccessControl.isPaused_ok.mp hS
    rfl
  unfold requireNotPaused
  grind

@[grind ←] theorem frames_loadInvoice {id : ℕ} : Frames State.others (loadInvoice id) := by
  intro env s inv t h
  rw [(loadInvoice_ok.mp h).2]

@[grind ←] theorem frames_requireWithinCreditLimit {sme : Address} {amount : ℤ} :
    Frames State.others (requireWithinCreditLimit sme amount) := by
  intro env s u t h
  rw [(requireWithinCreditLimit_ok.mp h).2]

@[grind ←] theorem frames_migrateRecords {ids : List ℕ} :
    Frames State.others (migrateRecords ids) := by
  induction ids with
  | nil => exact Frames.pure ()
  | cons id ids ih =>
    unfold migrateRecords migrateRecord putInvoice
    grind

theorem Op.frames_exec (op : Op) : Frames State.others op.exec := by
  cases op
  all_goals simp only [exec, InvoiceNft.initializeContract, InvoiceNft.setRiskRegistry,
    InvoiceNft.migrate, InvoiceNft.setAuthorizedCallers, InvoiceNft.mintInvoice,
    InvoiceNft.amendInvoice, InvoiceNft.withdrawInvoice, InvoiceNft.commitMetadataHash,
    InvoiceNft.setListed, InvoiceNft.setFunded, InvoiceNft.setRepaid, InvoiceNft.setDefaulted,
    InvoiceNft.freezeInvoice, InvoiceNft.unfreezeInvoice, InvoiceNft.addAllowedCurrency,
    InvoiceNft.removeAllowedCurrency, requireAdmin, requireAuthorizedCaller, putInvoice,
    releaseExposure]
  all_goals
    repeat' first
      | with_reducible refine Frames.bind ?_ fun _ => ?_
      | with_reducible refine frames_guard ?_
  all_goals grind

end InvoiceNft

@[grind ←] theorem frames_onInvoiceNft {m : InvoiceNft.Body α}
    (hm : Frames InvoiceNft.State.others m) : Frames World.outer (onInvoiceNft m) := by
  intro env w a w' h
  obtain ⟨s, hs, rfl⟩ := onInvoiceNft_ok.mp h
  obtain ⟨hac, hrr⟩ : s.accessControl = w.accessControl ∧ s.riskRegistry = w.riskRegistry := by
    simpa [InvoiceNft.State.others] using hm _ _ _ _ hs
  simp [World.outer, hac, hrr]

namespace FinancingPool

@[grind ←] theorem frames_modifyOwn {g : Storage → Storage} :
    Frames World.outer (modifyOwn g) := Frames.modify fun _ => rfl

@[grind ←] theorem frames_callInvoiceNft {m : InvoiceNft.Body α}
    (hm : Frames InvoiceNft.State.others m) : Frames World.outer (callInvoiceNft m) := by
  unfold callInvoiceNft
  grind

@[grind ←] theorem frames_payInvestors {token : Address} {total acc : ℤ} {decimals : ℕ}
    {positions : List (Address × Position)} :
    Frames World.outer (payInvestors token total decimals positions acc) := by
  induction positions generalizing acc with
  | nil => exact Frames.pure acc
  | cons e rest ih =>
    unfold payInvestors
    grind

@[grind ←] theorem frames_setRepaid {caller : Address} {id : ℕ} :
    Frames InvoiceNft.State.others (InvoiceNft.setRepaid caller id) :=
  InvoiceNft.Op.frames_exec (.setRepaid caller id)

@[grind ←] theorem frames_setFunded {caller : Address} {id : ℕ} :
    Frames InvoiceNft.State.others (InvoiceNft.setFunded caller id) :=
  InvoiceNft.Op.frames_exec (.setFunded caller id)

@[grind ←] theorem frames_getInvoice {id : ℕ} :
    Frames InvoiceNft.State.others (InvoiceNft.getInvoice id) :=
  InvoiceNft.frames_loadInvoice

@[grind ←] theorem frames_isInvoiceFrozen {id : ℕ} :
    Frames InvoiceNft.State.others (InvoiceNft.isInvoiceFrozen id) := Frames.gets _

theorem Op.frames_exec {op : Op} (hop : ∀ admin i token, op ≠ .markDefault admin i token) :
    Frames World.outer op.exec := by
  cases op
  case markDefault admin i token => exact absurd rfl (hop admin i token)
  all_goals simp only [exec, FinancingPool.initializeContract, FinancingPool.setMaxPositionBps,
    FinancingPool.releaseFunds, FinancingPool.recordPosition, FinancingPool.listPositionForSale,
    FinancingPool.buyPosition, FinancingPool.repay, FinancingPool.proposeEarlySettlement,
    FinancingPool.acceptEarlySettlement, FinancingPool.cancelEarlySettlement, requireAdmin,
    requireNotPaused, loadInvoice, loadPool, putPool, requireUnlocked, setRepaymentLock,
    convertIfNeeded, distributeYield, putEarlySettlement]
  all_goals
    repeat' first
      | with_reducible refine Frames.bind ?_ fun _ => ?_
      | with_reducible refine Frames.ite ?_ ?_
  all_goals grind

end FinancingPool

namespace Marketplace

@[grind ←] theorem frames_modifyOwn {g : Storage → Storage} :
    Frames World.outer (modifyOwn g) := Frames.modify fun _ => rfl

theorem frames_guard {m : Host World α} (hm : Frames World.outer m) :
    Frames World.outer (guard m) := frames_guarded (fun _ _ => rfl) hm

@[grind ←] theorem frames_loadConfig : Frames World.outer loadConfig := by
  intro env w config w' h
  obtain ⟨-, rfl⟩ := loadConfig_ok.mp h
  rfl

@[grind ←] theorem frames_callInvoiceNft {config : MarketplaceConfig} {m : InvoiceNft.Body α}
    (hm : Frames InvoiceNft.State.others m) :
    Frames World.outer (callInvoiceNft config m) := by
  unfold callInvoiceNft
  grind

@[grind ←] theorem frames_releaseFunds {marketplace token : Address} {id : ℕ} :
    Frames World.outer (FinancingPool.releaseFunds marketplace id token) := by
  have hop : ∀ admin i t, FinancingPool.Op.releaseFunds marketplace id token ≠
      .markDefault admin i t := by
    rintro _ _ _ ⟨⟩
  exact FinancingPool.Op.frames_exec hop

@[grind ←] theorem frames_setListed {caller : Address} {id : ℕ} :
    Frames InvoiceNft.State.others (InvoiceNft.setListed caller id) :=
  InvoiceNft.Op.frames_exec (.setListed caller id)

theorem frames_listInvoice {seller token : Address} {id : ℕ} {price face : ℤ} {deadline : ℕ}
    {referrer : Option Address} :
    Frames World.outer (listInvoice seller id price face token deadline referrer) := by
  cases referrer
  all_goals
    simp only [listInvoice, requireNotPaused, requireWhitelistedToken, requireComplianceAttested,
      putListing]
    repeat' first
      | with_reducible refine Frames.bind ?_ fun _ => ?_
      | with_reducible refine frames_guard ?_
  all_goals grind

theorem Op.frames_exec (op : Op) : Frames World.outer op.exec := by
  cases op
  case listInvoice => exact frames_listInvoice
  all_goals simp only [exec, Marketplace.initializeContract, Marketplace.setReferrerSplitBps,
    Marketplace.updateFeeBps, Marketplace.setFeeBps, Marketplace.setTierFeeBps,
    Marketplace.whitelistToken, Marketplace.removeTokenWhitelist, Marketplace.fundInvoice,
    Marketplace.cancelListing, Marketplace.requestCancellation,
    Marketplace.adminConfirmCancellation, Marketplace.claimRefund, requireAdmin, requireNotPaused,
    requireWhitelistedToken, loadListing, putListing, collectContribution]
  all_goals
    repeat' first
      | with_reducible refine Frames.bind ?_ fun _ => ?_
      | with_reducible refine Frames.ite ?_ ?_
  all_goals grind

end Marketplace

end Frames

/-! ## Steps -/

section Steps

variable {env : Env} {w w' : World} {e : Entry}

/-- **Outside access control, the risk registry and the treasury**, no entry point writes these
contracts but for fees and recorded defaults. -/
theorem Entry.exec_outer (hac : ∀ op, e ≠ .accessControl op) (ht : ∀ op, e ≠ .treasury op)
    (hr : ∀ op, e ≠ .riskRegistry op)
    (hd : ∀ admin i token, e ≠ .pool (.markDefault admin i token))
    (h : e.exec env w = .ok () w') : w'.outer = w.outer := by
  cases e with
  | accessControl op => exact absurd rfl (hac op)
  | treasury op => exact absurd rfl (ht op)
  | riskRegistry op => exact absurd rfl (hr op)
  | priceOracle op => exact frames_onPriceOracle _ _ _ _ h
  | invoiceNft op => exact frames_onInvoiceNft (InvoiceNft.Op.frames_exec op) _ _ _ _ h
  | pool op =>
    have hop : ∀ admin i token, op ≠ .markDefault admin i token :=
      fun admin i token he => hd admin i token (congrArg Entry.pool he)
    exact FinancingPool.Op.frames_exec hop _ _ _ _ h
  | marketplace op => exact Marketplace.Op.frames_exec op _ _ _ _ h
  | transfer token src dst amount =>
    rw [exec, zoom_ok] at h
    obtain ⟨T, -, rfl⟩ := h
    rfl

theorem Entry.exec_controls (hac : ∀ op, e ≠ .accessControl op) (ht : ∀ op, e ≠ .treasury op)
    (h : e.exec env w = .ok () w') : w'.controls = w.controls := by
  by_cases hr : ∃ op, e = .riskRegistry op
  · obtain ⟨op, rfl⟩ := hr
    obtain ⟨s, -, rfl⟩ := onRiskRegistry_ok.mp h
    rfl
  by_cases hd : ∃ admin i token, e = .pool (.markDefault admin i token)
  · obtain ⟨admin, i, token, rfl⟩ := hd
    obtain ⟨_, _, -, -, -, -, -, _, _, _, -, rfl⟩ := FinancingPool.markDefault_ok h
    rfl
  · push Not at hr hd
    exact congrArg (fun o => (o.1, o.2.2.limit)) (exec_outer hac ht hr hd h)

theorem Entry.exec_accessControl (hac : ∀ op, e ≠ .accessControl op)
    (h : e.exec env w = .ok () w') : w'.accessControl = w.accessControl := by
  cases e with
  | treasury op =>
    obtain ⟨s, -, rfl⟩ := onTreasury_ok.mp h
    rfl
  | accessControl | priceOracle | riskRegistry | invoiceNft | pool | marketplace | transfer =>
    refine congrArg Prod.fst (exec_controls hac ?_ h)
    nofun

theorem Entry.exec_limit (ht : ∀ op, e ≠ .treasury op) (h : e.exec env w = .ok () w') :
    w'.treasury.limit = w.treasury.limit := by
  cases e with
  | accessControl op =>
    obtain ⟨S, -, rfl⟩ := onAccessControl_ok.mp h
    rfl
  | treasury | priceOracle | riskRegistry | invoiceNft | pool | marketplace | transfer =>
    refine congrArg Prod.snd (exec_controls ?_ ht h)
    nofun

/-- The action is a successful transaction at the entry point `e`. -/
def Performs (d : Deployment) (w : World) (e : Entry) : Action → Prop
  | .call c => c.Succeeds d w ∧ c.entry = e
  | .tick _ => False

variable {d : Deployment}

theorem Performs.unique {a : Action} {e₁ e₂ : Entry} (h₁ : Performs d w e₁ a)
    (h₂ : Performs d w e₂ a) : e₁ = e₂ := by
  cases a with
  | tick n => exact h₁.elim
  | call c => exact h₁.2.symm.trans h₂.2

theorem Performs.exec {a : Action} {e : Entry} (h : Performs d w e a) :
    ∃ c, a = .call c ∧ e.exec (c.env d w) w = .ok () (step d w a) := by
  cases a with
  | tick n => exact h.elim
  | call c =>
    obtain ⟨hs, rfl⟩ := h
    obtain ⟨w', hw⟩ := Call.succeeds_iff.mp hs
    exact ⟨c, rfl, by rw [step_call_of_ok hw, hw]⟩

theorem accessControl_step (d : Deployment) (w : World) (a : Action) :
    (∃ c op, a = .call c ∧ Performs d w (.accessControl op) a ∧
      AccessControl.Effect (c.env d w) w.accessControl op (step d w a).accessControl) ∨
    ((step d w a).accessControl = w.accessControl ∧
      ∀ op, ¬ Performs d w (.accessControl op) a) := by
  rcases step_cases d w a with ⟨c, rfl, hs, h⟩ | ⟨n, rfl, h⟩ | ⟨c, rfl, hn, h⟩
  · by_cases hac : ∃ op, c.entry = .accessControl op
    · obtain ⟨op, he⟩ := hac
      rw [he] at h
      obtain ⟨S, hS, hw⟩ := onAccessControl_ok.mp h
      rw [← hw]
      exact Or.inl ⟨c, op, rfl, ⟨hs, he⟩, AccessControl.Op.exec_effect hS⟩
    · rw [not_exists] at hac
      exact Or.inr ⟨Entry.exec_accessControl hac h, fun op hop => hac op hop.2⟩
  · rw [h]
    exact Or.inr ⟨rfl, fun _ => id⟩
  · rw [h]
    exact Or.inr ⟨rfl, fun _ hop => hn hop.1⟩

theorem limit_step (d : Deployment) (w : World) (a : Action) :
    (∃ c op, a = .call c ∧ Performs d w (.treasury op) a ∧
      op.exec (c.env d w) (w.treasury, w.tokens) =
        .ok () ((step d w a).treasury, (step d w a).tokens)) ∨
    ((step d w a).treasury.limit = w.treasury.limit ∧ ∀ op, ¬ Performs d w (.treasury op) a) := by
  rcases step_cases d w a with ⟨c, rfl, hs, h⟩ | ⟨n, rfl, h⟩ | ⟨c, rfl, hn, h⟩
  · by_cases ht : ∃ op, c.entry = .treasury op
    · obtain ⟨op, he⟩ := ht
      rw [he] at h
      obtain ⟨s, hS, hw⟩ := onTreasury_ok.mp h
      rw [← hw]
      exact Or.inl ⟨c, op, rfl, ⟨hs, he⟩, hS⟩
    · rw [not_exists] at ht
      exact Or.inr ⟨Entry.exec_limit ht h, fun op hop => ht op hop.2⟩
  · rw [h]
    exact Or.inr ⟨rfl, fun _ => id⟩
  · rw [h]
    exact Or.inr ⟨rfl, fun _ hop => hn hop.1⟩

end Steps

end Kora
