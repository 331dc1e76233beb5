import Kora.Treasury.CapChange
import Kora.Upgrade

set_option autoImplicit false

/-!
# The timelocks of the system

Contract upgrades and the withdrawal cap are under the same kind of timelock, over all runs of the
system with upgrades.

* `UpgradeEffect`, `UpgradeOp.exec_effect`: what an upgrade entry point does to the codes;
* `SurvivesUpgrades`, **`UpgradeOp.keeps_exec`**: what holds of the ledger across an upgrade;
* `upgrade_step`, `capLock_step`: a step of the system is a step of each timelock;
* **`timelock_safe`**: upgrades and cap changes install what was proposed last, after the delay, and
  each proposal at most once.
-/

namespace Kora

open Exec Run

/-! ## Upgrade entry points -/

section EntryPoints

variable {env : Env} {s t : Chain} {u : Unit} {c : Upgradable}
  {requireAdmin record : Host World Unit} {admin : Address} {hash : WasmHash}

theorem onWorld_ok {α : Type} {m : Host World α} {a : α} : onWorld m env s = .ok a t ↔
    ∃ w, m env s.world = .ok a w ∧ { s with world := w } = t := zoom_ok

theorem onWorld_seq_ok {α β : Type} {m : Host World α} {k : α → Host Chain β} {b : β} :
    (onWorld m >>= k) env s = .ok b t ↔
      ∃ a w, m env s.world = .ok a w ∧ k a env { s with world := w } = .ok b t := by
  simp only [bind_ok, onWorld_ok]
  constructor
  · rintro ⟨a, _, ⟨w, hw, rfl⟩, hk⟩
    exact ⟨a, w, hw, hk⟩
  · rintro ⟨a, w, hw, hk⟩
    exact ⟨a, _, ⟨w, hw, rfl⟩, hk⟩

/-- What an upgrade entry point does to the pending upgrades and the codes. -/
inductive UpgradeEffect (env : Env) (s t : Chain) : UpgradeOp → Prop
  | propose (c : Upgradable) (admin : Address) (hash : WasmHash) :
      t.upgradeProposal = Function.update s.upgradeProposal c (some (hash, env.timestamp)) →
      t.wasm = s.wasm → UpgradeEffect env s t (.propose c admin hash)
  | execute (c : Upgradable) (admin : Address) (hash : WasmHash) (proposedAt : ℕ) :
      s.upgradeProposal c = some (hash, proposedAt) →
      proposedAt + upgradeTimelockDelay ≤ env.timestamp →
      t.upgradeProposal = Function.update s.upgradeProposal c none →
      t.wasm = Function.update s.wasm c (some hash) → UpgradeEffect env s t (.execute c admin)

theorem UpgradeEffect.of_propose
    (h : proposeUpgrade c requireAdmin record admin hash env s = .ok u t) :
    UpgradeEffect env s t (.propose c admin hash) := by
  simp only [proposeUpgrade, requireAuth_seq_ok, onWorld_seq_ok, timestamp_run, modify_run,
    onWorld_ok] at h
  obtain ⟨-, _, w, -, w', -, rfl⟩ := h
  exact .propose c admin hash rfl rfl

theorem UpgradeEffect.of_execute
    (h : executeUpgrade c requireAdmin record admin env s = .ok u t) :
    UpgradeEffect env s t (.execute c admin) := by
  simp -implicitDefEqProofs only [executeUpgrade, updateCurrentContractWasm, requireAuth_seq_ok,
    onWorld_seq_ok, fetch_seq_ok, timestamp_run, ofOption_seq_ok, ensure_seq_ok, modify_run,
    gets_run, require_seq_ok, modify_ok] at h
  obtain ⟨-, _, w, -, ⟨wasmHash, proposedAt⟩, hpending, ready, hready, hle, _, w', -, -, rfl⟩ := h
  obtain ⟨rfl, -⟩ := checkedAddU64_some.mp hready
  exact .execute c admin wasmHash proposedAt hpending hle rfl rfl

theorem UpgradeOp.exec_effect {op : UpgradeOp} (h : op.exec env s = .ok u t) :
    UpgradeEffect env s t op := by
  cases op with
  | propose c admin hash => cases c <;> exact .of_propose h
  | execute c admin => cases c <;> exact .of_execute h

end EntryPoints

/-! ## The ledger across an upgrade -/

/-- `I` survives what the upgrade entry points write to the ledger: the configuration that the
marketplace assembles, and the audit logs. -/
structure SurvivesUpgrades (I : World → Prop) : Prop where
  marketplace : ∀ w config, I w →
    I { w with marketplace := { w.marketplace with config := some config } }
  accessControl : ∀ w now actor action, I w → I { w with accessControl := { w.accessControl with
    audit := w.accessControl.audit.append .accessControl now actor action } }
  treasury : ∀ w now actor action, I w → I { w with treasury := { w.treasury with
    audit := w.treasury.audit.append .treasury now actor action } }
  riskRegistry : ∀ w now actor action, I w → I { w with riskRegistry := { w.riskRegistry with
    audit := w.riskRegistry.audit.append .riskRegistry now actor action } }

section Invariants

variable {I : World → Prop} {c : Upgradable} {requireAdmin record : Host World Unit}
  {admin : Address}

theorem keeps_onWorld {m : Host World Unit} (hm : Keeps I m) :
    Keeps (fun s : Chain => I s.world) (onWorld m) := Keeps.zoom (fun _ _ => rfl) hm

theorem keeps_proposeUpgrade (hcheck : Keeps I requireAdmin) (hrecord : Keeps I record)
    (hash : WasmHash) : Keeps (fun s : Chain => I s.world)
      (proposeUpgrade c requireAdmin record admin hash) := by
  unfold proposeUpgrade
  refine keeps_requireAuth.bind fun _ => (keeps_onWorld hcheck).bind fun _ => ?_
  refine keeps_timestamp.bind fun now => ?_
  refine Keeps.bind (Keeps.modify ?_) fun _ => keeps_onWorld hrecord
  exact fun _ hs => hs

theorem keeps_executeUpgrade (hcheck : Keeps I requireAdmin) (hrecord : Keeps I record) :
    Keeps (fun s : Chain => I s.world) (executeUpgrade c requireAdmin record admin) := by
  unfold executeUpgrade updateCurrentContractWasm
  refine keeps_requireAuth.bind fun _ => (keeps_onWorld hcheck).bind fun _ => ?_
  refine keeps_fetch.bind fun proposal => keeps_timestamp.bind fun now => ?_
  refine (Keeps.ofOption _ _).bind fun ready => keeps_ensure.bind fun _ => ?_
  refine Keeps.bind (Keeps.modify ?_) fun _ => (keeps_onWorld hrecord).bind fun _ => ?_
  · exact fun _ hs => hs
  refine (Keeps.gets _).bind fun ok => (Keeps.require _ _).bind fun _ => Keeps.modify ?_
  exact fun _ hs => hs

/-! The checks of the admin leave the ledger alone, but for the marketplace. -/

theorem AccessControl.keeps_requireAdmin :
    Keeps I (onAccessControl (AccessControl.requireAdmin admin)) := by
  have hsame : Frames id (AccessControl.requireAdmin admin) := by
    unfold AccessControl.requireAdmin
    grind
  exact (Frames.zoom_same (f := id) (fun _ => rfl) hsame).keeps I

theorem InvoiceNft.keeps_requireAdmin : Keeps I (onInvoiceNft (InvoiceNft.requireAdmin admin)) := by
  have hsame : Frames id (InvoiceNft.requireAdmin admin) := by
    unfold InvoiceNft.requireAdmin
    grind
  exact (Frames.zoom_same (f := id) (fun _ => rfl) hsame).keeps I

theorem FinancingPool.keeps_requireAdmin : Keeps I (FinancingPool.requireAdmin admin) := by
  unfold FinancingPool.requireAdmin
  grind

theorem Treasury.keeps_requireAdmin :
    Keeps I (onTreasury (Treasury.own (Treasury.requireAdmin admin))) := by
  have hsame : Frames id (Treasury.requireAdmin admin) := by
    unfold Treasury.requireAdmin
    grind
  have hown : Frames id (Treasury.own (Treasury.requireAdmin admin)) :=
    Frames.zoom_same (fun _ => rfl) hsame
  exact (Frames.zoom_same (f := id) (fun _ => rfl) hown).keeps I

theorem RiskRegistry.keeps_requireAdmin :
    Keeps I (onRiskRegistry (RiskRegistry.own (RiskRegistry.requireAdmin admin))) := by
  have hsame : Frames id (RiskRegistry.requireAdmin admin) := by
    unfold RiskRegistry.requireAdmin
    grind
  have hown : Frames id (RiskRegistry.own (RiskRegistry.requireAdmin admin)) :=
    Frames.zoom_same (fun _ => rfl) hsame
  exact (Frames.zoom_same (f := id) (fun _ => rfl) hown).keeps I

theorem Marketplace.keeps_checkAdmin (hI : SurvivesUpgrades I) :
    Keeps I (Marketplace.checkAdmin admin) := by
  intro env w u w' hw h
  simp only [Marketplace.checkAdmin, Marketplace.requireAdmin_seq_ok, pure_ok] at h
  obtain ⟨config, -, -, -, rfl⟩ := h
  exact hI.marketplace w config hw

/-! The records. -/

theorem AccessControl.keeps_record (hI : ∀ w now actor action, I w → I { w with
      accessControl := { w.accessControl with
        audit := w.accessControl.audit.append .accessControl now actor action } })
    {action : AdminActionType} :
    Keeps I (onAccessControl (AccessControl.appendAuditEntry admin action)) := by
  intro env w u w' hw h
  obtain ⟨S, hS, rfl⟩ := onAccessControl_ok.mp h
  rw [← AccessControl.appendAuditEntry_ok.mp hS]
  exact hI w _ _ _ hw

theorem Treasury.keeps_record (hI : ∀ w now actor action, I w → I { w with
      treasury := { w.treasury with
        audit := w.treasury.audit.append .treasury now actor action } })
    {action : AdminActionType} :
    Keeps I (onTreasury (Treasury.own (Treasury.appendAuditEntry admin action))) := by
  intro env w u w' hw h
  obtain ⟨s, hs, rfl⟩ := onTreasury_ok.mp h
  obtain ⟨S, hS, rfl⟩ := Treasury.own_ok.mp hs
  rw [← Treasury.appendAuditEntry_ok.mp hS]
  exact hI w _ _ _ hw

theorem RiskRegistry.keeps_record (hI : ∀ w now actor action, I w → I { w with
      riskRegistry := { w.riskRegistry with
        audit := w.riskRegistry.audit.append .riskRegistry now actor action } })
    {action : AdminActionType} :
    Keeps I (onRiskRegistry (RiskRegistry.own (RiskRegistry.appendAuditEntry admin action))) := by
  intro env w u w' hw h
  obtain ⟨s, hs, rfl⟩ := onRiskRegistry_ok.mp h
  obtain ⟨S, hS, rfl⟩ := zoom_ok.mp hs
  rw [RiskRegistry.appendAuditEntry, timestamp_run, modify_ok] at hS
  rw [← hS]
  exact hI w _ _ _ hw

theorem UpgradeOp.keeps_exec_of (hmarket : ∀ admin, Keeps I (Marketplace.checkAdmin admin))
    (hac : ∀ admin action, Keeps I (onAccessControl (AccessControl.appendAuditEntry admin action)))
    (ht : ∀ admin action,
      Keeps I (onTreasury (Treasury.own (Treasury.appendAuditEntry admin action))))
    (hr : ∀ admin action,
      Keeps I (onRiskRegistry (RiskRegistry.own (RiskRegistry.appendAuditEntry admin action))))
    (op : UpgradeOp) : Keeps (fun s : Chain => I s.world) op.exec := by
  cases op with
  | propose c admin hash =>
    cases c with
    | accessControl => exact keeps_proposeUpgrade AccessControl.keeps_requireAdmin (hac _ _) hash
    | invoiceNft => exact keeps_proposeUpgrade InvoiceNft.keeps_requireAdmin (Keeps.pure ()) hash
    | marketplace => exact keeps_proposeUpgrade (hmarket admin) (Keeps.pure ()) hash
    | financingPool =>
      exact keeps_proposeUpgrade FinancingPool.keeps_requireAdmin (Keeps.pure ()) hash
    | treasury => exact keeps_proposeUpgrade Treasury.keeps_requireAdmin (ht _ _) hash
    | riskRegistry => exact keeps_proposeUpgrade RiskRegistry.keeps_requireAdmin (hr _ _) hash
  | execute c admin =>
    cases c with
    | accessControl => exact keeps_executeUpgrade AccessControl.keeps_requireAdmin (hac _ _)
    | invoiceNft => exact keeps_executeUpgrade InvoiceNft.keeps_requireAdmin (Keeps.pure ())
    | marketplace => exact keeps_executeUpgrade (hmarket admin) (Keeps.pure ())
    | financingPool => exact keeps_executeUpgrade FinancingPool.keeps_requireAdmin (Keeps.pure ())
    | treasury => exact keeps_executeUpgrade Treasury.keeps_requireAdmin (ht _ _)
    | riskRegistry => exact keeps_executeUpgrade RiskRegistry.keeps_requireAdmin (hr _ _)

/-- **What survives the writes of the upgrade entry points holds across them.** -/
theorem UpgradeOp.keeps_exec (hI : SurvivesUpgrades I) (op : UpgradeOp) :
    Keeps (fun s : Chain => I s.world) op.exec :=
  keeps_exec_of (fun _ => Marketplace.keeps_checkAdmin hI)
    (fun _ _ => AccessControl.keeps_record hI.accessControl)
    (fun _ _ => Treasury.keeps_record hI.treasury)
    (fun _ _ => RiskRegistry.keeps_record hI.riskRegistry) op

end Invariants

/-! ## Steps -/

namespace Chain

/-- The ledger clock. -/
def now (s : Chain) : ℕ := s.world.now

/-- The code that a step proposes for the contract `c`. -/
def proposesUpgrade (d : Deployment) (c : Upgradable) (s : Chain) : Action → Option WasmHash
  | .upgrade signers (.propose c' admin hash) =>
    if c' = c ∧ Upgrades d s signers (.propose c' admin hash) then some hash else none
  | _ => none

/-- The code that a step installs as an upgrade of the contract `c`; it is read off the chain that
the step leaves. -/
def installsUpgrade (d : Deployment) (c : Upgradable) (s : Chain) (a : Action) : Option WasmHash :=
  match a with
  | .upgrade signers (.execute c' admin) =>
    if c' = c ∧ Upgrades d s signers (.execute c' admin) then (step d s a).wasm c else none
  | _ => none

/-- The withdrawal cap that a step proposes. -/
def proposesCap (d : Deployment) (s : Chain) : Action → Option ℤ
  | .base a => Treasury.proposesCap d s.world a
  | _ => none

/-- The withdrawal cap that a step installs. -/
def installsCap (d : Deployment) (s : Chain) : Action → Option ℤ
  | .base a => Treasury.installsCap d s.world a
  | _ => none

section Steps

variable {d : Deployment} {s : Chain}

/-- **A step of the system is a step of the upgrade timelock** of each contract, and changes a code
by an execution only. -/
theorem upgrade_step (d : Deployment) (c : Upgradable) (s : Chain) (a : Action) :
    TimelockStep upgradeTimelockDelay s.now (s.upgradeProposal c) (proposesUpgrade d c s a)
        (installsUpgrade d c s a) ((step d s a).upgradeProposal c) ∧
      ((step d s a).wasm c = s.wasm c ∨ installsUpgrade d c s a = (step d s a).wasm c) := by
  cases a with
  | base a => exact ⟨.keep _, Or.inl rfl⟩
  | upload hash => exact ⟨.keep _, Or.inl rfl⟩
  | upgrade signers op =>
    rcases step_upgrade_cases d s signers op with ⟨hexec, hs⟩ | ⟨hn, hsame⟩
    · cases UpgradeOp.exec_effect hexec with
      | propose c' admin hash hpending hwasm =>
        rw [hpending, hwasm]
        refine ⟨?_, Or.inl rfl⟩
        by_cases hc : c' = c
        · subst hc
          rw [Function.update_self, proposesUpgrade, if_pos ⟨rfl, hs⟩]
          exact .propose _ hash
        · rw [Function.update_of_ne (Ne.symm hc), proposesUpgrade, if_neg fun h => hc h.1]
          exact .keep _
      | execute c' admin hash proposedAt hbefore hle hpending hwasm =>
        by_cases hc : c' = c
        · subst hc
          have hinstalls : installsUpgrade d c' s (.upgrade signers (.execute c' admin)) =
              some hash := by
            rw [installsUpgrade, if_pos ⟨rfl, hs⟩, hwasm, Function.update_self]
          rw [hinstalls, hpending, hwasm, Function.update_self, Function.update_self, hbefore]
          exact ⟨.execute hash proposedAt hle, Or.inr rfl⟩
        · have hinstalls : installsUpgrade d c s (.upgrade signers (.execute c' admin)) = none :=
            if_neg fun h => hc h.1
          rw [hinstalls, hpending, hwasm, Function.update_of_ne (Ne.symm hc),
            Function.update_of_ne (Ne.symm hc)]
          exact ⟨.keep _, Or.inl rfl⟩
    · have hproposes : proposesUpgrade d c s (.upgrade signers op) = none := by
        cases op with
        | propose c' admin hash => exact if_neg fun h => hn h.2
        | execute c' admin => rfl
      have hinstalls : installsUpgrade d c s (.upgrade signers op) = none := by
        cases op with
        | propose c' admin hash => rfl
        | execute c' admin => exact if_neg fun h => hn h.2
      rw [hproposes, hinstalls, hsame]
      exact ⟨.keep _, Or.inl rfl⟩

theorem caps_upgrade (signers : List Address) (op : UpgradeOp) :
    (step d s (.upgrade signers op)).world.treasury.caps = s.world.treasury.caps := by
  have hsurvives : SurvivesUpgrades fun w => w.treasury.caps = s.world.treasury.caps :=
    ⟨fun _ _ => id, fun _ _ _ _ => id, fun _ _ _ _ => id, fun _ _ _ _ => id⟩
  rcases step_upgrade_cases d s signers op with ⟨hexec, -⟩ | ⟨-, hsame⟩
  · exact UpgradeOp.keeps_exec hsurvives op _ _ _ _ rfl hexec
  · rw [hsame]

theorem capLock_step (d : Deployment) (s : Chain) (a : Action) :
    Treasury.CapStep s.now s.world.treasury (step d s a).world.treasury (proposesCap d s a)
      (installsCap d s a) := by
  cases a with
  | base a => exact Treasury.cap_step d s.world a
  | upgrade signers op => exact .of_caps (caps_upgrade signers op)
  | upload hash => exact .of_caps rfl

/-- Without an admin the treasury has no cap. -/
theorem unset_step (d : Deployment) (s : Chain) (a : Action)
    (hs : s.world.treasury.admin = none → s.world.treasury.withdrawalCap = none)
    (ha : (step d s a).world.treasury.admin = none) :
    (step d s a).world.treasury.withdrawalCap = none := by
  obtain ⟨hnone, hcap⟩ := (capLock_step d s a).unset ha
  rw [hcap]
  exact hs hnone

end Steps

/-- **Timelock safety**: in every run of the system with upgrades, an executed upgrade of a contract
and an executed change of the withdrawal cap install the value proposed last, at least
`upgradeTimelockDelay` seconds after it was proposed, and each proposal at most once; nothing else
changes the code of a contract or the cap, but for the initialisation of the treasury, which stores
the cap `0` where there was none. -/
theorem timelock_safe (d : Deployment) (start : ℕ) (tokens : Tokens) :
    (∀ c, Timelocked (step d) now upgradeTimelockDelay (proposesUpgrade d c) (installsUpgrade d c)
        (genesis start tokens)) ∧
      (∀ c as a, (step d (run (step d) (genesis start tokens) as) a).wasm c ≠
          (run (step d) (genesis start tokens) as).wasm c →
        installsUpgrade d c (run (step d) (genesis start tokens) as) a =
          (step d (run (step d) (genesis start tokens) as) a).wasm c) ∧
      Timelocked (step d) now upgradeTimelockDelay (proposesCap d) (installsCap d)
        (genesis start tokens) ∧
      ∀ as a, (step d (run (step d) (genesis start tokens) as) a).world.treasury.withdrawalCap ≠
          (run (step d) (genesis start tokens) as).world.treasury.withdrawalCap →
        installsCap d (run (step d) (genesis start tokens) as) a =
            (step d (run (step d) (genesis start tokens) as) a).world.treasury.withdrawalCap ∨
          (run (step d) (genesis start tokens) as).world.treasury.withdrawalCap = none ∧
            (step d (run (step d) (genesis start tokens) as) a).world.treasury.withdrawalCap =
              some 0 := by
  refine ⟨fun c => ?_, fun c as a hchange => ?_, ?_, fun as a hchange => ?_⟩
  · exact timelocked_of_step (fun s a => (upgrade_step d c s a).1) rfl
  · exact (upgrade_step d c _ a).2.resolve_left hchange
  · exact timelocked_of_step (fun s a => (capLock_step d s a).timelock) rfl
  · have hunset := always (I := fun s : Chain => s.world.treasury.admin = none →
      s.world.treasury.withdrawalCap = none) (unset_step d)
      (s := genesis start tokens) (fun _ => rfl) as
    rcases (capLock_step d (run (step d) (genesis start tokens) as) a).change with
      hsame | hinstalls | ⟨hnone, hzero⟩
    · exact absurd hsame hchange
    · exact Or.inl hinstalls
    · exact Or.inr ⟨hunset hnone, hzero⟩

/-- The code whose hash repeats one byte. -/
def sampleCode (b : UInt8) : WasmHash := ⟨List.replicate 32 b, List.length_replicate⟩

/-- Two codes are proposed for the treasury, the second ten seconds later, and a day goes by. -/
def sampleUpgrade : List Action := [
  .base (signed 1 (.treasury (.initializeContract 1 0))),
  .upload (sampleCode 7),
  .upload (sampleCode 8),
  .upgrade [1] (.propose .treasury 1 (sampleCode 7)),
  .base (.tick 10),
  .upgrade [1] (.propose .treasury 1 (sampleCode 8)),
  .base (.tick 86_400)]

/-- The second code is installed, at the end of its delay. -/
theorem timelock_sample :
    installsUpgrade sample .treasury (run (step sample) (genesis 0 sampleTokens) sampleUpgrade)
        (.upgrade [1] (.execute .treasury 1)) = some (sampleCode 8) ∧
      ∃ t, latest (step sample) (stamped now (proposesUpgrade sample .treasury))
          (genesis 0 sampleTokens) sampleUpgrade = some (sampleCode 8, t) ∧
        t + upgradeTimelockDelay ≤
          (run (step sample) (genesis 0 sampleTokens) sampleUpgrade).now := by
  have hinstalls : installsUpgrade sample .treasury
      (run (step sample) (genesis 0 sampleTokens) sampleUpgrade)
      (.upgrade [1] (.execute .treasury 1)) = some (sampleCode 8) := by
    decide +kernel
  exact ⟨hinstalls, ((timelock_safe sample 0 sampleTokens).1 .treasury).mature _ _ _ hinstalls⟩

end Chain

end Kora
