import Kora.System.Effect
import Kora.System.Timelock

set_option autoImplicit false

/-!
# One-time initialisation

The marketplace keeps its configuration packed under one key. An older storage has it under
individual keys, which `load_config` still honours and packs when it first reads them. `initialize`
only looks at the packed key.

* `configuredAdmin`: the admin that `load_config` sees;
* `Request`: the calls of the system with upgrades, and the views that load the configuration;
* `initializeContract_refused_iff`: when initialisation is refused;
* `packed_step`, `packed_request`: no call changes the admin of a packed configuration;
* **`initialised_once_iff`**: initialisation is one-time exactly when the configuration is packed.
-/

namespace Kora.Marketplace

open Exec Run

/-! ## Statement -/

/-- The admin that `loadConfig` sees. -/
def Storage.configuredAdmin (S : Storage) : Option Address :=
  S.currentConfig.map MarketplaceConfig.admin

/-- The views that load the configuration. -/
inductive View : Type
  | getFeeBps
  | getTierFeeBps (tier : RiskTier)
  | getConfig
  | getAdmin

/-- Run a view, dropping its value. -/
def View.exec : View → Host World Unit
  | .getFeeBps => do
    let _ ← Marketplace.getFeeBps
  | .getTierFeeBps tier => do
    let _ ← Marketplace.getTierFeeBps tier
  | .getConfig => do
    let _ ← Marketplace.getConfig
  | .getAdmin => do
    let _ ← Marketplace.getAdmin

/-- A step of the system with upgrades, or a view. -/
inductive Request : Type
  | chain (a : Chain.Action)
  | view (v : View)

/-- One request. -/
def request (d : Deployment) (s : Chain) : Request → Chain
  | .chain a => Chain.step d s a
  | .view v => { s with world := (v.exec (Chain.env d s []) s.world).commit s.world }

/-- Initialisation is refused, and no request changes the admin. -/
structure InitialisedOnce (d : Deployment) (s : Chain) : Prop where
  refuses : ∀ env admin nft fp treasury ac rr bps,
    initializeContract admin nft fp treasury ac rr bps env s.world =
      .error (.contract .alreadyInitialized) s.world
  keepsAdmin : ∀ rs, (run (request d) s rs).world.marketplace.configuredAdmin =
    s.world.marketplace.configuredAdmin

/-! ## Initialisation -/

section Initialisation

variable {env : Env} {w w' : World} {u : Unit} {x : Address}

/-- **Initialisation is refused exactly when the configuration is packed.** -/
theorem initializeContract_refused_iff {admin nft fp treasury ac rr : Address} {bps : ℕ} :
    initializeContract admin nft fp treasury ac rr bps env w =
      .error (.contract .alreadyInitialized) w ↔ w.marketplace.config.isSome = true := by
  rw [initializeContract, gets_run, ensure_seq_error, check_seq_error]
  constructor
  · rintro (⟨hpacked, -⟩ | ⟨-, ⟨e, hbps, he, -⟩ | ⟨_, -, h⟩⟩)
    · exact Option.isSome_iff_ne_none.mpr hpacked
    · -- the guard of the fee has another error
      cases he
      rw [requireValidFeeBps, guardK] at hbps
      split_ifs at hbps
      cases hbps
    · cases h
  · exact fun hpacked => Or.inl ⟨Option.isSome_iff_ne_none.mp hpacked, rfl, rfl⟩

/-- The configuration is packed, with the admin `x`. -/
def PackedFor (x : Address) (w : World) : Prop :=
  ∃ config, w.marketplace.config = some config ∧ config.admin = x

theorem PackedFor.configuredAdmin (h : PackedFor x w) :
    w.marketplace.configuredAdmin = some x := by
  obtain ⟨config, hpacked, rfl⟩ := h
  rw [Storage.configuredAdmin, Storage.currentConfig, hpacked]
  rfl

theorem keeps_loadConfig : Keeps (PackedFor x) loadConfig := by
  rintro env w config w' ⟨packed, hpacked, hx⟩ h
  obtain ⟨hc, rfl⟩ := loadConfig_ok.mp h
  rw [Storage.currentConfig, hpacked] at hc
  obtain rfl := Option.some.inj hc
  exact ⟨packed, rfl, hx⟩

theorem Op.keeps_packed {op : Op} : Keeps (PackedFor x) op.exec := by
  rintro env w ⟨⟩ w' ⟨packed, hpacked, hx⟩ h
  rcases exec_packed h with ⟨admin, nft, fp, treasury, ac, rr, bps, rfl, -⟩ | hconfigured
  · have hinit : Marketplace.initializeContract admin nft fp treasury ac rr bps env w =
        .ok () w' := h
    rw [initializeContract_refused_iff.mpr (Option.isSome_of_eq_some hpacked)] at hinit
    cases hinit
  · obtain ⟨config, packed', hc, hpacked', hadmin, -⟩ := hconfigured
    rw [Storage.currentConfig, hpacked] at hc
    obtain rfl := Option.some.inj hc
    exact ⟨packed', hpacked', hadmin.trans hx⟩

theorem View.keeps_packed (v : View) : Keeps (PackedFor x) v.exec := by
  have hload : Keeps (PackedFor x) loadConfig := keeps_loadConfig
  cases v with
  | getFeeBps => exact (hload.bind fun _ => .pure _).bind fun _ => .pure ()
  | getTierFeeBps tier =>
    refine Keeps.bind ?_ fun _ => .pure ()
    refine (Keeps.gets _).bind fun fee => ?_
    cases fee with
    | some fee => exact .pure fee
    | none => exact hload.attempt.bind fun _ => .pure _
  | getConfig => exact hload.bind fun _ => .pure ()
  | getAdmin => exact (hload.bind fun _ => .pure _).bind fun _ => .pure ()

end Initialisation

/-! ## Requests -/

section Requests

variable {d : Deployment} {x : Address}

theorem packed_step {w : World} (hw : PackedFor x w) (a : Action) : PackedFor x (step d w a) := by
  rcases step_cases d w a with ⟨c, rfl, -, h⟩ | ⟨n, rfl, h⟩ | ⟨c, rfl, -, h⟩
  · by_cases hm : ∃ op, c.entry = .marketplace op
    · obtain ⟨op, hop⟩ := hm
      rw [hop] at h
      exact Op.keeps_packed _ _ _ _ hw h
    · push Not at hm
      obtain ⟨config, hpacked, hx⟩ := hw
      exact ⟨config, by rw [(Entry.exec_effect h).marketplace hm, hpacked], hx⟩
  · rw [h]
    exact hw
  · rwa [h]

theorem packed_checkAdmin (admin : Address) : Keeps (PackedFor x) (checkAdmin admin) :=
  (keeps_loadConfig.bind fun _ => keeps_ensure.bind fun _ => .pure _).bind fun _ => .pure ()

theorem packed_request {s : Chain} (hs : PackedFor x s.world) (r : Request) :
    PackedFor x (request d s r).world := by
  cases r with
  | view v =>
    rw [request]
    cases hv : v.exec (Chain.env d s []) s.world with
    | ok u w => exact v.keeps_packed _ _ _ _ hs hv
    | error e w => exact hs
  | chain a =>
    cases a with
    | base a => exact packed_step hs a
    | upload hash => exact hs
    | upgrade signers op =>
      rcases Chain.step_upgrade_cases d s signers op with ⟨hexec, -⟩ | ⟨-, hsame⟩
      · refine UpgradeOp.keeps_exec_of packed_checkAdmin (fun _ _ => ?_) (fun _ _ => ?_)
          (fun _ _ => ?_) op _ _ _ _ hs hexec
        · exact AccessControl.keeps_record fun _ _ _ _ h => h
        · exact Treasury.keeps_record fun _ _ _ _ h => h
        · exact RiskRegistry.keeps_record fun _ _ _ _ h => h
      · rw [request, hsame]
        exact hs

/-- **Initialisation is one-time exactly when the configuration is packed**, whatever the storage
has under the individual keys. -/
theorem initialised_once_iff (d : Deployment) (s : Chain) :
    InitialisedOnce d s ↔ s.world.marketplace.config.isSome = true := by
  constructor
  · intro h
    exact initializeContract_refused_iff.mp (h.refuses ⟨d, 0, none, []⟩ 0 0 0 0 0 0 0)
  · intro hpacked
    refine ⟨fun env admin nft fp treasury ac rr bps => ?_, fun rs => ?_⟩
    · exact initializeContract_refused_iff.mpr hpacked
    · obtain ⟨config, hconfig⟩ := Option.isSome_iff_exists.mp hpacked
      have hs : PackedFor config.admin s.world := ⟨config, hconfig, rfl⟩
      have hrun := always (I := fun s : Chain => PackedFor config.admin s.world)
        (fun _ r hs => packed_request (d := d) hs r) hs rs
      exact hrun.configuredAdmin.trans hs.configuredAdmin.symm

end Requests

/-- The marketplace of the sample deployment under the individual keys, with the admin `1`. -/
def legacyDeployed : Chain :=
  { Chain.genesis 0 sampleTokens with
    world := { genesis 0 sampleTokens with
      marketplace := {
        admin := some 1
        invoiceNft := some 102
        financingPool := some 104
        treasury := some 105
        accessControl := some 101
        feeBps := some 200
        riskRegistry := some 106 } } }

/-- Account `7` initialises the marketplace again. -/
def takeover : Request :=
  .chain (.base (signed 7 (.marketplace (.initializeContract 7 102 104 105 101 106 0))))

/-- Account `7` becomes the admin of a storage with individual keys. -/
theorem taken_over : ¬ ∀ (d : Deployment) (s : Chain),
    s.world.marketplace.configuredAdmin.isSome = true → InitialisedOnce d s := by
  intro h
  have hkeeps := (h sample legacyDeployed (by decide +kernel)).keepsAdmin [takeover]
  exact absurd hkeeps (by decide +kernel)

end Kora.Marketplace
