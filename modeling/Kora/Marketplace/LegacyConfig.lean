import Kora.Marketplace.Initialization
import Kora.System.Pause

set_option autoImplicit false

/-!
# The lazy migration of the configuration

`load_config` packs a configuration kept under individual keys when an entry point first needs it.
Until then the marketplace runs on the individual keys. The two storages behave alike: migrating
first and running commutes with running and migrating last, for every call but `initialize`.

* `World.migrated`, `Chain.migrated`: the configuration packed at once;
* `Natural` of each entry point under the packing, of the other contracts under any change of the
  marketplace, and of the upgrades;
* **`lazy_migration`**: every call, view and run sees the same.
-/

namespace Kora

open Exec Run

/-- Change the storage of the marketplace. -/
def World.mapMarketplace (g : Marketplace.Storage → Marketplace.Storage) (w : World) : World :=
  { w with marketplace := g w.marketplace }

/-- The storage with its configuration packed. -/
def Marketplace.Storage.migrated (S : Storage) : Storage := { S with config := S.currentConfig }

/-- The ledger with the configuration of the marketplace packed. -/
abbrev World.migrated (w : World) : World := w.mapMarketplace Marketplace.Storage.migrated

/-- The chain with the configuration of the marketplace packed. -/
def Chain.migrated (s : Chain) : Chain := { s with world := s.world.migrated }

/-! ## The other contracts -/

section Others

variable {α : Type} {g : Marketplace.Storage → Marketplace.Storage}

@[grind ←] theorem elsewhere_callToken {self : Address} {m : Host Tokens α} :
    Natural (World.mapMarketplace g) (callToken self m) := by
  unfold callToken Token.callFrom
  refine Natural.local (natural_part ?_ ?_ m)
  · exact fun _ => rfl
  · exact fun _ _ => rfl

@[grind ←] theorem elsewhere_onAccessControl {m : AccessControl.Body α} :
    Natural (World.mapMarketplace g) (onAccessControl m) := by
  refine natural_part ?_ ?_ m
  · exact fun _ => rfl
  · exact fun _ _ => rfl

@[grind ←] theorem elsewhere_onPriceOracle {m : PriceOracle.Body α} :
    Natural (World.mapMarketplace g) (onPriceOracle m) := by
  refine natural_part ?_ ?_ m
  · exact fun _ => rfl
  · exact fun _ _ => rfl

@[grind ←] theorem elsewhere_onTreasury {m : Host Treasury.State α} :
    Natural (World.mapMarketplace g) (onTreasury m) := by
  refine natural_part ?_ ?_ m
  · exact fun _ => rfl
  · exact fun _ _ => rfl

@[grind ←] theorem elsewhere_onRiskRegistry {m : Host RiskRegistry.State α} :
    Natural (World.mapMarketplace g) (onRiskRegistry m) := by
  refine natural_part ?_ ?_ m
  · exact fun _ => rfl
  · exact fun _ _ => rfl

@[grind ←] theorem elsewhere_onInvoiceNft {m : InvoiceNft.Body α} :
    Natural (World.mapMarketplace g) (onInvoiceNft m) := by
  refine natural_part ?_ ?_ m
  · exact fun _ => rfl
  · exact fun _ _ => rfl

@[grind ←] theorem natural_tryCallFrom {σ : Type} {f : σ → σ} {self target expected : Address}
    {m : Host σ α} (hm : Natural f m) : Natural f (tryCallFrom self target expected m) :=
  Natural.attempt (natural_callFrom hm)

@[grind ←] theorem elsewhere_gets {f : World → α} (h : ∀ w, f (w.mapMarketplace g) = f w) :
    Natural (World.mapMarketplace g) (gets f : Host World α) := Natural.gets h

@[grind ←] theorem elsewhere_fetch {o : World → Option α} {e : KoraError}
    (h : ∀ w, o (w.mapMarketplace g) = o w) :
    Natural (World.mapMarketplace g) (fetch o e : Host World α) := natural_fetch h

@[simp, grind =] theorem World.mapMarketplace_pool (w : World) :
    (w.mapMarketplace g).pool = w.pool := rfl

namespace FinancingPool

@[grind ←] theorem elsewhere_modifyOwn {h : Storage → Storage} :
    Natural (World.mapMarketplace g) (modifyOwn h) := Natural.modify fun _ => rfl

@[grind ←] theorem elsewhere_requireAdmin {caller : Address} :
    Natural (World.mapMarketplace g) (requireAdmin caller) := by
  unfold requireAdmin
  grind

@[grind ←] theorem elsewhere_requireNotPaused :
    Natural (World.mapMarketplace g) requireNotPaused := by
  unfold requireNotPaused
  grind

@[grind ←] theorem elsewhere_callInvoiceNft {m : InvoiceNft.Body α} :
    Natural (World.mapMarketplace g) (callInvoiceNft m) := by
  unfold callInvoiceNft
  grind

@[grind ←] theorem elsewhere_loadInvoice {id : ℕ} :
    Natural (World.mapMarketplace g) (loadInvoice id) := elsewhere_callInvoiceNft

@[grind ←] theorem elsewhere_loadPool {id : ℕ} :
    Natural (World.mapMarketplace g) (loadPool id) := natural_fetch fun _ => rfl

@[grind ←] theorem elsewhere_requireUnlocked {id : ℕ} :
    Natural (World.mapMarketplace g) (requireUnlocked id) := by
  unfold requireUnlocked
  grind

@[grind ←] theorem elsewhere_convertIfNeeded {amount : ℤ} {currency : Symbol} {token : Address} :
    Natural (World.mapMarketplace g) (convertIfNeeded amount currency token) := by
  refine Natural.bind (Natural.gets fun _ => rfl) fun oracle => ?_
  cases oracle with
  | none => exact Natural.pure amount
  | some oracle => grind

@[grind ←] theorem elsewhere_payInvestors {token : Address} {total acc : ℤ} {decimals : ℕ}
    {positions : List (Address × Position)} :
    Natural (World.mapMarketplace g) (payInvestors token total decimals positions acc) :=
  natural_payInvestors_of fun _ _ => elsewhere_callToken

@[grind ←] theorem elsewhere_distributeYield {id : ℕ} {token : Address} {total face : ℤ} :
    Natural (World.mapMarketplace g) (distributeYield id token total face) := by
  unfold distributeYield
  grind

@[grind ←] theorem elsewhere_recordDefaultAt {admin sme : Address} :
    Natural (World.mapMarketplace g) (recordDefaultAt admin sme) := by
  refine Natural.bind (Natural.gets fun _ => rfl) fun registry => ?_
  cases registry with
  | none => exact Natural.pure ()
  | some rr => grind

theorem Op.elsewhere_exec (op : Op) : Natural (World.mapMarketplace g) op.exec := by
  cases op
  all_goals simp only [exec, FinancingPool.initializeContract, FinancingPool.setMaxPositionBps,
    FinancingPool.releaseFunds, FinancingPool.recordPosition, FinancingPool.listPositionForSale,
    FinancingPool.buyPosition, FinancingPool.repay, FinancingPool.markDefault,
    FinancingPool.proposeEarlySettlement, FinancingPool.acceptEarlySettlement,
    FinancingPool.cancelEarlySettlement, putPool, setRepaymentLock, putEarlySettlement]
  all_goals
    repeat' first
      | with_reducible refine Natural.bind ?_ fun _ => ?_
      | with_reducible refine Natural.ite ?_ ?_
  all_goals grind

end FinancingPool

end Others

/-! ## The marketplace -/

namespace Marketplace

section Natural

variable {α : Type}

/-- A ledger whose configuration is packed, or missing, is the migrated one. -/
theorem migrated_of_packed {w : World} (h : w.marketplace.config = w.marketplace.currentConfig) :
    w.migrated = w := by
  unfold World.migrated World.mapMarketplace Storage.migrated
  rw [← h]

@[grind ←] theorem migrated_loadConfig : Natural World.migrated loadConfig := by
  intro env w
  cases hpacked : w.marketplace.config with
  | some config =>
    have hsame : w.migrated = w := migrated_of_packed (by rw [Storage.currentConfig, hpacked])
    have hrun : loadConfig env w = .ok config w := by
      rw [loadConfig, gets_run, hpacked]
      rfl
    rw [hsame, hrun, Outcome.map, hsame]
  | none =>
    cases hlegacy : legacyConfig w.marketplace with
    | none =>
      have hsame : w.migrated = w :=
        migrated_of_packed (by rw [Storage.currentConfig, hpacked, hlegacy])
      have hrun : loadConfig env w = .error (.contract .notInitialized) w := by
        rw [loadConfig, gets_run, hpacked]
        exact error_run (fetch_error hlegacy)
      rw [hsame, hrun, Outcome.map, hsame]
    | some config =>
      have hmigrated : w.migrated =
          { w with marketplace := { w.marketplace with config := some config } } := by
        unfold World.migrated World.mapMarketplace Storage.migrated Storage.currentConfig
        rw [hpacked, hlegacy]
      have hrun : loadConfig env w = .ok config w.migrated := by
        rw [loadConfig, gets_run, hpacked, hmigrated]
        exact fetch_run hlegacy
      rw [hrun, Outcome.map, hmigrated]
      rfl

theorem migrated_guard {m : Host World α} (hm : Natural World.migrated m) :
    Natural World.migrated (guard m) := natural_guarded (fun _ => rfl) (fun _ _ => rfl) hm

theorem migrated_modifyOwn {h : Storage → Storage} (hh : ∀ S, h S.migrated = (h S).migrated) :
    Natural World.migrated (modifyOwn h) := by
  refine Natural.modify fun w => ?_
  show ({ w with marketplace := h w.marketplace.migrated } : World) = _
  rw [hh]
  rfl

@[grind ←] theorem migrated_loadListing {id : ℕ} : Natural World.migrated (loadListing id) :=
  natural_fetch fun _ => rfl

@[grind ←] theorem migrated_requireAdmin {caller : Address} :
    Natural World.migrated (requireAdmin caller) := by
  unfold requireAdmin
  grind

@[grind ←] theorem migrated_requireNotPaused : Natural World.migrated requireNotPaused := by
  refine Natural.bind (Natural.gets fun _ => rfl) fun ac => ?_
  cases ac with
  | none => exact Natural.pure ()
  | some ac => grind

@[grind ←] theorem migrated_requireWhitelistedToken {token : Address} :
    Natural World.migrated (requireWhitelistedToken token) :=
  Natural.bind (Natural.gets fun _ => rfl) fun _ => natural_ensure

@[grind ←] theorem migrated_requireComplianceAttested {sme : Address} :
    Natural World.migrated (requireComplianceAttested sme) := by
  unfold requireComplianceAttested
  grind

@[grind ←] theorem migrated_callInvoiceNft {config : MarketplaceConfig} {m : InvoiceNft.Body α} :
    Natural World.migrated (callInvoiceNft config m) := by
  unfold callInvoiceNft
  grind

@[grind ←] theorem migrated_collectContribution {config : MarketplaceConfig}
    {token investor : Address} {fee net : ℤ} :
    Natural World.migrated (collectContribution config token investor fee net) := by
  unfold collectContribution
  refine Natural.bind natural_net fun d => ?_
  repeat' first
    | with_reducible refine Natural.bind ?_ fun _ => ?_
    | with_reducible refine Natural.ite ?_ ?_
  all_goals grind

theorem migrated_listInvoice {seller token : Address} {id : ℕ} {price face : ℤ} {deadline : ℕ}
    {referrer : Option Address} : Natural World.migrated
      (listInvoice seller id price face token deadline referrer) := by
  unfold listInvoice
  cases referrer
  all_goals
    repeat' first
      | with_reducible refine Natural.bind ?_ fun _ => ?_
      | with_reducible refine migrated_guard ?_
  all_goals first
    | exact migrated_modifyOwn fun _ => rfl
    | exact Natural.gets fun _ => rfl
    | grind

theorem Op.migrated_exec {op : Op}
    (hop : ∀ admin nft fp treasury ac rr bps,
      op ≠ .initializeContract admin nft fp treasury ac rr bps) :
    Natural World.migrated op.exec := by
  cases op
  case initializeContract => exact (hop _ _ _ _ _ _ _ rfl).elim
  case listInvoice => exact migrated_listInvoice
  all_goals simp only [exec, Marketplace.setReferrerSplitBps, Marketplace.updateFeeBps,
    Marketplace.setFeeBps, Marketplace.setTierFeeBps, Marketplace.whitelistToken,
    Marketplace.removeTokenWhitelist, Marketplace.fundInvoice, Marketplace.cancelListing,
    Marketplace.requestCancellation, Marketplace.adminConfirmCancellation, Marketplace.claimRefund]
  all_goals
    repeat' first
      | with_reducible refine Natural.bind ?_ fun _ => ?_
      | with_reducible refine Natural.ite ?_ ?_
  all_goals first
    | exact migrated_modifyOwn fun _ => rfl
    | exact Natural.gets fun _ => rfl
    | exact natural_callFrom (FinancingPool.Op.elsewhere_exec (.releaseFunds ..))
    | grind

theorem migrated_getFeeBps : Natural World.migrated getFeeBps := by
  unfold getFeeBps
  grind

theorem migrated_getTierFeeBps {tier : RiskTier} :
    Natural World.migrated (getTierFeeBps tier) := by
  refine Natural.bind (Natural.gets fun _ => rfl) fun fee => ?_
  cases fee with
  | some fee => exact Natural.pure fee
  | none => grind

theorem migrated_getAdmin : Natural World.migrated getAdmin := by
  unfold getAdmin
  grind

theorem View.migrated_exec (v : View) : Natural World.migrated v.exec := by
  cases v with
  | getFeeBps => exact migrated_getFeeBps.bind fun _ => .pure ()
  | getTierFeeBps tier => exact migrated_getTierFeeBps.bind fun _ => .pure ()
  | getConfig => exact migrated_loadConfig.bind fun _ => .pure ()
  | getAdmin => exact migrated_getAdmin.bind fun _ => .pure ()

theorem migrated_checkAdmin {admin : Address} : Natural World.migrated (checkAdmin admin) := by
  unfold checkAdmin
  grind

end Natural

end Marketplace

/-! ## Calls and upgrades -/

/-- The entry point initialises the marketplace. -/
def Entry.InitialisesMarketplace : Entry → Prop
  | .marketplace (.initializeContract ..) => True
  | _ => False

instance (e : Entry) : Decidable e.InitialisesMarketplace := by
  unfold Entry.InitialisesMarketplace
  split <;> infer_instance

/-- **Every entry point but `initialize` of the marketplace** runs alike on the migrated ledger. -/
theorem Entry.migrated_exec {e : Entry} (he : ¬ e.InitialisesMarketplace) :
    Natural World.migrated e.exec := by
  cases e with
  | accessControl op => exact elsewhere_onAccessControl
  | priceOracle op => exact elsewhere_onPriceOracle
  | treasury op => exact elsewhere_onTreasury
  | riskRegistry op => exact elsewhere_onRiskRegistry
  | invoiceNft op => exact elsewhere_onInvoiceNft
  | pool op => exact op.elsewhere_exec
  | marketplace op =>
    refine Marketplace.Op.migrated_exec ?_
    rintro admin nft fp treasury ac rr bps rfl
    exact he trivial
  | transfer token src dst amount =>
    refine natural_part ?_ ?_ _
    · exact fun _ => rfl
    · exact fun _ _ => rfl

section Upgrades

variable {α : Type} {m : Host World α} {requireAdmin record : Host World Unit}

theorem migrated_onWorld (hm : Natural World.migrated m) : Natural Chain.migrated (onWorld m) := by
  refine Natural.zoom ?_ ?_ hm
  · exact fun _ => rfl
  · exact fun _ _ => rfl

theorem migrated_proposeUpgrade {c : Upgradable} {admin : Address} {hash : WasmHash}
    (hcheck : Natural World.migrated requireAdmin) (hrecord : Natural World.migrated record) :
    Natural Chain.migrated (proposeUpgrade c requireAdmin record admin hash) := by
  unfold proposeUpgrade
  repeat' with_reducible refine Natural.bind ?_ fun _ => ?_
  all_goals first
    | with_reducible exact migrated_onWorld hcheck
    | with_reducible exact migrated_onWorld hrecord
    | exact Natural.modify fun _ => rfl
    | grind

theorem migrated_executeUpgrade {c : Upgradable} {admin : Address}
    (hcheck : Natural World.migrated requireAdmin) (hrecord : Natural World.migrated record) :
    Natural Chain.migrated (executeUpgrade c requireAdmin record admin) := by
  unfold executeUpgrade updateCurrentContractWasm
  repeat' with_reducible refine Natural.bind ?_ fun _ => ?_
  all_goals first
    | with_reducible exact migrated_onWorld hcheck
    | with_reducible exact migrated_onWorld hrecord
    | with_reducible exact Natural.ofOption _ _
    | exact natural_fetch fun _ => rfl
    | exact Natural.modify fun _ => rfl
    | exact Natural.gets fun _ => rfl
    | grind

theorem UpgradeOp.migrated_exec (op : UpgradeOp) : Natural Chain.migrated op.exec := by
  cases op with
  | propose c admin hash =>
    cases c with
    | marketplace => exact migrated_proposeUpgrade Marketplace.migrated_checkAdmin (.pure ())
    | accessControl | invoiceNft | financingPool | treasury | riskRegistry =>
      exact migrated_proposeUpgrade (by grind) (by grind)
  | execute c admin =>
    cases c with
    | marketplace => exact migrated_executeUpgrade Marketplace.migrated_checkAdmin (.pure ())
    | accessControl | invoiceNft | financingPool | treasury | riskRegistry =>
      exact migrated_executeUpgrade (by grind) (by grind)

end Upgrades

/-! ## Runs -/

namespace Marketplace

/-- The request initialises the marketplace. -/
def Request.Initialises : Request → Prop
  | .chain (.base (.call c)) => c.entry.InitialisesMarketplace
  | _ => False

instance (r : Request) : Decidable r.Initialises := by
  unfold Request.Initialises
  split <;> infer_instance

section Requests

variable {d : Deployment} {s : Chain}

theorem commit_migrated {σ : Type} {f : σ → σ} {m : Host σ Unit} (hm : Natural f m) (env : Env)
    (t : σ) : (m env (f t)).commit (f t) = f ((m env t).commit t) := by
  rw [hm env t]
  cases m env t <;> rfl

theorem request_migrated {r : Request} (hr : ¬ r.Initialises) :
    request d s.migrated r = (request d s r).migrated := by
  cases r with
  | view v => exact congrArg (fun w => { s with world := w }) (commit_migrated v.migrated_exec _ _)
  | chain a =>
    cases a with
    | upload hash => rfl
    | upgrade signers op => exact commit_migrated op.migrated_exec _ s
    | base a =>
      cases a with
      | tick seconds => rfl
      | call c =>
        exact congrArg (fun w => { s with world := w })
          (commit_migrated (Entry.migrated_exec hr) _ _)

/-- **The lazy migration is transparent.** Every call but the initialisation of the marketplace, and
every view, has the same result on a storage that still has the individual keys as on the migrated
one, and so has every run. -/
theorem lazy_migration :
    (∀ env w e, ¬ Entry.InitialisesMarketplace e →
      (e.exec env w.migrated).result = resultMap World.migrated (e.exec env w).result) ∧
    (∀ env w, (getFeeBps env w.migrated).result =
      resultMap World.migrated (getFeeBps env w).result) ∧
    (∀ env w tier, (getTierFeeBps tier env w.migrated).result =
      resultMap World.migrated (getTierFeeBps tier env w).result) ∧
    (∀ env w, (getConfig env w.migrated).result =
      resultMap World.migrated (getConfig env w).result) ∧
    (∀ env w, (getAdmin env w.migrated).result =
      resultMap World.migrated (getAdmin env w).result) ∧
    ∀ (d : Deployment) (s : Chain) (rs : List Request), (∀ r ∈ rs, ¬ r.Initialises) →
      run (request d) s.migrated rs = (run (request d) s rs).migrated := by
  refine ⟨fun env w e he => (Entry.migrated_exec he).result env w,
    fun env w => migrated_getFeeBps.result env w,
    fun env w tier => migrated_getTierFeeBps.result env w,
    fun env w => migrated_loadConfig.result env w,
    fun env w => migrated_getAdmin.result env w, fun d s rs hrs => ?_⟩
  induction rs generalizing s with
  | nil => rfl
  | cons r rs ih =>
    rw [List.forall_mem_cons] at hrs
    rw [run_cons, run_cons, request_migrated hrs.1]
    exact ih _ hrs.2

end Requests

end Marketplace

end Kora
