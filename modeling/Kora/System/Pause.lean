import Kora.Lib.Natural
import Kora.System.Controls

set_option autoImplicit false

/-!
# The pause flag

Two ledgers that differ in the pause flag only, and one call made on both.

* `World.withPaused`, `PauseBlind`, `Unchanged`: setting the flag, a call that it does not decide,
  and a call that changes nothing in a paused protocol;
* `Entry.Exempt`, `Entry.Blocked`: what a pause is to leave alone, and what it is to block;
* `natural_setDefaulted`, `natural_cancelListing`, `natural_claimRefund`,
  `natural_cancelEarlySettlement`: the exempt bodies that never read the flag;
* **`FinancingPool.onlyBlocks_repay`**: all the flag can do to a repayment is block the one that
  leaves the invoice repaid.
-/

namespace Kora

open Exec

/-- Change the pause flag. -/
def World.mapPaused (g : Option Bool → Option Bool) (w : World) : World :=
  { w with accessControl := { w.accessControl with paused := g w.accessControl.paused } }

/-- Set the pause flag. -/
def World.withPaused (p : Option Bool) (w : World) : World := w.mapPaused fun _ => p

/-- Change the pause flag that the invoice contract sees. -/
def InvoiceNft.State.mapPaused (g : Option Bool → Option Bool) (s : InvoiceNft.State) :
    InvoiceNft.State :=
  { s with accessControl := { s.accessControl with paused := g s.accessControl.paused } }

/-! ## Bodies that do not read the flag -/

section Natural

variable {α σ : Type} {f : σ → σ} {g : Option Bool → Option Bool}

@[grind ←] theorem natural_requireAuth {a : Address} :
    Natural f (requireAuth a : Host σ Unit) := by
  unfold requireAuth
  grind

@[grind ←] theorem natural_timestamp : Natural f (timestamp : Host σ ℕ) := Natural.asks _

@[grind ←] theorem natural_net : Natural f (net : Host σ Deployment) := Natural.asks _

@[grind ←] theorem natural_check {x : Except KoraError α} : Natural f (check x : Host σ α) :=
  Natural.ofExcept _ _

@[grind ←] theorem natural_ensure {c : Prop} [Decidable c] {e : KoraError} :
    Natural f (ensure c e : Host σ Unit) := Natural.require c _

theorem natural_fetch {o : σ → Option α} {e : KoraError} (h : ∀ s, o (f s) = o s) :
    Natural f (fetch o e : Host σ α) := by
  have hread : Natural f (gets o : Host σ (Option α)) := Natural.gets h
  unfold fetch
  grind

theorem natural_guarded {isLocked : σ → Bool} {setLock : Bool → σ → σ} {m : Host σ α}
    (h : ∀ s, isLocked (f s) = isLocked s) (hset : ∀ b s, setLock b (f s) = f (setLock b s))
    (hm : Natural f m) : Natural f (guarded isLocked setLock m) := by
  have hread : Natural f (gets isLocked : Host σ Bool) := Natural.gets h
  unfold guarded
  grind

@[grind ←] theorem natural_callFrom {self target expected : Address} {m : Host σ α}
    (hm : Natural f m) : Natural f (callFrom self target expected m) := by
  unfold callFrom
  grind

theorem natural_part {τ : Type} {get : σ → τ} {set : τ → σ → σ} (hget : ∀ s, get (f s) = get s)
    (hset : ∀ t s, set t (f s) = f (set t s)) (m : Host τ α) :
    Natural f (zoom get set m) := Natural.zoom hget hset (Natural.id m)

@[grind ←] theorem natural_callToken {self : Address} {m : Host Tokens α} :
    Natural (World.mapPaused g) (callToken self m) := by
  unfold callToken Token.callFrom
  refine Natural.local (natural_part ?_ ?_ m)
  · exact fun _ => rfl
  · exact fun _ _ => rfl

@[grind ←] theorem natural_onPriceOracle {m : PriceOracle.Body α} :
    Natural (World.mapPaused g) (onPriceOracle m) := by
  refine natural_part ?_ ?_ m
  · exact fun _ => rfl
  · exact fun _ _ => rfl

@[grind ←] theorem natural_onInvoiceNft {m : InvoiceNft.Body α}
    (hm : Natural (InvoiceNft.State.mapPaused g) m) :
    Natural (World.mapPaused g) (onInvoiceNft m) := by
  refine Natural.zoom ?_ ?_ hm
  · exact fun _ => rfl
  · exact fun _ _ => rfl

namespace InvoiceNft

@[grind ←] theorem natural_modifyOwn {h : Storage → Storage} :
    Natural (State.mapPaused g) (modifyOwn h) := Natural.modify fun _ => rfl

@[grind ←] theorem natural_requireAdmin {caller : Address} :
    Natural (State.mapPaused g) (requireAdmin caller) :=
  Natural.bind (natural_fetch fun _ => rfl) fun _ => natural_ensure

@[grind ←] theorem natural_getInvoice {id : ℕ} : Natural (State.mapPaused g) (getInvoice id) := by
  refine Natural.bind (natural_fetch fun _ => rfl) fun record => ?_
  cases record with
  | current invoice => exact Natural.pure invoice
  | v1 invoice => exact Natural.throw _

@[grind ←] theorem natural_isInvoiceFrozen {id : ℕ} :
    Natural (State.mapPaused g) (isInvoiceFrozen id) := Natural.gets fun _ => rfl

theorem natural_guard {m : Body α} (hm : Natural (State.mapPaused g) m) :
    Natural (State.mapPaused g) (guard m) := natural_guarded (fun _ => rfl) (fun _ _ => rfl) hm

theorem natural_setDefaulted {caller : Address} {id : ℕ} :
    Natural (State.mapPaused g) (setDefaulted caller id) := by
  have hguard : Natural (State.mapPaused g) (guard do
      let invoice ← getInvoice id
      ensure (invoice.status = .funded) .invalidInvoiceStatus
      let now ← timestamp
      ensure (invoice.dueDate < now) .invalidInvoiceStatus
      putInvoice id { invoice with status := .defaulted }
      releaseExposure invoice) := by
    refine natural_guard ?_
    unfold putInvoice releaseExposure
    grind
  unfold setDefaulted
  grind [getInvoice]

end InvoiceNft

namespace FinancingPool

@[grind ←] theorem natural_modifyOwn {h : Storage → Storage} :
    Natural (World.mapPaused g) (modifyOwn h) := Natural.modify fun _ => rfl

@[grind ←] theorem natural_callInvoiceNft {m : InvoiceNft.Body α}
    (hm : Natural (InvoiceNft.State.mapPaused g) m) :
    Natural (World.mapPaused g) (callInvoiceNft m) := by
  refine Natural.bind (natural_fetch fun _ => rfl) fun nft => ?_
  grind

@[grind ←] theorem natural_loadInvoice {id : ℕ} : Natural (World.mapPaused g) (loadInvoice id) :=
  natural_callInvoiceNft InvoiceNft.natural_getInvoice

@[grind ←] theorem natural_loadPool {id : ℕ} : Natural (World.mapPaused g) (loadPool id) :=
  natural_fetch fun _ => rfl

@[grind ←] theorem natural_requireUnlocked {id : ℕ} :
    Natural (World.mapPaused g) (requireUnlocked id) :=
  Natural.bind (Natural.gets fun _ => rfl) fun _ => natural_ensure

@[grind ←] theorem natural_convertIfNeeded {amount : ℤ} {currency : Symbol} {token : Address} :
    Natural (World.mapPaused g) (convertIfNeeded amount currency token) := by
  refine Natural.bind (Natural.gets fun _ => rfl) fun oracle => ?_
  cases oracle with
  | none => exact Natural.pure amount
  | some oracle => grind

theorem natural_payInvestors_of {f : World → World}
    (hf : ∀ (self : Address) (m : Host Tokens Unit), Natural f (callToken self m)) {token : Address}
    {total acc : ℤ} {decimals : ℕ} {positions : List (Address × Position)} :
    Natural f (payInvestors token total decimals positions acc) := by
  induction positions generalizing acc with
  | nil => exact Natural.pure acc
  | cons e rest ih =>
    unfold payInvestors
    grind

@[grind ←] theorem natural_payInvestors {token : Address} {total acc : ℤ} {decimals : ℕ}
    {positions : List (Address × Position)} :
    Natural (World.mapPaused g) (payInvestors token total decimals positions acc) :=
  natural_payInvestors_of fun _ _ => natural_callToken

@[grind ←] theorem natural_distributeYield {id : ℕ} {token : Address} {total face : ℤ} :
    Natural (World.mapPaused g) (distributeYield id token total face) := by
  refine Natural.bind (Natural.gets fun _ => rfl) fun positions => ?_
  grind

theorem natural_cancelEarlySettlement {sme : Address} {id : ℕ} :
    Natural (World.mapPaused g) (cancelEarlySettlement sme id) := by
  have hoffer : Natural (World.mapPaused g)
      (fetch (fun w => w.pool.earlySettlement id) .poolNotFound) := natural_fetch fun _ => rfl
  unfold cancelEarlySettlement putEarlySettlement
  grind

end FinancingPool

namespace Marketplace

@[grind ←] theorem natural_modifyOwn {h : Storage → Storage} :
    Natural (World.mapPaused g) (modifyOwn h) := Natural.modify fun _ => rfl

@[grind ←] theorem natural_loadListing {id : ℕ} : Natural (World.mapPaused g) (loadListing id) :=
  natural_fetch fun _ => rfl

@[grind ←] theorem natural_loadConfig : Natural (World.mapPaused g) loadConfig := by
  have hlegacy : Natural (World.mapPaused g)
      (fetch (fun w => legacyConfig w.marketplace) .notInitialized) := natural_fetch fun _ => rfl
  refine Natural.bind (Natural.gets fun _ => rfl) fun packed => ?_
  cases packed with
  | none => grind
  | some config => exact Natural.pure config

theorem natural_cancelListing {caller : Address} {id : ℕ} :
    Natural (World.mapPaused g) (cancelListing caller id) := by
  unfold cancelListing putListing
  grind

theorem natural_claimRefund {investor : Address} {id : ℕ} :
    Natural (World.mapPaused g) (claimRefund investor id) := by
  refine Natural.bind natural_requireAuth fun _ => ?_
  refine Natural.bind natural_loadListing fun listing => ?_
  refine Natural.bind natural_ensure fun _ => ?_
  refine Natural.bind (Natural.gets fun _ => rfl) fun confirmed => ?_
  refine Natural.bind natural_timestamp fun now => ?_
  refine Natural.bind natural_ensure fun _ => ?_
  refine Natural.bind (Natural.gets fun _ => rfl) fun claimed => ?_
  refine Natural.bind natural_ensure fun _ => ?_
  refine Natural.bind (Natural.gets fun _ => rfl) fun netContributed => ?_
  grind

end Marketplace

end Natural

/-! ## Entry points -/

section Entries

/-- The entry points that a pause is to leave alone. -/
def Entry.Exempt : Entry → Prop
  | .pool (.repay ..) | .pool (.cancelEarlySettlement ..) | .invoiceNft (.setRepaid ..)
  | .invoiceNft (.setDefaulted ..) | .marketplace (.cancelListing ..)
  | .marketplace (.claimRefund ..) => True
  | _ => False

/-- The entry points that a pause is to block. -/
def Entry.Blocked : Entry → Prop
  | .invoiceNft (.mintInvoice ..) | .invoiceNft (.setListed ..) | .invoiceNft (.setFunded ..)
  | .marketplace (.listInvoice ..) | .marketplace (.fundInvoice ..) | .pool (.releaseFunds ..)
  | .pool (.recordPosition ..) | .pool (.markDefault ..) => True
  | _ => False

/-- The flag decides neither the result of the call nor the ledger and the transfers it leaves. -/
def PauseBlind (env : Env) (w : World) (e : Entry) : Prop := ∀ p q : Option Bool,
  (e.exec env (w.withPaused q)).result =
    resultMap (World.withPaused q) (e.exec env (w.withPaused p)).result

/-- While the protocol is paused the call changes nothing. -/
def Unchanged (env : Env) (w : World) (e : Entry) : Prop :=
  (e.exec env (w.withPaused (some true))).commit (w.withPaused (some true)) =
    w.withPaused (some true)

variable {env : Env} {w : World} {e : Entry}

theorem pauseBlind_of_natural (h : ∀ q, Natural (World.withPaused q) e.exec) :
    PauseBlind env w e := fun p q => (h q).result env (w.withPaused p)

theorem pauseBlind_of_error {f : Failure}
    (h : ∀ p, (e.exec env (w.withPaused p)).result = .error f) : PauseBlind env w e := by
  intro p q
  rw [h p, h q]
  rfl

theorem PauseBlind.isOk (h : PauseBlind env w e) (p q : Option Bool) :
    (e.exec env (w.withPaused q)).isOk = (e.exec env (w.withPaused p)).isOk := by
  have hresult := h p q
  cases hq : e.exec env (w.withPaused q) <;> cases hp : e.exec env (w.withPaused p)
  all_goals
    rw [hq, hp] at hresult
    first | rfl | cases hresult

theorem unchanged_of_fails (h : ∀ w', e.exec env (w.withPaused (some true)) ≠ .ok () w') :
    Unchanged env w e := by
  unfold Unchanged
  cases hr : e.exec env (w.withPaused (some true)) with
  | ok u w' => exact absurd hr (h w')
  | error f w' => rfl

end Entries

/-! ## Repayment -/

section Repayment

variable {α : Type} {g : Option Bool → Option Bool} {caller : Address}

/-- The invoice `id` is repaid between two storages. -/
def Repaid (id : ℕ) (S T : InvoiceNft.Storage) : Prop :=
  S.status id = some .funded ∧ T.status id = some .repaid

theorem invoices_callToken {self : Address} {m : Host Tokens α} :
    Frames World.invoiceNft (callToken self m) := by
  intro env w a w' h
  obtain ⟨T, -, rfl⟩ := callToken_ok.mp h
  rfl

namespace FinancingPool

theorem invoices_modifyOwn {h : Storage → Storage} : Frames World.invoiceNft (modifyOwn h) :=
  Frames.modify fun _ => rfl

theorem invoices_callInvoiceNft {m : InvoiceNft.Body α} (hm : Frames InvoiceNft.State.own m) :
    Frames World.invoiceNft (callInvoiceNft m) := by
  intro env w a w' h
  obtain ⟨-, s, hs, rfl⟩ := callInvoiceNft_ok.mp h
  exact hm _ _ _ _ hs

theorem invoices_loadInvoice {id : ℕ} : Frames World.invoiceNft (loadInvoice id) := by
  refine invoices_callInvoiceNft ?_
  intro env s inv t h
  rw [(InvoiceNft.getInvoice_ok.mp h).2]

theorem invoices_convertIfNeeded {amount : ℤ} {currency : Symbol} {token : Address} :
    Frames World.invoiceNft (convertIfNeeded amount currency token) := by
  intro env w r w' h
  rw [convertIfNeeded, gets_run] at h
  cases ho : w.pool.priceOracle with
  | none =>
    rw [ho] at h
    rw [(pure_ok.mp h).2]
  | some oracle =>
    rw [ho] at h
    simp only [net_run, callFrom_ok, onPriceOracle_ok] at h
    obtain ⟨-, S, -, rfl⟩ := h
    rfl

theorem invoices_payInvestors {token : Address} {total acc : ℤ} {decimals : ℕ}
    {positions : List (Address × Position)} :
    Frames World.invoiceNft (payInvestors token total decimals positions acc) := by
  induction positions generalizing acc with
  | nil => exact Frames.pure acc
  | cons e rest ih =>
    have htoken := @invoices_callToken
    unfold payInvestors
    grind

theorem invoices_distributeYield {id : ℕ} {token : Address} {total face : ℤ} :
    Frames World.invoiceNft (distributeYield id token total face) := by
  have htoken := @invoices_callToken
  have hpay := @invoices_payInvestors
  have hown := @invoices_modifyOwn
  unfold distributeYield
  grind

/-- To the pool, a change that can only pause blocks `set_repaid` and nothing else. -/
theorem onlyBlocks_setRepaid {id : ℕ} (hg : ∀ x, x.getD false = true → (g x).getD false = true) :
    OnlyBlocks (World.mapPaused g) World.invoiceNft (Repaid id)
      (callInvoiceNft (InvoiceNft.setRepaid caller id)) := by
  refine OnlyBlocks.bind (natural_fetch fun _ => rfl) frames_fetch fun nft => ?_
  refine OnlyBlocks.bind natural_net frames_net fun d => ?_
  refine OnlyBlocks.bind (Natural.require _ _) (Frames.require _ _) fun _ => ?_
  refine OnlyBlocks.masked ?_ ?_
  · intro env w u w' h
    obtain ⟨s, hs, rfl⟩ := onInvoiceNft_ok.mp h
    obtain ⟨ha, hc, hac, hp, inv, hinv, hst, rfl⟩ := InvoiceNft.setRepaid_iff.mp hs
    have hunpaused : w.accessControl.paused.getD false = false := by
      by_contra hpaused
      rw [Bool.not_eq_false] at hpaused
      rw [show (w.mapPaused g).accessControl.paused = g w.accessControl.paused from rfl,
        hg _ hpaused] at hp
      cases hp
    refine ⟨{ w with invoiceNft := w.invoiceNft.asRepaid id inv env.timestamp }, rfl, ?_⟩
    refine onInvoiceNft_ok.mpr ⟨{
      own := w.invoiceNft.asRepaid id inv env.timestamp
      accessControl := w.accessControl
      riskRegistry := w.riskRegistry }, ?_, rfl⟩
    exact InvoiceNft.setRepaid_iff.mpr ⟨ha, hc, hac, hunpaused, inv, hinv, hst, rfl⟩
  · intro env w u w' h
    obtain ⟨s, hs, rfl⟩ := onInvoiceNft_ok.mp h
    obtain ⟨ha, hc, hac, hp, inv, hinv, hst, rfl⟩ := InvoiceNft.setRepaid_iff.mp hs
    right
    refine ⟨by rw [InvoiceNft.Storage.status_of_current hinv, hst], ?_⟩
    exact InvoiceNft.Storage.status_asRepaid.trans (if_pos rfl)

/-- **A change that can only pause blocks the closing repayment and nothing else of `repay`.** -/
theorem onlyBlocks_repay {payer token : Address} {amount : ℤ} {id : ℕ}
    (hg : ∀ x, x.getD false = true → (g x).getD false = true) :
    OnlyBlocks (World.mapPaused g) World.invoiceNft (Repaid id) (repay payer id token amount) := by
  have hfrozen : Frames World.invoiceNft (callInvoiceNft (InvoiceNft.isInvoiceFrozen id)) :=
    invoices_callInvoiceNft (Frames.gets _)
  have hunlocked : Frames World.invoiceNft (requireUnlocked id) :=
    Frames.bind (Frames.gets _) fun _ => frames_ensure
  have hpool : Frames World.invoiceNft (loadPool id) := frames_fetch
  unfold repay setRepaymentLock putPool
  refine OnlyBlocks.bind natural_requireAuth frames_requireAuth fun _ => ?_
  refine OnlyBlocks.bind natural_ensure frames_ensure fun _ => ?_
  refine OnlyBlocks.bind (natural_callInvoiceNft InvoiceNft.natural_isInvoiceFrozen) hfrozen
    fun frozen => ?_
  refine OnlyBlocks.bind natural_ensure frames_ensure fun _ => ?_
  refine OnlyBlocks.bind natural_requireUnlocked hunlocked fun _ => ?_
  refine OnlyBlocks.bind natural_modifyOwn invoices_modifyOwn fun _ => ?_
  refine OnlyBlocks.bind natural_loadPool hpool fun pool => ?_
  refine OnlyBlocks.ite ?_ ?_
  · -- the pool is closed already
    exact OnlyBlocks.bind natural_modifyOwn invoices_modifyOwn fun _ => OnlyBlocks.throw_bind _ _
  refine OnlyBlocks.bind natural_loadInvoice invoices_loadInvoice fun invoice => ?_
  refine OnlyBlocks.bind natural_convertIfNeeded invoices_convertIfNeeded fun effective => ?_
  refine OnlyBlocks.bind natural_timestamp frames_timestamp fun now => ?_
  refine OnlyBlocks.bind natural_check frames_check fun pool => ?_
  refine OnlyBlocks.bind natural_check frames_check fun repaid => ?_
  refine OnlyBlocks.bind natural_modifyOwn invoices_modifyOwn fun _ => ?_
  refine OnlyBlocks.bind natural_net frames_net fun d => ?_
  refine OnlyBlocks.bind natural_callToken invoices_callToken fun _ => ?_
  refine OnlyBlocks.ite ?_ (OnlyBlocks.of_natural natural_modifyOwn)
  refine OnlyBlocks.bind natural_distributeYield invoices_distributeYield fun _ => ?_
  exact OnlyBlocks.seq_modify (onlyBlocks_setRepaid hg) (fun _ => rfl) fun _ => rfl

end FinancingPool

end Repayment

end Kora
