import Kora.System.Pause
import Kora.System.Effect

set_option autoImplicit false

/-!
# Settlement while the protocol is paused

`set_repaid` looks at the pause flag, and so does the repayment that calls it.

* `FinancingPool.Closes`: a repayment that covers what is owed and reaches `set_repaid`;
  **`Closing.run`** runs it up to there, whatever the flag;
* `InvoiceNft.Admitted`: a call of `set_repaid` that reaches the pause check;
* **`pauseBlind_exempt`**: the flag decides an exempt call exactly when it is one of these two;
* **`Entry.Blocked.unpaused`**, `gated_run`: a blocked call succeeds in an unpaused protocol only;
* **`pauseBlind_iff`**: both together.
-/

namespace Kora

open Exec Run

namespace FinancingPool

variable {env : Env} {w w' : World} {payer token : Address} {i : ℕ} {amount r : ℤ}
  {g : Option Bool → Option Bool}

/-- The repayment covers what is owed and reaches `set_repaid`, which finds everything in order
but did not look at the pause flag yet: `p` is the pool, `q` the pool after the late penalty, `r`
what is credited, and `w₁` the ledger after the distribution. -/
structure Closing (env : Env) (w : World) (payer : Address) (i : ℕ) (token : Address)
    (amount : ℤ) (p q : Pool) (inv : Invoice) (r : ℤ) (w₁ : World) : Prop where
  authenticated : env.Authenticates payer
  payable : 0 < amount ∧ amount ≤ maxAmount
  wired : w.pool.invoiceNft = some env.net.invoiceNft
  unfrozen : w.invoiceNft.invoiceFrozen i = false
  unlocked : w.pool.repaymentLock i = false
  pool : w.pool.pool i = some p
  isOpen : p.isClosed = false
  invoice : w.invoiceNft.invoice i = some (.current inv)
  funded : inv.status = .funded
  converted : convertIfNeeded amount inv.currency p.token env (held w i) = .ok r (held w i)
  penalty : applyLatePenalty env.timestamp inv.dueDate p = .ok q
  credit : checkedAdd q.repaidAmount r = some (q.repaidAmount + r)
  covers : q.totalOwed ≤ q.repaidAmount + r
  distributed : (callToken env.net.financingPool
      (Token.transfer token payer env.net.financingPool amount) >>= fun _ =>
      distributeYield i token (q.repaidAmount + r) q.faceValue) env
    (credited w i { q with repaidAmount := q.repaidAmount + r, isClosed := true }) = .ok () w₁
  authorised : w.invoiceNft.financingPool = some env.net.financingPool
  gated : w.invoiceNft.accessControl = some env.net.accessControl

/-- The repayment is a closing one. -/
def Closes (env : Env) (w : World) (payer : Address) (i : ℕ) (token : Address) (amount : ℤ) :
    Prop := ∃ p q inv r w₁, Closing env w payer i token amount p q inv r w₁

theorem Closes.mapPaused (h : Closes env w payer i token amount) :
    Closes env (w.mapPaused g) payer i token amount := by
  obtain ⟨p, q, inv, r, w₁, h⟩ := h
  have hconvert := (@natural_convertIfNeeded g amount inv.currency p.token).ok h.converted
  have hpay : Natural (World.mapPaused g) (callToken env.net.financingPool
      (Token.transfer token payer env.net.financingPool amount) >>= fun _ =>
      distributeYield i token (q.repaidAmount + r) q.faceValue) :=
    Natural.bind natural_callToken fun _ => natural_distributeYield
  exact ⟨p, q, inv, r, w₁.mapPaused g, { h with
    converted := hconvert
    distributed := hpay.ok h.distributed }⟩

/-- The rest of a closing repayment. -/
def finish (d : Deployment) (i : ℕ) : Host World Unit := do
  callInvoiceNft (InvoiceNft.setRepaid d.financingPool i)
  setRepaymentLock i false

theorem Closing.run {p q : Pool} {inv : Invoice} {w₁ : World}
    (h : Closing env w payer i token amount p q inv r w₁) :
    repay payer i token amount env w = finish env.net i env w₁ := by
  have hlock : setRepaymentLock i true env w = .ok () (held w i) := rfl
  have hput : putPool i { q with
      repaidAmount := q.repaidAmount + r
      isClosed := q.isClosed || decide (q.totalOwed ≤ q.repaidAmount + r) } env (held w i) =
        .ok () (credited w i { q with
          repaidAmount := q.repaidAmount + r
          isClosed := true }) := by
    rw [decide_eq_true h.covers, Bool.or_true]
    rfl
  obtain ⟨_, w₀, htransfer, hdistribute⟩ := bind_ok.mp h.distributed
  rw [repay, requireAuth_run h.authenticated, ensure_run h.payable, invoiceFrozen_run h.wired,
    ensure_run h.unfrozen, requireUnlocked_run h.unlocked, ok_run hlock,
    loadPool_run (w := held w i) h.pool]
  simp only [h.isOpen, Bool.false_eq_true, if_false]
  rw [loadInvoice_run (w := held w i) h.wired h.invoice, ok_run h.converted, timestamp_run,
    check_run h.penalty, check_run (okOr_ok.mpr h.credit), ok_run hput, net_run, ok_run htransfer]
  simp only [decide_eq_true h.covers, if_true]
  rw [ok_run hdistribute]
  rfl

theorem Closing.frame {p q : Pool} {inv : Invoice} {w₁ : World}
    (h : Closing env w payer i token amount p q inv r w₁) :
    w₁.invoiceNft = w.invoiceNft ∧ w₁.accessControl = w.accessControl ∧
      w₁.pool.invoiceNft = w.pool.invoiceNft := by
  obtain ⟨_, w₀, h₁, h₂⟩ := bind_ok.mp h.distributed
  obtain ⟨T, -, rfl⟩ := callToken_ok.mp h₁
  obtain ⟨_, _, -, rfl⟩ := distributeYield_ok h₂
  exact ⟨rfl, rfl, rfl⟩

/-- **A closing repayment succeeds exactly when the protocol is not paused.** -/
theorem Closes.succeeds_iff (h : Closes env w payer i token amount) :
    (repay payer i token amount env w).isOk = true ↔ w.accessControl.paused.getD false = false := by
  obtain ⟨p, q, inv, r, w₁, h⟩ := h
  obtain ⟨hnft, hac, hpool⟩ := h.frame
  rw [h.run, Outcome.isOk_iff]
  constructor
  · rintro ⟨_, w', hw⟩
    simp only [finish, bind_ok (x := callInvoiceNft _), callInvoiceNft_ok] at hw
    obtain ⟨_, _, ⟨-, s, hs, -⟩, -⟩ := hw
    obtain ⟨-, -, -, hp, -⟩ := InvoiceNft.setRepaid_iff.mp hs
    rw [← hac]
    exact hp
  · intro hp
    have hrepaid : callInvoiceNft (InvoiceNft.setRepaid env.net.financingPool i) env w₁ = .ok ()
        { w₁ with invoiceNft := w₁.invoiceNft.asRepaid i inv env.timestamp } := by
      refine callInvoiceNft_ok.mpr ⟨hpool.trans h.wired, ⟨_, w₁.accessControl, w₁.riskRegistry⟩,
        InvoiceNft.setRepaid_iff.mpr ?_, rfl⟩
      rw [hnft, hac]
      exact ⟨Env.authenticates_from _ _, h.authorised, h.gated, hp, inv, h.invoice, h.funded, rfl⟩
    exact ⟨(), _, ok_run hrepaid⟩

theorem closes_of_repaid {u : Unit} (h : repay payer i token amount env w = .ok u w')
    (hrepaid : Repaid i w.invoiceNft w'.invoiceNft) : Closes env w payer i token amount := by
  obtain ⟨ha, hpay, hwired, hfrozen, hlock, p, inv, r, owed, applied, hp, hclosed, hinv, hr, hq,
    hcredit, w₀, htransfer, h⟩ := repay_iff.mp h
  have htokens : w₀.invoiceNft = w.invoiceNft := by
    rw [invoices_callToken _ _ _ _ htransfer]
    rfl
  rw [ite_run] at h
  split_ifs at h with hcovers
  · rw [bind_ok] at h
    obtain ⟨_, w₁, hdistribute, h⟩ := h
    have hnft : w₁.invoiceNft = w.invoiceNft :=
      (invoices_distributeYield _ _ _ _ hdistribute).trans htokens
    simp only [bind_ok (x := callInvoiceNft _), callInvoiceNft_ok] at h
    obtain ⟨_, _, ⟨-, s, hs, rfl⟩, -⟩ := h
    obtain ⟨-, hauthorised, hgated, -, inv', hinv', hst, -⟩ := InvoiceNft.setRepaid_iff.mp hs
    rw [hnft] at hauthorised hgated hinv'
    obtain rfl := InvoiceNft.Storage.current_inj hinv hinv'
    rw [repaidPool, decide_eq_true hcovers] at htransfer
    refine ⟨p, { p with totalOwed := owed, penaltyApplied := applied }, inv, r, w₁, ?_⟩
    exact {
      authenticated := ha
      payable := hpay
      wired := hwired
      unfrozen := hfrozen
      unlocked := hlock
      pool := hp
      isOpen := hclosed
      invoice := hinv
      funded := hst
      converted := hr
      penalty := hq
      credit := hcredit
      covers := hcovers
      distributed := bind_ok.mpr ⟨(), w₀, htransfer, hdistribute⟩
      authorised := hauthorised
      gated := hgated }
  · simp only [setRepaymentLock, FinancingPool.modifyOwn, modify_ok] at h
    subst h
    have hsame : w₀.invoiceNft.status i = some .repaid := hrepaid.2
    rw [htokens, hrepaid.1] at hsame
    cases hsame

end FinancingPool

/-! ## `set_repaid` -/

namespace InvoiceNft

variable {env : Env} {s : State} {caller : Address} {id : ℕ}

theorem requireNotPaused_run (h : s.own.accessControl = some env.net.accessControl) :
    requireNotPaused env s = if s.accessControl.paused.getD false = true then
      .error (.contract .protocolPaused) s else .ok () s := by
  have hread : callFrom env.net.invoiceNft env.net.accessControl env.net.accessControl
      (zoom State.accessControl (fun S s => { s with accessControl := S }) AccessControl.isPaused)
      env s = .ok (s.accessControl.paused.getD false) s :=
    callFrom_ok.mpr ⟨rfl, zoom_ok.mpr ⟨_, AccessControl.isPaused_ok.mpr ⟨rfl, rfl⟩, rfl⟩⟩
  rw [requireNotPaused, fetch_run (o := fun s : State => s.own.accessControl) h, net_run,
    ok_run hread]
  cases s.accessControl.paused.getD false <;> rfl

/-- The caller passes the guards of `set_repaid` before the pause check. -/
structure Admitted (env : Env) (S : Storage) (caller : Address) : Prop where
  authenticated : env.Authenticates caller
  authorised : S.financingPool = some caller
  gated : S.accessControl = some env.net.accessControl

/-- The rest of `set_repaid`, past the pause check. -/
def settle (id : ℕ) : Body Unit := do
  let invoice ← loadInvoice id
  ensure (invoice.status = .funded) .invalidInvoiceStatus
  let now ← timestamp
  putInvoice id { invoice with status := .repaid, repaidAt := some now }
  releaseExposure invoice

theorem settle_result : (settle id env s).result ≠ .error (.contract .protocolPaused) := by
  intro hresult
  cases hi : s.own.invoice id with
  | none =>
    have hload : loadInvoice id env s = .error (.contract .invoiceNotFound) s := by
      rw [loadInvoice, fetch, assoc_run, gets_run, hi]
      rfl
    rw [settle, error_run hload] at hresult
    cases hresult
  | some record =>
    cases record with
    | v1 invoice =>
      have hload : loadInvoice id env s = .error .trap s := by
        rw [loadInvoice, fetch, assoc_run, gets_run, hi]
        rfl
      rw [settle, error_run hload] at hresult
      cases hresult
    | current invoice =>
      have hload : loadInvoice id env s = .ok invoice s := loadInvoice_ok.mpr ⟨hi, rfl⟩
      rw [settle, ok_run hload] at hresult
      by_cases hfunded : invoice.status = .funded
      · rw [ensure_run hfunded] at hresult
        cases hresult
      · rw [error_run (ensure_error hfunded)] at hresult
        cases hresult

theorem Admitted.run (h : Admitted env s.own caller) :
    setRepaid caller id env s = (requireNotPaused >>= fun _ => settle id) env s := by
  have hcaller : requireAuthorizedCaller caller [Storage.financingPool] env s = .ok () s := by
    rw [requireAuthorizedCaller, gets_run, ensure_ok]
    exact ⟨⟨_, List.mem_singleton_self _, h.authorised⟩, rfl⟩
  rw [setRepaid, requireAuth_run h.authenticated, ok_run hcaller]
  rfl

/-- **An admitted call reports the pause exactly when there is one.** -/
theorem Admitted.reports_iff (h : Admitted env s.own caller) :
    (setRepaid caller id env s).result = .error (.contract .protocolPaused) ↔
      s.accessControl.paused.getD false = true := by
  rw [h.run]
  cases hp : s.accessControl.paused.getD false with
  | true =>
    have hpaused : requireNotPaused env s = .error (.contract .protocolPaused) s := by
      rw [requireNotPaused_run h.gated, if_pos hp]
    rw [error_run hpaused]
    exact iff_of_true rfl rfl
  | false =>
    have hunpaused : requireNotPaused env s = .ok () s := by
      rw [requireNotPaused_run h.gated, hp]
      rfl
    rw [ok_run hunpaused]
    exact iff_of_false settle_result Bool.false_ne_true

/-- The pause check fails before it reads the flag when access control is not known. -/
theorem requireNotPaused_error (h : s.own.accessControl ≠ some env.net.accessControl) :
    ∃ f, ∀ p, requireNotPaused env (s.mapPaused fun _ => p) =
      .error f (s.mapPaused fun _ => p) := by
  cases hac : s.own.accessControl with
  | none => exact ⟨.contract .notInitialized, fun p => error_run (fetch_error hac)⟩
  | some ac =>
    refine ⟨.trap, fun p => ?_⟩
    have hread : (s.mapPaused fun _ => p).own.accessControl = some ac := hac
    rw [requireNotPaused, fetch_run (o := fun s : State => s.own.accessControl) hread, net_run]
    exact error_run (callFrom_error fun heq => h (by rw [hac, heq]))

theorem setRepaid_not_admitted (h : ¬ Admitted env s.own caller) : ∃ f, ∀ p,
    (setRepaid caller id env (s.mapPaused fun _ => p)).result = .error f := by
  by_cases ha : env.Authenticates caller
  · by_cases hc : ∃ key ∈ [Storage.financingPool], key s.own = some caller
    · have hgated : s.own.accessControl ≠ some env.net.accessControl := by
        intro hac
        exact h ⟨ha, by simpa using hc, hac⟩
      obtain ⟨f, hf⟩ := requireNotPaused_error hgated
      refine ⟨f, fun p => ?_⟩
      have hcaller : requireAuthorizedCaller caller [Storage.financingPool] env
          (s.mapPaused fun _ => p) = .ok () (s.mapPaused fun _ => p) := ensure_ok.mpr ⟨hc, rfl⟩
      rw [setRepaid, requireAuth_run ha, ok_run hcaller, error_run (hf p)]
      rfl
    · refine ⟨.contract .unauthorized, fun p => ?_⟩
      have hcaller : requireAuthorizedCaller caller [Storage.financingPool] env
          (s.mapPaused fun _ => p) = .error (.contract .unauthorized) (s.mapPaused fun _ => p) :=
        ensure_error hc
      rw [setRepaid, requireAuth_run ha, error_run hcaller]
      rfl
  · refine ⟨.trap, fun p => ?_⟩
    rw [setRepaid, error_run (requireAuth_error ha)]
    rfl

end InvoiceNft

/-! ## The exempt entry points -/

section Exempt

variable {env : Env} {w : World} {e : Entry}

/-- The call is a `set_repaid` that passes its guards, or a closing repayment. -/
def Entry.Settles (env : Env) (w : World) : Entry → Prop
  | .invoiceNft (.setRepaid caller _) => InvoiceNft.Admitted env w.invoiceNft caller
  | .pool (.repay payer id token amount) => FinancingPool.Closes env w payer id token amount
  | _ => False

theorem onInvoiceNft_error {α : Type} {m : InvoiceNft.Body α} {f : Failure} :
    (onInvoiceNft m env w).result = .error f ↔
      (m env ⟨w.invoiceNft, w.accessControl, w.riskRegistry⟩).result = .error f := by
  unfold onInvoiceNft zoom
  cases m env ⟨w.invoiceNft, w.accessControl, w.riskRegistry⟩ <;> simp [Outcome.result]

theorem pauseBlind_setRepaid {caller : Address} {id : ℕ} :
    PauseBlind env w (.invoiceNft (.setRepaid caller id)) ↔
      ¬ InvoiceNft.Admitted env w.invoiceNft caller := by
  constructor
  · intro h ha
    have hpaused : (onInvoiceNft (InvoiceNft.setRepaid caller id) env
        (w.withPaused (some true))).result = .error (.contract .protocolPaused) :=
      onInvoiceNft_error.mpr ((InvoiceNft.Admitted.reports_iff ha).mpr rfl)
    have hunpaused : (onInvoiceNft (InvoiceNft.setRepaid caller id) env
        (w.withPaused (some false))).result = .error (.contract .protocolPaused) := by
      have heq := h (some true) (some false)
      rw [show (Entry.invoiceNft (.setRepaid caller id)).exec =
        onInvoiceNft (InvoiceNft.setRepaid caller id) from rfl, hpaused] at heq
      exact heq
    have hflag := (InvoiceNft.Admitted.reports_iff ha).mp (onInvoiceNft_error.mp hunpaused)
    cases hflag
  · intro h
    have hfails : ∃ f, ∀ p, (InvoiceNft.setRepaid caller id env
        (InvoiceNft.State.mapPaused (fun _ => p)
          ⟨w.invoiceNft, w.accessControl, w.riskRegistry⟩)).result = .error f :=
      InvoiceNft.setRepaid_not_admitted h
    obtain ⟨f, hf⟩ := hfails
    exact pauseBlind_of_error fun p => onInvoiceNft_error.mpr (hf p)

theorem resultMap_withPaused (hac : ∀ op, e ≠ .accessControl op) (p : Option Bool) :
    resultMap (World.withPaused p) (e.exec env (w.withPaused p)).result =
      (e.exec env (w.withPaused p)).result := by
  cases h : e.exec env (w.withPaused p) with
  | error f t => rfl
  | ok u t =>
    have hflag : t.accessControl.paused = p := by
      rw [Entry.exec_accessControl hac h]
      rfl
    have hsame : t.withPaused p = t := by
      rw [← hflag]
      rfl
    exact congrArg (fun v => Except.ok (u, v)) hsame

/-- From a flag to one that is set if the first is, the result of a repayment that is no closing
one stays. -/
theorem repay_result {payer token : Address} {id : ℕ} {amount : ℤ} {p q : Option Bool}
    (h : ¬ FinancingPool.Closes env w payer id token amount)
    (hpq : p.getD false = true → q.getD false = true) :
    ((Entry.pool (.repay payer id token amount)).exec env (w.withPaused q)).result =
      resultMap (World.withPaused q)
        ((Entry.pool (.repay payer id token amount)).exec env (w.withPaused p)).result := by
  -- the change that takes `p` to `q` and leaves every other flag as it is
  let g : Option Bool → Option Bool := fun x => if x = p then q else x
  have hg : ∀ x, x.getD false = true → (g x).getD false = true := by
    intro x hx
    by_cases hxp : x = p
    · rw [show g x = q from if_pos hxp]
      exact hpq (hxp ▸ hx)
    · rw [show g x = x from if_neg hxp]
      exact hx
  have hgp : g p = q := if_pos rfl
  have hstart : (w.withPaused p).mapPaused g = w.withPaused q := by
    rw [← hgp]
    rfl
  have hblocks : OnlyBlocks (World.mapPaused g) World.invoiceNft (Repaid id)
      (Entry.pool (.repay payer id token amount)).exec := FinancingPool.onlyBlocks_repay hg
  rcases hblocks env (w.withPaused p) with heq | ⟨⟨u, t, hok, hD⟩, -⟩
  · have hcomp : World.mapPaused g ∘ World.withPaused p =
        World.withPaused q ∘ World.withPaused p := by
      funext t
      rw [← hgp]
      rfl
    rw [← hstart, heq, ← resultMap_withPaused (e := .pool (.repay payer id token amount)) nofun p,
      resultMap_comp, resultMap_comp, hcomp]
  · have hcloses := FinancingPool.closes_of_repaid hok hD
    exact absurd (hcloses.mapPaused (g := fun _ => w.accessControl.paused)) h

theorem pauseBlind_repay {payer token : Address} {id : ℕ} {amount : ℤ} :
    PauseBlind env w (.pool (.repay payer id token amount)) ↔
      ¬ FinancingPool.Closes env w payer id token amount := by
  constructor
  · intro h hcloses
    have hok : (FinancingPool.repay payer id token amount env
        (w.withPaused (some false))).isOk = true :=
      (hcloses.mapPaused (g := fun _ => some false)).succeeds_iff.mpr rfl
    obtain ⟨u, t, ht⟩ := Outcome.isOk_iff.mp hok
    have heq := h (some false) (some true)
    rw [show (Entry.pool (.repay payer id token amount)).exec env (w.withPaused (some false)) =
      .ok u t from ht] at heq
    cases hr : (Entry.pool (.repay payer id token amount)).exec env (w.withPaused (some true)) with
    | ok u' t' =>
      have hflag := (hcloses.mapPaused (g := fun _ => some true)).succeeds_iff.mp
        (Outcome.isOk_iff.mpr ⟨u', t', hr⟩)
      cases hflag
    | error f t' =>
      rw [hr] at heq
      cases heq
  · intro h p q
    by_cases hpq : p.getD false = true → q.getD false = true
    · exact repay_result h hpq
    · have hqp : q.getD false = true → p.getD false = true := by
        intro _
        by_contra hp
        exact hpq fun hp' => absurd hp' hp
      rw [repay_result h hqp, resultMap_comp]
      exact (resultMap_withPaused (e := .pool (.repay payer id token amount)) nofun q).symm

end Exempt

/-! ## The blocked entry points -/

namespace Marketplace

variable {env : Env} {w w' : World} {u : Unit}

/-- A configured marketplace knows access control. -/
def Storage.Gated (S : Storage) : Prop := S.accessControl = none → S.currentConfig = none

theorem Op.exec_gated {op : Op} (hS : w.marketplace.Gated) (h : op.exec env w = .ok u w') :
    w'.marketplace.Gated := by
  intro hnone
  rcases exec_config h with ⟨_, _, _, _, ac, _, _, rfl, hac, -⟩ | ⟨config, hs⟩
  · rw [hnone] at hac
    cases hac
  · have hconfig := hS (hs.accessControl ▸ hnone)
    rw [hs.before] at hconfig
    cases hconfig

end Marketplace

namespace Marketplace

variable {env : Env} {w w' : World} {β : Type} {b : β} {l : Unit → Host World β}

theorem requireNotPaused_seq_flag (h : (requireNotPaused >>= l) env w = .ok b w')
    (hac : w.marketplace.accessControl ≠ none) : w.accessControl.paused.getD false = false := by
  obtain ⟨ac, hac⟩ := Option.ne_none_iff_exists'.mp hac
  rw [requireNotPaused, assoc_run, gets_run, hac] at h
  simp only [assoc_run, net_run, callFrom_seq_ok, ensure_seq_ok, onAccessControl_ok,
    AccessControl.isPaused_ok] at h
  obtain ⟨-, _, _, ⟨_, ⟨rfl, -⟩, -⟩, hp, -⟩ := h
  exact hp

end Marketplace

section Blocked

variable {env : Env} {w w' : World} {e : Entry}

theorem InvoiceNft.Op.unpaused {op : InvoiceNft.Op} {s t : InvoiceNft.State} {u : Unit}
    (he : (Entry.invoiceNft op).Blocked) (h : op.exec env s = .ok u t) :
    s.accessControl.paused.getD false = false := by
  cases op with
  | mintInvoice sme hash amount currency due cid score notes =>
    simp only [InvoiceNft.Op.exec, bind_ok, pure_ok] at h
    obtain ⟨_, _, hmint, -⟩ := h
    exact (InvoiceNft.mintInvoice_ok hmint).1.unpaused
  | setListed caller id =>
    simp only [InvoiceNft.Op.exec, InvoiceNft.setListed, requireAuth_seq_ok,
      InvoiceNft.requireAuthorizedCaller_seq_ok, InvoiceNft.requireNotPaused_seq_ok] at h
    exact h.2.2.2.1
  | setFunded caller id =>
    simp only [InvoiceNft.Op.exec, InvoiceNft.setFunded, requireAuth_seq_ok,
      InvoiceNft.requireAuthorizedCaller_seq_ok, InvoiceNft.requireNotPaused_seq_ok] at h
    exact h.2.2.2.1
  | initializeContract | setRiskRegistry | migrate | setAuthorizedCallers | amendInvoice
  | withdrawInvoice | commitMetadataHash | setRepaid | setDefaulted | freezeInvoice
  | unfreezeInvoice | addAllowedCurrency | removeAllowedCurrency => exact he.elim

theorem FinancingPool.Op.unpaused {op : FinancingPool.Op} (he : (Entry.pool op).Blocked)
    (h : op.exec env w = .ok () w') : w.accessControl.paused.getD false = false := by
  cases op with
  | releaseFunds marketplace id token =>
    simp only [FinancingPool.Op.exec, FinancingPool.releaseFunds, requireAuth_seq_ok,
      FinancingPool.requireNotPaused_seq_ok] at h
    exact h.2.2.1
  | recordPosition caller id investor contributed total =>
    simp only [FinancingPool.Op.exec, FinancingPool.recordPosition, requireAuth_seq_ok,
      FinancingPool.requireAdmin_seq_ok, FinancingPool.requireNotPaused_seq_ok] at h
    exact h.2.2.2.1
  | markDefault admin id token =>
    simp only [FinancingPool.Op.exec, FinancingPool.markDefault, requireAuth_seq_ok,
      FinancingPool.requireAdmin_seq_ok, FinancingPool.requireNotPaused_seq_ok] at h
    exact h.2.2.2.1
  | initializeContract | setMaxPositionBps | listPositionForSale | buyPosition | repay
  | proposeEarlySettlement | acceptEarlySettlement | cancelEarlySettlement => exact he.elim

theorem Marketplace.Op.unpaused {op : Marketplace.Op} (he : (Entry.marketplace op).Blocked)
    (hw : w.marketplace.Gated) (h : op.exec env w = .ok () w') :
    w.accessControl.paused.getD false = false := by
  have hknown : ∀ {config}, w.marketplace.currentConfig = some config →
      w.marketplace.accessControl ≠ none := by
    intro config hconfig hnone
    rw [hw hnone] at hconfig
    cases hconfig
  cases op with
  | listInvoice seller id price face token deadline referrer =>
    obtain ⟨-, -, -, -, -, config, _, hconfig, -⟩ := Marketplace.listInvoice_ok h
    simp only [Marketplace.Op.exec, Marketplace.listInvoice, requireAuth_seq_ok] at h
    exact Marketplace.requireNotPaused_seq_flag h.2 (hknown hconfig)
  | fundInvoice investor id amount =>
    obtain ⟨_, config, _, _, hF⟩ := Marketplace.fundInvoice_ok h
    simp only [Marketplace.Op.exec, Marketplace.fundInvoice, requireAuth_seq_ok] at h
    exact Marketplace.requireNotPaused_seq_flag h.2 (hknown hF.configured)
  | initializeContract | setReferrerSplitBps | setFeeBps | updateFeeBps | setTierFeeBps
  | whitelistToken | removeTokenWhitelist | cancelListing | requestCancellation
  | adminConfirmCancellation | claimRefund => exact he.elim

/-- **The blocked entry points refuse a paused protocol.** -/
theorem Entry.Blocked.unpaused (he : e.Blocked) (hw : w.marketplace.Gated)
    (h : e.exec env w = .ok () w') : w.accessControl.paused.getD false = false := by
  cases e with
  | invoiceNft op =>
    obtain ⟨s, hs, -⟩ := onInvoiceNft_ok.mp h
    exact InvoiceNft.Op.unpaused he hs
  | pool op => exact FinancingPool.Op.unpaused he h
  | marketplace op => exact Marketplace.Op.unpaused he hw h
  | accessControl | priceOracle | treasury | riskRegistry | transfer => exact he.elim

theorem gated_step (d : Deployment) (w : World) (a : Action) (hw : w.marketplace.Gated) :
    (step d w a).marketplace.Gated := by
  rcases step_cases d w a with ⟨c, rfl, -, h⟩ | ⟨n, rfl, h⟩ | ⟨c, rfl, -, h⟩
  · by_cases hm : ∃ op, c.entry = .marketplace op
    · obtain ⟨op, he⟩ := hm
      rw [he] at h
      exact Marketplace.Op.exec_gated hw h
    · rw [not_exists] at hm
      rw [(Entry.exec_effect h).marketplace hm]
      exact hw
  · rw [h]
    exact hw
  · rw [h]
    exact hw

theorem gated_run (d : Deployment) (now : ℕ) (tokens : Tokens) (as : List Action) :
    (run (step d) (genesis now tokens) as).marketplace.Gated :=
  always (I := fun w : World => w.marketplace.Gated) (fun w a hw => gated_step d w a hw)
    (fun _ => rfl) as

theorem unchanged_of_blocked (he : e.Blocked) (hw : w.marketplace.Gated) : Unchanged env w e := by
  refine unchanged_of_fails fun w' h => ?_
  have hflag := he.unpaused (w := w.withPaused (some true)) hw h
  cases hflag

end Blocked

/-! ## What the flag decides -/

section Pause

variable {env : Env} {w : World} {e : Entry}

theorem pauseBlind_exempt (he : e.Exempt) : PauseBlind env w e ↔ ¬ e.Settles env w := by
  cases e with
  | pool op =>
    cases op with
    | repay payer i token amount => exact pauseBlind_repay
    | cancelEarlySettlement sme i =>
      exact iff_of_true (pauseBlind_of_natural fun _ => FinancingPool.natural_cancelEarlySettlement)
        id
    | initializeContract | setMaxPositionBps | releaseFunds | recordPosition
    | listPositionForSale | buyPosition | markDefault | proposeEarlySettlement
    | acceptEarlySettlement => exact he.elim
  | invoiceNft op =>
    cases op with
    | setRepaid caller i => exact pauseBlind_setRepaid
    | setDefaulted caller i =>
      exact iff_of_true (pauseBlind_of_natural fun _ =>
        natural_onInvoiceNft InvoiceNft.natural_setDefaulted) id
    | initializeContract | setRiskRegistry | migrate | setAuthorizedCallers | mintInvoice
    | amendInvoice | withdrawInvoice | commitMetadataHash | setListed | setFunded | freezeInvoice
    | unfreezeInvoice | addAllowedCurrency | removeAllowedCurrency => exact he.elim
  | marketplace op =>
    cases op with
    | cancelListing caller i =>
      exact iff_of_true (pauseBlind_of_natural fun _ => Marketplace.natural_cancelListing) id
    | claimRefund investor i =>
      exact iff_of_true (pauseBlind_of_natural fun _ => Marketplace.natural_claimRefund) id
    | initializeContract | setReferrerSplitBps | setFeeBps | updateFeeBps | setTierFeeBps
    | whitelistToken | removeTokenWhitelist | listInvoice | fundInvoice | requestCancellation
    | adminConfirmCancellation => exact he.elim
  | accessControl | priceOracle | treasury | riskRegistry | transfer => exact he.elim

/-- **The flag decides an exempt call exactly when the call settles an invoice**, and no blocked
call changes a paused protocol. -/
theorem pauseBlind_iff (env : Env) :
    (∀ (w : World) (e : Entry), e.Exempt → (PauseBlind env w e ↔ ¬ e.Settles env w)) ∧
    ∀ (d : Deployment) (now : ℕ) (tokens : Tokens) (as : List Action) (e : Entry), e.Blocked →
      Unchanged env (run (step d) (genesis now tokens) as) e :=
  ⟨fun _ _ he => pauseBlind_exempt he,
    fun d now tokens as _ he => unchanged_of_blocked he (gated_run d now tokens as)⟩

/-- A pause blocks the repayment that closes a pool. -/
theorem repay_paused : ¬ ∀ (env : Env) (d : Deployment) (now : ℕ) (tokens : Tokens)
    (as : List Action) (e : Entry), e.Exempt →
      PauseBlind env (run (step d) (genesis now tokens) as) e := by
  intro h
  have hblind := h ⟨sample, 0, none, [2]⟩ sample 0 sampleTokens (sampleFunding "USDC")
    (.pool (.repay 2 1 50 10_000)) trivial
  have hsame := hblind.isOk (some false) (some true)
  revert hsame
  decide +kernel

end Pause

end Kora
