import Kora.FinancingPool.Ceiling
import Kora.FinancingPool.Aggregate
import Kora.Marketplace.Release
import Kora.System.Locks
import Kora.Treasury.Fees

set_option autoImplicit false

/-!
# Completing a listing

What is missing on an open listing can be raised by anybody who has it, in parts of any size and in
any order: every contribution goes through, and the one that reaches the asking price opens the
pool.

* `Fundable`, `Completed`: the listings that can be completed, and what completes one;
* `collectContribution_runs`, `Fundable.funds`: contributions that go through;
* `Fit`, `fit_run`: what a reachable ledger provides;
* **`listing_completed`**: in every reachable ledger.
-/

namespace Kora.Marketplace

open Exec Run

/-! ## Statement -/

/-- The listing is open, the invoice listed, and the contracts are wired to each other and admit
contributions in a token of seven decimals, within the ceiling of the arithmetic. -/
structure Fundable (d : Deployment) (w : World) (i : ℕ) (l : Listing) (inv : Invoice) (bps : ℕ) :
    Prop where
  listed : w.marketplace.listing i = some l
  active : l.isActive = true
  intime : w.now ≤ l.fundingDeadline
  invoice : w.invoiceNft.invoice i = some (.current inv)
  status : inv.status = .listed
  unfrozen : w.invoiceNft.invoiceFrozen i = false
  unpaused : w.accessControl.paused.getD false = false
  config : ∃ config, w.marketplace.currentConfig = some config ∧
    config.invoiceNft = d.invoiceNft ∧ config.financingPool = d.financingPool ∧
    config.treasury = d.treasury
  accessControl : ∀ ac, w.marketplace.accessControl = some ac → ac = d.accessControl
  poolAccessControl : w.pool.accessControl = some d.accessControl
  poolInvoiceNft : w.pool.invoiceNft = some d.invoiceNft
  financingPool : w.invoiceNft.financingPool = some d.financingPool
  invoiceAccessControl : w.invoiceNft.accessControl = some d.accessControl
  penalty : w.pool.latePenaltyBps = some bps
  amount : 0 < inv.amount ∧ inv.amount ≤ maxAmount
  token : l.token ≠ d.financingPool
  decimals : w.tokens.decimals l.token = some standardDecimals
  ceiling : l.askingPrice * 10_000 ≤ i128Max
  whitelisted : w.treasury.whitelistedToken l.token = true
  /-- The treasury can record the fees. -/
  room : i128Min ≤ Treasury.collectedOf w l.token ∧
    Treasury.collectedOf w l.token + (l.askingPrice - l.fundedAmount) ≤ i128Max

/-- An investor contributes an amount. -/
def contribute (i : ℕ) (part : Address × ℤ) : Call :=
  ⟨[part.1], .marketplace (.fundInvoice part.1 i part.2)⟩

/-- The contributions, one after the other. -/
def contributing (i : ℕ) (parts : List (Address × ℤ)) : List Action :=
  parts.map fun part => .call (contribute i part)

/-- What an account contributes in all. -/
def partsOf (parts : List (Address × ℤ)) (x : Address) : ℤ :=
  (parts.map fun part => if x = part.1 then part.2 else 0).sum

/-- The contributions completed the listing: the pool is open, the invoice funded, everybody paid
its parts and the contracts have received them. -/
structure Completed (d : Deployment) (i : ℕ) (w w' : World) (l : Listing) (inv : Invoice)
    (bps : ℕ) (parts : List (Address × ℤ)) : Prop where
  listing : w'.marketplace.listing i =
    some { l with fundedAmount := l.askingPrice, isActive := false }
  pool : w'.pool.pool i =
    some ⟨i, l.token, 0, inv.amount, 0, false, bps, inv.amount, false⟩
  status : w'.invoiceNft.status i = some .funded
  paid : ∀ x ∉ d.contracts,
    w'.tokens.balance l.token x = w.tokens.balance l.token x - partsOf parts x
  received : w'.tokens.balance l.token d.financingPool + w'.tokens.balance l.token d.treasury =
    w.tokens.balance l.token d.financingPool + w.tokens.balance l.token d.treasury +
      (l.askingPrice - l.fundedAmount)

/-! ## Contributions that go through -/

section Contributions

variable {β : Type} {b : β} {k : Unit → Host World β} {env : Env} {w : World} {i : ℕ}
  {x token : Address} {amount fee net : ℤ} {config : MarketplaceConfig} {l : Listing}
  {inv : Invoice}

theorem requireNotPaused_run
    (hac : ∀ ac, w.marketplace.accessControl = some ac → ac = env.net.accessControl)
    (hp : w.accessControl.paused.getD false = false) :
    (requireNotPaused >>= k) env w = k () env w := by
  rw [requireNotPaused, assoc_run, gets_run]
  cases h : w.marketplace.accessControl with
  | none => rfl
  | some ac =>
    obtain rfl := hac ac h
    have hread : callFrom env.net.marketplace env.net.accessControl env.net.accessControl
        (onAccessControl AccessControl.isPaused) env w = .ok false w :=
      callFrom_ok.mpr ⟨rfl, onAccessControl_ok.mpr ⟨_, AccessControl.isPaused_ok.mpr ⟨hp, rfl⟩,
        rfl⟩⟩
    simp only [assoc_run, net_run, ok_run hread]
    exact ensure_run rfl

theorem collectContribution_runs (hx : x ∈ env.signers) (hdec : (w.tokens.decimals token).isSome)
    (hfee : 0 ≤ fee) (hnet : 0 ≤ net) (hfunds : fee + net ≤ w.tokens.balance token x)
    (htreasury : config.treasury = env.net.treasury) (hself : x ≠ env.net.treasury)
    (hwhite : w.treasury.whitelistedToken token = true)
    (hroom : checkedAdd (Treasury.collectedOf w token) fee =
      some (Treasury.collectedOf w token + fee)) :
    ∃ w', collectContribution config token x fee net env w = .ok () w' := by
  have hauth : ∀ self, (env.from self).Authenticates x := fun _ => Or.inr hx
  simp only [collectContribution, net_run, ite_run]
  split_ifs with hpaid hrest hrest
  · have hbalance : (w.tokens.move token x config.treasury fee).balance token x =
        w.tokens.balance token x - fee := by
      rw [Tokens.move_balance, if_pos ⟨rfl, rfl⟩, if_neg, add_zero]
      rintro ⟨-, rfl⟩
      exact hself htreasury
    simp only [bind_ok (x := callToken _ _), callToken_transfer_ok, callFrom_seq_ok,
      onTreasury_ok, Treasury.own, zoom_ok]
    exact ⟨_, (), _, ⟨fun _ => hauth _, hdec, hfee, by omega, rfl⟩, htreasury, (), _,
      ⟨_, ⟨_, Treasury.collectFee_iff.mpr ⟨hpaid, hwhite, hroom, rfl⟩, rfl⟩, rfl⟩,
      fun _ => hauth _, hdec, hnet, by rw [hbalance]; omega, rfl⟩
  · simp only [bind_ok (x := callToken _ _), callToken_transfer_ok, callFrom_seq_ok,
      onTreasury_ok, Treasury.own, zoom_ok, pure_ok]
    exact ⟨_, (), _, ⟨fun _ => hauth _, hdec, hfee, by omega, rfl⟩, htreasury, (), _,
      ⟨_, ⟨_, Treasury.collectFee_iff.mpr ⟨hpaid, hwhite, hroom, rfl⟩, rfl⟩, rfl⟩, trivial, rfl⟩
  · exact ⟨_, callToken_transfer_ok.mpr ⟨fun _ => hauth _, hdec, hnet, by omega, rfl⟩⟩
  · exact ⟨w, rfl⟩

end Contributions

/-! ## What a reachable ledger provides -/

/-- What a listing has raised. -/
def raised (w : World) (i : ℕ) : ℤ := ((w.marketplace.listing i).map Listing.fundedAmount).getD 0

/-- No lock is held, the pools and the books are in order, and no contribution exceeds what the
listing has raised. -/
structure Fit (i : ℕ) (w : World) : Prop where
  unlocked : w.Unlocked
  pools : FinancingPool.PoolsSound w
  books : ∃ fees, Books i w fees
  within : ∀ (x : Address) (net : ℤ), (w.marketplace.contribution i)[x]? = some net →
    0 ≤ net ∧ net ≤ raised w i

section Fit

variable {d : Deployment} {w : World} {i : ℕ} {x : Address} {l : Listing}

theorem Fit.sound (h : Fit i w) (hl : w.marketplace.listing i = some l) : Sound l := by
  obtain ⟨_, hB⟩ := h.books
  exact hB.sound l hl

theorem Fit.feesValid (h : Fit i w) : w.marketplace.FeesValid := by
  obtain ⟨_, hB⟩ := h.books
  exact hB.feesValid

theorem raised_of_listed (hl : w.marketplace.listing i = some l) : raised w i = l.fundedAmount := by
  rw [raised, hl]
  rfl

theorem Fit.previous (h : Fit i w) (hl : w.marketplace.listing i = some l) (x : Address) :
    0 ≤ ((w.marketplace.contribution i)[x]?).getD 0 ∧
      ((w.marketplace.contribution i)[x]?).getD 0 ≤ l.fundedAmount := by
  cases hx : (w.marketplace.contribution i)[x]? with
  | none => exact ⟨le_rfl, (h.sound hl).nonneg⟩
  | some net =>
    rw [← raised_of_listed hl]
    exact h.within x net hx

theorem within_step (h : Fit i w) (a : Action) (x : Address) (net : ℤ)
    (hx : ((step d w a).marketplace.contribution i)[x]? = some net) :
    0 ≤ net ∧ net ≤ raised (step d w a) i := by
  rcases step_change d w a i with ⟨c, rfl, -, hchange⟩ | ⟨-, n, -, hw⟩
  · generalize c.entry = e at hchange
    generalize step d w (.call c) = w' at hchange hx ⊢
    cases hchange with
    | frame _ _ hsame =>
      rw [hsame.contribution] at hx
      rw [raised, hsame.listing]
      exact h.within x net hx
    | listed _ _ _ _ _ _ hopen =>
      rw [hopen.contribution] at hx
      have hold := h.within x net hx
      rw [raised, hopen.unlisted] at hold
      rw [raised, hopen.listing]
      exact hold
    | deactivated _ l _ _ hcancel =>
      rw [hcancel.contribution] at hx
      rw [raised_of_listed hcancel.listing, ← raised_of_listed hcancel.found]
      exact h.within x net hx
    | refunded _ _ _ _ hrefund =>
      rw [hrefund.contribution] at hx
      rw [raised, hrefund.listing]
      exact h.within x net hx
    | funded investor amount l config inv fee hF =>
      obtain ⟨hfee, hle⟩ := hF.fee_bounds h.feesValid
      have hpos := hF.positive
      rw [raised_of_listed hF.listing]
      rw [hF.marketplace] at hx
      simp only [Storage.funded, Function.update_self, FinMap.getElem?_insert'] at hx
      split_ifs at hx with hinvestor
      · obtain rfl := Option.some.inj hx
        obtain ⟨hnonneg, hwithin⟩ := h.previous hF.listed investor
        exact ⟨by omega, by show _ ≤ l.fundedAmount + amount; omega⟩
      · obtain ⟨hnonneg, hwithin⟩ := h.within x net hx
        rw [raised_of_listed hF.listed] at hwithin
        exact ⟨hnonneg, by show net ≤ l.fundedAmount + amount; omega⟩
  · rw [hw] at hx ⊢
    exact h.within x net hx

theorem fit_step (h : Fit i w) (a : Action) : Fit i (step d w a) := by
  obtain ⟨fees, hB⟩ := h.books
  exact ⟨unlocked_step h.unlocked a, FinancingPool.poolsSound_step h.pools a,
    ⟨_, books_step hB a⟩, within_step h a⟩

theorem fit_run (d : Deployment) (i now : ℕ) (tokens : Tokens) (as : List Action) :
    Fit i (run (step d) (genesis now tokens) as) := by
  have hgenesis : Fit i (genesis now tokens) := by
    refine ⟨unlocked_run d now tokens [], FinancingPool.poolsSound_genesis now tokens,
      ⟨0, books_genesis i now tokens⟩, fun x net h => ?_⟩
    simp [genesis] at h
  exact always (I := Fit i) (fun _ a hw => fit_step hw a) hgenesis as

end Fit

/-! ## One contribution -/

section Contribution

variable {d : Deployment} {env : Env} {w w' : World} {i bps : ℕ} {x : Address} {amount : ℤ}
  {l : Listing} {inv : Invoice}

theorem fee_standard {rate : ℕ} (hpos : 0 ≤ amount) (hrate : rate ≤ 10_000)
    (hceiling : amount * 10_000 ≤ i128Max) : ∃ fee,
      bpsOfNormalized amount rate standardDecimals = .ok fee ∧ 0 ≤ fee ∧ fee ≤ amount := by
  have hfits : amount * rate ≤ i128Max := by
    refine le_trans ?_ hceiling
    exact mul_le_mul_of_nonneg_left (by exact_mod_cast hrate) hpos
  have hfee : bpsOfNormalized amount rate standardDecimals = .ok (amount * rate / 10_000) := by
    rw [FinancingPool.bpsOfNormalized_eq, FinancingPool.bpsOf_eq hpos, if_pos hfits]
  exact ⟨_, hfee, bpsOfNormalized_nonneg hfee, bpsOfNormalized_le hfee hrate⟩

theorem Fundable.unopened (h : Fundable d w i l inv bps) (hw : Fit i w) :
    w.pool.pool i = none := by
  by_contra hp
  have hfinanced := hw.pools.financed i hp
  rw [InvoiceNft.Storage.status_of_current h.invoice, h.status] at hfinanced
  simp [InvoiceNft.Financed] at hfinanced

theorem Fundable.releases (h : Fundable env.net w i l inv bps) (hw : Fit i w)
    {config : MarketplaceConfig} (hpool : config.financingPool = env.net.financingPool)
    {w₂ : World} (hp : w₂.pool = w.pool) (hn : w₂.invoiceNft = w.invoiceNft)
    (ha : w₂.accessControl = w.accessControl) :
    ∃ w', callFrom env.net.marketplace config.financingPool env.net.financingPool
      (FinancingPool.releaseFunds env.net.marketplace i l.token) env w₂ = .ok () w' := by
  simp only [callFrom_ok, FinancingPool.releaseFunds_iff, hp, hn, ha]
  exact ⟨_, hpool, env.authenticates_from _, h.poolAccessControl, h.unpaused, h.unopened hw,
    h.token, h.poolInvoiceNft, h.financingPool, h.invoiceAccessControl, hw.unlocked.invoiceNft,
    inv, bps, h.penalty, h.invoice, h.status, h.amount, rfl⟩

/-- **A contribution goes through.** -/
theorem Fundable.funds (h : Fundable env.net w i l inv bps) (hw : Fit i w) (hx : x ∈ env.signers)
    (hself : x ∉ env.net.contracts) (hnow : env.timestamp = w.now) (hpos : 0 < amount)
    (hle : amount ≤ l.askingPrice - l.fundedAmount)
    (hfunds : amount ≤ w.tokens.balance l.token x) :
    ∃ w', fundInvoice x i amount env w = .ok () w' := by
  obtain ⟨config, hconfig, hnft, hpool, htreasury⟩ := h.config
  obtain ⟨hnonneg, hprevious⟩ := hw.previous h.listed x
  have hraised := (hw.sound h.listed).nonneg
  have hceiling := h.ceiling
  obtain ⟨hlow, hhigh⟩ := h.room
  obtain ⟨fee, hfee, hfee0, hfeele⟩ := fee_standard hpos.le
    (hw.feesValid.effectiveFeeBps hconfig inv.riskTier) (by omega)
  have hroom : checkedAdd (Treasury.collectedOf w l.token) fee =
      some (Treasury.collectedOf w l.token + fee) := by
    rw [checkedAdd, checkI128_some]
    omega
  have hdec : (w.tokens.decimals l.token).isSome = true := by rw [h.decimals]; rfl
  have htre : x ≠ env.net.treasury := by
    rintro rfl
    exact hself (by simp [Deployment.contracts])
  set wc : World := { w with marketplace := { w.marketplace with config := some config } }
  have hpaid : fee + (amount - fee) ≤ wc.tokens.balance l.token x := by
    show _ ≤ w.tokens.balance l.token x
    omega
  obtain ⟨w₁, hcollect⟩ : ∃ w₁, collectContribution config l.token x fee (amount - fee) env wc =
      .ok () w₁ :=
    collectContribution_runs hx hdec hfee0 (by omega) hpaid htreasury htre h.whitelisted hroom
  obtain ⟨-, rfl⟩ := collectContribution_ok hcollect
  have hmax : ∀ y : ℤ, 0 ≤ y → y ≤ l.askingPrice → i128Min ≤ y ∧ y ≤ i128Max := by
    intro y hy hle
    unfold i128Min i128Max at *
    omega
  have hremaining : safeSub l.askingPrice l.fundedAmount =
      .ok (l.askingPrice - l.fundedAmount) := by
    rw [safeSub, okOr_ok, checkedSub, checkI128_some]
    exact ⟨rfl, hmax _ (by omega) (by omega)⟩
  have hnet : checkedSub amount fee = some (amount - fee) := by
    rw [checkedSub, checkI128_some]
    exact ⟨rfl, hmax _ (by omega) (by omega)⟩
  have hfunded : safeAdd l.fundedAmount amount = .ok (l.fundedAmount + amount) := by
    rw [safeAdd, okOr_ok, checkedAdd, checkI128_some]
    exact ⟨rfl, hmax _ (by omega) (by omega)⟩
  have hcontributed : safeAdd (((w.marketplace.contribution i)[x]?).getD 0) (amount - fee) =
      .ok (((w.marketplace.contribution i)[x]?).getD 0 + (amount - fee)) := by
    rw [safeAdd, okOr_ok, checkedAdd, checkI128_some]
    exact ⟨rfl, hmax _ (by omega) (by omega)⟩
  have hamount : amount ≤ maxAmount := by
    unfold maxAmount i128Max at *
    omega
  rw [fundInvoice, requireAuth_run (Or.inr hx), requireNotPaused_run h.accessControl h.unpaused]
  simp only [check_seq_ok, requireNonZeroAmount, requireWithinMaxAmount, guardK_ok,
    loadListing_seq_ok, ensure_seq_ok, timestamp_run, loadConfig_seq_ok, invoiceFrozen_seq_ok,
    net_run, bind_ok (x := callToken _ _), callToken_decimals_ok, getInvoice_seq_ok, gets_run,
    okOr_ok, bind_ok (x := collectContribution _ _ _ _ _), modifyOwn, modify_run, putListing,
    decide_eq_true_iff]
  have hlast : ∀ S T K, ∃ w', (if l.askingPrice ≤ l.fundedAmount + amount then
        callFrom env.net.marketplace config.financingPool env.net.financingPool
          (FinancingPool.releaseFunds env.net.marketplace i l.token)
        else pure ()) env { w with marketplace := S, treasury := T, tokens := K } =
          .ok () w' := by
    intro S T K
    rw [ite_run]
    split_ifs
    · exact h.releases hw hpool rfl rfl rfl
    · exact ⟨_, rfl⟩
  exact ⟨_, (), hpos, (), hamount, l, h.listed, h.active, hnow.trans_le h.intime, _, hremaining,
    hle, config, hconfig, hnft, h.unfrozen, standardDecimals, _, ⟨h.decimals, rfl⟩, hnft, inv,
    h.invoice, fee, hfee, _, hnet, (), _, hcollect, _, hfunded, _, hcontributed,
    (hlast _ _ _).choose_spec⟩

end Contribution

/-! ## All contributions -/

section Parts

variable {d : Deployment} {w w' : World} {i bps : ℕ} {x : Address} {amount fee : ℤ}
  {l : Listing} {inv : Invoice} {config : MarketplaceConfig} {part : Address × ℤ}
  {parts : List (Address × ℤ)}

@[simp] theorem partsOf_cons (y : Address) : partsOf (part :: parts) y =
    (if y = part.1 then part.2 else 0) + partsOf parts y := by
  rw [partsOf, List.map_cons, List.sum_cons]
  rfl

theorem partsOf_nonneg (h : ∀ part ∈ parts, 0 < part.2) (y : Address) : 0 ≤ partsOf parts y := by
  refine List.sum_nonneg fun z hz => ?_
  obtain ⟨part, hpart, rfl⟩ := List.mem_map.mp hz
  split_ifs
  · exact (h part hpart).le
  · exact le_rfl

/-- What a contribution leaves, where the contracts are wired. -/
structure Part (d : Deployment) (i : ℕ) (w w' : World) (l : Listing) (inv : Invoice) (bps : ℕ)
    (part : Address × ℤ) (config : MarketplaceConfig) (fee : ℤ) : Prop where
  funding : Funding ((contribute i part).env d w) w part.1 i part.2 w' l config inv fee
  treasury : w'.treasury = chargedTo w.treasury l.token fee
  accessControl : w'.accessControl = w.accessControl
  toPool : config.financingPool = d.financingPool
  toTreasury : config.treasury = d.treasury
  toInvoiceNft : config.invoiceNft = d.invoiceNft
  bounds : 0 ≤ fee ∧ fee ≤ part.2
  opened : l.askingPrice ≤ l.fundedAmount + part.2 → w'.pool.pool i =
    some ⟨i, l.token, 0, inv.amount, 0, false, bps, inv.amount, false⟩

theorem Fundable.takes (h : Fundable d w i l inv bps) (hw : Fit i w) (hout : part.1 ∉ d.contracts)
    (hpos : 0 < part.2) (hle : part.2 ≤ l.askingPrice - l.fundedAmount)
    (hfunds : part.2 ≤ w.tokens.balance l.token part.1) :
    (contribute i part).Succeeds d w ∧ ∃ config fee,
      Part d i w (step d w (.call (contribute i part))) l inv bps part config fee := by
  have hsigned : part.1 ∈ ((contribute i part).env d w).signers := by
    simp [contribute, Call.env, hout]
  obtain ⟨w', hrun⟩ : ∃ w', fundInvoice part.1 i part.2 ((contribute i part).env d w) w =
      .ok () w' := Fundable.funds h hw hsigned hout rfl hpos hle hfunds
  have hexec : (contribute i part).entry.exec ((contribute i part).env d w) w = .ok () w' := hrun
  refine ⟨Call.succeeds_iff.mpr ⟨w', hexec⟩, ?_⟩
  rw [step_call_of_ok hexec]
  obtain ⟨l', config, inv', fee, hF⟩ := fundInvoice_ok hrun
  obtain rfl := Option.some.inj (h.listed.symm.trans hF.listed)
  obtain rfl := InvoiceNft.Storage.current_inj h.invoice hF.invoice
  obtain ⟨_, hconfig, hnft, hpool, htreasury⟩ := h.config
  obtain rfl := Option.some.inj (hconfig.symm.trans hF.configured)
  obtain ⟨l', fee', hl', hfee', hcharged⟩ := fundInvoice_treasury hrun
  obtain rfl := Option.some.inj (h.listed.symm.trans hl')
  obtain rfl := Option.some.inj (hF.chargedFee.symm.trans hfee')
  refine ⟨_, fee, hF, hcharged, Entry.exec_accessControl (by rintro _ ⟨⟩) hexec, hpool, htreasury,
    hnft, hF.fee_bounds hw.feesValid, fun hfull => ?_⟩
  obtain ⟨w₁, hsame, hrelease⟩ := fundInvoice_release hrun h.listed hfull
  obtain ⟨-, -, -, -, -, bps₁, hpools, -⟩ := hF.released hfull
  obtain ⟨-, -, -, _, bps₂, hbps, -, -, -, hw₁⟩ := FinancingPool.releaseFunds_opens hrelease
  have hopened : w'.pool.pool i =
      some ⟨i, l.token, 0, inv.amount, 0, false, bps₁, inv.amount, false⟩ := by
    rw [hpools]
    exact Function.update_self ..
  have hpenalty : (w'.pool.pool i).map Pool.latePenaltyBps = some bps₂ := by
    rw [hw₁]
    simp
  rw [hopened] at hpenalty
  rw [hsame, h.penalty] at hbps
  obtain rfl := Option.some.inj hpenalty
  obtain rfl := Option.some.inj hbps
  exact hopened

theorem Part.balance (h : Part d i w w' l inv bps part config fee) (y : Address) :
    w'.tokens.balance l.token y = w.tokens.balance l.token y -
      (if y = part.1 then part.2 else 0) + (if y = d.treasury then fee else 0) +
      if y = d.financingPool then part.2 - fee else 0 := by
  obtain ⟨hnonneg, hle⟩ := h.bounds
  rw [h.funding.tokens, contributed_balance hnonneg (by omega), h.toTreasury, h.toPool,
    add_sub_cancel]

/-- **What is left** can be funded. -/
theorem Part.next (h : Part d i w w' l inv bps part config fee) (hl : Fundable d w i l inv bps)
    (hlt : l.fundedAmount + part.2 < l.askingPrice) :
    Fundable d w' i { l with fundedAmount := l.fundedAmount + part.2 } inv bps := by
  obtain ⟨hpool, hnft⟩ := h.funding.unreleased hlt
  obtain ⟨hnonneg, hle⟩ := h.bounds
  have hlisting : w'.marketplace.listing i =
      some { l with fundedAmount := l.fundedAmount + part.2 } := by
    rw [h.funding.listing, decide_eq_true hlt, ← hl.active]
  have hcollected : Treasury.collectedOf w' l.token = Treasury.collectedOf w l.token + fee :=
    Treasury.collectedOf_charged h.treasury hnonneg
  have hdecimals : w'.tokens.decimals = w.tokens.decimals := by
    rw [h.funding.tokens]
    unfold contributed
    split_ifs <;> rfl
  have hwhite : w'.treasury.whitelistedToken = w.treasury.whitelistedToken := by
    rw [h.treasury]
    unfold chargedTo
    split_ifs <;> rfl
  obtain ⟨hlow, hhigh⟩ := hl.room
  exact {
    listed := hlisting
    active := hl.active
    intime := h.funding.now.trans_le hl.intime
    invoice := hnft ▸ hl.invoice
    status := hl.status
    unfrozen := hnft ▸ hl.unfrozen
    unpaused := h.accessControl ▸ hl.unpaused
    config := ⟨config, h.funding.currentConfig, h.toInvoiceNft, h.toPool, h.toTreasury⟩
    accessControl := by
      rw [h.funding.marketplace]
      exact hl.accessControl
    poolAccessControl := hpool ▸ hl.poolAccessControl
    poolInvoiceNft := hpool ▸ hl.poolInvoiceNft
    financingPool := hnft ▸ hl.financingPool
    invoiceAccessControl := hnft ▸ hl.invoiceAccessControl
    penalty := hpool ▸ hl.penalty
    amount := hl.amount
    token := hl.token
    decimals := hdecimals ▸ hl.decimals
    ceiling := hl.ceiling
    whitelisted := hwhite ▸ hl.whitelisted
    room := by
      rw [hcollected]
      constructor
      · omega
      · show _ + (l.askingPrice - (l.fundedAmount + part.2)) ≤ _
        omega }

theorem Part.balances (h : Part d i w w' l inv bps part config fee) (hout : part.1 ∉ d.contracts) :
    (∀ y ∉ d.contracts, w'.tokens.balance l.token y =
      w.tokens.balance l.token y - (if y = part.1 then part.2 else 0)) ∧
    w'.tokens.balance l.token d.financingPool + w'.tokens.balance l.token d.treasury =
      w.tokens.balance l.token d.financingPool + w.tokens.balance l.token d.treasury + part.2 := by
  have hne : d.financingPool ≠ d.treasury := by
    have := d.distinct
    simp only [List.nodup_cons, List.mem_cons, not_or] at this
    exact this.2.2.2.1.1
  have hcontract : ∀ y ∈ d.contracts, y ≠ part.1 := by
    rintro _ hy rfl
    exact hout hy
  refine ⟨fun y hy => ?_, ?_⟩
  · simp only [Deployment.contracts, List.mem_cons, not_or] at hy
    rw [h.balance, if_neg hy.2.2.2.2.1, if_neg hy.2.2.2.1, add_zero, add_zero]
  · rw [h.balance, h.balance, if_neg (hcontract _ (by simp [Deployment.contracts])),
      if_neg (hcontract _ (by simp [Deployment.contracts])), if_neg hne, if_pos rfl, if_pos rfl,
      if_neg hne.symm]
    ring

theorem Part.last (h : Part d i w w' l inv bps part config fee)
    (hout : part.1 ∉ d.contracts) (hall : part.2 = l.askingPrice - l.fundedAmount) :
    Completed d i w w' l inv bps [part] := by
  have hfull : l.fundedAmount + part.2 = l.askingPrice := by omega
  obtain ⟨hpaid, hreceived⟩ := h.balances hout
  obtain ⟨-, -, -, -, -, _, -, hnft⟩ := h.funding.released hfull.ge
  refine ⟨?_, h.opened hfull.ge, ?_, fun y hy => ?_, ?_⟩
  · rw [h.funding.listing, hfull]
    simp
  · rw [hnft]
    exact InvoiceNft.Storage.status_asFunded.trans (if_pos rfl)
  · rw [hpaid y hy, partsOf_cons, partsOf, List.map_nil, List.sum_nil, add_zero]
  · rw [hreceived, hall]

theorem Completed.cons {w'' : World} (h : Part d i w w' l inv bps part config fee)
    (hout : part.1 ∉ d.contracts)
    (h' : Completed d i w' w'' { l with fundedAmount := l.fundedAmount + part.2 } inv bps parts) :
    Completed d i w w'' l inv bps (part :: parts) := by
  obtain ⟨hpaid, hreceived⟩ := h.balances hout
  have hlater := h'.received
  refine ⟨h'.listing, h'.pool, h'.status, fun y hy => ?_, ?_⟩
  · have hrest := h'.paid y hy
    rw [hrest, hpaid y hy, partsOf_cons]
    ring
  · simp only at hlater
    omega

/-- **Any parts that add up** complete the listing. -/
theorem Fundable.completed (h : Fundable d w i l inv bps) (hw : Fit i w)
    (hparts : ∀ part ∈ parts, 0 < part.2 ∧ part.1 ∉ d.contracts)
    (hsum : (parts.map Prod.snd).sum = l.askingPrice - l.fundedAmount)
    (hfunds : ∀ part ∈ parts, partsOf parts part.1 ≤ w.tokens.balance l.token part.1) :
    Along (step d) (fun w a => ∃ e, Performs d w e a) w (contributing i parts) ∧
      Completed d i w (run (step d) w (contributing i parts)) l inv bps parts := by
  induction parts generalizing w l with
  | nil =>
    -- an active listing is not complete
    have hshort := (hw.sound h.listed).active h.active
    rw [List.map_nil, List.sum_nil] at hsum
    omega
  | cons part parts ih =>
    rw [List.forall_mem_cons] at hparts hfunds
    rw [List.map_cons, List.sum_cons] at hsum
    obtain ⟨⟨hpos, hout⟩, hparts⟩ := hparts
    obtain ⟨hpaid, hfunds⟩ := hfunds
    have hamounts : ∀ z ∈ parts.map Prod.snd, 0 < z := by
      intro z hz
      obtain ⟨q, hq, rfl⟩ := List.mem_map.mp hz
      exact (hparts q hq).1
    have hrest : 0 ≤ (parts.map Prod.snd).sum := List.sum_nonneg fun z hz => (hamounts z hz).le
    have hothers : 0 ≤ partsOf parts part.1 := partsOf_nonneg (fun q hq => (hparts q hq).1) part.1
    rw [partsOf_cons, if_pos rfl] at hpaid
    obtain ⟨hs, config, fee, hpart⟩ := h.takes hw hout hpos (by omega) (by omega)
    have hperforms : ∃ e, Performs d w e (.call (contribute i part)) := ⟨_, hs, rfl⟩
    have hleft : (parts.map Prod.snd).sum = l.askingPrice - (l.fundedAmount + part.2) := by omega
    have hkept : ∀ q ∈ parts, partsOf parts q.1 ≤
        (step d w (.call (contribute i part))).tokens.balance l.token q.1 := by
      intro q hq
      have hheld := hfunds q hq
      rw [partsOf_cons] at hheld
      rw [(hpart.balances hout).1 q.1 (hparts q hq).2]
      omega
    rcases eq_or_ne parts [] with rfl | hne
    · rw [List.map_nil, List.sum_nil, add_zero] at hsum
      exact ⟨⟨hperforms, trivial⟩, hpart.last hout hsum⟩
    · have hmore : 0 < (parts.map Prod.snd).sum :=
        List.sum_pos _ hamounts (List.map_eq_nil_iff.not.mpr hne)
      obtain ⟨halong, hcompleted⟩ :=
        ih (hpart.next h (by omega)) (fit_step hw _) hparts hleft hkept
      exact ⟨⟨hperforms, halong⟩, .cons hpart hout hcompleted⟩

end Parts

/-! ## Runs -/

/-- **Completion.** In every reachable ledger, whoever holds what is missing on a fundable listing
can complete it, in parts of any size and in any order: every contribution goes through, and the
last one opens the pool and funds the invoice. -/
theorem listing_completed (d : Deployment) (start : ℕ) (tokens : Tokens) (as : List Action)
    (w : World) (hw : w = run (step d) (genesis start tokens) as) (i : ℕ) (l : Listing)
    (inv : Invoice) (bps : ℕ) (h : Fundable d w i l inv bps) (parts : List (Address × ℤ))
    (hparts : ∀ part ∈ parts, 0 < part.2 ∧ part.1 ∉ d.contracts)
    (hsum : (parts.map Prod.snd).sum = l.askingPrice - l.fundedAmount)
    (hfunds : ∀ part ∈ parts, partsOf parts part.1 ≤ w.tokens.balance l.token part.1) :
    Along (step d) (fun w a => ∃ e, Performs d w e a) w (contributing i parts) ∧
      Completed d i w (run (step d) w (contributing i parts)) l inv bps parts := by
  subst hw
  exact h.completed (fit_run d i start tokens as) hparts hsum hfunds

/-- A first investor contributes a part of the price of invoice `1`. -/
def fundedInPart : List Action := sampleSetup "USDC" ++ [
  signed 3 (.marketplace (.fundInvoice 3 1 2_000))]

/-- The listing of invoice `1`, which `2_000` is raised for. -/
def listingInPart : Listing := ⟨1, 2, 9_000, 10_000, 50, 2_000, 500, true⟩

/-- Invoice `1` while it is listed. -/
def listedInvoice : Invoice :=
  ⟨1, 2, [1], 10_000, "USDC", 1000, "cid", [], 50, .a, .listed, 0, none, none, none⟩

theorem fundable_sample : Fundable sample (run (step sample) sampleGenesis fundedInPart) 1
    listingInPart listedInvoice 200 where
  listed := by decide +kernel
  active := rfl
  intime := by decide +kernel
  invoice := by decide +kernel
  status := rfl
  unfrozen := by decide +kernel
  unpaused := by decide +kernel
  config := ⟨⟨1, 102, 104, 105, 101, 106, 200, 0⟩, by decide +kernel, rfl, rfl, rfl⟩
  accessControl := by
    rw [show (run (step sample) sampleGenesis fundedInPart).marketplace.accessControl = some 101 by
      decide +kernel]
    rintro _ ⟨⟩
    rfl
  poolAccessControl := by decide +kernel
  poolInvoiceNft := by decide +kernel
  financingPool := by decide +kernel
  invoiceAccessControl := by decide +kernel
  penalty := by decide +kernel
  amount := by decide
  token := by decide
  decimals := by decide +kernel
  ceiling := by decide
  whitelisted := by decide +kernel
  room := by decide +kernel

/-- Two investors complete the sample listing in three parts. -/
theorem listing_completed_sample : Completed sample 1 (run (step sample) sampleGenesis fundedInPart)
    (run (step sample) (run (step sample) sampleGenesis fundedInPart)
      (contributing 1 [(4, 3_000), (5, 1_500), (4, 2_500)]))
    listingInPart listedInvoice 200 [(4, 3_000), (5, 1_500), (4, 2_500)] :=
  (listing_completed sample 0 sampleTokens fundedInPart _ rfl 1 listingInPart listedInvoice 200
    fundable_sample [(4, 3_000), (5, 1_500), (4, 2_500)] (by decide) (by decide)
    (by decide +kernel)).2

end Kora.Marketplace
