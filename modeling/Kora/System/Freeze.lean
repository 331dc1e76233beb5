import Kora.FinancingPool.Change
import Kora.Marketplace.Change
import Kora.System.Controls
import Kora.System.Status

set_option autoImplicit false

/-!
# Frozen invoices

The admin freezes a disputed invoice. Contributions and repayments look at the freeze, early
settlements do not: the acceptance that completes one closes the pool of a frozen invoice and pays
its investors.

* `Undisturbed`: what a step leaves alone of a frozen invoice;
* `listing_of_frozen`, `pool_of_frozen`: one transaction;
* **`freeze_iff`**: when the freeze holds in a run.
-/

namespace Kora

open Exec Run

/-! ## Statement -/

/-- The step pays out tokens of the pool contract for invoice `i`. The admin's settling of a default
and the refund of an escrow do not count. -/
def Distributes (d : Deployment) (i : ℕ) (w : World) (a : Action) : Prop :=
  ∃ e, Performs d w e a ∧ FinancingPool.DealsWith i e ∧
    (∀ admin token, e ≠ .pool (.markDefault admin i token)) ∧
    (∀ sme, e ≠ .pool (.cancelEarlySettlement sme i)) ∧
    ∃ t ∈ newTransfers w (step d w a), t.src = d.financingPool

/-- The step raises no funds for invoice `i`, leaves its pool as repaid and as open as it is, and
distributes none of it. -/
structure Undisturbed (d : Deployment) (i : ℕ) (w : World) (a : Action) : Prop where
  listing : ∀ l l', w.marketplace.listing i = some l →
    (step d w a).marketplace.listing i = some l' → l'.fundedAmount ≤ l.fundedAmount
  pool : ∀ p p', w.pool.pool i = some p → (step d w a).pool.pool i = some p' →
    p'.repaidAmount = p.repaidAmount ∧ p'.isClosed = p.isClosed
  distribution : ¬ Distributes d i w a

/-- While invoice `i` is frozen, the step leaves it alone. -/
def FreezeHolds (d : Deployment) (i : ℕ) (w : World) (a : Action) : Prop :=
  w.invoiceNft.invoiceFrozen i = true → Undisturbed d i w a

/-- While invoice `i` is frozen, a successful acceptance of its early settlement in the step leaves
shares that have not accepted. -/
def NoFrozenSettlement (d : Deployment) (i : ℕ) (w : World) (a : Action) : Prop :=
  w.invoiceNft.invoiceFrozen i = true → ∀ investor offer pos,
    Performs d w (.pool (.acceptEarlySettlement investor i)) a →
    w.pool.earlySettlement i = some offer → (w.pool.positions i)[investor]? = some pos →
    offer.acceptedBps + pos.shareBps < 10_000

/-! ## Steps -/

section Steps

variable {d : Deployment} {env : Env} {w w' : World} {e : Entry} {i : ℕ} {a : Action}

/-- **No transaction raises funds for a frozen invoice.** -/
theorem listing_of_frozen (hfrozen : w.invoiceNft.invoiceFrozen i = true)
    (h : e.exec env w = .ok () w') : ∀ l l', w.marketplace.listing i = some l →
      w'.marketplace.listing i = some l' → l'.fundedAmount ≤ l.fundedAmount := by
  intro l l' hl hl'
  cases Marketplace.change_of_effect (Entry.exec_effect h) i with
  | frame _ _ hsame =>
    rw [hsame.listing, hl] at hl'
    cases hl'
    exact le_rfl
  | listed _ _ _ _ _ _ hopen =>
    rw [hopen.unlisted] at hl
    cases hl
  | funded investor amount =>
    rw [Marketplace.fundInvoice_unfrozen h] at hfrozen
    cases hfrozen
  | deactivated _ _ _ _ hoff =>
    rw [hoff.found] at hl
    rw [hoff.listing] at hl'
    cases hl
    cases hl'
    exact le_rfl
  | refunded _ _ _ _ hrefund =>
    rw [hrefund.listing, hl] at hl'
    cases hl'
    exact le_rfl

/-- What a transaction leaves alone of the pool of a frozen invoice. -/
structure PoolStays (env : Env) (i : ℕ) (w w' : World) (e : Entry) : Prop where
  pool : ∀ p p', w.pool.pool i = some p → w'.pool.pool i = some p' →
    p'.repaidAmount = p.repaidAmount ∧ p'.isClosed = p.isClosed
  transfers : FinancingPool.DealsWith i e →
    (∀ admin token, e ≠ .pool (.markDefault admin i token)) →
    (∀ sme, e ≠ .pool (.cancelEarlySettlement sme i)) →
    ∀ t ∈ newTransfers w w', t.src ≠ env.net.financingPool
  short : ∀ investor offer pos, e = .pool (.acceptEarlySettlement investor i) →
    w.pool.earlySettlement i = some offer → (w.pool.positions i)[investor]? = some pos →
    offer.acceptedBps + pos.shareBps < 10_000

theorem pool_of_same (hsame : w'.pool.pool i = w.pool.pool i) :
    ∀ p p', w.pool.pool i = some p → w'.pool.pool i = some p' →
      p'.repaidAmount = p.repaidAmount ∧ p'.isClosed = p.isClosed := by
  intro p p' hp hp'
  rw [hsame, hp] at hp'
  cases hp'
  exact ⟨rfl, rfl⟩

/-- **The pool of a frozen invoice stays**, unless an acceptance settles it. -/
theorem pool_of_frozen (hfrozen : w.invoiceNft.invoiceFrozen i = true)
    (hauth : ∀ x, env.Authenticates x → x ≠ env.net.financingPool)
    (h : e.exec env w = .ok () w') : PoolStays env i w w' e ∨
      ∃ investor offer p pos inv decimals payments, e = .pool (.acceptEarlySettlement investor i) ∧
        FinancingPool.Settlement env i w w' investor offer p pos inv decimals payments := by
  have hnone : w'.tokens = w.tokens →
      ∀ t ∈ newTransfers w w', t.src ≠ env.net.financingPool := by
    intro htokens
    rw [newTransfers_of_same htokens]
    nofun
  have hmove : ∀ {token src dst : Address} {amount : ℤ},
      w'.tokens = w.tokens.move token src dst amount → env.Authenticates src →
      ∀ t ∈ newTransfers w w', t.src ≠ env.net.financingPool := by
    intro token src dst amount htokens hsrc
    rw [newTransfers_of_move htokens]
    simpa using hauth src hsrc
  cases FinancingPool.change_of_effect (Entry.exec_effect h) i with
  | frame _ hdeals hsame =>
    refine Or.inl ⟨pool_of_same hsame.pool, fun hd => absurd hd hdeals, ?_⟩
    rintro _ _ _ rfl
    exact absurd rfl hdeals
  | opened _ _ _ _ hdeals hopen =>
    refine Or.inl ⟨fun p p' hp => ?_, fun hd => absurd hd hdeals, ?_⟩
    · rw [hopen.unopened] at hp
      cases hp
    · rintro _ _ _ rfl
      exact absurd rfl hdeals
  | recorded _ _ _ _ _ hrecord =>
    obtain ⟨-, -, _, _, -, -, -, rfl⟩ := FinancingPool.recordPosition_ok h
    exact Or.inl ⟨pool_of_same rfl, fun _ _ _ => hnone rfl, by simp⟩
  | sold _ _ _ hsale =>
    obtain ⟨ha, _, _, _, _, _, -, -, -, rfl⟩ := FinancingPool.buyPosition_ok h
    exact Or.inl ⟨pool_of_same rfl, fun _ _ _ => hmove rfl ha, by simp⟩
  | repaid =>
    -- a repayment looks at the freeze
    obtain ⟨-, -, -, hunfrozen, -⟩ := FinancingPool.repay_iff.mp h
    rw [hunfrozen] at hfrozen
    cases hfrozen
  | defaulted admin token _ _ _ hdefault =>
    exact Or.inl ⟨pool_of_same hdefault.same.pool, fun _ hnot => absurd rfl (hnot admin token),
      by simp⟩
  | proposed _ _ _ hp =>
    exact Or.inl ⟨pool_of_same hp.pool, fun _ _ _ => hmove hp.tokens hp.authenticated, by simp⟩
  | accepted investor offer p pos ha =>
    refine Or.inl ⟨pool_of_same ha.pool, fun _ _ _ => hnone ha.tokens, ?_⟩
    rintro _ offer' pos' ⟨⟩ hoffer hpos
    rw [ha.pending] at hoffer
    rw [ha.holds] at hpos
    cases hoffer
    cases hpos
    exact ha.partly
  | settled investor offer p pos inv decimals payments hs =>
    exact Or.inr ⟨investor, offer, p, pos, inv, decimals, payments, rfl, hs⟩
  | cancelled sme _ _ hc =>
    exact Or.inl ⟨pool_of_same hc.pool, fun _ _ hnot => absurd rfl (hnot sme), by simp⟩

theorem undisturbed_of_idle (hnone : ∀ e, ¬ Performs d w e a)
    (hm : (step d w a).marketplace = w.marketplace) (hp : (step d w a).pool = w.pool) :
    Undisturbed d i w a := by
  refine ⟨fun l l' hl hl' => ?_, pool_of_same (by rw [hp]), ?_⟩
  · rw [hm, hl] at hl'
    cases hl'
    exact le_rfl
  · rintro ⟨e, he, -⟩
    exact hnone e he

/-- **The freeze holds in a step exactly when the step completes no early settlement of the frozen
invoice.** -/
theorem freeze_step (d : Deployment) (i : ℕ) (w : World) (a : Action) :
    FreezeHolds d i w a ↔ NoFrozenSettlement d i w a := by
  refine imp_congr_right fun hfrozen => ?_
  rcases step_cases d w a with ⟨c, rfl, hs, h⟩ | ⟨n, rfl, h⟩ | ⟨c, rfl, hn, h⟩
  · rcases pool_of_frozen hfrozen (fun x hx => Call.ne_financingPool hx) h with
      hstays | ⟨investor, offer, p, pos, inv, decimals, payments, he, hsettle⟩
    · refine iff_of_true ⟨listing_of_frozen hfrozen h, hstays.pool, ?_⟩ ?_
      · rintro ⟨e, ⟨-, rfl⟩, hdeals, hdefault, hcancel, t, ht, hsrc⟩
        exact hstays.transfers hdeals hdefault hcancel t ht hsrc
      · exact fun investor offer pos hop => hstays.short investor offer pos hop.2
    · refine iff_of_false (fun hholds => ?_) fun hshort => ?_
      · have hclosed := (hholds.pool p _ hsettle.found hsettle.pool).2
        rw [hsettle.unclosed] at hclosed
        cases hclosed
      · have hlt := hshort investor offer pos ⟨hs, he⟩ hsettle.pending hsettle.holds
        exact absurd hsettle.whole (not_le.mpr hlt)
  · exact iff_of_true (undisturbed_of_idle (fun _ => id) (by rw [h]) (by rw [h]))
      fun _ _ _ hop => hop.elim
  · exact iff_of_true (undisturbed_of_idle (fun _ hop => hn hop.1) (by rw [h]) (by rw [h]))
      fun _ _ _ hop => absurd hop.1 hn

end Steps

/-! ## Runs -/

/-- **The freeze of an invoice** holds in every step of a run exactly when no early settlement of
the invoice is completed while it is frozen. -/
theorem freeze_iff (d : Deployment) (now : ℕ) (tokens : Tokens) (as : List Action) (i : ℕ) :
    Along (step d) (FreezeHolds d i) (genesis now tokens) as ↔
      Along (step d) (NoFrozenSettlement d i) (genesis now tokens) as := by
  rw [along_iff_forall, along_iff_forall]
  exact forall₃_congr fun p a _ => freeze_step d i _ a

/-- Invoice `1` is funded by investor `3`, who holds the whole pool, and then frozen; the SME offers
an early settlement all the same. -/
def sampleFrozen : List Action := sampleFunding "USDC" ++ [
  signed 1 (.pool (.recordPosition 1 1 3 100 100)),
  signed 1 (.invoiceNft (.freezeInvoice 1 1)),
  signed 2 (.pool (.proposeEarlySettlement 2 1 9_500))]

/-- Investor `3` accepts the early settlement of invoice `1`. -/
def acceptingFrozen : Action := signed 3 (.pool (.acceptEarlySettlement 3 1))

/-- The pool of a frozen invoice is closed. -/
theorem freeze_broken : ¬ ∀ (d : Deployment) (now : ℕ) (tokens : Tokens) (as : List Action)
    (i : ℕ), Along (step d) (FreezeHolds d i) (genesis now tokens) as := by
  intro h
  have hopen : ((run (step sample) (genesis 0 sampleTokens) sampleFrozen).pool.pool 1).map
      Pool.isClosed = some false := by decide +kernel
  have hclosed : ((step sample (run (step sample) (genesis 0 sampleTokens) sampleFrozen)
      acceptingFrozen).pool.pool 1).map Pool.isClosed = some true := by decide +kernel
  obtain ⟨p, hp, hbefore⟩ := Option.map_eq_some_iff.mp hopen
  obtain ⟨p', hp', hafter⟩ := Option.map_eq_some_iff.mp hclosed
  have hholds := along_iff_forall.mp (h sample 0 sampleTokens (sampleFrozen ++ [acceptingFrozen]) 1)
    sampleFrozen acceptingFrozen (List.prefix_refl _) (by decide +kernel)
  have hsame := (hholds.pool p p' hp hp').2
  rw [hbefore, hafter] at hsame
  cases hsame

end Kora
