import Kora.FinancingPool.Title
import Kora.InvoiceNft.Switches
import Kora.Marketplace.Phases
import Kora.System.Books

set_option autoImplicit false

/-!
# Isolation

A deal is all that the invoice contract, the marketplace and the pool store under the number of one
invoice. A call at an entry point that takes another number, or none, leaves the deal alone.

* `SameDeal`: two ledgers agree on a deal, with `SameDeal.trans`;
* `Entry.concerns`: the invoice that an entry point names;
* **`sameDeal_step`**: what does not name an invoice leaves its deal alone;
* **`deals_isolated`**: the same for a whole run.
-/

namespace Kora

open Exec Run InvoiceNft

/-! ## Statement -/

/-- The deal on invoice `i` is the same. -/
structure SameDeal (i : ℕ) (w w' : World) : Prop where
  invoice : w'.invoiceNft.current i = w.invoiceNft.current i
  frozen : w'.invoiceNft.invoiceFrozen i = w.invoiceNft.invoiceFrozen i
  docket : w'.marketplace.docket i = w.marketplace.docket i
  contribution : w'.marketplace.contribution i = w.marketplace.contribution i
  refundClaimed : w'.marketplace.refundClaimed i = w.marketplace.refundClaimed i
  pool : w'.pool.pool i = w.pool.pool i
  positions : w'.pool.positions i = w.pool.positions i
  offers : w'.pool.earlySettlement i = w.pool.earlySettlement i
  sales : w'.pool.saleOffer i = w.pool.saleOffer i

/-- The invoice that an entry point of the invoice contract names. -/
def InvoiceNft.Op.concerns : InvoiceNft.Op → Option ℕ
  | .amendInvoice _ i _ _ _ _ _ | .withdrawInvoice _ i | .commitMetadataHash _ i _
  | .setListed _ i | .setFunded _ i | .setRepaid _ i | .setDefaulted _ i | .freezeInvoice _ i
  | .unfreezeInvoice _ i => some i
  | _ => none

/-- The invoice that an entry point of the marketplace names. -/
def Marketplace.Op.concerns : Marketplace.Op → Option ℕ
  | .listInvoice _ i _ _ _ _ _ | .fundInvoice _ i _ | .cancelListing _ i
  | .requestCancellation _ i | .adminConfirmCancellation _ i | .claimRefund _ i => some i
  | _ => none

/-- The invoice that an entry point of the pool names. -/
def FinancingPool.Op.concerns : FinancingPool.Op → Option ℕ
  | .initializeContract .. | .setMaxPositionBps .. => none
  | .releaseFunds _ i _ | .recordPosition _ i _ _ _ | .listPositionForSale _ i _ _
  | .buyPosition _ i _ | .repay _ i _ _ | .markDefault _ i _ | .proposeEarlySettlement _ i _
  | .acceptEarlySettlement _ i | .cancelEarlySettlement _ i => some i

/-- The invoice that an entry point names. -/
def Entry.concerns : Entry → Option ℕ
  | .invoiceNft op => op.concerns
  | .marketplace op => op.concerns
  | .pool op => op.concerns
  | _ => none

/-- The step performs nothing on invoice `i`. -/
def Elsewhere (d : Deployment) (i : ℕ) (w : World) (a : Action) : Prop :=
  ∀ p ∈ performed d w a, p.2.concerns ≠ some i

instance (d : Deployment) (i : ℕ) (w : World) (a : Action) : Decidable (Elsewhere d i w a) := by
  unfold Elsewhere
  infer_instance

/-! ## Composition -/

section Composition

variable {i : ℕ} {w w' w'' : World}

theorem SameDeal.refl (i : ℕ) (w : World) : SameDeal i w w :=
  ⟨rfl, rfl, rfl, rfl, rfl, rfl, rfl, rfl, rfl⟩

theorem SameDeal.trans (h : SameDeal i w w') (h' : SameDeal i w' w'') : SameDeal i w w'' where
  invoice := h'.invoice.trans h.invoice
  frozen := h'.frozen.trans h.frozen
  docket := h'.docket.trans h.docket
  contribution := h'.contribution.trans h.contribution
  refundClaimed := h'.refundClaimed.trans h.refundClaimed
  pool := h'.pool.trans h.pool
  positions := h'.positions.trans h.positions
  offers := h'.offers.trans h.offers
  sales := h'.sales.trans h.sales

end Composition

/-! ## Entry points -/

section Entries

variable {env : Env} {w w' : World} {u : Unit} {e : Entry} {i : ℕ}

theorem InvoiceNft.Op.step_elsewhere {op : InvoiceNft.Op} {now : ℕ} {B B' : Books}
    (hstep : Books.Step now B op.event B') (hne : op.concerns ≠ some i) (hi : i < B.next) :
    B'.invoice i = B.invoice i := by
  cases op with
  | mintInvoice =>
    cases hstep
    exact Function.update_of_ne hi.ne ..
  | amendInvoice _ j | withdrawInvoice _ j | commitMetadataHash _ j | setListed _ j
  | setFunded _ j | setRepaid _ j | setDefaulted _ j =>
    have hj : i ≠ j := fun hj => hne (congrArg some hj.symm)
    cases hstep
    exact Function.update_of_ne hj ..
  | initializeContract | setRiskRegistry | migrate | setAuthorizedCallers | freezeInvoice
  | unfreezeInvoice | addAllowedCurrency | removeAllowedCurrency =>
    cases hstep
    rfl

theorem FinancingPool.Notice.elsewhere {op : FinancingPool.Op}
    (h : FinancingPool.Notice env w w' op) (hne : op.concerns ≠ some i) :
    w'.invoiceNft.current i = w.invoiceNft.current i := by
  have hput : ∀ {j inv}, op.concerns = some j →
      w'.invoiceNft.books.invoice = Function.update w.invoiceNft.books.invoice j inv →
      w'.invoiceNft.current i = w.invoiceNft.current i := by
    intro j inv hj hbooks
    have hij : i ≠ j := by
      rintro rfl
      exact hne hj
    have hi := congrFun hbooks i
    rwa [Function.update_of_ne hij] at hi
  cases h with
  | silent _ hnft => rw [hnft]
  | funded marketplace j token inv _ _ _ _ hnft =>
    exact hput rfl (by rw [hnft, Storage.books_asFunded]; rfl)
  | repaid _ j inv hrepays _ _ hnft =>
    refine hput (j := j) ?_ (by rw [hnft, Storage.books_asRepaid]; rfl)
    cases op <;> first | exact congrArg some hrepays | exact hrepays.elim
  | defaulted admin j token inv _ _ _ hnft =>
    exact hput rfl (by rw [hnft, Storage.books_asDefaulted]; rfl)

theorem Entry.exec_elsewhere (hb : BooksSound w) (h : e.exec env w = .ok () w')
    (hne : e.concerns ≠ some i) (hi : i < w.books.next) :
    w'.invoiceNft.current i = w.invoiceNft.current i := by
  cases Entry.exec_effect h with
  | peripheral _ _ _ _ hnft => rw [hnft]
  | invoiceNft op s hs hw =>
    obtain ⟨hstep, -⟩ := InvoiceNft.Op.exec_books (by exact hb.wellFormed)
      (by exact hb.unnumbered) hs
    rw [hw]
    exact InvoiceNft.Op.step_elsewhere hstep hne hi
  | pool op hop => exact (FinancingPool.Op.exec_outside hop).notice.elsewhere hne
  | listing _ j _ _ _ _ _ _ inv _ _ _ _ _ _ _ _ hw =>
    have hij : i ≠ j := fun hj => hne (congrArg some hj.symm)
    rw [hw]
    exact (congrFun (congrArg Books.invoice Storage.books_asListed) i).trans
      (Function.update_of_ne hij ..)
  | funding investor j amount l config inv fee hF =>
    have hij : i ≠ j := fun hj => hne (congrArg some hj.symm)
    rcases lt_or_ge (l.fundedAmount + amount) l.askingPrice with hlt | hge
    · rw [(hF.unreleased hlt).2]
    · obtain ⟨-, -, -, -, -, _, -, hnft⟩ := hF.released hge
      rw [hnft]
      exact (congrFun (congrArg Books.invoice Storage.books_asFunded) i).trans
        (Function.update_of_ne hij ..)
  | market op _ _ _ hnft => rw [hnft]

theorem Marketplace.Docket.Moves.elsewhere {b b' : Marketplace.Docket}
    (h : Marketplace.Docket.Moves env w i b e b') (hne : e.concerns ≠ some i) : b' = b := by
  cases h with
  | kept => rfl
  | listed | funded | cancelled | withdrawn | requested | confirmed => exact absurd rfl hne

theorem Marketplace.Change.elsewhere (h : Marketplace.Change env i w w' e)
    (hne : e.concerns ≠ some i) : w'.marketplace.contribution i = w.marketplace.contribution i ∧
      w'.marketplace.refundClaimed i = w.marketplace.refundClaimed i := by
  cases h with
  | frame _ _ hsame => exact ⟨hsame.contribution, hsame.refundClaimed⟩
  | deactivated _ _ _ _ hd => exact ⟨hd.contribution, hd.refundClaimed⟩
  | listed | funded | refunded => exact absurd rfl hne

theorem FinancingPool.Change.elsewhere (h : FinancingPool.Change env i w w' e)
    (hne : e.concerns ≠ some i) : FinancingPool.SamePool i w w' := by
  cases h with
  | frame _ _ hsame => exact hsame
  | opened _ _ _ _ _ _ hby =>
    cases hby with
    | release | funding => exact absurd rfl hne
  | recorded | sold | repaid | defaulted | proposed | accepted | settled | cancelled =>
    exact absurd rfl hne

theorem OfferChange.elsewhere {seller : Address} (h : OfferChange env i seller w w' e)
    (hne : e.concerns ≠ some i) : w'.pool.saleOffer i seller = w.pool.saleOffer i seller := by
  cases h with
  | kept _ _ hkept => exact hkept
  | listed | used => exact absurd rfl hne

end Entries

/-! ## Runs -/

section Runs

variable {d : Deployment} {w : World} {i : ℕ} {a : Action}

theorem frozen_elsewhere (hne : Elsewhere d i w a) :
    (step d w a).invoiceNft.invoiceFrozen i = w.invoiceNft.invoiceFrozen i := by
  rw [frozen_step, switchedBy]
  cases hp : performed d w a with
  | none => rfl
  | some p =>
    obtain ⟨env, e⟩ := p
    have he := hne (env, e) hp
    cases e with
    | invoiceNft op =>
      have hnone : op.freezes i = none := by
        cases op with
        | freezeInvoice admin j | unfreezeInvoice admin j =>
          exact if_neg fun hj => he (congrArg some hj)
        | _ => rfl
      simp only [hnone, Option.getD_none]
    | accessControl | priceOracle | treasury | riskRegistry | pool | marketplace | transfer => rfl

/-- **A step elsewhere leaves the deal alone.** -/
theorem sameDeal_step (hb : BooksSound w) (hi : i < w.books.next) (hne : Elsewhere d i w a) :
    SameDeal i w (step d w a) := by
  have hfrozen := frozen_elsewhere hne
  rcases step_performed d w a with ⟨env, e, hp, -, h⟩ | ⟨-, n, h⟩
  · have he : e.concerns ≠ some i := hne (env, e) hp
    have heffect := Entry.exec_effect h
    have hbooks := (Marketplace.change_of_effect heffect i).elsewhere he
    have hpool := (FinancingPool.change_of_effect heffect i).elsewhere he
    exact {
      invoice := Entry.exec_elsewhere hb h he hi
      frozen := hfrozen
      docket := (Marketplace.moves_of_exec h i).elsewhere he
      contribution := hbooks.1
      refundClaimed := hbooks.2
      pool := hpool.pool
      positions := hpool.positions
      offers := hpool.offers
      sales := funext fun seller => (Entry.exec_offer h i seller).elsewhere he }
  · rw [h]
    exact { SameDeal.refl i w with }

/-- **Deals are isolated.** In every run, the deal on an invoice that is minted already stays as it
is as long as no successful transaction names this invoice. -/
theorem deals_isolated (d : Deployment) (now : ℕ) (tokens : Tokens) (as bs : List Action) (i : ℕ)
    (hi : i < (run (step d) (genesis now tokens) as).books.next)
    (hne : Along (step d) (Elsewhere d i) (run (step d) (genesis now tokens) as) bs) :
    SameDeal i (run (step d) (genesis now tokens) as)
      (run (step d) (genesis now tokens) (as ++ bs)) := by
  rw [run_append]
  have hb := booksSound_run d now tokens as
  generalize run (step d) (genesis now tokens) as = w at hi hne hb ⊢
  refine (invariant (I := fun w' : World => BooksSound w' ∧ i < w'.books.next ∧ SameDeal i w w') ?_
    ⟨hb, hi, .refl i w⟩ hne).2.2
  rintro w' a ⟨hb', hi', hsame⟩ ha
  obtain ⟨ev, hstep, -⟩ := books_step (d := d) hb' a
  exact ⟨booksSound_step d hb' a, hi'.trans_le hstep.next_le,
    hsame.trans (sameDeal_step hb' hi' ha)⟩

end Runs

/-- A second invoice is minted, and its SME tries to withdraw the first one, which is funded. -/
def sampleElsewhere : List Action := [
  signed 2 (.invoiceNft (.mintInvoice 2 [2] 5_000 "USDC" 1_000 "cid2" 30 none)),
  signed 2 (.invoiceNft (.withdrawInvoice 2 1)),
  signed 2 (.invoiceNft (.withdrawInvoice 2 2))]

theorem deals_isolated_sample : SameDeal 1 (run (step sample) sampleGenesis (sampleFunding "USDC"))
    (run (step sample) sampleGenesis (sampleFunding "USDC" ++ sampleElsewhere)) :=
  deals_isolated sample 0 sampleTokens (sampleFunding "USDC") sampleElsewhere 1
    (by decide +kernel) (by decide +kernel)

end Kora
