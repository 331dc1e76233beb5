import Kora.System.Books
import Kora.System.Custody
import Kora.System.Settlement

set_option autoImplicit false

/-!
# A paused protocol stands still

While the protocol is paused no invoice is minted, edited, listed, funded or repaid, nothing is
contributed to a listing, no pool opens or closes, and no position or offer is made. Partial
repayments, defaults by the admin of the invoices, and the cancellation of listings and offers go
on.

* `Standstill`: what a pause leaves, with `Standstill.trans`;
* `Entry.exec_standstill`: an entry point that succeeds while the protocol is paused;
* `Flow.src_pool`: what may leave the pool;
* **`paused_standstill`**: any stretch of a run that is paused throughout.
-/

namespace Kora

open Exec Run InvoiceNft

/-! ## Statement -/

/-- The protocol is paused. -/
def World.Paused (w : World) : Prop := w.accessControl.paused.getD false = true

instance (w : World) : Decidable w.Paused := by unfold World.Paused; infer_instance

/-- The record is the same, up to a default. -/
inductive SameInvoice : Option Invoice → Option Invoice → Prop
  | same (r : Option Invoice) : SameInvoice r r
  | defaulted (inv : Invoice) : inv.status = .funded →
      SameInvoice (some inv) (some { inv with status := .defaulted })

/-- The listing is the same, up to its cancellation. -/
inductive SameListed : Option Listing → Option Listing → Prop
  | same (l : Option Listing) : SameListed l l
  | cancelled (l : Listing) : SameListed (some l) (some { l with isActive := false })

/-- The pool is the same, up to what is repaid and owed. -/
inductive SameFunds : Option Pool → Option Pool → Prop
  | same (p : Option Pool) : SameFunds p p
  | repaid (p : Pool) (owed repaid : ℤ) (applied : Bool) : p.repaidAmount ≤ repaid →
      SameFunds (some p)
        (some { p with totalOwed := owed, repaidAmount := repaid, penaltyApplied := applied })

/-- The offer is the same, or withdrawn. -/
inductive SameOffer : Option EarlySettlementOffer → Option EarlySettlementOffer → Prop
  | same (o : Option EarlySettlementOffer) : SameOffer o o
  | withdrawn (o : Option EarlySettlementOffer) : SameOffer o none

/-- What a pause leaves of the ledger. -/
structure Standstill (w w' : World) : Prop where
  invoices : ∀ i, SameInvoice (w.invoiceNft.current i) (w'.invoiceNft.current i)
  listings : ∀ i, SameListed (w.marketplace.listing i) (w'.marketplace.listing i)
  contributions : w'.marketplace.contribution = w.marketplace.contribution
  pools : ∀ i, SameFunds (w.pool.pool i) (w'.pool.pool i)
  positions : w'.pool.positions = w.pool.positions
  sales : w'.pool.saleOffer = w.pool.saleOffer
  offers : ∀ i, SameOffer (w.pool.earlySettlement i) (w'.pool.earlySettlement i)

/-- Nothing leaves the pool but the escrow of an offer that its SME withdraws, in tokens that ask
for authorisation. -/
def HoldsFunds (d : Deployment) (w : World) (a : Action) : Prop :=
  ∀ t ∈ newTransfers w (step d w a), w.tokens.asksAuth t.token = true →
    t.src = d.financingPool →
    ∃ env sme i offer, performed d w a = some (env, .pool (.cancelEarlySettlement sme i)) ∧
      w.pool.earlySettlement i = some offer ∧ t.dst = sme ∧ t.amount = offer.amount

/-! ## Composition -/

section Composition

variable {w w' w'' : World}

theorem SameInvoice.trans {r s t : Option Invoice} (h : SameInvoice r s) (h' : SameInvoice s t) :
    SameInvoice r t := by
  cases h with
  | same => exact h'
  | defaulted inv hst =>
    cases h' with
    | same => exact .defaulted inv hst
    | defaulted _ hst' => cases hst'

theorem SameListed.trans {r s t : Option Listing} (h : SameListed r s) (h' : SameListed s t) :
    SameListed r t := by
  cases h with
  | same => exact h'
  | cancelled l =>
    cases h' with
    | same => exact .cancelled l
    | cancelled => exact .cancelled l

theorem SameFunds.trans {r s t : Option Pool} (h : SameFunds r s) (h' : SameFunds s t) :
    SameFunds r t := by
  cases h with
  | same => exact h'
  | repaid p owed x applied hle =>
    cases h' with
    | same => exact .repaid p owed x applied hle
    | repaid _ owed' y applied' hle' => exact .repaid p owed' y applied' (hle.trans hle')

theorem SameOffer.trans {r s t : Option EarlySettlementOffer} (h : SameOffer r s)
    (h' : SameOffer s t) : SameOffer r t := by
  cases h' with
  | same => exact h
  | withdrawn => exact .withdrawn r

theorem Standstill.refl (w : World) : Standstill w w :=
  ⟨fun _ => .same _, fun _ => .same _, rfl, fun _ => .same _, rfl, rfl, fun _ => .same _⟩

theorem Standstill.trans (h : Standstill w w') (h' : Standstill w' w'') : Standstill w w'' where
  invoices i := (h.invoices i).trans (h'.invoices i)
  listings i := (h.listings i).trans (h'.listings i)
  contributions := h'.contributions.trans h.contributions
  pools i := (h.pools i).trans (h'.pools i)
  positions := h'.positions.trans h.positions
  sales := h'.sales.trans h.sales
  offers i := (h.offers i).trans (h'.offers i)

theorem Standstill.of_eq (hnft : w'.invoiceNft = w.invoiceNft)
    (hmarket : w'.marketplace = w.marketplace) (hpool : w'.pool = w.pool) : Standstill w w' where
  invoices i := by rw [hnft]; exact .same _
  listings i := by rw [hmarket]; exact .same _
  contributions := by rw [hmarket]
  pools i := by rw [hpool]; exact .same _
  positions := by rw [hpool]
  sales := by rw [hpool]
  offers i := by rw [hpool]; exact .same _

end Composition

/-! ## Entry points -/

section Entries

variable {env : Env} {w w' : World} {u : Unit} {e : Entry}

theorem InvoiceNft.Op.edits_unpaused {op : InvoiceNft.Op} {s t : InvoiceNft.State}
    (h : op.exec env s = .ok u t) (hkeep : op.event ≠ .keep)
    (hdefault : ∀ id, op.event ≠ .default id) : s.accessControl.paused.getD false = false := by
  cases op with
  | mintInvoice | setListed | setFunded => exact InvoiceNft.Op.unpaused (by exact trivial) h
  | setRepaid caller id => exact (setRepaid_iff.mp h).2.2.2.1
  | setDefaulted caller id => exact absurd rfl (hdefault id)
  | amendInvoice => exact (amendInvoice_ok h).1.unpaused
  | withdrawInvoice => exact (withdrawInvoice_ok h).1.unpaused
  | commitMetadataHash => exact (commitMetadataHash_ok h).1.unpaused
  | initializeContract | setRiskRegistry | migrate | setAuthorizedCallers | freezeInvoice
  | unfreezeInvoice | addAllowedCurrency | removeAllowedCurrency => exact absurd rfl hkeep

theorem InvoiceNft.Op.exec_standstill {op : InvoiceNft.Op} {s t : InvoiceNft.State}
    (hS : s.own.WellFormed) (hN : s.own.Unnumbered)
    (hp : s.accessControl.paused.getD false = true) (h : op.exec env s = .ok u t) (i : ℕ) :
    SameInvoice (s.own.current i) (t.own.current i) := by
  obtain ⟨hstep, -⟩ := InvoiceNft.Op.exec_books hS hN h
  have hevent : op.event = .keep ∨ ∃ id, op.event = .default id := by
    by_contra hother
    rw [not_or, not_exists] at hother
    rw [InvoiceNft.Op.edits_unpaused h hother.1 hother.2] at hp
    cases hp
  change SameInvoice (s.own.books.invoice i) (t.own.books.invoice i)
  rcases hevent with hkeep | ⟨id, hdefault⟩
  · rw [hkeep] at hstep
    generalize t.own.books = B' at hstep ⊢
    cases hstep with
    | keep => exact .same _
  · rw [hdefault] at hstep
    generalize t.own.books = B' at hstep ⊢
    cases hstep with
    | default _ inv hinv hst hdue =>
      by_cases hi : i = id
      · subst hi
        simp only [Books.release, Books.put, Function.update_self, hinv]
        exact .defaulted inv hst
      · simp only [Books.release, Books.put, Function.update_of_ne hi]
        exact .same _

/-- The entry points of the pool that a pause blocks. -/
def FinancingPool.Op.Deals : FinancingPool.Op → Prop
  | .initializeContract .. | .setMaxPositionBps .. | .repay .. | .cancelEarlySettlement .. => False
  | _ => True

theorem FinancingPool.Op.Deals.unpaused {op : FinancingPool.Op} (hop : op.Deals)
    (h : op.exec env w = .ok () w') : w.accessControl.paused.getD false = false := by
  cases op with
  | releaseFunds | recordPosition | markDefault =>
    exact FinancingPool.Op.unpaused (by exact trivial) h
  | listPositionForSale =>
    simp only [FinancingPool.Op.exec, FinancingPool.listPositionForSale, requireAuth_seq_ok,
      FinancingPool.requireNotPaused_seq_ok] at h
    exact h.2.2.1
  | buyPosition =>
    simp only [FinancingPool.Op.exec, FinancingPool.buyPosition, requireAuth_seq_ok,
      FinancingPool.requireNotPaused_seq_ok] at h
    exact h.2.2.1
  | proposeEarlySettlement =>
    simp only [FinancingPool.Op.exec, FinancingPool.proposeEarlySettlement, requireAuth_seq_ok,
      FinancingPool.requireNotPaused_seq_ok] at h
    exact h.2.2.1
  | acceptEarlySettlement =>
    simp only [FinancingPool.Op.exec, FinancingPool.acceptEarlySettlement, requireAuth_seq_ok,
      FinancingPool.requireNotPaused_seq_ok] at h
    exact h.2.2.1
  | initializeContract | setMaxPositionBps | repay | cancelEarlySettlement => exact hop.elim

/-- The repayment that closes a pool has the invoice repaid, which a pause blocks. -/
theorem FinancingPool.repay_unpaused {payer token : Address} {i : ℕ} {amount : ℤ} {p : Pool}
    (h : FinancingPool.repay payer i token amount env w = .ok () w')
    (hp : w'.pool.pool i = some p) (hclosed : p.isClosed = true) :
    w.accessControl.paused.getD false = false := by
  obtain ⟨-, ⟨hpos, -⟩, -, -, -, q, inv, r, owed, applied, -, -, -, -, -, -, w₁, htransfer, h⟩ :=
    FinancingPool.repay_iff.mp h
  obtain ⟨-, -, -, -, rfl⟩ := callToken_transfer_ok.mp htransfer
  rw [ite_run] at h
  split_ifs at h with hclose
  · simp only [bind_ok (x := FinancingPool.distributeYield _ _ _ _),
      bind_ok (x := FinancingPool.callInvoiceNft _), FinancingPool.callInvoiceNft_ok] at h
    obtain ⟨_, _, hd, _, _, ⟨-, s, hs, -⟩, -⟩ := h
    obtain ⟨d, payments, -, rfl⟩ := FinancingPool.distributeYield_ok hd
    exact (setRepaid_iff.mp hs).2.2.2.1
  · simp only [FinancingPool.setRepaymentLock, FinancingPool.modifyOwn, modify_ok] at h
    obtain rfl := h
    obtain rfl : FinancingPool.repaidPool q owed applied r = p :=
      Option.some.inj ((FinancingPool.credited_pool w i _).symm.trans hp)
    exact absurd (of_decide_eq_true hclosed) hclose

theorem FinancingPool.Op.exec_standstill {op : FinancingPool.Op} (hp : w.Paused)
    (h : op.exec env w = .ok () w') (hmarket : w'.marketplace = w.marketplace) :
    Standstill w w' := by
  by_cases hop : op.Deals
  · rw [World.Paused, hop.unpaused h] at hp
    cases hp
  · cases op with
    | initializeContract =>
      obtain ⟨-, rfl⟩ := FinancingPool.initializeContract_ok h
      exact { Standstill.refl w with }
    | setMaxPositionBps =>
      obtain rfl := FinancingPool.setMaxPositionBps_ok h
      exact { Standstill.refl w with }
    | repay payer i token amount =>
      obtain ⟨-, -, p, inv, owed, applied, hfound, hopen, -, hcredit, -, hpaid⟩ :=
        FinancingPool.repay_ok h
      rcases hpaid with ⟨hlt, locks, rfl⟩ | ⟨hle, -, _, _, _, -, rfl⟩
      · refine { Standstill.refl w with pools := fun j => ?_ }
        by_cases hj : j = i
        · subst hj
          simp only [Function.update_self, hfound]
          have hpartly : FinancingPool.repaidPool p owed applied
              (FinancingPool.credit w amount inv.currency) = { p with
                totalOwed := owed
                repaidAmount := p.repaidAmount + FinancingPool.credit w amount inv.currency
                penaltyApplied := applied } := by
            simp [FinancingPool.repaidPool, hopen, hlt]
          rw [hpartly]
          exact .repaid p _ _ _ (by omega)
        · simp only [Function.update_of_ne hj]
          exact .same _
      · rw [World.Paused, FinancingPool.repay_unpaused h (Function.update_self ..)
          (decide_eq_true hle)] at hp
        cases hp
    | cancelEarlySettlement sme i =>
      obtain ⟨-, offer, p, hoffer, hfound, rfl⟩ := FinancingPool.cancelEarlySettlement_ok h
      refine { Standstill.refl w with offers := fun j => ?_ }
      by_cases hj : j = i
      · subst hj
        simp only [Function.update_self]
        exact .withdrawn _
      · simp only [Function.update_of_ne hj]
        exact .same _
    | releaseFunds | recordPosition | markDefault | listPositionForSale | buyPosition
    | proposeEarlySettlement | acceptEarlySettlement => exact absurd trivial hop

theorem Marketplace.Op.exec_standstill {op : Marketplace.Op} (hplain : op.Plain)
    (h : op.exec env w = .ok u w') (hnft : w'.invoiceNft = w.invoiceNft)
    (hpool : w'.pool = w.pool) : Standstill w w' := by
  have hframe : Standstill w { w' with marketplace := w.marketplace } :=
    Standstill.of_eq hnft rfl hpool
  have hchange : ∀ i, SameListed (w.marketplace.listing i) (w'.marketplace.listing i) ∧
      w'.marketplace.contribution i = w.marketplace.contribution i := by
    intro i
    generalize he : Entry.marketplace op = e
    have hi := he ▸ Marketplace.Op.exec_change hplain h i
    cases hi with
    | frame _ _ hsame =>
      rw [hsame.listing]
      exact ⟨.same _, hsame.contribution⟩
    | listed | funded =>
      cases he
      exact hplain.elim
    | deactivated _ l confirms _ hd =>
      rw [hd.listing, hd.found]
      exact ⟨.cancelled l, hd.contribution⟩
    | refunded investor l config net hr =>
      rw [hr.listing]
      exact ⟨.same _, hr.contribution⟩
  exact { hframe with
    listings := fun i => (hchange i).1
    contributions := funext fun i => (hchange i).2 }

/-- **A paused protocol lets no call deal.** -/
theorem Entry.exec_standstill (hw : w.marketplace.Gated) (hb : BooksSound w) (hp : w.Paused)
    (h : e.exec env w = .ok () w') : Standstill w w' := by
  have hblocked : ¬ e.Blocked := by
    intro he
    rw [World.Paused, he.unpaused hw h] at hp
    cases hp
  cases Entry.exec_effect h with
  | peripheral _ _ _ hpool hnft hmarket => exact .of_eq hnft hmarket hpool
  | invoiceNft op s hs hw' =>
    subst hw'
    refine { Standstill.refl w with invoices := fun i => ?_ }
    exact InvoiceNft.Op.exec_standstill (by exact hb.wellFormed) (by exact hb.unnumbered)
      (by exact hp) hs i
  | pool op hop hmarket => exact FinancingPool.Op.exec_standstill hp hop hmarket
  | listing | funding => exact absurd trivial hblocked
  | market op hplain hop hpool hnft => exact Marketplace.Op.exec_standstill hplain hop hnft hpool

end Entries

/-! ## Stretches of a run -/

section Runs

variable {d : Deployment} {w : World} {c : Call} {e : Entry} {t : Transfer} {a : Action}

theorem FinancingPool.repay_incoming {env : Env} {w' : World} {payer token : Address} {i : ℕ}
    {amount : ℤ} (hp : w.Paused)
    (h : FinancingPool.repay payer i token amount env w = .ok () w') (t : Transfer)
    (ht : t ∈ newTransfers w w') : env.Authenticates t.src := by
  obtain ⟨hpayer, -, p, inv, owed, applied, -, -, -, -, -, hpaid⟩ := FinancingPool.repay_ok h
  rcases hpaid with ⟨-, locks, rfl⟩ | ⟨hle, -, _, _, _, -, rfl⟩
  · rw [newTransfers_of_move rfl, List.mem_singleton] at ht
    rwa [ht]
  · rw [World.Paused, FinancingPool.repay_unpaused h (Function.update_self ..)
      (decide_eq_true hle)] at hp
    cases hp

theorem Deployment.financingPool_ne (d : Deployment) : d.marketplace ≠ d.financingPool ∧
    d.treasury ≠ d.financingPool ∧ d.riskRegistry ≠ d.financingPool := by
  have h := d.distinct
  simp only [List.nodup_cons, List.mem_cons, not_or, List.not_mem_nil] at h
  exact ⟨h.2.2.1.1, Ne.symm h.2.2.2.1.1, Ne.symm h.2.2.2.1.2.1⟩

theorem Flow.src_pool (h : Flow (c.env d w) w e t) (hasks : w.tokens.asksAuth t.token = true)
    (hsrc : t.src = d.financingPool) :
    (∃ op i, e = .pool op ∧ FinancingPool.StartsDistribution (c.env d w) w i op) ∨
      ∃ sme i offer, e = .pool (.cancelEarlySettlement sme i) ∧
        w.pool.earlySettlement i = some offer ∧ t.dst = sme ∧ t.amount = offer.amount := by
  obtain ⟨hmarket, htreasury, hregistry⟩ := d.financingPool_ne
  cases h.payout hasks (by rw [hsrc]; simp [Deployment.contracts]) with
  | distribution op i _ hop => exact Or.inl ⟨op, i, rfl, hop⟩
  | escrowBack sme i offer _ hoffer hdst hamount =>
    exact Or.inr ⟨sme, i, offer, rfl, hoffer, hdst, hamount⟩
  | refund _ _ hpays => exact absurd (hpays.symm.trans hsrc) hmarket
  | treasury _ hpays => exact absurd (hpays.symm.trans hsrc) htreasury
  | stakeBack _ _ hpays => exact absurd (hpays.symm.trans hsrc) hregistry

theorem FinancingPool.StartsDistribution.deals {env : Env} {i : ℕ} {op : FinancingPool.Op}
    (h : StartsDistribution env w i op) :
    (∃ payer token amount, op = .repay payer i token amount) ∨ op.Deals := by
  cases h with
  | repay payer token amount => exact Or.inl ⟨payer, token, amount, rfl⟩
  | markDefault | acceptEarlySettlement => exact Or.inr trivial

theorem holdsFunds_step (hp : w.Paused) (a : Action) : HoldsFunds d w a := by
  intro t ht hasks hsrc
  rcases step_cases d w a with ⟨c, rfl, hs, h⟩ | ⟨n, rfl, h⟩ | ⟨c, rfl, -, h⟩
  · rw [performed_of_succeeds hs]
    have hflow := (Entry.exec_flow h).forall_new t ht
    rcases hflow.2.src_pool hasks hsrc with ⟨op, i, he, hop⟩ | ⟨sme, i, offer, he, hoffer⟩
    · rw [he] at h
      rcases hop.deals with ⟨payer, token, amount, rfl⟩ | hdeals
      · have hcontract : t.src ∈ d.contracts := by
          rw [hsrc]
          simp [Deployment.contracts]
        have hauth := FinancingPool.repay_incoming hp h t ht
        exact absurd hauth (Call.not_authenticates hcontract)
      · rw [World.Paused, hdeals.unpaused h] at hp
        cases hp
    · exact ⟨_, sme, i, offer, by rw [he], hoffer⟩
  · rw [newTransfers_of_same (by rw [h])] at ht
    cases ht
  · rw [newTransfers_of_same (by rw [h])] at ht
    cases ht

/-- What every ledger of a run keeps. -/
structure Runnable (w : World) : Prop where
  gated : w.marketplace.Gated
  books : BooksSound w

theorem runnable_step (hw : Runnable w) (a : Action) : Runnable (step d w a) :=
  ⟨gated_step d w a hw.gated, booksSound_step d hw.books a⟩

theorem standstill_step (hw : Runnable w) (hp : w.Paused) (a : Action) :
    Standstill w (step d w a) := by
  rcases step_cases d w a with ⟨c, rfl, -, h⟩ | ⟨n, rfl, h⟩ | ⟨c, rfl, -, h⟩
  · exact Entry.exec_standstill hw.gated hw.books hp h
  · rw [h]
    exact { Standstill.refl w with }
  · rw [h]
    exact .refl w

theorem standstill_run (hw : Runnable w) {as : List Action}
    (hp : Along (step d) (fun w _ => w.Paused) w as) : Standstill w (run (step d) w as) := by
  induction as generalizing w with
  | nil => exact .refl w
  | cons a as ih => exact (standstill_step hw hp.1 a).trans (ih (runnable_step hw a) hp.2)

/-- **A paused protocol stands still.** Whatever is done in a stretch of a run that is paused
throughout, the ledger is at its end what it was, up to `Standstill`, and the pool keeps its money
but for the escrow of withdrawn offers. -/
theorem paused_standstill (d : Deployment) (now : ℕ) (tokens : Tokens) (as bs : List Action)
    (hp : Along (step d) (fun w _ => w.Paused) (run (step d) (genesis now tokens) as) bs) :
    Standstill (run (step d) (genesis now tokens) as) (run (step d) (genesis now tokens) (as ++ bs))
      ∧ Along (step d) (HoldsFunds d) (run (step d) (genesis now tokens) as) bs := by
  have hw : Runnable (run (step d) (genesis now tokens) as) :=
    ⟨gated_run d now tokens as, booksSound_run d now tokens as⟩
  refine ⟨?_, along_iff_forall.mpr fun p a hpa => ?_⟩
  · rw [run_append]
    exact standstill_run hw hp
  · exact holdsFunds_step (along_iff_forall.mp hp p a hpa) a

end Runs

/-- The SME offers an early settlement, and the admin pauses the protocol. -/
def samplePaused : List Action := sampleFunding "USDC" ++ [
  signed 2 (.pool (.proposeEarlySettlement 2 1 9_500)),
  signed 1 (.accessControl (.pause 1))]

/-- The SME repays a part and withdraws its offer, and an investor contributes in vain. -/
def sampleStretch : List Action := [
  signed 2 (.pool (.repay 2 1 50 100)),
  signed 3 (.marketplace (.fundInvoice 3 1 1)),
  signed 2 (.pool (.cancelEarlySettlement 2 1))]

theorem paused_standstill_sample :
    Standstill (run (step sample) sampleGenesis samplePaused)
        (run (step sample) sampleGenesis (samplePaused ++ sampleStretch)) ∧
      Along (step sample) (HoldsFunds sample) (run (step sample) sampleGenesis samplePaused)
        sampleStretch :=
  paused_standstill sample 0 sampleTokens samplePaused sampleStretch (by decide +kernel)

end Kora
