import Kora.FinancingPool.Flow
import Kora.FinancingPool.Shares
import Kora.System.Status

set_option autoImplicit false

/-!
# Solvency of one invoice

The pool contract keeps the money of all invoices in one balance. What it pays out for an invoice
stays within what it received for that invoice in the same token as long as repayments of a funded
invoice name the pool's token and are credited with at most the amount transferred, and every
distribution is made in the pool's token over shares that do not exceed the whole.

* `Solvent`: the invariant: the money left covers the credited repayments and the escrow;
* `solvent_change`: one transaction;
* **`solvent_of_covered`**: every run.
-/

namespace Kora.FinancingPool

open Exec Run

/-! ## Statement -/

/-- The invoice an entry point brings money for. -/
def receivingInvoice : Entry → Option ℕ
  | .pool (.repay _ i _ _) => some i
  | .pool (.proposeEarlySettlement _ i _) => some i
  | _ => none

/-- The invoice an entry point pays money for. -/
def payingInvoice : Entry → Option ℕ
  | .pool (.repay _ i _ _) => some i
  | .pool (.markDefault _ i _) => some i
  | .pool (.acceptEarlySettlement _ i) => some i
  | .pool (.cancelEarlySettlement _ i) => some i
  | _ => none

/-- What the pool contract receives for invoice `i`: repayments and escrow. -/
def received : Deployment → ℕ → World → Action → Address → ℤ := flowOf receivingInvoice inflow

/-- What the pool contract pays for invoice `i`: distributions and escrow paid back. -/
def paid : Deployment → ℕ → World → Action → Address → ℤ := flowOf payingInvoice outflow

/-- The money a transaction credits or distributes for an invoice is there for it. A repayment of a
funded invoice names the pool's token and is credited with at most what it transfers; when it
reaches what is owed, when an acceptance settles and when a default distributes what was repaid,
the shares do not exceed the whole; and a default distributes the pool's token. -/
def CoversPayouts (w : World) : Entry → Prop
  | .pool (.repay _ i token amount) =>
    ∀ pool ∈ w.pool.pool i, ∀ inv ∈ w.invoiceNft.current i, inv.status = .funded →
      token = pool.token ∧ credit w amount inv.currency ≤ amount ∧
      ∀ p ∈ (applyLatePenalty w.now inv.dueDate pool).toOption,
        p.totalOwed ≤ pool.repaidAmount + credit w amount inv.currency →
          shareSum (w.pool.positions i) ≤ 10_000
  | .pool (.acceptEarlySettlement investor i) =>
    ∀ offer ∈ w.pool.earlySettlement i, ∀ pos ∈ (w.pool.positions i)[investor]?,
      10_000 ≤ offer.acceptedBps + pos.shareBps → shareSum (w.pool.positions i) ≤ 10_000
  | .pool (.markDefault _ i token) =>
    ∀ pool ∈ w.pool.pool i, 0 < pool.repaidAmount →
      token = pool.token ∧ shareSum (w.pool.positions i) ≤ 10_000
  | _ => True

instance (w : World) (e : Entry) : Decidable (CoversPayouts w e) := by
  unfold CoversPayouts
  split <;> infer_instance

/-- A successful transaction covers its payouts. -/
def Covered (d : Deployment) (w : World) : Action → Prop
  | .call c => c.Succeeds d w → CoversPayouts w c.entry
  | .tick _ => True

instance (d : Deployment) (w : World) (a : Action) : Decidable (Covered d w a) :=
  match a with
  | .call c => inferInstanceAs (Decidable (c.Succeeds d w → CoversPayouts w c.entry))
  | .tick _ => inferInstanceAs (Decidable True)

/-! ## Invariant -/

/-- The escrow of the pending offer. -/
def pending (w : World) (i : ℕ) : ℤ := (w.pool.earlySettlement i).elim 0 fun offer => offer.amount

/-- The money `r` left for invoice `i` covers the escrow, and while the pool is open and the invoice
funded also the credited repayments. -/
structure Solvent (i : ℕ) (w : World) (r : Address → ℤ) : Prop where
  wellFormed : w.invoiceNft.WellFormed
  nonneg : ∀ t, 0 ≤ r t
  unopened : w.pool.pool i = none → w.pool.earlySettlement i = none
  financed : ∀ p, w.pool.pool i = some p → InvoiceNft.Financed (w.invoiceNft.status i)
  pending : 0 ≤ pending w i
  escrow : ∀ p, w.pool.pool i = some p → FinancingPool.pending w i ≤ r p.token
  credited : ∀ p, w.pool.pool i = some p → p.isClosed = false →
    w.invoiceNft.status i = some .funded →
      0 ≤ p.repaidAmount ∧ p.repaidAmount + FinancingPool.pending w i ≤ r p.token

/-- What a step adds to the money left for invoice `i`. -/
def netFlow (d : Deployment) (i : ℕ) (w : World) (a : Action) : Address → ℤ :=
  received d i w a - paid d i w a

/-- The money of invoice `i` grows by `x` of `token`. -/
def grow (token : Address) (x : ℤ) : Address → ℤ := fun t => if token = t then x else 0

section Steps

variable {d : Deployment} {i : ℕ} {w w' : World} {c : Call} {r : Address → ℤ} {env : Env}
  {e : Entry}

@[simp] theorem grow_self (token : Address) (x : ℤ) : grow token x token = x := if_pos rfl

theorem grow_of_ne {token t : Address} (h : token ≠ t) (x : ℤ) : grow token x t = 0 := if_neg h

theorem pending_of_some {offer : EarlySettlementOffer}
    (h : w.pool.earlySettlement i = some offer) : pending w i = offer.amount := by
  rw [pending, h]
  rfl

theorem pending_of_none (h : w.pool.earlySettlement i = none) : pending w i = 0 := by
  rw [pending, h]
  rfl

theorem pending_congr (h : w'.pool.earlySettlement i = w.pool.earlySettlement i) :
    pending w' i = pending w i := by
  rw [pending, pending, h]

theorem Solvent.keep (hI : Solvent i w r) (hn : NftChange env w w' e)
    (hp : w'.pool.pool i = w.pool.pool i)
    (ho : w.pool.pool i = none → w'.pool.earlySettlement i = w.pool.earlySettlement i)
    (hpending : FinancingPool.pending w' i = FinancingPool.pending w i) : Solvent i w' r where
  wellFormed := hn.wellFormed hI.wellFormed
  nonneg := hI.nonneg
  unopened := fun h => (ho (hp ▸ h)).trans (hI.unopened (hp ▸ h))
  financed := fun p h => (hn.financed hI.wellFormed (hI.financed p (hp ▸ h))).1
  pending := by
    rw [hpending]
    exact hI.pending
  escrow := fun p h => by
    rw [hpending]
    exact hI.escrow p (hp ▸ h)
  credited := fun p h hopen hst => by
    rw [hpending]
    have h' : w.pool.pool i = some p := hp ▸ h
    exact hI.credited p h' hopen ((hn.financed hI.wellFormed (hI.financed p h')).2 hst)

theorem Solvent.open (hI : Solvent i w r) (hn : NftChange env w w' e) {token : Address} {face : ℤ}
    {bps : ℕ} (h : Opening i w w' token face bps) : Solvent i w' r where
  wellFormed := hn.wellFormed hI.wellFormed
  nonneg := hI.nonneg
  unopened := fun hnone => by
    rw [h.pool] at hnone
    cases hnone
  financed := fun _ _ => Or.inl h.funded
  pending := by
    rw [pending_congr h.offers]
    exact hI.pending
  escrow := fun p _ => by
    rw [pending_congr h.offers, pending_of_none (hI.unopened h.unopened)]
    exact hI.nonneg p.token
  credited := fun p hp _ _ => by
    rw [pending_congr h.offers, pending_of_none (hI.unopened h.unopened)]
    rw [h.pool] at hp
    cases hp
    exact ⟨le_rfl, by simpa using hI.nonneg token⟩

theorem Solvent.change (hI : Solvent i w r) (hn : NftChange env w w' e) {token : Address} {x : ℤ}
    {p p' : Pool} (hp : w.pool.pool i = some p) (hp' : w'.pool.pool i = some p')
    (htoken : p'.token = p.token) (hx : 0 ≤ r token + x) (hpending : 0 ≤ FinancingPool.pending w' i)
    (hescrow : FinancingPool.pending w' i ≤ r p.token + grow token x p.token)
    (hcredited : p'.isClosed = false → w'.invoiceNft.status i = some .funded →
      0 ≤ p'.repaidAmount ∧
        p'.repaidAmount + FinancingPool.pending w' i ≤ r p.token + grow token x p.token) :
    Solvent i w' (r + grow token x) where
  wellFormed := hn.wellFormed hI.wellFormed
  nonneg := fun t => by
    by_cases ht : token = t
    · subst ht
      rwa [Pi.add_apply, grow_self]
    · rw [Pi.add_apply, grow_of_ne ht, add_zero]
      exact hI.nonneg t
  unopened := fun hnone => by
    rw [hp'] at hnone
    cases hnone
  financed := fun _ _ => (hn.financed hI.wellFormed (hI.financed p hp)).1
  pending := hpending
  escrow := fun q hq => by
    rw [hp'] at hq
    cases hq
    rwa [htoken]
  credited := fun q hq hopen hst => by
    rw [hp'] at hq
    cases hq
    rw [htoken]
    exact hcredited hopen hst

theorem Solvent.repay (hI : Solvent i w r) (hn : NftChange env w w' e)
    (hnow : env.timestamp = w.now)
    {payer token : Address} {amount owed : ℤ} {p : Pool} {inv : Invoice} {applied : Bool}
    {payments : List (Address × ℤ)}
    (h : Repayment env i w w' payer token amount owed p inv applied payments)
    (hc : CoversPayouts w (.pool (.repay payer i token amount))) :
    Solvent i w' (r + grow token (amount - (payments.map Prod.snd).sum)) := by
  have hescrow := hI.escrow p h.found
  have hpending := hI.pending
  have hpos := h.positive
  have hnonneg := hI.nonneg token
  have hstatus := InvoiceNft.Storage.status_of_current h.invoice
  have hcover := hc p h.found inv (InvoiceNft.Storage.current_of_current h.invoice)
  rcases h.distribution with ⟨hlt, rfl, hnft⟩ | ⟨hle, hst, hnft, decimals, hpay⟩
  · -- the pool stays open: nothing is paid out
    rw [List.map_nil, List.sum_nil, sub_zero]
    have hgrow : 0 ≤ grow token amount p.token := by
      unfold grow
      split_ifs
      · exact hpos.le
      · exact le_rfl
    refine hI.change hn h.found h.pool rfl (by omega) ?_ ?_ fun _ hfunded => ?_
    · rwa [pending_congr h.offers]
    · rw [pending_congr h.offers]
      omega
    · rw [hnft, hstatus] at hfunded
      obtain ⟨rfl, hcredit, -⟩ := hcover (Option.some.inj hfunded)
      obtain ⟨hrepaid, hmoney⟩ := hI.credited p h.found h.unclosed (by rw [hstatus, hfunded])
      have hcredited := h.credited
      rw [pending_congr h.offers, grow_self]
      constructor
      · show 0 ≤ p.repaidAmount + credit w amount inv.currency
        omega
      · show p.repaidAmount + credit w amount inv.currency + _ ≤ _
        omega
  · -- the pool closes: everything repaid is distributed
    obtain ⟨rfl, hcredit, hshares⟩ := hcover hst
    obtain ⟨hrepaid, hmoney⟩ := hI.credited p h.found h.unclosed (by rw [hstatus, hst])
    have hlate := h.penalty
    rw [hnow] at hlate
    have hsum := hpay.sum_le (by have := h.credited; omega)
      (hshares { p with totalOwed := owed, penaltyApplied := applied }
        (by rw [hlate]; rfl) hle)
    refine hI.change hn h.found h.pool rfl (by omega) ?_ ?_ fun hopen _ => ?_
    · rwa [pending_congr h.offers]
    · rw [pending_congr h.offers, grow_self]
      omega
    · exact absurd hle (of_decide_eq_false hopen)

theorem Solvent.default (hI : Solvent i w r) (hn : NftChange env w w' e) {admin token : Address}
    {p : Pool} {inv : Invoice} {payments : List (Address × ℤ)}
    (h : Default env i w w' token p inv payments)
    (hc : CoversPayouts w (.pool (.markDefault admin i token))) :
    Solvent i w' (r + grow token (-(payments.map Prod.snd).sum)) := by
  have hstatus := InvoiceNft.Storage.status_of_current h.invoice
  obtain ⟨hrepaid, hmoney⟩ := hI.credited p h.found h.unclosed (by rw [hstatus, h.funded])
  have hpending := hI.pending
  have hnonneg := hI.nonneg token
  have hp' : w'.pool.pool i = some p := h.same.pool.trans h.found
  have hst' : w'.invoiceNft.status i = some .defaulted := by
    rw [h.invoiceNft]
    simp
  rcases h.distribution with ⟨hpos, decimals, hpay⟩ | ⟨-, rfl⟩
  · obtain ⟨rfl, hshares⟩ := hc p h.found hpos
    have hsum := hpay.sum_le hrepaid hshares
    refine hI.change hn h.found hp' rfl (by omega) ?_ ?_ fun _ hst => ?_
    · rwa [pending_congr h.same.offers]
    · rw [pending_congr h.same.offers, grow_self]
      omega
    · rw [hst'] at hst
      cases hst
  · rw [List.map_nil, List.sum_nil, neg_zero]
    refine hI.change hn h.found hp' rfl (by omega) ?_ ?_ fun _ hst => ?_
    · rwa [pending_congr h.same.offers]
    · rw [pending_congr h.same.offers, grow, ite_self, add_zero]
      omega
    · rw [hst'] at hst
      cases hst

theorem Solvent.propose (hI : Solvent i w r) (hn : NftChange env w w' e) {sme : Address}
    {amount : ℤ} {p : Pool} (h : Proposal env i w w' sme amount p) :
    Solvent i w' (r + grow p.token amount) := by
  have hpos := h.positive
  have hnonneg := hI.nonneg p.token
  have hpending : FinancingPool.pending w' i = amount := pending_of_some h.offers
  refine hI.change hn h.found (h.pool.trans h.found) rfl (by omega) ?_ ?_ fun hopen hst => ?_
  · omega
  · rw [grow_self]
    omega
  · rw [h.invoiceNft] at hst
    obtain ⟨hrepaid, hmoney⟩ := hI.credited p h.found hopen hst
    rw [pending_of_none h.free] at hmoney
    rw [hpending, grow_self]
    omega

theorem Solvent.accept (hI : Solvent i w r) (hn : NftChange env w w' e) {investor : Address}
    {offer : EarlySettlementOffer} {p : Pool} {pos : Position}
    (h : Acceptance env i w w' investor offer p pos) : Solvent i w' r := by
  refine hI.keep hn h.pool (fun hnone => ?_) ?_
  · rw [h.found] at hnone
    cases hnone
  · rw [pending_of_some h.offers, pending_of_some h.pending]

theorem Solvent.settle (hI : Solvent i w r) (hn : NftChange env w w' e) {investor : Address}
    {offer : EarlySettlementOffer} {p : Pool} {pos : Position} {inv : Invoice} {decimals : ℕ}
    {payments : List (Address × ℤ)}
    (h : Settlement env i w w' investor offer p pos inv decimals payments)
    (hc : CoversPayouts w (.pool (.acceptEarlySettlement investor i))) :
    Solvent i w' (r + grow p.token (-(payments.map Prod.snd).sum)) := by
  have hstatus := InvoiceNft.Storage.status_of_current h.invoice
  obtain ⟨hrepaid, hmoney⟩ := hI.credited p h.found h.unclosed (by rw [hstatus, h.funded])
  have hpending := hI.pending
  rw [pending_of_some h.pending] at hpending hmoney
  have hsum := h.distribution.sum_le hpending
    (hc offer h.pending pos h.holds h.whole)
  have hfree : FinancingPool.pending w' i = 0 := pending_of_none h.offers
  refine hI.change hn h.found h.pool rfl (by omega) ?_ ?_ fun hopen _ => ?_
  · exact hfree.ge
  · rw [hfree, grow_self]
    omega
  · cases hopen

theorem Solvent.cancel (hI : Solvent i w r) (hn : NftChange env w w' e) {sme : Address}
    {offer : EarlySettlementOffer} {p : Pool} (h : Cancellation env i w w' sme offer p) :
    Solvent i w' (r + grow p.token (-offer.amount)) := by
  have hescrow := hI.escrow p h.found
  rw [pending_of_some h.pending] at hescrow
  have hfree : FinancingPool.pending w' i = 0 := pending_of_none h.offers
  refine hI.change hn h.found (h.pool.trans h.found) rfl (by omega) ?_ ?_ fun hopen hst => ?_
  · exact hfree.ge
  · rw [hfree, grow_self]
    omega
  · rw [h.invoiceNft] at hst
    obtain ⟨hrepaid, hmoney⟩ := hI.credited p h.found hopen hst
    rw [pending_of_some h.pending] at hmoney
    rw [hfree, grow_self]
    omega

theorem netFlow_of_ne (hr : receivingInvoice c.entry ≠ some i)
    (hp : payingInvoice c.entry ≠ some i) :
    netFlow d i w (.call c) = 0 := by
  rw [netFlow, received, paid, flowOf_of_ne hr, flowOf_of_ne hp, sub_zero]

theorem dealsWith_of_receivingInvoice (h : receivingInvoice e = some i) : DealsWith i e := by
  unfold receivingInvoice at h
  split at h <;> first | exact Option.some.inj h | cases h

theorem dealsWith_of_payingInvoice (h : payingInvoice e = some i) : DealsWith i e := by
  unfold payingInvoice at h
  split at h <;> first | exact Option.some.inj h | cases h

theorem netFlow_of_not_dealsWith (h : ¬ DealsWith i c.entry) : netFlow d i w (.call c) = 0 :=
  netFlow_of_ne (fun hr => h (dealsWith_of_receivingInvoice hr))
    fun hp => h (dealsWith_of_payingInvoice hp)

theorem netFlow_of_payAll (hr : receivingInvoice c.entry ≠ some i)
    (hp : payingInvoice c.entry = some i) {token : Address} {payments : List (Address × ℤ)}
    (h : (step d w (.call c)).tokens = w.tokens.payAll token d.financingPool payments) :
    netFlow d i w (.call c) = grow token (-(payments.map Prod.snd).sum) := by
  rw [netFlow, received, paid, flowOf_of_ne hr, flowOf_of_eq hp, newTransfers_of_payAll h]
  funext t
  by_cases ht : token = t
  · simp [grow, ht]
  · simp [grow, ht]

theorem solvent_change (hI : Solvent i w r) (hc : CoversPayouts w c.entry)
    (hn : NftChange (c.env d w) w (step d w (.call c)) c.entry)
    (h : Change (c.env d w) i w (step d w (.call c)) c.entry) :
    Solvent i (step d w (.call c)) (r + netFlow d i w (.call c)) := by
  generalize he : c.entry = e at hc hn h
  cases h with
  | frame _ hne h =>
    rw [netFlow_of_not_dealsWith (he ▸ hne), add_zero]
    exact hI.keep hn h.pool (fun _ => h.offers) (pending_congr h.offers)
  | opened _ token face bps hne h =>
    rw [netFlow_of_not_dealsWith (he ▸ hne), add_zero]
    exact hI.open hn h
  | recorded _ _ _ _ _ h =>
    have hflow : netFlow d i w (.call c) = 0 :=
      netFlow_of_ne (by rw [he]; exact nofun) (by rw [he]; exact nofun)
    rw [hflow, add_zero]
    exact hI.keep hn h.pool (fun _ => h.offers) (pending_congr h.offers)
  | sold _ _ _ h =>
    have hflow : netFlow d i w (.call c) = 0 :=
      netFlow_of_ne (by rw [he]; exact nofun) (by rw [he]; exact nofun)
    rw [hflow, add_zero]
    exact hI.keep hn h.pool (fun _ => h.offers) (pending_congr h.offers)
  | repaid payer token amount owed p inv applied payments h =>
    have hreceives : receivingInvoice c.entry = some i := by rw [he]; rfl
    have hpays : payingInvoice c.entry = some i := by rw [he]; rfl
    have hpayer := Call.ne_financingPool h.authenticated
    have hflow : netFlow d i w (.call c) = grow token (amount - (payments.map Prod.snd).sum) := by
      rw [netFlow, received, paid, flowOf_of_eq hreceives, flowOf_of_eq hpays,
        newTransfers_of_move_payAll h.tokens]
      funext t
      by_cases ht : token = t
      · simp [grow, ht, hpayer, Call.env]
      · simp [grow, ht, Call.env]
    rw [hflow]
    exact hI.repay hn rfl h hc
  | defaulted admin token p inv payments h =>
    have hreceives : receivingInvoice c.entry ≠ some i := by rw [he]; exact nofun
    have hpays : payingInvoice c.entry = some i := by rw [he]; rfl
    rw [netFlow_of_payAll hreceives hpays h.tokens]
    exact hI.default hn h hc
  | proposed sme amount p h =>
    have hreceives : receivingInvoice c.entry = some i := by rw [he]; rfl
    have hpays : payingInvoice c.entry ≠ some i := by rw [he]; exact nofun
    have hsme := Call.ne_financingPool h.authenticated
    have hflow : netFlow d i w (.call c) = grow p.token amount := by
      rw [netFlow, received, paid, flowOf_of_eq hreceives, flowOf_of_ne hpays,
        newTransfers_of_move h.tokens]
      funext t
      by_cases ht : p.token = t
      · simp [grow, ht, hsme, Call.env]
      · simp [grow, ht, Call.env]
    rw [hflow]
    exact hI.propose hn h
  | accepted investor offer p pos h =>
    have hreceives : receivingInvoice c.entry ≠ some i := by rw [he]; exact nofun
    have hpays : payingInvoice c.entry = some i := by rw [he]; rfl
    have hflow : netFlow d i w (.call c) = 0 := by
      rw [netFlow, received, paid, flowOf_of_ne hreceives, flowOf_of_eq hpays,
        newTransfers_of_same h.tokens]
      rfl
    rw [hflow, add_zero]
    exact hI.accept hn h
  | settled investor offer p pos inv decimals payments h =>
    have hreceives : receivingInvoice c.entry ≠ some i := by rw [he]; exact nofun
    have hpays : payingInvoice c.entry = some i := by rw [he]; rfl
    rw [netFlow_of_payAll hreceives hpays h.tokens]
    exact hI.settle hn h hc
  | cancelled sme offer p h =>
    have hreceives : receivingInvoice c.entry ≠ some i := by rw [he]; exact nofun
    have hpays : payingInvoice c.entry = some i := by rw [he]; rfl
    have hflow : netFlow d i w (.call c) = grow p.token (-offer.amount) := by
      rw [netFlow, received, paid, flowOf_of_ne hreceives, flowOf_of_eq hpays,
        newTransfers_of_move h.tokens]
      funext t
      by_cases ht : p.token = t
      · simp [grow, ht, Call.env]
      · simp [grow, ht, Call.env]
    rw [hflow]
    exact hI.cancel hn h

/-- **One step keeps every invoice solvent.** -/
theorem solvent_step (hI : Solvent i w r) (a : Action) (hc : Covered d w a) :
    Solvent i (step d w a) (r + netFlow d i w a) := by
  rcases step_cases d w a with ⟨c, rfl, hs, h⟩ | ⟨n, rfl, h⟩ | ⟨c, rfl, hn, h⟩
  · have heffect := Entry.exec_effect h
    exact solvent_change hI (hc hs) (heffect.nftChange hI.wellFormed) (change_of_effect heffect i)
  · rw [h, netFlow, received, paid, flowOf_tick, flowOf_tick, sub_zero, add_zero]
    exact ⟨hI.wellFormed, hI.nonneg, hI.unopened, hI.financed, hI.pending, hI.escrow, hI.credited⟩
  · have hfails : ∀ c', Action.call c = .call c' → ¬ c'.Succeeds d w := by
      rintro _ ⟨⟩
      exact hn
    rw [h, netFlow, received, paid, flowOf_of_not_succeeds (fun _ => rfl) hfails,
      flowOf_of_not_succeeds (fun _ => rfl) hfails, sub_zero, add_zero]
    exact hI

end Steps

section Runs

theorem solvent_genesis (i now : ℕ) (tokens : Tokens) : Solvent i (genesis now tokens) 0 where
  wellFormed := wellFormed_genesis now tokens
  nonneg := fun _ => le_rfl
  unopened := fun _ => rfl
  financed := nofun
  pending := le_rfl
  escrow := nofun
  credited := nofun

/-- **Solvency**: in every run whose transactions cover their payouts, what the pool contract paid
for an invoice in a token never exceeds what it received for that invoice in that token. -/
theorem solvent_of_covered {d : Deployment} {now : ℕ} {tokens : Tokens} {as : List Action}
    (hc : Along (step d) (Covered d) (genesis now tokens) as) :
    ∀ p, p <+: as → ∀ i token, tally (step d) (paid d i) (genesis now tokens) p token ≤
      tally (step d) (received d i) (genesis now tokens) p token := by
  rintro p ⟨rest, rfl⟩ i token
  have hI := invariant_tally (I := Solvent i) (C := Covered d) (μ := netFlow d i)
    (fun w r a hI hc => solvent_step hI a hc) (solvent_genesis i now tokens)
    (along_append.mp hc).1
  have hnet := hI.nonneg token
  have htally : tally (step d) (netFlow d i) (genesis now tokens) p =
      tally (step d) (received d i) (genesis now tokens) p -
        tally (step d) (paid d i) (genesis now tokens) p := tally_sub _ _ _ _
  rw [zero_add, htally, Pi.sub_apply] at hnet
  linarith

/-- Invoice `1` with one investor, repaid in full. -/
def repaidInFull : List Action := sampleFunding "USDC" ++ [
  signed 1 (.pool (.recordPosition 1 1 3 9_000 9_000)),
  signed 2 (.pool (.repay 2 1 50 4_000)),
  signed 2 (.pool (.repay 2 1 50 6_000))]

theorem solvent_repaidInFull :
    tally (step sample) (paid sample 1) (genesis 0 sampleTokens) repaidInFull 50 ≤
      tally (step sample) (received sample 1) (genesis 0 sampleTokens) repaidInFull 50 :=
  solvent_of_covered (by decide +kernel) repaidInFull List.prefix_rfl 1 50

/-- Two investors hold 15 000 bps between them when invoice `1` is repaid in full. -/
def repaidOverShares : List Action := sampleFunding "USDC" ++ [
  signed 1 (.pool (.recordPosition 1 1 3 100 100)),
  signed 1 (.pool (.recordPosition 1 1 4 50 100)),
  signed 2 (.pool (.repay 2 1 50 10_000))]

/-- The pool contract receives 10 000 for the invoice and pays out 15 000. -/
theorem payouts_exceed : ¬ ∀ (d : Deployment) (now : ℕ) (tokens : Tokens) (as : List Action)
    (i : ℕ) (token : Address), tally (step d) (paid d i) (genesis now tokens) as token ≤
      tally (step d) (received d i) (genesis now tokens) as token :=
  fun h => absurd (h sample 0 sampleTokens repaidOverShares 1 50) (by decide +kernel)

end Runs

end Kora.FinancingPool
