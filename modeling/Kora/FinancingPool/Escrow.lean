import Kora.FinancingPool.Aggregate
import Kora.Lib.Slot
import Kora.System.Listings

set_option autoImplicit false

/-!
# Early-settlement escrow

A proposal moves the offered amount into the pool contract. A cancellation moves it back; the
acceptance that brings in all shares closes the pool. In between the offer may outlive the pool:
repayments and defaults leave it alone.

* `escrowed`, `released`, `pendingEscrow`: the transfers into escrow, what became of them, and the
  one that is pending;
* **`escrow_step`**: one step puts an escrow into the slot of an invoice, takes it out or keeps it;
* **`escrow_once`**: every run.
-/

namespace Kora

open Exec Run InvoiceNft

/-- The same transfer in the other direction. -/
def Transfer.reverse (t : Transfer) : Transfer := { t with src := t.dst, dst := t.src }

namespace FinancingPool

/-! ## Statement -/

/-- What became of an escrow. -/
inductive Release : Type
  | refunded
  | settled
  deriving DecidableEq

/-- The escrow of the pending offer of invoice `i`: its amount, from the SME to the pool. -/
def pendingEscrow (d : Deployment) (i : ℕ) (w : World) : Option Transfer := do
  let offer ← w.pool.earlySettlement i
  let pool ← w.pool.pool i
  let invoice ← w.invoiceNft.current i
  pure ⟨pool.token, invoice.sme, d.financingPool, offer.amount⟩

/-- The transfers of a successful proposal for invoice `i`. -/
def escrowed (d : Deployment) (i : ℕ) (w : World) : Action → List Transfer
  | .call c => match c.entry with
    | .pool (.proposeEarlySettlement _ j _) =>
      if j = i ∧ c.Succeeds d w then newTransfers w (step d w (.call c)) else []
    | _ => []
  | .tick _ => []

/-- The escrows that a step releases: a cancellation refunds what it transfers back, and an
acceptance that closes the pool settles the pending escrow. -/
def released (d : Deployment) (i : ℕ) (w : World) : Action → List (Release × Transfer)
  | .call c => match c.entry with
    | .pool (.cancelEarlySettlement _ j) =>
      if j = i ∧ c.Succeeds d w then
        (newTransfers w (step d w (.call c))).map fun t => (.refunded, t.reverse)
      else []
    | .pool (.acceptEarlySettlement _ j) =>
      if j = i ∧ c.Succeeds d w ∧
          ((step d w (.call c)).pool.pool i).map Pool.isClosed = some true then
        (pendingEscrow d i w).toList.map fun t => (.settled, t)
      else []
    | _ => []
  | .tick _ => []

/-! ## Steps -/

/-- Offers are made for open pools, and pools belong to financed invoices. -/
structure EscrowSound (w : World) : Prop where
  pools : PoolsSound w
  unopened : ∀ i, w.pool.pool i = none → w.pool.earlySettlement i = none

section Steps

variable {d : Deployment} {i : ℕ} {w w' : World} {p : Pool} {offer : EarlySettlementOffer}

theorem pendingEscrow_of_none (h : w.pool.earlySettlement i = none) :
    pendingEscrow d i w = none := by
  rw [pendingEscrow, h]
  rfl

theorem pendingEscrow_of_some {inv : Invoice} (ho : w.pool.earlySettlement i = some offer)
    (hp : w.pool.pool i = some p) (hinv : w.invoiceNft.invoice i = some (.current inv)) :
    pendingEscrow d i w = some ⟨p.token, inv.sme, d.financingPool, offer.amount⟩ := by
  rw [pendingEscrow, ho, hp, Storage.current_of_current hinv]
  rfl

theorem EscrowSound.invoice (hw : EscrowSound w) (hp : w.pool.pool i = some p) (a : Action) :
    ∃ inv inv', w.invoiceNft.invoice i = some (.current inv) ∧
      (step d w a).invoiceNft.invoice i = some (.current inv') ∧ inv'.sme = inv.sme := by
  have hfin := hw.pools.financed i (by simp [hp])
  have hbooks := hw.pools.books
  cases hrecord : w.invoiceNft.invoice i with
  | none =>
    rw [Storage.status, hrecord] at hfin
    rcases hfin with h | h | h <;> cases h
  | some record =>
    obtain ⟨inv, rfl⟩ := hbooks.wellFormed.current i record hrecord
    have hst : inv.status ≠ .created := by
      rw [Storage.status_of_current hrecord] at hfin
      rintro hst
      rw [hst] at hfin
      rcases hfin with h | h | h <;> cases h
    obtain ⟨inv', hinv', -, hterms⟩ := fixed_invoice_step (d := d) hbooks hrecord hst a
    exact ⟨inv, inv', rfl, hinv', congrArg Terms.sme hterms⟩

theorem pendingEscrow_keep (hw : EscrowSound w) {a : Action}
    (ho : ((step d w a).pool.earlySettlement i).map EarlySettlementOffer.amount =
      (w.pool.earlySettlement i).map EarlySettlementOffer.amount)
    (hp : ((step d w a).pool.pool i).map Pool.token = (w.pool.pool i).map Pool.token) :
    pendingEscrow d i (step d w a) = pendingEscrow d i w := by
  cases hoffer : w.pool.earlySettlement i with
  | none =>
    rw [hoffer, Option.map_none, Option.map_eq_none_iff] at ho
    rw [pendingEscrow_of_none hoffer, pendingEscrow_of_none ho]
  | some offer =>
    cases hpool : w.pool.pool i with
    | none =>
      rw [hw.unopened i hpool] at hoffer
      cases hoffer
    | some p =>
      rw [hoffer, Option.map_some, Option.map_eq_some_iff] at ho
      rw [hpool, Option.map_some, Option.map_eq_some_iff] at hp
      obtain ⟨offer', hoffer', hamount⟩ := ho
      obtain ⟨p', hp', htoken⟩ := hp
      obtain ⟨inv, inv', hinv, hinv', hsme⟩ := hw.invoice (d := d) hpool a
      rw [pendingEscrow_of_some hoffer hpool hinv, pendingEscrow_of_some hoffer' hp' hinv', hamount,
        htoken, hsme]

theorem quiet_of_not_dealsWith {c : Call} (h : ¬ DealsWith i c.entry) :
    escrowed d i w (.call c) = [] ∧ released d i w (.call c) = [] := by
  constructor
  · simp only [escrowed]
    split
    · rename_i he
      refine if_neg fun hj => h ?_
      rw [he]
      exact hj.1
    · rfl
  · simp only [released]
    split
    · rename_i he
      refine if_neg fun hj => h ?_
      rw [he]
      exact hj.1
    · rename_i he
      refine if_neg fun hj => h ?_
      rw [he]
      exact hj.1
    · rfl

theorem quiet_of_not_succeeds {a : Action} (h : ∀ c, a = .call c → ¬ c.Succeeds d w) :
    escrowed d i w a = [] ∧ released d i w a = [] := by
  cases a with
  | tick n => exact ⟨rfl, rfl⟩
  | call c =>
    have hfails := h c rfl
    constructor
    · simp only [escrowed]
      split
      · exact if_neg fun hj => hfails hj.2
      · rfl
    · simp only [released]
      split
      · exact if_neg fun hj => hfails hj.2
      · exact if_neg fun hj => hfails hj.2.1
      · rfl

theorem slot_keep (hw : EscrowSound w) {a : Action}
    (hquiet : escrowed d i w a = [] ∧ released d i w a = [])
    (ho : ((step d w a).pool.earlySettlement i).map EarlySettlementOffer.amount =
      (w.pool.earlySettlement i).map EarlySettlementOffer.amount)
    (hp : ((step d w a).pool.pool i).map Pool.token = (w.pool.pool i).map Pool.token) :
    SlotStep (pendingEscrow d i w) (escrowed d i w a) (released d i w a)
      (pendingEscrow d i (step d w a)) := by
  rw [hquiet.1, hquiet.2, pendingEscrow_keep hw ho hp]
  exact .keep _

/-- **One step puts an escrow into the slot of an invoice, takes it out, or keeps it.** -/
theorem escrow_step (hw : EscrowSound w) (a : Action) (i : ℕ) :
    SlotStep (pendingEscrow d i w) (escrowed d i w a) (released d i w a)
      (pendingEscrow d i (step d w a)) := by
  rcases step_cases d w a with ⟨c, rfl, hs, hexec⟩ | ⟨n, rfl, h⟩ | ⟨c, rfl, hn, h⟩
  · have hchange := change_of_effect (Entry.exec_effect hexec) i
    generalize he : c.entry = e at hchange
    cases hchange with
    | frame _ hne h =>
      exact slot_keep hw (quiet_of_not_dealsWith (he ▸ hne)) (by rw [h.offers]) (by rw [h.pool])
    | opened _ token face bps hne h =>
      have hnone := hw.unopened i h.unopened
      have hquiet := quiet_of_not_dealsWith (w := w) (d := d) (he ▸ hne)
      rw [hquiet.1, hquiet.2, pendingEscrow_of_none hnone,
        pendingEscrow_of_none (h.offers.trans hnone)]
      exact .keep _
    | recorded _ _ _ _ _ h =>
      refine slot_keep hw ?_ (by rw [h.offers]) (by rw [h.pool])
      simp only [escrowed, released, he, and_self]
    | sold _ _ _ h =>
      refine slot_keep hw ?_ (by rw [h.offers]) (by rw [h.pool])
      simp only [escrowed, released, he, and_self]
    | repaid _ _ _ _ _ _ _ _ h =>
      refine slot_keep hw ?_ (by rw [h.offers]) (by rw [h.pool, h.found]; rfl)
      simp only [escrowed, released, he, and_self]
    | defaulted _ _ _ _ _ h =>
      refine slot_keep hw ?_ (by rw [h.same.offers]) (by rw [h.same.pool])
      simp only [escrowed, released, he, and_self]
    | proposed sme amount p h =>
      obtain ⟨inv, inv', hinv, hinv', hsame⟩ := hw.invoice (d := d) h.found (.call c)
      rw [he] at hexec
      obtain ⟨inv₁, hinv₁, hsme⟩ := proposeEarlySettlement_sme hexec
      obtain rfl : inv = inv₁ := Storage.current_inj hinv hinv₁
      have hputs : escrowed d i w (.call c) = [⟨p.token, sme, d.financingPool, amount⟩] := by
        simp only [escrowed, he]
        rw [if_pos ⟨trivial, hs⟩]
        exact newTransfers_of_move h.tokens
      have htakes : released d i w (.call c) = [] := by simp only [released, he]
      rw [hputs, htakes, pendingEscrow_of_none h.free,
        pendingEscrow_of_some h.offers (h.pool.trans h.found) hinv', hsame, hsme]
      exact .put _
    | accepted investor offer p pos h =>
      have hopen : ((step d w (.call c)).pool.pool i).map Pool.isClosed ≠ some true := by
        rw [h.pool, h.found, Option.map_some, h.unclosed]
        simp
      refine slot_keep hw ⟨?_, ?_⟩ ?_ (by rw [h.pool])
      · simp only [escrowed, he]
      · simp only [released, he]
        exact if_neg fun hj => hopen hj.2.2
      · rw [h.offers, h.pending]
        rfl
    | settled investor offer p pos inv decimals payments h =>
      have hclosed : ((step d w (.call c)).pool.pool i).map Pool.isClosed = some true := by
        rw [h.pool]
        rfl
      have hpending := pendingEscrow_of_some (d := d) h.pending h.found h.invoice
      have hputs : escrowed d i w (.call c) = [] := by simp only [escrowed, he]
      have htakes : released d i w (.call c) =
          [(.settled, ⟨p.token, inv.sme, d.financingPool, offer.amount⟩)] := by
        simp only [released, he]
        rw [if_pos ⟨trivial, hs, hclosed⟩, hpending]
        rfl
      rw [hputs, htakes, hpending, pendingEscrow_of_none h.offers]
      exact .take _ _
    | cancelled sme offer p h =>
      rw [he] at hexec
      obtain ⟨inv, hinv, hsme⟩ := cancelEarlySettlement_sme hexec
      have hputs : escrowed d i w (.call c) = [] := by simp only [escrowed, he]
      have htakes : released d i w (.call c) =
          [(.refunded, ⟨p.token, sme, d.financingPool, offer.amount⟩)] := by
        simp only [released, he]
        rw [if_pos ⟨trivial, hs⟩, newTransfers_of_move h.tokens]
        rfl
      rw [hputs, htakes, pendingEscrow_of_some h.pending h.found hinv, hsme,
        pendingEscrow_of_none h.offers]
      exact .take _ _
  · rw [h]
    exact .keep _
  · have hquiet := quiet_of_not_succeeds (i := i) (d := d) (w := w) (a := .call c)
      (by rintro _ ⟨⟩; exact hn)
    rw [hquiet.1, hquiet.2, h]
    exact .keep _

theorem escrowSound_step (hw : EscrowSound w) (a : Action) : EscrowSound (step d w a) := by
  refine ⟨poolsSound_step hw.pools a, fun i hnone => ?_⟩
  rcases step_change d w a i with ⟨c, rfl, -, h⟩ | ⟨-, n, h⟩
  · have hbefore : w.pool.pool i = none := by
      by_contra hsome
      exact h.exists hsome hnone
    have hoffer := hw.unopened i hbefore
    generalize c.entry = e at h
    cases h with
    | frame _ _ h => exact h.offers.trans hoffer
    | opened _ _ _ _ _ h => exact h.offers.trans hoffer
    | recorded _ _ _ _ _ h => exact h.offers.trans hoffer
    | sold _ _ _ h => exact h.offers.trans hoffer
    | repaid _ _ _ _ _ _ _ _ h => exact h.offers.trans hoffer
    | defaulted _ _ _ _ _ h => exact h.same.offers.trans hoffer
    | proposed _ _ _ h => exact absurd (hbefore.symm.trans h.found) (by simp)
    | accepted _ _ _ _ h => exact absurd (hbefore.symm.trans h.found) (by simp)
    | settled _ _ _ _ _ _ _ h => exact h.offers
    | cancelled _ _ _ h => exact h.offers
  · rw [h] at hnone ⊢
    exact hw.unopened i hnone

end Steps

/-! ## Runs -/

theorem escrowSound_genesis (now : ℕ) (tokens : Tokens) : EscrowSound (genesis now tokens) :=
  ⟨poolsSound_genesis now tokens, fun _ _ => rfl⟩

/-- **Escrow is released exactly once**: in every run the transfers into escrow for an invoice are,
one by one and in order, the escrows that a cancellation transferred back or a settlement took, and
then the one that is still pending. -/
theorem escrow_once (d : Deployment) (now : ℕ) (tokens : Tokens) (as : List Action) (i : ℕ) :
    logged (step d) (escrowed d i) (genesis now tokens) as =
      (logged (step d) (released d i) (genesis now tokens) as).map Prod.snd ++
        (pendingEscrow d i (run (step d) (genesis now tokens) as)).toList :=
  slot_run (I := EscrowSound) (fun _ a hw => escrowSound_step hw a)
    (fun _ a hw => escrow_step hw a i) (escrowSound_genesis now tokens) as

end FinancingPool

end Kora
