import Kora.FinancingPool.Shares

set_option autoImplicit false

/-!
# Consent to an early settlement

An offer counts the shares of the investors who accepted it, while positions can still be sold and
recorded again. The counter is the sum of the shares the acceptors hold exactly as long as no
transaction changes these shares. An exact counter of `10_000` basis points is the consent of all
holders when the shares sum to no more.

* `consent_change`: one transaction and one offer;
* **`consentExact_iff`**: in every run the counter is exact in every state exactly when every
  transaction keeps the acceptors' shares; and then every settlement that finds at most `10_000`
  basis points has the consent of all of them.
-/

namespace Kora.FinancingPool

open Exec Run

/-- The share of an address. -/
def heldBps (positions : FinMap Address Position) (a : Address) : ℤ :=
  FinMap.entry (fun _ p => (p.shareBps : ℤ)) positions a

/-- The shares of the position holders in the list. -/
def consentBps (positions : FinMap Address Position) (accepted : List Address) : ℤ :=
  FinMap.total (fun a p => if a ∈ accepted then (p.shareBps : ℤ) else 0) positions

/-- A pending offer counts the shares its acceptors hold. -/
def OfferExact (w : World) (i : ℕ) : Prop := ∀ offer, w.pool.earlySettlement i = some offer →
  (offer.acceptedBps : ℤ) = consentBps (w.pool.positions i) offer.accepted

/-- Every pending offer counts the shares its acceptors hold. -/
def ConsentExact (w : World) : Prop := ∀ i, OfferExact w i

/-- The entry point changes no share held by the acceptors of an offer on invoice `i`: recording
gives an acceptor the share it has, and a sale moves no share out of, into or between acceptors. -/
def KeepsShares (i : ℕ) (positions : FinMap Address Position) (accepted : List Address) :
    Entry → Prop
  | .pool (.recordPosition _ j investor contributed total) => j = i → investor ∈ accepted →
    contributed * 10_000 / total = heldBps positions investor
  | .pool (.buyPosition buyer j seller) => j = i → buyer ≠ seller →
    (seller ∈ accepted → buyer ∉ accepted → heldBps positions seller = 0) ∧
    (seller ∉ accepted → buyer ∈ accepted → heldBps positions buyer = heldBps positions seller) ∧
    (seller ∈ accepted → buyer ∈ accepted → heldBps positions buyer = 0)
  | _ => True

/-- A successful transaction changes no share held by the acceptors of a pending offer. -/
def KeepsConsent (d : Deployment) (w : World) : Action → Prop
  | .call c => c.Succeeds d w → ∀ i offer, w.pool.earlySettlement i = some offer →
    KeepsShares i (w.pool.positions i) offer.accepted c.entry
  | .tick _ => True

/-- An acceptance that brings the counter of an offer to `10_000` finds shares that sum to no
more. -/
def SharesWhole (d : Deployment) (w : World) : Action → Prop
  | .call c => c.Succeeds d w → ∀ investor i offer,
    c.entry = .pool (.acceptEarlySettlement investor i) →
    w.pool.earlySettlement i = some offer →
    10_000 ≤ offer.acceptedBps + heldBps (w.pool.positions i) investor →
    shareSum (w.pool.positions i) ≤ 10_000
  | .tick _ => True

/-- An acceptance settles only when the acceptors hold all shares of the pool, and these make up
the whole. -/
def SettlesByConsent (d : Deployment) (w : World) : Action → Prop
  | .call c => c.Succeeds d w → ∀ investor i offer,
    c.entry = .pool (.acceptEarlySettlement investor i) →
    w.pool.earlySettlement i = some offer →
    (step d w (.call c)).pool.earlySettlement i = none →
    consentBps (w.pool.positions i) (offer.accepted ++ [investor]) =
      shareSum (w.pool.positions i) ∧ 10_000 ≤ shareSum (w.pool.positions i)
  | .tick _ => True

section Shares

variable {m : FinMap Address Position} {accepted : List Address} {a b : Address}
  {p : Position}

theorem heldBps_of_some (h : m[a]? = some p) : heldBps m a = p.shareBps :=
  FinMap.entry_of_some _ _ h

@[simp] theorem heldBps_erase :
    heldBps (m.erase a) b = if a = b then 0 else heldBps m b := by
  rw [heldBps, heldBps, FinMap.entry, FinMap.entry, FinMap.getElem?_erase']
  split_ifs <;> rfl

theorem entry_consent :
    FinMap.entry (fun a p => if a ∈ accepted then ((p : Position).shareBps : ℤ) else 0) m a =
      if a ∈ accepted then heldBps m a else 0 := by
  cases h : m[a]? with
  | none => rw [heldBps, FinMap.entry_of_none _ _ h, FinMap.entry_of_none _ _ h, ite_self]
  | some p => rw [heldBps, FinMap.entry_of_some _ _ h, FinMap.entry_of_some _ _ h]

@[simp] theorem consentBps_nil : consentBps m [] = 0 := by simp [consentBps, FinMap.total]

theorem consentBps_erase : consentBps (m.erase a) accepted =
    consentBps m accepted - if a ∈ accepted then heldBps m a else 0 := by
  rw [consentBps, consentBps, FinMap.total_erase, entry_consent]

theorem consentBps_insert : consentBps (m.insert a p) accepted = consentBps m accepted +
    if a ∈ accepted then (p.shareBps : ℤ) - heldBps m a else 0 := by
  rw [consentBps, consentBps, FinMap.total_insert, entry_consent]
  split_ifs <;> ring

theorem consentBps_append (ha : a ∉ accepted) :
    consentBps m (accepted ++ [a]) = consentBps m accepted + heldBps m a := by
  have h : (fun (b : Address) (p : Position) =>
      if b ∈ accepted ++ [a] then (p.shareBps : ℤ) else 0) = fun b p =>
        (if b ∈ accepted then (p.shareBps : ℤ) else 0) + if b = a then (p.shareBps : ℤ) else 0 := by
    funext b p
    by_cases hb : b = a
    · subst hb
      simp [ha]
    · simp [hb]
  rw [consentBps, h, FinMap.total_add,
    FinMap.total_single (fun _ p => ((p : Position).shareBps : ℤ))]
  rfl

theorem consentBps_le_shareSum : consentBps m accepted ≤ shareSum m := by
  have hothers : 0 ≤ FinMap.total
      (fun a p => if a ∈ accepted then 0 else ((p : Position).shareBps : ℤ)) m := by
    refine FinMap.total_nonneg fun a p _ => ?_
    split_ifs
    · exact le_rfl
    · exact Int.natCast_nonneg _
  have hsplit : shareSum m = consentBps m accepted + FinMap.total
      (fun a p => if a ∈ accepted then 0 else ((p : Position).shareBps : ℤ)) m := by
    rw [shareSum, consentBps, ← FinMap.total_add]
    refine FinMap.total_congr fun a p _ => ?_
    split_ifs <;> simp
  omega

/-- A sale keeps the shares of the acceptors exactly when it moves none of them. -/
theorem consentBps_sale_eq_iff (hp : m[a]? = some p) {q : Position}
    (hq : q.shareBps = p.shareBps) :
    consentBps ((m.erase a).insert b q) accepted = consentBps m accepted ↔ (b ≠ a →
      (a ∈ accepted → b ∉ accepted → heldBps m a = 0) ∧
      (a ∉ accepted → b ∈ accepted → heldBps m b = heldBps m a) ∧
      (a ∈ accepted → b ∈ accepted → heldBps m b = 0)) := by
  rw [consentBps_insert, consentBps_erase, heldBps_erase, hq, ← heldBps_of_some hp]
  by_cases hba : b = a
  · subst hba
    rw [if_pos rfl]
    split_ifs <;> simp
  · rw [if_neg (Ne.symm hba)]
    -- which of the two accepted
    by_cases h₁ : a ∈ accepted
    · by_cases h₂ : b ∈ accepted
      · simp [h₁, h₂, hba]
      · simp [h₁, h₂, hba]
    · by_cases h₂ : b ∈ accepted
      · simp only [h₁, h₂, hba, if_true, if_false, ne_eq, not_false_eq_true, true_implies,
          false_implies, true_and, and_true, not_true_eq_false]
        omega
      · simp [h₁, h₂, hba]

end Shares

section Steps

variable {env : Env} {d : Deployment} {w w' : World} {i : ℕ} {e : Entry}

theorem keepsShares_of_not_dealsWith (h : ¬ DealsWith i e) (m : FinMap Address Position)
    (accepted : List Address) : KeepsShares i m accepted e := by
  unfold KeepsShares
  split
  · exact fun hj => absurd hj h
  · exact fun hj => absurd hj h
  · trivial

theorem OfferExact.congr (h : OfferExact w i)
    (hm : w'.pool.positions i = w.pool.positions i)
    (ho : w'.pool.earlySettlement i = w.pool.earlySettlement i) : OfferExact w' i := by
  rw [OfferExact, hm, ho]
  exact h

theorem consent_change (hw : OfferExact w i) (h : Change env i w w' e) :
    OfferExact w' i ↔ ∀ offer, w.pool.earlySettlement i = some offer →
      KeepsShares i (w.pool.positions i) offer.accepted e := by
  cases h with
  | frame _ hne h =>
    exact iff_of_true (hw.congr h.positions h.offers) fun _ _ =>
      keepsShares_of_not_dealsWith hne _ _
  | opened _ _ _ _ hne h =>
    exact iff_of_true (hw.congr h.positions h.offers) fun _ _ =>
      keepsShares_of_not_dealsWith hne _ _
  | recorded caller investor contributed total share h =>
    rw [OfferExact, h.offers, h.positions]
    refine forall₂_congr fun offer hoffer => ?_
    rw [consentBps_insert, hw offer hoffer, KeepsShares, ← h.floor]
    split_ifs with hin
    · simp [hin, sub_eq_zero]
    · simp [hin]
  | sold buyer seller pos h =>
    rw [OfferExact, h.offers, h.positions]
    refine forall₂_congr fun offer hoffer => ?_
    rw [hw offer hoffer, eq_comm, consentBps_sale_eq_iff h.sold (by rfl), KeepsShares]
    exact ⟨fun h _ => h, fun h => h rfl⟩
  | repaid _ _ _ _ _ _ _ _ h =>
    exact iff_of_true (hw.congr h.positions h.offers) fun _ _ => trivial
  | defaulted _ _ _ _ _ h =>
    exact iff_of_true (hw.congr h.same.positions h.same.offers) fun _ _ => trivial
  | proposed _ amount _ h =>
    refine iff_of_true ?_ fun _ _ => trivial
    rw [OfferExact, h.offers]
    rintro _ ⟨⟩
    rw [consentBps_nil]
    rfl
  | accepted investor offer _ pos h =>
    refine iff_of_true ?_ fun _ _ => trivial
    rw [OfferExact, h.offers, h.positions]
    rintro _ ⟨⟩
    rw [consentBps_append h.new, heldBps_of_some h.holds, ← hw offer h.pending]
    push_cast
    rfl
  | settled _ _ _ _ _ _ _ h =>
    refine iff_of_true ?_ fun _ _ => trivial
    rw [OfferExact, h.offers]
    rintro _ ⟨⟩
  | cancelled _ _ _ h =>
    refine iff_of_true ?_ fun _ _ => trivial
    rw [OfferExact, h.offers]
    rintro _ ⟨⟩

/-- **One step keeps every counter exact exactly when it keeps the acceptors' shares.** -/
theorem consentExact_step (hw : ConsentExact w) (a : Action) :
    ConsentExact (step d w a) ↔ KeepsConsent d w a := by
  cases a with
  | tick n => exact iff_of_true hw trivial
  | call c =>
    by_cases hs : c.Succeeds d w
    · have hstep : ∀ i, OfferExact (step d w (.call c)) i ↔ ∀ offer,
          w.pool.earlySettlement i = some offer →
            KeepsShares i (w.pool.positions i) offer.accepted c.entry := by
        intro i
        rcases step_change d w (.call c) i with ⟨_, ⟨⟩, -, h⟩ | ⟨hn, -⟩
        · exact consent_change (hw i) h
        · exact absurd hs (hn c rfl)
      rw [ConsentExact, forall_congr' hstep]
      exact ⟨fun h _ => h, fun h => h hs⟩
    · rw [step_call_of_not_ok hs]
      exact iff_of_true hw fun h => absurd h hs

/-- While the counters are exact, a settlement that finds at most the whole has the consent of all
shares. -/
theorem settlesByConsent_step (hw : ConsentExact w) {a : Action} (ha : SharesWhole d w a) :
    SettlesByConsent d w a := by
  cases a with
  | tick n => trivial
  | call c =>
    intro hs investor i offer he ho hsettled
    rcases step_change d w (.call c) i with ⟨_, ⟨⟩, -, h⟩ | ⟨hn, -⟩
    · have hwhole := ha hs investor i offer he ho
      rw [he] at h
      cases h with
      | frame _ hne => exact absurd rfl hne
      | opened _ _ _ _ hne => exact absurd rfl hne
      | accepted _ _ _ _ h =>
        have hpending := h.offers
        rw [hsettled] at hpending
        cases hpending
      | settled _ offer' _ pos _ _ _ h =>
        obtain rfl := Option.some.inj (ho.symm.trans h.pending)
        have hcount : 10_000 ≤ (offer.acceptedBps : ℤ) + heldBps (w.pool.positions i) investor := by
          rw [heldBps_of_some h.holds]
          exact_mod_cast h.whole
        have hconsent : 10_000 ≤
            consentBps (w.pool.positions i) (offer.accepted ++ [investor]) := by
          rwa [consentBps_append h.new, ← hw i offer ho]
        have hle := hwhole hcount
        have hsub : consentBps (w.pool.positions i) (offer.accepted ++ [investor]) ≤
            shareSum (w.pool.positions i) := consentBps_le_shareSum
        exact ⟨by omega, by omega⟩
    · exact absurd hs (hn c rfl)

end Steps

section Runs

/-- **Consent**: in a run, every counter is exact in every state exactly when no transaction
changes the shares of acceptors; and when, moreover, no settlement finds shares beyond the whole,
every settlement has the consent of all shares. -/
theorem consentExact_iff (d : Deployment) (now : ℕ) (tokens : Tokens) (as : List Action) :
    ((∀ p, p <+: as → ConsentExact (run (step d) (genesis now tokens) p)) ↔
      Along (step d) (KeepsConsent d) (genesis now tokens) as) ∧
    (Along (step d) (fun w a => KeepsConsent d w a ∧ SharesWhole d w a) (genesis now tokens) as →
      Along (step d) (SettlesByConsent d) (genesis now tokens) as) := by
  have hgenesis : ConsentExact (genesis now tokens) := by
    rintro i _ ⟨⟩
  constructor
  · exact forall_prefix_iff (I := fun _ => True) (Q := ConsentExact) (fun _ _ _ => trivial)
      (fun w a _ hw => consentExact_step hw a) trivial hgenesis
  · exact .of_invariant (fun w a hw ha => (consentExact_step hw a).mpr ha.1)
      (fun w a hw ha => settlesByConsent_step hw ha.2) hgenesis

/-- Investor `3` accepts an offer and then sells its whole position to `4`. -/
def soldAfterAccepting : List Action := sampleFunding "USDC" ++ [
  signed 1 (.pool (.recordPosition 1 1 3 50 100)),
  signed 2 (.pool (.proposeEarlySettlement 2 1 9_500)),
  signed 3 (.pool (.acceptEarlySettlement 3 1)),
  signed 3 (.pool (.listPositionForSale 3 1 50 10)),
  signed 4 (.pool (.buyPosition 4 1 3))]

/-- After the sale the offer still counts 5 000 bps, and its acceptor holds none. -/
theorem consent_stale : ¬ ∀ (d : Deployment) (now : ℕ) (tokens : Tokens) (as : List Action),
    ConsentExact (run (step d) (genesis now tokens) as) := fun h =>
  absurd (h sample 0 sampleTokens soldAfterAccepting 1
    ⟨1, 9_500, 5_000, [3]⟩ (by decide +kernel)) (by decide +kernel)

end Runs

end Kora.FinancingPool
