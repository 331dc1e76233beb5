import Kora.FinancingPool.Consent
import Kora.FinancingPool.Shares

set_option autoImplicit false

/-!
# Unanimity

An offer settles when the counted shares reach `10_000` basis points. Every share is rounded down,
so the shares of all investors may stay below that.

* `shareSum_mul`: what rounding leaves of the whole;
* `Acceptances`: runs in which only acceptances touch the positions and the offer of an invoice;
* **`unanimity_iff`**: the last of all acceptances settles the offer exactly when no share was
  rounded.
-/

namespace Kora.FinancingPool

open Exec Run

/-- The positions were recorded with the denominator `T`, the sum of their contributions. -/
structure RecordedWith (T : ℤ) (positions : FinMap Address Position) : Prop where
  pos : 0 < T
  contributed : ∀ (a : Address) (p : Position), positions[a]? = some p → 0 < p.contributed
  share : ∀ (a : Address) (p : Position), positions[a]? = some p →
    shareBpsOf p.contributed T = .ok p.shareBps
  total : FinMap.total (fun _ p => p.contributed) positions = T

theorem recordedWith_iff {T : ℤ} {positions : FinMap Address Position} :
    RecordedWith T positions ↔ 0 < T ∧ (∀ e ∈ positions.toList,
      0 < e.2.contributed ∧ shareBpsOf e.2.contributed T = .ok e.2.shareBps) ∧
      FinMap.total (fun _ p => p.contributed) positions = T := by
  constructor
  · rintro ⟨hpos, hc, hs, ht⟩
    exact ⟨hpos, fun e he => ⟨hc _ _ (FinMap.mem_toList.mp he), hs _ _ (FinMap.mem_toList.mp he)⟩,
      ht⟩
  · rintro ⟨hpos, h, ht⟩
    exact ⟨hpos, fun a p hp => (h (a, p) (FinMap.mem_toList.mpr hp)).1,
      fun a p hp => (h (a, p) (FinMap.mem_toList.mpr hp)).2, ht⟩

instance (T : ℤ) (positions : FinMap Address Position) : Decidable (RecordedWith T positions) :=
  decidable_of_iff _ recordedWith_iff.symm

/-- The offer on invoice `i` is gone and the pool is closed. -/
def Settled (i : ℕ) (w : World) : Prop :=
  w.pool.earlySettlement i = none ∧ ∃ p, w.pool.pool i = some p ∧ p.isClosed = true

/-- The run `as` from `w` leaves the positions of invoice `i` alone, and its offer too but for the
acceptances of the investors in `order`. -/
inductive Acceptances (d : Deployment) (i : ℕ) : World → List Action → List Address → Prop
  | done (w : World) : Acceptances d i w [] []
  | other {w : World} {a : Action} {as : List Action} {order : List Address} :
      (step d w a).pool.positions i = w.pool.positions i →
      (step d w a).pool.earlySettlement i = w.pool.earlySettlement i →
      Acceptances d i (step d w a) as order → Acceptances d i w (a :: as) order
  | accept {w : World} {c : Call} {as : List Action} {investor : Address} {order : List Address} :
      c.entry = .pool (.acceptEarlySettlement investor i) → c.Succeeds d w →
      Acceptances d i (step d w (.call c)) as order →
      Acceptances d i w (.call c :: as) (investor :: order)

section Rounding

variable {T : ℤ} {m : FinMap Address Position}

/-- **The shares and the remainders make up the whole.** -/
theorem shareSum_mul (h : RecordedWith T m) :
    T * shareSum m + FinMap.total (fun _ p => p.contributed * 10_000 % T) m = T * 10_000 := by
  have hsplit : FinMap.total (fun _ p => 10_000 * p.contributed) m =
      FinMap.total (fun _ p => T * (p.shareBps : ℤ) + p.contributed * 10_000 % T) m := by
    refine FinMap.total_congr fun a p hp => ?_
    rw [shareBpsOf_ok (h.contributed a p hp).le (h.share a p hp) h.pos.le, mul_comm 10_000]
    exact (Int.mul_ediv_add_emod _ _).symm
  rw [FinMap.total_mul_left, h.total, FinMap.total_add, FinMap.total_mul_left] at hsplit
  rw [shareSum, ← hsplit, mul_comm]

/-- **The shares make up the whole exactly when none was rounded.** -/
theorem whole_le_shareSum_iff (h : RecordedWith T m) :
    10_000 ≤ shareSum m ↔
      ∀ (a : Address) (p : Position), m[a]? = some p → T ∣ p.contributed * 10_000 := by
  have hsplit := shareSum_mul h
  have hrem : ∀ (a : Address) p, m[a]? = some p → 0 ≤ (p : Position).contributed * 10_000 % T :=
    fun _ _ _ => Int.emod_nonneg _ h.pos.ne'
  have hzero : 10_000 ≤ shareSum m ↔
      FinMap.total (fun _ p => (p : Position).contributed * 10_000 % T) m = 0 := by
    have hnonneg := FinMap.total_nonneg hrem
    constructor
    · intro hle
      have := mul_le_mul_of_nonneg_left hle h.pos.le
      linarith
    · intro h₀
      rw [h₀, add_zero] at hsplit
      exact (mul_left_cancel₀ h.pos.ne' hsplit).ge
  rw [hzero, FinMap.total_eq_zero_iff hrem]
  simp only [Int.dvd_iff_emod_eq_zero]

theorem consentBps_of_all {accepted : List Address}
    (h : ∀ (a : Address) p, m[a]? = some p → a ∈ accepted) :
    consentBps m accepted = shareSum m :=
  FinMap.total_congr fun a p hp => if_pos (h a p hp)

end Rounding

section Runs

variable {d : Deployment} {i : ℕ} {w : World} {as : List Action} {order : List Address} {c : Call}
  {investor : Address}

theorem accept_cases (hc : c.entry = .pool (.acceptEarlySettlement investor i))
    (hs : c.Succeeds d w) : ∃ offer pos, w.pool.earlySettlement i = some offer ∧
      (w.pool.positions i)[investor]? = some pos ∧ investor ∉ offer.accepted ∧
      (step d w (.call c)).pool.positions i = w.pool.positions i ∧
      (offer.acceptedBps + pos.shareBps < 10_000 ∧
          (step d w (.call c)).pool.earlySettlement i = some { offer with
            acceptedBps := offer.acceptedBps + pos.shareBps
            accepted := offer.accepted ++ [investor] } ∨
        10_000 ≤ offer.acceptedBps + pos.shareBps ∧ Settled i (step d w (.call c))) := by
  rcases step_change d w (.call c) i with ⟨_, ⟨⟩, -, h⟩ | ⟨hn, -⟩
  · rw [hc] at h
    cases h with
    | frame _ hne => exact absurd rfl hne
    | opened _ _ _ _ hne => exact absurd rfl hne
    | accepted _ offer _ pos h =>
      exact ⟨offer, pos, h.pending, h.holds, h.new, h.positions, Or.inl ⟨h.partly, h.offers⟩⟩
    | settled _ offer _ pos _ _ _ h =>
      exact ⟨offer, pos, h.pending, h.holds, h.new, h.positions,
        Or.inr ⟨h.whole, h.offers, _, h.pool, rfl⟩⟩
  · exact absurd hs (hn c rfl)

theorem Acceptances.offer_none (h : Acceptances d i w as order)
    (ho : w.pool.earlySettlement i = none) :
    (run (step d) w as).pool.earlySettlement i = none := by
  induction h with
  | done => exact ho
  | other _ hsame _ ih => exact ih (hsame.trans ho)
  | accept hc hs _ _ =>
    obtain ⟨_, _, ho', -⟩ := accept_cases hc hs
    rw [ho] at ho'
    cases ho'

/-- **An offer that is still pending has counted every acceptance.** -/
theorem Acceptances.pending (h : Acceptances d i w as order) {offer offer' : EarlySettlementOffer}
    (ho : w.pool.earlySettlement i = some offer)
    (hb : (offer.acceptedBps : ℤ) = consentBps (w.pool.positions i) offer.accepted)
    (ho' : (run (step d) w as).pool.earlySettlement i = some offer') :
    (run (step d) w as).pool.positions i = w.pool.positions i ∧
      offer'.accepted = offer.accepted ++ order ∧
      (offer'.acceptedBps : ℤ) = consentBps (w.pool.positions i) offer'.accepted := by
  induction h generalizing offer with
  | done =>
    rw [run_nil, ho] at ho'
    cases ho'
    exact ⟨rfl, (List.append_nil _).symm, hb⟩
  | other hm hsame _ ih =>
    rw [← hm] at hb ⊢
    exact ih (hsame.trans ho) hb ho'
  | @accept w c as investor order hc hs hrest ih =>
    obtain ⟨o, pos, hw, hpos, hnot, hm, ⟨-, hnext⟩ | ⟨-, hsettled, -⟩⟩ := accept_cases hc hs
    · rw [ho] at hw
      cases hw
      have hb' : ((offer.acceptedBps + pos.shareBps : ℕ) : ℤ) =
          consentBps ((step d w (.call c)).pool.positions i) (offer.accepted ++ [investor]) := by
        rw [hm, consentBps_append hnot, heldBps_of_some hpos, ← hb]
        push_cast
        rfl
      obtain ⟨hrun, hacc, hbps⟩ := ih hnext hb' ho'
      rw [hm] at hrun hbps
      refine ⟨hrun, ?_, hbps⟩
      rw [hacc, List.append_assoc]
      rfl
    · rw [run_cons, hrest.offer_none hsettled] at ho'
      cases ho'

/-- **Unanimity**: when every holder accepts and no position changes, the last acceptance settles
the offer and closes the pool exactly when every contribution is a whole number of basis points of
the pool. -/
theorem unanimity_iff {T amount : ℤ} {last : Address}
    (hrec : RecordedWith T (w.pool.positions i))
    (hoffer : w.pool.earlySettlement i = some ⟨i, amount, 0, []⟩)
    (hrun : Acceptances d i w as order)
    (hlast : c.entry = .pool (.acceptEarlySettlement last i))
    (hs : c.Succeeds d (run (step d) w as))
    (hall : ∀ (a : Address) p, (w.pool.positions i)[a]? = some p → a ∈ order ++ [last]) :
    Settled i (step d (run (step d) w as) (.call c)) ↔
      ∀ (a : Address) (p : Position), (w.pool.positions i)[a]? = some p →
        T ∣ p.contributed * 10_000 := by
  obtain ⟨offer, pos, ho, hpos, hnot, -, hcases⟩ := accept_cases hlast hs
  obtain ⟨hm, hacc, hbps⟩ := hrun.pending hoffer (by rw [consentBps_nil]; rfl) ho
  have hcount : ((offer.acceptedBps + pos.shareBps : ℕ) : ℤ) = shareSum (w.pool.positions i) := by
    rw [hm] at hpos
    rw [show order = offer.accepted from hacc.symm] at hall
    rw [← consentBps_of_all hall, consentBps_append hnot, heldBps_of_some hpos, ← hbps]
    push_cast
    rfl
  rw [← whole_le_shareSum_iff hrec, ← hcount]
  rcases hcases with ⟨hlt, hnext⟩ | ⟨hle, hsettled⟩
  · refine iff_of_false ?_ (by omega)
    rintro ⟨hnone, -⟩
    rw [hnext] at hnone
    cases hnone
  · exact iff_of_true hsettled (by omega)

/-- Invoice `1` with the positions of the list recorded by the admin with the denominator `T`, and
an offer on it. -/
def sampleOffer (T : ℤ) (contributions : List (Address × ℤ)) : World :=
  run (step sample) sampleGenesis (sampleFunding "USDC" ++
    contributions.map (fun e => signed 1 (.pool (.recordPosition 1 1 e.1 e.2 T))) ++
    [signed 2 (.pool (.proposeEarlySettlement 2 1 9_500))])

/-- The acceptance of an offer on invoice `1`. -/
def sampleAccept (investor : Address) : Call :=
  ⟨[investor], .pool (.acceptEarlySettlement investor 1)⟩

theorem unanimity_two : Settled 1 (step sample (run (step sample) (sampleOffer 4 [(3, 1), (4, 3)])
      [.call (sampleAccept 4)]) (.call (sampleAccept 3))) ↔
    ∀ (a : Address) (p : Position),
      ((sampleOffer 4 [(3, 1), (4, 3)]).pool.positions 1)[a]? = some p →
        4 ∣ p.contributed * 10_000 := by
  refine @unanimity_iff _ _ _ _ [4] _ _ 9_500 _ (by decide +kernel) (by decide +kernel)
    (.accept rfl (by decide +kernel) (.done _)) rfl (by decide +kernel) fun a p h => ?_
  have hall : ∀ e ∈ ((sampleOffer 4 [(3, 1), (4, 3)]).pool.positions 1).toList, e.1 ∈ [4, 3] := by
    decide +kernel
  exact hall (a, p) (FinMap.mem_toList.mpr h)

/-- Three equal shares are rounded to 3 333 bps each. -/
theorem unanimity_rounds : ¬ ∀ (d : Deployment) (w : World) (i : ℕ) (T amount : ℤ)
    (as : List Action) (order : List Address) (c : Call) (last : Address),
    RecordedWith T (w.pool.positions i) →
    w.pool.earlySettlement i = some ⟨i, amount, 0, []⟩ → Acceptances d i w as order →
    c.entry = .pool (.acceptEarlySettlement last i) → c.Succeeds d (run (step d) w as) →
    (∀ (a : Address) p, (w.pool.positions i)[a]? = some p → a ∈ order ++ [last]) →
    Settled i (step d (run (step d) w as) (.call c)) := by
  intro h
  have hsettled := h sample (sampleOffer 3 [(3, 1), (4, 1), (5, 1)]) 1 3 9_500
    [.call (sampleAccept 3), .call (sampleAccept 4)] [3, 4] (sampleAccept 5) 5 (by decide +kernel)
    (by decide +kernel)
    (.accept rfl (by decide +kernel) (.accept rfl (by decide +kernel) (.done _))) rfl
    (by decide +kernel) fun a p hp => ?_
  · exact absurd hsettled.1 (by decide +kernel)
  · have hall : ∀ e ∈ ((sampleOffer 3 [(3, 1), (4, 1), (5, 1)]).pool.positions 1).toList,
        e.1 ∈ [3, 4, 5] := by decide +kernel
    exact hall (a, p) (FinMap.mem_toList.mpr hp)

end Runs

end Kora.FinancingPool
