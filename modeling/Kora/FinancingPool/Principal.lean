import Kora.FinancingPool.Aggregate
import Kora.FinancingPool.Ledger

set_option autoImplicit false

/-!
# The funded total of a pool

A proposal for early settlement is compared with `total_funded` of the pool, which is meant to be
the sum of the contributions. It is set to zero when the pool opens and never written again.

* `FundedMatches`, `Covers`, `NoRecord`: the total, the proposals and the steps;
* `covers_of_fundedMatches`: a right total protects the principal;
* **`fundedMatches_iff`**: every run.
-/

namespace Kora.FinancingPool

open Exec Run

/-! ## Statement -/

/-- The funded total of every pool is the sum of its contributions. -/
def FundedMatches (w : World) : Prop :=
  ∀ i pool, w.pool.pool i = some pool → pool.totalFunded = contributions w i

/-- An early settlement that the step proposes offers at least what the investors contributed. -/
def Covers (d : Deployment) (w : World) (a : Action) : Prop :=
  match performed d w a with
  | some (_, .pool (.proposeEarlySettlement _ i amount)) => contributions w i ≤ amount
  | _ => True

/-- The step records no position. -/
def NoRecord (d : Deployment) (w : World) (a : Action) : Prop :=
  match performed d w a with
  | some (_, .pool (.recordPosition ..)) => False
  | _ => True

/-! ## Steps -/

section Steps

variable {d : Deployment} {w : World} {a : Action}

/-- **A right total protects the principal.** -/
theorem covers_of_fundedMatches (hq : FundedMatches w) : Covers d w a := by
  rw [Covers]
  split
  · rename_i hp
    obtain ⟨c, rfl, rfl, -, h⟩ := performed_call hp
    obtain ⟨p, hpool, hle⟩ := proposeEarlySettlement_guard h
    rwa [← hq _ p hpool]
  · trivial

/-- Pools are sound, and no funded total was ever written. -/
structure FundedZero (w : World) : Prop where
  sound : PoolsSound w
  zero : ∀ i pool, w.pool.pool i = some pool → pool.totalFunded = 0

theorem fundedZero_step (hw : FundedZero w) (a : Action) : FundedZero (step d w a) := by
  exact ⟨poolsSound_step hw.sound a, fun i => (pool_step d w a i).totalFunded (hw.zero i)⟩

/-- The total is right exactly as long as nobody has a position. -/
theorem FundedZero.matches_iff (hw : FundedZero w) : FundedMatches w ↔
    ∀ (i : ℕ) (investor : Address), (w.pool.positions i)[investor]? = none := by
  constructor
  · intro h i investor
    have hzero : contributions w i = 0 := by
      cases hp : w.pool.pool i with
      | none => exact hw.sound.unopened i hp
      | some pool => rw [← h i pool hp, hw.zero i pool hp]
    rw [contributions, FinMap.total_eq_zero_iff
      fun investor p hp => (hw.sound.positive i investor p hp).le] at hzero
    by_contra hsome
    obtain ⟨p, hp⟩ := Option.ne_none_iff_exists'.mp hsome
    exact (hw.sound.positive i investor p hp).ne' (hzero investor p hp)
  · intro h i pool hpool
    rw [hw.zero i pool hpool, contributions, FinMap.total_congr (ψ := fun _ _ => 0)
      fun investor p hp => by rw [h i investor] at hp; cases hp]
    simp [FinMap.total]

theorem fundedMatches_step (hw : FundedZero w) (hq : FundedMatches w) :
    FundedMatches (step d w a) ↔ NoRecord d w a := by
  rw [(fundedZero_step hw a).matches_iff]
  rw [hw.matches_iff] at hq
  constructor
  · intro h
    rw [NoRecord]
    split
    · rename_i env caller i investor contributed total hp
      obtain ⟨c, rfl, rfl, -, hexec⟩ := performed_call hp
      obtain ⟨-, -, share, p, -, -, -, hstep⟩ := recordPosition_ok hexec
      have hnone := h i investor
      rw [hstep] at hnone
      simp at hnone
    · trivial
  · intro hno i investor
    rcases performed_change d w a i with ⟨env, e, hp, -, hc⟩ | ⟨-, n, hstep⟩
    · rw [NoRecord, hp] at hno
      cases hc.positions with
      | kept _ h => rw [h, hq]
      | recorded => exact hno.elim
      | sold _ seller _ h =>
        have hsold := h.sold
        rw [hq] at hsold
        cases hsold
    · rw [hstep]
      exact hq i investor

end Steps

/-! ## Runs -/

/-- **Funded total and principal**: in every state of a run the funded total of each pool is the sum
of its contributions, and every proposal accepted in the run offers at least that sum, exactly when
no position is recorded in the run. -/
theorem fundedMatches_iff (d : Deployment) (start : ℕ) (tokens : Tokens) (as : List Action) :
    ((∀ p, p <+: as → FundedMatches (run (step d) (genesis start tokens) p)) ∧
        Along (step d) (Covers d) (genesis start tokens) as) ↔
      Along (step d) (NoRecord d) (genesis start tokens) as := by
  have hmatches : _ ↔ Along (step d) (NoRecord d) (genesis start tokens) as :=
    forall_prefix_iff (fun w a hw => fundedZero_step hw a)
      (fun w a hw hq => fundedMatches_step hw hq)
      ⟨poolsSound_genesis start tokens, by rintro _ _ ⟨⟩⟩ (by rintro _ _ ⟨⟩)
  rw [← hmatches]
  refine and_iff_left_of_imp fun h => along_iff_forall.mpr fun p a hp => ?_
  exact covers_of_fundedMatches (h p ((List.prefix_append p [a]).trans hp))

theorem not_along_covers {d : Deployment} {s : World} {as : List Action} {c : Call} {sme : Address}
    {i : ℕ} {amount : ℤ} (hs : c.Succeeds d (run (step d) s as))
    (he : c.entry = .pool (.proposeEarlySettlement sme i amount))
    (hlt : amount < contributions (run (step d) s as) i) :
    ¬ Along (step d) (Covers d) s (as ++ [.call c]) := by
  intro h
  have hcovers := (along_append.mp h).2.1
  rw [Covers, performed_of_succeeds hs, he] at hcovers
  exact absurd hcovers (not_le.mpr hlt)

/-- The SME offers one unit for a pool of `9_000`. -/
def undercut : Call := ⟨[2], .pool (.proposeEarlySettlement 2 1 1)⟩

/-- The funded total stays zero, and the offer is accepted. -/
theorem principal_undercut :
    (¬ ∀ (d : Deployment) (start : ℕ) (tokens : Tokens) (as : List Action),
      FundedMatches (run (step d) (genesis start tokens) as)) ∧
    ¬ ∀ (d : Deployment) (start : ℕ) (tokens : Tokens) (as : List Action),
      Along (step d) (Covers d) (genesis start tokens) as := by
  constructor
  · intro h
    exact absurd (h sample 0 sampleTokens positionRecorded 1
      ⟨1, 50, 0, 10_000, 0, false, 200, 10_000, false⟩ (by decide +kernel)) (by decide +kernel)
  · intro h
    exact not_along_covers (by decide +kernel) rfl (by decide +kernel)
      (h sample 0 sampleTokens (positionRecorded ++ [.call undercut]))

end Kora.FinancingPool
