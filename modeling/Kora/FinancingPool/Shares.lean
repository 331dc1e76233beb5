import Kora.FinancingPool.Change

set_option autoImplicit false

/-!
# The shares of a pool

Every `recordPosition` brings its own denominator, so nothing relates the shares of different
investors. The shares of an invoice stay within `10_000` basis points exactly as long as each
recorded share fits into what the other investors leave.

* `shareSum_insert`, `shareSum_sale_le`: recording and selling a position;
* **`sharesBounded_iff`**: in every run the bound holds in every state exactly when every
  successful `recordPosition` fits.
-/

namespace Kora.FinancingPool

open Exec Run

/-- The sum of the shares of an invoice. -/
def shareSum (positions : FinMap Address Position) : ℤ :=
  FinMap.total (fun _ p => (p.shareBps : ℤ)) positions

/-- The shares of every invoice are at most the whole. -/
def SharesBounded (w : World) : Prop := ∀ i, shareSum (w.pool.positions i) ≤ 10_000

/-- A successful `recordPosition` gives the investor at most what the others leave. -/
def FitsShares (d : Deployment) (w : World) : Action → Prop
  | .call c => c.Succeeds d w → ∀ caller i investor contributed total,
      c.entry = .pool (.recordPosition caller i investor contributed total) →
      contributed * 10_000 / total ≤
        10_000 - shareSum ((w.pool.positions i).erase investor)
  | .tick _ => True

section Positions

variable {env : Env} {w w' : World}

theorem shareSum_insert (m : FinMap Address Position) (a : Address) (p : Position) :
    shareSum (m.insert a p) = shareSum (m.erase a) + p.shareBps := by
  rw [shareSum, shareSum, FinMap.total_insert, FinMap.total_erase]

theorem entry_share_nonneg (m : FinMap Address Position) (a : Address) :
    0 ≤ FinMap.entry (fun _ p => ((p : Position).shareBps : ℤ)) m a := by
  cases hm : m[a]? with
  | none => rw [FinMap.entry_of_none _ _ hm]
  | some p => rw [FinMap.entry_of_some _ _ hm]; exact Int.natCast_nonneg _

/-- A sale keeps the seller's share and drops the one the buyer had. -/
theorem shareSum_sale_le {m : FinMap Address Position} {seller buyer : Address} {pos p : Position}
    (h : m[seller]? = some pos) (hp : p.shareBps = pos.shareBps) :
    shareSum ((m.erase seller).insert buyer p) ≤ shareSum m := by
  rw [shareSum, FinMap.total_move _ _ h (by rw [hp])]
  refine sub_le_self _ ?_
  split_ifs
  · exact le_rfl
  · exact entry_share_nonneg m buyer

end Positions

section Runs

variable {d : Deployment} {w : World}

/-- **One step keeps the bound exactly when it fits.** -/
theorem sharesBounded_step (hw : SharesBounded w) (a : Action) :
    SharesBounded (step d w a) ↔ FitsShares d w a := by
  constructor
  · intro hb
    cases a with
    | tick n => trivial
    | call c =>
      intro hs caller i investor contributed total he
      rcases step_change d w (.call c) i with ⟨_, ⟨⟩, -, h⟩ | ⟨hn, -⟩
      · have hi := hb i
        rw [he] at h
        cases h with
        | frame _ hne => exact absurd rfl hne
        | opened _ _ _ _ hne => exact absurd rfl hne
        | recorded _ _ _ _ share h =>
          rw [h.positions, shareSum_insert] at hi
          rw [← h.floor]
          linarith
      · exact absurd hs (hn c rfl)
  · intro hf i
    have hi := hw i
    rcases step_change d w a i with ⟨c, rfl, hs, h⟩ | ⟨-, n, h⟩
    · rw [FitsShares] at hf
      generalize c.entry = e at h hf
      cases h.positions with
      | kept _ hkept => rwa [hkept]
      | recorded _ _ _ _ share hr =>
        have := hf hs _ _ _ _ _ rfl
        rw [hr.positions, shareSum_insert, hr.floor]
        linarith
      | sold _ _ _ hs =>
        rw [hs.positions]
        refine le_trans (shareSum_sale_le hs.sold ?_) hi
        rfl
    · rwa [h]

/-- **The share bound**: it holds in every state of a run exactly when every successful
`recordPosition` of the run fits. -/
theorem sharesBounded_iff (d : Deployment) (now : ℕ) (tokens : Tokens) (as : List Action) :
    (∀ p, p <+: as → SharesBounded (run (step d) (genesis now tokens) p)) ↔
      Along (step d) (FitsShares d) (genesis now tokens) as := by
  have hgenesis : SharesBounded (genesis now tokens) := by
    intro i
    simp [genesis, shareSum]
  exact forall_prefix_iff (I := fun _ => True) (Q := SharesBounded) (C := FitsShares d)
    (fun _ _ _ => trivial) (fun w a _ hw => sharesBounded_step hw a) trivial hgenesis

/-- Three positions of invoice `1`, recorded with the denominators `100`, `100` and `2`. -/
def overRecorded : List Action := sampleFunding "USDC" ++ [
  signed 1 (.pool (.recordPosition 1 1 3 50 100)),
  signed 1 (.pool (.recordPosition 1 1 4 50 100)),
  signed 1 (.pool (.recordPosition 1 1 5 1 2))]

/-- Three positions that were recorded with different totals hold 15 000 bps. -/
theorem shares_exceed : ¬ ∀ (d : Deployment) (now : ℕ) (tokens : Tokens) (as : List Action),
    SharesBounded (run (step d) (genesis now tokens) as) := fun h =>
  absurd (h sample 0 sampleTokens overRecorded 1) (by decide +kernel)

end Runs

end Kora.FinancingPool
