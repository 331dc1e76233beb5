import Kora.Lib.Run

set_option autoImplicit false

/-!
# Meters with a lazily reset epoch

A meter counts what is spent in an epoch and caps it. The epoch ends when its time is over, but the
meter notices at the next spending only, which then starts a new epoch.

* `Meter`, `Over`, `Spend`: a meter, the end of its epoch, and one spending;
* `Within`: what was spent since some moment fits the epoch;
* **`Within.spend`**, **`tally_le`**: this lasts unless a new epoch starts after an earlier
  spending, in a step and along a run.
-/

/-- When the epoch started, if it did, and what was spent in it. -/
structure Meter where
  start : Option ℕ
  spent : ℤ

namespace Meter

open Run

variable {D now : ℕ} {cap x m : ℤ} {M M' : Meter}

/-- The epoch of length `D` is over. -/
def Over (D : ℕ) (now : ℕ) (M : Meter) : Prop := D ≤ now - M.start.getD now

instance (D now : ℕ) (M : Meter) : Decidable (M.Over D now) := by
  unfold Over; infer_instance

/-- Spending `x`: in the current epoch, or in a new one. -/
inductive Spend (D : ℕ) (cap : ℤ) (now : ℕ) (x : ℤ) (M : Meter) : Meter → Prop
  | current : ¬ M.Over D now → M.spent + x ≤ cap → Spend D cap now x M ⟨M.start, M.spent + x⟩
  | fresh : M.Over D now → x ≤ cap → Spend D cap now x M ⟨some now, x⟩

theorem Spend.nonneg (h : Spend D cap now x M M') (hM : 0 ≤ M.spent) (hx : 0 < x) :
    0 ≤ M'.spent := by
  cases h with
  | current _ _ =>
    change 0 ≤ M.spent + x
    omega
  | fresh _ _ =>
    change 0 ≤ x
    omega

/-- Nothing was spent yet, or all that was spent, `m`, belongs to the epoch. -/
def Within (cap m : ℤ) (M : Meter) : Prop := m = 0 ∨ m ≤ M.spent ∧ M.spent ≤ cap

theorem Within.le (h : M.Within cap m) (hcap : 0 ≤ cap) : m ≤ cap := by
  rcases h with rfl | ⟨h₁, h₂⟩
  · exact hcap
  · omega

/-- **A spending keeps within the epoch**, unless it starts one after an earlier spending. -/
theorem Within.spend (h : M.Within cap m) (hM : 0 ≤ M.spent) (hs : Spend D cap now x M M')
    (hfresh : M.Over D now → m = 0) : M'.Within cap (m + x) := by
  right
  cases hs with
  | current _ hle =>
    refine ⟨?_, hle⟩
    rcases h with rfl | ⟨h, -⟩
    · change 0 + x ≤ M.spent + x
      omega
    · change m + x ≤ M.spent + x
      omega
  | fresh hover hle =>
    have hm := hfresh hover
    change m + x ≤ x ∧ x ≤ cap
    omega

section Run

variable {σ α : Type} {step : σ → α → σ} {g : σ → Meter} {t : σ → ℕ} {μ : σ → α → ℤ}
  {I : σ → Prop} {C : σ → α → Prop}

/-- **Along a run the cap bounds what is spent**, if no step starts a new epoch after something was
spent. -/
theorem tally_le (hI : ∀ s a, I s → C s a → I (step s a))
    (hnonneg : ∀ s, I s → 0 ≤ (g s).spent)
    (hstep : ∀ s a, I s → C s a → μ s a = 0 ∧ g (step s a) = g s ∨
      0 < μ s a ∧ Spend D cap (t s) (μ s a) (g s) (g (step s a)))
    (hcap : 0 ≤ cap) {s : σ} {as : List α} (hs : I s) (hC : Along step C s as)
    (hfresh : ∀ p a, p ++ [a] <+: as → μ (run step s p) a ≠ 0 →
      (g (run step s p)).Over D (t (run step s p)) → tally step μ s p = 0) :
    tally step μ s as ≤ cap := by
  refine Within.le (M := g (run step s as)) ?_ hcap
  induction as using List.reverseRecOn with
  | nil => exact Or.inl rfl
  | append_singleton p a ih =>
    rw [along_append] at hC
    have hp := ih hC.1 fun q b hq => hfresh q b (hq.trans (List.prefix_append p [a]))
    have hrun : I (run step s p) := Run.invariant hI hs hC.1
    rw [tally_append, run_append, tally_cons, tally_nil, add_zero]
    rcases hstep _ a hrun hC.2.1 with ⟨hzero, hsame⟩ | ⟨hpos, hspend⟩
    · rw [hzero, add_zero]
      change Within cap _ (g (step (run step s p) a))
      rwa [hsame]
    · have hmoved : μ (run step s p) a ≠ 0 := by omega
      exact hp.spend (hnonneg _ hrun) hspend (hfresh p a (List.prefix_refl _) hmoved)

end Run

end Meter
