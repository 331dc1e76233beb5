import Kora.Lib.Run

set_option autoImplicit false

/-!
# Cooldowns

An event stamps its time, and waits until a gap has passed since the stamp.

* `Cooldown`: the events of a system, their stamp and the gap;
* **`Cooldown.spaced`**: two events of a run are a gap apart.
-/

namespace Run

variable {σ α : Type}

/-- The events `E` of a system, each with its time, write the stamp, and wait for it. -/
structure Cooldown (step : σ → α → σ) (clock : σ → ℕ) (gap : ℕ) (E : σ → α → Option ℕ)
    (stamp : σ → Option ℕ) : Prop where
  clock_le : ∀ s a, clock s ≤ clock (step s a)
  stamps : ∀ s a, stamp (step s a) = (E s a).or (stamp s)
  time : ∀ s a t, E s a = some t → t = clock s
  waits : ∀ s a t, E s a = some t → ∀ last, stamp s = some last → last + gap ≤ t

namespace Cooldown

variable {step : σ → α → σ} {clock : σ → ℕ} {gap : ℕ} {E : σ → α → Option ℕ}
  {stamp : σ → Option ℕ} {s : σ} {a b : α} {t t' : ℕ}

/-- After an event the stamp is never older than it. -/
theorem stamp_after (h : Cooldown step clock gap E stamp) (ha : E s a = some t) (as : List α) :
    t ≤ clock (run step s (a :: as)) ∧ ∃ last, stamp (run step s (a :: as)) = some last ∧
      t ≤ last := by
  refine always (I := fun s' => t ≤ clock s' ∧ ∃ last, stamp s' = some last ∧ t ≤ last)
    (fun s' b hs' => ?_) ?_ as
  · obtain ⟨hclock, last, hlast, hle⟩ := hs'
    refine ⟨hclock.trans (h.clock_le s' b), ?_⟩
    rw [h.stamps]
    cases hb : E s' b with
    | none => exact ⟨last, hlast, hle⟩
    | some u => exact ⟨u, rfl, (h.time s' b u hb).symm ▸ hclock⟩
  · refine ⟨(h.time s a t ha).le.trans (h.clock_le s a), t, ?_, le_rfl⟩
    rw [h.stamps, ha]
    rfl

/-- **Two events are a gap apart.** -/
theorem spaced (h : Cooldown step clock gap E stamp) {as : List α} (ha : E s a = some t)
    (hb : E (run step s (a :: as)) b = some t') : t + gap ≤ t' := by
  obtain ⟨-, last, hlast, hle⟩ := h.stamp_after ha as
  have hwait : last + gap ≤ t' := h.waits _ b t' hb last hlast
  omega

end Cooldown

end Run
