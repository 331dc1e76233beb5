import Kora.Lib.Run

set_option autoImplicit false

/-!
# Timelocks

A timelock holds at most one proposal, a value with the time at which it was proposed. A new
proposal replaces a pending one; a proposal is executed, and then removed, once a delay has passed.

* `TimelockStep`: how the pending proposal changes;
* `Timelocked`: what a timelock is for, over the runs from a state: a value that is executed is the
  one proposed last, it was proposed the delay before at least, and after the last execution;
* **`timelocked_of_step`**: a system whose steps are steps of a timelock is timelocked.
-/

/-- How the pending proposal changes at time `now`, with the value that is proposed and the value
that is executed. -/
inductive TimelockStep {ν : Type} (delay now : ℕ) :
    Option (ν × ℕ) → Option ν → Option ν → Option (ν × ℕ) → Prop
  | keep (pending : Option (ν × ℕ)) : TimelockStep delay now pending none none pending
  | propose (pending : Option (ν × ℕ)) (v : ν) :
      TimelockStep delay now pending (some v) none (some (v, now))
  | execute (v : ν) (proposedAt : ℕ) : proposedAt + delay ≤ now →
      TimelockStep delay now (some (v, proposedAt)) none (some v) none

namespace Run

variable {σ α ν : Type} {step : σ → α → σ} {clock : σ → ℕ} {delay : ℕ}
  {proposed executed : σ → α → Option ν} {pending : σ → Option (ν × ℕ)} {s : σ}

/-- The value a step proposes, with the time. -/
def stamped (clock : σ → ℕ) (proposed : σ → α → Option ν) (s : σ) (a : α) : Option (ν × ℕ) :=
  (proposed s a).map fun v => (v, clock s)

/-- In the runs from `s`, what is executed was proposed last, long enough ago, and since the last
execution. -/
structure Timelocked (step : σ → α → σ) (clock : σ → ℕ) (delay : ℕ)
    (proposed executed : σ → α → Option ν) (s : σ) : Prop where
  mature : ∀ as a v, executed (run step s as) a = some v →
    ∃ t, latest step (stamped clock proposed) s as = some (v, t) ∧
      t + delay ≤ clock (run step s as)
  once : ∀ as a bs b v, (executed (run step s as) a).isSome →
    executed (run step s (as ++ a :: bs)) b = some v →
    ∃ t, latest step (stamped clock proposed) (run step s (as ++ [a])) bs = some (v, t)

section Pending

variable (hstep : ∀ s a,
  TimelockStep delay (clock s) (pending s) (proposed s a) (executed s a) (pending (step s a)))

include hstep

/-- A pending proposal is the last one of the run, or was there from the start. -/
theorem latest_of_pending {x : ν × ℕ} {as : List α} (h : pending (run step s as) = some x) :
    latest step (stamped clock proposed) s as = some x ∨
      latest step (stamped clock proposed) s as = none ∧ pending s = some x := by
  induction as generalizing s with
  | nil => exact Or.inr ⟨rfl, h⟩
  | cons a as ih =>
    rw [latest]
    rcases ih h with hlatest | ⟨hnone, hpending⟩
    · rw [hlatest]
      exact Or.inl rfl
    · rw [hnone, Option.none_or, stamped]
      have hs := hstep s a
      generalize pending s = before, proposed s a = p, executed s a = e at hs ⊢
      rw [hpending] at hs
      cases hs with
      | keep => exact Or.inr ⟨rfl, rfl⟩
      | propose => exact Or.inl rfl

/-- From a state without a proposal, what is executed was proposed last, long enough ago. -/
theorem latest_of_executed (hs : pending s = none) {as : List α} {a : α} {v : ν}
    (h : executed (run step s as) a = some v) :
    ∃ t, latest step (stamped clock proposed) s as = some (v, t) ∧
      t + delay ≤ clock (run step s as) := by
  have ha := hstep (run step s as) a
  rw [h] at ha
  generalize hp : pending (run step s as) = p at ha
  generalize proposed (run step s as) a = q, pending (step (run step s as) a) = p' at ha
  cases ha with
  | execute _ t ht =>
    rcases latest_of_pending hstep hp with hlatest | ⟨-, hpending⟩
    · exact ⟨t, hlatest, ht⟩
    · rw [hs] at hpending
      cases hpending

theorem pending_of_executed {a : α} (h : (executed s a).isSome) : pending (step s a) = none := by
  have ha := hstep s a
  generalize executed s a = e, pending (step s a) = p', proposed s a = q, pending s = p at ha h
  cases ha with
  | keep => cases h
  | propose => cases h
  | execute => rfl

/-- **Timelock rule.** -/
theorem timelocked_of_step (hs : pending s = none) :
    Timelocked step clock delay proposed executed s where
  mature _ _ _ h := latest_of_executed hstep hs h
  once as a bs b v ha hb := by
    have hempty : pending (run step s (as ++ [a])) = none := by
      rw [run_append]
      exact pending_of_executed hstep ha
    have hsplit : as ++ a :: bs = (as ++ [a]) ++ bs := by simp
    rw [hsplit, run_append] at hb
    obtain ⟨t, ht, -⟩ := latest_of_executed hstep hempty hb
    exact ⟨t, ht⟩

end Pending

end Run
