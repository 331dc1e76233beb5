import Kora.FinancingPool.Change
import Kora.System.Controls

set_option autoImplicit false

/-!
# The ledger of a pool

A pool opens owing the face value, is repaid in parts, and is charged the late penalty once, in the
first repayment after the due date. It closes when the repayments reach what it owes, or by an early
settlement.

* `PoolStep`, **`pool_step`**: what a step of the system does to a pool;
* `Accounted`: how owed, repaid and penalty fit together;
* **`poolLedger_run`**: every run.
-/

namespace Kora.FinancingPool

open Exec Run

/-! ## Statement -/

/-- The step is a repayment of invoice `i` after its due date. -/
def RepaysLate (d : Deployment) (i : ℕ) (w : World) (a : Action) : Prop :=
  ∃ payer token amount inv, Performs d w (.pool (.repay payer i token amount)) a ∧
    w.invoiceNft.invoice i = some (.current inv) ∧ inv.dueDate < w.now

/-- The step charges the pool of invoice `i` the late penalty. -/
def ChargesPenalty (d : Deployment) (i : ℕ) (w : World) (a : Action) : Prop :=
  (w.pool.pool i).map Pool.penaltyApplied = some false ∧
    ((step d w a).pool.pool i).map Pool.penaltyApplied = some true

/-- A pool owes its face value, with the penalty once that is applied, and while it is open it is
repaid in part. -/
structure Accounted (p : Pool) : Prop where
  plain : p.penaltyApplied = false → p.totalOwed = p.faceValue
  late : p.penaltyApplied = true → ∃ penalty, bpsOf p.faceValue p.latePenaltyBps = .ok penalty ∧
    p.totalOwed = p.faceValue + penalty
  repaid : p.isClosed = false → 0 ≤ p.repaidAmount ∧ p.repaidAmount < p.totalOwed

/-- The pools in the run `as` from `s`. -/
structure PoolLedger (d : Deployment) (s : World) (as : List Action) : Prop where
  /-- Owed, repaid and penalty fit together in every pool. -/
  accounted : ∀ i p, (run (step d) s as).pool.pool i = some p → Accounted p
  /-- The penalty is charged at most once. -/
  once : ∀ i, Once (step d) (ChargesPenalty d i) s as
  /-- It is only charged in a repayment after the due date. -/
  late : Along (step d) (fun w a => ∀ i, ChargesPenalty d i w a → RepaysLate d i w a) s as
  /-- A closed pool never changes again. -/
  closed : ∀ before, before <+: as → ∀ i p, (run (step d) s before).pool.pool i = some p →
    p.isClosed = true → (run (step d) s as).pool.pool i = some p

/-! ## Steps -/

/-- What a step does to a pool; `late` says that it is a repayment after the due date. -/
inductive PoolStep (late : Prop) : Option Pool → Option Pool → Prop
  | stay (r : Option Pool) : PoolStep late r r
  | opens (i : ℕ) (token : Address) (face : ℤ) (bps : ℕ) : 0 < face →
      PoolStep late none (some ⟨i, token, 0, face, 0, false, bps, face, false⟩)
  | pays (p : Pool) (r : ℤ) : p.isClosed = false → 0 < r →
      PoolStep late (some p) (some (repaidPool p p.totalOwed p.penaltyApplied r))
  | paysLate (p : Pool) (r penalty : ℤ) : late → p.isClosed = false → 0 < r →
      p.penaltyApplied = false → bpsOf p.faceValue p.latePenaltyBps = .ok penalty →
      PoolStep late (some p) (some (repaidPool p (p.totalOwed + penalty) true r))
  | settles (p : Pool) (amount : ℤ) : p.isClosed = false →
      PoolStep late (some p) (some { p with repaidAmount := amount, isClosed := true })

section Steps

variable {late : Prop} {r r' : Option Pool} {p p' q : Pool}

theorem applyLatePenalty_cases {now due : ℕ} (h : applyLatePenalty now due p = .ok q) :
    q = p ∨ due < now ∧ p.penaltyApplied = false ∧ ∃ penalty,
      bpsOf p.faceValue p.latePenaltyBps = .ok penalty ∧
      q = { p with totalOwed := p.totalOwed + penalty, penaltyApplied := true } := by
  unfold applyLatePenalty at h
  split_ifs at h with hlate
  · obtain ⟨hnew, -, hdue⟩ := hlate
    simp only [except_bind_ok, okOr_ok] at h
    obtain ⟨penalty, hbps, owed, howed, h⟩ := h
    cases h
    obtain rfl := checkedAdd_some howed
    exact Or.inr ⟨hdue, hnew, penalty, hbps, rfl⟩
  · cases h
    exact Or.inl rfl

theorem PoolStep.accounted (h : PoolStep late r r') (hr : ∀ p, r = some p → Accounted p) :
    ∀ p', r' = some p' → Accounted p' := by
  rintro p' rfl
  generalize hr' : some p' = r₁ at h
  cases h with
  | stay => exact hr p' hr'.symm
  | opens i token face bps hpos =>
    cases hr'
    exact ⟨fun _ => rfl, nofun, fun _ => ⟨le_rfl, hpos⟩⟩
  | pays p x hopen hx =>
    cases hr'
    have hp := hr p rfl
    obtain ⟨hnonneg, -⟩ := hp.repaid hopen
    refine ⟨hp.plain, hp.late, fun hopen' => ?_⟩
    have hshort := of_decide_eq_false hopen'
    simp only [repaidPool]
    omega
  | paysLate p x penalty _ hopen hx hnew hbps =>
    cases hr'
    have hp := hr p rfl
    obtain ⟨hnonneg, -⟩ := hp.repaid hopen
    refine ⟨nofun, fun _ => ⟨penalty, hbps, ?_⟩, fun hopen' => ?_⟩
    · show p.totalOwed + penalty = p.faceValue + penalty
      rw [hp.plain hnew]
    · have hshort := of_decide_eq_false hopen'
      simp only [repaidPool]
      omega
  | settles p amount =>
    cases hr'
    have hp := hr p rfl
    exact ⟨hp.plain, hp.late, nofun⟩

theorem PoolStep.closed (h : PoolStep late (some p) r') (hc : p.isClosed = true) :
    r' = some p := by
  cases h with
  | stay => rfl
  | pays _ _ hopen => simp [hc] at hopen
  | paysLate _ _ _ _ hopen => simp [hc] at hopen
  | settles _ _ hopen => simp [hc] at hopen

/-- The penalty is charged by a late repayment only. -/
theorem PoolStep.charges (h : PoolStep late r r')
    (hbefore : r.map Pool.penaltyApplied = some false)
    (hafter : r'.map Pool.penaltyApplied = some true) : late := by
  cases h with
  | paysLate _ _ _ hlate => exact hlate
  | stay =>
    rw [hbefore] at hafter
    cases hafter
  | opens => cases hbefore
  | pays p =>
    rw [Option.map_some] at hbefore hafter
    exact absurd (hbefore.symm.trans hafter) (by simp)
  | settles p =>
    rw [Option.map_some] at hbefore hafter
    exact absurd (hbefore.symm.trans hafter) (by simp)

theorem PoolStep.penalised (h : PoolStep late r r')
    (hr : r.map Pool.penaltyApplied = some true) : r'.map Pool.penaltyApplied = some true := by
  cases h with
  | stay => exact hr
  | opens => cases hr
  | pays => exact hr
  | paysLate => rfl
  | settles => exact hr

theorem PoolStep.faceValue (h : PoolStep late (some p) r') :
    ∃ p', r' = some p' ∧ p'.faceValue = p.faceValue := by
  cases h with
  | stay => exact ⟨p, rfl, rfl⟩
  | pays => exact ⟨_, rfl, rfl⟩
  | paysLate => exact ⟨_, rfl, rfl⟩
  | settles => exact ⟨_, rfl, rfl⟩

theorem PoolStep.totalFunded (h : PoolStep late r r')
    (hr : ∀ p, r = some p → p.totalFunded = 0) : ∀ p', r' = some p' → p'.totalFunded = 0 := by
  rintro p' rfl
  generalize hr' : some p' = r₁ at h
  cases h with
  | stay => exact hr p' hr'.symm
  | opens =>
    cases hr'
    rfl
  | pays p =>
    cases hr'
    exact hr p rfl
  | paysLate p =>
    cases hr'
    exact hr p rfl
  | settles p =>
    cases hr'
    exact hr p rfl

theorem Accounted.le_owed (h : Accounted p) : p.faceValue ≤ p.totalOwed := by
  cases hp : p.penaltyApplied with
  | false => exact (h.plain hp).ge
  | true =>
    obtain ⟨penalty, hbps, howed⟩ := h.late hp
    have hpenalty := bpsOf_nonneg hbps
    omega

variable {d : Deployment} {w : World}

theorem pool_step (d : Deployment) (w : World) (a : Action) (i : ℕ) :
    PoolStep (RepaysLate d i w a) (w.pool.pool i) ((step d w a).pool.pool i) := by
  rcases step_change d w a i with ⟨c, rfl, hs, h⟩ | ⟨-, n, h⟩
  · generalize he : c.entry = e at h
    cases h with
    | frame _ _ h =>
      rw [h.pool]
      exact .stay _
    | opened _ token face bps _ h =>
      rw [h.unopened, h.pool]
      exact .opens i token face bps h.positive
    | recorded _ _ _ _ _ h =>
      rw [h.pool]
      exact .stay _
    | sold _ _ _ h =>
      rw [h.pool]
      exact .stay _
    | repaid payer token amount owed p inv applied payments h =>
      rw [h.found, h.pool]
      rcases applyLatePenalty_cases h.penalty with hsame | ⟨hdue, hnew, penalty, hbps, hq⟩
      · have howed : owed = p.totalOwed := congrArg Pool.totalOwed hsame
        have happlied : applied = p.penaltyApplied := congrArg Pool.penaltyApplied hsame
        rw [howed, happlied]
        exact .pays p _ h.unclosed h.credited
      · have howed : owed = p.totalOwed + penalty := congrArg Pool.totalOwed hq
        have happlied : applied = true := congrArg Pool.penaltyApplied hq
        rw [howed, happlied]
        exact .paysLate p _ penalty ⟨payer, token, amount, inv, ⟨hs, he⟩, h.invoice, hdue⟩
          h.unclosed h.credited hnew hbps
    | defaulted _ _ _ _ _ h =>
      rw [h.same.pool]
      exact .stay _
    | proposed _ _ _ h =>
      rw [h.pool]
      exact .stay _
    | accepted _ _ _ _ h =>
      rw [h.pool]
      exact .stay _
    | settled _ offer p _ _ _ _ h =>
      rw [h.found, h.pool]
      exact .settles p offer.amount h.unclosed
    | cancelled _ _ _ h =>
      rw [h.pool]
      exact .stay _
  · rw [h]
    exact .stay _

/-- The pools are accounted for. -/
def PoolsAccounted (w : World) : Prop := ∀ i p, w.pool.pool i = some p → Accounted p

theorem poolsAccounted_step (hw : PoolsAccounted w) (a : Action) :
    PoolsAccounted (step d w a) :=
  fun i => (pool_step d w a i).accounted (hw i)

end Steps

/-! ## Runs -/

theorem poolsAccounted_run (d : Deployment) (now : ℕ) (tokens : Tokens) (as : List Action) :
    PoolsAccounted (run (step d) (genesis now tokens) as) := by
  have hgenesis : PoolsAccounted (genesis now tokens) := by
    rintro _ _ ⟨⟩
  exact always (I := PoolsAccounted) (fun w a hw => poolsAccounted_step hw a) hgenesis as

/-- **The ledger of every pool** holds in every run. -/
theorem poolLedger_run (d : Deployment) (now : ℕ) (tokens : Tokens) (as : List Action) :
    PoolLedger d (genesis now tokens) as where
  accounted := poolsAccounted_run d now tokens as
  once := fun i => by
    refine once_of_mark (I := fun _ => True)
      (F := fun w => (w.pool.pool i).map Pool.penaltyApplied = some true)
      (fun _ _ _ => trivial) ?_ ?_ trivial
    · rintro w a - ⟨hbefore, hafter⟩
      refine ⟨fun h => ?_, hafter⟩
      rw [hbefore] at h
      cases h
    · exact fun w a _ h => (pool_step d w a i).penalised h
  late := .of_always (I := fun _ => True) (fun _ _ _ => trivial)
    (fun w a _ i h => (pool_step d w a i).charges h.1 h.2) trivial as
  closed := by
    rintro before ⟨after, rfl⟩ i p hp hc
    rw [run_append]
    refine always (I := fun w : World => w.pool.pool i = some p) (fun w a hw => ?_) hp after
    have hstep := pool_step d w a i
    rw [hw] at hstep
    exact hstep.closed hc

end Kora.FinancingPool
