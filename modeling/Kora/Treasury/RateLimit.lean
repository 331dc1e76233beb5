import Kora.System.Controls
import Kora.Treasury.Spec

set_option autoImplicit false

/-!
# The rolling cap of the treasury

The cap is a meter with an epoch that starts with the first withdrawal after the end of the last
one; emergency withdrawals pass it by.

* `paidOut`: what leaves the treasury by its own entry points in a step;
* **`meter_step`**: under a cap that stays, a step that drains nothing spends what it pays out on
  the meter;
* **`paidOut_le`**: over any stretch of a run the cap bounds what is paid out, unless a token is
  drained or a withdrawal starts a new epoch after an earlier one.
-/

namespace Kora.Treasury

open Exec Run

/-- What leaves the treasury in the step, by an entry point of the treasury. -/
def paidOut (d : Deployment) (w : World) : Action → ℤ
  | .call c => match c.entry with
    | .treasury _ => (((newTransfers w (step d w (.call c))).filter fun t => t.src = d.treasury).map
        Transfer.amount).sum
    | _ => 0
  | .tick _ => 0

/-- The step drains a token of which the treasury has some. -/
def Drains (d : Deployment) (w : World) (a : Action) : Prop := ∃ admin token recipient,
  Performs d w (.treasury (.emergencyWithdraw admin token recipient)) a ∧
    0 < w.tokens.balance token d.treasury

/-- The step withdraws. -/
def Withdraws (d : Deployment) (w : World) (a : Action) : Prop := ∃ admin token recipient amount,
  Performs d w (.treasury (.withdraw admin token recipient amount)) a

/-- The epoch is over. -/
def EpochOver (w : World) : Prop := w.treasury.meter.Over epochDuration w.now

instance (w : World) : Decidable (EpochOver w) := by
  unfold EpochOver; infer_instance

section Step

variable {d : Deployment} {w : World} {a : Action} {cap : ℤ}

theorem meter_of_limit {S T : Storage} (h : T.limit = S.limit) : T.meter = S.meter := by
  obtain ⟨-, hstart, hspent⟩ : T.withdrawalCap = S.withdrawalCap ∧ T.epochStart = S.epochStart ∧
      T.epochWithdrawn = S.epochWithdrawn := by
    simpa [Storage.limit] using h
  rw [Storage.meter, hstart, hspent]
  rfl

theorem paidOut_of_transfers {op : Op} (hop : Performs d w (.treasury op) a) :
    paidOut d w a = (((newTransfers w (step d w a)).filter fun t => t.src = d.treasury).map
      Transfer.amount).sum := by
  cases a with
  | tick n => exact hop.elim
  | call c => simp only [paidOut, hop.2]

theorem paidOut_move {op : Op} {token recipient : Address} {amount : ℤ}
    (hop : Performs d w (.treasury op) a)
    (htokens : (step d w a).tokens = w.tokens.move token d.treasury recipient amount) :
    paidOut d w a = amount := by
  rw [paidOut_of_transfers hop, newTransfers_of_move htokens]
  simp

theorem paidOut_same {op : Op} (hop : Performs d w (.treasury op) a)
    (htokens : (step d w a).tokens = w.tokens) : paidOut d w a = 0 := by
  rw [paidOut_of_transfers hop, newTransfers_of_same htokens]
  rfl

theorem paidOut_other (h : ∀ op, ¬ Performs d w (.treasury op) a) : paidOut d w a = 0 := by
  cases a with
  | tick n => rfl
  | call c =>
    cases he : c.entry with
    | treasury op =>
      have hfails : ¬ c.Succeeds d w := fun hs => h op ⟨hs, he⟩
      simp only [paidOut, he, step_call_of_not_ok hfails, newTransfers_of_same rfl, List.filter_nil,
        List.map_nil, List.sum_nil]
    | accessControl | priceOracle | riskRegistry | invoiceNft | pool | marketplace | transfer =>
      simp only [paidOut, he]

/-- **A step pays out nothing or spends it on the meter**, under a cap that stays and unless it
drains a token. -/
theorem meter_step (hcap : 0 < cap) (hbefore : w.treasury.withdrawalCap = some cap)
    (hafter : (step d w a).treasury.withdrawalCap = some cap) (hdrains : ¬ Drains d w a) :
    paidOut d w a = 0 ∧ (step d w a).treasury.meter = w.treasury.meter ∨
      0 < paidOut d w a ∧ Withdraws d w a ∧
      Meter.Spend epochDuration cap w.now (paidOut d w a) w.treasury.meter
        (step d w a).treasury.meter := by
  rcases limit_step d w a with ⟨c, op, rfl, hop, hexec⟩ | ⟨hlimit, hnone⟩
  · cases Op.exec_meter hexec with
    | withdraw admin token recipient amount hpos _ htokens hmeter =>
      have hpaid : paidOut d w (.call c) = amount := paidOut_move hop htokens
      have hgetD : w.treasury.withdrawalCap.getD 0 = cap := by
        rw [hbefore]
        rfl
      rw [hgetD] at hmeter
      rw [hpaid]
      rcases hmeter with ⟨hzero, -⟩ | ⟨-, hspend⟩
      · omega
      · exact Or.inr ⟨hpos, ⟨admin, token, recipient, amount, hop⟩, hspend⟩
    | drain admin token recipient _ hpos _ =>
      exact absurd ⟨admin, token, recipient, hop, hpos⟩ hdrains
    | initialise op hzero _ _ =>
      rw [hzero] at hafter
      cases hafter
      exact absurd hcap (lt_irrefl 0)
    | rest op hmeter htokens => exact Or.inl ⟨paidOut_same hop htokens, hmeter⟩
  · exact Or.inl ⟨paidOut_other hnone, meter_of_limit hlimit⟩

theorem spent_step (h : 0 ≤ w.treasury.meter.spent) : 0 ≤ (step d w a).treasury.meter.spent := by
  rcases limit_step d w a with ⟨c, op, rfl, -, hexec⟩ | ⟨hlimit, -⟩
  · cases Op.exec_meter hexec with
    | withdraw admin token recipient amount hpos _ _ hmeter =>
      rcases hmeter with ⟨-, hsame⟩ | ⟨-, hspend⟩
      · rw [hsame]
        exact h
      · exact hspend.nonneg h hpos
    | drain admin token recipient hsame _ _ =>
      rw [hsame]
      exact h
    | initialise op _ hzero _ => rw [hzero]
    | rest op hsame _ =>
      rw [hsame]
      exact h
  · rw [meter_of_limit hlimit]
    exact h

end Step

/-! ## Runs -/

section Cap

variable {d : Deployment} {cap : ℤ}

theorem spent_run (d : Deployment) (now : ℕ) (tokens : Tokens) (as : List Action) :
    0 ≤ (run (step d) (genesis now tokens) as).treasury.meter.spent :=
  always (I := fun w : World => 0 ≤ w.treasury.meter.spent) (fun _ _ h => spent_step h) le_rfl as

/-- The cap stays in the step, which drains nothing. -/
structure Capped (d : Deployment) (cap : ℤ) (w : World) (a : Action) : Prop where
  before : w.treasury.withdrawalCap = some cap
  after : (step d w a).treasury.withdrawalCap = some cap
  drains : ¬ Drains d w a

theorem Capped.spends {w : World} {a : Action} (hcap : 0 < cap) (h : Capped d cap w a) :
    paidOut d w a = 0 ∧ (step d w a).treasury.meter = w.treasury.meter ∨
      0 < paidOut d w a ∧ Withdraws d w a ∧
      Meter.Spend epochDuration cap w.now (paidOut d w a) w.treasury.meter
        (step d w a).treasury.meter := meter_step hcap h.before h.after h.drains

theorem along_capped {w : World} {as : List Action}
    (hstays : ∀ p, p <+: as → (run (step d) w p).treasury.withdrawalCap = some cap)
    (hdrains : Along (step d) (fun w a => ¬ Drains d w a) w as) :
    Along (step d) (Capped d cap) w as := by
  rw [along_iff_forall] at hdrains ⊢
  intro p a hp
  have hafter := hstays (p ++ [a]) hp
  rw [run_append] at hafter
  exact ⟨hstays p ((List.prefix_append p [a]).trans hp), hafter, hdrains p a hp⟩

/-- **The cap bounds what the treasury pays out over any stretch of a run** under which it stays,
if no token is drained and no withdrawal starts a new epoch after an earlier one. -/
theorem paidOut_le (d : Deployment) (now : ℕ) (tokens : Tokens) (before as : List Action)
    (cap : ℤ) (hcap : 0 < cap)
    (hstays : ∀ p, p <+: as →
      (run (step d) (genesis now tokens) (before ++ p)).treasury.withdrawalCap = some cap)
    (hdrains : Along (step d) (fun w a => ¬ Drains d w a)
      (run (step d) (genesis now tokens) before) as)
    (hepoch : ∀ p a, p ++ [a] <+: as →
      Withdraws d (run (step d) (genesis now tokens) (before ++ p)) a →
      EpochOver (run (step d) (genesis now tokens) (before ++ p)) →
      ¬ Happened (step d) (Withdraws d) (run (step d) (genesis now tokens) before) p) :
    tally (step d) (paidOut d) (run (step d) (genesis now tokens) before) as ≤ cap := by
  simp only [run_append] at hstays hepoch
  have hcapped := along_capped hstays hdrains
  refine Meter.tally_le (g := fun w : World => w.treasury.meter) (t := World.now)
    (I := fun w => 0 ≤ w.treasury.meter.spent) (C := Capped d cap) (D := epochDuration)
    (fun w a h _ => spent_step h) (fun _ h => h) ?_ hcap.le (spent_run d now tokens before)
    hcapped ?_
  · intro w a _ hC
    exact (hC.spends hcap).imp_right fun h => ⟨h.1, h.2.2⟩
  · intro p a hp hmoved hover
    have hstep := along_iff_forall.mp hcapped p a hp
    rcases hstep.spends hcap with ⟨hzero, -⟩ | ⟨-, hwithdraws, -⟩
    · exact absurd hzero hmoved
    · refine tally_eq_zero (C := Capped d cap) ?_ ?_ (hepoch p a hp hwithdraws hover)
      · intro w a hC hnone
        rcases hC.spends hcap with ⟨hzero, -⟩ | ⟨-, hwithdraws, -⟩
        · exact hzero
        · exact absurd hwithdraws hnone
      · obtain ⟨q, rfl⟩ := (List.prefix_append p [a]).trans hp
        exact (along_append.mp hcapped).1

/-- The cap is `1_000` and the treasury has `10_000` of token `50`; one unit is withdrawn at time
`86_400`, which starts an epoch, and `10` seconds of it are left. -/
def cappedSetup : List Action := [
  signed 1 (.treasury (.initializeContract 1 0)),
  signed 1 (.treasury (.whitelistToken 1 50)),
  signed 3 (.transfer 50 3 105 10_000),
  signed 1 (.treasury (.proposeWithdrawalCap 1 1_000)),
  .tick 86_400,
  signed 1 (.treasury (.executeWithdrawalCap 1)),
  signed 1 (.treasury (.withdraw 1 50 1 1)),
  .tick 86_390]

theorem paidOut_le_capped :
    tally (step sample) (paidOut sample) (run (step sample) (genesis 0 sampleTokens) cappedSetup)
      [signed 1 (.treasury (.withdraw 1 50 1 600)), signed 1 (.treasury (.withdraw 1 50 1 300))] ≤
        1_000 := by
  refine paidOut_le sample 0 sampleTokens cappedSetup _ 1_000 (by decide) ?_ ?_ ?_
  · intro p hp
    rw [← List.mem_inits] at hp
    revert p
    decide +kernel
  · refine ⟨?_, ?_, trivial⟩
    · rintro ⟨_, _, _, ⟨-, he⟩, -⟩
      cases he
    · rintro ⟨_, _, _, ⟨-, he⟩, -⟩
      cases he
  · intro p a hp _ hover
    cases p with
    | nil => exact id
    | cons b p =>
      obtain ⟨rfl, hp⟩ := List.cons_prefix_cons.mp hp
      cases p with
      | nil =>
        have hwithin : ¬ EpochOver (run (step sample) (genesis 0 sampleTokens) (cappedSetup ++
            [signed 1 (.treasury (.withdraw 1 50 1 600))])) := by decide +kernel
        exact absurd hover hwithin
      | cons c p =>
        have hlength := hp.length_le
        simp at hlength

/-- Two withdrawals on both sides of the end of an epoch pay out twice the cap, and an emergency
withdrawal pays out whatever is left. -/
theorem over_cap : ¬ ∀ (d : Deployment) (now : ℕ) (tokens : Tokens) (before as : List Action)
    (cap : ℤ), 0 < cap →
    (∀ p, p <+: as →
      (run (step d) (genesis now tokens) (before ++ p)).treasury.withdrawalCap = some cap) →
    (run (step d) (genesis now tokens) (before ++ as)).now <
      (run (step d) (genesis now tokens) before).now + epochDuration →
    tally (step d) (paidOut d) (run (step d) (genesis now tokens) before) as ≤ cap := by
  intro h
  have hle := h sample 0 sampleTokens cappedSetup [
    signed 1 (.treasury (.withdraw 1 50 1 999)),
    .tick 20,
    signed 1 (.treasury (.withdraw 1 50 1 1_000)),
    signed 1 (.treasury (.emergencyWithdraw 1 50 1))] 1_000 (by decide) ?_ (by decide +kernel)
  · revert hle
    decide +kernel
  · intro p hp
    rw [← List.mem_inits] at hp
    revert p
    decide +kernel

end Cap

end Kora.Treasury
