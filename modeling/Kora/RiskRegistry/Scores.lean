import Kora.InvoiceNft.Lifecycle
import Kora.Lib.Cooldown
import Kora.System.Registry

set_option autoImplicit false

/-!
# The debtor scores

A verifier scores a debtor at most once an hour. The stamp of a score stays when the verifier is
removed, so removing and adding a verifier does not shorten the hour.

* `scoredAt`, `scoreIn`: when a step scores a debtor, and with what;
* `scores_step`: what a step does to the scores and to the stamps;
* `cooldown_scores`: one verifier and one debtor are a cooldown;
* **`scores_cool_down`**: the scores in the runs of the system.
-/

namespace Kora.RiskRegistry

open Exec Run

/-! ## Statement -/

/-- When the verifier scores the debtor in a step. -/
def scoredAt (d : Deployment) (verifier : Address) (hash : Bytes) (w : World) (a : Action) :
    Option ℕ :=
  match performed d w a with
  | some (env, .riskRegistry (.setDebtorScore v h _)) =>
    if v = verifier ∧ h = hash then some env.timestamp else none
  | _ => none

/-- The score that a step gives a debtor. -/
def scoreIn (d : Deployment) (hash : Bytes) (w : World) (a : Action) : Option ℕ :=
  match performed d w a with
  | some (_, .riskRegistry (.setDebtorScore _ h score)) => if h = hash then some score else none
  | _ => none

/-- The scores cool down in the runs from `s`. -/
structure ScoresCoolDown (d : Deployment) (s : World) : Prop where
  /-- Two scores of a debtor by one verifier are an hour apart. -/
  spaced : ∀ verifier hash p a q b t t',
    scoredAt d verifier hash (run (step d) s p) a = some t →
    scoredAt d verifier hash (run (step d) s (p ++ a :: q)) b = some t' →
    t + minScoreUpdateInterval ≤ t'
  /-- A score waits for nothing but the last one of the same debtor by the same verifier. -/
  succeeds : ∀ p signers verifier hash score,
    Call.Succeeds ⟨signers, .riskRegistry (.setDebtorScore verifier hash score)⟩ d
        (run (step d) s p) ↔
      (verifier ∈ signers ∧ verifier ∉ d.contracts) ∧
      (run (step d) s p).riskRegistry.verifier verifier = true ∧ hash.length = 32 ∧ score ≤ 100 ∧
      ∀ last, latest (step d) (scoredAt d verifier hash) s p = some last →
        last + minScoreUpdateInterval < 2 ^ 64 ∧
          last + minScoreUpdateInterval ≤ (run (step d) s p).now
  /-- The stored score is the last one. -/
  stored : ∀ p hash, (run (step d) s p).riskRegistry.debtorScore hash =
    latest (step d) (scoreIn d hash) s p
  /-- A stored score is valid. -/
  valid : ∀ p hash score, (run (step d) s p).riskRegistry.debtorScore hash = some score →
    score ≤ 100

/-! ## Steps -/

section Steps

variable {env : Env} {S T : Storage} {op : Op}

theorem Effect.scores (hquiet : ¬ op.Quiet) (h : Effect env S op T) :
    T.debtorScore = S.debtorScore ∧ T.debtorScoreLastUpdate = S.debtorScoreLastUpdate := by
  cases h with
  | rest _ _ h => exact absurd h hquiet
  | _ => exact ⟨rfl, rfl⟩

@[simp] theorem Storage.scored_score (v : Address) (h : Bytes) (score now : ℕ) (hash : Bytes) :
    (S.scored v h score now).debtorScore hash =
      if h = hash then some score else S.debtorScore hash := by
  simp only [Storage.scored, Function.update_apply, eq_comm]

@[simp] theorem Storage.scored_stamp (v : Address) (h : Bytes) (score now : ℕ)
    (verifier : Address) (hash : Bytes) :
    (S.scored v h score now).debtorScoreLastUpdate verifier hash =
      if v = verifier ∧ h = hash then some now else S.debtorScoreLastUpdate verifier hash := by
  by_cases hv : verifier = v
  · subst hv
    simp [Storage.scored, Function.update_apply, eq_comm]
  · simp [Storage.scored, Function.update_of_ne hv, Ne.symm hv]

variable {d : Deployment} {w : World} {a : Action}

theorem scored_step {v : Address} {h : Bytes} {score : ℕ}
    (hp : performed d w a = some (env, .riskRegistry (.setDebtorScore v h score))) :
    env.timestamp = w.now ∧ score ≤ 100 ∧ w.riskRegistry.CooledDown v h env.timestamp ∧
      (step d w a).riskRegistry = w.riskRegistry.scored v h score env.timestamp := by
  obtain ⟨c, -, rfl, -, -⟩ := performed_call hp
  have hquiet := quiet_step (by trivial) hp
  generalize (step d w a).riskRegistry = T at hquiet ⊢
  cases hquiet with
  | setDebtorScore _ _ _ hscore hcool => exact ⟨rfl, hscore, hcool, rfl⟩

theorem scores_idle (h : ∀ env v h score,
      performed d w a ≠ some (env, .riskRegistry (.setDebtorScore v h score)))
    (verifier : Address) (hash : Bytes) :
    scoreIn d hash w a = none ∧ scoredAt d verifier hash w a = none := by
  constructor
  · unfold scoreIn
    split
    · rename_i hp
      exact absurd hp (h _ _ _ _)
    · rfl
  · unfold scoredAt
    split
    · rename_i hp
      exact absurd hp (h _ _ _ _)
    · rfl

theorem scores_step (d : Deployment) (verifier : Address) (hash : Bytes) (w : World) (a : Action) :
    (step d w a).riskRegistry.debtorScore hash =
        (scoreIn d hash w a).or (w.riskRegistry.debtorScore hash) ∧
      (step d w a).riskRegistry.debtorScoreLastUpdate verifier hash =
        (scoredAt d verifier hash w a).or
          (w.riskRegistry.debtorScoreLastUpdate verifier hash) := by
  by_cases hscores : ∃ env v h score,
      performed d w a = some (env, .riskRegistry (.setDebtorScore v h score))
  · obtain ⟨env, v, h, score, hp⟩ := hscores
    obtain ⟨-, -, -, hT⟩ := scored_step hp
    simp only [hT, scoreIn, scoredAt, hp, Storage.scored_score, Storage.scored_stamp]
    constructor
    · split_ifs <;> rfl
    · split_ifs <;> rfl
  · push Not at hscores
    obtain ⟨hscore, hstamp⟩ := scores_idle hscores verifier hash
    have hsame : (step d w a).riskRegistry.debtorScore = w.riskRegistry.debtorScore ∧
        (step d w a).riskRegistry.debtorScoreLastUpdate =
          w.riskRegistry.debtorScoreLastUpdate := by
      cases registry_step d w a with
      | marked env admin i token sme hp hsme h => exact h.scores id
      | rest hnot _ heq => exact ⟨by rw [heq], by rw [heq]⟩
      | own env op hp h =>
        by_cases hquiet : op.Quiet
        · have hquietly := quiet_step hquiet hp
          generalize (step d w a).riskRegistry = T at hquietly ⊢
          cases hquietly with
          | initializeContract | transferAdmin => exact ⟨rfl, rfl⟩
          | setDebtorScore v h' score => exact absurd hp (hscores env v h' score)
        · exact h.scores hquiet
    rw [hscore, hstamp, hsame.1, hsame.2]
    exact ⟨rfl, rfl⟩

theorem scoredAt_some {verifier : Address} {hash : Bytes} {t : ℕ}
    (h : scoredAt d verifier hash w a = some t) : t = w.now ∧
      ∀ last, w.riskRegistry.debtorScoreLastUpdate verifier hash = some last →
        last + minScoreUpdateInterval ≤ t := by
  rw [scoredAt] at h
  split at h
  · rename_i env v h' score hp
    split_ifs at h with heq
    obtain ⟨rfl, rfl⟩ := heq
    obtain rfl := Option.some.inj h
    obtain ⟨hnow, -, hcool, -⟩ := scored_step hp
    exact ⟨hnow, fun last hlast => (hcool last hlast).2⟩
  · cases h

theorem scoreIn_some {hash : Bytes} {score : ℕ} (h : scoreIn d hash w a = some score) :
    score ≤ 100 := by
  rw [scoreIn] at h
  split at h
  · rename_i env v h' score' hp
    split_ifs at h
    obtain rfl := Option.some.inj h
    exact (scored_step hp).2.1
  · cases h

/-- **One verifier and one debtor are a cooldown.** -/
theorem cooldown_scores (d : Deployment) (verifier : Address) (hash : Bytes) :
    Cooldown (step d) World.now minScoreUpdateInterval (scoredAt d verifier hash)
      fun w => w.riskRegistry.debtorScoreLastUpdate verifier hash where
  clock_le := now_le_step d
  stamps := fun w a => (scores_step d verifier hash w a).2
  time := fun _ _ _ h => (scoredAt_some h).1
  waits := fun _ _ _ h => (scoredAt_some h).2

theorem setDebtorScore_succeeds {signers : List Address} {verifier : Address} {hash : Bytes}
    {score : ℕ} :
    Call.Succeeds ⟨signers, .riskRegistry (.setDebtorScore verifier hash score)⟩ d w ↔
      (verifier ∈ signers ∧ verifier ∉ d.contracts) ∧ w.riskRegistry.verifier verifier = true ∧
        hash.length = 32 ∧ score ≤ 100 ∧ w.riskRegistry.CooledDown verifier hash w.now := by
  have hsigned : (Call.env ⟨signers, .riskRegistry (.setDebtorScore verifier hash score)⟩ d
      w).Authenticates verifier ↔ verifier ∈ signers ∧ verifier ∉ d.contracts := by
    simp [Call.env, Env.Authenticates]
  rw [Call.succeeds_iff, ← hsigned]
  constructor
  · rintro ⟨w', h⟩
    obtain ⟨s, hs, -⟩ := onRiskRegistry_ok.mp h
    obtain ⟨S, hS, -⟩ := own_ok.mp hs
    obtain ⟨ha, hverifier, hlength, hscore, hcool, -⟩ := setDebtorScore_ok.mp hS
    exact ⟨ha, hverifier, hlength, hscore, hcool⟩
  · rintro ⟨ha, hverifier, hlength, hscore, hcool⟩
    have hS := setDebtorScore_ok (u := ()).mpr ⟨ha, hverifier, hlength, hscore, hcool, rfl⟩
    exact ⟨_, onRiskRegistry_ok.mpr ⟨_, own_ok.mpr ⟨_, hS, rfl⟩, rfl⟩⟩

end Steps

/-! ## Runs -/

section Runs

variable {d : Deployment} {s : World}

theorem stamp_run (hstamp : ∀ verifier hash,
      s.riskRegistry.debtorScoreLastUpdate verifier hash = none)
    (as : List Action) (verifier : Address) (hash : Bytes) :
    (run (step d) s as).riskRegistry.debtorScoreLastUpdate verifier hash =
      latest (step d) (scoredAt d verifier hash) s as := by
  rw [latest_rule (g := fun w : World => w.riskRegistry.debtorScoreLastUpdate verifier hash)
    (fun w a => (scores_step d verifier hash w a).2), hstamp, Option.or_none]

theorem score_run (hscore : ∀ hash, s.riskRegistry.debtorScore hash = none) (as : List Action)
    (hash : Bytes) : (run (step d) s as).riskRegistry.debtorScore hash =
      latest (step d) (scoreIn d hash) s as := by
  rw [latest_rule (g := fun w : World => w.riskRegistry.debtorScore hash)
    (fun w a => (scores_step d 0 hash w a).1), hscore, Option.or_none]

end Runs

/-- **Debtor scores cool down**: in the runs of the system two scores of one debtor by one verifier
are an hour apart, other scores and changes of the verifiers neither delay nor allow a score, and
the stored score is the last one by any verifier and at most `100`. -/
theorem scores_cool_down (d : Deployment) (start : ℕ) (tokens : Tokens) :
    ScoresCoolDown d (genesis start tokens) where
  spaced := fun verifier hash p a q b t t' ha hb => by
    rw [run_append] at hb
    exact (cooldown_scores d verifier hash).spaced ha hb
  succeeds := fun p signers verifier hash score => by
    rw [setDebtorScore_succeeds, Storage.CooledDown, stamp_run fun _ _ => rfl]
  stored := score_run fun _ => rfl
  valid := fun p hash score h => by
    rw [score_run fun _ => rfl] at h
    have hlast : ∀ score, (latest (step d) (scoreIn d hash) (genesis start tokens) p).or none =
        some score → score ≤ 100 := by
      refine invariant_latest (I := fun _ o => ∀ score, o = some score → score ≤ 100)
        (fun w o a ho _ score hscore => ?_) (fun _ h => by cases h) (along_true _ p)
      cases hin : scoreIn d hash w a with
      | none => exact ho score (by rwa [hin] at hscore)
      | some x =>
        rw [hin] at hscore
        cases hscore
        exact scoreIn_some hin
    exact hlast score (by rw [h]; rfl)

end Kora.RiskRegistry
