import Kora.RiskRegistry.Spec
import Kora.System.Controls

set_option autoImplicit false

/-!
# Who writes the risk registry

The registry is written by its own entry points, and by `mark_default` of the pool, which calls
`record_default`.

* `recordedDefault`: the SME whose default a step records;
* **`registry_step`**: what a step does to the registry;
* `quiet_step`: the same in full, for the entry points that change neither a stake nor a profile.
-/

namespace Kora

open Exec

namespace RiskRegistry

/-- The SME whose default a step records. -/
def recordedDefault (d : Deployment) (w : World) (a : Action) : Option Address :=
  match performed d w a with
  | some (_, .riskRegistry (.recordDefault _ sme)) => some sme
  | some (env, .pool (.markDefault admin i _)) => FinancingPool.recordedSme env w admin i
  | _ => none

/-- What a step does to the registry. -/
inductive RegistryStep (d : Deployment) (w : World) (a : Action) (T : Storage) : Prop
  /-- An entry point of the registry. -/
  | own (env : Env) (op : Op) : performed d w a = some (env, .riskRegistry op) →
      Effect env w.riskRegistry op T → RegistryStep d w a T
  /-- A default that the pool records. -/
  | marked (env : Env) (admin : Address) (i : ℕ) (token sme : Address) :
      performed d w a = some (env, .pool (.markDefault admin i token)) →
      FinancingPool.recordedSme env w admin i = some sme →
      Effect (env.from d.financingPool) w.riskRegistry (.recordDefault admin sme) T →
      RegistryStep d w a T
  /-- Any other step. -/
  | rest : (∀ env op, performed d w a ≠ some (env, .riskRegistry op)) →
      recordedDefault d w a = none → T = w.riskRegistry → RegistryStep d w a T

section Steps

variable {d : Deployment} {w : World} {a : Action} {env : Env} {e : Entry}

theorem registryStep_of_same (hp : performed d w a = some (env, e))
    (hr : ∀ op, e ≠ .riskRegistry op)
    (hnone : recordedDefault d w a = none)
    (hsame : (step d w a).riskRegistry = w.riskRegistry) :
    RegistryStep d w a (step d w a).riskRegistry := by
  refine .rest (fun env' op hop => ?_) hnone hsame
  rw [hp] at hop
  exact hr op (Prod.mk.inj (Option.some.inj hop)).2

/-- **The registry changes by its own entry points and by defaults of the pool.** -/
theorem registry_step (d : Deployment) (w : World) (a : Action) :
    RegistryStep d w a (step d w a).riskRegistry := by
  rcases step_performed d w a with ⟨env, e, hp, hnet, h⟩ | ⟨hp, n, h⟩
  · cases e with
    | riskRegistry op =>
      obtain ⟨s, hop, hw⟩ := onRiskRegistry_ok.mp h
      rw [← hw]
      exact .own env op hp (Op.exec_effect hop)
    | accessControl op =>
      obtain ⟨S, -, hw⟩ := onAccessControl_ok.mp h
      exact registryStep_of_same hp nofun (by simp only [recordedDefault, hp]) (by rw [← hw])
    | treasury op =>
      obtain ⟨S, -, hw⟩ := onTreasury_ok.mp h
      exact registryStep_of_same hp nofun (by simp only [recordedDefault, hp]) (by rw [← hw])
    | pool op =>
      by_cases hop : ∃ admin i token, op = .markDefault admin i token
      · obtain ⟨admin, i, token, rfl⟩ := hop
        obtain ⟨-, -, ⟨sme, hsme, hrecord⟩ | ⟨hnone, hsame⟩⟩ := FinancingPool.markDefault_registry h
        · rw [hnet] at hrecord
          exact .marked env admin i token sme hp hsme (recordDefault_effect hrecord)
        · exact registryStep_of_same hp nofun (by simp only [recordedDefault, hp, hnone]) hsame
      · push Not at hop
        have hnone : recordedDefault d w a = none := by
          simp only [recordedDefault, hp]
          cases op with
          | markDefault admin i token => exact absurd rfl (hop admin i token)
          | _ => rfl
        have houter := FinancingPool.Op.frames_exec hop _ _ _ _ h
        exact registryStep_of_same hp nofun hnone (congrArg (fun o => o.2.1) houter)
    | priceOracle op | invoiceNft op | marketplace op | transfer token src dst amount =>
      have houter := Entry.exec_outer (by nofun) (by nofun) (by nofun) (by nofun) h
      exact registryStep_of_same hp nofun (by simp only [recordedDefault, hp])
        (congrArg (fun o => o.2.1) houter)
  · refine .rest (fun env op hop => ?_) (by simp only [recordedDefault, hp]) (by rw [h])
    rw [hp] at hop
    cases hop

theorem performed_exec {op : Op} (hp : performed d w a = some (env, .riskRegistry op)) :
    env.net = d ∧ op.exec env (w.riskRegistry, w.tokens) =
      .ok () ((step d w a).riskRegistry, (step d w a).tokens) := by
  obtain ⟨c, -, rfl, -, h⟩ := performed_call hp
  obtain ⟨s, hs, hw⟩ := onRiskRegistry_ok.mp h
  refine ⟨rfl, ?_⟩
  rw [hs, ← hw]

theorem quiet_step {op : Op} (hquiet : op.Quiet)
    (hp : performed d w a = some (env, .riskRegistry op)) :
    QuietEffect env w.riskRegistry op (step d w a).riskRegistry := by
  exact Op.exec_quiet hquiet (performed_exec hp).2

end Steps

end RiskRegistry

end Kora
