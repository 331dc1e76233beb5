import Kora.Lib.Run
import Kora.System.Registry

set_option autoImplicit false

/-!
# The record of a verifier

Three keys describe a verifier: a flag, a stake and a reputation. Adding and removing a verifier
writes all three. `record_default` writes the reputation of the verifier named in the profile of
the SME, and never looks at the flag.

* `Coherent`: the three keys are there together, or none is;
* `Effect.coherent_default`: what keeps them so;
* **`coherent_iff`**: the states of a run are coherent exactly when every recorded default is of an
  SME whose verifier was not removed.
-/

namespace Kora.RiskRegistry

open Exec Run

/-! ## Statement -/

/-- For every address the flag, the stake and the reputation are set, or none of them is. -/
def Storage.Coherent (S : Storage) : Prop :=
  ∀ v, (S.verifier v = true ↔ (S.verifierStake v).isSome = true) ∧
    (S.verifier v = true ↔ (S.verifierReputation v).isSome = true)

/-- The verifier of the SME is one now. -/
def Storage.Vouched (S : Storage) (sme : Address) : Prop :=
  ∀ profile, S.smeProfile sme = some profile → S.verifier profile.verifier = true

/-- A default that the step records is of an SME whose verifier is one now. -/
def DefaultsVouched (d : Deployment) (w : World) (a : Action) : Prop :=
  ∀ sme, recordedDefault d w a = some sme → w.riskRegistry.Vouched sme

/-! ## Steps -/

section Steps

variable {env : Env} {S T : Storage} {op : Op}

theorem Storage.Coherent.congr (hS : S.Coherent) (hverifier : T.verifier = S.verifier)
    (hstake : T.verifierStake = S.verifierStake)
    (hreputation : T.verifierReputation = S.verifierReputation) : T.Coherent := by
  intro v
  rw [hverifier, hstake, hreputation]
  exact hS v

theorem Storage.Coherent.update {verifier : Address} {set : Bool} {stake : Option ℤ}
    {reputation : Option ℕ} (hS : S.Coherent)
    (hverifier : T.verifier = Function.update S.verifier verifier set)
    (hstake : T.verifierStake = Function.update S.verifierStake verifier stake)
    (hreputation : T.verifierReputation = Function.update S.verifierReputation verifier reputation)
    (hset : (set = true ↔ stake.isSome = true) ∧ (set = true ↔ reputation.isSome = true)) :
    T.Coherent := by
  intro v
  rw [hverifier, hstake, hreputation]
  by_cases hv : v = verifier
  · subst hv
    simpa only [Function.update_self] using hset
  · simpa only [Function.update_of_ne hv] using hS v

theorem QuietEffect.coherent (h : QuietEffect env S op T) (hS : S.Coherent) : T.Coherent := by
  cases h with
  | initializeContract | transferAdmin | setDebtorScore => exact hS.congr rfl rfl rfl

theorem Effect.coherent (hquiet : ¬ op.Quiet)
    (hdefault : ∀ admin sme, op ≠ .recordDefault admin sme) (h : Effect env S op T)
    (hS : S.Coherent) : T.Coherent := by
  cases h with
  | rest _ _ h => exact absurd h hquiet
  | recordDefault admin sme => exact absurd rfl (hdefault admin sme)
  | addVerifier admin verifier => exact hS.update rfl rfl rfl ⟨by simp, by simp⟩
  | removeVerifier admin verifier => exact hS.update rfl rfl rfl ⟨by simp, by simp⟩
  | registerSme | updateSmeScore | setCreditLimit | incrementInvoiceCount =>
    exact hS.congr rfl rfl rfl

/-- What a default writes: the reputation of one verifier, and a stake only over a stake. -/
theorem Effect.writes {admin sme : Address} (h : Effect env S (.recordDefault admin sme) T) :
    ∃ profile reputation, S.smeProfile sme = some profile ∧ T.verifier = S.verifier ∧
      (∀ v, (T.verifierStake v).isSome = (S.verifierStake v).isSome) ∧
      T.verifierReputation = Function.update S.verifierReputation profile.verifier
        (some reputation) := by
  cases h with
  | rest _ _ hquiet => exact hquiet.elim
  | recordDefault _ _ profile reputation log _ _ hprofile =>
    refine ⟨profile, reputation, hprofile, rfl, fun v => ?_, rfl⟩
    by_cases hpos : 0 < S.stake profile.verifier
    · have hsome : (S.verifierStake profile.verifier).isSome = true := by
        rw [Option.isSome_iff_ne_none]
        intro hnone
        rw [Storage.stake, hnone] at hpos
        exact lt_irrefl _ hpos
      by_cases hv : v = profile.verifier
      · subst hv
        simp [hpos, hsome]
      · simp [hpos, Function.update_of_ne hv]
    · simp [hpos]

/-- **A default keeps the records coherent exactly when the verifier of the SME is one now.** -/
theorem Effect.coherent_default {admin sme : Address}
    (h : Effect env S (.recordDefault admin sme) T) (hS : S.Coherent) :
    T.Coherent ↔ S.Vouched sme := by
  obtain ⟨profile, reputation, hprofile, hverifier, hstake, hreputation⟩ := h.writes
  have hvouched : S.Vouched sme ↔ S.verifier profile.verifier = true := by
    simp only [Storage.Vouched, hprofile, Option.some.injEq, forall_eq']
  have hset : T.verifierReputation profile.verifier = some reputation := by
    rw [hreputation, Function.update_self]
  rw [hvouched]
  constructor
  · intro hT
    rw [← hverifier]
    exact (hT profile.verifier).2.mpr (Option.isSome_of_eq_some hset)
  · intro hflag v
    rw [hverifier, hstake]
    refine ⟨(hS v).1, ?_⟩
    by_cases hv : v = profile.verifier
    · subst hv
      exact iff_of_true hflag (Option.isSome_of_eq_some hset)
    · rw [hreputation, Function.update_of_ne hv]
      exact (hS v).2

theorem coherent_step {d : Deployment} {w : World} (a : Action) (hw : w.riskRegistry.Coherent) :
    (step d w a).riskRegistry.Coherent ↔ DefaultsVouched d w a := by
  have hquietly : recordedDefault d w a = none → DefaultsVouched d w a := by
    intro hnone sme hsme
    cases hnone.symm.trans hsme
  have hrecords : ∀ {sme}, recordedDefault d w a = some sme →
      (DefaultsVouched d w a ↔ w.riskRegistry.Vouched sme) := by
    intro sme hsme
    simp only [DefaultsVouched, hsme, Option.some.injEq, forall_eq']
  cases registry_step d w a with
  | rest _ hnone hsame => exact iff_of_true (by rwa [hsame]) (hquietly hnone)
  | marked env admin i token sme hp hsme h =>
    have hrecorded : recordedDefault d w a = some sme := by simp only [recordedDefault, hp, hsme]
    rw [hrecords hrecorded]
    exact h.coherent_default hw
  | own env op hp h =>
    by_cases hdefault : ∃ admin sme, op = .recordDefault admin sme
    · obtain ⟨admin, sme, rfl⟩ := hdefault
      have hrecorded : recordedDefault d w a = some sme := by simp only [recordedDefault, hp]
      rw [hrecords hrecorded]
      exact h.coherent_default hw
    · push Not at hdefault
      have hnone : recordedDefault d w a = none := by
        cases op with
        | recordDefault admin sme => exact absurd rfl (hdefault admin sme)
        | _ => simp only [recordedDefault, hp]
      refine iff_of_true ?_ (hquietly hnone)
      by_cases hquiet : op.Quiet
      · exact (quiet_step hquiet hp).coherent hw
      · exact h.coherent hquiet hdefault hw

end Steps

/-! ## Runs -/

/-- **The records of the verifiers are coherent**: in every state of a run, each address has all of
flag, stake and reputation or none of them, exactly when every default that the run records is of
an SME whose verifier is still one. -/
theorem coherent_iff (d : Deployment) (start : ℕ) (tokens : Tokens) (as : List Action) :
    (∀ p, p <+: as → (run (step d) (genesis start tokens) p).riskRegistry.Coherent) ↔
      Along (step d) (DefaultsVouched d) (genesis start tokens) as :=
  forall_prefix_iff (I := fun _ : World => True) (Q := fun w => w.riskRegistry.Coherent)
    (fun _ _ _ => trivial) (fun _ a _ hw => coherent_step a hw) trivial
    fun _ => ⟨iff_of_false nofun nofun, iff_of_false nofun nofun⟩

/-- Verifier `6` is removed, and then a default of its SME `2` is recorded. -/
def removedVerifier : List Action := sampleSetup "USDC" ++ [
  signed 1 (.riskRegistry (.removeVerifier 1 6)),
  signed 1 (.riskRegistry (.recordDefault 1 2))]

/-- The removed verifier has a reputation again. -/
theorem reputation_left : ¬ ∀ (d : Deployment) (start : ℕ) (tokens : Tokens) (as : List Action),
    (run (step d) (genesis start tokens) as).riskRegistry.Coherent := by
  intro h
  exact absurd (h sample 0 sampleTokens removedVerifier 6).2 (by decide +kernel)

end Kora.RiskRegistry
