import Kora.RiskRegistry.Counters
import Kora.RiskRegistry.Stake

set_option autoImplicit false

/-!
# Slashing

`initialize` stores any slash percentage, and `record_default` takes that share of the stake of the
verifier. Above 10 000 bps the share exceeds the stake, and for a large stake the product leaves
`u128`.

* `SlashesSoundly`, `lastDeposit`: what a default should do, and what bounds the stake;
* `SlashFits`: the arithmetic of every default that can be recorded works out;
* `slashesSoundly_iff`: the two are the same in a state without negative stakes;
* **`slashing_iff`**: the same for the states of a run.
-/

namespace Kora.RiskRegistry

open Exec Run

/-! ## Statement -/

/-- The guards of `record_default` before its arithmetic. -/
structure Storage.Recordable (S : Storage) (admin sme : Address) (profile : SmeProfile)
    (percentage : ℕ) : Prop where
  admin : S.admin = some admin
  unlocked : S.lock = false
  profile : S.smeProfile sme = some profile
  percentage : S.slashPercentage = some percentage

/-- Recording a default succeeds. It takes its share of the stake of the verifier, rounded down and
no more than the stake, and nothing from the others. -/
def Storage.SlashesSoundly (S : Storage) : Prop :=
  ∀ env admin sme profile percentage, env.Authenticates admin →
    S.Recordable admin sme profile percentage →
    ∃ T, recordDefault admin sme env S = .ok () T ∧ ∀ v,
      T.stake v = S.stake v -
        (if profile.verifier = v then S.stake v * percentage / 10_000 else 0) ∧
      0 ≤ T.stake v ∧ T.stake v ≤ S.stake v

/-- The deposit that a step makes for a verifier. -/
def depositOf (d : Deployment) (v : Address) (w : World) (a : Action) : Option ℤ :=
  match performed d w a with
  | some (_, .riskRegistry (.addVerifier _ verifier stake)) =>
    if verifier = v then some stake else none
  | _ => none

/-- The last deposit of a verifier. -/
def lastDeposit (d : Deployment) (v : Address) (s : World) (as : List Action) : ℤ :=
  (latest (step d) (depositOf d v) s as).getD 0

/-- A deposit is an `i128`. -/
def DepositsI128 : Action → Prop
  | .call ⟨_, .riskRegistry (.addVerifier _ _ stake)⟩ => stake ≤ i128Max
  | _ => True

/-- For every SME whose default can be recorded, the counter has room, the product of the stake of
the verifier and the percentage is a `u128`, and what the percentage exceeds 10 000 bps by is less
than one unit of that stake. -/
def Storage.SlashFits (S : Storage) : Prop :=
  ∀ sme profile percentage, S.smeProfile sme = some profile →
    S.slashPercentage = some percentage → profile.defaults + 1 < 2 ^ 32 ∧
      S.stake profile.verifier * percentage < 2 ^ 128 ∧
      S.stake profile.verifier * ((percentage : ℤ) - 10_000) < 10_000

/-! ## One default -/

section State

variable {S : Storage} {v : Address}

/-- A share stays within the stake exactly when its excess is less than one unit. -/
theorem slash_le_iff {stake : ℤ} {percentage : ℕ} :
    stake * percentage / 10_000 ≤ stake ↔ stake * ((percentage : ℤ) - 10_000) < 10_000 := by
  rw [← Int.lt_add_one_iff, Int.ediv_lt_iff_lt_mul (by norm_num), mul_sub]
  constructor
  · intro h
    linarith
  · intro h
    linarith

theorem slash_eq {percentage : ℕ} (hstake : 0 ≤ S.stake v)
    (hpercentage : S.slashPercentage = some percentage) :
    S.slash v = S.stake v * percentage / 10_000 := by
  rw [Storage.slash, hpercentage]
  rcases hstake.eq_or_lt with h | h
  · rw [if_neg h.not_lt, ← h]
    simp
  · exact if_pos h

/-- The admin is set before the percentage, and the lock is free between two transactions. -/
def Storage.Ready (S : Storage) : Prop :=
  S.lock = false ∧ ∀ percentage, S.slashPercentage = some percentage → ∃ admin, S.admin = some admin

theorem Storage.SlashFits.accepts {admin sme : Address} {profile : SmeProfile} {percentage : ℕ}
    (h : S.SlashFits) (hS : S.Recordable admin sme profile percentage)
    (hstake : ∀ v, 0 ≤ S.stake v ∧ S.stake v ≤ i128Max) : S.AcceptsDefault admin sme := by
  obtain ⟨hdefaults, hproduct, hexcess⟩ := h sme profile percentage hS.profile hS.percentage
  obtain ⟨hnonneg, hmax⟩ := hstake profile.verifier
  refine ⟨hS.admin, hS.unlocked, profile, percentage, hS.profile, hdefaults, hS.percentage,
    fun _ => ⟨hproduct, _, checkI128_some.mpr ⟨rfl, ?_, ?_⟩⟩⟩
  · have hle : S.stake profile.verifier * percentage / 10_000 ≤ S.stake profile.verifier :=
      slash_le_iff.mpr hexcess
    have hmin : i128Min ≤ 0 := by decide
    omega
  · have hshare : 0 ≤ S.stake profile.verifier * percentage / 10_000 := by positivity
    omega

/-- **When defaults slash soundly**, in a state without negative stakes. -/
theorem slashesSoundly_iff (d : Deployment) (hready : S.Ready)
    (hstake : ∀ v, 0 ≤ S.stake v ∧ S.stake v ≤ i128Max) : S.SlashesSoundly ↔ S.SlashFits := by
  constructor
  · intro h sme profile percentage hprofile hpercentage
    obtain ⟨admin, hadmin⟩ := hready.2 percentage hpercentage
    have henv : (Env.mk d 0 (some admin) []).Authenticates admin := Or.inl rfl
    obtain ⟨T, hT, hslashed⟩ := h _ admin sme profile percentage henv
      ⟨hadmin, hready.1, hprofile, hpercentage⟩
    obtain ⟨-, -, -, profile', percentage', hprofile', hdefaults, hpercentage', hproduct⟩ :=
      recordDefault_isOk.mp (Outcome.isOk_iff.mpr ⟨(), T, hT⟩)
    obtain rfl := Option.some.inj (hprofile.symm.trans hprofile')
    obtain rfl := Option.some.inj (hpercentage.symm.trans hpercentage')
    obtain ⟨heq, hnonneg, -⟩ := hslashed profile.verifier
    rw [if_pos rfl] at heq
    refine ⟨hdefaults, ?_, slash_le_iff.mp (by omega)⟩
    rcases (hstake profile.verifier).1.eq_or_lt with hzero | hpos
    · rw [← hzero, zero_mul]
      norm_num
    · exact (hproduct hpos).1
  · intro h env admin sme profile percentage ha hS
    obtain ⟨_, T, hT⟩ := Outcome.isOk_iff.mp
      (recordDefault_isOk.mpr ⟨ha, h.accepts hS hstake⟩)
    obtain ⟨profile', hprofile', -⟩ := (recordDefault_effect hT).slashes (v := profile.verifier)
    obtain rfl := Option.some.inj (hS.profile.symm.trans hprofile')
    refine ⟨T, hT, fun v => ?_⟩
    obtain ⟨profile', hprofile', heq⟩ := (recordDefault_effect hT).slashes (v := v)
    obtain rfl := Option.some.inj (hS.profile.symm.trans hprofile')
    have hnonneg : 0 ≤ S.stake v := (hstake v).1
    rw [slash_eq hnonneg hS.percentage] at heq
    refine ⟨heq, ?_⟩
    by_cases hv : profile.verifier = v
    · subst hv
      have hle : S.stake profile.verifier * percentage / 10_000 ≤ S.stake profile.verifier :=
        slash_le_iff.mpr (h sme profile percentage hS.profile hS.percentage).2.2
      have hshare : 0 ≤ S.stake profile.verifier * percentage / 10_000 := by positivity
      rw [if_pos rfl] at heq
      omega
    · rw [if_neg hv, sub_zero] at heq
      exact ⟨heq ▸ hnonneg, heq.le⟩

end State

/-! ## Steps -/

section Steps

variable {d : Deployment} {v : Address} {w : World} {a : Action}

theorem Effect.ready {env : Env} {S T : Storage} {op : Op} (hquiet : ¬ op.Quiet)
    (h : Effect env S op T) (hS : S.Ready) : T.Ready := by
  cases h with
  | rest _ _ h => exact absurd h hquiet
  | updateSmeScore | recordDefault => exact ⟨rfl, hS.2⟩
  | addVerifier | removeVerifier | registerSme | setCreditLimit | incrementInvoiceCount => exact hS

theorem QuietEffect.ready {env : Env} {S T : Storage} {op : Op} (h : QuietEffect env S op T)
    (hS : S.Ready) : T.Ready := by
  cases h with
  | initializeContract admin => exact ⟨hS.1, fun _ _ => ⟨admin, rfl⟩⟩
  | transferAdmin admin newAdmin => exact ⟨hS.1, fun _ _ => ⟨newAdmin, rfl⟩⟩
  | setDebtorScore => exact hS

theorem ready_step (hw : w.riskRegistry.Ready) (a : Action) :
    (step d w a).riskRegistry.Ready := by
  cases registry_step d w a with
  | own env op hp h =>
    by_cases hquiet : op.Quiet
    · exact (quiet_step hquiet hp).ready hw
    · exact h.ready hquiet hw
  | marked env admin i token sme hp hsme h => exact h.ready id hw
  | rest _ _ hsame => rwa [hsame]

theorem Untouched.depositOf_eq (h : Untouched d v w a) : depositOf d v w a = none := by
  unfold depositOf
  split
  · rename_i hp
    exact if_neg (h _ _ hp)
  · rfl

/-- The stake lies between zero and the deposit. -/
def StakeWithin (v : Address) (w : World) (deposit : Option ℤ) : Prop :=
  0 ≤ w.riskRegistry.stake v ∧ w.riskRegistry.stake v ≤ deposit.getD 0

theorem stakeWithin_step {o : Option ℤ} (hw : StakeWithin v w o)
    (hfits : w.riskRegistry.SlashFits) :
    StakeWithin v (step d w a) ((depositOf d v w a).or o) := by
  obtain ⟨hnonneg, hle⟩ := hw
  unfold StakeWithin
  cases stake_step d v w a with
  | deposit env admin x hp hx hstake =>
    have hdeposit : depositOf d v w a = some x := by simp only [depositOf, hp, if_true]
    rw [hdeposit, hstake]
    exact ⟨hx, le_rfl⟩
  | close env admin hp hstake =>
    have hdeposit : depositOf d v w a = none := by simp only [depositOf, hp]
    rw [hdeposit, hstake]
    exact ⟨le_rfl, hnonneg.trans hle⟩
  | idle huntouched _ hstake =>
    rw [huntouched.depositOf_eq, hstake]
    exact ⟨hnonneg, hle⟩
  | slash sme profile huntouched _ hprofile hv hstake =>
    rw [huntouched.depositOf_eq, hstake, Option.none_or]
    subst hv
    cases hpercentage : w.riskRegistry.slashPercentage with
    | none =>
      have hslash : w.riskRegistry.slash profile.verifier = 0 := by
        simp [Storage.slash, hpercentage]
      omega
    | some percentage =>
      have hshare := slash_le_iff.mpr (hfits sme profile percentage hprofile hpercentage).2.2
      have hpos : 0 ≤ w.riskRegistry.stake profile.verifier * percentage / 10_000 := by positivity
      rw [← slash_eq hnonneg hpercentage] at hshare hpos
      omega

theorem depositOf_le {x : ℤ} (h : depositOf d v w a = some x) (ha : DepositsI128 a) :
    x ≤ i128Max := by
  rw [depositOf] at h
  split at h
  · rename_i hp
    obtain ⟨⟨signers, e⟩, rfl, -, rfl, -⟩ := performed_call hp
    split_ifs at h
    exact Option.some.inj h ▸ ha
  · cases h

end Steps

/-! ## Runs -/

section Runs

variable {d : Deployment} {start : ℕ} {tokens : Tokens} {as : List Action}

theorem lastDeposit_le (h : ∀ a ∈ as, DepositsI128 a) (v : Address) :
    lastDeposit d v (genesis start tokens) as ≤ i128Max := by
  have hlast : ((latest (step d) (depositOf d v) (genesis start tokens) as).or none).getD 0 ≤
      i128Max := by
    refine invariant_latest (I := fun _ o => o.getD 0 ≤ i128Max) (fun w o a ho ha => ?_)
      (by decide) (along_of_forall h)
    cases hdeposit : depositOf d v w a with
    | none => exact ho
    | some x => exact depositOf_le hdeposit ha
  rwa [Option.or_none] at hlast

theorem stakeWithin_run (h : ∀ p, p <+: as →
      (run (step d) (genesis start tokens) p).riskRegistry.SlashFits) (v : Address) :
    StakeWithin v (run (step d) (genesis start tokens) as)
      (latest (step d) (depositOf d v) (genesis start tokens) as) := by
  have halong : Along (step d) (fun w _ => w.riskRegistry.SlashFits) (genesis start tokens) as :=
    along_iff_forall.mpr fun p a hp => h p ((List.prefix_append p [a]).trans hp)
  have hend := invariant_latest (E := depositOf d v) (I := StakeWithin v) (v := none)
    (fun _ _ _ hw hfits => stakeWithin_step hw hfits) ⟨le_rfl, le_rfl⟩ halong
  rwa [Option.or_none] at hend

end Runs

/-- **Slashing is sound**: in every state of a run, every default that can be recorded takes its
share of the stake and no more, and every stake lies between zero and the last deposit, exactly
when in every state the arithmetic of every such default works out. -/
theorem slashing_iff (d : Deployment) (start : ℕ) (tokens : Tokens) (as : List Action)
    (htyped : ∀ a ∈ as, DepositsI128 a) :
    (∀ p, p <+: as →
        (run (step d) (genesis start tokens) p).riskRegistry.SlashesSoundly ∧
        ∀ v, 0 ≤ (run (step d) (genesis start tokens) p).riskRegistry.stake v ∧
          (run (step d) (genesis start tokens) p).riskRegistry.stake v ≤
            lastDeposit d v (genesis start tokens) p) ↔
      ∀ p, p <+: as → (run (step d) (genesis start tokens) p).riskRegistry.SlashFits := by
  have hready : ∀ p, (run (step d) (genesis start tokens) p).riskRegistry.Ready :=
    always (I := fun w : World => w.riskRegistry.Ready) (fun _ a hw => ready_step hw a)
      ⟨rfl, nofun⟩
  have hmax : ∀ p, p <+: as → ∀ v, lastDeposit d v (genesis start tokens) p ≤ i128Max :=
    fun p hp => lastDeposit_le fun a ha => htyped a (hp.subset ha)
  constructor
  · intro h p hp
    obtain ⟨hsound, hwithin⟩ := h p hp
    refine (slashesSoundly_iff d (hready p) fun v => ?_).mp hsound
    exact ⟨(hwithin v).1, (hwithin v).2.trans (hmax p hp v)⟩
  · intro h p hp
    have hwithin := stakeWithin_run fun q hq => h q (hq.trans hp)
    refine ⟨(slashesSoundly_iff d (hready p) fun v => ?_).mpr (h p hp), hwithin⟩
    exact ⟨(hwithin v).1, (hwithin v).2.trans (hmax p hp v)⟩

/-- The sample deployment with a slash percentage of 20 000 bps. Verifier `6`, of SME `2`, deposits
`100`. -/
def overSlashed : List Action := [
  signed 1 (.riskRegistry (.initializeContract 1 102 50 0 20_000)),
  .call ⟨[1, 6], .riskRegistry (.addVerifier 1 6 100)⟩,
  signed 6 (.riskRegistry (.registerSme 6 2 50 true)),
  signed 1 (.riskRegistry (.recordDefault 1 2))]

theorem overSlashed_typed : ∀ a ∈ overSlashed, DepositsI128 a := by
  simp [overSlashed, signed, DepositsI128, i128Max]

/-- Before the default, nothing fits: the excess of the percentage is the whole stake. -/
theorem slashing_excess : ¬ ∀ p, p <+: overSlashed →
    (run (step sample) (genesis 0 sampleTokens) p).riskRegistry.SlashFits := by
  intro h
  have hend := (slashing_iff sample 0 sampleTokens overSlashed overSlashed_typed).mpr h overSlashed
    (List.prefix_refl _)
  exact absurd (hend.2 6).1 (by decide +kernel)

/-- The default leaves a stake of `-100`. -/
theorem slash_negative : ¬ ∀ (d : Deployment) (start : ℕ) (tokens : Tokens) (as : List Action),
    (∀ a ∈ as, DepositsI128 a) →
    (run (step d) (genesis start tokens) as).riskRegistry.SlashesSoundly ∧
      ∀ v, 0 ≤ (run (step d) (genesis start tokens) as).riskRegistry.stake v ∧
        (run (step d) (genesis start tokens) as).riskRegistry.stake v ≤
          lastDeposit d v (genesis start tokens) as := by
  intro h
  exact absurd ((h sample 0 sampleTokens overSlashed overSlashed_typed).2 6).1 (by decide +kernel)

end Kora.RiskRegistry
