import Kora.Lib.Run
import Kora.Lib.StakeAccount
import Kora.System.Registry

set_option autoImplicit false

/-!
# The stakes of the verifiers

`add_verifier` stores the new stake over the recorded one, and `remove_verifier` forgets a stake
that slashing has driven below zero.

* `depositsIn`, `slashedIn`, `returnedIn`: what a step transfers from and to a verifier, and what it
  slashes;
* `KeepsStake`: the steps that lose nothing;
* `stake_step`: what one step of the system does to a stake;
* `stakeAccount_step`: it is one step of a stake account;
* **`stakes_conserved_iff`**: no stake is lost exactly when every step of the run loses nothing.
-/

namespace Kora.RiskRegistry

open Exec Run

/-! ## Statement -/

/-- What the transfers of a step move from one account to another. -/
def moved (d : Deployment) (src dst : Address) (w : World) (a : Action) : ℤ :=
  (((newTransfers w (step d w a)).filter fun t => t.src = src ∧ t.dst = dst).map
    Transfer.amount).sum

/-- What a verifier transfers to the registry when it is added. -/
def depositsIn (d : Deployment) (v : Address) (w : World) (a : Action) : ℤ :=
  match performed d w a with
  | some (_, .riskRegistry (.addVerifier _ _ _)) => moved d v d.riskRegistry w a
  | _ => 0

/-- What the registry transfers to a verifier when it is removed. -/
def returnedIn (d : Deployment) (v : Address) (w : World) (a : Action) : ℤ :=
  match performed d w a with
  | some (_, .riskRegistry (.removeVerifier _ _)) => moved d d.riskRegistry v w a
  | _ => 0

/-- What is slashed from a verifier, by whichever entry point records the default. -/
def slashedIn (d : Deployment) (v : Address) (w : World) (a : Action) : ℤ :=
  match recordedDefault d w a with
  | some sme =>
    if (w.riskRegistry.smeProfile sme).map SmeProfile.verifier = some v then w.riskRegistry.slash v
    else 0
  | none => 0

/-- The three together. -/
def stakeMoves (d : Deployment) (v : Address) (w : World) (a : Action) : ℤ × ℤ × ℤ :=
  (depositsIn d v w a, slashedIn d v w a, returnedIn d v w a)

/-- The step loses no stake of the verifier: it is added while no stake is recorded for it, and
removed while the recorded stake is not negative. -/
def KeepsStake (d : Deployment) (v : Address) (w : World) (a : Action) : Prop :=
  match performed d w a with
  | some (_, .riskRegistry (.addVerifier _ verifier _)) =>
    verifier = v → w.riskRegistry.stake v = 0
  | some (_, .riskRegistry (.removeVerifier _ verifier)) =>
    verifier = v → 0 ≤ w.riskRegistry.stake v
  | _ => True

/-! ## Steps -/

/-- The stake account of a verifier. -/
def stakeAccount (v : Address) (w : World) (m : ℤ × ℤ × ℤ) : StakeAccount :=
  ⟨w.riskRegistry.stake v, m.1, m.2.1, m.2.2⟩

section Steps

variable {d : Deployment} {v : Address} {w : World} {m : ℤ × ℤ × ℤ} {a : Action}

theorem moved_of_move {token src dst src' dst' : Address} {amount : ℤ}
    (h : (step d w a).tokens = w.tokens.move token src dst amount) :
    moved d src' dst' w a = if src = src' ∧ dst = dst' then amount else 0 := by
  rw [moved, newTransfers_of_move h]
  by_cases hends : src = src' ∧ dst = dst'
  · simp [hends]
  · rw [if_neg hends, List.filter_cons_of_neg (by simpa using hends)]
    rfl

/-- **The deposit** is the stake that the verifier is added with. -/
theorem depositsIn_of_addVerifier {env : Env} {admin verifier : Address} {x : ℤ}
    (hp : performed d w a = some (env, .riskRegistry (.addVerifier admin verifier x))) :
    depositsIn d v w a = if verifier = v then x else 0 := by
  obtain ⟨rfl, h⟩ := performed_exec hp
  obtain ⟨-, -, token, -, hmove⟩ := addVerifier_ok h
  simp only [depositsIn, hp]
  rw [moved_of_move hmove]
  simp

/-- **What is returned** is the stake that is recorded for the verifier. -/
theorem returnedIn_of_removeVerifier {env : Env} {admin verifier : Address}
    (hp : performed d w a = some (env, .riskRegistry (.removeVerifier admin verifier))) :
    returnedIn d v w a = if verifier = v then max 0 (w.riskRegistry.stake v) else 0 := by
  obtain ⟨rfl, h⟩ := performed_exec hp
  simp only [returnedIn, hp]
  obtain ⟨-, ⟨hpos, token, -, hmove⟩ | ⟨hle, hsame⟩⟩ := removeVerifier_ok h
  · rw [moved_of_move hmove]
    by_cases hv : verifier = v
    · subst hv
      simp [hpos.le]
    · simp [hv]
  · rw [moved, newTransfers_of_same hsame]
    by_cases hv : verifier = v
    · subst hv
      simp [hle]
    · simp [hv]

/-- The account takes a step under a condition that `KeepsStake` spells out. -/
def Moves (d : Deployment) (v : Address) (w : World) (m : ℤ × ℤ × ℤ) (a : Action) : Prop :=
  ∃ C, StakeAccount.Step (stakeAccount v w m)
    (stakeAccount v (step d w a) (m + stakeMoves d v w a)) C ∧ (KeepsStake d v w a ↔ C)

theorem stake_congr {S T : Storage} (h : T.verifierStake v = S.verifierStake v) :
    T.stake v = S.stake v := by
  rw [Storage.stake, Storage.stake, h]

theorem stake_some {T : Storage} {x : ℤ} (h : T.verifierStake v = some x) : T.stake v = x := by
  rw [Storage.stake, h]
  rfl

theorem stake_none {T : Storage} (h : T.verifierStake v = none) : T.stake v = 0 := by
  rw [Storage.stake, h]
  rfl

theorem Effect.slashes {env : Env} {S T : Storage} {admin sme : Address}
    (h : Effect env S (.recordDefault admin sme) T) : ∃ profile, S.smeProfile sme = some profile ∧
      T.stake v = S.stake v - if profile.verifier = v then S.slash v else 0 := by
  cases h with
  | rest _ _ hquiet => exact hquiet.elim
  | recordDefault _ _ profile reputation log ha hadmin hprofile =>
    refine ⟨profile, hprofile, ?_⟩
    by_cases hv : profile.verifier = v
    · subst hv
      rw [if_pos rfl]
      by_cases hpos : 0 < S.stake profile.verifier
      · refine stake_some ?_
        rw [if_pos hpos]
        exact Function.update_self ..
      · have hslash : S.slash profile.verifier = 0 := if_neg hpos
        rw [hslash, sub_zero]
        exact stake_congr (congrFun (if_neg hpos) _)
    · rw [if_neg hv, sub_zero]
      refine stake_congr ?_
      by_cases hpos : 0 < S.stake profile.verifier
      · rw [if_pos hpos]
        exact Function.update_of_ne (Ne.symm hv) ..
      · rw [if_neg hpos]

/-- The entry point neither adds nor removes the verifier. -/
def Spares (v : Address) : Entry → Prop
  | .riskRegistry (.addVerifier _ verifier _) => verifier ≠ v
  | .riskRegistry (.removeVerifier _ verifier) => verifier ≠ v
  | _ => True

/-- The step neither adds nor removes the verifier. -/
def Untouched (d : Deployment) (v : Address) (w : World) (a : Action) : Prop :=
  ∀ env e, performed d w a = some (env, e) → Spares v e

theorem Untouched.of_performed {env : Env} {e : Entry} (hp : performed d w a = some (env, e))
    (he : Spares v e) : Untouched d v w a := by
  intro env' e' h
  obtain ⟨-, rfl⟩ := Prod.mk.inj (Option.some.inj (hp.symm.trans h))
  exact he

theorem Untouched.depositsIn_eq (h : Untouched d v w a) : depositsIn d v w a = 0 := by
  rw [depositsIn]
  split
  · rename_i hp
    have hdeposit := depositsIn_of_addVerifier (v := v) hp
    rw [if_neg (h _ _ hp), depositsIn] at hdeposit
    simpa only [hp] using hdeposit
  · rfl

theorem Untouched.returnedIn_eq (h : Untouched d v w a) : returnedIn d v w a = 0 := by
  rw [returnedIn]
  split
  · rename_i hp
    have hreturned := returnedIn_of_removeVerifier (v := v) hp
    rw [if_neg (h _ _ hp), returnedIn] at hreturned
    simpa only [hp] using hreturned
  · rfl

theorem Untouched.keepsStake (h : Untouched d v w a) : KeepsStake d v w a := by
  unfold KeepsStake
  split
  · rename_i hp
    exact fun hv => absurd hv (h _ _ hp)
  · rename_i hp
    exact fun hv => absurd hv (h _ _ hp)
  · trivial

theorem slashedIn_eq_zero (h : recordedDefault d w a = none) : slashedIn d v w a = 0 := by
  simp only [slashedIn, h]

/-- What a step does to the stake of a verifier. -/
inductive StakeStep (d : Deployment) (v : Address) (w : World) (a : Action) (stake : ℤ) : Prop
  /-- A deposit replaces it. -/
  | deposit (env : Env) (admin : Address) (x : ℤ) :
      performed d w a = some (env, .riskRegistry (.addVerifier admin v x)) → 0 ≤ x → stake = x →
      StakeStep d v w a stake
  /-- It is returned. -/
  | close (env : Env) (admin : Address) :
      performed d w a = some (env, .riskRegistry (.removeVerifier admin v)) → stake = 0 →
      StakeStep d v w a stake
  /-- A default takes its share. -/
  | slash (sme : Address) (profile : SmeProfile) : Untouched d v w a →
      recordedDefault d w a = some sme → w.riskRegistry.smeProfile sme = some profile →
      profile.verifier = v → stake = w.riskRegistry.stake v - w.riskRegistry.slash v →
      StakeStep d v w a stake
  /-- It stays. -/
  | idle : Untouched d v w a → slashedIn d v w a = 0 → stake = w.riskRegistry.stake v →
      StakeStep d v w a stake

theorem StakeStep.of_default {env : Env} {admin sme : Address} {T : Storage}
    (hrecorded : recordedDefault d w a = some sme) (huntouched : Untouched d v w a)
    (h : Effect env w.riskRegistry (.recordDefault admin sme) T) :
    StakeStep d v w a (T.stake v) := by
  obtain ⟨profile, hprofile, hstake⟩ := h.slashes (v := v)
  by_cases hv : profile.verifier = v
  · rw [if_pos hv] at hstake
    exact .slash sme profile huntouched hrecorded hprofile hv hstake
  · rw [if_neg hv, sub_zero] at hstake
    refine .idle huntouched ?_ hstake
    simp only [slashedIn, hrecorded, hprofile, Option.map_some, Option.some.injEq, if_neg hv]

theorem stake_step (d : Deployment) (v : Address) (w : World) (a : Action) :
    StakeStep d v w a ((step d w a).riskRegistry.stake v) := by
  cases registry_step d w a with
  | marked env admin i token sme hp hsme h =>
    exact .of_default (by simp only [recordedDefault, hp, hsme]) (.of_performed hp trivial) h
  | rest hnot hnone hsame =>
    refine .idle (fun env e hp => ?_) (slashedIn_eq_zero hnone) (by rw [hsame])
    cases e with
    | riskRegistry op => exact absurd hp (hnot env op)
    | _ => trivial
  | own env op hp h =>
    generalize hT : (step d w a).riskRegistry = T at h ⊢
    cases h with
    | addVerifier admin verifier stake log hadmin =>
      by_cases hv : verifier = v
      · subst hv
        exact .deposit env admin stake hp (addVerifier_ok (performed_exec hp).2).2.1
          (stake_some (Function.update_self ..))
      · exact .idle (.of_performed hp hv) (slashedIn_eq_zero (by simp only [recordedDefault, hp]))
          (stake_congr (Function.update_of_ne (Ne.symm hv) ..))
    | removeVerifier admin verifier log =>
      by_cases hv : verifier = v
      · subst hv
        exact .close env admin hp (stake_none (Function.update_self ..))
      · exact .idle (.of_performed hp hv) (slashedIn_eq_zero (by simp only [recordedDefault, hp]))
          (stake_congr (Function.update_of_ne (Ne.symm hv) ..))
    | recordDefault admin sme profile reputation log ha hadmin hprofile =>
      exact .of_default (by simp only [recordedDefault, hp]) (.of_performed hp trivial)
        (.recordDefault admin sme profile reputation log ha hadmin hprofile)
    | registerSme | updateSmeScore | setCreditLimit | incrementInvoiceCount =>
      exact .idle (.of_performed hp trivial)
        (slashedIn_eq_zero (by simp only [recordedDefault, hp])) rfl
    | rest op T hquiet hstake =>
      cases op with
      | initializeContract | transferAdmin | setDebtorScore =>
        exact .idle (.of_performed hp trivial)
          (slashedIn_eq_zero (by simp only [recordedDefault, hp]))
          (stake_congr (congrFun hstake v))
      | _ => exact hquiet.elim

/-- **A step of the system is a step of the stake account.** -/
theorem stakeAccount_step (d : Deployment) (v : Address) (w : World) (m : ℤ × ℤ × ℤ) (a : Action) :
    Moves d v w m a := by
  unfold Moves stakeAccount
  cases stake_step d v w a with
  | deposit env admin x hp _ hstake =>
    have hmoves : stakeMoves d v w a = (x, 0, 0) := by
      rw [stakeMoves, depositsIn_of_addVerifier hp, if_pos rfl]
      simp only [slashedIn, returnedIn, recordedDefault, hp]
    have hkeeps : KeepsStake d v w a ↔ w.riskRegistry.stake v = 0 := by
      simp only [KeepsStake, hp, true_implies]
    refine ⟨_, ?_, hkeeps⟩
    rw [hstake, hmoves]
    simpa using StakeAccount.Step.deposit x
  | close env admin hp hstake =>
    have hmoves : stakeMoves d v w a = (0, 0, max 0 (w.riskRegistry.stake v)) := by
      rw [stakeMoves, returnedIn_of_removeVerifier hp, if_pos rfl]
      simp only [slashedIn, depositsIn, recordedDefault, hp]
    have hkeeps : KeepsStake d v w a ↔ 0 ≤ w.riskRegistry.stake v := by
      simp only [KeepsStake, hp, true_implies]
    refine ⟨_, ?_, hkeeps⟩
    rw [hstake, hmoves]
    simpa using StakeAccount.Step.close
  | slash sme profile huntouched hrecorded hprofile hv hstake =>
    have hslashed : slashedIn d v w a = w.riskRegistry.slash v := by
      simp only [slashedIn, hrecorded, hprofile, Option.map_some, hv, if_true]
    refine ⟨True, ?_, iff_of_true huntouched.keepsStake trivial⟩
    rw [hstake, stakeMoves, huntouched.depositsIn_eq, huntouched.returnedIn_eq, hslashed]
    simpa using StakeAccount.Step.slash (w.riskRegistry.slash v)
  | idle huntouched hslashed hstake =>
    refine ⟨True, ?_, iff_of_true huntouched.keepsStake trivial⟩
    rw [hstake, stakeMoves, huntouched.depositsIn_eq, huntouched.returnedIn_eq, hslashed]
    simpa using StakeAccount.Step.idle

theorem conserved_step (d : Deployment) (v : Address) (w : World) (m : ℤ × ℤ × ℤ) (a : Action)
    (h : (stakeAccount v w m).Conserved) :
    (stakeAccount v (step d w a) (m + stakeMoves d v w a)).Conserved ↔ KeepsStake d v w a := by
  obtain ⟨C, hstep, hC⟩ := stakeAccount_step d v w m a
  rw [hC]
  exact hstep.conserved_iff h

end Steps

/-! ## Runs -/

/-- **Stake conservation**: in every state of a run, what each verifier has deposited is what is
recorded for it together with what was slashed from it and returned to it, exactly when no step of
the run adds a verifier whose stake is still recorded or removes one whose stake is negative. -/
theorem stakes_conserved_iff (d : Deployment) (start : ℕ) (tokens : Tokens) (as : List Action) :
    (∀ p, p <+: as → ∀ v, tally (step d) (depositsIn d v) (genesis start tokens) p =
        (run (step d) (genesis start tokens) p).riskRegistry.stake v +
          tally (step d) (slashedIn d v) (genesis start tokens) p +
          tally (step d) (returnedIn d v) (genesis start tokens) p) ↔
      Along (step d) (fun w a => ∀ v, KeepsStake d v w a) (genesis start tokens) as := by
  have hverifier : ∀ v, _ ↔ _ := fun v => @forall_prefix_iff _ _
    (counted (step d) (stakeMoves d v)) (fun _ => True)
    (fun s => (stakeAccount v s.1 s.2).Conserved) (fun s => KeepsStake d v s.1)
    (fun _ _ _ => trivial) (fun s a _ hs => conserved_step d v s.1 s.2 a hs)
    (genesis start tokens, 0) as trivial rfl
  have hsum : ∀ v p, tally (step d) (stakeMoves d v) (genesis start tokens) p =
      (tally (step d) (depositsIn d v) (genesis start tokens) p,
        tally (step d) (slashedIn d v) (genesis start tokens) p,
        tally (step d) (returnedIn d v) (genesis start tokens) p) :=
    fun v p => (tally_prod _ _ _ _).trans (congrArg _ (tally_prod _ _ _ _))
  simp only [along_counted, run_counted, zero_add, hsum] at hverifier
  rw [along_forall]
  constructor
  · exact fun h v => (hverifier v).mp fun p hp => h p hp v
  · exact fun h p hp v => (hverifier v).mpr (h v) p hp

/-- Verifier `6` is added with a stake of `100`, and again with one of `50`. -/
def stakeReplaced : List Action := sampleSetup "USDC" ++ [
  .call ⟨[1, 6], .riskRegistry (.addVerifier 1 6 100)⟩,
  .call ⟨[1, 6], .riskRegistry (.addVerifier 1 6 50)⟩]

/-- The first stake is no longer recorded, although nothing was slashed or returned. -/
theorem stakes_lost : ¬ ∀ (d : Deployment) (start : ℕ) (tokens : Tokens) (as : List Action) v,
    tally (step d) (depositsIn d v) (genesis start tokens) as =
      (run (step d) (genesis start tokens) as).riskRegistry.stake v +
        tally (step d) (slashedIn d v) (genesis start tokens) as +
        tally (step d) (returnedIn d v) (genesis start tokens) as := by
  intro h
  exact absurd (h sample 0 sampleTokens stakeReplaced 6) (by decide +kernel)

end Kora.RiskRegistry
