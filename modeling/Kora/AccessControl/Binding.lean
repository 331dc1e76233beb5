import Kora.AccessControl.Roles

set_option autoImplicit false

/-!
# What the multisig binds

Configuring the multisig does not close the direct entry points: the admin key alone still pauses,
unpauses, grants, revokes and hands the admin over.

* `configured_iff`: the configuration is there exactly when it was set in the run;
* `authority_effect`: which direct entry points leave the authority alone;
* **`binding_iff`**: every run.
-/

namespace Kora.AccessControl

open Exec Run

/-- The pause flag, the roles and the admin are the same. -/
structure SameAuthority (S T : Storage) : Prop where
  paused : T.paused.getD false = S.paused.getD false
  role : T.role = S.role
  admin : T.admin = S.admin

/-- The entry point is no direct exercise of authority, unless it grants a role again. -/
def Op.Harmless (S : Storage) : Op → Prop
  | .pause _ | .unpause _ | .revokeRole .. | .transferAdmin .. => False
  | .grantRole _ target role => S.role target = some role
  | _ => True

/-- The step configures the multisig. -/
def Configures (d : Deployment) (w : World) (a : Action) : Prop :=
  ∃ admin signers threshold,
    Performs d w (.accessControl (.configureMultisig admin signers threshold)) a

/-- The step executes a proposal that reached the threshold. -/
def ByMultisig (d : Deployment) (w : World) (a : Action) : Prop :=
  ∃ executor id config proposal, Performs d w (.accessControl (.executeAction executor id)) a ∧
    w.accessControl.multisigConfig = some config ∧ w.accessControl.proposal id = some proposal ∧
    config.threshold ≤ proposal.approvals.length

/-- Once the multisig is configured, no direct exercise of authority succeeds. -/
def NoSingleKey (d : Deployment) (w : World) (a : Action) : Prop :=
  w.accessControl.multisigConfig ≠ none →
    ∀ op, Performs d w (.accessControl op) a → op.Harmless w.accessControl

section Steps

variable {env : Env} {S T : Storage} {op : Op} {d : Deployment} {w : World}

theorem SameAuthority.refl (S : Storage) : SameAuthority S S := ⟨rfl, rfl, rfl⟩

/-- **Other than by an execution, the authority of a configured contract is left alone exactly by
the harmless entry points.** -/
theorem authority_effect (hfirst : AdminFirst S) (hconfig : S.multisigConfig ≠ none)
    (hop : ∀ executor id, op ≠ .executeAction executor id) (h : Effect env S op T) :
    SameAuthority S T ↔ op.Harmless S := by
  cases h with
  | initializeContract admin hnone => exact absurd hnone (hfirst hconfig)
  | pause admin log _ _ hpaused =>
    refine iff_of_false (fun h => ?_) id
    have hflag : true = S.paused.getD false := h.paused
    rw [hpaused] at hflag
    cases hflag
  | unpause admin log _ _ hpaused =>
    refine iff_of_false (fun h => ?_) id
    have hflag : false = S.paused.getD false := h.paused
    rw [hpaused] at hflag
    cases hflag
  | grantRole admin target role =>
    constructor
    · intro h
      have hrole : Function.update S.role target (some role) target = S.role target :=
        congrFun h.role target
      rw [Function.update_self] at hrole
      exact hrole.symm
    · intro h
      refine ⟨rfl, ?_, rfl⟩
      change S.role target = some role at h
      change Function.update S.role target (some role) = S.role
      rw [← h, Function.update_eq_self]
  | revokeRole admin target log _ _ _ hrole =>
    refine iff_of_false (fun h => hrole ?_) id
    have hnone : Function.update S.role target none target = S.role target :=
      congrFun h.role target
    rw [Function.update_self] at hnone
    rw [← hnone]
    rfl
  | transferAdmin admin newAdmin log _ hadmin hne =>
    refine iff_of_false (fun h => hne ?_) id
    have hsame : some newAdmin = S.admin := h.admin
    rw [hadmin, Option.some.injEq] at hsame
    exact hsame.symm
  | executeAction executor id => exact absurd rfl (hop executor id)
  | configureMultisig | proposeAction | approveAction | proposeParameterChange
  | voteParameterChange | executeParameterChange => exact iff_of_true ⟨rfl, rfl, rfl⟩ trivial

/-- **One step is bound exactly when no direct exercise of authority succeeds.** -/
theorem binding_step (hfirst : AdminFirst w.accessControl) (a : Action) :
    (w.accessControl.multisigConfig ≠ none →
      ¬ SameAuthority w.accessControl (step d w a).accessControl → ByMultisig d w a) ↔
    NoSingleKey d w a := by
  refine forall_congr' fun hconfig => ?_
  rcases accessControl_step d w a with ⟨c, op, rfl, hop, h⟩ | ⟨h, hnone⟩
  · by_cases hexec : ∃ executor id, op = .executeAction executor id
    · obtain ⟨executor, id, rfl⟩ := hexec
      generalize (step d w (.call c)).accessControl = T at h
      cases h with
      | executeAction _ _ config proposal _ _ hsigned hp _ _ hquorum =>
        refine iff_of_true ?_ ?_
        · exact fun _ => ⟨executor, id, config, proposal, hop, hsigned.configured, hp, hquorum⟩
        · intro op' hop'
          cases hop.unique hop'
          trivial
    · have hne : ∀ executor id, op ≠ .executeAction executor id := by
        intro executor id he
        exact hexec ⟨executor, id, he⟩
      have hiff := authority_effect hfirst hconfig hne h
      constructor
      · intro hbound op' hop'
        cases hop.unique hop'
        by_contra hharm
        obtain ⟨executor, id, -, -, hexec', -⟩ := hbound (mt hiff.mp hharm)
        cases hop.unique hexec'
        exact hne executor id rfl
      · intro hkey hchange
        exact absurd (hiff.mpr (hkey op hop)) hchange
  · rw [h]
    exact iff_of_true (fun hchange => absurd (.refl _) hchange)
      fun op hop => absurd hop (hnone op)

/-- **The configuration is set by `configure_multisig` and never removed.** -/
theorem configured_step (d : Deployment) (w : World) (a : Action) :
    (step d w a).accessControl.multisigConfig ≠ none ↔
      w.accessControl.multisigConfig ≠ none ∨ Configures d w a := by
  rcases accessControl_step d w a with ⟨c, op, rfl, hop, h⟩ | ⟨h, hnone⟩
  · by_cases hconf : Configures d w (.call c)
    · obtain ⟨admin, signers, threshold, hop'⟩ := hconf
      cases hop.unique hop'
      refine iff_of_true ?_ (Or.inr ⟨admin, signers, threshold, hop'⟩)
      generalize (step d w (.call c)).accessControl = T at h
      cases h
      exact Option.some_ne_none _
    · rw [or_iff_left hconf]
      generalize (step d w (.call c)).accessControl = T at h
      cases h with
      | configureMultisig admin signers threshold =>
        exact absurd ⟨admin, signers, threshold, hop⟩ hconf
      | executeAction _ _ _ _ _ _ _ _ _ _ _ hT =>
        have hsame := hT.multisigConfig
        rw [show _ = w.accessControl.multisigConfig from hsame]
      | initializeContract | pause | unpause | grantRole | revokeRole | transferAdmin
      | proposeAction | approveAction | proposeParameterChange | voteParameterChange
      | executeParameterChange => exact Iff.rfl
  · rw [h]
    refine (or_iff_left ?_).symm
    rintro ⟨admin, signers, threshold, hop⟩
    exact hnone _ hop

end Steps

/-! ## Runs -/

section Runs

variable {d : Deployment} {now : ℕ} {tokens : Tokens} {as : List Action}

theorem configured_iff :
    (run (step d) (genesis now tokens) as).accessControl.multisigConfig ≠ none ↔
      Happened (step d) (Configures d) (genesis now tokens) as := by
  refine (happened_iff (I := fun _ => True)
    (Q := fun w : World => w.accessControl.multisigConfig ≠ none) (E := Configures d)
    (fun _ _ _ => trivial) (fun w a _ => configured_step d w a) trivial).trans (or_iff_right ?_)
  exact fun h => h rfl

theorem adminFirst_run (d : Deployment) (now : ℕ) (tokens : Tokens) (as : List Action) :
    AdminFirst (run (step d) (genesis now tokens) as).accessControl :=
  always (I := fun w : World => AdminFirst w.accessControl) (fun _ a hw => adminFirst_step hw a)
    (fun h => absurd rfl h) as

/-- **The multisig is binding**: in a run, every change of the pause flag, of a role or of the admin
after the multisig was configured is made by executing a proposal that reached the threshold,
exactly when after the configuration no direct call of `pause`, `unpause`, `revoke_role` or
`transfer_admin` succeeds, and none of `grant_role` other than for a role the target has. -/
theorem binding_iff (d : Deployment) (now : ℕ) (tokens : Tokens) (as : List Action) :
    (∀ p a, p ++ [a] <+: as → Happened (step d) (Configures d) (genesis now tokens) p →
      ¬ SameAuthority (run (step d) (genesis now tokens) p).accessControl
        (run (step d) (genesis now tokens) (p ++ [a])).accessControl →
      ByMultisig d (run (step d) (genesis now tokens) p) a) ↔
    Along (step d) (NoSingleKey d) (genesis now tokens) as := by
  rw [along_iff_forall]
  refine forall_congr' fun p => forall_congr' fun a => forall_congr' fun _ => ?_
  rw [← configured_iff, run_append]
  exact binding_step (adminFirst_run d now tokens p) a

/-- The admin configures a multisig of `2` and `3` and pauses the protocol alone. -/
def pausedAlone : List Action := [
  signed 1 (.accessControl (.initializeContract 1)),
  signed 1 (.accessControl (.configureMultisig 1 [2, 3] 2)),
  signed 1 (.accessControl (.pause 1))]

/-- The pause flag changes without the multisig. -/
theorem paused_without_multisig :
    ¬ ∀ (d : Deployment) (now : ℕ) (tokens : Tokens) (p : List Action) (a : Action),
      Happened (step d) (Configures d) (genesis now tokens) p →
      ¬ SameAuthority (run (step d) (genesis now tokens) p).accessControl
        (run (step d) (genesis now tokens) (p ++ [a])).accessControl →
      ByMultisig d (run (step d) (genesis now tokens) p) a := by
  intro h
  have hconf : Happened (step sample) (Configures sample) (genesis 0 sampleTokens)
      (pausedAlone.take 2) := configured_iff.mp (by decide +kernel)
  obtain ⟨executor, id, -, -, hop, -⟩ := h sample 0 sampleTokens (pausedAlone.take 2)
    (signed 1 (.accessControl (.pause 1))) hconf fun hsame => by
      have hflag := hsame.paused
      revert hflag
      decide +kernel
  cases hop.2

end Runs

end Kora.AccessControl
