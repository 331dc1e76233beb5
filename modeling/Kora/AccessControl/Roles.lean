import Kora.System.Controls

set_option autoImplicit false

/-!
# One admin

The admin is stored twice, under its own key and as a role. The direct entry points keep the two in
step; the multisig executor hands the admin over without taking the role from the old admin, and
grants and revokes roles without looking at the admin.

* `oneAdmin_performed`: when an executed action keeps the two in step;
* **`oneAdmin_iff`**: every run.
-/

namespace Kora.AccessControl

open Exec Run

/-- Exactly the stored admin has the admin role. -/
def OneAdmin (S : Storage) : Prop := ∀ a, S.role a = some .admin ↔ S.admin = some a

/-- The action touches neither the admin nor its role. -/
def SparesAdmin (S : Storage) : AdminAction → Prop
  | .pause | .unpause => True
  | .grantRole target _ | .revokeRole target => S.admin ≠ some target
  | .transferAdmin newAdmin => S.admin = some newAdmin

/-- An executed proposal spares the admin. -/
def ExecutesSparing (S : Storage) : Op → Prop
  | .executeAction _ id => ∀ proposal, S.proposal id = some proposal → SparesAdmin S proposal.action
  | _ => True

/-- The multisig is only configured once there is an admin. -/
def AdminFirst (S : Storage) : Prop := S.multisigConfig ≠ none → S.admin ≠ none

section Steps

variable {env : Env} {S T : Storage} {op : Op}

theorem Performed.admin_ne_none {action : AdminAction} (h : Performed S action T)
    (hS : S.admin ≠ none) : T.admin ≠ none := by
  cases h with
  | transferAdmin newAdmin => exact Option.some_ne_none newAdmin
  | pause | unpause | grantRole | revokeRole => exact hS

theorem adminFirst_effect (hS : AdminFirst S) (h : Effect env S op T) : AdminFirst T := by
  unfold AdminFirst at hS ⊢
  cases h with
  | initializeContract | transferAdmin => simp
  | configureMultisig admin _ _ _ _ hadmin => simp [hadmin]
  | executeAction executor id config proposal T log hsigned _ _ _ _ hT =>
    have hadmin := hS (by simp [hsigned.configured])
    exact fun _ => hT.admin_ne_none hadmin
  | pause | unpause | grantRole | revokeRole | proposeAction | approveAction
  | proposeParameterChange | voteParameterChange | executeParameterChange => exact hS

theorem OneAdmin.update (hS : OneAdmin S) {target : Address} {r : Option Role}
    (hr : r ≠ some .admin) (htarget : S.admin ≠ some target) (a : Address) :
    Function.update S.role target r a = some .admin ↔ S.admin = some a := by
  rw [Function.update_apply]
  split_ifs with ha
  · subst ha
    exact iff_of_false hr htarget
  · exact hS a

theorem OneAdmin.of_update {target : Address} {r : Option Role} (hr : r ≠ some .admin)
    (h : ∀ a, Function.update S.role target r a = some .admin ↔ S.admin = some a) :
    S.admin ≠ some target := by
  intro htarget
  have hrole := (h target).mpr htarget
  rw [Function.update_self] at hrole
  exact hr hrole

/-- **An executed action keeps the admin unique exactly when it spares the admin.** -/
theorem oneAdmin_performed {action : AdminAction} (hS : OneAdmin S) (hadmin : S.admin ≠ none)
    (h : Performed S action T) : OneAdmin T ↔ SparesAdmin S action := by
  cases h with
  | pause => exact iff_of_true hS trivial
  | unpause => exact iff_of_true hS trivial
  | grantRole target n role hrole =>
    have hne : some role ≠ some Role.admin := by
      unfold roleOf at hrole
      split at hrole <;> cases hrole <;> simp
    exact ⟨OneAdmin.of_update hne, hS.update hne⟩
  | revokeRole target => exact ⟨OneAdmin.of_update nofun, hS.update nofun⟩
  | transferAdmin newAdmin =>
    obtain ⟨admin, hold⟩ := Option.ne_none_iff_exists'.mp hadmin
    unfold OneAdmin SparesAdmin
    simp only [Function.update_apply, Option.some.injEq, hold]
    constructor
    · intro h
      by_contra hne
      -- the old admin still has the role
      have hrole := (h admin).mp (by rw [if_neg hne]; exact (hS admin).mpr hold)
      exact hne hrole.symm
    · rintro rfl a
      split_ifs with ha
      · simp [ha]
      · rw [hS a, hold, Option.some.injEq]

/-- **An entry point keeps the admin unique exactly when it executes no action on the admin.** -/
theorem oneAdmin_effect (hfirst : AdminFirst S) (hS : OneAdmin S) (h : Effect env S op T) :
    OneAdmin T ↔ ExecutesSparing S op := by
  cases h with
  | initializeContract admin hnone =>
    refine iff_of_true (fun a => ?_) trivial
    simp only [Function.update_apply, Option.some.injEq]
    split_ifs with ha
    · simp [ha]
    · rw [hS a, hnone]
      exact iff_of_false nofun (Ne.symm ha)
  | grantRole admin target role log _ hadmin hrole htarget =>
    refine iff_of_true (hS.update (by simpa using hrole) ?_) trivial
    rw [hadmin]
    exact fun h => htarget (Option.some.inj h).symm
  | revokeRole admin target log _ hadmin hrole _ =>
    refine iff_of_true (hS.update nofun fun h => hrole ?_) trivial
    rw [(hS target).mpr h]
    rfl
  | transferAdmin admin newAdmin log _ hadmin hne =>
    refine iff_of_true (fun a => ?_) trivial
    simp only [Function.update_apply, Option.some.injEq]
    split_ifs with h₁ h₂
    · exact iff_of_false nofun fun h => hne (h₁.symm.trans h.symm)
    · simp [h₂]
    · rw [hS a, hadmin, Option.some.injEq]
      exact iff_of_false (Ne.symm h₁) (Ne.symm h₂)
  | executeAction executor id config proposal T log hsigned hp _ _ _ hT =>
    have hadmin := hfirst (by simp [hsigned.configured])
    have hiff := oneAdmin_performed (by exact hS) (by exact hadmin) hT
    constructor
    · intro h proposal' hp'
      rw [hp] at hp'
      cases hp'
      exact hiff.mp h
    · intro h
      exact hiff.mpr (h proposal hp)
  | pause | unpause | configureMultisig | proposeAction | approveAction | proposeParameterChange
  | voteParameterChange | executeParameterChange => exact iff_of_true hS trivial

end Steps

/-! ## Runs -/

section Runs

/-- An executed proposal of the step spares the admin. -/
def ActionSparesAdmin (d : Deployment) (w : World) (a : Action) : Prop :=
  ∀ op, Performs d w (.accessControl op) a → ExecutesSparing w.accessControl op

theorem oneAdmin_step {d : Deployment} {w : World} (hfirst : AdminFirst w.accessControl)
    (hw : OneAdmin w.accessControl) (a : Action) :
    OneAdmin (step d w a).accessControl ↔ ActionSparesAdmin d w a := by
  rcases accessControl_step d w a with ⟨c, op, rfl, hop, h⟩ | ⟨h, hnone⟩
  · rw [oneAdmin_effect hfirst hw h]
    constructor
    · intro hspares op' hop'
      cases hop.unique hop'
      exact hspares
    · intro hspares
      exact hspares op hop
  · rw [h]
    exact iff_of_true hw fun op hop => absurd hop (hnone op)

theorem adminFirst_step {d : Deployment} {w : World} (hw : AdminFirst w.accessControl)
    (a : Action) : AdminFirst (step d w a).accessControl := by
  rcases accessControl_step d w a with ⟨c, op, rfl, -, h⟩ | ⟨h, -⟩
  · exact adminFirst_effect hw h
  · rwa [h]

/-- **One admin**: in every state of a run exactly the stored admin has the admin role, exactly when
every proposal the multisig executes grants and revokes no role of the admin and transfers the
admin to the admin only. -/
theorem oneAdmin_iff (d : Deployment) (now : ℕ) (tokens : Tokens) (as : List Action) :
    (∀ p, p <+: as → OneAdmin (run (step d) (genesis now tokens) p).accessControl) ↔
      Along (step d) (ActionSparesAdmin d) (genesis now tokens) as :=
  forall_prefix_iff (I := fun w : World => AdminFirst w.accessControl)
    (Q := fun w => OneAdmin w.accessControl) (fun _ a hw => adminFirst_step hw a)
    (fun _ a hw hQ => oneAdmin_step hw hQ a) (fun h => absurd rfl h)
    (fun _ => iff_of_false nofun nofun)

/-- The multisig of signers `1` and `2` hands the admin over from `1` to `2`. -/
def handedOver : List Action := [
  signed 1 (.accessControl (.initializeContract 1)),
  signed 1 (.accessControl (.configureMultisig 1 [1, 2] 2)),
  signed 1 (.accessControl (.proposeAction 1 (.transferAdmin 2))),
  signed 2 (.accessControl (.approveAction 2 1)),
  signed 1 (.accessControl (.executeAction 1 1))]

/-- The old admin keeps the admin role. -/
theorem two_admins : ¬ ∀ (d : Deployment) (now : ℕ) (tokens : Tokens) (as : List Action),
    OneAdmin (run (step d) (genesis now tokens) as).accessControl := by
  intro h
  have hadmin := (h sample 0 sampleTokens handedOver 1).mp (by decide +kernel)
  have hnew : (run (step sample) (genesis 0 sampleTokens) handedOver).accessControl.admin =
      some 2 := by decide +kernel
  rw [hnew] at hadmin
  exact absurd hadmin (by decide)

end Runs

end Kora.AccessControl
