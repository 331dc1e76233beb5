import Kora.Lib.Timelock
import Kora.System.Controls
import Kora.Treasury.Spec

set_option autoImplicit false

/-!
# Changes of the withdrawal cap

The cap is under a timelock: `proposeWithdrawalCap` proposes a value and `executeWithdrawalCap`
installs it.

* `State.caps`: the admin, the cap and the pending cap, which the other entry points leave alone;
* `CapStep`: a step of the timelock, which changes the cap by an execution or the initialisation;
* **`cap_step`**: a step of the system is one.
-/

namespace Kora.Treasury

open Exec

/-- The admin, the cap and the pending cap. -/
def Storage.caps (S : Storage) : Option Address × Option ℤ × Option (ℤ × ℕ) :=
  (S.admin, S.withdrawalCap, S.withdrawalCapProposal)

/-- The same, of the storage with the tokens. -/
def State.caps (s : State) : Option Address × Option ℤ × Option (ℤ × ℕ) := s.1.caps

/-! ## Frames -/

section Frames

/-! The helpers leave alone what does not see the keys they write. -/

variable {α τ : Type} {f : Storage → τ}

theorem frames_own {m : Body α} (hm : Frames f m) : Frames (fun s : State => f s.1) (own m) := by
  intro env s a t h
  obtain ⟨S, hS, rfl⟩ := own_ok.mp h
  exact hm env s.1 a S hS

theorem frames_callToken {m : Host Tokens α} : Frames (fun s : State => f s.1) (callToken m) := by
  unfold callToken
  refine Frames.bind (Frames.asks _) fun d => ?_
  intro env s a t h
  obtain ⟨T, -, rfl⟩ := Token.callFrom_ok.mp h
  rfl

theorem frames_guard {m : Host State α} (hlock : ∀ b S, f { S with lock := b } = f S)
    (hm : Frames (fun s : State => f s.1) m) : Frames (fun s : State => f s.1) (guard m) :=
  frames_guarded (fun b s => hlock b s.1) hm

theorem frames_enforceRateLimit {amount : ℤ}
    (hepoch : ∀ S start spent, f { S with epochStart := start, epochWithdrawn := spent } = f S) :
    Frames f (enforceRateLimit amount) := by
  intro env S a T h
  rcases enforceRateLimit_ok h with ⟨-, rfl⟩ | ⟨-, -, -, ⟨-, rfl⟩ | ⟨-, rfl⟩⟩
  · rfl
  · rfl
  · exact hepoch S _ _

theorem frames_recordWithdrawal {amount : ℤ}
    (hepoch : ∀ S start spent, f { S with epochStart := start, epochWithdrawn := spent } = f S) :
    Frames f (recordWithdrawal amount) := by
  intro env S a T h
  rcases recordWithdrawal_ok h with ⟨-, rfl⟩ | ⟨-, rfl⟩
  · rfl
  · exact hepoch S S.epochStart _

theorem frames_release {token : Address} {amount : ℤ}
    (hcollected : ∀ S c, f { S with collected := c } = f S) :
    Frames f (modify (fun S => match S.collected token with
      | some c => { S with
          collected := Function.update S.collected token (some (saturatingSub c amount)) }
      | none => S) : Body Unit) := by
  refine Frames.modify fun S => ?_
  cases S.collected token with
  | some c => exact hcollected S _
  | none => rfl

@[grind ←] theorem frames_appendAuditEntry {actor : Address} {action : AdminActionType} :
    Frames Storage.caps (appendAuditEntry actor action) := by
  intro env S a T h
  rw [← appendAuditEntry_ok.mp h]
  rfl

/-- The entry points that leave the cap and its proposal alone. -/
def Op.KeepsCap : Op → Prop
  | .initializeContract .. | .proposeWithdrawalCap .. | .executeWithdrawalCap .. => False
  | _ => True

theorem Op.frames_caps {op : Op} (hop : op.KeepsCap) : Frames State.caps op.exec := by
  change Frames (fun s : State => s.1.caps) op.exec
  cases op
  case initializeContract => exact hop.elim
  case proposeWithdrawalCap => exact hop.elim
  case executeWithdrawalCap => exact hop.elim
  all_goals simp only [exec, Treasury.setFeeBps, Treasury.whitelistToken, Treasury.collectFee,
    Treasury.withdraw, Treasury.emergencyWithdraw, requireAdmin, requireWhitelistedToken]
  all_goals
    repeat' first
      | with_reducible refine Frames.bind ?_ fun _ => ?_
      | with_reducible refine Frames.ite ?_ ?_
      | exact frames_release fun _ _ => rfl
      | exact frames_enforceRateLimit fun _ _ _ => rfl
      | exact frames_recordWithdrawal fun _ _ _ => rfl
      | with_reducible exact frames_callToken
      | with_reducible refine frames_own ?_
      | with_reducible refine frames_guard (fun _ _ => rfl) ?_
  all_goals grind [Storage.caps]

end Frames

/-! ## Entry points -/

section EntryPoints

variable {env : Env} {s t : State} {S T : Storage} {u : Unit}

/-- A step of the treasury, on the cap: a step of the timelock that changes the cap by an execution
or by the initialisation; the admin stays once there is one. -/
structure CapStep (now : ℕ) (S T : Storage) (proposed installed : Option ℤ) : Prop where
  timelock : TimelockStep upgradeTimelockDelay now S.withdrawalCapProposal proposed installed
    T.withdrawalCapProposal
  change : T.withdrawalCap = S.withdrawalCap ∨ installed = T.withdrawalCap ∨
    S.admin = none ∧ T.withdrawalCap = some 0
  unset : T.admin = none → S.admin = none ∧ T.withdrawalCap = S.withdrawalCap

theorem CapStep.of_caps {now : ℕ} (h : T.caps = S.caps) : CapStep now S T none none := by
  obtain ⟨hadmin, hcap, hpending⟩ : T.admin = S.admin ∧ T.withdrawalCap = S.withdrawalCap ∧
      T.withdrawalCapProposal = S.withdrawalCapProposal := by
    simpa [Storage.caps] using h
  refine ⟨?_, Or.inl hcap, fun hnone => ⟨hadmin ▸ hnone, hcap⟩⟩
  rw [hpending]
  exact .keep _

/-- The cap that an entry point proposes. -/
def Op.proposedCap : Op → Option ℤ
  | .proposeWithdrawalCap _ newCap => some newCap
  | _ => none

/-- The cap that an entry point installs; it is read off the storage it leaves. -/
def Op.installedCap (T : Storage) : Op → Option ℤ
  | .executeWithdrawalCap _ => T.withdrawalCap
  | _ => none

theorem Op.exec_cap {op : Op} (h : op.exec env s = .ok u t) :
    CapStep env.timestamp s.1 t.1 op.proposedCap (op.installedCap t.1) := by
  have hkeep : op.KeepsCap → t.1.caps = s.1.caps := fun hop => Op.frames_caps hop env s u t h
  cases op with
  | initializeContract admin feeBps =>
    obtain ⟨S, hS, rfl⟩ := own_ok.mp h
    obtain ⟨hnone, rfl⟩ := initializeContract_ok hS
    exact ⟨.keep _, Or.inr (Or.inr ⟨hnone, rfl⟩), nofun⟩
  | proposeWithdrawalCap admin newCap =>
    obtain ⟨S, hS, rfl⟩ := own_ok.mp h
    obtain rfl := proposeWithdrawalCap_ok hS
    exact ⟨.propose _ newCap, Or.inl rfl, fun hnone => ⟨hnone, rfl⟩⟩
  | executeWithdrawalCap admin =>
    obtain ⟨S, hS, rfl⟩ := own_ok.mp h
    obtain ⟨newCap, proposedAt, hadmin, hbefore, hle, rfl⟩ := executeWithdrawalCap_ok hS
    refine ⟨?_, Or.inr (Or.inl rfl), fun hnone => ?_⟩
    · rw [hbefore]
      exact .execute newCap proposedAt hle
    · cases hadmin.symm.trans hnone
  | setFeeBps | whitelistToken | collectFee | withdraw | emergencyWithdraw =>
    exact .of_caps (hkeep trivial)

end EntryPoints

/-! ## Steps -/

/-- The cap that a step proposes. -/
def proposesCap (d : Deployment) (w : World) : Action → Option ℤ
  | .call c => match c.entry with
    | .treasury op => if c.Succeeds d w then op.proposedCap else none
    | _ => none
  | .tick _ => none

/-- The cap that a step installs. -/
def installsCap (d : Deployment) (w : World) (a : Action) : Option ℤ :=
  match a with
  | .call c => match c.entry with
    | .treasury op => if c.Succeeds d w then op.installedCap (step d w a).treasury else none
    | _ => none
  | .tick _ => none

section Steps

variable {d : Deployment} {w : World}

theorem exec_caps {env : Env} {w' : World} {e : Entry} (ht : ∀ op, e ≠ .treasury op)
    (h : e.exec env w = .ok () w') : w'.treasury.caps = w.treasury.caps := by
  by_cases hac : ∃ op, e = .accessControl op
  · obtain ⟨op, rfl⟩ := hac
    obtain ⟨S, -, rfl⟩ := onAccessControl_ok.mp h
    rfl
  by_cases hr : ∃ op, e = .riskRegistry op
  · obtain ⟨op, rfl⟩ := hr
    obtain ⟨s, -, rfl⟩ := onRiskRegistry_ok.mp h
    rfl
  by_cases hd : ∃ admin i token, e = .pool (.markDefault admin i token)
  · obtain ⟨admin, i, token, rfl⟩ := hd
    obtain ⟨_, _, -, -, -, -, -, _, _, _, -, rfl⟩ := FinancingPool.markDefault_ok h
    rfl
  · push Not at hac hr hd
    exact congrArg (fun o => o.2.2.caps) (Entry.exec_outer hac ht hr hd h)

theorem cap_step (d : Deployment) (w : World) (a : Action) :
    CapStep w.now w.treasury (step d w a).treasury (proposesCap d w a) (installsCap d w a) := by
  -- a step that proposes and installs nothing
  have hkeep : proposesCap d w a = none → installsCap d w a = none →
      (step d w a).treasury.caps = w.treasury.caps →
      CapStep w.now w.treasury (step d w a).treasury (proposesCap d w a) (installsCap d w a) := by
    intro hproposes hinstalls hcaps
    rw [hproposes, hinstalls]
    exact .of_caps hcaps
  rcases step_cases d w a with ⟨c, rfl, hs, h⟩ | ⟨n, rfl, h⟩ | ⟨c, rfl, hn, h⟩
  · by_cases ht : ∃ op, c.entry = .treasury op
    · obtain ⟨op, he⟩ := ht
      rw [he] at h
      obtain ⟨s, hop, hw⟩ := onTreasury_ok.mp h
      have hproposes : proposesCap d w (.call c) = op.proposedCap := by
        simp only [proposesCap, he, if_pos hs]
      have hinstalls : installsCap d w (.call c) =
          op.installedCap (step d w (.call c)).treasury := by
        simp only [installsCap, he, if_pos hs]
      rw [hproposes, hinstalls, ← hw]
      exact Op.exec_cap hop
    · push Not at ht
      refine hkeep ?_ ?_ (exec_caps ht h)
      all_goals simp only [proposesCap, installsCap]
  · exact hkeep rfl rfl (by rw [h])
  · refine hkeep ?_ ?_ (by rw [h])
    all_goals
      simp only [proposesCap, installsCap, if_neg hn]
      split
      · rfl
      · rfl

end Steps

end Kora.Treasury
