import Kora.RiskRegistry.Spec
import Kora.Shared.AuditPages
import Kora.System.Timelock

set_option autoImplicit false

/-!
# The audit trail

Every administrative operation of access control, the treasury and the risk registry appends its own
record to the contract's log, each by hand.

* `Op.audits` for each of the three contracts and `UpgradeOp.audits`: the record of an operation;
* `Op.appends`, `UpgradeOp.appends`: a successful call appends it;
* **`audit_complete`**: each call appends exactly the record of its operation, and none when it
  fails.
-/

namespace Kora

open Exec

/-! ## Statement -/

/-- The audit log of a contract. -/
def World.auditLog (w : World) : AuditSource → AuditLog
  | .accessControl => w.accessControl.audit
  | .treasury => w.treasury.audit
  | .riskRegistry => w.riskRegistry.audit

/-- Who an operation of access control records, and for what. -/
def AccessControl.Op.audits : Op → Option (Address × AdminActionType)
  | .pause admin => some (admin, .pause)
  | .unpause admin => some (admin, .unpause)
  | .grantRole admin _ _ => some (admin, .grantRole)
  | .revokeRole admin _ => some (admin, .revokeRole)
  | .transferAdmin admin _ => some (admin, .transferAdmin)
  | .configureMultisig admin _ _ => some (admin, .configureMultisig)
  | .executeAction executor _ => some (executor, .multisigExecuteAction)
  | .proposeParameterChange proposer _ _ => some (proposer, .proposeParameter)
  | .executeParameterChange caller _ => some (caller, .executeParameter)
  | .initializeContract .. | .proposeAction .. | .approveAction .. | .voteParameterChange .. => none

/-- Who an operation of the treasury records, and for what. -/
def Treasury.Op.audits : Op → Option (Address × AdminActionType)
  | .setFeeBps admin _ => some (admin, .setFeeBps)
  | .whitelistToken admin _ => some (admin, .whitelistToken)
  | .withdraw admin _ _ _ => some (admin, .withdraw)
  | .emergencyWithdraw admin _ _ => some (admin, .emergencyWithdraw)
  | .proposeWithdrawalCap admin _ => some (admin, .proposeWithdrawalCap)
  | .executeWithdrawalCap admin => some (admin, .executeWithdrawalCap)
  | .initializeContract .. | .collectFee .. => none

/-- Who an operation of the risk registry records, and for what. -/
def RiskRegistry.Op.audits : Op → Option (Address × AdminActionType)
  | .transferAdmin admin _ => some (admin, .registryTransferAdmin)
  | .addVerifier admin _ _ => some (admin, .addVerifier)
  | .removeVerifier admin _ => some (admin, .removeVerifier)
  | .recordDefault admin _ => some (admin, .recordDefault)
  | .initializeContract .. | .registerSme .. | .updateSmeScore .. | .setCreditLimit ..
  | .incrementInvoiceCount .. | .setDebtorScore .. => none

/-- Who an upgrade records in the log of a contract, and for what. -/
def UpgradeOp.audits : AuditSource → UpgradeOp → Option (Address × AdminActionType)
  | .accessControl, .propose .accessControl admin _ => some (admin, .proposeUpgrade)
  | .accessControl, .execute .accessControl admin => some (admin, .executeUpgrade)
  | .treasury, .propose .treasury admin _ => some (admin, .treasuryProposeUpgrade)
  | .treasury, .execute .treasury admin => some (admin, .treasuryExecuteUpgrade)
  | .riskRegistry, .propose .riskRegistry admin _ => some (admin, .registryProposeUpgrade)
  | .riskRegistry, .execute .riskRegistry admin => some (admin, .registryExecuteUpgrade)
  | _, _ => none

/-- Who a call of an entry point records in the log of a contract, and for what. Marking a default
calls the risk registry. -/
def Entry.audits (env : Env) (w : World) : AuditSource → Entry → Option (Address × AdminActionType)
  | .accessControl, .accessControl op => op.audits
  | .treasury, .treasury op => op.audits
  | .riskRegistry, .riskRegistry op => op.audits
  | .riskRegistry, .pool (.markDefault admin i _) =>
    (FinancingPool.recordedSme env w admin i).map fun _ => (admin, .recordDefault)
  | _, _ => none

/-- The log gained one entry: what the authenticated `actor` did. -/
structure Gains (source : AuditSource) (env : Env) (actor : Address) (action : AdminActionType)
    (before after : AuditLog) : Prop where
  authenticated : env.Authenticates actor
  total : after.total = before.total + 1
  entry : after.entry before.head =
    some ⟨before.total, env.timestamp, actor, action, source⟩
  others : ∀ slot, slot ≠ before.head → after.entry slot = before.entry slot

/-- What a call of an operation does to the log: when it succeeds, the log gains the record of the
operation, if it has one; otherwise the log is the same. -/
inductive AuditStep (source : AuditSource) (env : Env) (before : AuditLog) :
    Option (Address × AdminActionType) → Bool → AuditLog → Prop
  | gains (actor : Address) (action : AdminActionType) (after : AuditLog) :
      Gains source env actor action before after →
      AuditStep source env before (some (actor, action)) true after
  | silent : AuditStep source env before none true before
  | failed (record : Option (Address × AdminActionType)) :
      AuditStep source env before record false before

/-- The action is the record of some entry point. -/
def AdminActionType.Named (action : AdminActionType) : Prop :=
  (∃ op : AccessControl.Op, op.audits.map Prod.snd = some action) ∨
    (∃ op : Treasury.Op, op.audits.map Prod.snd = some action) ∨
    (∃ op : RiskRegistry.Op, op.audits.map Prod.snd = some action) ∨
    ∃ (op : UpgradeOp) (source : AuditSource), (op.audits source).map Prod.snd = some action

/-! ## Records -/

/-- The log after the record of an operation. -/
def AuditLog.record (log : AuditLog) (source : AuditSource) (now : ℕ) :
    Option (Address × AdminActionType) → AuditLog
  | some (actor, action) => log.append source now actor action
  | none => log

/-- `m` appends a record to the log. -/
def Appends {σ α : Type} (source : AuditSource) (log : σ → AuditLog)
    (record : Option (Address × AdminActionType)) (m : Host σ α) : Prop :=
  Changes log (fun env before => before.record source env.timestamp record) m

section Rules

variable {σ α β : Type} {source : AuditSource} {log : σ → AuditLog}
  {record : Option (Address × AdminActionType)} {m : Host σ α}

theorem appends_none : Appends source log none m ↔ Frames log m := Iff.rfl

theorem Appends.after {x : Host σ α} {k : α → Host σ β} (hx : Frames log x)
    (hk : ∀ a, Appends source log record (k a)) : Appends source log record (x >>= k) :=
  Changes.after hx hk

theorem Appends.before {x : Host σ α} {k : α → Host σ β} (hx : Appends source log record x)
    (hk : ∀ a, Frames log (k a)) : Appends source log record (x >>= k) :=
  Changes.before hx hk

theorem Appends.ite {c : Prop} [Decidable c] {x y : Host σ α} (hx : Appends source log record x)
    (hy : Appends source log record y) : Appends source log record (if c then x else y) :=
  Changes.ite hx hy

theorem Appends.guarded {isLocked : σ → Bool} {setLock : Bool → σ → σ}
    (h : ∀ b s, log (setLock b s) = log s) (hm : Appends source log record m) :
    Appends source log record (guarded isLocked setLock m) :=
  Changes.after (Frames.gets _) fun _ => Changes.after (Frames.require _ _) fun _ =>
    Changes.bracket (h true) (h false) hm

theorem gains_append {env : Env} {actor : Address} {action : AdminActionType} {before : AuditLog}
    (ha : env.Authenticates actor) :
    Gains source env actor action before (before.append source env.timestamp actor action) where
  authenticated := ha
  total := rfl
  entry := Function.update_self ..
  others := fun _ hslot => Function.update_of_ne hslot ..

/-- **A call that appends the record of its authenticated actor** is a step of the log. -/
theorem auditStep_of_ok (log : σ → AuditLog) {env : Env} {s : σ} {m : Host σ Unit}
    (h : ∀ t, m env s = .ok () t → log t = (log s).record source env.timestamp record ∧
      ∀ actor action, record = some (actor, action) → env.Authenticates actor) :
    AuditStep source env (log s) record (m env s).isOk (log ((m env s).commit s)) := by
  cases hm : m env s with
  | error e t => exact .failed record
  | ok u t =>
    obtain ⟨hlog, hauth⟩ := h t hm
    rw [Outcome.commit_ok, hlog]
    match record, hauth with
    | none, _ => exact .silent
    | some (actor, action), hauth =>
      exact .gains actor action _ (gains_append (hauth actor action rfl))

end Rules

/-! ## Access control -/

namespace AccessControl

theorem appends_appendAuditEntry {actor : Address} {action : AdminActionType} :
    Appends .accessControl Storage.audit (some (actor, action))
      (appendAuditEntry actor action) := by
  intro env S u T h
  rw [← appendAuditEntry_ok.mp h]
  rfl

@[grind ←] theorem frames_performAction {action : AdminAction} :
    Frames Storage.audit (performAction action) := by
  cases action
  all_goals
    unfold performAction
    grind

theorem appends_proposeParameterChange {proposer : Address} {key : ParameterKey} {value : ℕ} :
    Appends .accessControl Storage.audit (some (proposer, .proposeParameter))
      (proposeParameterChange proposer key value) := by
  simp only [proposeParameterChange, loadMultisigConfig, requireSigner]
  repeat' first
    | with_reducible refine Appends.before appends_appendAuditEntry fun _ => Frames.pure _
    | with_reducible refine Appends.after ?_ fun _ => ?_
  all_goals grind

theorem Op.appends (op : Op) : Appends .accessControl Storage.audit op.audits op.exec := by
  cases op
  case proposeParameterChange =>
    exact appends_proposeParameterChange.before fun _ => Frames.pure ()
  case initializeContract | proposeAction | approveAction | voteParameterChange =>
    refine appends_none.mpr ?_
    simp only [exec, AccessControl.initializeContract, AccessControl.proposeAction,
      AccessControl.approveAction, AccessControl.voteParameterChange, loadMultisigConfig,
      requireSigner]
    repeat' with_reducible refine Frames.bind ?_ fun _ => ?_
    all_goals grind
  all_goals
    simp only [exec, audits, AccessControl.pause, AccessControl.unpause, AccessControl.grantRole,
      AccessControl.revokeRole, AccessControl.transferAdmin, AccessControl.configureMultisig,
      AccessControl.executeAction, AccessControl.executeParameterChange, requireAdmin, isPaused,
      getRole, loadMultisigConfig, requireSigner, guard]
    -- The record is the last statement; what comes before it leaves the log alone.
    repeat' first
      | with_reducible exact appends_appendAuditEntry
      | with_reducible refine Appends.guarded (fun _ _ => rfl) ?_
      | with_reducible refine Appends.after ?_ fun _ => ?_
  all_goals grind

theorem Op.audits_auth {op : Op} {actor : Address} {action : AdminActionType} {env : Env}
    {S T : Storage} (hrecord : op.audits = some (actor, action))
    (h : op.exec env S = .ok () T) : env.Authenticates actor := by
  cases op
  case proposeParameterChange =>
    obtain ⟨rfl, -⟩ := Prod.mk.inj (Option.some.inj hrecord)
    obtain ⟨_, _, h, -⟩ := bind_ok.mp h
    exact (requireAuth_seq_ok.mp h).1
  case initializeContract | proposeAction | approveAction | voteParameterChange => cases hrecord
  all_goals
    obtain ⟨rfl, -⟩ := Prod.mk.inj (Option.some.inj hrecord)
    exact (requireAuth_seq_ok.mp h).1

end AccessControl

/-! ## The treasury -/

namespace Treasury

theorem appends_own {α : Type} {record : Option (Address × AdminActionType)} {m : Body α}
    (hm : Appends .treasury Storage.audit record m) :
    Appends .treasury (fun s : State => s.1.audit) record (own m) := by
  intro env s a t h
  obtain ⟨S, hS, rfl⟩ := own_ok.mp h
  exact hm env s.1 a S hS

theorem appends_appendAuditEntry {actor : Address} {action : AdminActionType} :
    Appends .treasury Storage.audit (some (actor, action)) (appendAuditEntry actor action) := by
  intro env S u T h
  rw [← appendAuditEntry_ok.mp h]
  rfl

theorem Op.appends (op : Op) :
    Appends .treasury (fun s : State => s.1.audit) op.audits op.exec := by
  cases op
  case initializeContract | collectFee =>
    refine appends_own (appends_none.mpr ?_)
    simp only [Treasury.initializeContract, Treasury.collectFee, requireWhitelistedToken]
    repeat' with_reducible refine Frames.bind ?_ fun _ => ?_
    all_goals grind
  all_goals
    simp only [exec, audits, Treasury.setFeeBps, Treasury.whitelistToken, Treasury.withdraw,
      Treasury.emergencyWithdraw, Treasury.proposeWithdrawalCap, Treasury.executeWithdrawalCap,
      requireAdmin, requireWhitelistedToken, guard]
    repeat' first
      | with_reducible exact appends_appendAuditEntry
      | with_reducible refine appends_own ?_
      | with_reducible refine Appends.guarded (fun _ _ => rfl) ?_
      | with_reducible refine Appends.after ?_ fun _ => ?_
      | with_reducible refine Appends.ite ?_ ?_
      | with_reducible exact frames_release fun _ _ => rfl
      | with_reducible exact frames_enforceRateLimit fun _ _ _ => rfl
      | with_reducible exact frames_recordWithdrawal fun _ _ _ => rfl
      | with_reducible exact frames_callToken
      | with_reducible refine frames_own ?_
      | with_reducible refine Frames.bind ?_ fun _ => ?_
      | with_reducible refine Frames.ite ?_ ?_
  all_goals grind

theorem Op.audits_auth {op : Op} {actor : Address} {action : AdminActionType} {env : Env}
    {s t : State} (hrecord : op.audits = some (actor, action))
    (h : op.exec env s = .ok () t) : env.Authenticates actor := by
  cases op
  case initializeContract | collectFee => cases hrecord
  case withdraw | emergencyWithdraw =>
    obtain ⟨rfl, -⟩ := Prod.mk.inj (Option.some.inj hrecord)
    exact (requireAuth_seq_ok.mp h).1
  all_goals
    obtain ⟨rfl, -⟩ := Prod.mk.inj (Option.some.inj hrecord)
    obtain ⟨S, hS, -⟩ := own_ok.mp h
    exact (requireAuth_seq_ok.mp hS).1

end Treasury

/-! ## The risk registry -/

namespace RiskRegistry

section Rules

variable {α : Type}

theorem appends_own {record : Option (Address × AdminActionType)} {m : Body α}
    (hm : Appends .riskRegistry Storage.audit record m) :
    Appends .riskRegistry (fun s : State => s.1.audit) record (own m) := by
  intro env s a t h
  obtain ⟨S, hS, rfl⟩ := own_ok.mp h
  exact hm env s.1 a S hS

theorem frames_own {m : Body α} (hm : Frames Storage.audit m) :
    Frames (fun s : State => s.1.audit) (own m) :=
  appends_none.mp (appends_own (appends_none.mpr hm))

theorem frames_callToken {m : Host Tokens α} :
    Frames (fun s : State => s.1.audit) (callToken m) := by
  intro env s a t h
  obtain ⟨T, -, rfl⟩ := callToken_ok.mp h
  rfl

theorem appends_appendAuditEntry {actor : Address} {action : AdminActionType} :
    Appends .riskRegistry Storage.audit (some (actor, action))
      (appendAuditEntry actor action) := by
  intro env S u T h
  rw [← appendAuditEntry_ok.mp h]
  rfl

end Rules

theorem appends_recordDefault {admin sme : Address} :
    Appends .riskRegistry Storage.audit (some (admin, .recordDefault))
      (recordDefault admin sme) := by
  simp only [recordDefault, requireAdmin, guard, putProfile]
  repeat' first
    | with_reducible exact appends_appendAuditEntry
    | with_reducible refine Appends.guarded (fun _ _ => rfl) ?_
    | with_reducible refine Appends.after ?_ fun _ => ?_
    | with_reducible refine Appends.ite ?_ ?_
  all_goals grind

theorem Op.appends (op : Op) :
    Appends .riskRegistry (fun s : State => s.1.audit) op.audits op.exec := by
  cases op
  case recordDefault => exact appends_own appends_recordDefault
  case initializeContract | registerSme | updateSmeScore | setCreditLimit | incrementInvoiceCount
      | setDebtorScore =>
    refine appends_own (appends_none.mpr ?_)
    simp only [RiskRegistry.initializeContract, RiskRegistry.registerSme,
      RiskRegistry.updateSmeScore, RiskRegistry.setCreditLimit, RiskRegistry.incrementInvoiceCount,
      RiskRegistry.setDebtorScore, requireVerifier, requireInvoiceNft, putProfile, guard]
    repeat' first
      | with_reducible refine frames_guarded (fun _ _ => rfl) ?_
      | with_reducible refine Frames.bind ?_ fun _ => ?_
    all_goals grind
  all_goals
    simp only [exec, audits, RiskRegistry.transferAdmin, RiskRegistry.addVerifier,
      RiskRegistry.removeVerifier, requireAdmin, requireVerifier]
    repeat' first
      | with_reducible exact appends_appendAuditEntry
      | with_reducible refine appends_own ?_
      | with_reducible refine Appends.after ?_ fun _ => ?_
      | with_reducible refine Appends.ite ?_ ?_
      | with_reducible exact frames_callToken
      | with_reducible refine frames_own ?_
      | with_reducible refine Frames.bind ?_ fun _ => ?_
      | with_reducible refine Frames.ite ?_ ?_
  all_goals grind

theorem Op.audits_auth {op : Op} {actor : Address} {action : AdminActionType} {env : Env}
    {s t : State} (hrecord : op.audits = some (actor, action))
    (h : op.exec env s = .ok () t) : env.Authenticates actor := by
  cases op
  case initializeContract | registerSme | updateSmeScore | setCreditLimit | incrementInvoiceCount
      | setDebtorScore =>
    cases hrecord
  case addVerifier | removeVerifier =>
    obtain ⟨rfl, -⟩ := Prod.mk.inj (Option.some.inj hrecord)
    exact (requireAuth_seq_ok.mp h).1
  all_goals
    obtain ⟨rfl, -⟩ := Prod.mk.inj (Option.some.inj hrecord)
    obtain ⟨S, hS, -⟩ := own_ok.mp h
    exact (requireAuth_seq_ok.mp hS).1

end RiskRegistry

/-! ## The system -/

section System

variable {env : Env} {w w' : World} {source : AuditSource}

theorem auditLog_of_outer (h : w'.outer = w.outer) : w'.auditLog source = w.auditLog source := by
  have hlogs : (w'.outer.1.audit, w'.outer.2.2.audit, w'.outer.2.1.audit) =
      (w.outer.1.audit, w.outer.2.2.audit, w.outer.2.1.audit) := by rw [h]
  obtain ⟨hac, ht, hr⟩ : w'.accessControl.audit = w.accessControl.audit ∧
      w'.treasury.audit = w.treasury.audit ∧ w'.riskRegistry.audit = w.riskRegistry.audit := by
    simpa [World.outer] using hlogs
  cases source with
  | accessControl => exact hac
  | treasury => exact ht
  | riskRegistry => exact hr

theorem markDefault_audits {admin token : Address} {i : ℕ}
    (h : FinancingPool.markDefault admin i token env w = .ok () w') :
    w'.auditLog source = (w.auditLog source).record source env.timestamp
        ((Entry.pool (.markDefault admin i token)).audits env w source) ∧
      env.Authenticates admin := by
  obtain ⟨ha, -, hregistry⟩ := FinancingPool.markDefault_registry h
  refine ⟨?_, ha⟩
  obtain ⟨_, _, -, -, -, -, -, _, _, registry, -, rfl⟩ := FinancingPool.markDefault_ok h
  cases source with
  | accessControl => rfl
  | treasury => rfl
  | riskRegistry =>
    rcases hregistry with ⟨sme, hsme, hrecord⟩ | ⟨hnone, hsame⟩
    · rw [Entry.audits, hsme]
      exact RiskRegistry.appends_recordDefault (env.from env.net.financingPool) _ _ _ hrecord
    · rw [Entry.audits, hnone]
      exact congrArg RiskRegistry.Storage.audit hsame

theorem Entry.audits_pool {op : FinancingPool.Op}
    (hop : ∀ admin i token, op ≠ .markDefault admin i token) :
    (Entry.pool op).audits env w source = none := by
  cases op with
  | markDefault admin i token => exact absurd rfl (hop admin i token)
  | _ => cases source <;> rfl

theorem Entry.silent {e : Entry} (hnone : e.audits env w source = none)
    (houter : w'.outer = w.outer) :
    w'.auditLog source = (w.auditLog source).record source env.timestamp (e.audits env w source) ∧
      ∀ actor action, e.audits env w source = some (actor, action) → env.Authenticates actor := by
  rw [hnone]
  exact ⟨auditLog_of_outer houter, nofun⟩

/-- **A successful entry point appends its record.** -/
theorem Entry.exec_audits {e : Entry} (h : e.exec env w = .ok () w') :
    w'.auditLog source = (w.auditLog source).record source env.timestamp (e.audits env w source) ∧
      ∀ actor action, e.audits env w source = some (actor, action) → env.Authenticates actor := by
  cases e with
  | accessControl op =>
    obtain ⟨S, hS, rfl⟩ := onAccessControl_ok.mp h
    cases source with
    | accessControl => exact ⟨op.appends _ _ _ _ hS, fun _ _ hrecord => op.audits_auth hrecord hS⟩
    | treasury => exact ⟨rfl, nofun⟩
    | riskRegistry => exact ⟨rfl, nofun⟩
  | treasury op =>
    obtain ⟨s, hs, rfl⟩ := onTreasury_ok.mp h
    cases source with
    | accessControl => exact ⟨rfl, nofun⟩
    | treasury => exact ⟨op.appends _ _ _ _ hs, fun _ _ hrecord => op.audits_auth hrecord hs⟩
    | riskRegistry => exact ⟨rfl, nofun⟩
  | riskRegistry op =>
    obtain ⟨s, hs, rfl⟩ := onRiskRegistry_ok.mp h
    cases source with
    | accessControl => exact ⟨rfl, nofun⟩
    | treasury => exact ⟨rfl, nofun⟩
    | riskRegistry => exact ⟨op.appends _ _ _ _ hs, fun _ _ hrecord => op.audits_auth hrecord hs⟩
  | pool op =>
    by_cases hop : ∃ admin i token, op = .markDefault admin i token
    · obtain ⟨admin, i, token, rfl⟩ := hop
      obtain ⟨hlog, ha⟩ := markDefault_audits h
      refine ⟨hlog, fun actor action hrecord => ?_⟩
      cases source with
      | accessControl => cases hrecord
      | treasury => cases hrecord
      | riskRegistry =>
        obtain ⟨_, -, hactor⟩ := Option.map_eq_some_iff.mp hrecord
        obtain ⟨rfl, -⟩ := Prod.mk.inj hactor
        exact ha
    · push Not at hop
      refine Entry.silent (Entry.audits_pool hop) (Entry.exec_outer ?_ ?_ ?_ ?_ h)
      case refine_4 =>
        rintro admin i token ⟨⟩
        exact hop admin i token rfl
      all_goals nofun
  | priceOracle op | invoiceNft op | marketplace op | transfer token src dst amount =>
    refine Entry.silent (by cases source <;> rfl) (Entry.exec_outer ?_ ?_ ?_ ?_ h)
    all_goals nofun

end System

/-! ## Upgrades -/

section Upgrades

variable {source : AuditSource} {record : Option (Address × AdminActionType)} {c : Upgradable}
  {requireAdmin m : Host World Unit} {admin : Address}

/-- The log of a contract, under the upgrades. -/
def Chain.auditLog (source : AuditSource) (s : Chain) : AuditLog := s.world.auditLog source

theorem appends_onWorld (hm : Appends source (fun w => w.auditLog source) record m) :
    Appends source (Chain.auditLog source) record (onWorld m) := by
  intro env s u t h
  obtain ⟨w, hw, rfl⟩ := onWorld_ok.mp h
  exact hm env s.world u w hw

theorem frames_onWorld (hm : Frames (fun w => w.auditLog source) m) :
    Frames (Chain.auditLog source) (onWorld m) :=
  appends_none.mp (appends_onWorld (appends_none.mpr hm))

theorem appends_proposeUpgrade {hash : WasmHash}
    (hcheck : Frames (fun w => w.auditLog source) requireAdmin)
    (hrecord : Appends source (fun w => w.auditLog source) record m) :
    Appends source (Chain.auditLog source) record
      (proposeUpgrade c requireAdmin m admin hash) := by
  unfold proposeUpgrade
  refine Appends.after frames_requireAuth fun _ => ?_
  refine Appends.after (frames_onWorld hcheck) fun _ => ?_
  refine Appends.after frames_timestamp fun _ => ?_
  refine Appends.after (Frames.modify fun _ => rfl) fun _ => ?_
  exact appends_onWorld hrecord

theorem appends_executeUpgrade (hcheck : Frames (fun w => w.auditLog source) requireAdmin)
    (hrecord : Appends source (fun w => w.auditLog source) record m) :
    Appends source (Chain.auditLog source) record (executeUpgrade c requireAdmin m admin) := by
  have hinstall : ∀ hash, Frames (Chain.auditLog source) (updateCurrentContractWasm c hash) := by
    intro hash
    unfold updateCurrentContractWasm
    exact (Frames.gets _).bind fun _ => (Frames.require _ _).bind fun _ =>
      Frames.modify fun _ => rfl
  unfold executeUpgrade
  refine Appends.after frames_requireAuth fun _ => ?_
  refine Appends.after (frames_onWorld hcheck) fun _ => ?_
  refine Appends.after frames_fetch fun _ => ?_
  refine Appends.after frames_timestamp fun _ => ?_
  refine Appends.after (Frames.ofOption _ _) fun _ => ?_
  refine Appends.after frames_ensure fun _ => ?_
  refine Appends.after (Frames.modify fun _ => rfl) fun _ => ?_
  exact (appends_onWorld hrecord).before fun _ => hinstall _

theorem frames_of_keeps (h : ∀ I, Keeps I m) : Frames (fun w => w.auditLog source) m :=
  fun env w u w' hm => h (fun v => v.auditLog source = w.auditLog source) env w u w' rfl hm

theorem frames_checkAdmin :
    Frames (fun w => w.auditLog source) (Marketplace.checkAdmin admin) := by
  intro env w u w' h
  simp only [Marketplace.checkAdmin, Marketplace.requireAdmin_seq_ok, pure_ok] at h
  obtain ⟨config, -, -, -, rfl⟩ := h
  cases source <;> rfl

theorem frames_pure : Frames (fun w => w.auditLog source) (pure () : Host World Unit) :=
  Frames.pure ()

/-! The records, in the log of their contract and seen from the other logs. -/

theorem AccessControl.appends_record {action : AdminActionType} :
    Appends source (fun w => w.auditLog source)
      (if source = .accessControl then some (admin, action) else none)
      (onAccessControl (appendAuditEntry admin action)) := by
  intro env w u w' h
  obtain ⟨S, hS, rfl⟩ := onAccessControl_ok.mp h
  cases source with
  | accessControl => exact appends_appendAuditEntry _ _ _ _ hS
  | treasury => rfl
  | riskRegistry => rfl

theorem Treasury.appends_record {action : AdminActionType} :
    Appends source (fun w => w.auditLog source)
      (if source = .treasury then some (admin, action) else none)
      (onTreasury (own (appendAuditEntry admin action))) := by
  intro env w u w' h
  obtain ⟨s, hs, rfl⟩ := onTreasury_ok.mp h
  cases source with
  | accessControl => rfl
  | treasury => exact appends_own appends_appendAuditEntry _ _ _ _ hs
  | riskRegistry => rfl

theorem RiskRegistry.appends_record {action : AdminActionType} :
    Appends source (fun w => w.auditLog source)
      (if source = .riskRegistry then some (admin, action) else none)
      (onRiskRegistry (own (appendAuditEntry admin action))) := by
  intro env w u w' h
  obtain ⟨s, hs, rfl⟩ := onRiskRegistry_ok.mp h
  cases source with
  | accessControl => rfl
  | treasury => rfl
  | riskRegistry => exact appends_own appends_appendAuditEntry _ _ _ _ hs

theorem UpgradeOp.appends (op : UpgradeOp) (source : AuditSource) :
    Appends source (Chain.auditLog source) (op.audits source) op.exec := by
  have hac {admin : Address} : Frames (fun w => w.auditLog source)
      (onAccessControl (AccessControl.requireAdmin admin)) :=
    frames_of_keeps fun _ => AccessControl.keeps_requireAdmin
  have hnft {admin : Address} : Frames (fun w => w.auditLog source)
      (onInvoiceNft (InvoiceNft.requireAdmin admin)) :=
    frames_of_keeps fun _ => InvoiceNft.keeps_requireAdmin
  have hpool {admin : Address} : Frames (fun w => w.auditLog source)
      (FinancingPool.requireAdmin admin) :=
    frames_of_keeps fun _ => FinancingPool.keeps_requireAdmin
  have ht {admin : Address} : Frames (fun w => w.auditLog source)
      (onTreasury (Treasury.own (Treasury.requireAdmin admin))) :=
    frames_of_keeps fun _ => Treasury.keeps_requireAdmin
  have hr {admin : Address} : Frames (fun w => w.auditLog source)
      (onRiskRegistry (RiskRegistry.own (RiskRegistry.requireAdmin admin))) :=
    frames_of_keeps fun _ => RiskRegistry.keeps_requireAdmin
  cases op with
  | propose c admin hash =>
    cases c with
    | accessControl =>
      cases source <;> exact appends_proposeUpgrade hac AccessControl.appends_record
    | treasury => cases source <;> exact appends_proposeUpgrade ht Treasury.appends_record
    | riskRegistry => cases source <;> exact appends_proposeUpgrade hr RiskRegistry.appends_record
    | invoiceNft => cases source <;> exact appends_proposeUpgrade hnft frames_pure
    | marketplace => cases source <;> exact appends_proposeUpgrade frames_checkAdmin frames_pure
    | financingPool => cases source <;> exact appends_proposeUpgrade hpool frames_pure
  | execute c admin =>
    cases c with
    | accessControl =>
      cases source <;> exact appends_executeUpgrade hac AccessControl.appends_record
    | treasury => cases source <;> exact appends_executeUpgrade ht Treasury.appends_record
    | riskRegistry => cases source <;> exact appends_executeUpgrade hr RiskRegistry.appends_record
    | invoiceNft => cases source <;> exact appends_executeUpgrade hnft frames_pure
    | marketplace => cases source <;> exact appends_executeUpgrade frames_checkAdmin frames_pure
    | financingPool => cases source <;> exact appends_executeUpgrade hpool frames_pure

theorem UpgradeOp.audits_auth {op : UpgradeOp} {actor : Address} {action : AdminActionType}
    {env : Env} {s t : Chain} (hrecord : op.audits source = some (actor, action))
    (h : op.exec env s = .ok () t) : env.Authenticates actor := by
  cases op with
  | propose c admin hash =>
    have ha : env.Authenticates admin := by
      cases c <;> exact (requireAuth_seq_ok.mp h).1
    cases source <;> cases c
    all_goals cases hrecord
    all_goals exact ha
  | execute c admin =>
    have ha : env.Authenticates admin := by
      cases c <;> exact (requireAuth_seq_ok.mp h).1
    cases source <;> cases c
    all_goals cases hrecord
    all_goals exact ha

end Upgrades

/-- Every kind of action is recorded by some entry point. -/
theorem AdminActionType.named (action : AdminActionType) : action.Named := by
  let hash : WasmHash := ⟨List.replicate 32 0, List.length_replicate⟩
  cases action with
  | pause => exact Or.inl ⟨.pause 0, rfl⟩
  | unpause => exact Or.inl ⟨.unpause 0, rfl⟩
  | grantRole => exact Or.inl ⟨.grantRole 0 0 .operator, rfl⟩
  | revokeRole => exact Or.inl ⟨.revokeRole 0 0, rfl⟩
  | transferAdmin => exact Or.inl ⟨.transferAdmin 0 0, rfl⟩
  | configureMultisig => exact Or.inl ⟨.configureMultisig 0 [] 0, rfl⟩
  | multisigExecuteAction => exact Or.inl ⟨.executeAction 0 0, rfl⟩
  | proposeParameter => exact Or.inl ⟨.proposeParameterChange 0 .feeBps 0, rfl⟩
  | executeParameter => exact Or.inl ⟨.executeParameterChange 0 0, rfl⟩
  | setFeeBps => exact Or.inr (Or.inl ⟨.setFeeBps 0 0, rfl⟩)
  | whitelistToken => exact Or.inr (Or.inl ⟨.whitelistToken 0 0, rfl⟩)
  | withdraw => exact Or.inr (Or.inl ⟨.withdraw 0 0 0 0, rfl⟩)
  | emergencyWithdraw => exact Or.inr (Or.inl ⟨.emergencyWithdraw 0 0 0, rfl⟩)
  | proposeWithdrawalCap => exact Or.inr (Or.inl ⟨.proposeWithdrawalCap 0 0, rfl⟩)
  | executeWithdrawalCap => exact Or.inr (Or.inl ⟨.executeWithdrawalCap 0, rfl⟩)
  | addVerifier => exact Or.inr (Or.inr (Or.inl ⟨.addVerifier 0 0 0, rfl⟩))
  | removeVerifier => exact Or.inr (Or.inr (Or.inl ⟨.removeVerifier 0 0, rfl⟩))
  | recordDefault => exact Or.inr (Or.inr (Or.inl ⟨.recordDefault 0 0, rfl⟩))
  | registryTransferAdmin => exact Or.inr (Or.inr (Or.inl ⟨.transferAdmin 0 0, rfl⟩))
  | proposeUpgrade =>
    exact Or.inr (Or.inr (Or.inr ⟨.propose .accessControl 0 hash, .accessControl, rfl⟩))
  | executeUpgrade =>
    exact Or.inr (Or.inr (Or.inr ⟨.execute .accessControl 0, .accessControl, rfl⟩))
  | treasuryProposeUpgrade =>
    exact Or.inr (Or.inr (Or.inr ⟨.propose .treasury 0 hash, .treasury, rfl⟩))
  | treasuryExecuteUpgrade =>
    exact Or.inr (Or.inr (Or.inr ⟨.execute .treasury 0, .treasury, rfl⟩))
  | registryProposeUpgrade =>
    exact Or.inr (Or.inr (Or.inr ⟨.propose .riskRegistry 0 hash, .riskRegistry, rfl⟩))
  | registryExecuteUpgrade =>
    exact Or.inr (Or.inr (Or.inr ⟨.execute .riskRegistry 0, .riskRegistry, rfl⟩))

/-- **The audit logs are complete**: from any state, a successful call of an operation named in
`AdminActionType` adds one entry to the log of its contract, with the authenticated caller as the
actor; every other call and every failing call leaves the log as it is; and each kind of action is
recorded by some operation. -/
theorem audit_complete :
    (∀ (source : AuditSource) (env : Env) (w : World) (e : Entry),
      AuditStep source env (w.auditLog source) (e.audits env w source) (e.exec env w).isOk
        (((e.exec env w).commit w).auditLog source)) ∧
    (∀ (source : AuditSource) (env : Env) (s : Chain) (op : UpgradeOp),
      AuditStep source env (s.world.auditLog source) (op.audits source) (op.exec env s).isOk
        (((op.exec env s).commit s).world.auditLog source)) ∧
    ∀ action : AdminActionType, action.Named := by
  refine ⟨fun source env w e => ?_, fun source env s op => ?_, AdminActionType.named⟩
  · exact auditStep_of_ok (fun w => w.auditLog source) fun w' h => Entry.exec_audits h
  · refine auditStep_of_ok (Chain.auditLog source) fun t h => ⟨?_, ?_⟩
    · exact op.appends source env s () t h
    · exact fun actor action hrecord => op.audits_auth hrecord h

end Kora
