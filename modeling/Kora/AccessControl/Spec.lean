import Kora.AccessControl

set_option autoImplicit false

/-!
# What access control does

Every successful entry point falls under one constructor of `Effect`, which gives the guards it
passed and the storage it leaves, up to the audit log.

* `pause_effect`, …: one lemma for each entry point;
* **`Op.exec_effect`**: the classification.
-/

namespace Kora.AccessControl

open Exec

/-- The proposal that `proposeAction` stores. -/
def newProposal (id now : ℕ) (proposer : Address) (action : AdminAction) : Proposal where
  id
  action
  proposer
  approvals := [proposer]
  executed := false
  createdAt := now
  expiresAt := now + proposalTtlLedgers

/-- The proposal that `proposeParameterChange` stores. -/
def newParameterProposal (id now : ℕ) (proposer : Address) (key : ParameterKey) (newValue : ℕ) :
    ParameterProposal where
  id
  key
  newValue
  proposer
  approvals := [proposer]
  createdAt := now
  executed := false

/-- The storage after the action of a proposal; a role with an unknown number is not granted. -/
inductive Performed (S : Storage) : AdminAction → Storage → Prop
  | pause : Performed S .pause { S with paused := some true }
  | unpause : Performed S .unpause { S with paused := some false }
  | grantRole (target : Address) (n : ℕ) (role : Role) : roleOf n = some role →
      Performed S (.grantRole target n) { S with role := Function.update S.role target (some role) }
  | revokeRole (target : Address) : Performed S (.revokeRole target) { S with
      role := Function.update S.role target none }
  | transferAdmin (newAdmin : Address) : Performed S (.transferAdmin newAdmin) { S with
      admin := some newAdmin
      role := Function.update S.role newAdmin (some .admin) }

section Performed

variable {S T : Storage} {action : AdminAction}

theorem Performed.multisigConfig (h : Performed S action T) :
    T.multisigConfig = S.multisigConfig := by
  cases h <;> rfl

theorem Performed.parameterProposal (h : Performed S action T) :
    T.parameterProposal = S.parameterProposal := by
  cases h <;> rfl

theorem Performed.parameter (h : Performed S action T) : T.parameter = S.parameter := by
  cases h <;> rfl

end Performed

/-- The caller of a multisig entry point is authenticated and a signer. -/
structure Signed (env : Env) (S : Storage) (caller : Address) (config : MultisigConfig) :
    Prop where
  auth : env.Authenticates caller
  configured : S.multisigConfig = some config
  signer : caller ∈ config.signers

/-- What a successful entry point does. -/
inductive Effect (env : Env) (S : Storage) : Op → Storage → Prop
  | initializeContract (admin : Address) : S.admin = none →
      Effect env S (.initializeContract admin) { S with
        admin := some admin
        paused := some false
        role := Function.update S.role admin (some .admin) }
  | pause (admin : Address) (log : AuditLog) : env.Authenticates admin → S.admin = some admin →
      S.paused.getD false = false →
      Effect env S (.pause admin) { S with paused := some true, audit := log, lock := false }
  | unpause (admin : Address) (log : AuditLog) : env.Authenticates admin → S.admin = some admin →
      S.paused.getD false = true →
      Effect env S (.unpause admin) { S with paused := some false, audit := log, lock := false }
  | grantRole (admin target : Address) (role : Role) (log : AuditLog) : env.Authenticates admin →
      S.admin = some admin → role ≠ .admin → target ≠ admin →
      Effect env S (.grantRole admin target role) { S with
        role := Function.update S.role target (some role)
        audit := log }
  | revokeRole (admin target : Address) (log : AuditLog) : env.Authenticates admin →
      S.admin = some admin → (S.role target).getD .none ≠ .admin →
      (S.role target).getD .none ≠ .none →
      Effect env S (.revokeRole admin target) { S with
        role := Function.update S.role target none
        audit := log }
  | transferAdmin (admin newAdmin : Address) (log : AuditLog) : env.Authenticates admin →
      S.admin = some admin → admin ≠ newAdmin →
      Effect env S (.transferAdmin admin newAdmin) { S with
        admin := some newAdmin
        role := Function.update (Function.update S.role newAdmin (some .admin)) admin none
        audit := log }
  | configureMultisig (admin : Address) (signers : List Address) (threshold : ℕ)
      (log : AuditLog) : env.Authenticates admin → S.admin = some admin → 0 < threshold →
      threshold ≤ signers.length →
      Effect env S (.configureMultisig admin signers threshold) { S with
        multisigConfig := some ⟨threshold, signers⟩
        nextProposalId := some (S.nextProposalId.getD 1)
        audit := log }
  | proposeAction (proposer : Address) (action : AdminAction) (config : MultisigConfig) :
      Signed env S proposer config →
      Effect env S (.proposeAction proposer action) { S with
        proposal := Function.update S.proposal (S.nextProposalId.getD 1)
          (some (newProposal (S.nextProposalId.getD 1) env.timestamp proposer action))
        nextProposalId := some (S.nextProposalId.getD 1 + 1) }
  | approveAction (approver : Address) (id : ℕ) (config : MultisigConfig) (proposal : Proposal) :
      Signed env S approver config → S.proposal id = some proposal → proposal.executed = false →
      env.timestamp ≤ proposal.expiresAt → approver ∉ proposal.approvals →
      Effect env S (.approveAction approver id) { S with
        proposal := Function.update S.proposal id
          (some { proposal with approvals := proposal.approvals ++ [approver] }) }
  | executeAction (executor : Address) (id : ℕ) (config : MultisigConfig) (proposal : Proposal)
      (T : Storage) (log : AuditLog) : Signed env S executor config →
      S.proposal id = some proposal → proposal.executed = false →
      env.timestamp ≤ proposal.expiresAt → config.threshold ≤ proposal.approvals.length →
      Performed { S with
        proposal := Function.update S.proposal id (some { proposal with executed := true }) }
        proposal.action T →
      Effect env S (.executeAction executor id) { T with audit := log }
  | proposeParameterChange (proposer : Address) (key : ParameterKey) (value : ℕ)
      (config : MultisigConfig) (log : AuditLog) : Signed env S proposer config →
      requireValidParameter key value = .ok () →
      Effect env S (.proposeParameterChange proposer key value) { S with
        parameterProposal := Function.update S.parameterProposal (S.nextParamProposalId.getD 1)
          (some (newParameterProposal (S.nextParamProposalId.getD 1) env.timestamp proposer key
            value))
        nextParamProposalId := some (S.nextParamProposalId.getD 1 + 1)
        audit := log }
  | voteParameterChange (signer : Address) (id : ℕ) (config : MultisigConfig)
      (proposal : ParameterProposal) : Signed env S signer config →
      S.parameterProposal id = some proposal → proposal.executed = false →
      signer ∉ proposal.approvals →
      Effect env S (.voteParameterChange signer id) { S with
        parameterProposal := Function.update S.parameterProposal id
          (some { proposal with approvals := proposal.approvals ++ [signer] }) }
  | executeParameterChange (caller : Address) (id : ℕ) (config : MultisigConfig)
      (proposal : ParameterProposal) (log : AuditLog) : Signed env S caller config →
      S.parameterProposal id = some proposal → proposal.executed = false →
      config.threshold ≤ proposal.approvals.length →
      proposal.createdAt + governanceTimelockDelay ≤ env.timestamp →
      Effect env S (.executeParameterChange caller id) { S with
        parameterProposal := Function.update S.parameterProposal id
          (some { proposal with executed := true })
        parameter := Function.update S.parameter proposal.key (some proposal.newValue)
        audit := log }

/-! ## Helpers -/

section Helpers

variable {env : Env} {S T : Storage} {β : Type} {b : β} {l : Unit → Body β}

theorem requireAdmin_seq_ok {caller : Address} : (requireAdmin caller >>= l) env S = .ok b T ↔
    S.admin = some caller ∧ l () env S = .ok b T := by
  simp only [requireAdmin, assoc_run, fetch_seq_ok, ensure_seq_ok]
  constructor
  · rintro ⟨a, h, rfl, hl⟩
    exact ⟨h, hl⟩
  · rintro ⟨h, hl⟩
    exact ⟨caller, h, rfl, hl⟩

theorem requireSigner_seq_ok {config : MultisigConfig} {caller : Address} :
    (requireSigner config caller >>= l) env S = .ok b T ↔
      caller ∈ config.signers ∧ l () env S = .ok b T := ensure_seq_ok

theorem loadMultisigConfig_seq_ok {k : MultisigConfig → Body β} :
    (loadMultisigConfig >>= k) env S = .ok b T ↔
      ∃ config, S.multisigConfig = some config ∧ k config env S = .ok b T := fetch_seq_ok

theorem getRole_run {address : Address} {k : Role → Body β} :
    (getRole address >>= k) env S = k ((S.role address).getD .none) env S := rfl

theorem isPaused_run {k : Bool → Body β} :
    (isPaused >>= k) env S = k (S.paused.getD false) env S := rfl

theorem appendAuditEntry_ok {actor : Address} {action : AdminActionType} {u : Unit} :
    appendAuditEntry actor action env S = .ok u T ↔
      { S with audit := S.audit.append .accessControl env.timestamp actor action } = T := by
  rw [appendAuditEntry, timestamp_run, modify_ok]

theorem appendAuditEntry_seq_ok {actor : Address} {action : AdminActionType} :
    (appendAuditEntry actor action >>= l) env S = .ok b T ↔
      l () env { S with
        audit := S.audit.append .accessControl env.timestamp actor action } = .ok b T := by
  rw [appendAuditEntry, assoc_run, timestamp_run, modify_run]

end Helpers

/-! ## Entry points -/

section Effects

variable {env : Env} {S T : Storage} {u : Unit}

theorem initializeContract_effect {admin : Address}
    (h : initializeContract admin env S = .ok u T) :
    Effect env S (.initializeContract admin) T := by
  simp only [initializeContract, gets_run, ensure_seq_ok, net_run, check_seq_ok, modify_ok] at h
  obtain ⟨hnone, _, -, rfl⟩ := h
  exact .initializeContract admin hnone

theorem pause_effect {admin : Address} (h : pause admin env S = .ok u T) :
    Effect env S (.pause admin) T := by
  simp only [pause, requireAuth_seq_ok, requireAdmin_seq_ok, isPaused_run, ensure_seq_ok, guard,
    guarded_ok, modify_run, appendAuditEntry_ok] at h
  obtain ⟨ha, hadmin, hp, -, _, rfl, rfl⟩ := h
  exact .pause admin _ ha hadmin hp

theorem unpause_effect {admin : Address} (h : unpause admin env S = .ok u T) :
    Effect env S (.unpause admin) T := by
  simp only [unpause, requireAuth_seq_ok, requireAdmin_seq_ok, isPaused_run, ensure_seq_ok, guard,
    guarded_ok, modify_run, appendAuditEntry_ok] at h
  obtain ⟨ha, hadmin, hp, -, _, rfl, rfl⟩ := h
  exact .unpause admin _ ha hadmin hp

theorem grantRole_effect {admin target : Address} {role : Role}
    (h : grantRole admin target role env S = .ok u T) :
    Effect env S (.grantRole admin target role) T := by
  simp only [grantRole, requireAuth_seq_ok, requireAdmin_seq_ok, ensure_seq_ok, modify_run,
    appendAuditEntry_ok] at h
  obtain ⟨ha, hadmin, hrole, -, htarget, rfl⟩ := h
  exact .grantRole admin target role _ ha hadmin hrole htarget

theorem revokeRole_effect {admin target : Address} (h : revokeRole admin target env S = .ok u T) :
    Effect env S (.revokeRole admin target) T := by
  simp only [revokeRole, requireAuth_seq_ok, requireAdmin_seq_ok, getRole_run, ensure_seq_ok,
    modify_run, appendAuditEntry_ok] at h
  obtain ⟨ha, hadmin, hne, hnone, rfl⟩ := h
  exact .revokeRole admin target _ ha hadmin hne hnone

theorem transferAdmin_effect {admin newAdmin : Address}
    (h : transferAdmin admin newAdmin env S = .ok u T) :
    Effect env S (.transferAdmin admin newAdmin) T := by
  simp only [transferAdmin, requireAuth_seq_ok, requireAdmin_seq_ok, ensure_seq_ok, net_run,
    check_seq_ok, getRole_run, modify_run, appendAuditEntry_ok] at h
  obtain ⟨ha, hadmin, hne, _, -, -, rfl⟩ := h
  exact .transferAdmin admin newAdmin _ ha hadmin hne

theorem configureMultisig_effect {admin : Address} {signers : List Address} {threshold : ℕ}
    (h : configureMultisig admin signers threshold env S = .ok u T) :
    Effect env S (.configureMultisig admin signers threshold) T := by
  simp only [configureMultisig, requireAuth_seq_ok, requireAdmin_seq_ok, ensure_seq_ok, modify_run,
    appendAuditEntry_ok] at h
  obtain ⟨ha, hadmin, hthreshold, rfl⟩ := h
  exact .configureMultisig admin signers threshold _ ha hadmin (by omega) (by omega)

theorem proposeAction_ok {proposer : Address} {action : AdminAction} {id : ℕ}
    (h : proposeAction proposer action env S = .ok id T) :
    id = S.nextProposalId.getD 1 ∧ Effect env S (.proposeAction proposer action) T := by
  -- by definitional unfolding the kernel would evaluate the bound of `checkedAddU64`
  simp -implicitDefEqProofs only [proposeAction, requireAuth_seq_ok, loadMultisigConfig_seq_ok,
    requireSigner_seq_ok, gets_run, timestamp_run, ofOption_seq_ok, checkedAddU64_some, modify_run,
    check_seq_ok, okOr_ok, pure_ok] at h
  obtain ⟨ha, config, hconfig, hmem, _, ⟨rfl, -⟩, _, ⟨rfl, -⟩, rfl, rfl⟩ := h
  exact ⟨rfl, .proposeAction proposer action config ⟨ha, hconfig, hmem⟩⟩

theorem approveAction_effect {approver : Address} {id : ℕ}
    (h : approveAction approver id env S = .ok u T) :
    Effect env S (.approveAction approver id) T := by
  simp only [approveAction, requireAuth_seq_ok, loadMultisigConfig_seq_ok, requireSigner_seq_ok,
    fetch_seq_ok, ensure_seq_ok, timestamp_run, modify_ok] at h
  obtain ⟨ha, config, hconfig, hmem, proposal, hp, hopen, hlive, hnew, rfl⟩ := h
  exact .approveAction approver id config proposal ⟨ha, hconfig, hmem⟩ hp hopen hlive hnew

theorem performAction_ok {action : AdminAction} (h : performAction action env S = .ok u T) :
    Performed S action T := by
  cases action with
  | pause =>
    rw [performAction, modify_ok] at h
    exact h ▸ .pause
  | unpause =>
    rw [performAction, modify_ok] at h
    exact h ▸ .unpause
  | grantRole target n =>
    simp only [performAction, check_seq_ok, okOr_ok, modify_ok] at h
    obtain ⟨role, hrole, rfl⟩ := h
    exact .grantRole target n role hrole
  | revokeRole target =>
    rw [performAction, modify_ok] at h
    exact h ▸ .revokeRole target
  | transferAdmin newAdmin =>
    rw [performAction, modify_ok] at h
    exact h ▸ .transferAdmin newAdmin

theorem executeAction_effect {executor : Address} {id : ℕ}
    (h : executeAction executor id env S = .ok u T) :
    Effect env S (.executeAction executor id) T := by
  simp only [executeAction, requireAuth_seq_ok, loadMultisigConfig_seq_ok, requireSigner_seq_ok,
    fetch_seq_ok, ensure_seq_ok, timestamp_run, modify_run, bind_ok (x := performAction _),
    appendAuditEntry_ok] at h
  obtain ⟨ha, config, hconfig, hmem, proposal, hp, hopen, hlive, hquorum, _, T', hT, rfl⟩ := h
  exact .executeAction executor id config proposal T' _ ⟨ha, hconfig, hmem⟩ hp hopen hlive hquorum
    (performAction_ok hT)

theorem proposeParameterChange_ok {proposer : Address} {key : ParameterKey} {value id : ℕ}
    (h : proposeParameterChange proposer key value env S = .ok id T) :
    id = S.nextParamProposalId.getD 1 ∧
      Effect env S (.proposeParameterChange proposer key value) T := by
  simp only [proposeParameterChange, requireAuth_seq_ok, loadMultisigConfig_seq_ok,
    requireSigner_seq_ok, check_seq_ok, gets_run, timestamp_run, modify_run, okOr_ok,
    checkedAddU64_some, appendAuditEntry_seq_ok, pure_ok] at h
  obtain ⟨ha, config, hconfig, hmem, _, hvalid, _, ⟨rfl, -⟩, rfl, rfl⟩ := h
  exact ⟨rfl, .proposeParameterChange proposer key value config _ ⟨ha, hconfig, hmem⟩ hvalid⟩

theorem voteParameterChange_effect {signer : Address} {id : ℕ}
    (h : voteParameterChange signer id env S = .ok u T) :
    Effect env S (.voteParameterChange signer id) T := by
  simp only [voteParameterChange, requireAuth_seq_ok, loadMultisigConfig_seq_ok,
    requireSigner_seq_ok, fetch_seq_ok, ensure_seq_ok, modify_ok] at h
  obtain ⟨ha, config, hconfig, hmem, proposal, hp, hopen, hnew, rfl⟩ := h
  exact .voteParameterChange signer id config proposal ⟨ha, hconfig, hmem⟩ hp hopen hnew

theorem executeParameterChange_effect {caller : Address} {id : ℕ}
    (h : executeParameterChange caller id env S = .ok u T) :
    Effect env S (.executeParameterChange caller id) T := by
  simp -implicitDefEqProofs only [executeParameterChange, requireAuth_seq_ok,
    loadMultisigConfig_seq_ok, requireSigner_seq_ok, fetch_seq_ok, ensure_seq_ok, timestamp_run,
    ofOption_seq_ok, checkedAddU64_some, modify_run, appendAuditEntry_ok] at h
  obtain ⟨ha, config, hconfig, hmem, proposal, hp, hopen, hquorum, _, ⟨rfl, -⟩, hready, rfl⟩ := h
  exact .executeParameterChange caller id config proposal _ ⟨ha, hconfig, hmem⟩ hp hopen hquorum
    hready

/-- **Every successful entry point has one of the listed effects.** -/
theorem Op.exec_effect {op : Op} (h : op.exec env S = .ok u T) : Effect env S op T := by
  cases op with
  | initializeContract => exact initializeContract_effect h
  | pause => exact pause_effect h
  | unpause => exact unpause_effect h
  | grantRole => exact grantRole_effect h
  | revokeRole => exact revokeRole_effect h
  | transferAdmin => exact transferAdmin_effect h
  | configureMultisig => exact configureMultisig_effect h
  | proposeAction proposer action =>
    simp only [exec, bind_ok, pure_ok] at h
    obtain ⟨id, _, h, -, rfl⟩ := h
    exact (proposeAction_ok h).2
  | approveAction => exact approveAction_effect h
  | executeAction => exact executeAction_effect h
  | proposeParameterChange proposer key value =>
    simp only [exec, bind_ok, pure_ok] at h
    obtain ⟨id, _, h, -, rfl⟩ := h
    exact (proposeParameterChange_ok h).2
  | voteParameterChange => exact voteParameterChange_effect h
  | executeParameterChange => exact executeParameterChange_effect h

end Effects

end Kora.AccessControl
