import Kora.AccessControl.Proposals

set_option autoImplicit false

/-!
# Attainable thresholds

`configure_multisig` compares the threshold with the length of the signer list, while a signer
approves a proposal once. With a signer listed twice, the threshold can exceed what all signers
together reach. The number of a role is only looked up when a grant is executed.

* `Attainable`: the threshold is within reach, and what all signers approved can be executed;
* `executeAction_isOk`: when an execution is accepted;
* `attainable_iff_of_configured`: one state;
* **`attainable_iff`**: every run.
-/

namespace Kora.AccessControl

open Exec Run Ballots

/-! ## Statement -/

/-- Proposal `id` is open at the moment, and every signer has approved it. -/
def Ripe (w : World) (config : MultisigConfig) (id : ℕ) (proposal : Proposal) : Prop :=
  w.accessControl.proposal id = some proposal ∧ proposal.executed = false ∧
    w.now ≤ proposal.expiresAt ∧ ∀ v ∈ config.signers, v ∈ proposal.approvals

/-- The stored threshold lies between one and the number of different signers, and every signer can
execute the proposals that all of them approved. -/
def Attainable (w : World) : Prop :=
  ∀ config, w.accessControl.multisigConfig = some config →
    (1 ≤ config.threshold ∧ config.threshold ≤ config.signers.toFinset.card) ∧
    ∀ id proposal, Ripe w config id proposal →
      ∀ env executor, env.timestamp = w.now → env.Authenticates executor →
        executor ∈ config.signers → (executeAction executor id env w.accessControl).isOk = true

/-- The step configures no more than the number of different signers as the threshold. -/
def ConfiguresReachable (d : Deployment) (w : World) (a : Action) : Prop :=
  ∀ admin signers threshold,
    Performs d w (.accessControl (.configureMultisig admin signers threshold)) a →
    threshold ≤ signers.toFinset.card

/-- A grant is of a role with a known number. -/
def KnownRole : AdminAction → Prop
  | .grantRole _ n => (roleOf n).isSome = true
  | _ => True

/-- No proposal that all signers approved is a grant of an unknown role. -/
def GrantsKnown (w : World) : Prop :=
  ∀ config id proposal, w.accessControl.multisigConfig = some config →
    Ripe w config id proposal → KnownRole proposal.action

/-! ## Execution -/

section Execution

variable {env : Env} {S T : Storage} {op : Op}

theorem performAction_isOk {action : AdminAction} :
    (performAction action env S).isOk = true ↔ KnownRole action := by
  cases action with
  | grantRole target n =>
    simp only [Outcome.isOk_iff, performAction, check_seq_ok, okOr_ok, modify_ok, KnownRole,
      Option.isSome_iff_exists]
    constructor
    · rintro ⟨_, _, role, hrole, -⟩
      exact ⟨role, hrole⟩
    · rintro ⟨role, hrole⟩
      exact ⟨(), _, role, hrole, rfl⟩
  | pause | unpause | revokeRole | transferAdmin => exact iff_of_true rfl trivial

theorem executeAction_isOk {executor : Address} {id : ℕ} {config : MultisigConfig}
    {proposal : Proposal} (hconfig : S.multisigConfig = some config)
    (hproposal : S.proposal id = some proposal) :
    (executeAction executor id env S).isOk = true ↔
      env.Authenticates executor ∧ executor ∈ config.signers ∧ proposal.executed = false ∧
        env.timestamp ≤ proposal.expiresAt ∧ config.threshold ≤ proposal.approvals.length ∧
        KnownRole proposal.action := by
  simp only [Outcome.isOk_iff, executeAction, requireAuth_seq_ok, loadMultisigConfig_seq_ok,
    requireSigner_seq_ok, fetch_seq_ok, ensure_seq_ok, timestamp_run, modify_run,
    bind_ok (x := performAction _), appendAuditEntry_ok, hconfig, hproposal, Option.some.injEq,
    exists_eq_left']
  constructor
  · rintro ⟨_, _, ha, hmem, hopen, hlive, hquorum, _, T, hT, -⟩
    exact ⟨ha, hmem, hopen, hlive, hquorum,
      performAction_isOk.mp (Outcome.isOk_iff.mpr ⟨_, T, hT⟩)⟩
  · rintro ⟨ha, hmem, hopen, hlive, hquorum, hknown⟩
    obtain ⟨_, T, hT⟩ := Outcome.isOk_iff.mp (performAction_isOk.mpr hknown)
    exact ⟨(), _, ha, hmem, hopen, hlive, hquorum, _, T, hT, rfl⟩

theorem Effect.config (h : Effect env S op T) :
    (∃ admin signers threshold, op = .configureMultisig admin signers threshold ∧
        0 < threshold ∧ T.multisigConfig = some ⟨threshold, signers⟩) ∨
      (∀ admin signers threshold, op ≠ .configureMultisig admin signers threshold) ∧
        T.multisigConfig = S.multisigConfig := by
  cases h with
  | configureMultisig admin signers threshold log _ _ hpos =>
    exact Or.inl ⟨admin, signers, threshold, rfl, hpos, rfl⟩
  | executeAction executor id config proposal T log _ _ _ _ _ hT =>
    exact Or.inr ⟨nofun, hT.multisigConfig⟩
  | _ => exact Or.inr ⟨nofun, rfl⟩

end Execution

/-! ## Steps -/

section Steps

variable {d : Deployment} {w : World} {a : Action}

/-- The stored threshold is not zero. -/
def PositiveThreshold (w : World) : Prop :=
  ∀ config, w.accessControl.multisigConfig = some config → 1 ≤ config.threshold

/-- The stored threshold is at most the number of different signers. -/
def ReachableThreshold (w : World) : Prop :=
  ∀ config, w.accessControl.multisigConfig = some config →
    config.threshold ≤ config.signers.toFinset.card

theorem config_step (d : Deployment) (w : World) (a : Action) :
    (∃ admin signers threshold,
        Performs d w (.accessControl (.configureMultisig admin signers threshold)) a ∧
        0 < threshold ∧ (step d w a).accessControl.multisigConfig = some ⟨threshold, signers⟩) ∨
      (∀ admin signers threshold,
          ¬ Performs d w (.accessControl (.configureMultisig admin signers threshold)) a) ∧
        (step d w a).accessControl.multisigConfig = w.accessControl.multisigConfig := by
  rcases accessControl_step d w a with ⟨c, op, rfl, hop, h⟩ | ⟨h, hnone⟩
  · rcases h.config with ⟨admin, signers, threshold, rfl, hpos, hT⟩ | ⟨hne, hT⟩
    · exact Or.inl ⟨admin, signers, threshold, hop, hpos, hT⟩
    · refine Or.inr ⟨fun admin signers threshold hconf => ?_, hT⟩
      cases hop.unique hconf
      exact hne admin signers threshold rfl
  · exact Or.inr ⟨fun admin signers threshold => hnone _, by rw [h]⟩

theorem positive_step (hw : PositiveThreshold w) (a : Action) :
    PositiveThreshold (step d w a) := by
  intro config hconfig
  rcases config_step d w a with ⟨admin, signers, threshold, -, hpos, h⟩ | ⟨-, h⟩
  · rw [h] at hconfig
    cases hconfig
    exact hpos
  · exact hw config (h ▸ hconfig)

theorem reachable_step (hw : ReachableThreshold w) (a : Action) :
    ReachableThreshold (step d w a) ↔ ConfiguresReachable d w a := by
  unfold ReachableThreshold ConfiguresReachable
  rcases config_step d w a with ⟨admin, signers, threshold, hop, -, h⟩ | ⟨hnone, h⟩
  · rw [h]
    simp only [Option.some.injEq, forall_eq']
    constructor
    · intro hle admin' signers' threshold' hop'
      cases hop.unique hop'
      exact hle
    · exact fun hall => hall admin signers threshold hop
  · rw [h]
    exact iff_of_true hw fun admin signers threshold hop =>
      absurd hop (hnone admin signers threshold)

theorem attainable_iff_of_configured (d : Deployment) (hw : PositiveThreshold w) :
    Attainable w ↔ ReachableThreshold w ∧ GrantsKnown w := by
  constructor
  · intro h
    refine ⟨fun config hconfig => (h config hconfig).1.2, ?_⟩
    intro config id proposal hconfig hripe
    obtain ⟨⟨hpos, hle⟩, hexec⟩ := h config hconfig
    -- some signer exists, and may try
    obtain ⟨v, hv⟩ := Finset.card_pos.mp (hpos.trans hle)
    have hmem := List.mem_toFinset.mp hv
    have hok := hexec id proposal hripe ⟨d, w.now, some v, []⟩ v rfl (Or.inl rfl) hmem
    exact ((executeAction_isOk hconfig hripe.1).mp hok).2.2.2.2.2
  · rintro ⟨hle, hknown⟩ config hconfig
    refine ⟨⟨hw config hconfig, hle config hconfig⟩, fun id proposal hripe env v hnow ha hv => ?_⟩
    obtain ⟨hproposal, hopen, hlive, hall⟩ := hripe
    refine (executeAction_isOk hconfig hproposal).mpr ⟨ha, hv, hopen, hnow ▸ hlive, ?_, ?_⟩
    · exact quorum_of_all (hle config hconfig) hall
    · exact hknown config id proposal hconfig ⟨hproposal, hopen, hlive, hall⟩

end Steps

theorem multisigConfig_genesis {now : ℕ} {tokens : Tokens} {config : MultisigConfig} :
    (genesis now tokens).accessControl.multisigConfig ≠ some config := nofun

/-! ## Runs -/

/-- **Thresholds are attainable**, and what all signers approved can be executed, in every state of
a run, exactly when no step of the run configures a threshold above the number of different signers
and in no state all signers have approved a grant of an unknown role. -/
theorem attainable_iff (d : Deployment) (now : ℕ) (tokens : Tokens) (as : List Action) :
    (∀ p, p <+: as → Attainable (run (step d) (genesis now tokens) p)) ↔
      Along (step d) (ConfiguresReachable d) (genesis now tokens) as ∧
        ∀ p, p <+: as → GrantsKnown (run (step d) (genesis now tokens) p) := by
  have hpositive : ∀ p, PositiveThreshold (run (step d) (genesis now tokens) p) :=
    always (I := PositiveThreshold) (fun _ a hw => positive_step hw a)
      fun _ h => absurd h multisigConfig_genesis
  have hreachable : (∀ p, p <+: as → ReachableThreshold (run (step d) (genesis now tokens) p)) ↔
      Along (step d) (ConfiguresReachable d) (genesis now tokens) as :=
    forall_prefix_iff (I := fun _ : World => True) (Q := ReachableThreshold) (fun _ _ _ => trivial)
      (fun _ a _ hw => reachable_step hw a) trivial fun _ h => absurd h multisigConfig_genesis
  rw [← hreachable, ← forall₂_and]
  exact forall₂_congr fun p _ => attainable_iff_of_configured d (hpositive p)

/-- Signer `2` is listed twice, and two approvals are asked for. -/
def listedTwice : List Action := [
  signed 1 (.accessControl (.initializeContract 1)),
  signed 1 (.accessControl (.configureMultisig 1 [2, 2] 2))]

/-- No proposal gets two approvals of one signer. -/
theorem not_attainable : ¬ ∀ (d : Deployment) (now : ℕ) (tokens : Tokens) (as : List Action),
    Attainable (run (step d) (genesis now tokens) as) := by
  intro h
  have hconfig : (run (step sample) (genesis 0 sampleTokens)
      listedTwice).accessControl.multisigConfig = some ⟨2, [2, 2]⟩ := by decide +kernel
  exact absurd (h sample 0 sampleTokens listedTwice _ hconfig).1.2 (by decide)

end Kora.AccessControl
