import Kora.AccessControl.Proposals

set_option autoImplicit false

/-!
# The quorum at execution

An execution counts all recorded approvals against the current threshold, also those of addresses
that were signers when they approved and are not any more. The count is one of current signers as
long as no reconfiguration takes a signer away from a proposal that still needs its approval.

* `BackedBySigners`: the execution is approved by a threshold of current signers;
* `KeepsApprovers`: a reconfiguration leaves the pending proposals their approvers, or a threshold
  of them;
* `secured_step`: what the steps between two reconfigurations keep;
* **`executions_backed`**: every run.
-/

namespace Kora.AccessControl

open Exec Run Ballots

/-- The execution of proposal `id` after `p` is approved, in `p`, by as many different signers of
the current configuration as its threshold asks for. -/
def BackedBySigners (d : Deployment) (s : World) (k : Kind) (id : ℕ) (p : List Action) : Prop :=
  ∃ config, (run (step d) s p).accessControl.multisigConfig = some config ∧
    ∃ voters : Finset Address, config.threshold ≤ voters.card ∧
      ∀ v ∈ voters, v ∈ config.signers ∧ Happened (step d) (k.Approves d id v) s p

/-- A proposal can still be executed at time `now`: actions expire. -/
def Motion.Live (now : ℕ) : Motion → Prop
  | .action _ _ expiresAt => now ≤ expiresAt
  | .parameter _ _ _ => True

/-- When the step configures the multisig, every proposal that was not executed and did not expire
keeps all its approvers among the new signers, or at least the new threshold of them. -/
def KeepsApprovers (d : Deployment) (w : World) (a : Action) : Prop :=
  ∀ admin signers threshold,
    Performs d w (.accessControl (.configureMultisig admin signers threshold)) a →
    ∀ k, (Kind.ballots w.accessControl k).Secured (Motion.Live w.now) signers threshold

/-- Every proposal that can still be executed is approved by current signers only, or by the
current threshold of them. -/
def Secured (w : World) : Prop := ∀ config, w.accessControl.multisigConfig = some config →
  ∀ k, (Kind.ballots w.accessControl k).Secured (Motion.Live w.now) config.signers
    config.threshold

section Steps

variable {d : Deployment} {w : World} {a : Action} {k : Kind} {env : Env} {S T : Storage} {op : Op}

theorem multisigConfig_effect (h : Effect env S op T)
    (hop : ∀ admin signers threshold, op ≠ .configureMultisig admin signers threshold) :
    T.multisigConfig = S.multisigConfig := by
  cases h with
  | configureMultisig admin signers threshold => exact absurd rfl (hop admin signers threshold)
  | executeAction executor id config proposal T log _ _ _ _ _ hT => exact hT.multisigConfig
  | initializeContract | pause | unpause | grantRole | revokeRole | transferAdmin | proposeAction
  | approveAction | proposeParameterChange | voteParameterChange | executeParameterChange => rfl

theorem Motion.Live.of_le {now later : ℕ} {m : Motion} (hle : now ≤ later) (h : m.Live later) :
    m.Live now := by
  cases m with
  | action _ _ expiresAt => exact hle.trans h
  | parameter => trivial

/-- **One step keeps the proposals secured** if it keeps their approvers. -/
theorem secured_step (hw : Secured w) (h : KeepsApprovers d w a) : Secured (step d w a) := by
  have hlive : ∀ m : Motion, m.Live (step d w a).now → m.Live w.now :=
    fun _ hm => hm.of_le (now_le_step d w a)
  rcases accessControl_step d w a with ⟨c, op, rfl, hop, heff⟩ | ⟨hsame, -⟩
  · by_cases hconf : ∃ admin signers threshold, op = .configureMultisig admin signers threshold
    · obtain ⟨admin, signers, threshold, rfl⟩ := hconf
      have hkept := h admin signers threshold hop
      intro config hconfig k
      refine Secured.mono ?_ hlive
      generalize (step d w (.call c)).accessControl = T at heff hconfig
      cases heff
      cases hconfig
      cases k with
      | action => exact hkept .action
      | parameter => exact hkept .parameter
    · intro config hconfig k
      rw [multisigConfig_effect heff fun _ _ _ he => hconf ⟨_, _, _, he⟩] at hconfig
      refine Secured.mono (Step.secured (ballots_effect k heff) (hw config hconfig k) ?_) hlive
      intro id v hv
      obtain ⟨config', hconfig', hsigner⟩ := approves_effect heff hv
      obtain rfl := Option.some.inj (hconfig.symm.trans hconfig')
      exact hsigner
  · intro config hconfig k
    rw [hsame] at hconfig ⊢
    exact Secured.mono (hw config hconfig k) hlive

/-- What an execution checks: the proposal is stored, open and live, and its approvals reach the
threshold. -/
theorem Kind.Executes.checked {id : ℕ} (h : k.Executes d id w a) :
    ∃ config b, w.accessControl.multisigConfig = some config ∧
      (k.ballots w.accessControl).ballot id = some b ∧ b.closed = false ∧ b.motion.Live w.now ∧
      config.threshold ≤ b.approvals.length := by
  obtain ⟨op, hop, he⟩ := h
  rcases accessControl_step d w a with ⟨c, op', rfl, hop', h⟩ | ⟨-, hnone⟩
  · cases hop.unique hop'
    generalize (step d w (.call c)).accessControl = T at h
    cases h with
    | executeAction executor id' config proposal T log hs hp hopen hlive hquorum =>
      cases k with
      | action =>
        cases he
        exact ⟨config, actionBallot proposal, hs.configured, congrArg (Option.map _) hp, hopen,
          hlive, hquorum⟩
      | parameter => cases he
    | executeParameterChange caller id' config proposal log hs hp hopen hquorum =>
      cases k with
      | action => cases he
      | parameter =>
        cases he
        exact ⟨config, parameterBallot proposal, hs.configured, congrArg (Option.map _) hp, hopen,
          trivial, hquorum⟩
    | initializeContract | pause | unpause | grantRole | revokeRole | transferAdmin
    | configureMultisig | proposeAction | approveAction | proposeParameterChange
    | voteParameterChange => cases k <;> cases he
  · exact absurd hop (hnone op)

end Steps

/-! ## Runs -/

section Runs

theorem secured_genesis (now : ℕ) (tokens : Tokens) : Secured (genesis now tokens) := by
  rintro _ ⟨⟩

/-- **The quorum of current signers**: in a run whose reconfigurations leave the pending proposals
their approvers, or a threshold of them, every execution is backed by a threshold of different
current signers. -/
theorem executions_backed (d : Deployment) (now : ℕ) (tokens : Tokens) (as : List Action)
    (h : Along (step d) (KeepsApprovers d) (genesis now tokens) as) :
    ∀ p a, p ++ [a] <+: as → ∀ k id,
      Kind.Executes k d id (run (step d) (genesis now tokens) p) a →
        BackedBySigners d (genesis now tokens) k id p := by
  intro p a hp k id hexec
  obtain ⟨bs, rfl⟩ := (List.prefix_append p [a]).trans hp
  have hsecured : Secured (run (step d) (genesis now tokens) p) :=
    invariant (fun _ _ hw ha => secured_step hw ha) (secured_genesis now tokens)
      (along_append.mp h).1
  obtain ⟨config, b, hconfig, hb, hopen, hlive, hcount⟩ := hexec.checked
  obtain ⟨voters, hcard, hvoters⟩ := (hsecured config hconfig k id b hb hopen hlive).quorum
    ((wellFormed_run k d now tokens p).nodup id b hb) hcount
  refine ⟨config, hconfig, voters, hcard, fun v hv => ⟨(hvoters v hv).1, ?_⟩⟩
  exact approved_run.mp ⟨b, hb, (hvoters v hv).2⟩

/-- Signers `2` and `3` approve a pause, and `4` becomes a signer too. -/
def addedSigner : List Action := [
  signed 1 (.accessControl (.initializeContract 1)),
  signed 1 (.accessControl (.configureMultisig 1 [2, 3] 2)),
  signed 2 (.accessControl (.proposeAction 2 .pause)),
  signed 3 (.accessControl (.approveAction 3 1)),
  signed 1 (.accessControl (.configureMultisig 1 [2, 3, 4] 2))]

theorem forall_approvals {B : Ballots Address Motion} (hB : B.WellFormed) {P : Address → Prop}
    (h : ∀ id < B.next, ∀ v ∈ ((B.ballot id).map (·.approvals)).getD [], P v) (id : ℕ)
    (b : Ballot Address Motion) (hb : B.ballot id = some b) : ∀ v ∈ b.approvals, P v := by
  have hlt : id < B.next := by
    by_contra hge
    rw [hB.fresh id (not_lt.mp hge)] at hb
    cases hb
  simpa [hb] using h id hlt

/-- The new signer executes the pause that the other two approved. -/
theorem executions_backed_sample :
    BackedBySigners sample (genesis 0 sampleTokens) .action 1 addedSigner := by
  have hfirst : KeepsApprovers sample (run (step sample) (genesis 0 sampleTokens)
      (addedSigner.take 1)) (signed 1 (.accessControl (.configureMultisig 1 [2, 3] 2))) := by
    rintro _ _ _ ⟨-, ⟨⟩⟩ k id b hb - -
    refine Or.inl (forall_approvals (wellFormed_run k sample 0 sampleTokens _) ?_ id b hb)
    cases k <;> decide +kernel
  have hsecond : KeepsApprovers sample (run (step sample) (genesis 0 sampleTokens)
      (addedSigner.take 4)) (signed 1 (.accessControl (.configureMultisig 1 [2, 3, 4] 2))) := by
    rintro _ _ _ ⟨-, ⟨⟩⟩ k id b hb - -
    refine Or.inl (forall_approvals (wellFormed_run k sample 0 sampleTokens _) ?_ id b hb)
    cases k <;> decide +kernel
  have hkeeps : Along (step sample) (KeepsApprovers sample) (genesis 0 sampleTokens)
      (addedSigner ++ [signed 4 (.accessControl (.executeAction 4 1))]) := by
    refine ⟨?_, hfirst, ?_, ?_, hsecond, ?_, trivial⟩
    all_goals rintro _ _ _ ⟨-, ⟨⟩⟩
  exact executions_backed sample 0 sampleTokens _ hkeeps addedSigner _ (List.prefix_refl _) .action
    1 ⟨.executeAction 4 1, ⟨by decide +kernel, rfl⟩, rfl⟩

/-- Signers `2` and `3` approve a pause; then `4` becomes the only signer and executes it. -/
def replacedSigners : List Action := [
  signed 1 (.accessControl (.initializeContract 1)),
  signed 1 (.accessControl (.configureMultisig 1 [2, 3] 2)),
  signed 2 (.accessControl (.proposeAction 2 .pause)),
  signed 3 (.accessControl (.approveAction 3 1)),
  signed 1 (.accessControl (.configureMultisig 1 [4] 1))]

/-- The execution counts the approvals of former signers. -/
theorem backed_by_former_signers : ¬ ∀ (d : Deployment) (now : ℕ) (tokens : Tokens)
    (p : List Action) (a : Action) (k : Kind) (id : ℕ),
    Kind.Executes k d id (run (step d) (genesis now tokens) p) a →
      BackedBySigners d (genesis now tokens) k id p := by
  intro h
  have hexec : Kind.Executes .action sample 1
      (run (step sample) (genesis 0 sampleTokens) replacedSigners)
      (signed 4 (.accessControl (.executeAction 4 1))) :=
    ⟨.executeAction 4 1, ⟨by decide +kernel, rfl⟩, rfl⟩
  obtain ⟨config, hconfig, voters, hcard, hvoters⟩ :=
    h sample 0 sampleTokens replacedSigners _ .action 1 hexec
  obtain rfl : ⟨1, [4]⟩ = config := by
    have : (run (step sample) (genesis 0 sampleTokens) replacedSigners).accessControl.multisigConfig
        = some ⟨1, [4]⟩ := by decide +kernel
    exact Option.some.inj (this.symm.trans hconfig)
  obtain ⟨v, hv⟩ := Finset.card_pos.mp hcard
  obtain ⟨hsigner, happroved⟩ := hvoters v hv
  obtain rfl := List.mem_singleton.mp hsigner
  -- the only current signer is not among the approvers
  obtain ⟨b, hb, hmem⟩ := approved_run.mpr happroved
  have ha : ((Kind.ballots (run (step sample) (genesis 0 sampleTokens)
      replacedSigners).accessControl .action).ballot 1).map (·.approvals) = some [2, 3] := by
    decide +kernel
  rw [hb] at ha
  have happrovers : b.approvals = [2, 3] := Option.some.inj ha
  rw [happrovers] at hmem
  exact absurd hmem (by decide)

end Runs

end Kora.AccessControl
