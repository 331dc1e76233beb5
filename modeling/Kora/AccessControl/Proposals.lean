import Kora.AccessControl.Roles
import Kora.Lib.Ballot

set_option autoImplicit false

/-!
# Proposals

The multisig and the parameter governance are two ballot boxes with one set of signers.

* `Kind`, `Kind.ballots`, `Kind.event`: the two ballot boxes and what an entry point does to them;
* **`ballots_effect`**: access control refines the ballots;
* `approved_run`, `moved_run`: the stored proposals are the history of the run;
* **`proposal_lifecycle`**: fresh numbers, distinct approvals of signers, one execution, no expired
  action, and what a change of a governed parameter went through.
-/

namespace Kora.AccessControl

open Exec Run Ballots

/-- The kinds of proposal. -/
inductive Kind : Type
  | action
  | parameter

/-- What a proposal is about and when it was made; an action also expires. -/
inductive Motion : Type
  | action (action : AdminAction) (createdAt expiresAt : ℕ)
  | parameter (key : ParameterKey) (newValue createdAt : ℕ)

/-- The ballot on an action. -/
def actionBallot (p : Proposal) : Ballot Address Motion :=
  ⟨.action p.action p.createdAt p.expiresAt, p.approvals, p.executed⟩

/-- The ballot on a parameter. -/
def parameterBallot (p : ParameterProposal) : Ballot Address Motion :=
  ⟨.parameter p.key p.newValue p.createdAt, p.approvals, p.executed⟩

/-- The ballots of a kind. -/
def Kind.ballots (S : Storage) : Kind → Ballots Address Motion
  | .action => ⟨S.nextProposalId.getD 1, fun id => (S.proposal id).map actionBallot⟩
  | .parameter => ⟨S.nextParamProposalId.getD 1, fun id =>
      (S.parameterProposal id).map parameterBallot⟩

/-- What a successful entry point does to the ballots of a kind. -/
def Kind.event (now : ℕ) : Kind → Op → Event Address Motion
  | .action, .proposeAction proposer adminAction =>
    .propose proposer (.action adminAction now (now + proposalTtlLedgers))
  | .action, .approveAction approver id => .approve approver id
  | .action, .executeAction _ id => .execute id
  | .parameter, .proposeParameterChange proposer key value =>
    .propose proposer (.parameter key value now)
  | .parameter, .voteParameterChange signer id => .approve signer id
  | .parameter, .executeParameterChange _ id => .execute id
  | _, _ => .keep

/-- A signer of the current configuration. -/
def IsSigner (S : Storage) (v : Address) : Prop :=
  ∃ config, S.multisigConfig = some config ∧ v ∈ config.signers

/-! ## Refinement -/

section Refinement

variable {env : Env} {S T : Storage} {op : Op} {k : Kind}

theorem map_update {α β : Type} (g : α → β) (f : ℕ → Option α) (id : ℕ) (a : α) :
    (fun i => (Function.update f id (some a) i).map g) =
      Function.update (fun i => (f i).map g) id (some (g a)) := by
  funext i
  by_cases hi : i = id
  · subst hi
    simp
  · simp [hi]

theorem Performed.ballots {action : AdminAction} (h : Performed S action T) :
    k.ballots T = k.ballots S := by
  cases h <;> rfl

theorem ballots_effect (k : Kind) (h : Effect env S op T) :
    Step (k.ballots S) (k.event env.timestamp op) (k.ballots T) := by
  cases k with
  | action =>
    cases h with
    | proposeAction proposer action =>
      simp only [Kind.ballots, map_update]
      exact .propose proposer _
    | approveAction approver id config proposal _ hp hopen _ hnew =>
      simp only [Kind.ballots, map_update]
      exact .approve approver id (actionBallot proposal) (congrArg (Option.map _) hp) hopen hnew
    | executeAction executor id config proposal T log _ hp hopen _ _ hT =>
      have hsame : Kind.action.ballots { T with audit := log } = Kind.action.ballots T := rfl
      rw [hsame, hT.ballots]
      simp only [Kind.ballots, map_update]
      exact .execute id (actionBallot proposal) (congrArg (Option.map _) hp) hopen
    | initializeContract | pause | unpause | grantRole | revokeRole | transferAdmin
    | configureMultisig | proposeParameterChange | voteParameterChange
    | executeParameterChange => exact .keep
  | parameter =>
    cases h with
    | proposeParameterChange proposer key value =>
      simp only [Kind.ballots, map_update]
      exact .propose proposer _
    | voteParameterChange signer id config proposal _ hp hopen hnew =>
      simp only [Kind.ballots, map_update]
      exact .approve signer id (parameterBallot proposal) (congrArg (Option.map _) hp) hopen hnew
    | executeParameterChange caller id config proposal log _ hp hopen =>
      simp only [Kind.ballots, map_update]
      exact .execute id (parameterBallot proposal) (congrArg (Option.map _) hp) hopen
    | executeAction executor id config proposal T log _ _ _ _ _ hT =>
      have hsame : Kind.parameter.ballots { T with audit := log } = Kind.parameter.ballots T := rfl
      rw [hsame, hT.ballots]
      exact .keep
    | initializeContract | pause | unpause | grantRole | revokeRole | transferAdmin
    | configureMultisig | proposeAction | approveAction => exact .keep

theorem approves_effect {id : ℕ} {v : Address} (h : Effect env S op T)
    (he : (k.event env.timestamp op).Approves (k.ballots S) id v) : IsSigner S v := by
  cases h with
  | proposeAction proposer action config hs | approveAction approver id config proposal hs
  | proposeParameterChange proposer key value config log hs
  | voteParameterChange signer id config proposal hs =>
    cases k with
    | action | parameter =>
      first
        | exact he.elim
        | exact ⟨config, hs.configured, he.1 ▸ hs.signer⟩
  | initializeContract | pause | unpause | grantRole | revokeRole | transferAdmin
  | configureMultisig | executeAction | executeParameterChange =>
    cases k <;> exact he.elim

end Refinement

/-! ## Steps -/

section Steps

/-- The step is an approval of proposal `id` by `v`. -/
def Kind.Approves (k : Kind) (d : Deployment) (id : ℕ) (v : Address) (w : World)
    (a : Action) : Prop :=
  ∃ op, Performs d w (.accessControl op) a ∧
    (k.event w.now op).Approves (k.ballots w.accessControl) id v

/-- The step makes the proposal `id` about `m`. -/
def Kind.Moves (k : Kind) (d : Deployment) (id : ℕ) (m : Motion) (w : World) (a : Action) : Prop :=
  ∃ op, Performs d w (.accessControl op) a ∧
    (k.event w.now op).Moves (k.ballots w.accessControl) id m

/-- The step executes proposal `id`. -/
def Kind.Executes (k : Kind) (d : Deployment) (id : ℕ) (w : World) (a : Action) : Prop :=
  ∃ op, Performs d w (.accessControl op) a ∧ k.event w.now op = .execute id

/-- The step makes a proposal and returns the number `id`. -/
def Kind.Returns (d : Deployment) (id : ℕ) (w : World) : Kind → Action → Prop
  | .action, a => ∃ c proposer action S, a = .call c ∧
      c.entry = .accessControl (.proposeAction proposer action) ∧
      proposeAction proposer action (c.env d w) w.accessControl = .ok id S
  | .parameter, a => ∃ c proposer key value S, a = .call c ∧
      c.entry = .accessControl (.proposeParameterChange proposer key value) ∧
      proposeParameterChange proposer key value (c.env d w) w.accessControl = .ok id S

variable {d : Deployment} {w : World} {a : Action} {k : Kind}

theorem ballots_step (k : Kind) (d : Deployment) (w : World) (a : Action) :
    (∃ op, Performs d w (.accessControl op) a ∧
      Step (k.ballots w.accessControl) (k.event w.now op)
        (k.ballots (step d w a).accessControl)) ∨
    (k.ballots (step d w a).accessControl = k.ballots w.accessControl ∧
      ∀ op, ¬ Performs d w (.accessControl op) a) := by
  rcases accessControl_step d w a with ⟨c, op, rfl, hop, h⟩ | ⟨h, hnone⟩
  · exact Or.inl ⟨op, hop, ballots_effect k h⟩
  · exact Or.inr ⟨by rw [h], hnone⟩

theorem wellFormed_step (hw : (k.ballots w.accessControl).WellFormed) (a : Action) :
    (k.ballots (step d w a).accessControl).WellFormed := by
  rcases ballots_step k d w a with ⟨op, -, h⟩ | ⟨h, -⟩
  · exact h.wellFormed hw
  · rwa [h]

theorem recorded_step {Q : Ballots Address Motion → Prop}
    {E : Ballots Address Motion → Event Address Motion → Prop}
    (hQ : ∀ {B B' : Ballots Address Motion} {e}, B.WellFormed → Step B e B' → (Q B' ↔ Q B ∨ E B e))
    (hw : (k.ballots w.accessControl).WellFormed) (a : Action) :
    Q (k.ballots (step d w a).accessControl) ↔ Q (k.ballots w.accessControl) ∨
      ∃ op, Performs d w (.accessControl op) a ∧
        E (k.ballots w.accessControl) (k.event w.now op) := by
  rcases ballots_step k d w a with ⟨op, hop, h⟩ | ⟨h, hnone⟩
  · rw [hQ hw h]
    refine or_congr_right ⟨fun hE => ⟨op, hop, hE⟩, ?_⟩
    rintro ⟨op', hop', hE⟩
    cases hop.unique hop'
    exact hE
  · rw [h]
    refine (or_iff_left ?_).symm
    rintro ⟨op, hop, -⟩
    exact hnone op hop

theorem Kind.Approves.isSigner {id : ℕ} {v : Address} (h : k.Approves d id v w a) :
    IsSigner w.accessControl v := by
  obtain ⟨op, hop, he⟩ := h
  rcases accessControl_step d w a with ⟨c, op', rfl, hop', heff⟩ | ⟨-, hnone⟩
  · cases hop.unique hop'
    exact approves_effect heff he
  · exact absurd hop (hnone op)

theorem Kind.Returns.next {id : ℕ} (h : k.Returns d id w a) :
    id = (k.ballots w.accessControl).next ∧
      (k.ballots (step d w a).accessControl).next = id + 1 := by
  cases k with
  | action =>
    obtain ⟨c, proposer, action, S, rfl, he, h⟩ := h
    obtain ⟨hid, heff⟩ := proposeAction_ok h
    have hexec : c.entry.exec (c.env d w) w = .ok () { w with accessControl := S } := by
      rw [he]
      exact onAccessControl_ok.mpr ⟨S, bind_ok.mpr ⟨id, S, h, rfl⟩, rfl⟩
    rw [step_call_of_ok hexec]
    refine ⟨hid, ?_⟩
    rw [hid]
    cases heff
    rfl
  | parameter =>
    obtain ⟨c, proposer, key, value, S, rfl, he, h⟩ := h
    obtain ⟨hid, heff⟩ := proposeParameterChange_ok h
    have hexec : c.entry.exec (c.env d w) w = .ok () { w with accessControl := S } := by
      rw [he]
      exact onAccessControl_ok.mpr ⟨S, bind_ok.mpr ⟨id, S, h, rfl⟩, rfl⟩
    rw [step_call_of_ok hexec]
    refine ⟨hid, ?_⟩
    rw [hid]
    cases heff
    rfl

theorem next_le_step (k : Kind) (d : Deployment) (w : World) (a : Action) :
    (k.ballots w.accessControl).next ≤ (k.ballots (step d w a).accessControl).next := by
  rcases ballots_step k d w a with ⟨op, -, h⟩ | ⟨h, -⟩
  · exact h.next_le
  · rw [h]

end Steps

/-! ## Runs -/

section Runs

variable {now : ℕ} {tokens : Tokens} {as : List Action} {d : Deployment} {k : Kind}

theorem wellFormed_genesis (k : Kind) (now : ℕ) (tokens : Tokens) :
    (k.ballots (genesis now tokens).accessControl).WellFormed := by
  cases k with
  | action | parameter => exact ⟨fun _ _ => rfl, nofun⟩

theorem wellFormed_run (k : Kind) (d : Deployment) (now : ℕ) (tokens : Tokens) (as : List Action) :
    (k.ballots (run (step d) (genesis now tokens) as).accessControl).WellFormed :=
  always (I := fun w : World => (k.ballots w.accessControl).WellFormed)
    (fun _ a hw => wellFormed_step hw a) (wellFormed_genesis k now tokens) as

/-- **The recorded approvals are those of the run.** -/
theorem approved_run {id : ℕ} {v : Address} :
    (k.ballots (run (step d) (genesis now tokens) as).accessControl).Approved id v ↔
      Happened (step d) (k.Approves d id v) (genesis now tokens) as := by
  refine (happened_iff (I := fun w : World => (k.ballots w.accessControl).WellFormed)
    (Q := fun w => (k.ballots w.accessControl).Approved id v) (E := k.Approves d id v)
    (fun _ a hw => wellFormed_step hw a)
    (fun _ a hw => recorded_step (fun hB h => h.approved_iff hB) hw a)
    (wellFormed_genesis k now tokens)).trans (or_iff_right ?_)
  cases k with
  | action | parameter => rintro ⟨b, hb, -⟩; cases hb

theorem moved_run {id : ℕ} {m : Motion} :
    (k.ballots (run (step d) (genesis now tokens) as).accessControl).Moved id m ↔
      Happened (step d) (k.Moves d id m) (genesis now tokens) as := by
  refine (happened_iff (I := fun w : World => (k.ballots w.accessControl).WellFormed)
    (Q := fun w => (k.ballots w.accessControl).Moved id m) (E := k.Moves d id m)
    (fun _ a hw => wellFormed_step hw a)
    (fun _ a hw => recorded_step (fun hB h => h.moved_iff hB) hw a)
    (wellFormed_genesis k now tokens)).trans (or_iff_right ?_)
  cases k with
  | action | parameter => rintro ⟨b, hb, -⟩; cases hb

theorem returns_once (k : Kind) (d : Deployment) (id : ℕ) :
    Once (step d) (fun w a => k.Returns d id w a) (genesis now tokens) as := by
  refine once_of_mark (I := fun _ => True) (F := fun w => id < (k.ballots w.accessControl).next)
    (fun _ _ _ => trivial) ?_ ?_ trivial
  · intro w a _ h
    have hnext := h.next
    omega
  · intro w a _ h
    exact h.trans_le (next_le_step k d w a)

/-- **Proposals are executed once.** -/
theorem executes_once (k : Kind) (d : Deployment) (id : ℕ) :
    Once (step d) (k.Executes d id) (genesis now tokens) as := by
  refine once_of_mark (I := fun w : World => (k.ballots w.accessControl).WellFormed)
    (F := fun w => (k.ballots w.accessControl).Closed id) (fun _ a hw => wellFormed_step hw a)
    ?_ ?_ (wellFormed_genesis k now tokens)
  · intro w a hw hexec
    refine ⟨?_, (recorded_step (fun hB h => h.closed_iff hB) hw a).mpr (Or.inr hexec)⟩
    obtain ⟨op, hop, he⟩ := hexec
    rcases ballots_step k d w a with ⟨op', hop', h⟩ | ⟨-, hnone⟩
    · cases hop.unique hop'
      rw [he] at h
      exact h.not_closed
    · exact absurd hop (hnone op)
  · intro w a hw hclosed
    exact (recorded_step (fun hB h => h.closed_iff hB) hw a).mpr (Or.inl hclosed)

end Runs

/-! ## Lifecycle -/

section Lifecycle

/-- The largest value of a governed parameter. -/
def bound : ParameterKey → ℕ
  | .feeBps | .latePenaltyBps => 10_000
  | .maxRiskScore => 100

/-- The step approves or executes no action that expired. -/
def Timely (d : Deployment) (w : World) (a : Action) : Prop :=
  ∀ v id proposal, Performs d w (.accessControl (.approveAction v id)) a ∨
      Performs d w (.accessControl (.executeAction v id)) a →
    w.accessControl.proposal id = some proposal → w.now ≤ proposal.expiresAt

/-- The step enacts the proposal `id` on the parameter `key`. -/
structure Enacts (d : Deployment) (w : World) (a : Action) (key : ParameterKey) (id : ℕ)
    (config : MultisigConfig) (proposal : ParameterProposal) : Prop where
  executes : Kind.parameter.Executes d id w a
  configured : w.accessControl.multisigConfig = some config
  stored : w.accessControl.parameterProposal id = some proposal
  pending : proposal.executed = false
  about : proposal.key = key
  inRange : proposal.newValue ≤ bound key
  quorum : config.threshold ≤ proposal.approvals.length
  ripe : proposal.createdAt + governanceTimelockDelay ≤ w.now
  value : (step d w a).accessControl.parameter key = some proposal.newValue

/-- A parameter changes in the step only by enacting exactly one proposal. -/
def Enacted (d : Deployment) (w : World) (a : Action) : Prop :=
  ∀ key, (step d w a).accessControl.parameter key ≠ w.accessControl.parameter key →
    ∃! id, ∃ config proposal, Enacts d w a key id config proposal

/-- The life of the proposals in a run. -/
structure Lifecycle (d : Deployment) (s : World) (as : List Action) : Prop where
  /-- No number is returned twice. -/
  fresh : ∀ k id, Once (step d) (fun w a => Kind.Returns d id w k a) s as
  /-- A stored proposal was made under its number, with its subject, at its time. -/
  origin : ∀ k id b, (Kind.ballots (run (step d) s as).accessControl k).ballot id = some b →
    Happened (step d) (k.Moves d id b.motion) s as
  /-- No address approves twice. -/
  distinct : ∀ k id b, (Kind.ballots (run (step d) s as).accessControl k).ballot id = some b →
    b.approvals.Nodup
  /-- Each approval was given by a signer of the time. -/
  signers : ∀ k id b, (Kind.ballots (run (step d) s as).accessControl k).ballot id = some b →
    ∀ v ∈ b.approvals,
      Happened (step d) (fun w a => k.Approves d id v w a ∧ IsSigner w.accessControl v) s as
  /-- A proposal takes effect at most once. -/
  once : ∀ k id, Once (step d) (Kind.Executes k d id) s as
  /-- An expired action is neither approved nor executed. -/
  timely : Along (step d) (Timely d) s as
  /-- Parameters only change by enacting a proposal. -/
  enacted : Along (step d) (Enacted d) s as

/-- The parameter proposals are in range. -/
def InRange (S : Storage) : Prop :=
  ∀ id proposal, S.parameterProposal id = some proposal → proposal.newValue ≤ bound proposal.key

variable {d : Deployment} {w : World} {a : Action} {env : Env} {S T : Storage} {op : Op}

theorem requireValidParameter_ok {key : ParameterKey} {value : ℕ} :
    requireValidParameter key value = .ok () ↔ value ≤ bound key := by
  cases key with
  | feeBps | latePenaltyBps | maxRiskScore => exact guardK_ok

theorem inRange_effect (hS : InRange S) (h : Effect env S op T) : InRange T := by
  have hwrite : ∀ (id : ℕ) (q : ParameterProposal), q.newValue ≤ bound q.key → ∀ id' q',
      Function.update S.parameterProposal id (some q) id' = some q' →
      q'.newValue ≤ bound q'.key := by
    intro id q hq id' q' h'
    rw [Function.update_apply] at h'
    split_ifs at h' with heq
    · cases h'
      exact hq
    · exact hS id' q' h'
  cases h with
  | proposeParameterChange proposer key value config log _ hvalid =>
    exact hwrite _ _ (requireValidParameter_ok.mp hvalid)
  | voteParameterChange signer id config proposal _ hp => exact hwrite _ _ (hS id proposal hp)
  | executeParameterChange caller id config proposal log _ hp =>
    exact hwrite _ _ (hS id proposal hp)
  | executeAction executor id config proposal T log _ _ _ _ _ hT =>
    intro id' q hq
    change T.parameterProposal id' = some q at hq
    rw [hT.parameterProposal] at hq
    exact hS id' q hq
  | initializeContract | pause | unpause | grantRole | revokeRole | transferAdmin
  | configureMultisig | proposeAction | approveAction => exact hS

theorem inRange_step (hw : InRange w.accessControl) (a : Action) :
    InRange (step d w a).accessControl := by
  rcases accessControl_step d w a with ⟨c, op, rfl, -, h⟩ | ⟨h, -⟩
  · exact inRange_effect hw h
  · rwa [h]

theorem timely_step (d : Deployment) (w : World) (a : Action) : Timely d w a := by
  intro v id proposal hop hp
  rcases accessControl_step d w a with ⟨c, op, rfl, hop', h⟩ | ⟨-, hnone⟩
  · generalize (step d w (.call c)).accessControl = T at h
    rcases hop with hop | hop
    · cases hop.unique hop'
      cases h with
      | approveAction _ _ config p _ hp' _ hlive =>
        rw [hp] at hp'
        cases hp'
        exact hlive
    · cases hop.unique hop'
      cases h with
      | executeAction _ _ config p T log _ hp' _ hlive =>
        rw [hp] at hp'
        cases hp'
        exact hlive
  · rcases hop with hop | hop <;> exact absurd hop (hnone _)

/-- **A parameter only changes by executing one proposal about it.** -/
theorem enacted_step (hw : InRange w.accessControl) (a : Action) : Enacted d w a := by
  intro key hchange
  rcases accessControl_step d w a with ⟨c, op, rfl, hop, h⟩ | ⟨h, -⟩
  · generalize hT : (step d w (.call c)).accessControl = T at h hchange
    cases h with
    | executeParameterChange caller id config proposal log hs hp hopen hquorum hripe =>
      have hkey : proposal.key = key := by
        by_contra hne
        exact hchange (Function.update_of_ne (Ne.symm hne) _ _)
      subst hkey
      refine ⟨id, ⟨config, proposal, ⟨_, hop, rfl⟩, hs.configured, hp, hopen, rfl,
        hw id proposal hp, hquorum, hripe, ?_⟩, ?_⟩
      · rw [hT]
        show Function.update w.accessControl.parameter proposal.key _ proposal.key = _
        rw [Function.update_self]
      · rintro id' ⟨config', proposal', h'⟩
        obtain ⟨op', hop', he⟩ := h'.executes
        cases hop.unique hop'
        cases he
        rfl
    | executeAction executor id config proposal T log _ _ _ _ _ hperf =>
      exact absurd (congrFun hperf.parameter key) hchange
    | initializeContract | pause | unpause | grantRole | revokeRole | transferAdmin
    | configureMultisig | proposeAction | approveAction | proposeParameterChange
    | voteParameterChange => exact absurd rfl hchange
  · rw [h] at hchange
    exact absurd rfl hchange

/-- **The lifecycle of proposals** holds in every run. -/
theorem proposal_lifecycle (d : Deployment) (now : ℕ) (tokens : Tokens) (as : List Action) :
    Lifecycle d (genesis now tokens) as where
  fresh k := returns_once k d
  origin _ _ b hb := moved_run.mp ⟨b, hb, rfl⟩
  distinct k := (wellFormed_run k d now tokens as).nodup
  signers _ _ b hb _ hv := (approved_run.mp ⟨b, hb, hv⟩).imp fun _ _ h => ⟨h, h.isSigner⟩
  once k := executes_once k d
  timely := .of_always (I := fun _ => True) (fun _ _ _ => trivial)
    (fun w a _ => timely_step d w a) trivial as
  enacted := .of_always (I := fun w : World => InRange w.accessControl)
    (fun _ a hw => inRange_step hw a) (fun _ a hw => enacted_step hw a)
    (s := genesis now tokens) nofun as

end Lifecycle

end Kora.AccessControl
