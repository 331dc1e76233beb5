import Kora.RiskRegistry.Stake
import Kora.System.Custody

set_option autoImplicit false

/-!
# The registry holds the stakes it records

Stakes are deposited when a verifier is added and paid out when it is removed; a default only
lowers what is recorded. A stake that is recorded over another one leaves the older deposit in the
registry.

* `Flow.src_registry`: only a removal takes anything out of the registry;
* `StakesHeld`, `stakesHeld_step`: the invariant;
* `removeVerifier_succeeds_iff`: when a removal goes through;
* **`stakes_returnable`**: in every run the recorded stakes are held, all at once, so that every
  verifier can be removed with its stake.
-/

namespace Kora

open Exec Run

/-! ## Out of the registry -/

section Payer

variable {d : Deployment} {w : World} {c : Call} {e : Entry} {t : Transfer} {a : Action}

theorem Deployment.riskRegistry_ne (d : Deployment) : d.marketplace ≠ d.riskRegistry ∧
    d.financingPool ≠ d.riskRegistry ∧ d.treasury ≠ d.riskRegistry := by
  have h := d.distinct
  simp only [List.nodup_cons, List.mem_cons, not_or, List.not_mem_nil] at h
  exact ⟨h.2.2.1.2.2.1, h.2.2.2.1.2.1, h.2.2.2.2.1.1⟩

/-- **Only a removal pays out of the registry.** -/
theorem Flow.src_registry (h : Flow (c.env d w) w e t)
    (hasks : w.tokens.asksAuth t.token = true) (hsrc : t.src = d.riskRegistry) :
    ∃ admin v, e = .riskRegistry (.removeVerifier admin v) := by
  obtain ⟨hmarket, hpool, htreasury⟩ := d.riskRegistry_ne
  cases h.payout hasks (by rw [hsrc]; simp [Deployment.contracts]) with
  | stakeBack admin v => exact ⟨admin, v, rfl⟩
  | refund _ _ hpays => exact absurd (hpays.symm.trans hsrc) hmarket
  | distribution _ _ hpays => exact absurd (hpays.symm.trans hsrc) hpool
  | escrowBack _ _ _ hpays => exact absurd (hpays.symm.trans hsrc) hpool
  | treasury _ hpays => exact absurd (hpays.symm.trans hsrc) htreasury

theorem registry_balance_le
    (h : ∀ env admin v, performed d w a ≠ some (env, .riskRegistry (.removeVerifier admin v)))
    {token : Address} (hasks : w.tokens.asksAuth token = true) :
    w.tokens.balance token d.riskRegistry ≤ (step d w a).tokens.balance token d.riskRegistry := by
  rcases step_cases d w a with ⟨c, rfl, hs, he⟩ | ⟨n, rfl, he⟩ | ⟨c, rfl, -, he⟩
  · refine (Entry.exec_flow he).balance_le ?_
    rintro t ⟨hpos, hflow⟩
    refine ⟨hpos, fun htoken hsrc => ?_⟩
    obtain ⟨admin, v, hentry⟩ := hflow.src_registry (by rw [htoken, hasks]) hsrc
    refine h (c.env d w) admin v ?_
    rw [performed_of_succeeds hs, hentry]
  · rw [he]
  · rw [he]

theorem step_token_contracts (d : Deployment) (w : World) (a : Action) :
    (step d w a).tokens.asksAuth = w.tokens.asksAuth ∧
      (step d w a).tokens.decimals = w.tokens.decimals := by
  obtain ⟨ts, hts, -⟩ := step_flow d w a
  rw [hts]
  exact ⟨w.tokens.after_asksAuth ts, w.tokens.after_decimals ts⟩

end Payer

namespace RiskRegistry

/-! ## Sums of stakes -/

section Sums

variable {f g : Address → ℤ} {x : Address} {amount : ℤ}

theorem sum_le_add (h : ∀ v, g v ≤ f v + if v = x then amount else 0) (hamount : 0 ≤ amount)
    (vs : Finset Address) : ∑ v ∈ vs, g v ≤ ∑ v ∈ vs, f v + amount := by
  calc ∑ v ∈ vs, g v ≤ ∑ v ∈ vs, (f v + if v = x then amount else 0) :=
        Finset.sum_le_sum fun v _ => h v
    _ = ∑ v ∈ vs, f v + if x ∈ vs then amount else 0 := by
        rw [Finset.sum_add_distrib, Finset.sum_ite_eq' vs x fun _ => amount]
    _ ≤ ∑ v ∈ vs, f v + amount := by
        split_ifs <;> omega

theorem sum_le_insert_sub (h : ∀ v, g v = if v = x then 0 else f v) (hf : ∀ v, 0 ≤ f v)
    (vs : Finset Address) : ∑ v ∈ vs, g v ≤ ∑ v ∈ insert x vs, f v - f x := by
  have hg : ∀ v, 0 ≤ g v := by
    intro v
    rw [h]
    split_ifs
    · exact le_rfl
    · exact hf v
  have hx : x ∈ insert x vs := Finset.mem_insert_self x vs
  calc ∑ v ∈ vs, g v ≤ ∑ v ∈ insert x vs, g v :=
        Finset.sum_le_sum_of_subset_of_nonneg (Finset.subset_insert x vs) fun v _ _ => hg v
    _ = ∑ v ∈ (insert x vs).erase x, g v := by
        rw [← Finset.add_sum_erase _ _ hx, h x, if_pos rfl, zero_add]
    _ = ∑ v ∈ (insert x vs).erase x, f v :=
        Finset.sum_congr rfl fun v hv => by rw [h, if_neg (Finset.ne_of_mem_erase hv)]
    _ = ∑ v ∈ insert x vs, f v - f x := by
        rw [← Finset.add_sum_erase _ _ hx, add_sub_cancel_left]

end Sums

/-! ## The invariant -/

/-- The recorded stakes of the verifiers in `vs`, where `token` is the staking token. -/
def backing (S : Storage) (token : Address) (vs : Finset Address) : ℤ :=
  if S.stakingToken = some token then ∑ v ∈ vs, max 0 (S.stake v) else 0

/-- The registry holds what it records, on top of what it held in the tokens `T` at the start. -/
structure StakesHeld (d : Deployment) (T : Tokens) (w : World) : Prop where
  asksAuth : w.tokens.asksAuth = T.asksAuth
  decimals : w.tokens.decimals = T.decimals
  unstaked : w.riskRegistry.admin = none →
    w.riskRegistry.stakingToken = none ∧ ∀ v, w.riskRegistry.stake v = 0
  deposited : ∀ v, 0 < w.riskRegistry.stake v → ∃ token,
    w.riskRegistry.stakingToken = some token ∧ (T.decimals token).isSome = true
  covers : ∀ token, T.asksAuth token = true → ∀ vs : Finset Address,
    T.balance token d.riskRegistry + backing w.riskRegistry token vs ≤
      w.tokens.balance token d.riskRegistry

section Backing

variable {S T : Storage} {x t : Address} {n : ℤ}

theorem backing_le_add (htoken : T.stakingToken = S.stakingToken)
    (h : ∀ v, max 0 (T.stake v) ≤ max 0 (S.stake v) + if v = x then n else 0)
    (hamount : 0 ≤ n) (vs : Finset Address) : backing T t vs ≤
      backing S t vs + if S.stakingToken = some t then n else 0 := by
  rw [backing, backing, htoken]
  split_ifs
  · exact sum_le_add h hamount vs
  · exact le_rfl

theorem backing_le_sub (htoken : T.stakingToken = S.stakingToken)
    (h : ∀ v, T.stake v = if v = x then 0 else S.stake v) (vs : Finset Address) :
    backing T t vs ≤ backing S t (insert x vs) -
      if S.stakingToken = some t then max 0 (S.stake x) else 0 := by
  rw [backing, backing, htoken]
  split_ifs
  · refine sum_le_insert_sub (fun v => ?_) (fun v => le_max_left ..) vs
    rw [h]
    split_ifs <;> rfl
  · exact le_rfl

end Backing

section Invariant

variable {d : Deployment} {T : Tokens} {w : World} {a : Action}

theorem StakesHeld.of_change (h : StakesHeld d T w)
    (htoken : (step d w a).riskRegistry.stakingToken = w.riskRegistry.stakingToken)
    (hadmin : (step d w a).riskRegistry.admin = none → w.riskRegistry.admin = none)
    (hunset : w.riskRegistry.admin = none → ∀ v, (step d w a).riskRegistry.stake v = 0)
    (hdeposited : ∀ v, 0 < (step d w a).riskRegistry.stake v → 0 < w.riskRegistry.stake v ∨
      ∃ token, w.riskRegistry.stakingToken = some token ∧
        (w.tokens.decimals token).isSome = true)
    (hcovers : ∀ token, w.tokens.asksAuth token = true → ∀ vs, ∃ us,
      w.tokens.balance token d.riskRegistry + backing (step d w a).riskRegistry token vs ≤
        (step d w a).tokens.balance token d.riskRegistry + backing w.riskRegistry token us) :
    StakesHeld d T (step d w a) where
  asksAuth := (step_token_contracts d w a).1.trans h.asksAuth
  decimals := (step_token_contracts d w a).2.trans h.decimals
  unstaked hnone := ⟨htoken.trans (h.unstaked (hadmin hnone)).1, hunset (hadmin hnone)⟩
  deposited v hv := by
    rw [htoken, ← h.decimals]
    rcases hdeposited v hv with hold | hnew
    · rw [h.decimals]
      exact h.deposited v hold
    · exact hnew
  covers token hasks vs := by
    obtain ⟨us, hle⟩ := hcovers token (by rw [h.asksAuth, hasks]) vs
    have hold := h.covers token hasks us
    omega

theorem slash_nonneg (S : Storage) (v : Address) : 0 ≤ S.slash v := by
  rw [Storage.slash]
  split_ifs with hpos
  · positivity
  · exact le_rfl

/-- **No other step raises a stake** than the addition of a verifier. -/
theorem StakesHeld.lowered (hw : StakesHeld d T w) (h : ∀ v, Untouched d v w a)
    (htoken : (step d w a).riskRegistry.stakingToken = w.riskRegistry.stakingToken)
    (hadmin : (step d w a).riskRegistry.admin = none → w.riskRegistry.admin = none) :
    StakesHeld d T (step d w a) := by
  have hstake : ∀ v, (step d w a).riskRegistry.stake v = w.riskRegistry.stake v ∨
      (step d w a).riskRegistry.stake v = w.riskRegistry.stake v - w.riskRegistry.slash v := by
    intro v
    cases stake_step d v w a with
    | deposit env admin x hp => exact absurd rfl (h v env _ hp)
    | close env admin hp => exact absurd rfl (h v env _ hp)
    | slash _ _ _ _ _ _ hslash => exact Or.inr hslash
    | idle _ _ hidle => exact Or.inl hidle
  have hle : ∀ v, (step d w a).riskRegistry.stake v ≤ w.riskRegistry.stake v := by
    intro v
    have := slash_nonneg w.riskRegistry v
    rcases hstake v with heq | heq <;> omega
  refine hw.of_change htoken hadmin (fun hnone v => ?_)
    (fun v hv => Or.inl (hv.trans_le (hle v))) fun token hasks vs => ⟨vs, ?_⟩
  · have hzero := (hw.unstaked hnone).2 v
    rcases hstake v with heq | heq
    · rw [heq, hzero]
    · rw [heq, Storage.slash, hzero]
      rfl
  · have hbalance := registry_balance_le (d := d) (a := a)
      (fun env admin v hp => absurd rfl (h v env _ hp)) hasks
    have hbacking := backing_le_add (x := d.riskRegistry) (t := token) (n := 0) htoken
      (fun v => by
        rw [ite_self, add_zero]
        exact max_le_max le_rfl (hle v)) le_rfl vs
    rw [ite_self, add_zero] at hbacking
    omega

theorem addVerifier_deposits {env : Env} {s t : State} {u : Unit} {admin x : Address} {stake : ℤ}
    (h : addVerifier admin x stake env s = .ok u t) : ∃ token,
      s.1.stakingToken = some token ∧ x ≠ env.net.riskRegistry ∧
        (s.2.decimals token).isSome = true ∧ 0 ≤ stake ∧
        t.2 = s.2.move token x env.net.riskRegistry stake := by
  simp only [addVerifier, requireAuth_seq_ok, net_run, own_seq_ok, requireAdmin_seq_ok,
    check_seq_ok, requireNotSelf, guardK_ok, fetch_seq_ok, ensure_seq_ok, fetch_ok,
    callToken_seq_ok, Token.transfer_ok] at h
  obtain ⟨-, token, _, ⟨-, _, hne, _, -, -, htoken, rfl⟩, _, _, ⟨-, hreal, hpos, -, rfl⟩, h⟩ := h
  exact ⟨token, htoken, hne, hreal, hpos, own_tokens h⟩

theorem StakesHeld.initialized {env : Env} {admin nft token : Address} {minimum : ℤ} {slash : ℕ}
    (h : StakesHeld d T w) (hp : performed d w a =
      some (env, .riskRegistry (.initializeContract admin nft token minimum slash))) :
    StakesHeld d T (step d w a) := by
  have heffect := quiet_step (by trivial) hp
  have hbalance : ∀ t, w.tokens.asksAuth t = true →
      w.tokens.balance t d.riskRegistry ≤ (step d w a).tokens.balance t d.riskRegistry := by
    intro t
    refine registry_balance_le fun env' admin' v hp' => ?_
    rw [hp] at hp'
    cases hp'
  generalize hS : (step d w a).riskRegistry = S at heffect
  cases heffect with
  | initializeContract _ _ _ _ _ hnone =>
    obtain ⟨-, hzero⟩ := h.unstaked hnone
    have hstake : ∀ v, (step d w a).riskRegistry.stake v = 0 := by
      rw [hS]
      exact hzero
    refine ⟨(step_token_contracts d w a).1.trans h.asksAuth,
      (step_token_contracts d w a).2.trans h.decimals, fun hadmin => ?_, fun v hv => ?_,
      fun t ht vs => ?_⟩
    · rw [hS] at hadmin
      cases hadmin
    · rw [hstake] at hv
      exact absurd hv (lt_irrefl 0)
    · have hzero' : backing (step d w a).riskRegistry t vs = 0 := by
        simp [backing, hstake]
      have hcovers := h.covers t ht ∅
      have hle := hbalance t (by rw [h.asksAuth, ht])
      simp only [backing, Finset.sum_empty, ite_self] at hcovers
      omega

theorem Effect.added {env : Env} {S S' : Storage} {admin x : Address} {stake : ℤ}
    (h : Effect env S (.addVerifier admin x stake) S') : S.admin = some admin ∧
      S'.stakingToken = S.stakingToken ∧ S'.admin = S.admin ∧
      ∀ v, S'.stake v = if v = x then stake else S.stake v := by
  cases h with
  | rest _ _ hquiet => exact hquiet.elim
  | addVerifier _ _ _ log hadmin =>
    refine ⟨hadmin, rfl, rfl, fun v => ?_⟩
    simp only [Storage.stake, Function.update_apply]
    split_ifs <;> rfl

theorem Effect.removed {env : Env} {S S' : Storage} {admin x : Address}
    (h : Effect env S (.removeVerifier admin x) S') : S.admin = some admin ∧
      S'.stakingToken = S.stakingToken ∧ S'.admin = S.admin ∧
      ∀ v, S'.stake v = if v = x then 0 else S.stake v := by
  cases h with
  | rest _ _ hquiet => exact hquiet.elim
  | removeVerifier _ _ log hadmin =>
    refine ⟨hadmin, rfl, rfl, fun v => ?_⟩
    simp only [Storage.stake, Function.update_apply]
    split_ifs <;> rfl

theorem StakesHeld.added {env : Env} {admin x : Address} {stake : ℤ} (h : StakesHeld d T w)
    (hp : performed d w a = some (env, .riskRegistry (.addVerifier admin x stake))) :
    StakesHeld d T (step d w a) := by
  obtain ⟨c, rfl, rfl, -, hexec⟩ := performed_call hp
  obtain ⟨s, hs, hw⟩ := onRiskRegistry_ok.mp hexec
  obtain ⟨token, htoken, hne, hreal, hpos, hT⟩ := addVerifier_deposits hs
  obtain ⟨hadmin, hsame, hadmin', hstake⟩ := (addVerifier_ok hs).1.added
  have hregistry : (step d w (.call c)).riskRegistry = s.1 := by rw [← hw]
  have htokens : (step d w (.call c)).tokens = w.tokens.move token x d.riskRegistry stake := by
    rw [← hw]
    exact hT
  rw [← hregistry] at hsame hadmin' hstake
  refine h.of_change hsame (fun hnone => hadmin'.symm.trans hnone) (fun hnone => ?_)
    (fun _ _ => Or.inr ⟨token, htoken, hreal⟩) fun t _ vs => ⟨vs, ?_⟩
  · rw [show w.riskRegistry.admin = some admin from hadmin] at hnone
    cases hnone
  · have hbacking := backing_le_add (t := t) (x := x) (n := stake) hsame
      (fun v => by
        rw [hstake]
        split_ifs <;> omega) hpos vs
    have hbalance : (step d w (.call c)).tokens.balance t d.riskRegistry =
        w.tokens.balance t d.riskRegistry +
          if w.riskRegistry.stakingToken = some t then stake else 0 := by
      have hiff : w.riskRegistry.stakingToken = some t ↔ t = token := by
        rw [show w.riskRegistry.stakingToken = some token from htoken, Option.some.injEq, eq_comm]
      rw [htokens, Tokens.move_balance, if_neg fun hx => hne hx.2.symm]
      simp [hiff]
    dsimp only at hbacking
    omega

theorem StakesHeld.removed {env : Env} {admin x : Address} (h : StakesHeld d T w)
    (hp : performed d w a = some (env, .riskRegistry (.removeVerifier admin x))) :
    StakesHeld d T (step d w a) := by
  obtain ⟨c, rfl, rfl, -, hexec⟩ := performed_call hp
  obtain ⟨s, hs, hw⟩ := onRiskRegistry_ok.mp hexec
  obtain ⟨heffect, hpaid⟩ := removeVerifier_ok hs
  obtain ⟨hadmin, hsame, hadmin', hstake⟩ := heffect.removed
  have hregistry : (step d w (.call c)).riskRegistry = s.1 := by rw [← hw]
  have htokens : (step d w (.call c)).tokens = s.2 := by rw [← hw]
  rw [← hregistry] at hsame hadmin' hstake
  dsimp only at hadmin hsame hadmin' hstake hpaid
  have hbalance : ∀ t, w.tokens.balance t d.riskRegistry -
      (if w.riskRegistry.stakingToken = some t then max 0 (w.riskRegistry.stake x) else 0) ≤
      (step d w (.call c)).tokens.balance t d.riskRegistry := by
    intro t
    rw [htokens]
    rcases hpaid with ⟨hpos, token, htoken, hT⟩ | ⟨hle, hT⟩
    · rw [hT, Tokens.move_balance, htoken, max_eq_right hpos.le]
      by_cases htt : token = t
      · subst htt
        rw [if_pos rfl, if_pos ⟨rfl, rfl⟩]
        split_ifs <;> omega
      · rw [if_neg fun h => htt (Option.some.inj h), if_neg fun h => htt h.1.symm,
          if_neg fun h => htt h.1.symm]
        omega
    · rw [hT, max_eq_left hle]
      simp
  refine h.of_change hsame (fun hnone => hadmin'.symm.trans hnone) (fun hnone => ?_)
    (fun v hv => Or.inl ?_) fun t _ vs => ⟨insert x vs, ?_⟩
  · rw [hadmin] at hnone
    cases hnone
  · rw [hstake] at hv
    split_ifs at hv
    · exact absurd hv (lt_irrefl 0)
    · exact hv
  · have hbacking := backing_le_sub (t := t) (x := x) hsame hstake vs
    have := hbalance t
    omega

theorem Effect.configuration {env : Env} {S S' : Storage} {op : Op} (h : Effect env S op S')
    (hop : ¬ op.Quiet) : S'.stakingToken = S.stakingToken ∧ S'.admin = S.admin := by
  cases h with
  | rest _ _ hquiet => exact absurd hquiet hop
  | _ => exact ⟨rfl, rfl⟩

/-- **One step keeps the stakes held.** -/
theorem stakesHeld_step (h : StakesHeld d T w) (a : Action) : StakesHeld d T (step d w a) := by
  cases registry_step d w a with
  | marked env admin i token sme hp hsme heffect =>
    obtain ⟨htoken, hadmin⟩ := heffect.configuration nofun
    exact h.lowered (fun v => .of_performed hp trivial) htoken fun hnone => hadmin.symm.trans hnone
  | rest hnot hnone hsame =>
    refine h.lowered (fun v env e hp => ?_) (by rw [hsame]) (by rw [hsame]; exact id)
    cases e with
    | riskRegistry op => exact absurd hp (hnot env op)
    | _ => trivial
  | own env op hp heffect =>
    cases op with
    | initializeContract => exact h.initialized hp
    | addVerifier => exact h.added hp
    | removeVerifier => exact h.removed hp
    | transferAdmin admin newAdmin =>
      have hquiet := quiet_step (by trivial) hp
      generalize hS : (step d w a).riskRegistry = S at hquiet
      cases hquiet with
      | transferAdmin _ _ log =>
        refine h.lowered (fun v => .of_performed hp trivial) (by rw [hS]) fun hnone => ?_
        rw [hS] at hnone
        cases hnone
    | setDebtorScore =>
      have hquiet := quiet_step (by trivial) hp
      generalize hS : (step d w a).riskRegistry = S at hquiet
      cases hquiet with
      | setDebtorScore =>
        refine h.lowered (fun v => .of_performed hp trivial) (by rw [hS]; rfl) fun hnone => ?_
        rw [hS] at hnone
        exact hnone
    | registerSme | updateSmeScore | setCreditLimit | incrementInvoiceCount | recordDefault =>
      obtain ⟨htoken, hadmin⟩ := heffect.configuration nofun
      exact h.lowered (fun v => .of_performed hp trivial) htoken
        fun hnone => hadmin.symm.trans hnone

theorem stakesHeld_genesis (d : Deployment) (now : ℕ) (tokens : Tokens) :
    StakesHeld d tokens (genesis now tokens) where
  asksAuth := rfl
  decimals := rfl
  unstaked _ := ⟨rfl, fun _ => rfl⟩
  deposited _ hv := absurd hv (lt_irrefl 0)
  covers token _ vs := by
    rw [backing, if_neg nofun, add_zero]
    rfl

end Invariant

/-! ## Removals -/

section Removals

variable {env : Env} {s : State} {admin v : Address} {signers : List Address} {d : Deployment}
  {T : Tokens} {w : World}

/-- **When a removal goes through**: the admin asks for it, and the registry can pay. -/
theorem removeVerifier_succeeds_iff : (∃ t, removeVerifier admin v env s = .ok () t) ↔
    env.Authenticates admin ∧ s.1.admin = some admin ∧ s.1.verifier v = true ∧
      (0 < s.1.stake v → ∃ token, s.1.stakingToken = some token ∧
        (s.2.decimals token).isSome = true ∧
        s.1.stake v ≤ s.2.balance token env.net.riskRegistry) := by
  obtain ⟨S, T⟩ := s
  simp only [removeVerifier, requireAuth_seq_ok, net_run, own_seq_ok, requireAdmin_seq_ok,
    requireVerifier_seq_ok, gets_ok, Storage.stake]
  constructor
  · rintro ⟨t, hauth, _, _, ⟨hadmin, hverifier, rfl, rfl⟩, h⟩
    refine ⟨hauth, hadmin, hverifier, fun hpos => ?_⟩
    rw [ite_run, if_pos hpos] at h
    simp only [own_seq_ok, fetch_ok, callToken_seq_ok, Token.transfer_ok] at h
    obtain ⟨token, _, ⟨htoken, rfl⟩, _, _, ⟨-, hreal, -, hle, -⟩, -⟩ := h
    exact ⟨token, htoken, hreal, hle⟩
  · rintro ⟨hauth, hadmin, hverifier, hpays⟩
    refine Exists.imp (fun t h => ⟨hauth, _, _, ⟨hadmin, hverifier, rfl, rfl⟩, h⟩) ?_
    by_cases hpos : 0 < (S.verifierStake v).getD 0
    · obtain ⟨token, htoken, hreal, hle⟩ := hpays hpos
      rw [ite_run, if_pos hpos]
      simp only [own_seq_ok, fetch_ok, callToken_seq_ok, Token.transfer_ok, own_ok, modify_run,
        appendAuditEntry_ok]
      exact ⟨_, token, _, ⟨htoken, rfl⟩, (), _, ⟨fun _ => Or.inl rfl, hreal, hpos.le, hle, rfl⟩, _,
        rfl, rfl⟩
    · rw [ite_run, if_neg hpos]
      simp only [own_ok, modify_run, appendAuditEntry_ok]
      exact ⟨_, _, rfl, rfl⟩

/-- The registry holds all the recorded stakes at once, and a verifier is removed whenever the admin
asks for it. -/
structure Returnable (d : Deployment) (w : World) (token : Address) : Prop where
  held : ∀ vs : Finset Address,
    ∑ v ∈ vs, max 0 (w.riskRegistry.stake v) ≤ w.tokens.balance token d.riskRegistry
  removable : ∀ signers admin v,
    Call.Succeeds ⟨signers, .riskRegistry (.removeVerifier admin v)⟩ d w ↔
      admin ∈ signers ∧ admin ∉ d.contracts ∧ w.riskRegistry.admin = some admin ∧
        w.riskRegistry.verifier v = true

theorem StakesHeld.returnable {token : Address} (h : StakesHeld d T w)
    (htoken : w.riskRegistry.stakingToken = some token) (hasks : T.asksAuth token = true)
    (hnonneg : 0 ≤ T.balance token d.riskRegistry) : Returnable d w token := by
  have hheld : ∀ vs : Finset Address,
      ∑ v ∈ vs, max 0 (w.riskRegistry.stake v) ≤ w.tokens.balance token d.riskRegistry := by
    intro vs
    have hcovers := h.covers token hasks vs
    rw [backing, if_pos htoken] at hcovers
    omega
  refine ⟨hheld, fun signers admin v => ?_⟩
  have hsucceeds : Call.Succeeds ⟨signers, .riskRegistry (.removeVerifier admin v)⟩ d w ↔
      ∃ t, removeVerifier admin v (Call.env ⟨signers, .riskRegistry (.removeVerifier admin v)⟩ d w)
        (w.riskRegistry, w.tokens) = .ok () t := by
    rw [Call.succeeds_iff]
    constructor
    · rintro ⟨w', hw⟩
      obtain ⟨s, hs, -⟩ := onRiskRegistry_ok.mp hw
      exact ⟨s, hs⟩
    · rintro ⟨s, hs⟩
      exact ⟨_, onRiskRegistry_ok.mpr ⟨s, hs, rfl⟩⟩
  have hauth : (Call.env ⟨signers, .riskRegistry (.removeVerifier admin v)⟩ d w).Authenticates
      admin ↔ admin ∈ signers ∧ admin ∉ d.contracts := by
    simp [Env.Authenticates, Call.env]
  rw [hsucceeds, removeVerifier_succeeds_iff, hauth, and_assoc]
  constructor
  · rintro ⟨hsigned, houtside, hadmin, hverifier, -⟩
    exact ⟨hsigned, houtside, hadmin, hverifier⟩
  · rintro ⟨hsigned, houtside, hadmin, hverifier⟩
    refine ⟨hsigned, houtside, hadmin, hverifier, fun hpos => ⟨token, htoken, ?_, ?_⟩⟩
    · obtain ⟨token', htoken', hreal⟩ := h.deposited v hpos
      obtain rfl : token = token' := Option.some.inj (htoken.symm.trans htoken')
      rw [← h.decimals] at hreal
      exact hreal
    · have hsum := hheld {v}
      rw [Finset.sum_singleton] at hsum
      exact (le_max_right _ _).trans hsum

end Removals

/-- **Every stake can be returned.** After every run, if the staking token asks for authorisation,
the registry holds all the stakes that it records at once, and the removal of a verifier, which
pays its stake back, fails for nobody but the admin's signature and the verifier's record. -/
theorem stakes_returnable (d : Deployment) (now : ℕ) (tokens : Tokens)
    (hnonneg : ∀ token, 0 ≤ tokens.balance token d.riskRegistry) (as : List Action) :
    ∀ token, (run (step d) (genesis now tokens) as).riskRegistry.stakingToken = some token →
      tokens.asksAuth token = true →
      Returnable d (run (step d) (genesis now tokens) as) token := by
  intro token htoken hasks
  have hheld : StakesHeld d tokens (run (step d) (genesis now tokens) as) :=
    always (I := StakesHeld d tokens) (fun _ a h => stakesHeld_step h a)
      (stakesHeld_genesis d now tokens) as
  exact hheld.returnable htoken hasks (hnonneg token)

/-- The sample verifier can be removed. -/
theorem stakes_returnable_sample :
    Returnable sample (run (step sample) sampleGenesis (sampleSetup "USDC")) 50 :=
  stakes_returnable sample 0 sampleTokens (fun token => by simp [sampleTokens, sample])
    (sampleSetup "USDC") 50 (by decide +kernel) (by decide)

end RiskRegistry

end Kora
