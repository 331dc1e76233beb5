import Kora.Treasury
import Kora.Lib.Meter

set_option autoImplicit false

/-!
# What the treasury does

The meter of the rolling cap and the tokens after each successful entry point.

* `Storage.meter`: the epoch counter;
* `initializeContract_ok`, `executeWithdrawalCap_ok`: what the settings become;
* **`withdraw_ok`**, `emergencyWithdraw_ok`: the two ways out;
* **`Op.exec_meter`**: under a cap that stays, a withdrawal spends on the meter and no other entry
  point does.
-/

namespace Kora.Treasury

open Exec

/-- The epoch counter. -/
def Storage.meter (S : Storage) : Meter := ⟨S.epochStart, S.epochWithdrawn.getD 0⟩

section Own

variable {env : Env} {S T : Storage} {u : Unit} {β : Type} {b : β} {l : Unit → Body β}
  {amount : ℤ}

theorem requireAdmin_seq_ok {caller : Address} : (requireAdmin caller >>= l) env S = .ok b T ↔
    S.admin = some caller ∧ l () env S = .ok b T := by
  simp only [requireAdmin, assoc_run, fetch_seq_ok, ensure_seq_ok]
  constructor
  · rintro ⟨a, h, rfl, hl⟩
    exact ⟨h, hl⟩
  · rintro ⟨h, hl⟩
    exact ⟨caller, h, rfl, hl⟩

theorem requireWhitelistedToken_seq_ok {token : Address} :
    (requireWhitelistedToken token >>= l) env S = .ok b T ↔
      S.whitelistedToken token = true ∧ l () env S = .ok b T := by
  rw [requireWhitelistedToken, assoc_run, gets_run, ensure_seq_ok]

theorem appendAuditEntry_ok {actor : Address} {action : AdminActionType} :
    appendAuditEntry actor action env S = .ok u T ↔
      { S with audit := S.audit.append .treasury env.timestamp actor action } = T := by
  rw [appendAuditEntry, timestamp_run, modify_ok]

/-- The storage at the start of a new epoch. -/
def Storage.newEpoch (S : Storage) (now : ℕ) : Storage :=
  { S with epochStart := some now, epochWithdrawn := some 0 }

/-- **The rate limit** starts a new epoch when the old one is over, and checks the amount against
it. -/
theorem enforceRateLimit_ok (h : enforceRateLimit amount env S = .ok u T) :
    S.withdrawalCap.getD 0 = 0 ∧ T = S ∨ S.withdrawalCap.getD 0 ≠ 0 ∧
      checkedAdd T.meter.spent amount = some (T.meter.spent + amount) ∧
      T.meter.spent + amount ≤ S.withdrawalCap.getD 0 ∧
      (¬ S.meter.Over epochDuration env.timestamp ∧ T = S ∨
        S.meter.Over epochDuration env.timestamp ∧ T = S.newEpoch env.timestamp) := by
  rw [enforceRateLimit, gets_run, ite_run] at h
  split_ifs at h with hcap
  · exact Or.inl ⟨hcap, (pure_ok.mp h).2.symm⟩
  · rw [timestamp_run, gets_run] at h
    by_cases hover : epochDuration ≤ env.timestamp - S.epochStart.getD env.timestamp
    · simp only [if_pos hover, modify_run, pure_run, check_seq_ok, okOr_ok, ensure_ok] at h
      obtain ⟨total, htotal, hle, rfl⟩ := h
      obtain rfl := checkedAdd_some htotal
      exact Or.inr ⟨hcap, htotal, hle, Or.inr ⟨hover, rfl⟩⟩
    · simp only [if_neg hover, gets_run, check_seq_ok, okOr_ok, ensure_ok] at h
      obtain ⟨total, htotal, hle, rfl⟩ := h
      obtain rfl := checkedAdd_some htotal
      exact Or.inr ⟨hcap, htotal, hle, Or.inl ⟨hover, rfl⟩⟩

theorem recordWithdrawal_ok (h : recordWithdrawal amount env S = .ok u T) :
    S.withdrawalCap.getD 0 = 0 ∧ T = S ∨ S.withdrawalCap.getD 0 ≠ 0 ∧
      T = { S with epochWithdrawn := some (saturatingAdd S.meter.spent amount) } := by
  rw [recordWithdrawal, gets_run, ite_run] at h
  split_ifs at h with hcap
  · exact Or.inl ⟨hcap, (pure_ok.mp h).2.symm⟩
  · exact Or.inr ⟨hcap, (modify_ok.mp h).symm⟩

theorem spend_of_ok {S₁ S₂ : Storage} (hrate : enforceRateLimit amount env S = .ok u S₁)
    (hcap : T.withdrawalCap = S₁.withdrawalCap) (hmeter : T.meter = S₁.meter)
    (hrecord : recordWithdrawal amount env T = .ok u S₂) :
    S₂.withdrawalCap = S.withdrawalCap ∧
      (S.withdrawalCap.getD 0 = 0 ∧ S₂.meter = S.meter ∨ S.withdrawalCap.getD 0 ≠ 0 ∧
        Meter.Spend epochDuration (S.withdrawalCap.getD 0) env.timestamp amount S.meter
          S₂.meter) := by
  rcases enforceRateLimit_ok hrate with ⟨hzero, rfl⟩ | ⟨hne, htotal, hle, hepoch⟩
  · rcases recordWithdrawal_ok hrecord with ⟨-, rfl⟩ | ⟨hne, -⟩
    · exact ⟨hcap, Or.inl ⟨hzero, hmeter⟩⟩
    · exact absurd hzero (hcap ▸ hne)
  · have hkeep : S₁.withdrawalCap = S.withdrawalCap := by
      rcases hepoch with ⟨-, rfl⟩ | ⟨-, rfl⟩
      · rfl
      · rfl
    rcases recordWithdrawal_ok hrecord with ⟨hzero, -⟩ | ⟨-, rfl⟩
    · rw [hcap, hkeep] at hzero
      exact absurd hzero hne
    · refine ⟨hcap.trans hkeep, Or.inr ⟨hne, ?_⟩⟩
      have hafter : ({ T with epochWithdrawn := some (saturatingAdd T.meter.spent amount) } :
          Storage).meter = ⟨S₁.meter.start, S₁.meter.spent + amount⟩ := by
        rw [hmeter, saturatingAdd_of_checked htotal, ← hmeter]
        rfl
      rw [hafter]
      rcases hepoch with ⟨hover, rfl⟩ | ⟨hover, rfl⟩
      · exact .current hover hle
      · have hamount : (S.newEpoch env.timestamp).meter.spent + amount = amount := zero_add amount
        rw [hamount] at hle ⊢
        exact .fresh hover hle

/-! ## The settings -/

theorem initializeContract_ok {admin : Address} {feeBps : ℕ}
    (h : initializeContract admin feeBps env S = .ok u T) :
    S.admin = none ∧ T = { S with
      admin := some admin
      feeBps := some feeBps
      withdrawalCap := some 0
      epochStart := some env.timestamp
      epochWithdrawn := some 0 } := by
  simp only [initializeContract, gets_run, ensure_seq_ok, check_seq_ok, net_run, timestamp_run,
    modify_ok] at h
  obtain ⟨hadmin, _, -, _, -, rfl⟩ := h
  exact ⟨hadmin, rfl⟩

theorem setFeeBps_ok {admin : Address} {feeBps : ℕ} (h : setFeeBps admin feeBps env S = .ok u T) :
    T = { S with
      feeBps := some feeBps
      audit := S.audit.append .treasury env.timestamp admin .setFeeBps } := by
  simp only [setFeeBps, requireAuth_seq_ok, requireAdmin_seq_ok, check_seq_ok, modify_run,
    appendAuditEntry_ok] at h
  obtain ⟨-, -, _, -, rfl⟩ := h
  rfl

theorem whitelistToken_ok {admin token : Address}
    (h : whitelistToken admin token env S = .ok u T) :
    T = { S with
      whitelistedToken := Function.update S.whitelistedToken token true
      audit := S.audit.append .treasury env.timestamp admin .whitelistToken } := by
  simp only [whitelistToken, requireAuth_seq_ok, requireAdmin_seq_ok, modify_run,
    appendAuditEntry_ok] at h
  obtain ⟨-, -, rfl⟩ := h
  rfl

theorem proposeWithdrawalCap_ok {admin : Address} {newCap : ℤ}
    (h : proposeWithdrawalCap admin newCap env S = .ok u T) :
    T = { S with
      withdrawalCapProposal := some (newCap, env.timestamp)
      audit := S.audit.append .treasury env.timestamp admin .proposeWithdrawalCap } := by
  simp only [proposeWithdrawalCap, requireAuth_seq_ok, requireAdmin_seq_ok, ensure_seq_ok,
    timestamp_run, modify_run, appendAuditEntry_ok] at h
  obtain ⟨-, -, -, rfl⟩ := h
  rfl

theorem executeWithdrawalCap_ok {admin : Address}
    (h : executeWithdrawalCap admin env S = .ok u T) :
    ∃ newCap proposedAt, S.admin = some admin ∧
      S.withdrawalCapProposal = some (newCap, proposedAt) ∧
      proposedAt + upgradeTimelockDelay ≤ env.timestamp ∧ T = { S with
        withdrawalCap := some newCap
        withdrawalCapProposal := none
        audit := S.audit.append .treasury env.timestamp admin .executeWithdrawalCap } := by
  simp -implicitDefEqProofs only [executeWithdrawalCap, requireAuth_seq_ok, requireAdmin_seq_ok,
    fetch_seq_ok, timestamp_run, ofOption_seq_ok, ensure_seq_ok, modify_run, appendAuditEntry_ok]
    at h
  obtain ⟨-, hadmin, ⟨newCap, proposedAt⟩, hpending, ready, hready, hle, rfl⟩ := h
  obtain ⟨rfl, -⟩ := checkedAddU64_some.mp hready
  exact ⟨newCap, proposedAt, hadmin, hpending, hle, rfl⟩

end Own

/-! ## The two ways out -/

section Out

variable {env : Env} {s t : State} {u : Unit} {admin token recipient : Address} {amount : ℤ}

theorem own_seq_ok {α β : Type} {m : Body α} {k : α → Host State β} {b : β} :
    (own m >>= k) env s = .ok b t ↔ ∃ a S, m env s.1 = .ok a S ∧ k a env (S, s.2) = .ok b t := by
  simp only [bind_ok, own, zoom_ok]
  constructor
  · rintro ⟨a, _, ⟨S, hS, rfl⟩, hk⟩
    exact ⟨a, S, hS, hk⟩
  · rintro ⟨a, S, hS, hk⟩
    exact ⟨a, _, ⟨S, hS, rfl⟩, hk⟩

theorem own_ok {α : Type} {m : Body α} {a : α} :
    own m env s = .ok a t ↔ ∃ S, m env s.1 = .ok a S ∧ (S, s.2) = t := zoom_ok

theorem callToken_seq_ok {α β : Type} {m : Host Tokens α} {k : α → Host State β} {b : β} :
    (callToken m >>= k) env s = .ok b t ↔ ∃ a T, m (env.from env.net.treasury) s.2 = .ok a T ∧
      k a env (s.1, T) = .ok b t := by
  simp only [callToken, assoc_run, net_run, bind_ok, Token.callFrom_ok]
  constructor
  · rintro ⟨a, _, ⟨T, hT, rfl⟩, hk⟩
    exact ⟨a, T, hT, hk⟩
  · rintro ⟨a, T, hT, hk⟩
    exact ⟨a, _, ⟨T, hT, rfl⟩, hk⟩

theorem balance_ok {addr : Address} {T T' : Tokens} {b : ℤ} :
    Token.balance token addr env T = .ok b T' ↔
      (T.decimals token).isSome = true ∧ T.balance token addr = b ∧ T = T' := by
  rw [Token.balance, gets_run, require_seq_ok, gets_ok]

/-- **A withdrawal** moves the amount out of the treasury and spends it on the meter, if there is a
cap. -/
theorem withdraw_ok (h : withdraw admin token recipient amount env s = .ok u t) :
    0 < amount ∧ t.1.withdrawalCap = s.1.withdrawalCap ∧
      t.2 = s.2.move token env.net.treasury recipient amount ∧
      (s.1.withdrawalCap.getD 0 = 0 ∧ t.1.meter = s.1.meter ∨ s.1.withdrawalCap.getD 0 ≠ 0 ∧
        Meter.Spend epochDuration (s.1.withdrawalCap.getD 0) env.timestamp amount s.1.meter
          t.1.meter) := by
  simp only [withdraw, requireAuth_seq_ok, own_seq_ok, requireAdmin_seq_ok, ensure_seq_ok,
    check_seq_ok, requireWhitelistedToken_seq_ok, guard, guarded_ok, net_run, callToken_seq_ok,
    balance_ok, own_ok, appendAuditEntry_ok, modify_run, Token.transfer_ok] at h
  obtain ⟨-, _, S₁, ⟨-, hpos, _, -, -, hrate⟩, -, v, ⟨_, _, ⟨-, -, rfl⟩, -, _, S₂, hrecord, _, _,
    ⟨-, -, -, -, rfl⟩, _, rfl, rfl⟩, rfl⟩ := h
  -- the fee ledger and the lock do not matter to the meter
  obtain ⟨S, hcap, hmeter, hrecord⟩ : ∃ S : Storage, S.withdrawalCap = S₁.withdrawalCap ∧
      S.meter = S₁.meter ∧ recordWithdrawal amount env S = .ok () S₂ := by
    cases hc : S₁.collected token with
    | none =>
      rw [hc] at hrecord
      refine ⟨_, ?_, ?_, hrecord⟩ <;> rfl
    | some c =>
      rw [hc] at hrecord
      refine ⟨_, ?_, ?_, hrecord⟩ <;> rfl
  obtain ⟨hkeep, hspend⟩ := spend_of_ok hrate hcap hmeter hrecord
  exact ⟨hpos, hkeep, rfl, hspend⟩

theorem emergencyWithdraw_ok (h : emergencyWithdraw admin token recipient env s = .ok u t) :
    t.1.withdrawalCap = s.1.withdrawalCap ∧ t.1.meter = s.1.meter ∧
      (0 < s.2.balance token env.net.treasury ∧
          t.2 = s.2.move token env.net.treasury recipient (s.2.balance token env.net.treasury) ∨
        s.2.balance token env.net.treasury ≤ 0 ∧ t.2 = s.2) := by
  simp only [emergencyWithdraw, requireAuth_seq_ok, own_seq_ok, requireAdmin_seq_ok,
    requireWhitelistedToken, bind_ok (x := gets _), gets_ok, ensure_ok, guard, guarded_ok, net_run,
    callToken_seq_ok, balance_ok] at h
  obtain ⟨-, _, S₁, ⟨-, _, _, ⟨rfl, rfl⟩, -, rfl⟩, -, v, ⟨_, _, ⟨-, rfl, rfl⟩, h⟩, rfl⟩ := h
  rw [ite_run] at h
  split_ifs at h with hpos
  · simp only [callToken_seq_ok, own_ok, appendAuditEntry_ok, Token.transfer_ok] at h
    obtain ⟨_, _, ⟨-, -, -, -, rfl⟩, _, rfl, rfl⟩ := h
    exact ⟨rfl, rfl, Or.inl ⟨hpos, rfl⟩⟩
  · simp only [own_ok, appendAuditEntry_ok] at h
    obtain ⟨_, rfl, rfl⟩ := h
    exact ⟨rfl, rfl, Or.inr ⟨not_lt.mp hpos, rfl⟩⟩

/-! ## The fee ledger -/

theorem enforceRateLimit_collected {S T : Storage} (h : enforceRateLimit amount env S = .ok u T) :
    T.collected = S.collected := by
  rcases enforceRateLimit_ok h with ⟨-, rfl⟩ | ⟨-, -, -, ⟨-, rfl⟩ | ⟨-, rfl⟩⟩ <;> rfl

theorem recordWithdrawal_collected {S T : Storage} (h : recordWithdrawal amount env S = .ok u T) :
    T.collected = S.collected := by
  rcases recordWithdrawal_ok h with ⟨-, rfl⟩ | ⟨-, rfl⟩ <;> rfl

/-- The fee ledger after a withdrawal: it only falls where a fee was recorded. -/
def Storage.released (S : Storage) (token : Address) (amount : ℤ) : Address → Option ℤ :=
  match S.collected token with
  | some c => Function.update S.collected token (some (saturatingSub c amount))
  | none => S.collected

theorem withdraw_collected (h : withdraw admin token recipient amount env s = .ok u t) :
    amount ≤ maxAmount ∧ amount ≤ s.2.balance token env.net.treasury ∧
      t.1.collected = s.1.released token amount := by
  simp only [withdraw, requireAuth_seq_ok, own_seq_ok, requireAdmin_seq_ok, ensure_seq_ok,
    check_seq_ok, requireWithinMaxAmount, guardK_ok, requireWhitelistedToken_seq_ok, guard,
    guarded_ok, net_run, callToken_seq_ok, balance_ok, own_ok, appendAuditEntry_ok, modify_run,
    Token.transfer_ok] at h
  obtain ⟨-, _, S₁, ⟨-, -, _, hmax, -, hrate⟩, -, v, ⟨_, _, ⟨-, hbalance, rfl⟩, hle, _, S₂,
    hrecord, _, _, ⟨-, -, -, -, rfl⟩, _, rfl, rfl⟩, rfl⟩ := h
  refine ⟨hmax, hbalance ▸ hle, ?_⟩
  have hold := enforceRateLimit_collected hrate
  have hnew : S₂.collected = _ := recordWithdrawal_collected hrecord
  show S₂.collected = _
  rw [hnew, Storage.released, ← hold]
  cases S₁.collected token <;> rfl

theorem emergencyWithdraw_collected
    (h : emergencyWithdraw admin token recipient env s = .ok u t) :
    t.1.collected = s.1.collected := by
  simp only [emergencyWithdraw, requireAuth_seq_ok, own_seq_ok, requireAdmin_seq_ok,
    requireWhitelistedToken, bind_ok (x := gets _), gets_ok, ensure_ok, guard, guarded_ok, net_run,
    callToken_seq_ok, balance_ok] at h
  obtain ⟨-, _, S₁, ⟨-, _, _, ⟨rfl, rfl⟩, -, rfl⟩, -, v, ⟨_, _, ⟨-, rfl, rfl⟩, h⟩, rfl⟩ := h
  rw [ite_run] at h
  split_ifs at h
  · simp only [callToken_seq_ok, own_ok, appendAuditEntry_ok, Token.transfer_ok] at h
    obtain ⟨_, _, ⟨-, -, -, -, rfl⟩, _, rfl, rfl⟩ := h
    rfl
  · simp only [own_ok, appendAuditEntry_ok] at h
    obtain ⟨_, rfl, rfl⟩ := h
    rfl

/-- The entry points that neither record a fee nor pay out. -/
def Op.Quiet : Op → Prop
  | .collectFee .. | .withdraw .. | .emergencyWithdraw .. => False
  | _ => True

/-- What an entry point does to the fee ledger and the tokens. -/
inductive LedgerEffect (env : Env) (s t : State) : Op → Prop
  | collect (token : Address) (amount : ℤ) : 0 < amount →
      t.1.collected = Function.update s.1.collected token
        (some ((s.1.collected token).getD 0 + amount)) → t.2 = s.2 →
      LedgerEffect env s t (.collectFee token amount)
  | withdraw (admin token recipient : Address) (amount : ℤ) : 0 < amount → amount ≤ maxAmount →
      amount ≤ s.2.balance token env.net.treasury →
      t.1.collected = s.1.released token amount →
      t.2 = s.2.move token env.net.treasury recipient amount →
      LedgerEffect env s t (.withdraw admin token recipient amount)
  | drain (admin token recipient : Address) : 0 < s.2.balance token env.net.treasury →
      t.1.collected = s.1.collected →
      t.2 = s.2.move token env.net.treasury recipient (s.2.balance token env.net.treasury) →
      LedgerEffect env s t (.emergencyWithdraw admin token recipient)
  | idle (admin token recipient : Address) : s.2.balance token env.net.treasury ≤ 0 →
      t.1.collected = s.1.collected → t.2 = s.2 →
      LedgerEffect env s t (.emergencyWithdraw admin token recipient)
  | rest (op : Op) : op.Quiet → t.1.collected = s.1.collected → t.2 = s.2 →
      LedgerEffect env s t op

/-- **Only fees and withdrawals write the fee ledger.** -/
theorem Op.exec_ledger {op : Op} (h : op.exec env s = .ok u t) : LedgerEffect env s t op := by
  cases op with
  | withdraw admin token recipient amount =>
    obtain ⟨hpos, -, htokens, -⟩ := withdraw_ok h
    obtain ⟨hmax, hle, hcollected⟩ := withdraw_collected h
    exact .withdraw admin token recipient amount hpos hmax hle hcollected htokens
  | emergencyWithdraw admin token recipient =>
    have hcollected := emergencyWithdraw_collected h
    obtain ⟨-, -, ⟨hpos, htokens⟩ | ⟨hle, htokens⟩⟩ := emergencyWithdraw_ok h
    · exact .drain admin token recipient hpos hcollected htokens
    · exact .idle admin token recipient hle hcollected htokens
  | collectFee token amount =>
    obtain ⟨S, hS, rfl⟩ := own_ok.mp h
    obtain ⟨hpos, -, rfl⟩ := collectFee_ok hS
    exact .collect token amount hpos rfl rfl
  | initializeContract admin feeBps =>
    obtain ⟨S, hS, rfl⟩ := own_ok.mp h
    obtain ⟨-, rfl⟩ := initializeContract_ok hS
    exact .rest _ trivial rfl rfl
  | setFeeBps admin feeBps =>
    obtain ⟨S, hS, rfl⟩ := own_ok.mp h
    obtain rfl := setFeeBps_ok hS
    exact .rest _ trivial rfl rfl
  | whitelistToken admin token =>
    obtain ⟨S, hS, rfl⟩ := own_ok.mp h
    obtain rfl := whitelistToken_ok hS
    exact .rest _ trivial rfl rfl
  | proposeWithdrawalCap admin newCap =>
    obtain ⟨S, hS, rfl⟩ := own_ok.mp h
    obtain rfl := proposeWithdrawalCap_ok hS
    exact .rest _ trivial rfl rfl
  | executeWithdrawalCap admin =>
    obtain ⟨S, hS, rfl⟩ := own_ok.mp h
    obtain ⟨_, _, -, -, -, rfl⟩ := executeWithdrawalCap_ok hS
    exact .rest _ trivial rfl rfl

/-! ## The meter -/

/-- What an entry point does to the meter and the tokens. -/
inductive MeterEffect (env : Env) (s t : State) : Op → Prop
  | withdraw (admin token recipient : Address) (amount : ℤ) : 0 < amount →
      t.1.withdrawalCap = s.1.withdrawalCap →
      t.2 = s.2.move token env.net.treasury recipient amount →
      (s.1.withdrawalCap.getD 0 = 0 ∧ t.1.meter = s.1.meter ∨ s.1.withdrawalCap.getD 0 ≠ 0 ∧
        Meter.Spend epochDuration (s.1.withdrawalCap.getD 0) env.timestamp amount s.1.meter
          t.1.meter) → MeterEffect env s t (.withdraw admin token recipient amount)
  | drain (admin token recipient : Address) : t.1.meter = s.1.meter →
      0 < s.2.balance token env.net.treasury →
      t.2 = s.2.move token env.net.treasury recipient (s.2.balance token env.net.treasury) →
      MeterEffect env s t (.emergencyWithdraw admin token recipient)
  | initialise (op : Op) : t.1.withdrawalCap = some 0 → t.1.meter.spent = 0 → t.2 = s.2 →
      MeterEffect env s t op
  | rest (op : Op) : t.1.meter = s.1.meter → t.2 = s.2 → MeterEffect env s t op

/-- **Only the withdrawals move tokens, and only the capped one spends on the meter.** -/
theorem Op.exec_meter {op : Op} (h : op.exec env s = .ok u t) : MeterEffect env s t op := by
  cases op with
  | withdraw admin token recipient amount =>
    obtain ⟨hpos, hcap, htokens, hmeter⟩ := withdraw_ok h
    exact .withdraw admin token recipient amount hpos hcap htokens hmeter
  | emergencyWithdraw admin token recipient =>
    obtain ⟨-, hmeter, ⟨hpos, htokens⟩ | ⟨-, htokens⟩⟩ := emergencyWithdraw_ok h
    · exact .drain admin token recipient hmeter hpos htokens
    · exact .rest _ hmeter htokens
  | collectFee token amount =>
    obtain ⟨S, hS, rfl⟩ := own_ok.mp h
    obtain ⟨-, -, rfl⟩ := collectFee_ok hS
    exact .rest _ rfl rfl
  | initializeContract admin feeBps =>
    obtain ⟨S, hS, rfl⟩ := own_ok.mp h
    obtain ⟨-, rfl⟩ := initializeContract_ok hS
    exact .initialise _ rfl rfl rfl
  | setFeeBps admin feeBps =>
    obtain ⟨S, hS, rfl⟩ := own_ok.mp h
    obtain rfl := setFeeBps_ok hS
    exact .rest _ rfl rfl
  | whitelistToken admin token =>
    obtain ⟨S, hS, rfl⟩ := own_ok.mp h
    obtain rfl := whitelistToken_ok hS
    exact .rest _ rfl rfl
  | proposeWithdrawalCap admin newCap =>
    obtain ⟨S, hS, rfl⟩ := own_ok.mp h
    obtain rfl := proposeWithdrawalCap_ok hS
    exact .rest _ rfl rfl
  | executeWithdrawalCap admin =>
    obtain ⟨S, hS, rfl⟩ := own_ok.mp h
    obtain ⟨_, _, -, -, -, rfl⟩ := executeWithdrawalCap_ok hS
    exact .rest _ rfl rfl

end Out

end Kora.Treasury
