import Kora.RiskRegistry

set_option autoImplicit false

/-!
# What the risk registry does

Every successful entry point falls under one constructor of `Effect`, which gives the storage it
leaves, up to the audit log.

* `addVerifier_ok`, `removeVerifier_ok`: the stake comes in and goes out;
* `recordDefault_effect`, …: one lemma for each of the other entry points;
* `QuietEffect`: in full, what the entry points leave that change neither a stake nor a profile;
* **`Op.exec_effect`**: the classification.
-/

namespace Kora.RiskRegistry

open Exec

/-- The stake recorded for a verifier. -/
def Storage.stake (S : Storage) (verifier : Address) : ℤ := (S.verifierStake verifier).getD 0

/-- What a default of one of its SMEs takes from the stake of a verifier. -/
def Storage.slash (S : Storage) (verifier : Address) : ℤ :=
  if 0 < S.stake verifier then S.stake verifier * S.slashPercentage.getD 0 / 10_000 else 0

/-- The entry points that change neither a stake nor a profile. -/
def Op.Quiet : Op → Prop
  | .initializeContract .. | .transferAdmin .. | .setDebtorScore .. => True
  | _ => False

/-- What a successful entry point does. -/
inductive Effect (env : Env) (S : Storage) : Op → Storage → Prop
  | addVerifier (admin verifier : Address) (stake : ℤ) (log : AuditLog) : S.admin = some admin →
      Effect env S (.addVerifier admin verifier stake) { S with
        verifier := Function.update S.verifier verifier true
        verifierStake := Function.update S.verifierStake verifier (some stake)
        verifierReputation := Function.update S.verifierReputation verifier (some 100)
        audit := log }
  | removeVerifier (admin verifier : Address) (log : AuditLog) : S.admin = some admin →
      S.verifier verifier = true →
      Effect env S (.removeVerifier admin verifier) { S with
        verifier := Function.update S.verifier verifier false
        verifierStake := Function.update S.verifierStake verifier none
        verifierReputation := Function.update S.verifierReputation verifier none
        audit := log }
  | registerSme (verifier sme : Address) (score : ℕ) (attested : Bool) :
      S.verifier verifier = true → S.smeProfile sme = none →
      Effect env S (.registerSme verifier sme score attested) { S with
        smeProfile := Function.update S.smeProfile sme
          (some ⟨sme, true, verifier, score, 0, 0, env.timestamp, attested, 0⟩) }
  | updateSmeScore (verifier sme : Address) (score : ℕ) (profile : SmeProfile) :
      S.smeProfile sme = some profile →
      Effect env S (.updateSmeScore verifier sme score) { S with
        smeProfile := Function.update S.smeProfile sme (some { profile with riskScore := score })
        lock := false }
  | setCreditLimit (verifier sme : Address) (limit : ℤ) (profile : SmeProfile) :
      S.smeProfile sme = some profile →
      Effect env S (.setCreditLimit verifier sme limit) { S with
        smeProfile := Function.update S.smeProfile sme
          (some { profile with creditLimit := limit }) }
  | incrementInvoiceCount (caller sme : Address) (profile : SmeProfile) :
      env.Authenticates caller → S.invoiceNft = some caller → S.smeProfile sme = some profile →
      Effect env S (.incrementInvoiceCount caller sme) { S with
        smeProfile := Function.update S.smeProfile sme
          (some { profile with totalInvoices := profile.totalInvoices + 1 }) }
  | recordDefault (admin sme : Address) (profile : SmeProfile) (reputation : ℕ)
      (log : AuditLog) : env.Authenticates admin → S.admin = some admin →
      S.smeProfile sme = some profile →
      Effect env S (.recordDefault admin sme) { S with
        verifierStake := if 0 < S.stake profile.verifier then
            Function.update S.verifierStake profile.verifier
              (some (S.stake profile.verifier - S.slash profile.verifier))
          else S.verifierStake
        verifierReputation := Function.update S.verifierReputation profile.verifier
          (some reputation)
        smeProfile := Function.update S.smeProfile sme
          (some { profile with defaults := profile.defaults + 1 })
        audit := log
        lock := false }
  | rest (op : Op) (T : Storage) : op.Quiet → T.verifierStake = S.verifierStake →
      T.smeProfile = S.smeProfile → Effect env S op T

/-- The storage after `verifier` scored the debtor at time `now`. -/
def Storage.scored (S : Storage) (verifier : Address) (hash : Bytes) (score now : ℕ) : Storage :=
  { S with
    debtorScore := Function.update S.debtorScore hash (some score)
    debtorScoreLastUpdate := Function.update S.debtorScoreLastUpdate verifier
      (Function.update (S.debtorScoreLastUpdate verifier) hash (some now)) }

/-- The verifier may score the debtor again at time `now`. -/
def Storage.CooledDown (S : Storage) (verifier : Address) (hash : Bytes) (now : ℕ) : Prop :=
  ∀ last, S.debtorScoreLastUpdate verifier hash = some last →
    last + minScoreUpdateInterval < 2 ^ 64 ∧ last + minScoreUpdateInterval ≤ now

/-- What a successful quiet entry point does, in full. -/
inductive QuietEffect (env : Env) (S : Storage) : Op → Storage → Prop
  | initializeContract (admin nft token : Address) (stake : ℤ) (slash : ℕ) : S.admin = none →
      QuietEffect env S (.initializeContract admin nft token stake slash) { S with
        admin := some admin
        invoiceNft := some nft
        stakingToken := some token
        minimumStake := some stake
        slashPercentage := some slash }
  | transferAdmin (admin newAdmin : Address) (log : AuditLog) : S.admin = some admin →
      QuietEffect env S (.transferAdmin admin newAdmin) { S with
        admin := some newAdmin
        audit := log }
  | setDebtorScore (verifier : Address) (hash : Bytes) (score : ℕ) : score ≤ 100 →
      S.CooledDown verifier hash env.timestamp →
      QuietEffect env S (.setDebtorScore verifier hash score)
        (S.scored verifier hash score env.timestamp)

/-! ## Helpers -/

section Helpers

variable {env : Env} {S T : Storage} {β : Type} {b : β} {l : Unit → Body β}

theorem requireAdmin_seq_ok {caller : Address} : (requireAdmin caller >>= l) env S = .ok b T ↔
    S.admin = some caller ∧ l () env S = .ok b T := by
  simp only [requireAdmin, assoc_run, fetch_seq_ok, ensure_seq_ok]
  constructor
  · rintro ⟨a, h, rfl, hl⟩
    exact ⟨h, hl⟩
  · rintro ⟨h, hl⟩
    exact ⟨caller, h, rfl, hl⟩

theorem requireVerifier_seq_ok {caller : Address} :
    (requireVerifier caller >>= l) env S = .ok b T ↔
      S.verifier caller = true ∧ l () env S = .ok b T := by
  rw [requireVerifier, assoc_run, gets_run, ensure_seq_ok]

theorem requireInvoiceNft_seq_ok {caller : Address} :
    (requireInvoiceNft caller >>= l) env S = .ok b T ↔
      S.invoiceNft = some caller ∧ l () env S = .ok b T := by
  simp only [requireInvoiceNft, assoc_run, fetch_seq_ok, ensure_seq_ok]
  constructor
  · rintro ⟨a, h, rfl, hl⟩
    exact ⟨h, hl⟩
  · rintro ⟨h, hl⟩
    exact ⟨caller, h, rfl, hl⟩

theorem appendAuditEntry_ok {actor : Address} {action : AdminActionType} {u : Unit} :
    appendAuditEntry actor action env S = .ok u T ↔
      { S with audit := S.audit.append .riskRegistry env.timestamp actor action } = T := by
  rw [appendAuditEntry, timestamp_run, modify_ok]

end Helpers

section Parts

variable {env : Env} {s t : State} {α β : Type} {b : β}

theorem own_ok {m : Body α} {a : α} :
    own m env s = .ok a t ↔ ∃ S, m env s.1 = .ok a S ∧ (S, s.2) = t := zoom_ok

theorem own_seq_ok {m : Body α} {k : α → Host State β} :
    (own m >>= k) env s = .ok b t ↔ ∃ a S, m env s.1 = .ok a S ∧ k a env (S, s.2) = .ok b t := by
  simp only [bind_ok, own_ok]
  constructor
  · rintro ⟨a, _, ⟨S, hS, rfl⟩, hk⟩
    exact ⟨a, S, hS, hk⟩
  · rintro ⟨a, S, hS, hk⟩
    exact ⟨a, _, ⟨S, hS, rfl⟩, hk⟩

theorem callToken_ok {m : Host Tokens α} {a : α} : callToken m env s = .ok a t ↔
    ∃ T, m (env.from env.net.riskRegistry) s.2 = .ok a T ∧ (s.1, T) = t := by
  rw [callToken, net_run, Token.callFrom_ok]

theorem callToken_seq_ok {m : Host Tokens α} {k : α → Host State β} :
    (callToken m >>= k) env s = .ok b t ↔ ∃ a T,
      m (env.from env.net.riskRegistry) s.2 = .ok a T ∧ k a env (s.1, T) = .ok b t := by
  simp only [bind_ok, callToken_ok]
  constructor
  · rintro ⟨a, _, ⟨T, hT, rfl⟩, hk⟩
    exact ⟨a, T, hT, hk⟩
  · rintro ⟨a, T, hT, hk⟩
    exact ⟨a, _, ⟨T, hT, rfl⟩, hk⟩

end Parts

/-! ## Verifiers -/

section Verifiers

variable {env : Env} {s t : State} {u : Unit} {admin verifier : Address}

/-- **A verifier deposits its stake**, over any stake it had. -/
theorem addVerifier_ok {stake : ℤ} (h : addVerifier admin verifier stake env s = .ok u t) :
    Effect env s.1 (.addVerifier admin verifier stake) t.1 ∧ 0 ≤ stake ∧
      ∃ token, s.1.stakingToken = some token ∧
        t.2 = s.2.move token verifier env.net.riskRegistry stake := by
  simp only [addVerifier, requireAuth_seq_ok, net_run, own_seq_ok, requireAdmin_seq_ok,
    check_seq_ok, fetch_seq_ok, ensure_seq_ok, fetch_ok, callToken_seq_ok, own_ok, modify_run,
    appendAuditEntry_ok, Token.transfer_ok] at h
  obtain ⟨-, token, _, ⟨hadmin, _, -, _, -, -, htoken, rfl⟩, _, _, ⟨-, -, hstake, -, rfl⟩, _, rfl,
    rfl⟩ := h
  exact ⟨.addVerifier admin verifier stake _ hadmin, hstake, token, htoken, rfl⟩

theorem removeVerifier_ok (h : removeVerifier admin verifier env s = .ok u t) :
    Effect env s.1 (.removeVerifier admin verifier) t.1 ∧
      (0 < s.1.stake verifier ∧ (∃ token, s.1.stakingToken = some token ∧
          t.2 = s.2.move token env.net.riskRegistry verifier (s.1.stake verifier)) ∨
        s.1.stake verifier ≤ 0 ∧ t.2 = s.2) := by
  simp only [removeVerifier, requireAuth_seq_ok, net_run, own_seq_ok, requireAdmin_seq_ok,
    requireVerifier_seq_ok, gets_ok] at h
  obtain ⟨-, _, _, ⟨hadmin, hverifier, rfl, rfl⟩, h⟩ := h
  rw [ite_run] at h
  split_ifs at h with hpos
  · simp only [own_seq_ok, fetch_ok, callToken_seq_ok, own_ok, modify_run, appendAuditEntry_ok,
      Token.transfer_ok] at h
    obtain ⟨token, _, ⟨htoken, rfl⟩, _, _, ⟨-, -, -, -, rfl⟩, _, rfl, rfl⟩ := h
    exact ⟨.removeVerifier admin verifier _ hadmin hverifier, Or.inl ⟨hpos, token, htoken, rfl⟩⟩
  · simp only [own_ok, modify_run, appendAuditEntry_ok] at h
    obtain ⟨_, rfl, rfl⟩ := h
    exact ⟨.removeVerifier admin verifier _ hadmin hverifier, Or.inr ⟨not_lt.mp hpos, rfl⟩⟩

end Verifiers

/-! ## The other entry points -/

section Effects

variable {env : Env} {S T : Storage} {u : Unit}

theorem registerSme_effect {verifier sme : Address} {score : ℕ} {attested : Bool}
    (h : registerSme verifier sme score attested env S = .ok u T) :
    Effect env S (.registerSme verifier sme score attested) T := by
  simp only [registerSme, requireAuth_seq_ok, requireVerifier_seq_ok, check_seq_ok, gets_run,
    ensure_seq_ok, timestamp_run, putProfile, modify_ok] at h
  obtain ⟨-, hverifier, _, -, hnew, rfl⟩ := h
  exact .registerSme verifier sme score attested hverifier hnew

theorem updateSmeScore_effect {verifier sme : Address} {score : ℕ}
    (h : updateSmeScore verifier sme score env S = .ok u T) :
    Effect env S (.updateSmeScore verifier sme score) T := by
  simp only [updateSmeScore, requireAuth_seq_ok, requireVerifier_seq_ok, check_seq_ok, guard,
    guarded_ok, fetch_seq_ok, putProfile, modify_ok] at h
  obtain ⟨-, -, _, -, -, _, ⟨profile, hprofile, rfl⟩, rfl⟩ := h
  exact .updateSmeScore verifier sme score profile hprofile

theorem setCreditLimit_effect {verifier sme : Address} {limit : ℤ}
    (h : setCreditLimit verifier sme limit env S = .ok u T) :
    Effect env S (.setCreditLimit verifier sme limit) T := by
  simp only [setCreditLimit, requireAuth_seq_ok, requireVerifier_seq_ok, ensure_seq_ok,
    fetch_seq_ok, putProfile, modify_ok] at h
  obtain ⟨-, -, -, profile, hprofile, rfl⟩ := h
  exact .setCreditLimit verifier sme limit profile hprofile

theorem incrementInvoiceCount_effect {caller sme : Address}
    (h : incrementInvoiceCount caller sme env S = .ok u T) :
    Effect env S (.incrementInvoiceCount caller sme) T := by
  simp only [incrementInvoiceCount, requireAuth_seq_ok, requireInvoiceNft_seq_ok, fetch_seq_ok,
    check_seq_ok, okOr_ok, checkedAddU32_some, putProfile, modify_ok] at h
  obtain ⟨ha, hnft, profile, hprofile, _, ⟨rfl, -⟩, rfl⟩ := h
  exact .incrementInvoiceCount caller sme profile ha hnft hprofile

/-- **A default** is counted for the SME and slashes the stake of its verifier. -/
theorem recordDefault_effect {admin sme : Address} (h : recordDefault admin sme env S = .ok u T) :
    Effect env S (.recordDefault admin sme) T := by
  simp only [recordDefault, requireAuth_seq_ok, requireAdmin_seq_ok, guard, guarded_ok,
    fetch_seq_ok, check_seq_ok, okOr_ok, checkedAddU32_some, gets_run, ite_run] at h
  obtain ⟨ha, hadmin, -, _, ⟨profile, hprofile, _, ⟨rfl, -⟩, percentage, hpercentage, h⟩, rfl⟩ := h
  have hslash : 0 < S.stake profile.verifier → S.slash profile.verifier =
      S.stake profile.verifier * percentage / 10_000 := by
    intro hpos
    rw [Storage.slash, if_pos hpos, show S.slashPercentage = some percentage from hpercentage]
    rfl
  have heffect := Effect.recordDefault admin sme profile
    ((S.verifierReputation profile.verifier).getD 100 - 10)
    (S.audit.append .riskRegistry env.timestamp admin .recordDefault) ha hadmin hprofile
  split_ifs at h with hpos
  · simp only [require_seq_ok, check_seq_ok, okOr_ok, modify_run, putProfile,
      appendAuditEntry_ok] at h
    obtain ⟨-, remaining, hremaining, rfl⟩ := h
    rw [if_pos (show 0 < S.stake profile.verifier from hpos), hslash hpos] at heffect
    rw [checkedSub_some hremaining]
    exact heffect
  · simp only [modify_run, putProfile, appendAuditEntry_ok] at h
    subst h
    rw [if_neg (show ¬ 0 < S.stake profile.verifier from hpos)] at heffect
    exact heffect

theorem setDebtorScore_ok {verifier : Address} {hash : Bytes} {score : ℕ} :
    setDebtorScore verifier hash score env S = .ok u T ↔
      env.Authenticates verifier ∧ S.verifier verifier = true ∧ hash.length = 32 ∧ score ≤ 100 ∧
        S.CooledDown verifier hash env.timestamp ∧
        S.scored verifier hash score env.timestamp = T := by
  simp only [setDebtorScore, requireAuth_seq_ok, requireVerifier_seq_ok, check_seq_ok,
    timestamp_run, gets_run, requireExactLength, requireValidRiskScore, guardK_ok, exists_const]
  refine and_congr_right fun _ => and_congr_right fun _ => and_congr_right fun _ =>
    and_congr_right fun _ => ?_
  cases hlast : S.debtorScoreLastUpdate verifier hash with
  | none =>
    have hcool : S.CooledDown verifier hash env.timestamp := by
      intro last h
      rw [hlast] at h
      cases h
    simp only [modify_ok, hcool, true_and]
    rfl
  | some last =>
    have hcool : S.CooledDown verifier hash env.timestamp ↔
        last + minScoreUpdateInterval < 2 ^ 64 ∧
          last + minScoreUpdateInterval ≤ env.timestamp := by
      simp only [Storage.CooledDown, hlast, Option.some.injEq, forall_eq']
    simp only [check_seq_ok, okOr_ok, checkedAddU64_some, ensure_seq_ok, modify_ok, hcool]
    constructor
    · rintro ⟨_, ⟨rfl, hlt⟩, hle, hT⟩
      exact ⟨⟨hlt, hle⟩, hT⟩
    · rintro ⟨⟨hlt, hle⟩, hT⟩
      exact ⟨_, ⟨rfl, hlt⟩, hle, hT⟩

end Effects

theorem Op.exec_quiet {env : Env} {s t : State} {u : Unit} {op : Op} (hquiet : op.Quiet)
    (h : op.exec env s = .ok u t) : QuietEffect env s.1 op t.1 := by
  cases op with
  | initializeContract admin nft token stake slash =>
    obtain ⟨S, hS, rfl⟩ := own_ok.mp h
    simp only [RiskRegistry.initializeContract, gets_run, ensure_seq_ok, net_run, check_seq_ok,
      modify_ok] at hS
    obtain ⟨hnew, _, -, rfl⟩ := hS
    exact .initializeContract admin nft token stake slash hnew
  | transferAdmin admin newAdmin =>
    obtain ⟨S, hS, rfl⟩ := own_ok.mp h
    simp only [RiskRegistry.transferAdmin, requireAuth_seq_ok, requireAdmin_seq_ok, modify_run,
      appendAuditEntry_ok] at hS
    obtain ⟨-, hadmin, rfl⟩ := hS
    exact .transferAdmin admin newAdmin _ hadmin
  | setDebtorScore verifier hash score =>
    obtain ⟨S, hS, rfl⟩ := own_ok.mp h
    obtain ⟨-, -, -, hscore, hcool, rfl⟩ := setDebtorScore_ok.mp hS
    exact .setDebtorScore verifier hash score hscore hcool
  | _ => exact hquiet.elim

theorem QuietEffect.effect {env : Env} {S T : Storage} {op : Op} (h : QuietEffect env S op T) :
    Effect env S op T := by
  cases h with
  | initializeContract | transferAdmin | setDebtorScore => exact .rest _ _ trivial rfl rfl

/-- **Every successful entry point has one of the listed effects.** -/
theorem Op.exec_effect {env : Env} {s t : State} {u : Unit} {op : Op}
    (h : op.exec env s = .ok u t) : Effect env s.1 op t.1 := by
  cases op with
  | addVerifier admin verifier stake => exact (addVerifier_ok h).1
  | removeVerifier admin verifier => exact (removeVerifier_ok h).1
  | initializeContract | transferAdmin | setDebtorScore =>
    exact (Op.exec_quiet (by trivial) h).effect
  | registerSme =>
    obtain ⟨S, hS, rfl⟩ := own_ok.mp h
    exact registerSme_effect hS
  | updateSmeScore =>
    obtain ⟨S, hS, rfl⟩ := own_ok.mp h
    exact updateSmeScore_effect hS
  | setCreditLimit =>
    obtain ⟨S, hS, rfl⟩ := own_ok.mp h
    exact setCreditLimit_effect hS
  | incrementInvoiceCount =>
    obtain ⟨S, hS, rfl⟩ := own_ok.mp h
    exact incrementInvoiceCount_effect hS
  | recordDefault =>
    obtain ⟨S, hS, rfl⟩ := own_ok.mp h
    exact recordDefault_effect hS

end Kora.RiskRegistry
