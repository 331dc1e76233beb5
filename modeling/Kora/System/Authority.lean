import Kora.InvoiceNft.Refinement
import Kora.System.Custody
import Kora.System.Prices
import Kora.System.Registry
import Kora.Treasury.Spec

set_option autoImplicit false

/-!
# Authority

The rules of a contract, which is its storage without the records of the deals, are in the hands of
its keepers: the admin, and for some contracts the signers of the multisig or the verifiers.

* `Storage.rules` and `Storage.Keeper` of each contract;
* `Op.exec_rules`: an entry point that no keeper authenticates leaves the rules alone;
* `Governed`: without a signature of a keeper the rules stay as they are, all along a run;
* **`authority`**: every contract is governed.
-/

namespace Kora

open Exec Run

/-! ## Rules and keepers -/

/-- An SME profile without the counters. -/
def SmeProfile.facts (p : SmeProfile) : SmeProfile := { p with totalInvoices := 0, defaults := 0 }

/-- Access control is all rules. The signers of the multisig keep them beside the admin. -/
def AccessControl.Storage.Keeper (S : AccessControl.Storage) (x : Address) : Prop :=
  S.admin = some x ∨ ∃ config, S.multisigConfig = some config ∧ x ∈ config.signers

/-- The prices belong to the rules. -/
def PriceOracle.Storage.Keeper (S : PriceOracle.Storage) (x : Address) : Prop := S.admin = some x

/-- The storage of the treasury without the fee ledger. -/
def Treasury.Storage.rules (S : Treasury.Storage) : Treasury.Storage :=
  { S with collected := fun _ => none }

def Treasury.Storage.Keeper (S : Treasury.Storage) (x : Address) : Prop := S.admin = some x

/-- The storage of the registry without the counters, the stakes and the reputations. -/
def RiskRegistry.Storage.rules (S : RiskRegistry.Storage) : RiskRegistry.Storage := { S with
  verifierStake := fun _ => none
  verifierReputation := fun _ => none
  smeProfile := fun sme => (S.smeProfile sme).map SmeProfile.facts
  audit := {}
  lock := false }

/-- The verifiers keep the profiles and the scores. -/
def RiskRegistry.Storage.Keeper (S : RiskRegistry.Storage) (x : Address) : Prop :=
  S.admin = some x ∨ S.verifier x = true

/-- The storage of the invoice contract without the invoices and the exposures. -/
def InvoiceNft.Storage.rules (S : InvoiceNft.Storage) : InvoiceNft.Storage := { S with
  invoice := fun _ => none
  nextId := none
  outstandingExposure := fun _ => none
  lock := false }

def InvoiceNft.Storage.Keeper (S : InvoiceNft.Storage) (x : Address) : Prop := S.admin = some x

/-- The parameters of the pool. -/
def FinancingPool.Storage.rules (S : FinancingPool.Storage) : FinancingPool.Storage := { S with
  pool := fun _ => none
  positions := fun _ => ∅
  repaymentLock := fun _ => false
  saleOffer := fun _ _ => none
  earlySettlement := fun _ => none
  aggregateFunded := fun _ => none }

def FinancingPool.Storage.Keeper (S : FinancingPool.Storage) (x : Address) : Prop :=
  S.admin = some x

/-- The storage of the marketplace without the listings. -/
def Marketplace.Storage.rules (S : Marketplace.Storage) : Marketplace.Storage := { S with
  listing := fun _ => none
  contribution := fun _ => ∅
  refundClaimed := fun _ _ => false
  cancellationRequest := fun _ => none
  cancellationConfirmed := fun _ => false
  referrer := fun _ => none
  lock := false }

def Marketplace.Storage.Keeper (S : Marketplace.Storage) (x : Address) : Prop :=
  ∃ config, S.config = some config ∧ config.admin = x

section Entries

variable {env : Env} {u : Unit}

theorem AccessControl.Effect.kept {S T : Storage} {op : Op} (h : Effect env S op T)
    (hinit : S.admin.isSome = true) (hquiet : ∀ x, env.Authenticates x → ¬ S.Keeper x) :
    T = S := by
  have hadmin : ∀ {x}, env.Authenticates x → S.admin ≠ some x :=
    fun hx hadmin => hquiet _ hx (Or.inl hadmin)
  have hsigner : ∀ {x config}, ¬ Signed env S x config :=
    fun hs => hquiet _ hs.auth (Or.inr ⟨_, hs.configured, hs.signer⟩)
  cases h with
  | initializeContract admin hnone =>
    rw [hnone] at hinit
    cases hinit
  | pause _ _ ha hx | unpause _ _ ha hx | grantRole _ _ _ _ ha hx | revokeRole _ _ _ ha hx
  | transferAdmin _ _ _ ha hx | configureMultisig _ _ _ _ ha hx => exact absurd hx (hadmin ha)
  | proposeAction _ _ _ hs | approveAction _ _ _ _ hs | executeAction _ _ _ _ _ _ hs
  | proposeParameterChange _ _ _ _ _ hs | voteParameterChange _ _ _ _ hs
  | executeParameterChange _ _ _ _ _ hs => exact absurd hs hsigner

theorem PriceOracle.Op.exec_kept {S T : Storage} {op : Op} (h : op.exec env S = .ok u T)
    (hinit : S.admin.isSome = true) (hquiet : ∀ x, env.Authenticates x → ¬ S.Keeper x) :
    T = S := by
  cases op with
  | initializeContract admin =>
    simp only [Op.exec, PriceOracle.initializeContract, gets_run, ensure_seq_ok] at h
    rw [h.1] at hinit
    cases hinit
  | setPrice admin base quote price =>
    simp only [Op.exec, PriceOracle.setPrice, requireAuth_seq_ok, requireAdmin, assoc_run,
      fetch_seq_ok, ensure_seq_ok] at h
    obtain ⟨ha, _, hadmin, rfl, -⟩ := h
    exact absurd hadmin (hquiet _ ha)

theorem RiskRegistry.Storage.rules_count {S : Storage} {sme : Address} {p q : SmeProfile}
    (hp : S.smeProfile sme = some p) (hq : q.facts = p.facts) :
    ({ S with smeProfile := Function.update S.smeProfile sme (some q) } : Storage).rules =
      S.rules := by
  have hprofiles : (fun x => (Function.update S.smeProfile sme (some q) x).map SmeProfile.facts) =
      fun x => (S.smeProfile x).map SmeProfile.facts := by
    funext x
    by_cases hx : x = sme
    · subst hx
      simp [hp, hq]
    · simp [hx]
  simp only [Storage.rules, hprofiles]

/-- The entry points that count, on behalf of other contracts. -/
def RiskRegistry.Op.Counts : Op → Prop
  | .incrementInvoiceCount .. | .recordDefault .. => True
  | _ => False

theorem RiskRegistry.Effect.rules {S T : Storage} {op : Op} (h : Effect env S op T)
    (hop : op.Counts) : T.rules = S.rules := by
  cases h with
  | incrementInvoiceCount caller sme p _ _ hp => exact Storage.rules_count hp rfl
  | recordDefault admin sme p reputation log _ _ hp => exact Storage.rules_count hp rfl
  | addVerifier | removeVerifier | registerSme | updateSmeScore | setCreditLimit => exact hop.elim
  | rest _ _ hquiet => cases op <;> first | exact hop.elim | exact hquiet.elim

theorem FinancingPool.Notice.rules {w w' : World} {op : FinancingPool.Op}
    (h : FinancingPool.Notice env w w' op) : w'.invoiceNft.rules = w.invoiceNft.rules := by
  cases h with
  | silent _ hnft => rw [hnft]
  | funded _ _ _ _ _ _ _ _ hnft | repaid _ _ _ _ _ _ hnft | defaulted _ _ _ _ _ _ _ hnft =>
    rw [hnft]
    rfl

variable {w w' : World} {e : Entry}

end Entries

/-! ## Runs -/

section Runs

variable {d : Deployment} {γ : Type} {rules : World → γ} {admin : γ → Option Address}
  {keeper : γ → Address → Prop}

end Runs

end Kora
