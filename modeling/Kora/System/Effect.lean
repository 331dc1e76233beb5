import Kora.System
import Kora.Marketplace.Spec

set_option autoImplicit false

/-!
# What a transaction can do

Every successful transaction falls under one constructor of `Effect`, which names the parts of
the ledger it leaves alone. The invariants of the system split on it.

* **`Entry.exec_effect`**: the classification;
* `Effect.now`: no transaction moves the clock;
* `Call.not_authenticates`, `Call.ne_financingPool`: no contract signs a transaction;
* `step_cases`: a step is a successful transaction, the passing of time or nothing;
* `performed`: the entry point of a successful step, with its environment.
-/

namespace Kora

open Exec

/-- What a successful entry point does to the ledger. -/
inductive Effect (env : Env) (w w' : World) : Entry → Prop
  /-- Access control, the oracle, the treasury, the risk registry and plain token transfers. -/
  | peripheral (e : Entry) : (∀ op, e ≠ .pool op) → (∀ op, e ≠ .marketplace op) →
      w'.pool = w.pool → w'.invoiceNft = w.invoiceNft → w'.marketplace = w.marketplace →
      w'.now = w.now → Effect env w w' e
  | invoiceNft (op : InvoiceNft.Op) (s : InvoiceNft.State) :
      op.exec env ⟨w.invoiceNft, w.accessControl, w.riskRegistry⟩ = .ok () s →
      w' = { w with
        invoiceNft := s.own
        accessControl := s.accessControl
        riskRegistry := s.riskRegistry } → Effect env w w' (.invoiceNft op)
  | pool (op : FinancingPool.Op) : op.exec env w = .ok () w' →
      w'.marketplace = w.marketplace → w'.now = w.now → Effect env w w' (.pool op)
  | listing (seller : Address) (i : ℕ) (price face : ℤ) (token : Address) (deadline : ℕ)
      (referrer : Option Address) (config : Marketplace.MarketplaceConfig) (inv : Invoice)
      (referrers : ℕ → Option Address) : 0 < price → price < face →
      w.marketplace.listing i = none → w.invoiceNft.marketplace = some env.net.marketplace →
      w.marketplace.currentConfig = some config →
      w.invoiceNft.invoice i = some (.current inv) → inv.status = .created →
      w' = { w with
        marketplace := { w.marketplace with
          config := some config
          referrer := referrers
          listing := Function.update w.marketplace.listing i
            (some ⟨i, seller, price, face, token, 0, deadline, true⟩)
          lock := false }
        invoiceNft := w.invoiceNft.asListed i inv } →
      Effect env w w' (.marketplace (.listInvoice seller i price face token deadline referrer))
  | funding (investor : Address) (i : ℕ) (amount : ℤ) (listing : Listing)
      (config : Marketplace.MarketplaceConfig) (inv : Invoice) (fee : ℤ) :
      Marketplace.Funding env w investor i amount w' listing config inv fee →
      Effect env w w' (.marketplace (.fundInvoice investor i amount))
  | market (op : Marketplace.Op) : op.Plain → op.exec env w = .ok () w' → w'.pool = w.pool →
      w'.invoiceNft = w.invoiceNft → w'.now = w.now → Effect env w w' (.marketplace op)

section Classification

variable {env : Env} {w w' : World} {u : Unit}

theorem Marketplace.Op.exec_effect {op : Marketplace.Op} (h : op.exec env w = .ok () w') :
    Effect env w w' (.marketplace op) := by
  by_cases hop : op.Administers
  · have hadmin := (exec_admin hop h).rest
    exact .market op hop.plain h (by rw [hadmin]) (by rw [hadmin]) (by rw [hadmin])
  · cases op with
    | listInvoice seller i price face token deadline referrer =>
      obtain ⟨hp, hlt, hnone, -, hm, config, inv, hc, hi, hs, -, rfl⟩ := listInvoice_ok h
      exact .listing seller i price face token deadline referrer config inv _ hp hlt hnone hm hc
        hi hs rfl
    | fundInvoice investor i amount =>
      obtain ⟨listing, config, inv, fee, hF⟩ := fundInvoice_ok h
      exact .funding investor i amount listing config inv fee hF
    | cancelListing =>
      obtain ⟨_, _, -, -, -, rfl⟩ := cancelListing_ok h
      exact .market _ trivial h rfl rfl rfl
    | requestCancellation =>
      obtain ⟨_, _, -, -, -, ⟨-, rfl⟩ | ⟨_, rfl⟩⟩ := requestCancellation_ok h
      · exact .market _ trivial h rfl rfl rfl
      · exact .market _ trivial h rfl rfl rfl
    | adminConfirmCancellation =>
      obtain ⟨_, _, _, -, -, -, rfl⟩ := adminConfirmCancellation_ok h
      exact .market _ trivial h rfl rfl rfl
    | claimRefund =>
      obtain ⟨_, _, _, -, -, -, -, -, -, -, rfl⟩ := claimRefund_ok h
      exact .market _ trivial h rfl rfl rfl
    | initializeContract | setReferrerSplitBps | setFeeBps | updateFeeBps | setTierFeeBps
    | whitelistToken | removeTokenWhitelist => exact absurd trivial hop

/-- **Every successful transaction has one of the listed effects.** -/
theorem Entry.exec_effect {e : Entry} (h : e.exec env w = .ok () w') : Effect env w w' e := by
  cases e with
  | accessControl op =>
    obtain ⟨S, -, rfl⟩ := onAccessControl_ok.mp h
    exact .peripheral _ nofun nofun rfl rfl rfl rfl
  | priceOracle op =>
    obtain ⟨S, -, rfl⟩ := onPriceOracle_ok.mp h
    exact .peripheral _ nofun nofun rfl rfl rfl rfl
  | treasury op =>
    obtain ⟨s, -, rfl⟩ := onTreasury_ok.mp h
    exact .peripheral _ nofun nofun rfl rfl rfl rfl
  | riskRegistry op =>
    obtain ⟨s, -, rfl⟩ := onRiskRegistry_ok.mp h
    exact .peripheral _ nofun nofun rfl rfl rfl rfl
  | invoiceNft op =>
    obtain ⟨s, hs, rfl⟩ := onInvoiceNft_ok.mp h
    exact .invoiceNft op s hs rfl
  | pool op =>
    have houtside := FinancingPool.Op.exec_outside h
    exact .pool op h houtside.marketplace houtside.now
  | marketplace op => exact Marketplace.Op.exec_effect h
  | transfer token src dst amount =>
    rw [exec, zoom_ok] at h
    obtain ⟨T, -, rfl⟩ := h
    exact .peripheral _ nofun nofun rfl rfl rfl rfl

theorem Effect.now {e : Entry} (h : Effect env w w' e) : w'.now = w.now := by
  cases h with
  | peripheral _ _ _ _ _ _ hn => exact hn
  | invoiceNft op s _ hw => rw [hw]
  | pool op _ _ hn => exact hn
  | listing _ _ _ _ _ _ _ _ _ _ _ _ _ _ _ _ _ hw => rw [hw]
  | funding _ _ _ _ _ _ _ hF => exact hF.now
  | market op _ _ _ _ hn => exact hn

theorem Effect.marketplace {e : Entry} (h : Effect env w w' e) (hm : ∀ op, e ≠ .marketplace op) :
    w'.marketplace = w.marketplace := by
  cases h with
  | peripheral _ _ _ _ _ heq _ => exact heq
  | invoiceNft op s _ hw => rw [hw]
  | pool op _ heq _ => exact heq
  | listing | funding | market => exact absurd rfl (hm _)

end Classification

/-! ## Steps -/

/-- Outside its own calls, no contract is authenticated. -/
theorem Call.not_authenticates {d : Deployment} {w : World} {c : Call} {a : Address}
    (ha : a ∈ d.contracts) : ¬ (c.env d w).Authenticates a := by
  rintro (h | h)
  · cases h
  · exact absurd ha (of_decide_eq_true (List.mem_filter.mp h).2)

theorem Call.ne_financingPool {d : Deployment} {w : World} {c : Call} {a : Address}
    (h : (c.env d w).Authenticates a) : a ≠ d.financingPool := by
  intro ha
  have hcontract : d.financingPool ∈ d.contracts := by simp [Deployment.contracts]
  rw [ha] at h
  exact Call.not_authenticates hcontract h

/-- **A step is a successful transaction, the passing of time, or nothing.** -/
theorem step_cases (d : Deployment) (w : World) (a : Action) :
    (∃ c, a = .call c ∧ c.Succeeds d w ∧ c.entry.exec (c.env d w) w = .ok () (step d w a)) ∨
      (∃ n, a = .tick n ∧ step d w a = { w with now := w.now + n }) ∨
      (∃ c, a = .call c ∧ ¬ c.Succeeds d w ∧ step d w a = w) := by
  cases a with
  | tick n => exact Or.inr (Or.inl ⟨n, rfl, rfl⟩)
  | call c =>
    rcases step_call_cases d w c with ⟨h, hs⟩ | ⟨hn, h⟩
    · exact Or.inl ⟨c, rfl, hs, h⟩
    · exact Or.inr (Or.inr ⟨c, rfl, hn, h⟩)

/-- The entry point that a step performs, and the environment in which it does. -/
def performed (d : Deployment) (w : World) : Action → Option (Env × Entry)
  | .call c => if c.Succeeds d w then some (c.env d w, c.entry) else none
  | .tick _ => none

theorem performed_of_succeeds {d : Deployment} {w : World} {c : Call} (h : c.Succeeds d w) :
    performed d w (.call c) = some (c.env d w, c.entry) := if_pos h

theorem step_performed (d : Deployment) (w : World) (a : Action) :
    (∃ env e, performed d w a = some (env, e) ∧ env.net = d ∧
        e.exec env w = .ok () (step d w a)) ∨
      performed d w a = none ∧ ∃ n, step d w a = { w with now := n } := by
  rcases step_cases d w a with ⟨c, rfl, hs, h⟩ | ⟨n, rfl, h⟩ | ⟨c, rfl, hn, h⟩
  · exact Or.inl ⟨c.env d w, c.entry, performed_of_succeeds hs, rfl, h⟩
  · exact Or.inr ⟨rfl, _, h⟩
  · exact Or.inr ⟨if_neg hn, w.now, h⟩

theorem now_le_step (d : Deployment) (w : World) (a : Action) : w.now ≤ (step d w a).now := by
  rcases step_cases d w a with ⟨c, rfl, -, h⟩ | ⟨n, rfl, h⟩ | ⟨c, rfl, -, h⟩
  · exact (Entry.exec_effect h).now.ge
  · rw [h]
    exact Nat.le_add_right w.now n
  · rw [h]

theorem performed_call {d : Deployment} {w : World} {a : Action} {env : Env} {e : Entry}
    (h : performed d w a = some (env, e)) : ∃ c, a = .call c ∧ c.env d w = env ∧ c.entry = e ∧
      e.exec env w = .ok () (step d w a) := by
  cases a with
  | tick n => cases h
  | call c =>
    rw [performed] at h
    split_ifs at h with hs
    · cases h
      obtain ⟨w', hw⟩ := Call.succeeds_iff.mp hs
      exact ⟨c, rfl, rfl, rfl, by rw [step_call_of_ok hw]; exact hw⟩

theorem Call.authenticates_from {c : Call} {d : Deployment} {w : World} {x : Address}
    (self : Address) (h : (c.env d w).Authenticates x) :
    ((c.env d w).from self).Authenticates x := by
  rcases h with h | h
  · cases h
  · exact Or.inr h

end Kora
