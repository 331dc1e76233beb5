import Kora.RiskRegistry.Spec
import Kora.System.Controls
import Kora.Treasury.Spec

set_option autoImplicit false

/-!
# What the other contracts do to the treasury

Outside its own entry points the treasury is only written by contributions, which record their
fee, and nothing takes an authorised token out of its account.

* `Kept`: the storage of the treasury is the same and its account is spared;
* **`Entry.exec_kept`**: all entry points but those of the treasury and contributions;
* `fundInvoice_treasury`: a contribution records its fee;
* `tokenContracts_run`: the token contracts never change.
-/

namespace Kora

open Exec

/-- The treasury is the same, and its account is spared. -/
structure Kept (d : Deployment) (w w' : World) : Prop where
  treasury : w'.treasury = w.treasury
  spares : w.tokens.Spares d.treasury w'.tokens

section Kept

variable {env : Env} {w w' : World} {u : Unit}

theorem Kept.of_same {d : Deployment} (ht : w'.treasury = w.treasury)
    (hT : w'.tokens = w.tokens) : Kept d w w' :=
  ⟨ht, by rw [hT]; exact .refl _ _⟩

theorem Deployment.treasury_ne (d : Deployment) : d.financingPool ≠ d.treasury ∧
    d.marketplace ≠ d.treasury ∧ d.riskRegistry ≠ d.treasury := by
  have h := d.distinct
  simp only [List.nodup_cons, List.mem_cons, not_or, List.not_mem_nil] at h
  exact ⟨h.2.2.2.1.1, h.2.2.1.2.1, Ne.symm h.2.2.2.2.1.1⟩

theorem Env.not_authenticates_from {a self : Address} (ha : ¬ env.Authenticates a)
    (hself : self ≠ a) : ¬ (env.from self).Authenticates a := by
  rintro (h | h)
  · exact hself (Option.some.inj h)
  · exact ha (Or.inr h)

theorem Env.ne_of_authenticates {a b : Address} (hb : env.Authenticates b)
    (ha : ¬ env.Authenticates a) : b ≠ a := by
  rintro rfl
  exact ha hb

theorem FinancingPool.Op.exec_kept {op : FinancingPool.Op} (h : op.exec env w = .ok u w')
    (ha : ¬ env.Authenticates env.net.treasury) : Kept env.net w w' := by
  have hpool := env.net.treasury_ne.1
  cases op with
  | initializeContract =>
    obtain ⟨-, rfl⟩ := initializeContract_ok h
    exact .of_same rfl rfl
  | setMaxPositionBps =>
    obtain rfl := setMaxPositionBps_ok h
    exact .of_same rfl rfl
  | releaseFunds =>
    obtain ⟨-, -, -, _, _, -, -, -, rfl⟩ := releaseFunds_ok h
    exact .of_same rfl rfl
  | recordPosition =>
    obtain ⟨-, -, _, _, -, -, -, rfl⟩ := recordPosition_ok h
    exact .of_same rfl rfl
  | listPositionForSale =>
    obtain ⟨-, _, rfl⟩ := listPositionForSale_ok h
    exact .of_same rfl rfl
  | buyPosition =>
    obtain ⟨token, price, hprice, htokens⟩ := buyPosition_pays h
    obtain ⟨hbuyer, _, _, _, _, _, -, -, -, rfl⟩ := buyPosition_ok h
    refine ⟨rfl, ?_⟩
    rw [htokens]
    exact .move (fun _ => Env.ne_of_authenticates hbuyer ha) hprice
  | repay =>
    obtain ⟨hpayer, hpos, _, _, _, _, -, -, -, -, -, h⟩ := repay_ok h
    have hne := Env.ne_of_authenticates hpayer ha
    rcases h with ⟨-, _, rfl⟩ | ⟨-, -, _, payments, _, hpay, rfl⟩
    · exact ⟨rfl, .move (fun _ => hne) hpos.le⟩
    · exact ⟨rfl, (Tokens.Spares.move (fun _ => hne) hpos.le).trans (.payAll hpool hpay.nonneg)⟩
  | markDefault =>
    obtain ⟨_, _, -, -, -, -, -, _, payments, _, hpay, rfl⟩ := markDefault_ok h
    refine ⟨rfl, .payAll hpool ?_⟩
    rcases hpay with ⟨-, hpay⟩ | ⟨-, rfl⟩
    · exact hpay.nonneg
    · exact nofun
  | proposeEarlySettlement =>
    obtain ⟨hsme, hpos, _, -, -, -, rfl⟩ := proposeEarlySettlement_ok h
    exact ⟨rfl, .move (fun _ => Env.ne_of_authenticates hsme ha) hpos.le⟩
  | acceptEarlySettlement =>
    obtain ⟨-, _, _, _, -, -, -, -, -, ⟨-, rfl⟩ | ⟨-, _, _, payments, _, -, -, hpay, rfl⟩⟩ :=
      acceptEarlySettlement_ok h
    · exact .of_same rfl rfl
    · exact ⟨rfl, .payAll hpool hpay.nonneg⟩
  | cancelEarlySettlement =>
    obtain ⟨token, amount, hamount, htokens⟩ := cancelEarlySettlement_pays h
    obtain ⟨-, _, _, -, -, rfl⟩ := cancelEarlySettlement_ok h
    refine ⟨rfl, ?_⟩
    rw [htokens]
    exact .move (fun _ => hpool) hamount

theorem Marketplace.Op.exec_kept {op : Marketplace.Op} (h : op.exec env w = .ok u w')
    (hf : ∀ investor i amount, op ≠ .fundInvoice investor i amount)
    (ha : ¬ env.Authenticates env.net.treasury) : Kept env.net w w' := by
  by_cases hop : op.Administers
  · have hadmin := (exec_admin hop h).rest
    exact .of_same (by rw [hadmin]) (by rw [hadmin])
  · cases op with
    | listInvoice =>
      obtain ⟨-, -, -, -, -, _, _, -, -, -, -, rfl⟩ := listInvoice_ok h
      exact .of_same rfl rfl
    | fundInvoice => exact absurd rfl (hf _ _ _)
    | cancelListing =>
      obtain ⟨_, _, -, -, -, rfl⟩ := cancelListing_ok h
      exact .of_same rfl rfl
    | requestCancellation =>
      obtain ⟨_, _, -, -, -, ⟨-, rfl⟩ | ⟨_, rfl⟩⟩ := requestCancellation_ok h
      · exact .of_same rfl rfl
      · exact .of_same rfl rfl
    | adminConfirmCancellation =>
      obtain ⟨_, _, _, -, -, -, rfl⟩ := adminConfirmCancellation_ok h
      exact .of_same rfl rfl
    | claimRefund =>
      obtain ⟨-, l, config, net, -, -, -, -, -, hpos, -, hauth, -, -, rfl⟩ := claimRefund_iff.mp h
      refine ⟨rfl, .move (fun hasks hsrc => ?_) hpos.le⟩
      have hno := Env.not_authenticates_from ha env.net.treasury_ne.2.1
      rw [← hsrc] at hno
      exact hno (hauth hasks)
    | initializeContract | setReferrerSplitBps | setFeeBps | updateFeeBps | setTierFeeBps
    | whitelistToken | removeTokenWhitelist => exact absurd trivial hop

end Kept

/-! ## The risk registry -/

namespace RiskRegistry

variable {env : Env} {s t : State} {u : Unit} {α : Type}

theorem own_tokens {m : Body α} {a : α} (h : own m env s = .ok a t) : t.2 = s.2 := by
  obtain ⟨S, -, rfl⟩ := zoom_ok.mp h
  rfl

theorem Op.exec_spares {op : Op} (h : op.exec env s = .ok u t)
    (ha : ¬ env.Authenticates env.net.treasury) : s.2.Spares env.net.treasury t.2 := by
  have hno := Env.not_authenticates_from ha env.net.treasury_ne.2.2
  cases op with
  | addVerifier admin verifier stake =>
    simp only [exec, RiskRegistry.addVerifier, requireAuth_seq_ok, net_run, own_seq_ok,
      callToken_seq_ok] at h
    obtain ⟨-, token, S, -, _, T, hT, h⟩ := h
    rw [own_tokens h]
    exact Token.spares_of_transfer hT hno
  | removeVerifier admin verifier =>
    simp only [exec, RiskRegistry.removeVerifier, requireAuth_seq_ok, net_run, own_seq_ok] at h
    obtain ⟨-, stake, S, -, h⟩ := h
    rw [ite_run] at h
    split_ifs at h
    · simp only [own_seq_ok, callToken_seq_ok] at h
      obtain ⟨token, S', -, _, T, hT, h⟩ := h
      rw [own_tokens h]
      exact Token.spares_of_transfer hT hno
    · rw [own_tokens h]
      exact .refl _ _
  | initializeContract | transferAdmin | registerSme | updateSmeScore | setCreditLimit
  | incrementInvoiceCount | recordDefault | setDebtorScore =>
    rw [own_tokens h]
    exact .refl _ _

end RiskRegistry

/-! ## All entry points -/

section Entries

variable {env : Env} {w w' : World} {e : Entry}

/-- **Every other entry point keeps the treasury**, when the treasury does not authenticate. -/
theorem Entry.exec_kept (h : e.exec env w = .ok () w') (ht : ∀ op, e ≠ .treasury op)
    (hf : ∀ investor i amount, e ≠ .marketplace (.fundInvoice investor i amount))
    (ha : ¬ env.Authenticates env.net.treasury) : Kept env.net w w' := by
  cases e with
  | accessControl op =>
    obtain ⟨S, -, rfl⟩ := onAccessControl_ok.mp h
    exact .of_same rfl rfl
  | priceOracle op =>
    obtain ⟨S, -, rfl⟩ := onPriceOracle_ok.mp h
    exact .of_same rfl rfl
  | treasury op => exact absurd rfl (ht op)
  | riskRegistry op =>
    obtain ⟨s, hs, rfl⟩ := onRiskRegistry_ok.mp h
    exact ⟨rfl, RiskRegistry.Op.exec_spares hs ha⟩
  | invoiceNft op =>
    obtain ⟨s, -, rfl⟩ := onInvoiceNft_ok.mp h
    exact .of_same rfl rfl
  | pool op => exact FinancingPool.Op.exec_kept h ha
  | marketplace op =>
    refine Marketplace.Op.exec_kept h (fun investor i amount hop => ?_) ha
    exact hf investor i amount (by rw [hop])
  | transfer token src dst amount =>
    rw [exec, zoom_ok] at h
    obtain ⟨T, hT, rfl⟩ := h
    exact ⟨rfl, Token.spares_of_transfer hT ha⟩

theorem Marketplace.contributed_contracts (T : Tokens) (config : Marketplace.MarketplaceConfig)
    (token investor : Address) (fee net : ℤ) :
    (Marketplace.contributed T config token investor fee net).decimals = T.decimals ∧
      (Marketplace.contributed T config token investor fee net).asksAuth = T.asksAuth := by
  unfold Marketplace.contributed
  split_ifs <;> exact ⟨rfl, rfl⟩

theorem Entry.exec_tokenContracts (h : e.exec env w = .ok () w')
    (ha : ¬ env.Authenticates env.net.treasury) :
    w'.tokens.decimals = w.tokens.decimals ∧ w'.tokens.asksAuth = w.tokens.asksAuth := by
  by_cases ht : ∃ op, e = .treasury op
  · obtain ⟨op, rfl⟩ := ht
    obtain ⟨s, hs, rfl⟩ := onTreasury_ok.mp h
    show s.2.decimals = _ ∧ s.2.asksAuth = _
    cases Treasury.Op.exec_meter hs with
    | withdraw _ _ _ _ _ _ hT => rw [hT]; exact ⟨rfl, rfl⟩
    | drain _ _ _ _ _ hT => rw [hT]; exact ⟨rfl, rfl⟩
    | initialise _ _ _ hT => rw [hT]; exact ⟨rfl, rfl⟩
    | rest _ _ hT => rw [hT]; exact ⟨rfl, rfl⟩
  by_cases hf : ∃ investor i amount, e = .marketplace (.fundInvoice investor i amount)
  · obtain ⟨investor, i, amount, rfl⟩ := hf
    obtain ⟨l, config, inv, fee, hF⟩ := Marketplace.fundInvoice_ok h
    rw [hF.tokens]
    exact Marketplace.contributed_contracts ..
  · push Not at ht hf
    have hkept := (exec_kept h ht hf ha).spares
    exact ⟨hkept.decimals, hkept.asksAuth⟩

end Entries

section Runs

variable {d : Deployment} {w : World}

theorem Call.treasury_not_authenticates (c : Call) :
    ¬ (c.env d w).Authenticates (c.env d w).net.treasury :=
  Call.not_authenticates (by simp [Deployment.contracts, Call.env])

theorem tokenContracts_step (d : Deployment) (w : World) (a : Action) :
    (step d w a).tokens.decimals = w.tokens.decimals ∧
      (step d w a).tokens.asksAuth = w.tokens.asksAuth := by
  rcases step_cases d w a with ⟨c, rfl, -, h⟩ | ⟨n, rfl, h⟩ | ⟨c, rfl, -, h⟩
  · exact Entry.exec_tokenContracts h c.treasury_not_authenticates
  · rw [h]
    exact ⟨rfl, rfl⟩
  · rw [h]
    exact ⟨rfl, rfl⟩

theorem tokenContracts_run (d : Deployment) (w : World) (as : List Action) :
    (Run.run (step d) w as).tokens.decimals = w.tokens.decimals ∧
      (Run.run (step d) w as).tokens.asksAuth = w.tokens.asksAuth :=
  Run.always (I := fun w' => w'.tokens.decimals = w.tokens.decimals ∧
      w'.tokens.asksAuth = w.tokens.asksAuth)
    (fun w' a hw => ⟨(tokenContracts_step d w' a).1.trans hw.1,
      (tokenContracts_step d w' a).2.trans hw.2⟩) ⟨rfl, rfl⟩ as

end Runs

end Kora
