import Kora.System.Effect

set_option autoImplicit false

/-!
# What a transaction does to one listing

`Change env i w w' e` lists everything a successful transaction `e` can do to the listing of
invoice `i`, its contributions and its refunds.

* **`change_of_effect`**, `step_change`: there is nothing else;
* `feesValid_of_effect`: every fee rate stays at most the whole amount;
* `Funding.chargedFee`, **`Funding.fee_bounds`**: the fee of a contribution.
-/

namespace Kora.Marketplace

open Exec

/-- The entry point moves money of the listing of invoice `i`. -/
def DealsWith (i : ℕ) : Entry → Prop
  | .marketplace (.fundInvoice _ j _) => j = i
  | .marketplace (.claimRefund _ j) => j = i
  | _ => False

/-- The listing of invoice `i` and its books are the same. -/
structure SameListing (i : ℕ) (w w' : World) : Prop where
  listing : w'.marketplace.listing i = w.marketplace.listing i
  contribution : w'.marketplace.contribution i = w.marketplace.contribution i
  refundClaimed : w'.marketplace.refundClaimed i = w.marketplace.refundClaimed i
  confirmed : w'.marketplace.cancellationConfirmed i = w.marketplace.cancellationConfirmed i

/-- Invoice `i` is listed. -/
structure Opening (i : ℕ) (w w' : World) (seller : Address) (price face : ℤ) (token : Address)
    (deadline : ℕ) : Prop where
  positive : 0 < price
  discounted : price < face
  unlisted : w.marketplace.listing i = none
  listing : w'.marketplace.listing i = some ⟨i, seller, price, face, token, 0, deadline, true⟩
  contribution : w'.marketplace.contribution i = w.marketplace.contribution i
  refundClaimed : w'.marketplace.refundClaimed i = w.marketplace.refundClaimed i
  confirmed : w'.marketplace.cancellationConfirmed i = w.marketplace.cancellationConfirmed i

/-- The listing of invoice `i` is deactivated, by a confirmed cancellation or not. -/
structure Deactivation (i : ℕ) (w w' : World) (l : Listing) (confirms : Bool) : Prop where
  found : w.marketplace.listing i = some l
  active : l.isActive = true
  listing : w'.marketplace.listing i = some { l with isActive := false }
  contribution : w'.marketplace.contribution i = w.marketplace.contribution i
  refundClaimed : w'.marketplace.refundClaimed i = w.marketplace.refundClaimed i
  confirmed : w'.marketplace.cancellationConfirmed i =
    (w.marketplace.cancellationConfirmed i || confirms)

/-- `investor` gets its net contribution back. -/
structure Refund (env : Env) (i : ℕ) (w w' : World) (investor : Address) (l : Listing)
    (config : MarketplaceConfig) (net : ℤ) : Prop where
  found : w.marketplace.listing i = some l
  short : l.fundedAmount < l.askingPrice
  gate : w.marketplace.cancellationConfirmed i = true ∨ l.fundingDeadline < env.timestamp
  unclaimed : w.marketplace.refundClaimed i investor = false
  contributed : (w.marketplace.contribution i)[investor]? = some net
  positive : 0 < net
  listing : w'.marketplace.listing i = w.marketplace.listing i
  contribution : w'.marketplace.contribution i = w.marketplace.contribution i
  refundClaimed : w'.marketplace.refundClaimed i =
    Function.update (w.marketplace.refundClaimed i) investor true
  confirmed : w'.marketplace.cancellationConfirmed i = w.marketplace.cancellationConfirmed i
  tokens : w'.tokens = w.tokens.move l.token config.financingPool investor net

/-- What a successful transaction does to the listing of invoice `i`. -/
inductive Change (env : Env) (i : ℕ) (w w' : World) : Entry → Prop
  | frame (e : Entry) : ¬ DealsWith i e → SameListing i w w' → Change env i w w' e
  | listed (seller : Address) (price face : ℤ) (token : Address) (deadline : ℕ)
      (referrer : Option Address) : Opening i w w' seller price face token deadline →
      Change env i w w' (.marketplace (.listInvoice seller i price face token deadline referrer))
  | funded (investor : Address) (amount : ℤ) (l : Listing) (config : MarketplaceConfig)
      (inv : Invoice) (fee : ℤ) : Funding env w investor i amount w' l config inv fee →
      Change env i w w' (.marketplace (.fundInvoice investor i amount))
  | deactivated (e : Entry) (l : Listing) (confirms : Bool) : ¬ DealsWith i e →
      Deactivation i w w' l confirms → Change env i w w' e
  | refunded (investor : Address) (l : Listing) (config : MarketplaceConfig) (net : ℤ) :
      Refund env i w w' investor l config net →
      Change env i w w' (.marketplace (.claimRefund investor i))

section Classification

variable {env : Env} {w w' : World} {u : Unit} {e : Entry}

theorem SameListing.of_eq {i : ℕ} (h : w'.marketplace = w.marketplace) : SameListing i w w' := by
  constructor <;> rw [h]

theorem SameListing.of_books {i : ℕ} (h : SameBooks w.marketplace w'.marketplace) :
    SameListing i w w' :=
  ⟨by rw [h.listing], by rw [h.contribution], by rw [h.refundClaimed],
    by rw [h.cancellationConfirmed]⟩

theorem Op.exec_change {op : Op} (hplain : op.Plain) (h : op.exec env w = .ok u w') (i : ℕ) :
    Change env i w w' (.marketplace op) := by
  by_cases hop : op.Administers
  · refine .frame _ ?_ (.of_books (exec_admin hop h).books)
    cases op <;> first | exact id | exact hop.elim
  · cases op with
    | listInvoice | fundInvoice => exact hplain.elim
    | cancelListing caller j =>
      obtain ⟨l, config, hfound, hact, -, rfl⟩ := cancelListing_ok h
      by_cases hj : i = j
      · subst hj
        exact .deactivated _ l false id
          ⟨hfound, hact, Function.update_self .., rfl, rfl, (Bool.or_false _).symm⟩
      · exact .frame _ id ⟨Function.update_of_ne hj .., rfl, rfl, rfl⟩
    | requestCancellation caller j =>
      obtain ⟨l, config, hfound, hact, -, ⟨-, rfl⟩ | ⟨_, rfl⟩⟩ := requestCancellation_ok h
      · by_cases hj : i = j
        · subst hj
          exact .deactivated _ l false id
            ⟨hfound, hact, Function.update_self .., rfl, rfl, (Bool.or_false _).symm⟩
        · exact .frame _ id ⟨Function.update_of_ne hj .., rfl, rfl, rfl⟩
      · exact .frame _ id ⟨rfl, rfl, rfl, rfl⟩
    | adminConfirmCancellation admin j =>
      obtain ⟨l, config, _, hfound, hact, -, rfl⟩ := adminConfirmCancellation_ok h
      by_cases hj : i = j
      · subst hj
        exact .deactivated _ l true id ⟨hfound, hact, Function.update_self .., rfl, rfl,
          (Function.update_self ..).trans (Bool.or_true _).symm⟩
      · exact .frame _ id
          ⟨Function.update_of_ne hj .., rfl, rfl, Function.update_of_ne hj ..⟩
    | claimRefund investor j =>
      obtain ⟨l, config, net, hfound, hlt, hgate, hclaimed, hnet, hpos, -, rfl⟩ := claimRefund_ok h
      by_cases hj : i = j
      · subst hj
        exact .refunded investor l config net ⟨hfound, hlt, hgate, hclaimed, hnet, hpos, rfl, rfl,
          Function.update_self .., rfl, rfl⟩
      · exact .frame _ (fun h => hj h.symm) ⟨rfl, rfl, Function.update_of_ne hj .., rfl⟩
    | initializeContract | setReferrerSplitBps | setFeeBps | updateFeeBps | setTierFeeBps
    | whitelistToken | removeTokenWhitelist => exact absurd trivial hop

theorem change_of_effect (h : Effect env w w' e) (i : ℕ) : Change env i w w' e := by
  cases h with
  | peripheral e _ hm _ _ hmarket =>
    refine .frame e (fun h => ?_) (.of_eq hmarket)
    cases e with
    | marketplace op => exact hm op rfl
    | accessControl | priceOracle | treasury | riskRegistry | invoiceNft | pool | transfer =>
      exact h
  | invoiceNft op s _ hw => exact .frame _ id (.of_eq (by rw [hw]))
  | pool op _ hmarket => exact .frame _ id (.of_eq hmarket)
  | listing seller j price face token deadline referrer config inv refs hp hlt hnone _ _ _ _ hw =>
    obtain rfl := hw
    by_cases hj : i = j
    · subst hj
      exact .listed seller price face token deadline referrer
        ⟨hp, hlt, hnone, Function.update_self .., rfl, rfl, rfl⟩
    · exact .frame _ id ⟨Function.update_of_ne hj .., rfl, rfl, rfl⟩
  | funding investor j amount l config inv fee hF =>
    by_cases hj : i = j
    · subst hj
      exact .funded investor amount l config inv fee hF
    · refine .frame _ (fun h => hj h.symm) ⟨?_, ?_, ?_, ?_⟩
      · rw [hF.marketplace]
        exact Function.update_of_ne hj ..
      · rw [hF.marketplace]
        exact Function.update_of_ne hj ..
      · rw [hF.marketplace]
        rfl
      · rw [hF.marketplace]
        rfl
  | market op hplain hop _ _ _ => exact Op.exec_change hplain hop i

theorem step_change (d : Deployment) (w : World) (a : Action) (i : ℕ) :
    (∃ c, a = .call c ∧ c.Succeeds d w ∧ Change (c.env d w) i w (step d w a) c.entry) ∨
      (∀ c, a = .call c → ¬ c.Succeeds d w) ∧
        ∃ n, w.now ≤ n ∧ step d w a = { w with now := n } := by
  rcases step_cases d w a with ⟨c, rfl, hs, h⟩ | ⟨n, rfl, h⟩ | ⟨c, rfl, hn, h⟩
  · exact Or.inl ⟨c, rfl, hs, change_of_effect (Entry.exec_effect h) i⟩
  · exact Or.inr ⟨nofun, _, Nat.le_add_right _ _, h⟩
  · refine Or.inr ⟨?_, w.now, le_rfl, h⟩
    rintro _ ⟨⟩
    exact hn

end Classification

/-! ## Fees -/

section Fees

variable {env : Env} {w w' : World} {u : Unit} {e : Entry}

theorem Op.exec_feesValid {op : Op} (hplain : op.Plain) (h : op.exec env w = .ok u w')
    (hf : w.marketplace.FeesValid) : w'.marketplace.FeesValid := by
  by_cases hop : op.Administers
  · exact (exec_admin hop h).fees hf
  · cases op with
    | listInvoice | fundInvoice => exact hplain.elim
    | cancelListing =>
      obtain ⟨_, config, -, -, hc, rfl⟩ := cancelListing_ok h
      exact hf.settled hc rfl rfl rfl
    | requestCancellation =>
      obtain ⟨_, config, -, -, hc, ⟨-, rfl⟩ | ⟨_, rfl⟩⟩ := requestCancellation_ok h
      · exact hf.settled hc rfl rfl rfl
      · exact hf.settled hc rfl rfl rfl
    | adminConfirmCancellation =>
      obtain ⟨_, config, _, -, -, hc, rfl⟩ := adminConfirmCancellation_ok h
      exact hf.settled hc rfl rfl rfl
    | claimRefund =>
      obtain ⟨_, config, _, -, -, -, -, -, -, hc, rfl⟩ := claimRefund_ok h
      exact hf.settled hc rfl rfl rfl
    | initializeContract | setReferrerSplitBps | setFeeBps | updateFeeBps | setTierFeeBps
    | whitelistToken | removeTokenWhitelist => exact absurd trivial hop

theorem feesValid_of_effect (h : Effect env w w' e) (hf : w.marketplace.FeesValid) :
    w'.marketplace.FeesValid := by
  cases h with
  | peripheral _ _ _ _ _ hm => rwa [hm]
  | invoiceNft _ _ _ hw => rwa [hw]
  | pool _ _ hm => rwa [hm]
  | listing _ _ _ _ _ _ _ config _ _ _ _ _ _ hc _ _ hw =>
    rw [hw]
    exact hf.settled hc rfl rfl rfl
  | funding _ _ _ _ config _ _ hF =>
    rw [hF.marketplace]
    exact hf.settled hF.configured rfl rfl rfl
  | market op hplain hop => exact Op.exec_feesValid hplain hop hf

theorem feesValid_step {d : Deployment} (hf : w.marketplace.FeesValid) (a : Action) :
    (step d w a).marketplace.FeesValid := by
  rcases step_cases d w a with ⟨c, rfl, -, h⟩ | ⟨n, rfl, h⟩ | ⟨c, rfl, -, h⟩
  · exact feesValid_of_effect (Entry.exec_effect h) hf
  · rwa [h]
  · rwa [h]

variable {i : ℕ} {investor : Address} {amount fee : ℤ} {l : Listing} {config : MarketplaceConfig}
  {inv : Invoice}

theorem Funding.chargedFee (h : Funding env w investor i amount w' l config inv fee) :
    Marketplace.chargedFee w i amount = some fee := by
  obtain ⟨decimals, hdec, hfee⟩ := h.charged
  simp [Marketplace.chargedFee, h.listed, h.configured, hdec, h.invoice, hfee]

/-- **The fee of a contribution lies between zero and the contribution.** -/
theorem Funding.fee_bounds (h : Funding env w investor i amount w' l config inv fee)
    (hf : w.marketplace.FeesValid) : 0 ≤ fee ∧ fee ≤ amount := by
  obtain ⟨decimals, -, hfee⟩ := h.charged
  exact ⟨bpsOfNormalized_nonneg hfee,
    bpsOfNormalized_le hfee (hf.effectiveFeeBps h.configured inv.riskTier)⟩

end Fees

end Kora.Marketplace
