import Kora.Marketplace.Change
import Kora.System.Purse
import Kora.TransferLog

set_option autoImplicit false

/-!
# Custody

Every transfer that the protocol makes is of one of the kinds of `Flow`: a payment that its payer
signed for, or a payout of a contract to the party it is owed to.

* `Flow`: the kinds, with the consent each of them has;
* `Op.exec_flow` for each contract, **`Entry.exec_flow`**: there are no others;
* `Flow.payer`, `Flow.payout`: who pays where the token asks for authorisation;
* **`custody`**: in every run the balances are explained by transfers of these kinds;
* **`savings`**: an account that signs nothing loses nothing.
-/

namespace Kora

open Exec Run

/-! ## Statement -/

/-- The entry points that distribute the money of pool `i`, with the party that starts it. -/
inductive FinancingPool.StartsDistribution (env : Env) (w : World) (i : ℕ) : FinancingPool.Op → Prop
  | repay (payer token : Address) (amount : ℤ) : env.Authenticates payer →
      StartsDistribution env w i (.repay payer i token amount)
  | markDefault (admin token : Address) : env.Authenticates admin → w.pool.admin = some admin →
      StartsDistribution env w i (.markDefault admin i token)
  | acceptEarlySettlement (investor : Address) : env.Authenticates investor →
      (w.pool.positions i)[investor]?.isSome = true →
      StartsDistribution env w i (.acceptEarlySettlement investor i)

/-- The transfers that an entry point makes. -/
inductive Flow (env : Env) (w : World) : Entry → Transfer → Prop
  /-- A transfer outside the protocol. -/
  | plain (token src dst : Address) (amount : ℤ) :
      (w.tokens.asksAuth token = true → env.Authenticates src) →
      Flow env w (.transfer token src dst amount) ⟨token, src, dst, amount⟩
  /-- An investor pays the fee and the net amount of a contribution. -/
  | contribution (investor : Address) (i : ℕ) (amount fee : ℤ) (l : Listing)
      (config : Marketplace.MarketplaceConfig) (t : Transfer) : env.Authenticates investor →
      w.marketplace.listing i = some l → w.marketplace.currentConfig = some config →
      Marketplace.chargedFee w i amount = some fee →
      t ∈ Marketplace.contributionTransfers config l.token investor fee (amount - fee) →
      Flow env w (.marketplace (.fundInvoice investor i amount)) t
  /-- An investor gets its net contribution back from the configured pool. -/
  | refund (investor : Address) (i : ℕ) (l : Listing) (config : Marketplace.MarketplaceConfig)
      (net : ℤ) : w.marketplace.listing i = some l →
      w.marketplace.currentConfig = some config →
      (w.marketplace.contribution i)[investor]? = some net →
      (w.tokens.asksAuth l.token = true →
        (env.from env.net.marketplace).Authenticates config.financingPool) →
      Flow env w (.marketplace (.claimRefund investor i))
        ⟨l.token, config.financingPool, investor, net⟩
  /-- A buyer pays the price that the seller asked. -/
  | sale (buyer seller : Address) (i : ℕ) (offer : PositionSaleOffer) :
      env.Authenticates buyer → w.pool.saleOffer i seller = some offer →
      Flow env w (.pool (.buyPosition buyer i seller)) ⟨offer.token, buyer, seller, offer.price⟩
  /-- A payer repays. -/
  | repayment (payer token : Address) (i : ℕ) (amount : ℤ) : env.Authenticates payer →
      Flow env w (.pool (.repay payer i token amount))
        ⟨token, payer, env.net.financingPool, amount⟩
  /-- The SME escrows an early settlement. -/
  | escrow (sme : Address) (i : ℕ) (amount : ℤ) (p : Pool) : env.Authenticates sme →
      w.invoiceNft.owner i = some sme → w.pool.pool i = some p →
      Flow env w (.pool (.proposeEarlySettlement sme i amount))
        ⟨p.token, sme, env.net.financingPool, amount⟩
  /-- A verifier deposits its stake. -/
  | stake (admin verifier token : Address) (amount : ℤ) : w.riskRegistry.admin = some admin →
      w.riskRegistry.stakingToken = some token → verifier ≠ env.net.riskRegistry →
      (w.tokens.asksAuth token = true →
        (env.from env.net.riskRegistry).Authenticates verifier) →
      Flow env w (.riskRegistry (.addVerifier admin verifier amount))
        ⟨token, verifier, env.net.riskRegistry, amount⟩
  /-- The pool pays the investors of invoice `i`. -/
  | distribution (op : FinancingPool.Op) (i : ℕ) (token investor : Address) (amount : ℤ) :
      FinancingPool.StartsDistribution env w i op →
      (w.pool.positions i)[investor]?.isSome = true →
      Flow env w (.pool op) ⟨token, env.net.financingPool, investor, amount⟩
  /-- The pool pays the escrow of a cancelled settlement back. -/
  | escrowBack (sme : Address) (i : ℕ) (offer : EarlySettlementOffer) (p : Pool) :
      env.Authenticates sme → w.invoiceNft.owner i = some sme →
      w.pool.earlySettlement i = some offer → w.pool.pool i = some p →
      Flow env w (.pool (.cancelEarlySettlement sme i))
        ⟨p.token, env.net.financingPool, sme, offer.amount⟩
  /-- The treasury pays a withdrawal of its admin. -/
  | withdrawal (admin token recipient : Address) (amount : ℤ) : env.Authenticates admin →
      w.treasury.admin = some admin →
      Flow env w (.treasury (.withdraw admin token recipient amount))
        ⟨token, env.net.treasury, recipient, amount⟩
  /-- The treasury is emptied by its admin. -/
  | drain (admin token recipient : Address) : env.Authenticates admin →
      w.treasury.admin = some admin →
      Flow env w (.treasury (.emergencyWithdraw admin token recipient))
        ⟨token, env.net.treasury, recipient, w.tokens.balance token env.net.treasury⟩
  /-- The registry pays the stake of a removed verifier back. -/
  | stakeBack (admin verifier token : Address) : env.Authenticates admin →
      w.riskRegistry.admin = some admin → w.riskRegistry.stakingToken = some token →
      Flow env w (.riskRegistry (.removeVerifier admin verifier))
        ⟨token, env.net.riskRegistry, verifier, w.riskRegistry.stake verifier⟩

/-- The transfer moves a nonnegative amount in one of these ways. -/
def Flows (env : Env) (w : World) (e : Entry) (t : Transfer) : Prop :=
  0 ≤ t.amount ∧ Flow env w e t

/-! ## Entry points -/

section Entries

variable {env : Env} {w w' : World} {u : Unit}

open Tokens

theorem FinancingPool.Payments.exists_position {total : ℤ} {decimals : ℕ}
    {positions : List (Address × Position)} {payments : List (Address × ℤ)}
    (h : Payments total decimals positions payments) :
    ∀ p ∈ payments, ∃ e ∈ positions, p.1 = e.1 := by
  induction h with
  | nil => exact nofun
  | cons hp _ ih =>
    rw [List.forall_mem_cons]
    refine ⟨⟨_, List.mem_cons_self, hp.1⟩, fun p hp => ?_⟩
    obtain ⟨e, he, heq⟩ := ih p hp
    exact ⟨e, List.mem_cons_of_mem _ he, heq⟩

theorem FinancingPool.moves_payAll {op : FinancingPool.Op} {T : Tokens} {i : ℕ} {total : ℤ}
    {decimals : ℕ} {payments : List (Address × ℤ)} (token : Address)
    (hop : StartsDistribution env w i op)
    (h : Payments total decimals (w.pool.positions i).toList payments) :
    Moves (Flows env w (.pool op)) T (T.payAll token env.net.financingPool payments) := by
  refine .payAll fun p hp => ⟨h.nonneg p hp, .distribution op i token p.1 p.2 hop ?_⟩
  obtain ⟨e, he, heq⟩ := h.exists_position p hp
  rw [heq, Option.isSome_iff_exists]
  exact ⟨e.2, FinMap.mem_toList.mp he⟩

theorem FinancingPool.cancelEarlySettlement_nonneg {sme : Address} {i : ℕ}
    {offer : EarlySettlementOffer} (h : cancelEarlySettlement sme i env w = .ok u w')
    (hoffer : w.pool.earlySettlement i = some offer) : 0 ≤ offer.amount := by
  simp only [cancelEarlySettlement, requireAuth_seq_ok, fetch_seq_ok, loadPool_seq_ok,
    loadInvoice_seq_ok, ensure_seq_ok, putEarlySettlement, modifyOwn, modify_run, net_run,
    callToken_transfer_ok] at h
  obtain ⟨-, offer', hoffer', p, -, -, _, -, -, -, -, hamount, -, -⟩ := h
  obtain rfl : offer = offer' := Option.some.inj (hoffer.symm.trans hoffer')
  exact hamount

theorem FinancingPool.Op.exec_flow {op : FinancingPool.Op} (h : op.exec env w = .ok u w') :
    Moves (Flows env w (.pool op)) w.tokens w'.tokens := by
  cases op with
  | initializeContract =>
    obtain ⟨-, rfl⟩ := initializeContract_ok h
    exact .of_eq rfl
  | setMaxPositionBps =>
    obtain rfl := setMaxPositionBps_ok h
    exact .of_eq rfl
  | releaseFunds =>
    obtain ⟨-, -, -, _, _, -, -, -, rfl⟩ := releaseFunds_ok h
    exact .of_eq rfl
  | recordPosition =>
    obtain ⟨-, -, _, _, -, -, -, rfl⟩ := recordPosition_ok h
    exact .of_eq rfl
  | listPositionForSale =>
    obtain ⟨-, _, rfl⟩ := listPositionForSale_ok h
    exact .of_eq rfl
  | buyPosition buyer i seller =>
    obtain ⟨hbuyer, _, _, offer, hoffer, -, -, -, hprice, rfl⟩ := buyPosition_sells h
    exact .move ⟨hprice, .sale buyer seller i offer hbuyer hoffer⟩
  | repay payer i token amount =>
    obtain ⟨hpayer, hpos, _, _, _, _, -, -, -, -, -, h⟩ := repay_ok h
    have hpaid : Moves (Flows env w (.pool (.repay payer i token amount))) w.tokens
        (w.tokens.move token payer env.net.financingPool amount) :=
      .move ⟨hpos.le, .repayment payer token i amount hpayer⟩
    rcases h with ⟨-, _, rfl⟩ | ⟨-, -, _, payments, _, hpay, rfl⟩
    · exact hpaid
    · exact hpaid.trans (moves_payAll token (.repay payer token amount hpayer) hpay)
  | markDefault admin i token =>
    obtain ⟨hauth, hadmin, -⟩ := markDefault_peel h
    obtain ⟨_, _, -, -, -, -, -, _, payments, _, hpay, rfl⟩ := markDefault_ok h
    rcases hpay with ⟨-, hpay⟩ | ⟨-, rfl⟩
    · exact moves_payAll token (.markDefault admin token hauth hadmin) hpay
    · exact .of_eq rfl
  | proposeEarlySettlement sme i amount =>
    obtain ⟨inv, hinv, rfl⟩ := proposeEarlySettlement_sme h
    obtain ⟨hsme, hpos, p, hp, -, -, rfl⟩ := proposeEarlySettlement_ok h
    refine .move ⟨hpos.le, .escrow inv.sme i amount p hsme ?_ hp⟩
    rw [InvoiceNft.Storage.owner, InvoiceNft.Storage.current_of_current hinv]
    rfl
  | acceptEarlySettlement investor i =>
    obtain ⟨ha, _, _, pos, -, -, -, hpos, -, ⟨-, rfl⟩ | ⟨-, _, _, payments, _, -, -, hpay, rfl⟩⟩ :=
      acceptEarlySettlement_ok h
    · exact .of_eq rfl
    · exact moves_payAll _ (.acceptEarlySettlement investor ha (Option.isSome_of_eq_some hpos)) hpay
  | cancelEarlySettlement sme i =>
    obtain ⟨inv, hinv, rfl⟩ := cancelEarlySettlement_sme h
    obtain ⟨hsme, offer, p, hoffer, hp, hw⟩ := cancelEarlySettlement_ok h
    have hamount := cancelEarlySettlement_nonneg h hoffer
    subst hw
    refine .move ⟨hamount, .escrowBack inv.sme i offer p hsme ?_ hoffer hp⟩
    rw [InvoiceNft.Storage.owner, InvoiceNft.Storage.current_of_current hinv]
    rfl

theorem Marketplace.contributionTransfers_nonneg {config : MarketplaceConfig}
    {token investor : Address} {fee net : ℤ} {t : Transfer}
    (ht : t ∈ contributionTransfers config token investor fee net) : 0 ≤ t.amount := by
  rw [contributionTransfers, List.mem_append] at ht
  rcases ht with ht | ht
  all_goals
    split_ifs at ht with hpos
    · rw [List.mem_singleton.mp ht]
      exact hpos.le
    · cases ht

theorem Marketplace.src_of_mem_contributionTransfers {config : MarketplaceConfig}
    {token investor : Address} {fee net : ℤ} {t : Transfer}
    (ht : t ∈ contributionTransfers config token investor fee net) : t.src = investor := by
  rw [contributionTransfers, List.mem_append] at ht
  rcases ht with ht | ht
  all_goals
    split_ifs at ht
    · rw [List.mem_singleton.mp ht]
    · cases ht

theorem Marketplace.contributed_eq_after (T : Tokens) (config : MarketplaceConfig)
    (token investor : Address) (fee net : ℤ) : contributed T config token investor fee net =
      T.after (contributionTransfers config token investor fee net) := by
  unfold contributed contributionTransfers
  split_ifs <;> rfl

theorem Marketplace.Op.exec_flow {op : Marketplace.Op} (h : op.exec env w = .ok u w') :
    Moves (Flows env w (.marketplace op)) w.tokens w'.tokens := by
  by_cases hop : op.Administers
  · exact .of_eq (by rw [(exec_admin hop h).rest])
  · cases op with
    | listInvoice =>
      obtain ⟨-, -, -, -, -, _, _, -, -, -, -, rfl⟩ := listInvoice_ok h
      exact .of_eq rfl
    | fundInvoice investor i amount =>
      obtain ⟨l, config, inv, fee, hF⟩ := fundInvoice_ok h
      rw [hF.tokens]
      have hflow : ∀ t ∈ contributionTransfers config l.token investor fee (amount - fee),
          Flows env w (.marketplace (.fundInvoice investor i amount)) t := by
        intro t ht
        refine ⟨contributionTransfers_nonneg ht, .contribution investor i amount fee l config t
          hF.authenticated hF.listed hF.configured hF.chargedFee ht⟩
      exact ⟨_, contributed_eq_after .., hflow⟩
    | cancelListing =>
      obtain ⟨_, _, -, -, -, rfl⟩ := cancelListing_ok h
      exact .of_eq rfl
    | requestCancellation =>
      obtain ⟨_, _, -, -, -, ⟨-, rfl⟩ | ⟨_, rfl⟩⟩ := requestCancellation_ok h
      · exact .of_eq rfl
      · exact .of_eq rfl
    | adminConfirmCancellation =>
      obtain ⟨_, _, _, -, -, -, rfl⟩ := adminConfirmCancellation_ok h
      exact .of_eq rfl
    | claimRefund investor i =>
      obtain ⟨-, l, config, net, hl, -, -, -, hn, hpos, hc, hauth, -, -, rfl⟩ :=
        claimRefund_iff.mp h
      exact .move ⟨hpos.le, .refund investor i l config net hl hc hn hauth⟩
    | initializeContract | setReferrerSplitBps | setFeeBps | updateFeeBps | setTierFeeBps
    | whitelistToken | removeTokenWhitelist => exact absurd trivial hop

theorem Treasury.withdraw_admin {admin token recipient : Address} {amount : ℤ}
    {s t : Treasury.State} (h : withdraw admin token recipient amount env s = .ok u t) :
    env.Authenticates admin ∧ s.1.admin = some admin := by
  simp only [withdraw, requireAuth_seq_ok, own_seq_ok, requireAdmin_seq_ok] at h
  obtain ⟨hauth, _, _, ⟨hadmin, -⟩, -⟩ := h
  exact ⟨hauth, hadmin⟩

theorem Treasury.emergencyWithdraw_admin {admin token recipient : Address}
    {s t : Treasury.State} (h : emergencyWithdraw admin token recipient env s = .ok u t) :
    env.Authenticates admin ∧ s.1.admin = some admin := by
  simp only [emergencyWithdraw, requireAuth_seq_ok, own_seq_ok, requireAdmin_seq_ok] at h
  obtain ⟨hauth, _, _, ⟨hadmin, -⟩, -⟩ := h
  exact ⟨hauth, hadmin⟩

theorem Treasury.exec_flow {op : Treasury.Op} {s : Treasury.State}
    (h : op.exec env (w.treasury, w.tokens) = .ok u s) :
    Moves (Flows env w (.treasury op)) w.tokens s.2 := by
  cases Op.exec_meter h with
  | withdraw admin token recipient amount hpos _ hT =>
    have hadmin := withdraw_admin h
    rw [hT]
    exact .move ⟨hpos.le, .withdrawal admin token recipient amount hadmin.1 hadmin.2⟩
  | drain admin token recipient _ hpos hT =>
    have hadmin := emergencyWithdraw_admin h
    rw [hT]
    exact .move ⟨hpos.le, .drain admin token recipient hadmin.1 hadmin.2⟩
  | initialise _ _ _ hT => exact .of_eq hT
  | rest _ _ hT => exact .of_eq hT

theorem RiskRegistry.removeVerifier_admin {admin verifier : Address} {s t : RiskRegistry.State}
    (h : removeVerifier admin verifier env s = .ok u t) :
    env.Authenticates admin ∧ s.1.admin = some admin := by
  simp only [removeVerifier, requireAuth_seq_ok, net_run, own_seq_ok, requireAdmin_seq_ok] at h
  obtain ⟨hauth, _, _, ⟨hadmin, -⟩, -⟩ := h
  exact ⟨hauth, hadmin⟩

theorem RiskRegistry.exec_flow {op : RiskRegistry.Op} {s : RiskRegistry.State}
    (h : op.exec env (w.riskRegistry, w.tokens) = .ok u s) :
    w.tokens.Moves (Flows env w (.riskRegistry op)) s.2 := by
  cases op with
  | addVerifier admin verifier stake =>
    simp only [Op.exec, addVerifier, requireAuth_seq_ok, net_run, own_seq_ok, requireAdmin_seq_ok,
      check_seq_ok, requireNotSelf, guardK_ok, fetch_seq_ok, ensure_seq_ok, fetch_ok,
      callToken_seq_ok, Token.transfer_ok] at h
    obtain ⟨-, token, _, ⟨hadmin, _, hne, _, -, -, htoken, rfl⟩, _, _,
      ⟨hauth, -, hpos, -, rfl⟩, h⟩ := h
    rw [own_tokens h]
    exact .move ⟨hpos, .stake admin verifier token stake hadmin htoken hne hauth⟩
  | removeVerifier admin verifier =>
    obtain ⟨hauth, hadmin⟩ := removeVerifier_admin h
    obtain ⟨-, ⟨hpos, token, htoken, hT⟩ | ⟨-, hT⟩⟩ := removeVerifier_ok h
    · rw [hT]
      exact .move ⟨hpos.le, .stakeBack admin verifier token hauth hadmin htoken⟩
    · exact .of_eq hT
  | initializeContract | transferAdmin | registerSme | updateSmeScore | setCreditLimit
  | incrementInvoiceCount | recordDefault | setDebtorScore => exact .of_eq (own_tokens h)

/-- **Every transfer of a successful call is of one of the kinds.** -/
theorem Entry.exec_flow {e : Entry} (h : e.exec env w = .ok () w') :
    Moves (Flows env w e) w.tokens w'.tokens := by
  cases e with
  | accessControl op =>
    obtain ⟨S, -, rfl⟩ := onAccessControl_ok.mp h
    exact .of_eq rfl
  | priceOracle op =>
    obtain ⟨S, -, rfl⟩ := onPriceOracle_ok.mp h
    exact .of_eq rfl
  | treasury op =>
    obtain ⟨s, hs, rfl⟩ := onTreasury_ok.mp h
    exact Treasury.exec_flow hs
  | riskRegistry op =>
    obtain ⟨s, hs, rfl⟩ := onRiskRegistry_ok.mp h
    exact RiskRegistry.exec_flow hs
  | invoiceNft op =>
    obtain ⟨s, -, rfl⟩ := onInvoiceNft_ok.mp h
    exact .of_eq rfl
  | pool op => exact FinancingPool.Op.exec_flow h
  | marketplace op => exact Marketplace.Op.exec_flow h
  | transfer token src dst amount =>
    rw [exec, zoom_ok] at h
    obtain ⟨T, hT, rfl⟩ := h
    obtain ⟨hauth, -, hpos, -, rfl⟩ := Token.transfer_ok.mp hT
    exact .move ⟨hpos, .plain token src dst amount hauth⟩

end Entries

/-! ## Runs -/

section Payers

variable {env : Env} {w : World} {e : Entry} {t : Transfer}

/-- The contracts that pay out. -/
def Deployment.payers (d : Deployment) : List Address :=
  [d.marketplace, d.financingPool, d.treasury, d.riskRegistry]

theorem Env.authenticates_from_cases {self x : Address} (h : (env.from self).Authenticates x) :
    x = self ∨ x ∈ env.signers := h.imp_left fun h => (Option.some.inj h).symm

theorem Env.signed_of_authenticates {x : Address} (hnone : env.invoker = none)
    (h : env.Authenticates x) : x ∈ env.signers := by
  refine h.resolve_left fun h => ?_
  rw [hnone] at h
  cases h

/-- Whoever a transaction authenticates signed it. -/
theorem Call.signed {d : Deployment} {c : Call} {x : Address}
    (h : (c.env d w).Authenticates x) : x ∈ c.signers :=
  List.mem_of_mem_filter (Env.signed_of_authenticates rfl h)

/-- **Who pays**: an account that signed, or one of the four contracts that pay out. -/
theorem Flow.payer (h : Flow env w e t) (hnone : env.invoker = none)
    (hasks : w.tokens.asksAuth t.token = true) :
    t.src ∈ env.signers ∨ t.src ∈ env.net.payers := by
  have hpays : ∀ x, env.Authenticates x → x ∈ env.signers ∨ x ∈ env.net.payers :=
    fun x hx => Or.inl (Env.signed_of_authenticates hnone hx)
  cases h with
  | plain token src dst amount hauth => exact hpays src (hauth hasks)
  | contribution investor i amount fee l config t hinv _ _ _ ht =>
    rw [Marketplace.src_of_mem_contributionTransfers ht]
    exact hpays investor hinv
  | refund investor i l config net _ _ _ hauth =>
    rcases Env.authenticates_from_cases (hauth hasks) with hself | hsigned
    · exact Or.inr (by rw [hself]; simp [Deployment.payers])
    · exact Or.inl hsigned
  | sale buyer seller i offer hbuyer => exact hpays buyer hbuyer
  | repayment payer token i amount hpayer => exact hpays payer hpayer
  | escrow sme i amount p hsme => exact hpays sme hsme
  | stake admin verifier token amount _ _ hne hauth =>
    exact Or.inl ((Env.authenticates_from_cases (hauth hasks)).resolve_left hne)
  | distribution | escrowBack | withdrawal | drain | stakeBack =>
    exact Or.inr (by simp [Deployment.payers])

/-- What a contract pays out of its own account. -/
inductive Payout (env : Env) (w : World) (t : Transfer) : Entry → Prop
  | refund (investor : Address) (i : ℕ) : t.src = env.net.marketplace →
      Payout env w t (.marketplace (.claimRefund investor i))
  | distribution (op : FinancingPool.Op) (i : ℕ) : t.src = env.net.financingPool →
      FinancingPool.StartsDistribution env w i op → Payout env w t (.pool op)
  | escrowBack (sme : Address) (i : ℕ) (offer : EarlySettlementOffer) :
      t.src = env.net.financingPool → w.pool.earlySettlement i = some offer → t.dst = sme →
      t.amount = offer.amount → Payout env w t (.pool (.cancelEarlySettlement sme i))
  | treasury (op : Treasury.Op) : t.src = env.net.treasury → Payout env w t (.treasury op)
  | stakeBack (admin verifier : Address) : t.src = env.net.riskRegistry →
      Payout env w t (.riskRegistry (.removeVerifier admin verifier))

/-- **What leaves a contract is a payout**, as contracts sign nothing. -/
theorem Flow.payout {d : Deployment} {c : Call} (h : Flow (c.env d w) w e t)
    (hasks : w.tokens.asksAuth t.token = true) (hsrc : t.src ∈ d.contracts) :
    Payout (c.env d w) w t e := by
  have hsign : ¬ (c.env d w).Authenticates t.src := Call.not_authenticates hsrc
  cases h with
  | plain token src dst amount hauth => exact absurd (hauth hasks) hsign
  | contribution investor i amount fee l config t hinv _ _ _ ht =>
    rw [Marketplace.src_of_mem_contributionTransfers ht] at hsign
    exact absurd hinv hsign
  | refund investor i l config net _ _ _ hauth =>
    refine .refund investor i ((Env.authenticates_from_cases (hauth hasks)).resolve_right ?_)
    exact fun hsigned => hsign (Or.inr hsigned)
  | sale buyer seller i offer hbuyer => exact absurd hbuyer hsign
  | repayment payer token i amount hpayer => exact absurd hpayer hsign
  | escrow sme i amount p hsme => exact absurd hsme hsign
  | stake admin verifier token amount _ _ hne hauth =>
    refine absurd ((Env.authenticates_from_cases (hauth hasks)).resolve_left hne) ?_
    exact fun hsigned => hsign (Or.inr hsigned)
  | distribution op i token investor amount hop => exact .distribution op i rfl hop
  | escrowBack sme i offer p _ _ hoffer => exact .escrowBack sme i offer rfl hoffer rfl rfl
  | withdrawal => exact .treasury _ rfl
  | drain => exact .treasury _ rfl
  | stakeBack admin verifier => exact .stakeBack admin verifier rfl

end Payers

section Runs

variable {d : Deployment} {w : World} {a : Action}

/-- The accounts that sign an action. -/
def Action.signers : Action → List Address
  | .call c => c.signers
  | .tick _ => []

/-- The transfer is one that the action makes. -/
def FlowsOf (d : Deployment) (w : World) (a : Action) (t : Transfer) : Prop :=
  ∃ c, a = .call c ∧ Flows (c.env d w) w c.entry t

theorem step_flow (d : Deployment) (w : World) (a : Action) :
    w.tokens.Moves (FlowsOf d w a) (step d w a).tokens := by
  rcases step_cases d w a with ⟨c, rfl, -, h⟩ | ⟨n, rfl, h⟩ | ⟨c, rfl, -, h⟩
  · exact (Entry.exec_flow h).imp fun t ht => ⟨c, rfl, ht⟩
  · exact .of_eq (by rw [h])
  · exact .of_eq (by rw [h])

theorem run_moves (d : Deployment) (w : World) (as : List Action) :
    w.tokens.Moves (fun _ => True) (run (step d) w as).tokens :=
  always (I := fun w' => w.tokens.Moves (fun _ => True) w'.tokens)
    (fun w' a h => h.trans ((step_flow d w' a).imp fun _ _ => trivial)) (.of_eq rfl) as

/-- **Custody.** In every run, every transfer is of one of the kinds of `Flow`, and every balance is
the initial one with what the transfers brought and took. -/
theorem custody (d : Deployment) (w : World) (as : List Action) :
    Along (step d) (fun w a => ∀ t ∈ newTransfers w (step d w a),
        ∃ c, a = .call c ∧ 0 ≤ t.amount ∧ Flow (c.env d w) w c.entry t) w as ∧
      ∀ token account, (run (step d) w as).tokens.balance token account =
        w.tokens.balance token account +
          received token account (newTransfers w (run (step d) w as)) -
          sent token account (newTransfers w (run (step d) w as)) := by
  refine ⟨?_, (run_moves d w as).reconciles⟩
  exact along_iff_forall.mpr fun p a _ => (step_flow d (run (step d) w p) a).forall_new

/-- **An account that signs nothing loses nothing**, in any token that asks for authorisation. -/
theorem savings (d : Deployment) (w : World) (as : List Action) (account : Address)
    (hsigns : ∀ a ∈ as, account ∉ a.signers) (hpays : account ∉ d.payers)
    (token : Address) (hasks : w.tokens.asksAuth token = true) :
    w.tokens.balance token account ≤ (run (step d) w as).tokens.balance token account := by
  have hquiet : Along (step d) (fun _ a => account ∉ a.signers) w as := along_of_forall hsigns
  refine (invariant (I := fun w' => w'.tokens.asksAuth token = true ∧
    w.tokens.balance token account ≤ w'.tokens.balance token account) ?_ ⟨hasks, le_rfl⟩ hquiet).2
  rintro w' a ⟨hasks', hle⟩ ha
  have hstep := step_flow d w' a
  refine ⟨by rw [hstep.asksAuth, hasks'], hle.trans (hstep.balance_le ?_)⟩
  rintro t ⟨c, rfl, hpos, hflow⟩
  refine ⟨hpos, fun htoken hsrc => ?_⟩
  rcases hflow.payer rfl (by rw [htoken, hasks']) with hsigned | hcontract
  · rw [hsrc] at hsigned
    exact ha (List.mem_of_mem_filter hsigned)
  · rw [hsrc] at hcontract
    exact hpays hcontract

end Runs

/-- Investor `4` keeps its money while investor `3` funds the invoice. -/
theorem savings_sample : (1_000_000 : ℤ) ≤
    (run (step sample) sampleGenesis (sampleFunding "USDC")).tokens.balance 50 4 :=
  savings sample sampleGenesis (sampleFunding "USDC") 4 (by decide) (by decide) 50 (by decide)

end Kora
