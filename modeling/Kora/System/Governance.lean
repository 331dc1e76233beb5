import Kora.System.Books

set_option autoImplicit false

/-!
# The governed parameters

An executed change stores a value in access control. The fee, the late penalty and the risk score
that take effect come from elsewhere: the setters of the marketplace, the initialisation of the
pool, and the SME.

* `Settings`, `settings`: what a run has set so far, with **`settings_run`**: the ledger holds it;
* `Governs`: the committed values take effect in a step;
* `Agrees`: the values set elsewhere agree with the committed ones;
* **`governs_iff`**: committed values take effect exactly where the others agree with them.
-/

namespace Kora

open Exec Run InvoiceNft

/-! ## What a run sets -/

/-- The value that an executed change commits for the parameter `key`. -/
def Entry.commits (key : ParameterKey) (w : World) : Entry → Option ℕ
  | .accessControl (.executeParameterChange _ id) =>
    match w.accessControl.parameterProposal id with
    | some proposal => if proposal.key = key then some proposal.newValue else none
    | none => none
  | _ => none

/-- The flat fee that an entry point of the marketplace sets. -/
def Entry.setsFee : Entry → Option ℕ
  | .marketplace op => op.setsFee
  | _ => none

/-- The late penalty that an entry point of the pool sets. -/
def Entry.setsPenalty : Entry → Option ℕ
  | .pool op => op.setsPenalty
  | _ => none

/-- What a successful transaction sets. -/
def setBy (d : Deployment) (f : World → Entry → Option ℕ) (w : World) : Action → Option ℕ
  | .call c => if c.Succeeds d w then f w c.entry else none
  | .tick _ => none

/-- What was set last: the governed values by executed changes, the flat fee and the late penalty
by the contracts that use them. -/
structure Settings where
  governed : ParameterKey → Option ℕ
  flatFee : Option ℕ
  latePenalty : Option ℕ

/-- What a run sets. -/
def settings (d : Deployment) (w : World) (as : List Action) : Settings where
  governed := fun key => latest (step d) (setBy d (Entry.commits key)) w as
  flatFee := latest (step d) (setBy d fun _ => Entry.setsFee) w as
  latePenalty := latest (step d) (setBy d fun _ => Entry.setsPenalty) w as

section Settings

variable {env : Env} {w w' : World} {e : Entry} {d : Deployment}

theorem Entry.exec_parameter (key : ParameterKey) (h : e.exec env w = .ok () w') :
    w'.accessControl.parameter key = (e.commits key w).or (w.accessControl.parameter key) := by
  by_cases hac : ∃ op, e = .accessControl op
  · obtain ⟨op, rfl⟩ := hac
    obtain ⟨S, hS, rfl⟩ := onAccessControl_ok.mp h
    cases AccessControl.Op.exec_effect hS with
    | executeParameterChange caller id config proposal log _ hp =>
      simp only [Entry.commits, hp]
      by_cases hkey : proposal.key = key
      · rw [if_pos hkey, ← hkey]
        exact Function.update_self ..
      · rw [if_neg hkey]
        exact Function.update_of_ne (Ne.symm hkey) ..
    | executeAction executor id config proposal T log _ _ _ _ _ hT =>
      exact congrFun hT.parameter key
    | initializeContract | pause | unpause | grantRole | revokeRole | transferAdmin
    | configureMultisig | proposeAction | approveAction | proposeParameterChange
    | voteParameterChange => rfl
  · rw [not_exists] at hac
    have hnone : e.commits key w = none := by
      cases e with
      | accessControl op => exact absurd rfl (hac op)
      | priceOracle | treasury | riskRegistry | invoiceNft | pool | marketplace | transfer => rfl
    rw [Entry.exec_accessControl hac h, hnone]
    rfl

theorem Entry.exec_flatFee (h : e.exec env w = .ok () w') :
    w'.marketplace.flatFee = e.setsFee.or w.marketplace.flatFee := by
  by_cases hm : ∃ op, e = .marketplace op
  · obtain ⟨op, rfl⟩ := hm
    exact Marketplace.Op.exec_flatFee h
  · rw [not_exists] at hm
    have hnone : e.setsFee = none := by
      cases e with
      | marketplace op => exact absurd rfl (hm op)
      | accessControl | priceOracle | treasury | riskRegistry | invoiceNft | pool | transfer => rfl
    rw [(Entry.exec_effect h).marketplace hm, hnone]
    rfl

theorem Entry.exec_penalty (h : e.exec env w = .ok () w') :
    w'.pool.latePenaltyBps = e.setsPenalty.or w.pool.latePenaltyBps := by
  cases Entry.exec_effect h with
  | peripheral e hp _ hpool =>
    have hnone : e.setsPenalty = none := by
      cases e with
      | pool op => exact absurd rfl (hp op)
      | accessControl | priceOracle | treasury | riskRegistry | invoiceNft | marketplace
      | transfer => rfl
    rw [hpool, hnone]
    rfl
  | invoiceNft op s _ hw =>
    rw [hw]
    rfl
  | pool op hop => exact (FinancingPool.Op.exec_outside hop).penalty
  | listing _ _ _ _ _ _ _ _ _ _ _ _ _ _ _ _ _ hw =>
    rw [hw]
    rfl
  | funding investor i amount listing config inv fee hF =>
    rcases lt_or_ge (listing.fundedAmount + amount) listing.askingPrice with hlt | hge
    · rw [(hF.unreleased hlt).1]
      rfl
    · obtain ⟨-, -, -, -, -, bps, hpool, -⟩ := hF.released hge
      rw [hpool]
      rfl
  | market op _ _ hpool =>
    rw [hpool]
    rfl

/-- What successful entry points set, and nothing else changes, is what was set last. -/
theorem latest_run {f : World → Entry → Option ℕ} {g : World → Option ℕ} {now : ℕ}
    {tokens : Tokens}
    (hexec : ∀ env w e w', e.exec env w = .ok () w' → g w' = (f w e).or (g w))
    (htick : ∀ (w : World) n, g { w with now := w.now + n } = g w)
    (hnone : g (genesis now tokens) = none) (as : List Action) :
    latest (step d) (setBy d f) (genesis now tokens) as =
      g (run (step d) (genesis now tokens) as) := by
  have hstep : ∀ w a, g (step d w a) = (setBy d f w a).or (g w) := by
    intro w a
    rcases step_cases d w a with ⟨c, rfl, hs, h⟩ | ⟨n, rfl, h⟩ | ⟨c, rfl, hn, h⟩
    · rw [hexec _ _ _ _ h, setBy, if_pos hs]
    · rw [h, htick, setBy]
      rfl
    · rw [h, setBy, if_neg hn]
      rfl
  rw [latest_rule hstep, hnone, Option.or_none]

/-- **The ledger holds what was set last.** -/
theorem settings_run (d : Deployment) (now : ℕ) (tokens : Tokens) (as : List Action) :
    settings d (genesis now tokens) as =
      ⟨(run (step d) (genesis now tokens) as).accessControl.parameter,
        (run (step d) (genesis now tokens) as).marketplace.flatFee,
        (run (step d) (genesis now tokens) as).pool.latePenaltyBps⟩ := by
  unfold settings
  congr 1
  · funext key
    exact latest_run (g := fun w => w.accessControl.parameter key)
      (fun _ _ _ _ => Entry.exec_parameter key) (fun _ _ => rfl) rfl as
  · exact latest_run (g := fun w => w.marketplace.flatFee) (fun _ _ _ _ => Entry.exec_flatFee)
      (fun _ _ => rfl) rfl as
  · exact latest_run (g := fun w => w.pool.latePenaltyBps) (fun _ _ _ _ => Entry.exec_penalty)
      (fun _ _ => rfl) rfl as

end Settings

/-! ## What takes effect -/

/-- The contribution is charged the fee rate `bps`. -/
def ChargesRate (env : Env) (w : World) (investor : Address) (id : ℕ) (amount : ℤ) (w' : World)
    (bps : ℕ) : Prop :=
  ∃ listing config inv fee, Marketplace.Funding env w investor id amount w' listing config inv fee ∧
    ∃ decimals, w.tokens.decimals listing.token = some decimals ∧
      bpsOfNormalized amount bps decimals = .ok fee

/-- The tier of the invoice has no fee of its own. -/
def Untiered (w : World) (id : ℕ) : Prop := ∀ inv, w.invoiceNft.invoice id = some (.current inv) →
  w.marketplace.tierFeeBps (Marketplace.tierOrdinal inv.riskTier) = none

/-- The step has the funds of the invoice released: by a direct call, or by the contribution that
reaches the asking price. -/
inductive Releases (d : Deployment) (w : World) (id : ℕ) : Action → Prop
  | direct (a : Action) (marketplace token : Address) :
      Performs d w (.pool (.releaseFunds marketplace id token)) a → Releases d w id a
  | funding (a : Action) (investor : Address) (amount : ℤ) (listing : Listing) :
      Performs d w (.marketplace (.fundInvoice investor id amount)) a →
      w.marketplace.listing id = some listing →
      listing.askingPrice ≤ listing.fundedAmount + amount → Releases d w id a

/-- The governed values take effect in the step. The score is the one the invoice is minted with:
`amendInvoice` may write another one later, and no governed value bounds it. -/
structure Governs (d : Deployment) (governed : ParameterKey → Option ℕ) (w : World) (a : Action) :
    Prop where
  fee : ∀ v c investor id amount, governed .feeBps = some v → a = .call c →
    Performs d w (.marketplace (.fundInvoice investor id amount)) a → Untiered w id →
    ChargesRate (c.env d w) w investor id amount (step d w a) v
  penalty : ∀ v id, governed .latePenaltyBps = some v → Releases d w id a →
    ∃ p, (step d w a).pool.pool id = some p ∧ p.latePenaltyBps = v
  score : ∀ v terms, governed .maxRiskScore = some v → Mints d terms w a →
    ∃ inv, (step d w a).invoiceNft.invoice (w.invoiceNft.nextId.getD 1) = some (.current inv) ∧
      inv.riskScore ≤ v

/-- The values set elsewhere agree with the governed ones: the flat fee gives the same fee for the
contribution, the penalty is the same, and the SME mints with a score within the ceiling. -/
structure Agrees (d : Deployment) (S : Settings) (w : World) (a : Action) : Prop where
  fee : ∀ v investor id amount, S.governed .feeBps = some v →
    Performs d w (.marketplace (.fundInvoice investor id amount)) a → Untiered w id →
    ∀ bps listing decimals, S.flatFee = some bps → w.marketplace.listing id = some listing →
      w.tokens.decimals listing.token = some decimals →
      bpsOfNormalized amount bps decimals = bpsOfNormalized amount v decimals
  penalty : ∀ v id, S.governed .latePenaltyBps = some v → Releases d w id a →
    S.latePenalty = some v
  score : ∀ v terms, S.governed .maxRiskScore = some v → Mints d terms w a → terms.riskScore ≤ v

section Step

variable {d : Deployment} {w : World} {a : Action}

theorem Releases.pool {id : ℕ} (h : Releases d w id a) :
    ∃ p, (step d w a).pool.pool id = some p ∧ w.pool.latePenaltyBps = some p.latePenaltyBps := by
  have hopens : ∃ env mp token w₁, w₁.pool = w.pool ∧
      FinancingPool.releaseFunds mp id token env w₁ = .ok () (step d w a) := by
    cases h with
    | direct marketplace token h =>
      obtain ⟨c, -, hexec⟩ := h.exec
      exact ⟨_, marketplace, token, w, rfl, hexec⟩
    | funding investor amount listing h hl hfull =>
      obtain ⟨c, -, hexec⟩ := h.exec
      obtain ⟨w₁, hpool, hrelease⟩ := Marketplace.fundInvoice_release hexec hl hfull
      exact ⟨_, _, _, w₁, hpool, hrelease⟩
  obtain ⟨env, mp, token, w₁, hpool, hrelease⟩ := hopens
  obtain ⟨-, -, -, inv, bps, hbps, -, -, -, hw⟩ := FinancingPool.releaseFunds_opens hrelease
  rw [hw, ← hpool]
  exact ⟨_, Function.update_self .., hbps⟩

theorem Mints.record {terms : Terms} (h : Mints d terms w a) :
    ∃ inv, (step d w a).invoiceNft.invoice (w.invoiceNft.nextId.getD 1) = some (.current inv) ∧
      inv.riskScore = terms.riskScore := by
  obtain ⟨op, hop, hevent⟩ := h
  obtain ⟨c, -, hexec⟩ := hop.exec
  obtain ⟨s, hs, hw⟩ := onInvoiceNft_ok.mp hexec
  cases op with
  | mintInvoice sme hash amount currency due cid score notes =>
    cases hevent
    simp only [Op.exec, bind_ok, pure_ok] at hs
    obtain ⟨id, t, hmint, -, rfl⟩ := hs
    obtain ⟨-, -, -, rfl, -, rfl⟩ := mintInvoice_ok hmint
    rw [← hw]
    exact ⟨_, Function.update_self .., rfl⟩
  | initializeContract | setRiskRegistry | migrate | setAuthorizedCallers | amendInvoice
  | withdrawInvoice | commitMetadataHash | setListed | setFunded | setRepaid | setDefaulted
  | freezeInvoice | unfreezeInvoice | addAllowedCurrency | removeAllowedCurrency => cases hevent

theorem flat_charged {env : Env} {w' : World} {investor : Address} {id : ℕ} {amount fee : ℤ}
    {listing : Listing} {config : Marketplace.MarketplaceConfig} {inv : Invoice}
    (hF : Marketplace.Funding env w investor id amount w' listing config inv fee)
    (htier : Untiered w id) : w.marketplace.flatFee = some config.feeBps ∧
      ∃ decimals, w.tokens.decimals listing.token = some decimals ∧
        bpsOfNormalized amount config.feeBps decimals = .ok fee := by
  obtain ⟨decimals, hdec, hfee⟩ := hF.charged
  unfold Marketplace.Storage.effectiveFeeBps at hfee
  rw [htier inv hF.invoice] at hfee
  refine ⟨?_, decimals, hdec, hfee⟩
  rw [Marketplace.Storage.flatFee, hF.configured]
  rfl

/-- **The rate charged is `v` exactly when the flat fee gives the same fee.** -/
theorem chargesRate_iff {env : Env} {w' : World} {investor : Address} {id : ℕ} {amount : ℤ} {v : ℕ}
    (hexec : Entry.exec (.marketplace (.fundInvoice investor id amount)) env w = .ok () w')
    (htier : Untiered w id) : ChargesRate env w investor id amount w' v ↔
      ∀ bps listing decimals, w.marketplace.flatFee = some bps →
        w.marketplace.listing id = some listing →
        w.tokens.decimals listing.token = some decimals →
        bpsOfNormalized amount bps decimals = bpsOfNormalized amount v decimals := by
  constructor
  · rintro ⟨listing, config, inv, fee, hF, decimals, hdec, hv⟩ bps listing' decimals' hbps hl hdec'
    obtain ⟨hflat, decimals₀, hdec₀, hfee⟩ := flat_charged hF htier
    obtain rfl : listing = listing' := Option.some.inj (hF.listed.symm.trans hl)
    obtain rfl : decimals = decimals' := Option.some.inj (hdec.symm.trans hdec')
    obtain rfl : decimals = decimals₀ := Option.some.inj (hdec.symm.trans hdec₀)
    obtain rfl : config.feeBps = bps := Option.some.inj (hflat.symm.trans hbps)
    rw [hfee, hv]
  · intro h
    obtain ⟨listing, config, inv, fee, hF⟩ := Marketplace.fundInvoice_ok hexec
    obtain ⟨hflat, decimals, hdec, hfee⟩ := flat_charged hF htier
    refine ⟨listing, config, inv, fee, hF, decimals, hdec, ?_⟩
    rw [← h _ listing decimals hflat hF.listed hdec, hfee]

/-- **In a step, the governed values take effect exactly where the others agree with them.** -/
theorem governs_step {S : Settings} (hfee : S.flatFee = w.marketplace.flatFee)
    (hpenalty : S.latePenalty = w.pool.latePenaltyBps) :
    Governs d S.governed w a ↔ Agrees d S w a := by
  constructor
  · intro h
    refine ⟨?_, ?_, ?_⟩
    · intro v investor id amount hv hop htier
      obtain ⟨c, hc, hexec⟩ := hop.exec
      rw [hfee]
      exact (chargesRate_iff hexec htier).mp (h.fee v c investor id amount hv hc hop htier)
    · intro v id hv hr
      obtain ⟨p, hp, hbps⟩ := hr.pool
      obtain ⟨p', hp', hv'⟩ := h.penalty v id hv hr
      rw [hp] at hp'
      cases hp'
      rw [hpenalty, hbps, hv']
    · intro v terms hv hm
      obtain ⟨inv, hinv, hscore⟩ := hm.record
      obtain ⟨inv', hinv', hle⟩ := h.score v terms hv hm
      obtain rfl := Storage.current_inj hinv hinv'
      rwa [← hscore]
  · intro h
    refine ⟨?_, ?_, ?_⟩
    · intro v c investor id amount hv hc hop htier
      obtain ⟨c', hc', hexec⟩ := hop.exec
      obtain rfl : c = c' := by
        rw [hc] at hc'
        cases hc'
        rfl
      exact (chargesRate_iff hexec htier).mpr (hfee ▸ h.fee v investor id amount hv hop htier)
    · intro v id hv hr
      obtain ⟨p, hp, hbps⟩ := hr.pool
      have hv' := h.penalty v id hv hr
      rw [hpenalty, hbps] at hv'
      exact ⟨p, hp, Option.some.inj hv'⟩
    · intro v terms hv hm
      obtain ⟨inv, hinv, hscore⟩ := hm.record
      exact ⟨inv, hinv, hscore ▸ h.score v terms hv hm⟩

/-- **Along a run, the committed values take effect exactly where the ones set elsewhere agree with
them.** -/
theorem governs_iff (d : Deployment) (now : ℕ) (tokens : Tokens) (as : List Action) :
    (∀ p a, p ++ [a] <+: as → Governs d (settings d (genesis now tokens) p).governed
      (run (step d) (genesis now tokens) p) a) ↔
    ∀ p a, p ++ [a] <+: as → Agrees d (settings d (genesis now tokens) p)
      (run (step d) (genesis now tokens) p) a := by
  have hstep : ∀ p a, Governs d (settings d (genesis now tokens) p).governed
        (run (step d) (genesis now tokens) p) a ↔
      Agrees d (settings d (genesis now tokens) p) (run (step d) (genesis now tokens) p) a := by
    intro p a
    have hsettings := settings_run d now tokens p
    exact governs_step (by rw [hsettings]) (by rw [hsettings])
  simp only [hstep]

end Step

/-- Account `1` commits the ceiling `40` for risk scores, and the invoice contract is set up. -/
def ceiling : List Action := [
  signed 1 (.accessControl (.initializeContract 1)),
  signed 1 (.accessControl (.configureMultisig 1 [1] 1)),
  signed 1 (.accessControl (.proposeParameterChange 1 .maxRiskScore 40)),
  .tick 86_400,
  signed 1 (.accessControl (.executeParameterChange 1 1)),
  signed 1 (.invoiceNft (.initializeContract 1 101))]

/-- SME `2` mints an invoice with the score `50`. -/
def riskyMint : Action :=
  signed 2 (.invoiceNft (.mintInvoice 2 [1] 10_000 "USDC" 100_000 "cid" 50 none))

/-- The committed ceiling is not enforced. -/
theorem ceiling_not_enforced : ¬ ∀ (d : Deployment) (now : ℕ) (tokens : Tokens) (as : List Action)
    (p : List Action) (a : Action), p ++ [a] <+: as →
    Governs d (settings d (genesis now tokens) p).governed
      (run (step d) (genesis now tokens) p) a := by
  intro h
  have hgoverns := h sample 0 sampleTokens (ceiling ++ [riskyMint]) ceiling riskyMint
    (List.prefix_refl _)
  have hcommitted : (settings sample (genesis 0 sampleTokens) ceiling).governed .maxRiskScore =
      some 40 := by decide +kernel
  have hsucceeds : Call.Succeeds ⟨[2], .invoiceNft (.mintInvoice 2 [1] 10_000 "USDC" 100_000 "cid"
      50 none)⟩ sample (run (step sample) (genesis 0 sampleTokens) ceiling) := by decide +kernel
  have hmints : Mints sample ⟨2, [1], 10_000, "USDC", 100_000, "cid", 50, [], none⟩
      (run (step sample) (genesis 0 sampleTokens) ceiling) riskyMint :=
    ⟨_, ⟨hsucceeds, rfl⟩, rfl⟩
  obtain ⟨inv, hinv, hle⟩ := hgoverns.score 40 _ hcommitted hmints
  obtain ⟨inv', hinv', hscore⟩ := hmints.record
  obtain rfl := Storage.current_inj hinv hinv'
  rw [hscore] at hle
  exact absurd hle (by decide)

end Kora
