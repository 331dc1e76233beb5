import Kora.Treasury.Fees

set_option autoImplicit false

/-!
# The referrer of a listing

A listing can name a referrer, and the admin sets the share of the fees that is meant for it. A
contribution sends the whole fee to the treasury, whatever the share.

* `Op.refers`, **`referrer_run`**: the stored referrer is the one of the listing;
* `SplitsFee`: a fee that is split between the referrer and the treasury;
* **`splitsFee_iff`**: when it is split.
-/

namespace Kora.Marketplace

open Exec Run

/-! ## The stored referrer -/

/-- The referrer with which an entry point lists invoice `i`. -/
def Op.refers (i : ℕ) : Op → Option Address
  | .listInvoice _ j _ _ _ _ referrer => if j = i then referrer else none
  | _ => none

/-- The referrer with which a step lists invoice `i`. -/
def referredBy (d : Deployment) (i : ℕ) (w : World) (a : Action) : Option Address :=
  match performed d w a with
  | some (_, .marketplace op) => op.refers i
  | _ => none

section Referrers

variable {env : Env} {w w' : World} {u : Unit} {i : ℕ}

theorem Storage.referred_apply (S : Storage) (j : ℕ) (referrer : Option Address) :
    S.referred j referrer i = (if j = i then referrer else none).or (S.referrer i) := by
  cases referrer with
  | none => simp [Storage.referred]
  | some r =>
    by_cases hj : j = i
    · subst hj
      simp [Storage.referred]
    · simp [Storage.referred, hj, Ne.symm hj]

theorem Op.exec_referrer {op : Op} (h : op.exec env w = .ok u w') :
    w'.marketplace.referrer i = (op.refers i).or (w.marketplace.referrer i) := by
  cases op with
  | listInvoice seller j price face token deadline referrer =>
    obtain ⟨-, -, -, -, -, config, _, -, -, -, -, rfl⟩ := listInvoice_ok h
    exact Storage.referred_apply _ j referrer
  | fundInvoice investor j amount =>
    obtain ⟨listing, config, inv, fee, hF⟩ := fundInvoice_ok h
    rw [hF.marketplace]
    rfl
  | cancelListing =>
    obtain ⟨_, _, -, -, -, rfl⟩ := cancelListing_ok h
    rfl
  | requestCancellation =>
    obtain ⟨_, _, -, -, -, ⟨-, rfl⟩ | ⟨_, rfl⟩⟩ := requestCancellation_ok h
    · rfl
    · rfl
  | adminConfirmCancellation =>
    obtain ⟨_, _, _, -, -, -, rfl⟩ := adminConfirmCancellation_ok h
    rfl
  | claimRefund =>
    obtain ⟨_, _, _, -, -, -, -, -, -, -, rfl⟩ := claimRefund_ok h
    rfl
  | initializeContract =>
    obtain ⟨-, rfl⟩ := initializeContract_ok h
    rfl
  | setReferrerSplitBps =>
    obtain ⟨_, -, rfl⟩ := setReferrerSplitBps_ok h
    rfl
  | setFeeBps =>
    obtain ⟨-, _, -, rfl⟩ := setFeeBps_ok h
    rfl
  | updateFeeBps =>
    obtain ⟨-, _, -, rfl⟩ := setFeeBps_ok h
    rfl
  | setTierFeeBps =>
    obtain ⟨-, _, -, rfl⟩ := setTierFeeBps_ok h
    rfl
  | whitelistToken =>
    obtain ⟨_, -, rfl⟩ := whitelistToken_ok h
    rfl
  | removeTokenWhitelist =>
    obtain ⟨_, -, rfl⟩ := removeTokenWhitelist_ok h
    rfl

theorem referrer_step (d : Deployment) (w : World) (a : Action) :
    (step d w a).marketplace.referrer i =
      (referredBy d i w a).or (w.marketplace.referrer i) := by
  rcases step_performed d w a with ⟨env, e, hp, -, h⟩ | ⟨hp, n, h⟩
  · by_cases he : ∃ op, e = .marketplace op
    · obtain ⟨op, rfl⟩ := he
      rw [referredBy, hp]
      exact Op.exec_referrer h
    · rw [not_exists] at he
      rw [(Entry.exec_effect h).marketplace he, referredBy, hp]
      cases e with
      | marketplace op => exact absurd rfl (he op)
      | accessControl | priceOracle | treasury | riskRegistry | invoiceNft | pool | transfer => rfl
  · rw [h, referredBy, hp]
    rfl

/-- **The stored referrer of an invoice is the one that it was listed with.** -/
theorem referrer_run (d : Deployment) (now : ℕ) (tokens : Tokens) (as : List Action) :
    (run (step d) (genesis now tokens) as).marketplace.referrer i =
      latest (step d) (referredBy d i) (genesis now tokens) as := by
  have hnone : (genesis now tokens).marketplace.referrer i = none := rfl
  rw [latest_rule (g := fun w : World => w.marketplace.referrer i)
    (fun w a => referrer_step d w a), hnone, Option.or_none]

end Referrers

/-! ## The split -/

/-- A payment, if there is anything to pay. -/
def pay (token src dst : Address) (amount : ℤ) : List Transfer :=
  if 0 < amount then [⟨token, src, dst, amount⟩] else []

/-- A contribution of `amount`, of which `fee` is the fee, is split: the referrer gets `share`, the
treasury gets and records the rest of the fee, the pool gets the rest of the contribution, and
together this is what the investor pays. -/
structure SplitsFee (w w' : World) (investor referrer token : Address)
    (config : MarketplaceConfig) (amount fee share : ℤ) : Prop where
  paid : (newTransfers w w').Perm (pay token investor referrer share ++
    (pay token investor config.treasury (fee - share) ++
      pay token investor config.financingPool (amount - fee)))
  recorded : Treasury.collectedOf w' token = Treasury.collectedOf w token + (fee - share)
  total : ((newTransfers w w').map Transfer.amount).sum = amount

section Split

variable {w w' : World} {investor referrer token : Address} {config : MarketplaceConfig}
  {amount fee share : ℤ}

theorem sum_pay {dst : Address} (h : 0 ≤ amount) :
    ((pay token investor dst amount).map Transfer.amount).sum = amount := by
  unfold pay
  split_ifs with hpos
  · simp
  · simp only [List.map_nil, List.sum_nil]
    omega

theorem collectedOf_chargedTo (hfee : 0 ≤ fee)
    (h : w'.treasury = chargedTo w.treasury token fee) :
    Treasury.collectedOf w' token = Treasury.collectedOf w token + fee := by
  unfold Treasury.collectedOf
  rw [h, chargedTo]
  split_ifs with hpos
  · simp
  · omega

/-- **A contribution whose whole fee goes to the treasury is split exactly when the share is
zero.** -/
theorem splitsFee_of_whole (hfee : 0 ≤ fee) (hle : fee ≤ amount)
    (hnew : newTransfers w w' = contributionTransfers config token investor fee (amount - fee))
    (htreasury : w'.treasury = chargedTo w.treasury token fee) :
    SplitsFee w w' investor referrer token config amount fee share ↔ share = 0 := by
  have hcollected := collectedOf_chargedTo hfee htreasury
  constructor
  · intro h
    have hrecorded := h.recorded
    omega
  · rintro rfl
    have hpays : contributionTransfers config token investor fee (amount - fee) =
        pay token investor config.treasury fee ++
          pay token investor config.financingPool (amount - fee) := rfl
    refine ⟨?_, by rw [hcollected, sub_zero], ?_⟩
    · rw [hnew, hpays, sub_zero]
      exact List.Perm.refl _
    · rw [hnew, hpays, List.map_append, List.sum_append, sum_pay hfee, sum_pay (by omega)]
      omega

end Split

/-- **The split of the fee**: for an invoice listed with a referrer, whatever the share that the
admin set and the decimals of the token, a contribution that charges `fee` pays the referrer
`⌊fee · share / 10_000⌋` and the treasury the rest exactly when that is nothing. -/
theorem splitsFee_iff (d : Deployment) (now : ℕ) (tokens : Tokens) (as : List Action) (a : Action)
    (i : ℕ) (investor referrer : Address) (amount : ℤ)
    (hlisted : latest (step d) (referredBy d i) (genesis now tokens) as = some referrer)
    (h : Performs d (run (step d) (genesis now tokens) as)
      (.marketplace (.fundInvoice investor i amount)) a) :
    (run (step d) (genesis now tokens) as).marketplace.referrer i = some referrer ∧
    ∃ listing config fee,
      (run (step d) (genesis now tokens) as).marketplace.listing i = some listing ∧
      (run (step d) (genesis now tokens) as).marketplace.currentConfig = some config ∧
      chargedFee (run (step d) (genesis now tokens) as) i amount = some fee ∧
      (SplitsFee (run (step d) (genesis now tokens) as)
          (step d (run (step d) (genesis now tokens) as) a) investor referrer listing.token config
          amount fee (fee * config.referrerSplitBps / 10_000) ↔
        fee * config.referrerSplitBps / 10_000 = 0) := by
  refine ⟨(referrer_run d now tokens as).trans hlisted, ?_⟩
  have hfees := (books_run d i now tokens as).feesValid
  generalize run (step d) (genesis now tokens) as = w at h hfees ⊢
  obtain ⟨c, -, hexec⟩ := h.exec
  obtain ⟨listing, config, inv, fee, hF⟩ := fundInvoice_ok hexec
  obtain ⟨listing', fee', hlisting, hfee, htreasury⟩ := fundInvoice_treasury hexec
  obtain rfl : listing = listing' := Option.some.inj (hF.listed.symm.trans hlisting)
  obtain rfl : fee = fee' := Option.some.inj (hF.chargedFee.symm.trans hfee)
  obtain ⟨hnonneg, hle⟩ := hF.fee_bounds hfees
  refine ⟨listing, config, fee, hlisting, hF.configured, hfee, ?_⟩
  refine splitsFee_of_whole hnonneg hle ?_ htreasury
  exact newTransfers_of_append (by rw [hF.tokens, contributed_transfers])

/-- Invoice `1` is listed with referrer `7`, whose share is a fifth of the fee. -/
def sampleReferred : List Action := (sampleSetup "USDC").dropLast ++ [
  signed 2 (.marketplace (.listInvoice 2 1 9_000 10_000 50 500 (some 7))),
  signed 1 (.marketplace (.setReferrerSplitBps 1 2_000))]

/-- Investor `3` funds invoice `1`. -/
def sampleContribution : Action := signed 3 (.marketplace (.fundInvoice 3 1 9_000))

theorem splitsFee_sample :
    (run (step sample) (genesis 0 sampleTokens) sampleReferred).marketplace.referrer 1 = some 7 ∧
    ∃ listing config fee,
      (run (step sample) (genesis 0 sampleTokens) sampleReferred).marketplace.listing 1 =
        some listing ∧
      (run (step sample) (genesis 0 sampleTokens) sampleReferred).marketplace.currentConfig =
        some config ∧
      chargedFee (run (step sample) (genesis 0 sampleTokens) sampleReferred) 1 9_000 = some fee ∧
      (SplitsFee (run (step sample) (genesis 0 sampleTokens) sampleReferred)
          (step sample (run (step sample) (genesis 0 sampleTokens) sampleReferred)
            sampleContribution) 3 7 listing.token config 9_000 fee
          (fee * config.referrerSplitBps / 10_000) ↔
        fee * config.referrerSplitBps / 10_000 = 0) :=
  splitsFee_iff sample 0 sampleTokens sampleReferred sampleContribution 1 3 7 9_000
    (by decide +kernel) ⟨by decide +kernel, rfl⟩

/-- A fee of `180` of which `36` are meant for the referrer is recorded in full. -/
theorem fee_not_split : ¬ ∀ (d : Deployment) (now : ℕ) (tokens : Tokens) (as : List Action)
    (a : Action) (i : ℕ) (investor referrer : Address) (amount : ℤ) (listing : Listing)
    (config : MarketplaceConfig) (fee : ℤ),
    latest (step d) (referredBy d i) (genesis now tokens) as = some referrer →
    Performs d (run (step d) (genesis now tokens) as)
      (.marketplace (.fundInvoice investor i amount)) a →
    (run (step d) (genesis now tokens) as).marketplace.listing i = some listing →
    (run (step d) (genesis now tokens) as).marketplace.currentConfig = some config →
    chargedFee (run (step d) (genesis now tokens) as) i amount = some fee →
    SplitsFee (run (step d) (genesis now tokens) as)
      (step d (run (step d) (genesis now tokens) as) a) investor referrer listing.token config
      amount fee (fee * config.referrerSplitBps / 10_000) := by
  intro h
  have hsplit := h sample 0 sampleTokens sampleReferred sampleContribution 1 3 7 9_000
    ⟨1, 2, 9_000, 10_000, 50, 0, 500, true⟩ ⟨1, 102, 104, 105, 101, 106, 200, 2_000⟩ 180
    (by decide +kernel) ⟨by decide +kernel, rfl⟩ (by decide +kernel) (by decide +kernel)
    (by decide +kernel)
  exact absurd hsplit.recorded (by decide +kernel)

end Kora.Marketplace
