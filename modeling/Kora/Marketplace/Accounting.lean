import Kora.Marketplace.Change

set_option autoImplicit false

/-!
# The books of a listing

What a listing has raised is what its investors contributed after fees, plus the fees; it never
exceeds the asking price, and an active listing is below it.

* `perContribution`: a quantity summed over the contributions to a listing;
* `Sound`, `Books`, `books_step`: the invariants;
* **`accounting`**: every run, whatever the fee rates and the decimals of the tokens.
-/

namespace Kora.Marketplace

open Exec Run

/-- The fee of contributing `amount` to the listing of invoice `i`. -/
def feeOf (w : World) (i : ℕ) (amount : ℤ) : ℤ := (chargedFee w i amount).getD 0

/-- `φ` of a successful contribution to the listing of invoice `i`; zero for every other step. -/
def perContribution (φ : World → Address → ℤ → ℤ) (d : Deployment) (i : ℕ) (w : World) : Action → ℤ
  | .call c => match c.entry with
    | .marketplace (.fundInvoice investor j amount) =>
      if j = i ∧ c.Succeeds d w then φ w investor amount else 0
    | _ => 0
  | .tick _ => 0

/-- The fee charged on the listing of invoice `i` in a step. -/
def feesCharged (d : Deployment) (i : ℕ) : World → Action → ℤ :=
  perContribution (fun w _ amount => feeOf w i amount) d i

/-- The fee of a successful contribution lies between zero and the contribution; the fee goes to
the treasury and the rest to the financing pool. -/
def FeeWithin (d : Deployment) (w : World) : Action → Prop
  | .call c => c.Succeeds d w → ∀ investor i amount,
    c.entry = .marketplace (.fundInvoice investor i amount) →
    ∃ fee config l, chargedFee w i amount = some fee ∧ 0 ≤ fee ∧ fee ≤ amount ∧
      w.marketplace.currentConfig = some config ∧ w.marketplace.listing i = some l ∧
      newTransfers w (step d w (.call c)) =
        contributionTransfers config l.token investor fee (amount - fee)
  | .tick _ => True

/-- The sum of the contributions to a listing. -/
def contributedTotal (w : World) (i : ℕ) : ℤ :=
  FinMap.total (fun _ net => net) (w.marketplace.contribution i)

/-- The amounts of a listing fit together. -/
structure Sound (l : Listing) : Prop where
  positive : 0 < l.askingPrice
  nonneg : 0 ≤ l.fundedAmount
  within : l.fundedAmount ≤ l.askingPrice
  discounted : l.askingPrice < l.faceValue
  active : l.isActive = true → l.fundedAmount < l.askingPrice

/-- The books of invoice `i` with `fees` charged so far. -/
structure Books (i : ℕ) (w : World) (fees : ℤ) : Prop where
  feesValid : w.marketplace.FeesValid
  unlisted : w.marketplace.listing i = none → contributedTotal w i = 0 ∧ fees = 0
  sound : ∀ l, w.marketplace.listing i = some l → Sound l
  balance : ∀ l, w.marketplace.listing i = some l → l.fundedAmount = contributedTotal w i + fees

section Contributions

variable {φ : World → Address → ℤ → ℤ} {d : Deployment} {i : ℕ} {w : World} {c : Call}
  {investor : Address} {amount : ℤ}

theorem perContribution_of_ne
    (h : ∀ investor amount, c.entry ≠ .marketplace (.fundInvoice investor i amount)) :
    perContribution φ d i w (.call c) = 0 := by
  simp only [perContribution]
  split
  · split_ifs with hj
    · obtain ⟨rfl, -⟩ := hj
      exact absurd ‹_› (h _ _)
    · rfl
  · rfl

theorem perContribution_of_funded
    (he : c.entry = .marketplace (.fundInvoice investor i amount)) (hs : c.Succeeds d w) :
    perContribution φ d i w (.call c) = φ w investor amount := by
  simp only [perContribution, he, hs, and_self, if_true]

theorem perContribution_of_not_succeeds {a : Action} (h : ∀ c, a = .call c → ¬ c.Succeeds d w) :
    perContribution φ d i w a = 0 := by
  cases a with
  | tick n => rfl
  | call c =>
    simp only [perContribution]
    split
    · exact if_neg fun hj => h c rfl hj.2
    · rfl

end Contributions

section Steps

variable {d : Deployment} {i : ℕ} {w w' : World} {c : Call} {fees : ℤ} {env : Env} {e : Entry}
  {investor : Address} {amount fee : ℤ} {l : Listing} {config : MarketplaceConfig} {inv : Invoice}

theorem contributedTotal_congr
    (h : w'.marketplace.contribution i = w.marketplace.contribution i) :
    contributedTotal w' i = contributedTotal w i := by
  rw [contributedTotal, contributedTotal, h]

theorem Funding.contributedTotal (h : Funding env w investor i amount w' l config inv fee) :
    contributedTotal w' i = contributedTotal w i + (amount - fee) := by
  have hold : FinMap.entry (fun _ net => net) (w.marketplace.contribution i) investor =
      ((w.marketplace.contribution i)[investor]?).getD 0 := by
    cases hm : (w.marketplace.contribution i)[investor]? with
    | none => exact FinMap.entry_of_none _ _ hm
    | some net => exact FinMap.entry_of_some _ _ hm
  rw [Marketplace.contributedTotal, Marketplace.contributedTotal, h.marketplace, Storage.funded]
  simp only [Function.update_self, FinMap.total_insert, hold]
  ring

theorem Funding.listing (h : Funding env w investor i amount w' l config inv fee) :
    w'.marketplace.listing i = some { l with
      fundedAmount := l.fundedAmount + amount
      isActive := decide (l.fundedAmount + amount < l.askingPrice) } := by
  rw [h.marketplace, Storage.funded]
  exact Function.update_self ..

theorem sound_change (hsound : ∀ l, w.marketplace.listing i = some l → Sound l)
    (h : Change env i w w' e) : ∀ l, w'.marketplace.listing i = some l → Sound l := by
  intro l' hl
  cases h with
  | frame _ _ h => exact hsound l' (h.listing ▸ hl)
  | listed seller price face token deadline referrer h =>
    rw [h.listing] at hl
    cases hl
    exact ⟨h.positive, le_rfl, h.positive.le, h.discounted, fun _ => h.positive⟩
  | funded investor amount l config inv fee h =>
    rw [h.listing] at hl
    cases hl
    have hl := hsound l h.listed
    have hnonneg := hl.nonneg
    have hpos := h.positive
    exact ⟨hl.positive, by show 0 ≤ l.fundedAmount + amount; omega, h.within, hl.discounted,
      of_decide_eq_true⟩
  | deactivated _ l confirms _ h =>
    rw [h.listing] at hl
    cases hl
    have hl := hsound l h.found
    exact ⟨hl.positive, hl.nonneg, hl.within, hl.discounted, by rintro ⟨⟩⟩
  | refunded investor l config net h => exact hsound l' (h.listing ▸ hl)

theorem Books.keep (hB : Books i w fees) (hf : w'.marketplace.FeesValid)
    (hl : w'.marketplace.listing i = w.marketplace.listing i)
    (hc : w'.marketplace.contribution i = w.marketplace.contribution i) : Books i w' fees where
  feesValid := hf
  unlisted := by
    rw [hl, contributedTotal_congr hc]
    exact hB.unlisted
  sound := by
    rw [hl]
    exact hB.sound
  balance := by
    rw [hl, contributedTotal_congr hc]
    exact hB.balance

theorem books_change (hB : Books i w fees) (hf : (step d w (.call c)).marketplace.FeesValid)
    (hs : c.Succeeds d w) (h : Change (c.env d w) i w (step d w (.call c)) c.entry) :
    Books i (step d w (.call c)) (fees + feesCharged d i w (.call c)) := by
  have hsound := sound_change hB.sound h
  generalize he : c.entry = e at h
  cases h with
  | frame _ hne h =>
    have hzero : feesCharged d i w (.call c) = 0 := perContribution_of_ne fun _ _ h' =>
      hne (by rw [← he, h']; rfl)
    rw [hzero, add_zero]
    exact hB.keep hf h.listing h.contribution
  | listed seller price face token deadline referrer h =>
    obtain ⟨htotal, rfl⟩ := hB.unlisted h.unlisted
    have hzero : feesCharged d i w (.call c) = 0 := perContribution_of_ne fun _ _ h' => by
      rw [he] at h'
      cases h'
    rw [hzero, add_zero]
    refine ⟨hf, fun hnone => ?_, hsound, fun l hl => ?_⟩
    · rw [h.listing] at hnone
      cases hnone
    · rw [h.listing] at hl
      cases hl
      rw [contributedTotal_congr h.contribution, htotal]
      rfl
  | funded investor amount l config inv fee h =>
    have hfee : feesCharged d i w (.call c) = fee := by
      rw [feesCharged, perContribution_of_funded he hs, feeOf, h.chargedFee, Option.getD_some]
    have hbalance := hB.balance l h.listed
    rw [hfee]
    refine ⟨hf, fun hnone => ?_, hsound, fun l' hl => ?_⟩
    · rw [h.listing] at hnone
      cases hnone
    · rw [h.listing] at hl
      cases hl
      rw [h.contributedTotal]
      show l.fundedAmount + amount = _
      rw [hbalance]
      ring
  | deactivated _ l confirms hne h =>
    have hzero : feesCharged d i w (.call c) = 0 := perContribution_of_ne fun _ _ h' =>
      hne (by rw [← he, h']; rfl)
    rw [hzero, add_zero]
    refine ⟨hf, fun hnone => ?_, hsound, fun l' hl => ?_⟩
    · rw [h.listing] at hnone
      cases hnone
    · rw [h.listing] at hl
      cases hl
      rw [contributedTotal_congr h.contribution]
      exact hB.balance l h.found
  | refunded investor l config net h =>
    have hzero : feesCharged d i w (.call c) = 0 := perContribution_of_ne fun _ _ h' => by
      rw [he] at h'
      cases h'
    rw [hzero, add_zero]
    exact hB.keep hf h.listing h.contribution

/-- **One step keeps the books.** -/
theorem books_step (hB : Books i w fees) (a : Action) :
    Books i (step d w a) (fees + feesCharged d i w a) := by
  rcases step_cases d w a with ⟨c, rfl, hs, h⟩ | ⟨n, rfl, h⟩ | ⟨c, rfl, hn, h⟩
  · have heffect := Entry.exec_effect h
    exact books_change hB (feesValid_of_effect heffect hB.feesValid) hs (change_of_effect heffect i)
  · have hzero : feesCharged d i w (.tick n) = 0 := rfl
    rw [h, hzero, add_zero]
    exact ⟨hB.feesValid, hB.unlisted, hB.sound, hB.balance⟩
  · have hzero : feesCharged d i w (.call c) = 0 := perContribution_of_not_succeeds (by
      rintro _ ⟨⟩
      exact hn)
    rw [h, hzero, add_zero]
    exact hB

/-- While the fee rates are valid, every fee lies between zero and the contribution. -/
theorem feeWithin_step (hf : w.marketplace.FeesValid) (a : Action) : FeeWithin d w a := by
  cases a with
  | tick n => trivial
  | call c =>
    intro hs investor i amount he
    obtain ⟨w', h⟩ := Call.succeeds_iff.mp hs
    have hstep := step_call_of_ok h
    rw [he] at h
    obtain ⟨l, config, inv, fee, hF⟩ := fundInvoice_ok h
    obtain ⟨hnonneg, hle⟩ := hF.fee_bounds hf
    refine ⟨fee, config, l, hF.chargedFee, hnonneg, hle, hF.configured, hF.listed, ?_⟩
    rw [hstep]
    exact newTransfers_of_append (by rw [hF.tokens, contributed_transfers])

end Steps

section Runs

theorem feesValid_genesis (now : ℕ) (tokens : Tokens) :
    (genesis now tokens).marketplace.FeesValid :=
  ⟨nofun, nofun, nofun⟩

theorem books_genesis (i now : ℕ) (tokens : Tokens) : Books i (genesis now tokens) 0 where
  feesValid := feesValid_genesis now tokens
  unlisted := fun _ => ⟨by simp [contributedTotal, genesis], rfl⟩
  sound := nofun
  balance := nofun

theorem books_run (d : Deployment) (i now : ℕ) (tokens : Tokens) (as : List Action) :
    Books i (run (step d) (genesis now tokens) as)
      (tally (step d) (feesCharged d i) (genesis now tokens) as) := by
  have h := invariant_tally (I := Books i) (C := fun _ _ => True) (μ := feesCharged d i)
    (fun _ _ a hB _ => books_step hB a) (books_genesis i now tokens)
    (along_true _ as)
  rwa [zero_add] at h

/-- **Accounting**: after every run, every listing has raised between nothing and its asking price,
which is below the face value, and less than it while active; what it has raised is the sum of its
contributions and of the fees charged on it; and every fee charged in the run lies between zero and
its contribution. -/
theorem accounting (d : Deployment) (now : ℕ) (tokens : Tokens) (as : List Action) :
    (∀ i l, (run (step d) (genesis now tokens) as).marketplace.listing i = some l →
      0 ≤ l.fundedAmount ∧ l.fundedAmount ≤ l.askingPrice ∧ l.askingPrice < l.faceValue ∧
      (l.isActive = true → l.fundedAmount < l.askingPrice) ∧
      l.fundedAmount = contributedTotal (run (step d) (genesis now tokens) as) i +
        tally (step d) (feesCharged d i) (genesis now tokens) as) ∧
    Along (step d) (FeeWithin d) (genesis now tokens) as := by
  refine ⟨fun i l hl => ?_, ?_⟩
  · have hB := books_run d i now tokens as
    have hsound := hB.sound l hl
    exact ⟨hsound.nonneg, hsound.within, hsound.discounted, hsound.active, hB.balance l hl⟩
  · exact .of_always (I := fun w => w.marketplace.FeesValid) (fun w a hf => feesValid_step hf a)
      (fun w a hf => feeWithin_step hf a) (feesValid_genesis now tokens) as

end Runs

end Kora.Marketplace
