import Kora.Marketplace.Accounting
import Kora.System.Status

set_option autoImplicit false

/-!
# The proceeds of a listing

Contributions go to the financing pool, and opening the pool moves no money. So once a listing has
reached its price, the pool holds the net contributions and the SME has received nothing.

* `Contributions`: a run that funds a listing;
* `Contributions.balances`: where the money is afterwards;
* **`release_iff`**: the SME has the net contributions and the pool none of them only when every
  contribution went into fees.
-/

namespace Kora.Marketplace

open Exec Run

/-! ## Statement -/

/-- A contribution to a listing, with the fee charged on it. -/
structure Contribution where
  investor : Address
  amount : ℤ
  fee : ℤ

/-- The contribution after the fee. -/
def Contribution.net (c : Contribution) : ℤ := c.amount - c.fee

/-- A step that leaves the listing, its invoice, the financing pool in use and all balances as they
are. -/
structure Bystander (i : ℕ) (w w' : World) : Prop where
  tokens : w'.tokens = w.tokens
  listing : w'.marketplace.listing i = w.marketplace.listing i
  owner : w'.invoiceNft.owner i = w.invoiceNft.owner i
  pool : w'.marketplace.currentConfig.map MarketplaceConfig.financingPool =
    w.marketplace.currentConfig.map MarketplaceConfig.financingPool

/-- The run `as` from `w` funds the listing of invoice `i` with the contributions `cs`; fees may
change and time may pass between them. -/
inductive Contributions (d : Deployment) (i : ℕ) : World → List Action → List Contribution → Prop
  | done (w : World) : Contributions d i w [] []
  | other {w : World} {a : Action} {as : List Action} {cs : List Contribution} :
      Bystander i w (step d w a) → Contributions d i (step d w a) as cs →
      Contributions d i w (a :: as) cs
  | fund {w : World} {c : Call} {as : List Action} {cs : List Contribution} {investor : Address}
      {amount fee : ℤ} : c.entry = .marketplace (.fundInvoice investor i amount) →
      c.Succeeds d w → chargedFee w i amount = some fee →
      Contributions d i (step d w (.call c)) as cs →
      Contributions d i w (.call c :: as) (⟨investor, amount, fee⟩ :: cs)

/-! ## Balances -/

section Balances

variable {T : Tokens} {config : MarketplaceConfig} {token investor : Address} {fee net : ℤ}

theorem contributed_balance (hfee : 0 ≤ fee) (hnet : 0 ≤ net) (a : Address) :
    (contributed T config token investor fee net).balance token a = T.balance token a -
      (if a = investor then fee + net else 0) + (if a = config.treasury then fee else 0) +
      if a = config.financingPool then net else 0 := by
  have hmove : contributed T config token investor fee net =
      if 0 < net then (if 0 < fee then T.move token investor config.treasury fee else T).move token
        investor config.financingPool net
      else if 0 < fee then T.move token investor config.treasury fee else T := rfl
  rw [hmove]
  rcases hfee.eq_or_lt with rfl | hfee <;> rcases hnet.eq_or_lt with rfl | hnet
  · simp
  · simp [hnet, Tokens.move_balance]
  · simp [hfee, Tokens.move_balance]
  · simp only [hfee, hnet, if_true, Tokens.move_balance, true_and]
    split_ifs <;> ring

variable {d : Deployment} {i : ℕ} {w w' : World} {c : Call} {amount : ℤ} {l : Listing}
  {inv : Invoice} {sme : Address}

/-- **Where a contribution goes**: out of the investor's account and, after the fee, into the
pool. -/
theorem Funding.balances (h : Funding (c.env d w) w investor i amount w' l config inv fee)
    (hf : w.marketplace.FeesValid) (hfp : config.financingPool = d.financingPool)
    (hsme : sme ∉ d.contracts) :
    w'.tokens.balance l.token sme =
        w.tokens.balance l.token sme - (if sme = investor then amount else 0) ∧
      w'.tokens.balance l.token d.financingPool =
        w.tokens.balance l.token d.financingPool + (amount - fee) := by
  obtain ⟨hfee, hle⟩ := h.fee_bounds hf
  have htreasury : ∀ a, (a ≠ d.treasury) → (if a = config.treasury then fee else 0) = 0 := by
    intro a ha
    rcases hfee.eq_or_lt with rfl | hpos
    · exact ite_self _
    · exact if_neg (h.toTreasury hpos ▸ ha)
  have hpool : d.financingPool ≠ d.treasury := by
    have := d.distinct
    simp only [List.nodup_cons, List.mem_cons, not_or] at this
    exact this.2.2.2.1.1
  have hinvestor : d.financingPool ≠ investor := (Call.ne_financingPool h.authenticated).symm
  simp only [Deployment.contracts, List.mem_cons, not_or] at hsme
  rw [h.tokens, contributed_balance hfee (by omega), contributed_balance hfee (by omega), hfp,
    htreasury sme hsme.2.2.2.2.1, htreasury _ hpool, if_neg hsme.2.2.2.1, if_neg hinvestor,
    if_pos rfl, add_sub_cancel]
  exact ⟨by ring, by ring⟩

theorem Funding.currentConfig {env : Env}
    (h : Funding env w investor i amount w' l config inv fee) :
    w'.marketplace.currentConfig = some config := by
  rw [h.marketplace]
  rfl

end Balances

section Runs

variable {d : Deployment} {i : ℕ} {w : World} {as : List Action} {cs : List Contribution}
  {l l' : Listing} {sme : Address}

theorem fund_ok {c : Call} {investor : Address} {amount fee : ℤ}
    (he : c.entry = .marketplace (.fundInvoice investor i amount)) (hs : c.Succeeds d w)
    (hfee : chargedFee w i amount = some fee) : ∃ l config inv,
      Funding (c.env d w) w investor i amount (step d w (.call c)) l config inv fee := by
  obtain ⟨w', h⟩ := Call.succeeds_iff.mp hs
  have hstep := step_call_of_ok h
  rw [he] at h
  obtain ⟨l, config, inv, fee', hF⟩ := fundInvoice_ok h
  obtain rfl : fee' = fee := Option.some.inj (hF.chargedFee.symm.trans hfee)
  rw [hstep]
  exact ⟨l, config, inv, hF⟩

/-- A listing only reaches its price by opening the pool at the deployed financing pool. -/
theorem Contributions.pool (h : Contributions d i w as cs)
    (hl : w.marketplace.listing i = some l) (hlt : l.fundedAmount < l.askingPrice)
    (hl' : (run (step d) w as).marketplace.listing i = some l')
    (hfull : l'.askingPrice ≤ l'.fundedAmount) :
    w.marketplace.currentConfig.map MarketplaceConfig.financingPool = some d.financingPool := by
  induction h generalizing l with
  | done =>
    rw [run_nil, hl] at hl'
    cases hl'
    exact absurd hfull (not_le.mpr hlt)
  | other hb _ ih =>
    rw [← hb.pool]
    exact ih (hb.listing.trans hl) hlt hl'
  | fund he hs hfee _ ih =>
    obtain ⟨l₁, config, inv, hF⟩ := fund_ok he hs hfee
    obtain rfl : l = l₁ := Option.some.inj (hl.symm.trans hF.listed)
    rw [hF.configured]
    rcases lt_or_ge (l.fundedAmount + _) l.askingPrice with hlt' | hge
    · have hpool := ih hF.listing hlt' hl'
      rwa [hF.currentConfig] at hpool
    · exact congrArg some (hF.released hge).1

/-- **Where the money of a listing is**: the SME paid what it contributed itself, and the pool holds
the net contributions. -/
theorem Contributions.balances (h : Contributions d i w as cs) (hf : w.marketplace.FeesValid)
    (hl : w.marketplace.listing i = some l)
    (hpool : w.marketplace.currentConfig.map MarketplaceConfig.financingPool =
      some d.financingPool) (hsme : sme ∉ d.contracts) :
    (run (step d) w as).tokens.balance l.token sme = w.tokens.balance l.token sme -
        (cs.map fun c => if sme = c.investor then c.amount else 0).sum ∧
      (run (step d) w as).tokens.balance l.token d.financingPool =
        w.tokens.balance l.token d.financingPool + (cs.map Contribution.net).sum ∧
      ∀ c ∈ cs, 0 < c.amount ∧ c.fee ≤ c.amount := by
  induction h generalizing l with
  | done => simp
  | other hb _ ih =>
    have hf' := feesValid_step (d := d) hf
    have hnext := ih (hf' _) (hb.listing.trans hl) (hb.pool.trans hpool)
    rwa [hb.tokens] at hnext
  | fund he hs hfee _ ih =>
    obtain ⟨l₁, config, inv, hF⟩ := fund_ok he hs hfee
    obtain rfl : l = l₁ := Option.some.inj (hl.symm.trans hF.listed)
    rw [hF.configured] at hpool
    have hstep := hF.balances hf (Option.some.inj hpool) hsme
    obtain ⟨hown, hnet, hall⟩ := ih (feesValid_step hf _) hF.listing (by rwa [hF.currentConfig])
    refine ⟨?_, ?_, ?_⟩
    · rw [run_cons, hown, hstep.1, List.map_cons, List.sum_cons]
      ring
    · rw [run_cons, hnet, hstep.2, List.map_cons, List.sum_cons, Contribution.net]
      ring
    · rw [List.forall_mem_cons]
      exact ⟨⟨hF.positive, (hF.fee_bounds hf).2⟩, hall⟩

theorem sum_map_eq_zero_iff {f : Contribution → ℤ} (hf : ∀ c ∈ cs, 0 ≤ f c) :
    (cs.map f).sum = 0 ↔ ∀ c ∈ cs, f c = 0 := by
  constructor
  · intro h c hc
    refine List.all_zero_of_le_zero_le_of_sum_eq_zero ?_ h (List.mem_map_of_mem hc)
    rintro _ hx
    obtain ⟨c, hc, rfl⟩ := List.mem_map.mp hx
    exact hf c hc
  · intro h
    refine List.sum_eq_zero ?_
    rintro _ hx
    obtain ⟨c, hc, rfl⟩ := List.mem_map.mp hx
    exact h c hc

/-- **The proceeds of a listing**: once the contributions to a listing have reached its price, the
SME of the invoice has the sum of the net contributions more than before and the pool nothing more,
exactly when every contribution was a fee in full and none came from the SME. -/
theorem release_iff {now : ℕ} {tokens : Tokens} {bs : List Action}
    (hl : (run (step d) (genesis now tokens) bs).marketplace.listing i = some l)
    (hstart : l.fundedAmount = 0)
    (howner : (run (step d) (genesis now tokens) bs).invoiceNft.owner i = some sme)
    (hrun : Contributions d i (run (step d) (genesis now tokens) bs) as cs)
    (hl' : (run (step d) (genesis now tokens) (bs ++ as)).marketplace.listing i = some l')
    (hfull : l'.askingPrice ≤ l'.fundedAmount) :
    ((run (step d) (genesis now tokens) (bs ++ as)).tokens.balance l.token sme =
        (run (step d) (genesis now tokens) bs).tokens.balance l.token sme +
          (cs.map Contribution.net).sum ∧
      (run (step d) (genesis now tokens) (bs ++ as)).tokens.balance l.token d.financingPool =
        (run (step d) (genesis now tokens) bs).tokens.balance l.token d.financingPool) ↔
      ∀ c ∈ cs, c.fee = c.amount ∧ c.investor ≠ sme := by
  have hbooks := books_run d i now tokens bs
  have hsound := (invoicesSound_run d now tokens bs).owned
  rw [run_append] at hl' ⊢
  generalize run (step d) (genesis now tokens) bs = w at *
  have hsme : sme ∉ d.contracts := by
    obtain ⟨inv, hinv, rfl⟩ := Option.map_eq_some_iff.mp howner
    exact hsound i inv (InvoiceNft.Storage.of_current hinv)
  have hpos := (hbooks.sound l hl).positive
  have hpool := hrun.pool hl (by omega) hl' hfull
  obtain ⟨hown, hnet, hall⟩ := hrun.balances hbooks.feesValid hl hpool hsme
  have hown₀ : ∀ c ∈ cs, 0 ≤ if sme = c.investor then c.amount else 0 := by
    intro c hc
    have := (hall c hc).1
    split_ifs <;> omega
  have hnet₀ : ∀ c ∈ cs, 0 ≤ c.net := fun c hc => sub_nonneg.mpr (hall c hc).2
  rw [hown, hnet]
  constructor
  · rintro ⟨h₁, h₂⟩ c hc
    have hnetsum : (cs.map Contribution.net).sum = 0 := by omega
    have hownsum : (cs.map fun c => if sme = c.investor then c.amount else 0).sum = 0 := by omega
    have hc₁ := (sum_map_eq_zero_iff hnet₀).mp hnetsum c hc
    have hc₂ := (sum_map_eq_zero_iff hown₀).mp hownsum c hc
    refine ⟨(sub_eq_zero.mp hc₁).symm, fun hi => ?_⟩
    rw [if_pos hi.symm] at hc₂
    exact (hall c hc).1.ne' hc₂
  · intro h
    rw [(sum_map_eq_zero_iff hnet₀).mpr fun c hc => sub_eq_zero.mpr (h c hc).1.symm,
      (sum_map_eq_zero_iff hown₀).mpr fun c hc => if_neg (h c hc).2.symm]
    exact ⟨by ring, by ring⟩

end Runs

/-! ## What may happen between contributions -/

section Bystanders

variable {d : Deployment} {i : ℕ} {w : World}

/-- The entry points that set a fee rate. -/
def SetsFees : Entry → Prop
  | .marketplace (.setFeeBps ..) => True
  | .marketplace (.updateFeeBps ..) => True
  | .marketplace (.setTierFeeBps ..) => True
  | _ => False

theorem setFeeBps_bystander {env : Env} {w' : World} {u : Unit} {admin : Address} {bps : ℕ}
    (h : setFeeBps admin bps env w = .ok u w') : Bystander i w w' := by
  obtain ⟨-, config, hc, rfl⟩ := setFeeBps_ok h
  refine ⟨rfl, rfl, rfl, ?_⟩
  rw [hc]
  rfl

theorem bystander_of_setsFees {c : Call} (h : SetsFees c.entry) :
    Bystander i w (step d w (.call c)) := by
  rcases step_call_cases d w c with ⟨hok, -⟩ | ⟨-, hsame⟩
  · unfold SetsFees at h
    split at h
    · rename_i he
      rw [he] at hok
      exact setFeeBps_bystander hok
    · rename_i he
      rw [he] at hok
      exact setFeeBps_bystander hok
    · rename_i he
      rw [he] at hok
      obtain ⟨-, config, hc, hw⟩ := setTierFeeBps_ok hok
      rw [hw]
      refine ⟨rfl, rfl, rfl, ?_⟩
      rw [hc]
      rfl
    · exact h.elim
  · rw [hsame]
    exact ⟨rfl, rfl, rfl, rfl⟩

end Bystanders

/-! ## A funded sample -/

section Sample

/-- Investors `3` and `4` fund invoice `1`; the flat fee drops from 2 % to 1 % in between. -/
def sampleFirst : Call := ⟨[3], .marketplace (.fundInvoice 3 1 4_000)⟩

/-- The admin lowers the fee. -/
def sampleFee : Call := ⟨[1], .marketplace (.setFeeBps 1 100)⟩

/-- The contribution that completes the listing. -/
def sampleLast : Call := ⟨[4], .marketplace (.fundInvoice 4 1 5_000)⟩

theorem sample_contributions :
    Contributions sample 1 (run (step sample) sampleGenesis (sampleSetup "USDC"))
      [.call sampleFirst, .call sampleFee, .call sampleLast] [⟨3, 4_000, 80⟩, ⟨4, 5_000, 50⟩] :=
  .fund rfl (by decide +kernel) (by decide +kernel) <| .other (bystander_of_setsFees trivial) <|
    .fund rfl (by decide +kernel) (by decide +kernel) (.done _)

theorem release_two_investors :
    ((run (step sample) sampleGenesis (sampleSetup "USDC" ++
          [.call sampleFirst, .call sampleFee, .call sampleLast])).tokens.balance 50 2 =
        (run (step sample) sampleGenesis (sampleSetup "USDC")).tokens.balance 50 2 +
          ([⟨3, 4_000, 80⟩, ⟨4, 5_000, 50⟩].map Contribution.net).sum ∧
      (run (step sample) sampleGenesis (sampleSetup "USDC" ++
          [.call sampleFirst, .call sampleFee, .call sampleLast])).tokens.balance 50
            sample.financingPool =
        (run (step sample) sampleGenesis (sampleSetup "USDC")).tokens.balance 50
          sample.financingPool) ↔
      ∀ c ∈ ([⟨3, 4_000, 80⟩, ⟨4, 5_000, 50⟩] : List Contribution),
        c.fee = c.amount ∧ c.investor ≠ 2 :=
  release_iff (l := ⟨1, 2, 9_000, 10_000, 50, 0, 500, true⟩)
    (by decide +kernel) rfl (by decide +kernel) sample_contributions
    (by decide +kernel : _ = some ⟨1, 2, 9_000, 10_000, 50, 9_000, 500, false⟩) (by decide)

/-- The SME receives nothing; the pool keeps the net contributions. -/
theorem sme_unpaid : ¬ ∀ (d : Deployment) (now : ℕ) (tokens : Tokens) (bs as : List Action) (i : ℕ)
    (l l' : Listing) (sme : Address) (cs : List Contribution),
    (run (step d) (genesis now tokens) bs).marketplace.listing i = some l → l.fundedAmount = 0 →
    (run (step d) (genesis now tokens) bs).invoiceNft.owner i = some sme →
    Contributions d i (run (step d) (genesis now tokens) bs) as cs →
    (run (step d) (genesis now tokens) (bs ++ as)).marketplace.listing i = some l' →
    l'.askingPrice ≤ l'.fundedAmount →
    (run (step d) (genesis now tokens) (bs ++ as)).tokens.balance l.token sme =
        (run (step d) (genesis now tokens) bs).tokens.balance l.token sme +
          (cs.map Contribution.net).sum ∧
      (run (step d) (genesis now tokens) (bs ++ as)).tokens.balance l.token d.financingPool =
        (run (step d) (genesis now tokens) bs).tokens.balance l.token d.financingPool := by
  intro h
  have hpaid := h sample 0 sampleTokens (sampleSetup "USDC")
    [.call sampleFirst, .call sampleFee, .call sampleLast] 1
    ⟨1, 2, 9_000, 10_000, 50, 0, 500, true⟩ ⟨1, 2, 9_000, 10_000, 50, 9_000, 500, false⟩ 2
    [⟨3, 4_000, 80⟩, ⟨4, 5_000, 50⟩] (by decide +kernel) rfl (by decide +kernel)
    sample_contributions (by decide +kernel) (by decide)
  exact absurd hpaid.1 (by decide +kernel)

end Sample

end Kora.Marketplace
