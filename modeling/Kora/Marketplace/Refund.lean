import Kora.Marketplace.Accounting

set_option autoImplicit false

/-!
# Refunds

A refund is open once the cancellation of the listing is confirmed or its deadline has passed, and
either excludes every later contribution: the listing is inactive, or it is too late to fund it.

* `refunds`, `completions`, `netContributed`: what the steps of a run add up to;
* `RefundBooks`, `refundBooks_step`: the invariant;
* **`refund_safety`**: no listing is both completed and refunded, every investor is refunded at
  most once, and gets back exactly its net contributions.
-/

namespace Kora.Marketplace

open Exec Run

/-! ## Statement -/

/-- The listing of invoice `i` has reached its asking price. -/
def fullyFunded (w : World) (i : ℕ) : Bool :=
  (w.marketplace.listing i).any fun l => decide (l.fundedAmount = l.askingPrice)

/-- The successful refunds of `investor` from the listing of invoice `i`. -/
def refunds (d : Deployment) (i : ℕ) (investor : Address) (w : World) : Action → ℕ
  | .call c => match c.entry with
    | .marketplace (.claimRefund a j) => if a = investor ∧ j = i ∧ c.Succeeds d w then 1 else 0
    | _ => 0
  | .tick _ => 0

/-- The contributions that bring the listing of invoice `i` to its asking price. -/
def completions (d : Deployment) (i : ℕ) (w : World) : Action → ℕ
  | .call c => match c.entry with
    | .marketplace (.fundInvoice _ j _) =>
      if j = i ∧ c.Succeeds d w ∧ fullyFunded (step d w (.call c)) i = true then 1 else 0
    | _ => 0
  | .tick _ => 0

/-- What `investor` contributes to the listing of invoice `i` after fees. -/
def netContributed (d : Deployment) (i : ℕ) (investor : Address) : World → Action → ℤ :=
  perContribution (fun w a amount => if a = investor then amount - feeOf w i amount else 0) d i

/-! ## Invariant -/

/-- The refund gates of invoice `i`, with the completions, the refunds of `investor` and its net
contributions so far. -/
structure RefundBooks (i : ℕ) (investor : Address) (w : World) (m : (ℕ × ℕ) × ℤ) : Prop where
  active : ∀ l, w.marketplace.listing i = some l → l.isActive = true →
    l.fundedAmount < l.askingPrice
  unlisted : w.marketplace.listing i = none →
    w.marketplace.cancellationConfirmed i = false ∧ (∀ a, w.marketplace.refundClaimed i a = false)
  confirmed : w.marketplace.cancellationConfirmed i = true →
    ∀ l, w.marketplace.listing i = some l → l.isActive = false
  claimed : ∀ a, w.marketplace.refundClaimed i a = true →
    ∀ l, w.marketplace.listing i = some l → l.fundedAmount < l.askingPrice ∧
      (w.marketplace.cancellationConfirmed i = true ∨ l.fundingDeadline < w.now)
  completed : m.1.1 ≠ 0 →
    ∃ l, w.marketplace.listing i = some l ∧ l.fundedAmount = l.askingPrice
  refunded : m.1.2 = if w.marketplace.refundClaimed i investor = true then 1 else 0
  net : m.2 = ((w.marketplace.contribution i)[investor]?).getD 0

/-- What a step adds to the completions, the refunds of `investor` and its net contributions. -/
def refundStep (d : Deployment) (i : ℕ) (investor : Address) (w : World) (a : Action) :
    (ℕ × ℕ) × ℤ :=
  ((completions d i w a, refunds d i investor w a), netContributed d i investor w a)

section Steps

variable {d : Deployment} {i : ℕ} {investor : Address} {w w' : World} {c : Call} {env : Env}
  {m : (ℕ × ℕ) × ℤ}

theorem refundStep_of_not_dealsWith (h : ¬ DealsWith i c.entry) :
    refundStep d i investor w (.call c) = 0 := by
  have hfund : ∀ a amount, c.entry ≠ .marketplace (.fundInvoice a i amount) :=
    fun _ _ he => h (by rw [he]; rfl)
  refine Prod.ext (Prod.ext ?_ ?_) ?_
  · show completions d i w (.call c) = 0
    simp only [completions]
    split
    · rename_i he
      exact if_neg fun hj => hfund _ _ (hj.1 ▸ he)
    · rfl
  · show refunds d i investor w (.call c) = 0
    simp only [refunds]
    split
    · rename_i he
      refine if_neg fun hj => h ?_
      rw [he, hj.2.1]
      rfl
    · rfl
  · show netContributed d i investor w (.call c) = 0
    exact perContribution_of_ne hfund

theorem refundStep_of_not_succeeds {a : Action} (h : ∀ c, a = .call c → ¬ c.Succeeds d w) :
    refundStep d i investor w a = 0 := by
  refine Prod.ext (Prod.ext ?_ ?_) ?_
  · show completions d i w a = 0
    cases a with
    | tick n => rfl
    | call c =>
      simp only [completions]
      split
      · exact if_neg fun hj => h c rfl hj.2.1
      · rfl
  · show refunds d i investor w a = 0
    cases a with
    | tick n => rfl
    | call c =>
      simp only [refunds]
      split
      · exact if_neg fun hj => h c rfl hj.2.2
      · rfl
  · show netContributed d i investor w a = 0
    exact perContribution_of_not_succeeds h

theorem RefundBooks.keep (hB : RefundBooks i investor w m) (h : SameListing i w w')
    (hnow : w.now ≤ w'.now) : RefundBooks i investor w' m where
  active := by
    rw [h.listing]
    exact hB.active
  unlisted := by
    rw [h.listing, h.confirmed, h.refundClaimed]
    exact hB.unlisted
  confirmed := by
    rw [h.listing, h.confirmed]
    exact hB.confirmed
  claimed := by
    rw [h.listing, h.confirmed, h.refundClaimed]
    intro a ha l hl
    obtain ⟨hshort, hgate⟩ := hB.claimed a ha l hl
    exact ⟨hshort, hgate.imp_right fun hd => hd.trans_le hnow⟩
  completed := by
    rw [h.listing]
    exact hB.completed
  refunded := by
    rw [h.refundClaimed]
    exact hB.refunded
  net := by
    rw [h.contribution]
    exact hB.net

theorem RefundBooks.open (hB : RefundBooks i investor w m) {seller token : Address}
    {price face : ℤ} {deadline : ℕ} (h : Opening i w w' seller price face token deadline) :
    RefundBooks i investor w' m := by
  obtain ⟨hconfirmed, hclaimed⟩ := hB.unlisted h.unlisted
  refine ⟨fun l hl _ => ?_, fun hnone => ?_, fun hc => ?_, fun a ha => ?_, fun hn => ?_, ?_, ?_⟩
  · rw [h.listing] at hl
    cases hl
    exact h.positive
  · rw [h.listing] at hnone
    cases hnone
  · rw [h.confirmed, hconfirmed] at hc
    cases hc
  · rw [h.refundClaimed, hclaimed] at ha
    cases ha
  · obtain ⟨l, hl, -⟩ := hB.completed hn
    rw [h.unlisted] at hl
    cases hl
  · rw [h.refundClaimed]
    exact hB.refunded
  · rw [h.contribution]
    exact hB.net

/-- **A contribution finds no refund gate open.** -/
theorem RefundBooks.closed (hB : RefundBooks i investor w m) {a : Address} {amount fee : ℤ}
    {l : Listing} {config : MarketplaceConfig} {inv : Invoice}
    (h : Funding env w a i amount w' l config inv fee) (hnow : env.timestamp = w.now) :
    w.marketplace.cancellationConfirmed i = false ∧ m.1.1 = 0 ∧
      ∀ b, w.marketplace.refundClaimed i b = false := by
  have hconfirmed : w.marketplace.cancellationConfirmed i ≠ true := by
    intro hc
    have hinactive := hB.confirmed hc l h.listed
    rw [h.active] at hinactive
    cases hinactive
  refine ⟨Bool.not_eq_true _ ▸ hconfirmed, ?_, fun b => ?_⟩
  · by_contra hn
    obtain ⟨l', hl', hfull⟩ := hB.completed hn
    rw [h.listed] at hl'
    cases hl'
    exact absurd hfull (hB.active l h.listed h.active).ne
  · rw [← Bool.not_eq_true]
    intro hb
    obtain ⟨-, hc | hd⟩ := hB.claimed b hb l h.listed
    · exact hconfirmed hc
    · have hintime := h.intime
      rw [hnow] at hintime
      exact absurd hd (not_lt.mpr hintime)

theorem RefundBooks.fund (hB : RefundBooks i investor w m) {a : Address} {amount fee : ℤ}
    {l : Listing} {config : MarketplaceConfig} {inv : Invoice}
    (h : Funding env w a i amount w' l config inv fee) (hnow : env.timestamp = w.now) {n : ℕ}
    (hn : n ≠ 0 → fullyFunded w' i = true) :
    RefundBooks i investor w'
      (m + ((n, 0), if a = investor then amount - fee else 0)) := by
  obtain ⟨hconfirmed, hzero, hclaimed⟩ := hB.closed h hnow
  have hconfirmed' : w'.marketplace.cancellationConfirmed i = false := by
    rw [h.marketplace]
    exact hconfirmed
  have hclaimed' : ∀ b, w'.marketplace.refundClaimed i b = false := by
    rw [h.marketplace]
    exact hclaimed
  refine ⟨fun l' hl hact => ?_, fun _ => ⟨hconfirmed', hclaimed'⟩, fun hc => ?_, fun b hb => ?_,
    fun hne => ?_, ?_, ?_⟩
  · rw [h.listing] at hl
    cases hl
    exact of_decide_eq_true hact
  · rw [hconfirmed'] at hc
    cases hc
  · rw [hclaimed'] at hb
    cases hb
  · have hn' : n ≠ 0 := by
      intro h₀
      apply hne
      show m.1.1 + n = 0
      omega
    have hfull := hn hn'
    rw [fullyFunded, h.listing] at hfull
    exact ⟨_, h.listing, of_decide_eq_true hfull⟩
  · rw [hclaimed']
    show m.1.2 + 0 = 0
    rw [hB.refunded, hclaimed]
    rfl
  · rw [h.marketplace]
    show m.2 + (if a = investor then amount - fee else 0) = _
    simp only [Storage.funded, Function.update_self, FinMap.getElem?_insert', hB.net]
    split_ifs with ha
    · rw [ha, Option.getD_some]
    · rw [add_zero]

theorem RefundBooks.deactivate (hB : RefundBooks i investor w m) {l : Listing} {confirms : Bool}
    (h : Deactivation i w w' l confirms) (hnow : w.now ≤ w'.now) :
    RefundBooks i investor w' m := by
  refine ⟨fun l' hl hact => ?_, fun hnone => ?_, fun _ l' hl => ?_, fun a ha l' hl => ?_,
    fun hn => ?_, ?_, ?_⟩
  · rw [h.listing] at hl
    cases hl
    cases hact
  · rw [h.listing] at hnone
    cases hnone
  · rw [h.listing] at hl
    cases hl
    rfl
  · rw [h.listing] at hl
    cases hl
    rw [h.refundClaimed] at ha
    obtain ⟨hshort, hgate⟩ := hB.claimed a ha l h.found
    refine ⟨hshort, hgate.imp (fun hc => ?_) fun hd => hd.trans_le hnow⟩
    rw [h.confirmed, hc, Bool.true_or]
  · obtain ⟨l', hl', hfull⟩ := hB.completed hn
    rw [h.found] at hl'
    cases hl'
    exact ⟨_, h.listing, hfull⟩
  · rw [h.refundClaimed]
    exact hB.refunded
  · rw [h.contribution]
    exact hB.net

theorem RefundBooks.refund (hB : RefundBooks i investor w m) {a : Address} {l : Listing}
    {config : MarketplaceConfig} {net : ℤ} (h : Refund env i w w' a l config net)
    (hnow : env.timestamp = w.now) (hnow' : w'.now = w.now) :
    RefundBooks i investor w' (m + ((0, if a = investor then 1 else 0), 0)) := by
  refine ⟨?_, fun hnone => ?_, ?_, fun b hb l' hl => ?_, fun hn => ?_, ?_, ?_⟩
  · rw [h.listing]
    exact hB.active
  · rw [h.listing, h.found] at hnone
    cases hnone
  · rw [h.listing, h.confirmed]
    exact hB.confirmed
  · rw [h.listing] at hl
    rw [h.confirmed, hnow']
    rw [h.refundClaimed, Function.update_apply] at hb
    split_ifs at hb with hba
    · rw [h.found] at hl
      cases hl
      exact ⟨h.short, hnow ▸ h.gate⟩
    · exact hB.claimed b hb l' hl
  · rw [h.listing]
    exact hB.completed hn
  · show m.1.2 + (if a = investor then 1 else 0) = _
    rw [hB.refunded, h.refundClaimed, Function.update_apply]
    by_cases ha : a = investor
    · subst ha
      simp [h.unclaimed]
    · simp [ha, Ne.symm ha]
  · show m.2 + 0 = _
    rw [h.contribution, add_zero]
    exact hB.net

theorem refundBooks_step (hB : RefundBooks i investor w m) (a : Action) :
    RefundBooks i investor (step d w a) (m + refundStep d i investor w a) := by
  rcases step_cases d w a with ⟨c, rfl, hs, h⟩ | ⟨n, rfl, h⟩ | ⟨c, rfl, hn, h⟩
  · have heffect := Entry.exec_effect h
    have hnow : (step d w (.call c)).now = w.now := heffect.now
    have hchange := change_of_effect heffect i
    generalize he : c.entry = e at hchange
    cases hchange with
    | frame _ hne h =>
      rw [refundStep_of_not_dealsWith (he ▸ hne), add_zero]
      exact hB.keep h hnow.ge
    | listed seller price face token deadline referrer h =>
      rw [refundStep_of_not_dealsWith (by rw [he]; exact id), add_zero]
      exact hB.open h
    | funded b amount l config inv fee h =>
      have hstep : refundStep d i investor w (.call c) =
          ((completions d i w (.call c), 0), if b = investor then amount - fee else 0) := by
        refine Prod.ext (Prod.ext rfl ?_) ?_
        · show refunds d i investor w (.call c) = 0
          simp only [refunds, he]
        · show netContributed d i investor w (.call c) = _
          rw [netContributed, perContribution_of_funded he hs, feeOf, h.chargedFee,
            Option.getD_some]
      rw [hstep]
      refine hB.fund h rfl fun hne => ?_
      simp only [completions, he] at hne
      by_contra hfull
      exact hne (if_neg fun hj => hfull hj.2.2)
    | deactivated _ l confirms hne h =>
      rw [refundStep_of_not_dealsWith (he ▸ hne), add_zero]
      exact hB.deactivate h hnow.ge
    | refunded b l config net h =>
      have hstep : refundStep d i investor w (.call c) =
          ((0, if b = investor then 1 else 0), 0) := by
        refine Prod.ext (Prod.ext ?_ ?_) ?_
        · show completions d i w (.call c) = 0
          simp only [completions, he]
        · show refunds d i investor w (.call c) = _
          simp only [refunds, he, hs, and_true]
        · show netContributed d i investor w (.call c) = 0
          exact perContribution_of_ne fun _ _ h' => by rw [he] at h'; cases h'
      rw [hstep]
      exact hB.refund h rfl hnow
  · rw [refundStep_of_not_succeeds (by rintro _ ⟨⟩), add_zero, h]
    exact hB.keep ⟨rfl, rfl, rfl, rfl⟩ (Nat.le_add_right _ _)
  · rw [refundStep_of_not_succeeds (by rintro _ ⟨⟩; exact hn), add_zero, h]
    exact hB

end Steps

section Runs

theorem refundBooks_genesis (i : ℕ) (investor : Address) (now : ℕ) (tokens : Tokens) :
    RefundBooks i investor (genesis now tokens) 0 where
  active := by rintro _ ⟨⟩
  unlisted := fun _ => ⟨rfl, fun _ => rfl⟩
  confirmed := by rintro ⟨⟩
  claimed := by rintro _ ⟨⟩
  completed := fun h => absurd rfl h
  refunded := rfl
  net := by simp [genesis]

theorem refundBooks_run (d : Deployment) (i : ℕ) (investor : Address) (now : ℕ) (tokens : Tokens)
    (as : List Action) : RefundBooks i investor (run (step d) (genesis now tokens) as)
      ((tally (step d) (completions d i) (genesis now tokens) as,
        tally (step d) (refunds d i investor) (genesis now tokens) as),
        tally (step d) (netContributed d i investor) (genesis now tokens) as) := by
  have h := invariant_tally (I := RefundBooks i investor) (C := fun _ _ => True)
    (μ := refundStep d i investor) (fun _ _ a hB _ => refundBooks_step hB a)
    (refundBooks_genesis i investor now tokens) (along_true _ as)
  have htally : tally (step d) (refundStep d i investor) (genesis now tokens) as = _ :=
    (tally_prod _ _ _ _).trans (congrArg (·, _) (tally_prod _ _ _ _))
  rwa [zero_add, htally] at h

/-- A listing that was completed has no refund. -/
theorem refunded_of_completed {i : ℕ} {investor : Address} {w : World} {m : (ℕ × ℕ) × ℤ}
    (hB : RefundBooks i investor w m) (hn : m.1.1 ≠ 0) : m.1.2 = 0 := by
  obtain ⟨l, hl, hfull⟩ := hB.completed hn
  rw [hB.refunded, if_neg]
  intro hclaimed
  have hshort := (hB.claimed investor hclaimed l hl).1
  omega

theorem refund_transfers {d : Deployment} {i : ℕ} {investor : Address} {w : World} {c : Call}
    {m : (ℕ × ℕ) × ℤ} (hB : RefundBooks i investor w m)
    (he : c.entry = .marketplace (.claimRefund investor i)) (hs : c.Succeeds d w) :
    ∃ l src, w.marketplace.listing i = some l ∧
      newTransfers w (step d w (.call c)) = [⟨l.token, src, investor, m.2⟩] := by
  rcases step_change d w (.call c) i with ⟨_, ⟨⟩, -, h⟩ | ⟨hn, -⟩
  · rw [he] at h
    cases h with
    | frame _ hne => exact absurd rfl hne
    | deactivated _ _ _ hne => exact absurd rfl hne
    | refunded _ l config net h =>
      have hnet := hB.net
      rw [h.contributed, Option.getD_some] at hnet
      rw [hnet]
      exact ⟨l, config.financingPool, h.found, newTransfers_of_move h.tokens⟩
  · exact absurd hs (hn c rfl)

/-- **Refund safety**: in every run no listing has both a refund and a contribution that brings it
to its asking price; every investor is refunded at most once per listing; and every refund
transfers exactly the sum of the investor's net contributions to that listing so far, in the
listing's token. -/
theorem refund_safety (d : Deployment) (now : ℕ) (tokens : Tokens) (as : List Action) :
    (∀ i, tally (step d) (completions d i) (genesis now tokens) as = 0 ∨
      ∀ investor, tally (step d) (refunds d i investor) (genesis now tokens) as = 0) ∧
    (∀ i investor, tally (step d) (refunds d i investor) (genesis now tokens) as ≤ 1) ∧
    ∀ p c, p ++ [.call c] <+: as → ∀ investor i,
      c.entry = .marketplace (.claimRefund investor i) →
      c.Succeeds d (run (step d) (genesis now tokens) p) →
      ∃ l src, (run (step d) (genesis now tokens) p).marketplace.listing i = some l ∧
        newTransfers (run (step d) (genesis now tokens) p)
            (run (step d) (genesis now tokens) (p ++ [.call c])) =
          [⟨l.token, src, investor,
            tally (step d) (netContributed d i investor) (genesis now tokens) p⟩] := by
  refine ⟨fun i => ?_, fun i investor => ?_, fun p c _ investor i he hs => ?_⟩
  · by_cases hn : tally (step d) (completions d i) (genesis now tokens) as = 0
    · exact Or.inl hn
    · refine Or.inr fun investor => ?_
      have hB := refundBooks_run d i investor now tokens as
      exact refunded_of_completed hB hn
  · have hB := refundBooks_run d i investor now tokens as
    have honce := hB.refunded
    split_ifs at honce
    · exact honce.le
    · exact honce.trans_le (Nat.zero_le _)
  · have hB := refundBooks_run d i investor now tokens p
    rw [run_append, run_cons, run_nil]
    exact refund_transfers hB he hs

/-- In a token that asks for no authorisation, investor `3` claims its contribution back once the
deadline has passed. -/
example : tally (step sample) (refunds sample 1 3)
    (genesis 0 { sampleTokens with asksAuth := fun _ => false }) (sampleSetup "USDC" ++
      [signed 3 (.marketplace (.fundInvoice 3 1 4_000)), .tick 501,
        signed 3 (.marketplace (.claimRefund 3 1))]) = 1 := by
  decide +kernel

end Runs

end Kora.Marketplace
