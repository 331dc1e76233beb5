import Kora.Marketplace.Refund
import Kora.System.Purse

set_option autoImplicit false

/-!
# Which refunds can be claimed

`cancel_listing` ends a listing whether or not it was funded, and opens no refund; and the pool's
money does not move when the marketplace asks for it.

* **`claimRefund_expired_iff`**: when a refund is rejected as too early;
* `Refundable`, `CancelsSafely`, **`refundable_iff`**: no investor of a cancelled listing has to
  wait for the deadline exactly when no funded listing is cancelled before it;
* **`refund_executable_iff`**: whose money the marketplace can pay a refund from.
-/

namespace Kora.Marketplace

open Exec Run

/-! ## Too early -/

section Early

variable {env : Env} {w w' : World} {i : ℕ} {investor : Address}

theorem loadConfig_error {e : Failure} (h : loadConfig env w = .error e w') :
    e = .contract .notInitialized := by
  rw [loadConfig, gets_run] at h
  cases hc : w.marketplace.config with
  | some config =>
    rw [hc] at h
    cases h
  | none =>
    rw [hc] at h
    simp only [fetch_seq_error, modifyOwn, modify_run] at h
    rcases h with ⟨-, rfl, -⟩ | ⟨config, -, h⟩
    · rfl
    · cases h

/-- **When a refund is rejected as too early**: the listing did not reach its price, its
cancellation is not confirmed and its deadline has not passed. -/
theorem claimRefund_expired_iff :
    (∃ t, claimRefund investor i env w = .error (.contract .fundingNotExpired) t) ↔
      env.Authenticates investor ∧ ∃ l, w.marketplace.listing i = some l ∧
        l.fundedAmount < l.askingPrice ∧ w.marketplace.cancellationConfirmed i = false ∧
        env.timestamp ≤ l.fundingDeadline := by
  simp only [claimRefund, requireAuth_seq_error, loadListing, fetch_seq_error, ensure_seq_error,
    gets_run, timestamp_run, modifyOwn, modify_run]
  constructor
  · rintro ⟨t, ⟨-, ⟨⟩, -⟩ | ⟨ha, ⟨-, ⟨⟩, -⟩ | ⟨l, hl, ⟨-, ⟨⟩, -⟩ | ⟨hshort, h⟩⟩⟩⟩
    rcases h with ⟨hgate, -, -⟩ | ⟨-, ⟨-, ⟨⟩, -⟩ | ⟨-, ⟨-, ⟨⟩, -⟩ | ⟨-, h⟩⟩⟩
    · rw [not_or, Bool.not_eq_true, not_lt] at hgate
      exact ⟨ha, l, hl, hshort, hgate⟩
    · -- past the guards only the configuration and the token can fail
      rcases bind_error.mp h with hconfig | ⟨config, u, -, h⟩
      · cases loadConfig_error hconfig
      · rw [net_run] at h
        cases local_error h
  · rintro ⟨ha, l, hl, hshort, hconfirmed, hintime⟩
    refine ⟨w, Or.inr ⟨ha, Or.inr ⟨l, hl, Or.inr ⟨hshort, Or.inl ⟨?_, trivial, rfl⟩⟩⟩⟩⟩
    rw [hconfirmed]
    simp [hintime]

end Early

/-! ## Cancelled listings -/

/-- No investor with an unclaimed contribution to a cancelled listing that was funded in part is
told to wait for the deadline. -/
def Refundable (d : Deployment) (w : World) : Prop :=
  ∀ i l investor net, w.marketplace.listing i = some l → l.isActive = false →
    0 < l.fundedAmount → l.fundedAmount < l.askingPrice →
    (w.marketplace.contribution i)[investor]? = some net → 0 < net →
    w.marketplace.refundClaimed i investor = false → ∀ signers t,
      Call.run ⟨signers, .marketplace (.claimRefund investor i)⟩ d w ≠
        .error (.contract .fundingNotExpired) t

/-- A cancellation in one phase leaves no contribution behind: the listing has no funds, its
deadline has passed, or nobody has a positive contribution. -/
def KeepsRefunds (w : World) : Entry → Prop
  | .marketplace (.cancelListing _ i) => ∀ l ∈ w.marketplace.listing i, 0 < l.fundedAmount →
      l.fundingDeadline < w.now ∨ ∀ e ∈ (w.marketplace.contribution i).toList, e.2 ≤ 0
  | _ => True

instance (w : World) (e : Entry) : Decidable (KeepsRefunds w e) := by
  unfold KeepsRefunds
  split <;> infer_instance

/-- A successful transaction leaves no contribution behind. -/
def CancelsSafely (d : Deployment) (w : World) : Action → Prop
  | .call c => c.Succeeds d w → KeepsRefunds w c.entry
  | .tick _ => True

instance (d : Deployment) (w : World) (a : Action) : Decidable (CancelsSafely d w a) :=
  match a with
  | .call c => inferInstanceAs (Decidable (c.Succeeds d w → KeepsRefunds w c.entry))
  | .tick _ => inferInstanceAs (Decidable True)

/-- The contribution of `investor` is kept back until the deadline. -/
structure Stranded (w : World) (i : ℕ) (investor : Address) (l : Listing) (net : ℤ) : Prop where
  listed : w.marketplace.listing i = some l
  cancelled : l.isActive = false
  funded : 0 < l.fundedAmount
  short : l.fundedAmount < l.askingPrice
  contributed : (w.marketplace.contribution i)[investor]? = some net
  positive : 0 < net
  unclaimed : w.marketplace.refundClaimed i investor = false
  unconfirmed : w.marketplace.cancellationConfirmed i = false
  early : w.now ≤ l.fundingDeadline

/-- The refund gates are in order, and investors are no contracts. -/
structure ClaimsSound (d : Deployment) (w : World) : Prop where
  books : ∀ i investor, ∃ m, RefundBooks i investor w m
  outside : ∀ (i : ℕ) (a : Address) (net : ℤ),
    (w.marketplace.contribution i)[a]? = some net → a ∉ d.contracts

section Cancelled

variable {d : Deployment} {w w' : World} {i : ℕ} {investor : Address} {l : Listing} {net : ℤ}
  {env : Env} {e : Entry}

theorem authenticates_signed {a : Address} (ha : a ∉ d.contracts) (e : Entry) :
    (Call.env ⟨[a], e⟩ d w).Authenticates a :=
  Or.inr (List.mem_filter.mpr ⟨List.mem_singleton_self a, decide_eq_true ha⟩)

/-- **Refunds of cancelled listings are open when no contribution is stranded.** -/
theorem refundable_iff_not_stranded (hw : ClaimsSound d w) :
    Refundable d w ↔ ∀ i investor l net, ¬ Stranded w i investor l net := by
  constructor
  · intro h i investor l net hs
    have hauth := authenticates_signed (w := w) (hw.outside i investor net hs.contributed)
      (.marketplace (.claimRefund investor i))
    obtain ⟨t, ht⟩ := claimRefund_expired_iff.mpr
      ⟨hauth, l, hs.listed, hs.short, hs.unconfirmed, hs.early⟩
    exact h i l investor net hs.listed hs.cancelled hs.funded hs.short hs.contributed hs.positive
      hs.unclaimed [investor] t ht
  · intro h i l investor net hl hact hfunded hshort hn hpos hclaimed signers t ht
    obtain ⟨-, l', hl', -, hconfirmed, hearly⟩ := claimRefund_expired_iff.mp ⟨t, ht⟩
    rw [hl] at hl'
    cases hl'
    exact h i investor l net ⟨hl, hact, hfunded, hshort, hn, hpos, hclaimed, hconfirmed, hearly⟩

theorem Deactivation.cause {confirms : Bool} (hd : Deactivation i w w' l confirms)
    (h : e.exec env w = .ok () w') :
    (∃ caller, e = .marketplace (.cancelListing caller i)) ∨
      w'.marketplace.cancellationConfirmed i = true ∨ l.fundedAmount = 0 := by
  have hsame : w'.marketplace.listing i ≠ w.marketplace.listing i := by
    rw [hd.listing, hd.found]
    intro h
    have hactive := congrArg Listing.isActive (Option.some.inj h)
    rw [hd.active] at hactive
    cases hactive
  cases Entry.exec_effect h with
  | peripheral _ _ _ _ _ hmarket => exact absurd (by rw [hmarket]) hsame
  | invoiceNft _ _ _ hw => exact absurd (by rw [hw]) hsame
  | pool _ _ hmarket => exact absurd (by rw [hmarket]) hsame
  | listing seller j _ _ _ _ _ _ _ _ _ _ hnone _ _ _ _ hw =>
    by_cases hj : i = j
    · rw [← hj, hd.found] at hnone
      cases hnone
    · rw [hw] at hsame
      exact absurd (Function.update_of_ne hj ..) hsame
  | funding _ j amount l' _ _ _ hF =>
    by_cases hj : i = j
    · subst hj
      have hlisting := hF.listing
      rw [hd.listing] at hlisting
      have hfunded := congrArg Listing.fundedAmount (Option.some.inj hlisting)
      have hfound := hF.listed
      rw [hd.found] at hfound
      cases hfound
      have hpos := hF.positive
      simp only at hfunded
      omega
    · rw [hF.marketplace] at hsame
      exact absurd (Function.update_of_ne hj ..) hsame
  | market op hplain hop =>
    by_cases hadmin : op.Administers
    · exact absurd (by rw [(Op.exec_admin hadmin hop).books.listing]) hsame
    · cases op with
      | listInvoice | fundInvoice => exact hplain.elim
      | cancelListing caller j =>
        obtain ⟨l', config, -, -, -, rfl⟩ := cancelListing_ok hop
        by_cases hj : i = j
        · exact Or.inl ⟨caller, by rw [hj]⟩
        · exact absurd (Function.update_of_ne hj ..) hsame
      | requestCancellation caller j =>
        obtain ⟨l', config, hfound, -, -, ⟨hzero, rfl⟩ | ⟨_, rfl⟩⟩ := requestCancellation_ok hop
        · by_cases hj : i = j
          · rw [← hj, hd.found] at hfound
            cases hfound
            exact Or.inr (Or.inr hzero)
          · exact absurd (Function.update_of_ne hj ..) hsame
        · exact absurd rfl hsame
      | adminConfirmCancellation admin j =>
        obtain ⟨l', config, _, -, -, -, rfl⟩ := adminConfirmCancellation_ok hop
        by_cases hj : i = j
        · subst hj
          exact Or.inr (Or.inl (Function.update_self ..))
        · exact absurd (Function.update_of_ne hj ..) hsame
      | claimRefund a j =>
        obtain ⟨_, _, _, -, -, -, -, -, -, -, rfl⟩ := claimRefund_ok hop
        exact absurd rfl hsame
      | initializeContract | setReferrerSplitBps | setFeeBps | updateFeeBps | setTierFeeBps
      | whitelistToken | removeTokenWhitelist => exact absurd trivial hadmin

theorem claimsSound_step (hw : ClaimsSound d w) (a : Action) : ClaimsSound d (step d w a) := by
  refine ⟨fun i investor => ?_, fun i b net hb => ?_⟩
  · obtain ⟨m, hB⟩ := hw.books i investor
    exact ⟨_, refundBooks_step hB a⟩
  · rcases step_change d w a i with ⟨c, rfl, -, hchange⟩ | ⟨-, n, -, h⟩
    · generalize c.entry = e at hchange
      cases hchange with
      | frame _ _ h => exact hw.outside i b net (h.contribution ▸ hb)
      | listed _ _ _ _ _ _ h => exact hw.outside i b net (h.contribution ▸ hb)
      | deactivated _ _ _ _ h => exact hw.outside i b net (h.contribution ▸ hb)
      | refunded _ _ _ _ h => exact hw.outside i b net (h.contribution ▸ hb)
      | funded investor amount l config inv fee h =>
        rw [h.marketplace] at hb
        simp only [Storage.funded, Function.update_self, FinMap.getElem?_insert'] at hb
        split_ifs at hb with hinvestor
        · rw [← hinvestor]
          exact fun hmem => Call.not_authenticates hmem h.authenticated
        · exact hw.outside i b net hb
    · rw [h] at hb
      exact hw.outside i b net hb

theorem claimsSound_genesis (d : Deployment) (now : ℕ) (tokens : Tokens) :
    ClaimsSound d (genesis now tokens) where
  books := fun i investor => ⟨0, refundBooks_genesis i investor now tokens⟩
  outside := fun i a net h => by
    have hnone : (∅ : FinMap Address ℤ)[a]? = none := Std.ExtTreeMap.getElem?_empty
    rw [show (genesis now tokens).marketplace.contribution i = ∅ from rfl, hnone] at h
    cases h

/-- What stays stranded was stranded before, unless a cancellation in one phase did it. -/
theorem Stranded.before (hs : Stranded w' i investor l net)
    (hnow : w.now ≤ w'.now) (hexec : e.exec env w = .ok () w')
    (hkeeps : KeepsRefunds w e) : ∃ l', Stranded w i investor l' net := by
  have hearly := hnow.trans hs.early
  cases change_of_effect (Entry.exec_effect hexec) i with
  | frame _ _ h =>
    exact ⟨l, h.listing ▸ hs.listed, hs.cancelled, hs.funded, hs.short,
      h.contribution ▸ hs.contributed, hs.positive, h.refundClaimed ▸ hs.unclaimed,
      h.confirmed ▸ hs.unconfirmed, hearly⟩
  | listed _ _ _ _ _ _ h =>
    have hlisting := hs.listed
    rw [h.listing] at hlisting
    cases hlisting
    cases hs.cancelled
  | funded _ amount l₀ _ _ _ h =>
    have hlisting := hs.listed
    rw [h.listing] at hlisting
    cases hlisting
    exact absurd hs.short (of_decide_eq_false hs.cancelled)
  | deactivated _ l₀ confirms _ hd =>
    have hlisting := hs.listed
    rw [hd.listing] at hlisting
    cases hlisting
    rcases hd.cause hexec with ⟨caller, rfl⟩ | hconfirmed | hzero
    · rcases hkeeps l₀ hd.found hs.funded with hlate | hnone
      · exact absurd hlate (not_lt.mpr hearly)
      · have hmem : (investor, net) ∈ (w.marketplace.contribution i).toList :=
          FinMap.mem_toList.mpr (hd.contribution ▸ hs.contributed)
        exact absurd (hnone _ hmem) (not_le.mpr hs.positive)
    · rw [hs.unconfirmed] at hconfirmed
      cases hconfirmed
    · exact absurd hs.funded (by simp [hzero])
  | refunded b l₀ config net₀ h =>
    refine ⟨l, h.listing ▸ hs.listed, hs.cancelled, hs.funded, hs.short,
      h.contribution ▸ hs.contributed, hs.positive, ?_, h.confirmed ▸ hs.unconfirmed, hearly⟩
    have hunclaimed := hs.unclaimed
    rw [h.refundClaimed, Function.update_apply] at hunclaimed
    split_ifs at hunclaimed
    exact hunclaimed

/-- A cancellation in one phase before the deadline strands every positive contribution. -/
theorem stranded_of_cancelled {caller : Address} (hw : ClaimsSound d w)
    (h : cancelListing caller i env w = .ok () w') (hl : w.marketplace.listing i = some l)
    (hfunded : 0 < l.fundedAmount) (hearly : w.now ≤ l.fundingDeadline)
    (hn : (w.marketplace.contribution i)[investor]? = some net) (hpos : 0 < net) :
    Stranded w' i investor { l with isActive := false } net := by
  obtain ⟨l', config, hl', hact, -, rfl⟩ := cancelListing_ok h
  rw [hl] at hl'
  cases hl'
  obtain ⟨m, hB⟩ := hw.books i investor
  have hunconfirmed : w.marketplace.cancellationConfirmed i = false := by
    rw [← Bool.not_eq_true]
    intro hc
    have hinactive := hB.confirmed hc l hl
    rw [hact] at hinactive
    cases hinactive
  have hunclaimed : w.marketplace.refundClaimed i investor = false := by
    rw [← Bool.not_eq_true]
    intro hclaimed
    obtain ⟨-, hc | hlate⟩ := hB.claimed investor hclaimed l hl
    · rw [hunconfirmed] at hc
      cases hc
    · exact absurd hlate (not_lt.mpr hearly)
  exact ⟨Function.update_self .., rfl, hfunded, hB.active l hl hact, hn, hpos, hunclaimed,
    hunconfirmed, hearly⟩

/-- **One step keeps refunds open exactly when it leaves no contribution behind.** -/
theorem refundable_step (hw : ClaimsSound d w) (hq : Refundable d w) (a : Action) :
    Refundable d (step d w a) ↔ CancelsSafely d w a := by
  rw [refundable_iff_not_stranded hw] at hq
  rw [refundable_iff_not_stranded (claimsSound_step hw a)]
  rcases step_cases d w a with ⟨c, rfl, hs, h⟩ | ⟨n, rfl, h⟩ | ⟨c, rfl, hn, h⟩
  · constructor
    · intro hnone _
      unfold KeepsRefunds
      split
      · rename_i caller i he
        rw [he] at h
        intro l hl hfunded
        by_contra hbad
        push Not at hbad
        obtain ⟨hearly, e, he, hpos⟩ := hbad
        exact hnone i e.1 _ e.2
          (stranded_of_cancelled hw h hl hfunded hearly (FinMap.mem_toList.mp he) hpos)
      · trivial
    · intro hsafe i investor l net hstranded
      have hnow : (step d w (.call c)).now = w.now := (Entry.exec_effect h).now
      obtain ⟨l', hbefore⟩ := hstranded.before hnow.ge h (hsafe hs)
      exact hq i investor l' net hbefore
  · refine iff_of_true (fun i investor l net hs => ?_) trivial
    rw [h] at hs
    have hearly : w.now ≤ l.fundingDeadline := (Nat.le_add_right _ _).trans hs.early
    exact hq i investor l net ⟨hs.listed, hs.cancelled, hs.funded, hs.short, hs.contributed,
      hs.positive, hs.unclaimed, hs.unconfirmed, hearly⟩
  · rw [h]
    exact iff_of_true hq fun hs => absurd hs hn

end Cancelled

section Runs

/-- **Cancelled means refundable**: in every state of a run no investor with an unclaimed
contribution to a cancelled listing is told to wait for the deadline, exactly when no transaction of
the run cancels a funded listing in one phase before its deadline. -/
theorem refundable_iff (d : Deployment) (now : ℕ) (tokens : Tokens) (as : List Action) :
    (∀ p, p <+: as → Refundable d (run (step d) (genesis now tokens) p)) ↔
      Along (step d) (CancelsSafely d) (genesis now tokens) as := by
  have hgenesis : Refundable d (genesis now tokens) := by
    rintro i l investor net ⟨⟩
  exact forall_prefix_iff (Q := Refundable d) (fun w a hw => claimsSound_step hw a)
    (fun w a hw hq => refundable_step hw hq a) (claimsSound_genesis d now tokens) hgenesis

/-- The seller cancels its listing after a partial contribution of investor `3`. -/
def cancelledFunded : List Action := sampleSetup "USDC" ++ [
  signed 3 (.marketplace (.fundInvoice 3 1 4_000)), signed 2 (.marketplace (.cancelListing 2 1))]

/-- The investor of a cancelled listing is told to wait for the deadline. -/
theorem refund_not_expired : ¬ ∀ (d : Deployment) (now : ℕ) (tokens : Tokens) (as : List Action),
    Refundable d (run (step d) (genesis now tokens) as) := by
  intro h
  have hbad : ∃ t, claimRefund 3 1
      (Call.env ⟨[3], .marketplace (.claimRefund 3 1)⟩ sample
        (run (step sample) sampleGenesis cancelledFunded))
      (run (step sample) sampleGenesis cancelledFunded) =
        .error (.contract .fundingNotExpired) t := by
    refine claimRefund_expired_iff.mpr ⟨by decide +kernel,
      ⟨1, 2, 9_000, 10_000, 50, 4_000, 500, false⟩, ?_⟩
    decide +kernel
  obtain ⟨t, ht⟩ := hbad
  exact h sample 0 sampleTokens cancelledFunded 1 ⟨1, 2, 9_000, 10_000, 50, 4_000, 500, false⟩ 3
    3_920 (by decide +kernel) rfl (by decide) (by decide) (by decide +kernel) (by decide)
    (by decide +kernel) [3] t ht

end Runs

/-! ## The money of the pool -/

section Executable

variable {d : Deployment} {w : World} {i : ℕ} {investor : Address} {l : Listing}
  {config : MarketplaceConfig} {net : ℤ} {signers : List Address}

/-- Who lets the marketplace move money out of an account: the marketplace itself, or a signer. -/
theorem authenticates_marketplace {e : Entry} {a : Address} :
    ((Call.env ⟨signers, e⟩ d w).from d.marketplace).Authenticates a ↔
      a = d.marketplace ∨ a ∈ signers ∧ a ∉ d.contracts := by
  rw [Env.Authenticates, Env.from_signers]
  show some d.marketplace = some a ∨ a ∈ signers.filter _ ↔ _
  rw [List.mem_filter, decide_eq_true_iff, Option.some.injEq, eq_comm]

theorem claimRefund_succeeds_iff (hsigned : investor ∈ signers) (hout : investor ∉ d.contracts)
    (hasks : w.tokens.asksAuth l.token = true) (hdec : (w.tokens.decimals l.token).isSome = true)
    (hl : w.marketplace.listing i = some l) (hshort : l.fundedAmount < l.askingPrice)
    (hgate : w.marketplace.cancellationConfirmed i = true ∨ l.fundingDeadline < w.now)
    (hn : (w.marketplace.contribution i)[investor]? = some net) (hpos : 0 < net)
    (hunclaimed : w.marketplace.refundClaimed i investor = false)
    (hc : w.marketplace.currentConfig = some config)
    (hheld : net ≤ w.tokens.balance l.token config.financingPool) :
    (Call.Succeeds ⟨signers, .marketplace (.claimRefund investor i)⟩ d w ∧
      newTransfers w (step d w (.call ⟨signers, .marketplace (.claimRefund investor i)⟩)) =
        [⟨l.token, config.financingPool, investor, net⟩]) ↔
      config.financingPool = d.marketplace ∨
        config.financingPool ∈ signers ∧ config.financingPool ∉ d.contracts := by
  rw [← authenticates_marketplace (w := w) (e := .marketplace (.claimRefund investor i))]
  constructor
  · rintro ⟨hs, -⟩
    obtain ⟨w', h⟩ := Call.succeeds_iff.mp hs
    obtain ⟨-, l', config', net', hl', -, -, -, -, -, hc', hauth, -, -, -⟩ := claimRefund_iff.mp h
    rw [hl] at hl'
    cases hl'
    rw [hc] at hc'
    cases hc'
    exact hauth hasks
  · intro hauth
    have hsigner : (Call.env ⟨signers, .marketplace (.claimRefund investor i)⟩ d w).Authenticates
        investor := Or.inr (List.mem_filter.mpr ⟨hsigned, decide_eq_true hout⟩)
    have h : (Entry.marketplace (.claimRefund investor i)).exec
        (Call.env ⟨signers, .marketplace (.claimRefund investor i)⟩ d w) w =
          .ok () (refunded w config i l investor net) :=
      claimRefund_iff.mpr ⟨hsigner, l, config, net, hl, hshort, hgate, hunclaimed, hn, hpos, hc,
        fun _ => hauth, hdec, hheld, rfl⟩
    refine ⟨Call.succeeds_iff.mpr ⟨_, h⟩, ?_⟩
    rw [step_call_of_ok h]
    exact newTransfers_of_move rfl

/-- **Who can be refunded**: in every reachable state, a refund that is due, signed for by the
investor and covered by the configured pool is paid exactly when that pool is the marketplace
itself, or an account that signs as well. -/
theorem refund_executable_iff (d : Deployment) (now : ℕ) (tokens : Tokens) (as : List Action)
    (i : ℕ) (investor : Address) (signers : List Address) (l : Listing)
    (config : MarketplaceConfig) (net : ℤ) (hasks : tokens.asksAuth l.token = true)
    (hdec : (tokens.decimals l.token).isSome = true) (hsigned : investor ∈ signers)
    (hl : (run (step d) (genesis now tokens) as).marketplace.listing i = some l)
    (hshort : l.fundedAmount < l.askingPrice)
    (hgate : (run (step d) (genesis now tokens) as).marketplace.cancellationConfirmed i = true ∨
      l.fundingDeadline < (run (step d) (genesis now tokens) as).now)
    (hn : ((run (step d) (genesis now tokens) as).marketplace.contribution i)[investor]? = some net)
    (hpos : 0 < net)
    (hunclaimed : (run (step d) (genesis now tokens) as).marketplace.refundClaimed i investor =
      false)
    (hc : (run (step d) (genesis now tokens) as).marketplace.currentConfig = some config)
    (hheld : net ≤
      (run (step d) (genesis now tokens) as).tokens.balance l.token config.financingPool) :
    (Call.Succeeds ⟨signers, .marketplace (.claimRefund investor i)⟩ d
        (run (step d) (genesis now tokens) as) ∧
      newTransfers (run (step d) (genesis now tokens) as)
          (step d (run (step d) (genesis now tokens) as)
            (.call ⟨signers, .marketplace (.claimRefund investor i)⟩)) =
        [⟨l.token, config.financingPool, investor, net⟩]) ↔
      config.financingPool = d.marketplace ∨
        config.financingPool ∈ signers ∧ config.financingPool ∉ d.contracts := by
  obtain ⟨hdecimals, hasksAuth⟩ := tokenContracts_run d (genesis now tokens) as
  have hsound : ClaimsSound d (run (step d) (genesis now tokens) as) :=
    always (I := ClaimsSound d) (fun w a hw => claimsSound_step hw a)
      (claimsSound_genesis d now tokens) as
  refine claimRefund_succeeds_iff hsigned (hsound.outside i investor net hn) ?_ ?_ hl hshort hgate
    hn hpos hunclaimed hc hheld
  · rw [hasksAuth]
    exact hasks
  · rw [hdecimals]
    exact hdec

/-- The marketplace keeps contributions in the account of the admin, who signs for refunds. -/
def refundedByAdmin : List Action := [
  signed 1 (.accessControl (.initializeContract 1)),
  signed 1 (.invoiceNft (.initializeContract 1 101)),
  signed 1 (.riskRegistry (.initializeContract 1 102 50 0 0)),
  signed 1 (.treasury (.initializeContract 1 0)),
  signed 1 (.marketplace (.initializeContract 1 102 1 105 101 106 200)),
  signed 1 (.invoiceNft (.setAuthorizedCallers 1 103 104)),
  signed 1 (.treasury (.whitelistToken 1 50)),
  signed 1 (.marketplace (.whitelistToken 1 50)),
  .call ⟨[1, 6], .riskRegistry (.addVerifier 1 6 0)⟩,
  signed 6 (.riskRegistry (.registerSme 6 2 50 true)),
  signed 2 (.invoiceNft (.mintInvoice 2 [1] 10_000 "USDC" 1000 "cid" 50 none)),
  signed 2 (.marketplace (.listInvoice 2 1 9_000 10_000 50 500 none)),
  signed 3 (.marketplace (.fundInvoice 3 1 4_000)), .tick 501]

theorem refund_executable_sample :
    Call.Succeeds ⟨[3, 1], .marketplace (.claimRefund 3 1)⟩ sample
        (run (step sample) (genesis 0 sampleTokens) refundedByAdmin) ∧
      newTransfers (run (step sample) (genesis 0 sampleTokens) refundedByAdmin)
          (step sample (run (step sample) (genesis 0 sampleTokens) refundedByAdmin)
            (.call ⟨[3, 1], .marketplace (.claimRefund 3 1)⟩)) = [⟨50, 1, 3, 3_920⟩] :=
  (refund_executable_iff sample 0 sampleTokens refundedByAdmin 1 3 [3, 1]
    ⟨1, 2, 9_000, 10_000, 50, 4_000, 500, true⟩ ⟨1, 102, 1, 105, 101, 106, 200, 0⟩ 3_920 rfl
    (by decide) (by decide) (by decide +kernel) (by decide) (by decide +kernel)
    (by decide +kernel) (by decide) (by decide +kernel) (by decide +kernel)
    (by decide +kernel)).mpr (by decide)

/-- A partial contribution of investor `3`, and the deadline passes. -/
def expiredFunded : List Action :=
  sampleSetup "USDC" ++ [signed 3 (.marketplace (.fundInvoice 3 1 4_000)), .tick 501]

/-- The deployed pool holds the money and never pays it back. -/
theorem refund_not_executable : ¬ ∀ (d : Deployment) (now : ℕ) (tokens : Tokens)
    (as : List Action) (i : ℕ) (investor : Address) (l : Listing) (config : MarketplaceConfig)
    (net : ℤ), tokens.asksAuth l.token = true → (tokens.decimals l.token).isSome = true →
    (run (step d) (genesis now tokens) as).marketplace.listing i = some l →
    l.fundedAmount < l.askingPrice →
    l.fundingDeadline < (run (step d) (genesis now tokens) as).now →
    ((run (step d) (genesis now tokens) as).marketplace.contribution i)[investor]? = some net →
    0 < net →
    (run (step d) (genesis now tokens) as).marketplace.refundClaimed i investor = false →
    (run (step d) (genesis now tokens) as).marketplace.currentConfig = some config →
    net ≤ (run (step d) (genesis now tokens) as).tokens.balance l.token config.financingPool →
    Call.Succeeds ⟨[investor], .marketplace (.claimRefund investor i)⟩ d
      (run (step d) (genesis now tokens) as) := by
  intro h
  refine absurd (h sample 0 sampleTokens expiredFunded 1 3
    ⟨1, 2, 9_000, 10_000, 50, 4_000, 500, true⟩ ⟨1, 102, 104, 105, 101, 106, 200, 0⟩ 3_920 rfl
    (by decide) (by decide +kernel) (by decide) (by decide +kernel) (by decide +kernel)
    (by decide) (by decide +kernel) (by decide +kernel) (by decide +kernel)) ?_
  decide +kernel

end Executable

end Kora.Marketplace
