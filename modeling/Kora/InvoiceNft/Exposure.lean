import Kora.InvoiceNft.Lifecycle

set_option autoImplicit false

/-!
# Exposure and credit limit

The exposure of an SME is lowered by withdrawal, repayment and default, but minting does not raise
it. So it only follows the open invoices of SMEs that have none, and the credit check, which
compares the exposure and the new amount with the limit, passes too much.

* **`tracks_iff`**: when the exposure follows the open invoices;
* `checked_step`: what the credit check does check;
* **`withinLimit_iff`**: when the open invoices stay within the limit.
-/

namespace Kora.InvoiceNft

open Exec Run

/-! ## Exposure -/

section Exposure

/-- The exposure of `sme` is the sum of its open invoices. -/
def Tracks (sme : Address) (w : World) : Prop := w.books.exposure sme = w.books.outstanding sme

instance (sme : Address) (w : World) : Decidable (Tracks sme w) := by
  unfold Tracks; infer_instance

/-- The step mints no invoice for `sme`. -/
def NoMint (d : Deployment) (sme : Address) (w : World) (a : Action) : Prop :=
  ∀ terms, Mints d terms w a → terms.sme ≠ sme

variable {d : Deployment} {w : World} {sme : Address}

theorem exposure_nonpos_step (hw : BooksSound w) (hE : w.books.exposure sme ≤ 0) (a : Action) :
    (step d w a).books.exposure sme ≤ 0 := by
  obtain ⟨ev, hstep, -⟩ := books_step (d := d) hw a
  exact hstep.exposure_nonpos hw.positive hE

theorem tracks_step (hw : BooksSound w) (hE : w.books.exposure sme ≤ 0) (hQ : Tracks sme w)
    (a : Action) : Tracks sme (step d w a) ↔ NoMint d sme w a := by
  obtain ⟨ev, hstep, -, hev⟩ := books_step (d := d) hw a
  rw [Tracks, hstep.tracked hw.fresh hw.positive hE hQ]
  exact forall_congr' fun terms => imp_congr_left (mints_iff hev)

/-- **The exposure of an SME** is the sum of its open invoices in every state of a run exactly when
the run mints no invoice for it. -/
theorem tracks_iff (d : Deployment) (now : ℕ) (tokens : Tokens) (as : List Action)
    (sme : Address) :
    (∀ p, p <+: as → Tracks sme (run (step d) (genesis now tokens) p)) ↔
      Along (step d) (NoMint d sme) (genesis now tokens) as :=
  forall_prefix_iff (I := fun w : World => BooksSound w ∧ w.books.exposure sme ≤ 0)
    (Q := Tracks sme) (fun _ a hw => ⟨booksSound_step d hw.1 a, exposure_nonpos_step hw.1 hw.2 a⟩)
    (fun _ a hw hQ => tracks_step hw.1 hw.2 hQ a) ⟨booksSound_genesis now tokens, le_rfl⟩ rfl

/-- An open invoice of `10_000` leaves the exposure at zero. -/
theorem exposure_not_tracked : ¬ ∀ (d : Deployment) (now : ℕ) (tokens : Tokens)
    (as : List Action) (sme : Address), Tracks sme (run (step d) (genesis now tokens) as) := by
  intro h
  have htracks := h sample 0 sampleTokens (sampleSetup "USDC") 2
  revert htracks
  decide +kernel

end Exposure

/-! ## Credit limit -/

section CreditLimit

/-- The risk registry is wired, and `sme` is registered with the credit limit `limit`. -/
def CreditLimited (d : Deployment) (sme : Address) (limit : ℤ) (w : World) : Prop :=
  w.invoiceNft.riskRegistry = some d.riskRegistry ∧
    (w.riskRegistry.smeProfile sme).map SmeProfile.creditLimit = some limit

instance (d : Deployment) (sme : Address) (limit : ℤ) (w : World) :
    Decidable (CreditLimited d sme limit w) := by
  unfold CreditLimited; infer_instance

/-- A minting of the step passed the check of the recorded exposure. -/
def Checked (d : Deployment) (sme : Address) (limit : ℤ) (w : World) (a : Action) : Prop :=
  ∀ terms, Mints d terms w a → terms.sme = sme → w.books.exposure sme + terms.amount ≤ limit

/-- The new amount of a minting or an amendment of the step, together with the other open invoices
of `sme`, is within the limit. -/
def FitsLimit (d : Deployment) (sme : Address) (limit : ℤ) (w : World) (a : Action) : Prop :=
  ∀ op, Performs d w (.invoiceNft op) a → w.books.Fits sme limit op.event

variable {d : Deployment} {w : World} {sme : Address} {limit : ℤ}

theorem checked_step (hlimit : 0 < limit) (hw : CreditLimited d sme limit w) (a : Action) :
    Checked d sme limit w a := by
  rintro terms ⟨op, hop, he⟩ rfl
  obtain ⟨hwired, hmap⟩ := hw
  obtain ⟨profile, hprofile, rfl⟩ := Option.map_eq_some_iff.mp hmap
  cases a with
  | tick n => exact hop.elim
  | call c =>
    obtain ⟨w', h⟩ := Call.succeeds_iff.mp hop.1
    rw [hop.2] at h
    obtain ⟨s, hs, -⟩ := onInvoiceNft_ok.mp h
    cases op with
    | mintInvoice =>
      obtain ⟨id, s', hmint, -⟩ := bind_ok.mp hs
      cases he
      exact (mintInvoice_ok hmint).2.2.2.2.1 profile hwired hprofile hlimit
    | initializeContract | setRiskRegistry | migrate | setAuthorizedCallers | amendInvoice
    | withdrawInvoice | commitMetadataHash | setListed | setFunded | setRepaid | setDefaulted
    | freezeInvoice | unfreezeInvoice | addAllowedCurrency | removeAllowedCurrency => cases he

theorem withinLimit_step (hw : BooksSound w) (hle : w.books.outstanding sme ≤ limit)
    (a : Action) : (step d w a).books.outstanding sme ≤ limit ↔ FitsLimit d sme limit w a := by
  obtain ⟨ev, hstep, -, hev⟩ := books_step (d := d) hw a
  rw [hstep.fits hw.fresh hw.positive hle]
  rcases hev with ⟨op, hop, rfl⟩ | ⟨hnone, hev⟩
  · constructor
    · intro h op' hop'
      cases hop.unique hop'
      exact h
    · exact fun h => h op hop
  · refine iff_of_true ?_ fun op hop => absurd hop (hnone op)
    cases ev with
    | mint | amend => exact hev.elim
    | keep | commit | withdraw | list | fund | repay | default => trivial

/-- **The credit limit**: from a reachable state in which the open invoices of an SME are within its
limit, while the registry is wired and the limit stays, every minting passes the check of the
recorded exposure, and the open invoices are within the limit in every state of the run exactly
when every minting and every amendment fits under it together with the open invoices. -/
theorem withinLimit_iff (d : Deployment) (now : ℕ) (tokens : Tokens) (before as : List Action)
    (sme : Address) (limit : ℤ) (hlimit : 0 < limit)
    (hlimited : ∀ p, p <+: as →
      CreditLimited d sme limit (run (step d) (genesis now tokens) (before ++ p)))
    (hstart : (run (step d) (genesis now tokens) before).books.outstanding sme ≤ limit) :
    Along (step d) (Checked d sme limit) (run (step d) (genesis now tokens) before) as ∧
    ((∀ p, p <+: as →
        (run (step d) (genesis now tokens) (before ++ p)).books.outstanding sme ≤ limit) ↔
      Along (step d) (FitsLimit d sme limit) (run (step d) (genesis now tokens) before) as) := by
  simp only [run_append] at hlimited ⊢
  constructor
  · rw [along_iff_forall]
    intro p a hp
    exact checked_step hlimit (hlimited p ((List.prefix_append p [a]).trans hp)) a
  · exact forall_prefix_iff (I := BooksSound)
      (Q := fun w : World => w.books.outstanding sme ≤ limit)
      (fun _ a hw => booksSound_step d hw a) (fun _ a hw hQ => withinLimit_step hw hQ a)
      (booksSound_run d now tokens before) hstart

/-- The invoice contract checks credit limits, and SME `2` has the limit `10_000`. -/
def limitedSetup : List Action := [
  signed 1 (.accessControl (.initializeContract 1)),
  signed 1 (.invoiceNft (.initializeContract 1 101)),
  signed 1 (.riskRegistry (.initializeContract 1 102 50 0 0)),
  signed 1 (.invoiceNft (.setRiskRegistry 1 106)),
  .call ⟨[1, 6], .riskRegistry (.addVerifier 1 6 0)⟩,
  signed 6 (.riskRegistry (.registerSme 6 2 50 true)),
  signed 6 (.riskRegistry (.setCreditLimit 6 2 10_000))]

/-- SME `2` mints two invoices of `10_000`. -/
def mintedTwice : List Action := [
  signed 2 (.invoiceNft (.mintInvoice 2 [1] 10_000 "USDC" 1000 "cid" 50 none)),
  signed 2 (.invoiceNft (.mintInvoice 2 [1] 10_000 "USDC" 1000 "cid" 50 none))]

theorem limited_mintedTwice : ∀ p, p <+: mintedTwice →
    CreditLimited sample 2 10_000 (run (step sample) (genesis 0 sampleTokens)
      (limitedSetup ++ p)) := by
  have h : ∀ p ∈ mintedTwice.inits, CreditLimited sample 2 10_000
      (run (step sample) (genesis 0 sampleTokens) (limitedSetup ++ p)) := by decide +kernel
  exact fun p hp => h p ((List.mem_inits p mintedTwice).mpr hp)

theorem withinLimit_mintedTwice :
    Along (step sample) (Checked sample 2 10_000)
      (run (step sample) (genesis 0 sampleTokens) limitedSetup) mintedTwice ∧
    ((∀ p, p <+: mintedTwice →
        (run (step sample) (genesis 0 sampleTokens) (limitedSetup ++ p)).books.outstanding 2 ≤
          10_000) ↔
      Along (step sample) (FitsLimit sample 2 10_000)
        (run (step sample) (genesis 0 sampleTokens) limitedSetup) mintedTwice) :=
  withinLimit_iff sample 0 sampleTokens limitedSetup mintedTwice 2 10_000 (by decide)
    limited_mintedTwice (by decide +kernel)

/-- The open invoices reach twice the limit. -/
theorem over_limit : ¬ ∀ (d : Deployment) (now : ℕ) (tokens : Tokens) (before as : List Action)
    (sme : Address) (limit : ℤ), 0 < limit →
    (∀ p, p <+: as →
      CreditLimited d sme limit (run (step d) (genesis now tokens) (before ++ p))) →
    (run (step d) (genesis now tokens) before).books.outstanding sme ≤ limit →
    (run (step d) (genesis now tokens) (before ++ as)).books.outstanding sme ≤ limit := by
  intro h
  have hle := h sample 0 sampleTokens limitedSetup mintedTwice 2 10_000 (by decide)
    limited_mintedTwice (by decide +kernel)
  revert hle
  decide +kernel

end CreditLimit

end Kora.InvoiceNft
