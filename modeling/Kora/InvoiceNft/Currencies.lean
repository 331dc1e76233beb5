import Kora.InvoiceNft.Lifecycle
import Kora.InvoiceNft.Switches

set_option autoImplicit false

/-!
# The currency allowlist

The admin keeps a list of allowed currencies, and `requireAllowedCurrency` is the guard for it. No
entry point runs the guard, so a minting in a currency that is not on the list is refused only by
the other checks of `mintInvoice`.

* `mintInvoice_unguarded`: these checks do not read the list;
* `succeeds_mint_iff`: a minting succeeds exactly when they pass;
* `allowed_run`: the list holds what the admin did last;
* **`currencies_iff`**: when every minted currency is allowed.
-/

namespace Kora.InvoiceNft

open Exec Run

/-! ## Minting does not read the list -/

/-- What the contract sees of a ledger. -/
def seen (w : World) : State := ⟨w.invoiceNft, w.accessControl, w.riskRegistry⟩

/-- The state with another list of allowed currencies. -/
def State.withAllowlist (f : Symbol → Bool) (s : State) : State :=
  { s with own := { s.own with currencyAllowlist := f } }

section Minting

variable {env : Env} {s t : State} {d : Deployment} {w : World} {c : Call} {sme : Address}
  {hash : Bytes} {amount : ℤ} {currency : Symbol} {due score id : ℕ} {cid : String}
  {notes : Option String}

/-- What minting checks does not depend on the list. -/
theorem MintGuards.withAllowlist (f : Symbol → Bool)
    (h : MintGuards env s sme hash amount due cid score) :
    MintGuards env (s.withAllowlist f) sme hash amount due cid score := by
  obtain ⟨⟨ha, hac, hp⟩, hlock, hpos, hdue, hscore, hh, hhl, hc, hcl, hcredit, hn⟩ := h
  exact ⟨⟨ha, hac, hp⟩, hlock, hpos, hdue, hscore, hh, hhl, hc, hcl, hcredit, hn⟩

/-- **Every minting that succeeds also does where the guard refuses its currency.** -/
theorem mintInvoice_unguarded
    (h : mintInvoice sme hash amount currency due cid score notes env s = .ok id t) :
    mintInvoice sme hash amount currency due cid score notes env (s.withAllowlist fun _ => false) =
        .ok id (t.withAllowlist fun _ => false) ∧
      (requireAllowedCurrency currency env (s.withAllowlist fun _ => false)).isOk = false := by
  obtain ⟨hguards, hid, rfl⟩ := mintInvoice_iff.mp h
  exact ⟨mintInvoice_iff.mpr ⟨hguards.withAllowlist _, hid, rfl⟩, rfl⟩

theorem succeeds_mint_iff
    (hc : c.entry = .invoiceNft (.mintInvoice sme hash amount currency due cid score notes)) :
    c.Succeeds d w ↔ MintGuards (c.env d w) (seen w) sme hash amount due cid score := by
  rw [Call.succeeds_iff, hc]
  constructor
  · rintro ⟨w', h⟩
    obtain ⟨t, h, -⟩ := onInvoiceNft_ok.mp h
    obtain ⟨id, _, h, -⟩ := bind_ok.mp h
    exact (mintInvoice_iff.mp h).1
  · intro h
    obtain ⟨id, t, hmint⟩ : ∃ id t, mintInvoice sme hash amount currency due cid score notes
        (c.env d w) (seen w) = .ok id t := ⟨_, _, mintInvoice_iff.mpr ⟨h, rfl, rfl⟩⟩
    exact ⟨_, onInvoiceNft_ok.mpr ⟨t, bind_ok.mpr ⟨id, t, hmint, rfl⟩, rfl⟩⟩

end Minting

/-! ## The list -/

/-- Every successful minting of the step is in an allowed currency. -/
def MintsAllowed (d : Deployment) (w : World) (a : Action) : Prop :=
  ∀ terms, Mints d terms w a → w.invoiceNft.currencyAllowlist terms.currency = true

/-- What the run `as` set last for the currency: allowed, or removed. -/
def lastAllowed (d : Deployment) (currency : Symbol) (s : World) (as : List Action) :
    Option Bool := latest (step d) (switchedBy d (Op.allows currency)) s as

/-- **The list holds what the admin did last.** -/
theorem allowed_run (d : Deployment) (now : ℕ) (tokens : Tokens) (as : List Action)
    (currency : Symbol) :
    (run (step d) (genesis now tokens) as).invoiceNft.currencyAllowlist currency = true ↔
      lastAllowed d currency (genesis now tokens) as = some true := by
  have hlatest : some ((run (step d) (genesis now tokens) as).invoiceNft.currencyAllowlist
        currency) = (latest (step d) (switchedBy d (Op.allows currency)) (genesis now tokens)
      as).or (some ((genesis now tokens).invoiceNft.currencyAllowlist currency)) := by
    refine latest_rule (g := fun w : World => some (w.invoiceNft.currencyAllowlist currency))
      (fun w a => ?_) _ as
    simp only [allowed_step]
    cases switchedBy d (Op.allows currency) w a <;> rfl
  rw [lastAllowed, ← Option.some_inj, hlatest]
  cases latest (step d) (switchedBy d (Op.allows currency)) (genesis now tokens) as with
  | none => exact iff_of_false nofun nofun
  | some b => exact Iff.rfl

/-- A minting in a currency that is not on the list is refused by one of the checks that
`mintInvoice` makes. -/
def RefusesUnlisted (d : Deployment) (w : World) : Action → Prop
  | .call c => ∀ sme hash amount currency due cid score notes,
    c.entry = .invoiceNft (.mintInvoice sme hash amount currency due cid score notes) →
    w.invoiceNft.currencyAllowlist currency = false →
    ¬ MintGuards (c.env d w) (seen w) sme hash amount due cid score
  | .tick _ => True

theorem mintsAllowed_iff {d : Deployment} {w : World} {a : Action} :
    MintsAllowed d w a ↔ RefusesUnlisted d w a := by
  cases a with
  | tick n => exact iff_of_true (fun _ ⟨_, h, _⟩ => h.elim) trivial
  | call c =>
    constructor
    · intro h sme hash amount currency due cid score notes hc hlist hguards
      have hallowed := h ⟨sme, hash, amount, currency, due, cid, score, [], notes⟩
        ⟨_, ⟨(succeeds_mint_iff hc).mpr hguards, hc⟩, rfl⟩
      rw [hlist] at hallowed
      cases hallowed
    · rintro h terms ⟨op, ⟨hs, hc⟩, hmint⟩
      cases op with
      | mintInvoice sme hash amount currency due cid score notes =>
        cases hmint
        by_contra hlist
        exact h _ _ _ _ _ _ _ _ hc (Bool.eq_false_iff.mpr hlist) ((succeeds_mint_iff hc).mp hs)
      | _ => cases hmint

/-- **Every minted currency is allowed at that moment**: in a run the list holds what the admin did
last, and every minting of the run is in a currency on the list exactly when every minting in
another currency is refused by one of the checks that `mintInvoice` makes. -/
theorem currencies_iff (d : Deployment) (now : ℕ) (tokens : Tokens) (as : List Action) :
    (∀ p currency,
      (run (step d) (genesis now tokens) p).invoiceNft.currencyAllowlist currency = true ↔
        lastAllowed d currency (genesis now tokens) p = some true) ∧
    (Along (step d) (MintsAllowed d) (genesis now tokens) as ↔
      Along (step d) (RefusesUnlisted d) (genesis now tokens) as) := by
  refine ⟨allowed_run d now tokens, ?_⟩
  simp only [along_iff_forall, mintsAllowed_iff]

/-- The sample deployment before the minting; no currency was ever allowed. -/
def sampleDeployed : List Action := (sampleSetup "USDC").take 12

/-- SME `2` mints an invoice in `USDC`. -/
def mintingUsdc : Action :=
  signed 2 (.invoiceNft (.mintInvoice 2 [1] 10_000 "USDC" 1000 "cid" 50 none))

/-- An invoice is minted in a currency that is not on the list. -/
theorem currency_not_allowed : ¬ ∀ (d : Deployment) (now : ℕ) (tokens : Tokens)
    (as : List Action), Along (step d) (MintsAllowed d) (genesis now tokens) as := by
  intro h
  have hmints : Mints sample ⟨2, [1], 10_000, "USDC", 1000, "cid", 50, [], none⟩
      (run (step sample) (genesis 0 sampleTokens) sampleDeployed) mintingUsdc :=
    ⟨_, ⟨by decide +kernel, rfl⟩, rfl⟩
  have hallowed := along_iff_forall.mp (h sample 0 sampleTokens (sampleDeployed ++ [mintingUsdc]))
    sampleDeployed mintingUsdc (List.prefix_refl _) _ hmints
  exact absurd hallowed (by decide +kernel)

end Kora.InvoiceNft
