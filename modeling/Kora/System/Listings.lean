import Kora.FinancingPool.Ledger
import Kora.InvoiceNft.Lifecycle
import Kora.System.Joint

set_option autoImplicit false

/-!
# What a listing says about its invoice

A listing copies the amount of a created invoice and names the caller as the seller. It fixes the
terms of the invoice, so the copies stay what they were when they were made.

* `listing_step`: where a listing comes from;
* `Shown`, `shown_step`: the invoice of a listing is fixed, with the listed face value;
* `ListsOwn`, **`sellers_own_iff`**: sellers own what they sell exactly when they list their own;
* **`face_values_agree`**: invoice, listing and pool name one face value.
-/

namespace Kora

open Exec Run InvoiceNft

/-! ## Statement -/

/-- The seller lists an invoice of its own. -/
def ListsOwn (w : World) : Entry → Prop
  | .marketplace (.listInvoice seller i _ _ _ _ _) =>
    ∀ inv ∈ w.invoiceNft.current i, inv.sme = seller
  | _ => True

instance (w : World) (e : Entry) : Decidable (ListsOwn w e) := by
  unfold ListsOwn
  split <;> infer_instance

/-- A successful listing is by the owner of the invoice. -/
def OwnersList (d : Deployment) (w : World) : Action → Prop
  | .call c => c.Succeeds d w → ListsOwn w c.entry
  | .tick _ => True

instance (d : Deployment) (w : World) (a : Action) : Decidable (OwnersList d w a) :=
  match a with
  | .call c => inferInstanceAs (Decidable (c.Succeeds d w → ListsOwn w c.entry))
  | .tick _ => inferInstanceAs (Decidable True)

/-- The seller of every listing owns the invoice. -/
def SellersOwn (w : World) : Prop :=
  ∀ i l, w.marketplace.listing i = some l →
    ∃ inv, w.invoiceNft.invoice i = some (.current inv) ∧ inv.sme = l.seller

/-- The invoice of every listing has left `created`, with the listed face value. -/
def Shown (w : World) : Prop :=
  ∀ i l, w.marketplace.listing i = some l →
    ∃ inv, w.invoiceNft.invoice i = some (.current inv) ∧ inv.status ≠ .created ∧
      inv.amount = l.faceValue ∧ l.askingPrice < l.faceValue

/-! ## Steps -/

section Steps

variable {d : Deployment} {w : World} {i : ℕ} {l' : Listing}

/-- The invoice `inv` is listed at the face value it has. -/
structure Lists (d : Deployment) (w : World) (a : Action) (i : ℕ) (l' : Listing) (inv : Invoice) :
    Prop where
  performs : ∃ token deadline referrer, Performs d w (.marketplace
    (.listInvoice l'.seller i l'.askingPrice l'.faceValue token deadline referrer)) a
  invoice : w.invoiceNft.invoice i = some (.current inv)
  amount : inv.amount = l'.faceValue
  discounted : l'.askingPrice < l'.faceValue
  listed : (step d w a).invoiceNft.invoice i = some (.current { inv with status := .listed })

/-- **Where a listing comes from**: it was there before, with its seller and its prices, or the
step lists the invoice. -/
theorem listing_step (d : Deployment) (w : World) (a : Action)
    (hl' : (step d w a).marketplace.listing i = some l') :
    (∃ l, w.marketplace.listing i = some l ∧ l'.seller = l.seller ∧
        l'.askingPrice = l.askingPrice ∧ l'.faceValue = l.faceValue) ∨
      ∃ inv, Lists d w a i l' inv := by
  rcases step_cases d w a with ⟨c, rfl, hs, hexec⟩ | ⟨n, rfl, h⟩ | ⟨c, rfl, -, h⟩
  · have hchange := Marketplace.change_of_effect (Entry.exec_effect hexec) i
    generalize he : c.entry = e at hchange
    cases hchange with
    | frame _ _ h => exact Or.inl ⟨l', h.listing ▸ hl', rfl, rfl, rfl⟩
    | funded _ _ l _ _ _ h =>
      rw [h.listing] at hl'
      cases hl'
      exact Or.inl ⟨l, h.listed, rfl, rfl, rfl⟩
    | deactivated _ l _ _ h =>
      rw [h.listing] at hl'
      cases hl'
      exact Or.inl ⟨l, h.found, rfl, rfl, rfl⟩
    | refunded _ _ _ _ h => exact Or.inl ⟨l', h.listing ▸ hl', rfl, rfl, rfl⟩
    | listed seller price face token deadline referrer h =>
      rw [h.listing] at hl'
      cases hl'
      rw [he] at hexec
      obtain ⟨-, hlt, -, -, -, _, inv, -, hinv, -, hface, hw⟩ :=
        Marketplace.listInvoice_ok hexec
      refine Or.inr ⟨inv, ⟨token, deadline, referrer, hs, he⟩, hinv, hface, hlt, ?_⟩
      rw [hw]
      exact Function.update_self ..
  · rw [h] at hl'
    exact Or.inl ⟨l', hl', rfl, rfl, rfl⟩
  · rw [h] at hl'
    exact Or.inl ⟨l', hl', rfl, rfl, rfl⟩

theorem fixed_invoice_step (hw : BooksSound w) {inv : Invoice}
    (hinv : w.invoiceNft.invoice i = some (.current inv)) (hs : inv.status ≠ .created)
    (a : Action) : ∃ inv', (step d w a).invoiceNft.invoice i = some (.current inv') ∧
      inv'.status ≠ .created ∧ termsOf inv' = termsOf inv := by
  obtain ⟨inv', hinv', hs', hterms⟩ := fixed_step (d := d) hw
    ⟨inv, Storage.current_of_current hinv, hs, rfl⟩ a
  exact ⟨inv', Storage.of_current hinv', hs', hterms⟩

/-- **Listings keep showing their invoices.** -/
theorem shown_step (hw : BooksSound w) (hs : Shown w) (a : Action) : Shown (step d w a) := by
  intro i l' hl'
  rcases listing_step d w a hl' with ⟨l, hl, -, hasking, hface⟩ | ⟨inv, h⟩
  · obtain ⟨inv, hinv, hst, hamount, hlt⟩ := hs i l hl
    obtain ⟨inv', hinv', hst', hterms⟩ := fixed_invoice_step (d := d) hw hinv hst a
    have hsame : inv'.amount = inv.amount := congrArg Terms.amount hterms
    refine ⟨inv', hinv', hst', ?_, ?_⟩
    · rw [hsame, hamount, hface]
    · rw [hasking, hface]
      exact hlt
  · exact ⟨_, h.listed, by simp, h.amount, h.discounted⟩

/-- **One step keeps the sellers owners exactly when a listing is by the owner.** -/
theorem sellersOwn_step (hw : BooksSound w) (hs : Shown w) (hq : SellersOwn w) (a : Action) :
    SellersOwn (step d w a) ↔ OwnersList d w a := by
  constructor
  · intro h
    cases a with
    | tick n => trivial
    | call c =>
      intro hsucceeds
      obtain ⟨w', hexec⟩ := Call.succeeds_iff.mp hsucceeds
      rw [step_call_of_ok hexec] at h
      unfold ListsOwn
      split
      · rename_i seller i price face token deadline referrer he
        rw [he] at hexec
        obtain ⟨-, -, -, -, -, _, inv, -, hinv, -, -, rfl⟩ := Marketplace.listInvoice_ok hexec
        intro inv₁ hinv₁
        obtain ⟨inv', hinv', hsme⟩ := h i _ (Function.update_self ..)
        have hlisted : (w.invoiceNft.asListed i inv).invoice i =
            some (.current { inv with status := .listed }) := Function.update_self ..
        cases hlisted.symm.trans hinv'
        rw [Storage.current_of_current hinv] at hinv₁
        cases hinv₁
        exact hsme
      · trivial
  · intro howners i l' hl'
    rcases listing_step d w a hl' with ⟨l, hl, hseller, -, -⟩ | ⟨inv, h⟩
    · obtain ⟨inv, hinv, hst, -, -⟩ := hs i l hl
      obtain ⟨inv₁, hinv₁, hsme⟩ := hq i l hl
      rw [hinv] at hinv₁
      cases hinv₁
      obtain ⟨inv', hinv', -, hterms⟩ := fixed_invoice_step (d := d) hw hinv hst a
      refine ⟨inv', hinv', ?_⟩
      rw [hseller, ← hsme]
      exact congrArg Terms.sme hterms
    · obtain ⟨token, deadline, referrer, hperforms⟩ := h.performs
      refine ⟨_, h.listed, ?_⟩
      cases a with
      | tick n => exact hperforms.elim
      | call c =>
        have hown := howners hperforms.1
        rw [hperforms.2] at hown
        exact hown inv (Storage.current_of_current h.invoice)

theorem listing_stays (d : Deployment) (w : World) (a : Action) {l : Listing}
    (hl : w.marketplace.listing i = some l) : ∃ l', (step d w a).marketplace.listing i = some l' ∧
      l'.faceValue = l.faceValue := by
  rcases Marketplace.step_change d w a i with ⟨c, rfl, -, hchange⟩ | ⟨-, n, -, h⟩
  · generalize c.entry = e at hchange
    cases hchange with
    | frame _ _ h => exact ⟨l, h.listing.trans hl, rfl⟩
    | listed _ _ _ _ _ _ h =>
      rw [h.unlisted] at hl
      cases hl
    | funded _ _ l₁ _ _ _ h =>
      obtain rfl : l = l₁ := Option.some.inj (hl.symm.trans h.listed)
      exact ⟨_, h.listing, rfl⟩
    | deactivated _ l₁ _ _ h =>
      obtain rfl : l = l₁ := Option.some.inj (hl.symm.trans h.found)
      exact ⟨_, h.listing, rfl⟩
    | refunded _ _ _ _ h => exact ⟨l, h.listing.trans hl, rfl⟩
  · rw [h]
    exact ⟨l, hl, rfl⟩

theorem FinancingPool.Opening.amount {env : Env} {w' : World} {e : Entry} {token : Address}
    {face : ℤ} {bps : ℕ} (h : FinancingPool.Opening i w w' token face bps)
    (hby : FinancingPool.OpenedBy i w' token e) (hexec : e.exec env w = .ok () w') :
    ∃ inv, w.invoiceNft.invoice i = some (.current inv) ∧ inv.amount = face := by
  have hpool := h.pool
  cases hby with
  | release marketplace =>
    obtain ⟨-, -, -, inv, bps', hinv, -, -, rfl⟩ := FinancingPool.releaseFunds_ok hexec
    have hopened := congrArg (Option.map Pool.faceValue) hpool
    simp only [Function.update_self, Option.map_some, Option.some.injEq] at hopened
    exact ⟨inv, hinv, hopened⟩
  | funding investor amount l hl hfull =>
    obtain ⟨l₀, config, inv, fee, hF⟩ := Marketplace.fundInvoice_ok hexec
    have hlisting := hF.listing
    rw [hl] at hlisting
    cases hlisting
    obtain ⟨-, -, -, -, -, bps', hopen, -⟩ := hF.released hfull.ge
    rw [hopen] at hpool
    have hopened := congrArg (Option.map Pool.faceValue) hpool
    simp only [Function.update_self, Option.map_some, Option.some.injEq] at hopened
    exact ⟨inv, hF.invoice, hopened⟩

/-- Every pool has a listing with its face value. -/
def Pooled (w : World) : Prop :=
  ∀ i p, w.pool.pool i = some p →
    ∃ l, w.marketplace.listing i = some l ∧ p.faceValue = l.faceValue

/-- **Pools keep the face value of their listings.** -/
theorem pooled_step (hJ : Joint d w) (hs : Shown w) (hp : Pooled w) (a : Action) :
    Pooled (step d w a) := by
  intro i p' hp'
  cases hpool : w.pool.pool i with
  | some p =>
    obtain ⟨l, hl, hface⟩ := hp i p hpool
    obtain ⟨l', hl', hsame⟩ := listing_stays d w a hl
    have hstep := FinancingPool.pool_step d w a i
    rw [hpool, hp'] at hstep
    obtain ⟨_, ⟨⟩, hkept⟩ := hstep.faceValue
    exact ⟨l', hl', by rw [hkept, hface, hsame]⟩
  | none =>
    rcases step_cases d w a with ⟨c, rfl, -, hexec⟩ | ⟨n, rfl, h⟩ | ⟨c, rfl, -, h⟩
    · have hchange := FinancingPool.change_of_effect (Entry.exec_effect hexec) i
      rcases hchange.token with htoken | ⟨token, face, bps, hopen, hby⟩
      · rw [hpool, hp'] at htoken
        cases htoken
      · -- a listed invoice has a listing, which shows its amount
        obtain ⟨l, hl⟩ := Option.ne_none_iff_exists'.mp (hJ.listed i hopen.listed)
        obtain ⟨inv, hinv, hamount⟩ := hopen.amount hby hexec
        obtain ⟨inv₁, hinv₁, -, hshown, -⟩ := hs i l hl
        rw [hinv] at hinv₁
        cases hinv₁
        obtain ⟨l', hl', hsame⟩ := listing_stays d w (.call c) hl
        have hopened := hopen.pool
        rw [hp'] at hopened
        cases hopened
        exact ⟨l', hl', by rw [hsame, ← hshown, hamount]⟩
    · rw [h, hpool] at hp'
      cases hp'
    · rw [h, hpool] at hp'
      cases hp'

end Steps

/-! ## Runs -/

theorem shown_genesis (now : ℕ) (tokens : Tokens) : Shown (genesis now tokens) := by
  rintro _ _ ⟨⟩

/-- **Only the owner sells**: in every state of a run the seller of every listing is the SME of the
invoice, exactly when every invoice of the run is listed by its SME. -/
theorem sellers_own_iff (d : Deployment) (now : ℕ) (tokens : Tokens) (as : List Action) :
    (∀ p, p <+: as → SellersOwn (run (step d) (genesis now tokens) p)) ↔
      Along (step d) (OwnersList d) (genesis now tokens) as := by
  have hgenesis : SellersOwn (genesis now tokens) := by
    rintro _ _ ⟨⟩
  exact forall_prefix_iff (I := fun w => BooksSound w ∧ Shown w) (Q := SellersOwn)
    (fun w a hw => ⟨booksSound_step d hw.1 a, shown_step hw.1 hw.2 a⟩)
    (fun w a hw hq => sellersOwn_step hw.1 hw.2 hq a)
    ⟨booksSound_genesis now tokens, shown_genesis now tokens⟩ hgenesis

/-- The invoice of SME `2` is minted, and account `7`, also attested, lists it. -/
def listedByOther : List Action := (sampleSetup "USDC").dropLast ++ [
  signed 6 (.riskRegistry (.registerSme 6 7 50 true)),
  signed 7 (.marketplace (.listInvoice 7 1 9_000 10_000 50 500 none))]

/-- Somebody else sells the invoice. -/
theorem seller_not_owner : ¬ ∀ (d : Deployment) (now : ℕ) (tokens : Tokens) (as : List Action),
    SellersOwn (run (step d) (genesis now tokens) as) := by
  intro h
  have hlisted : (run (step sample) (genesis 0 sampleTokens) listedByOther).marketplace.listing 1 =
      some ⟨1, 7, 9_000, 10_000, 50, 0, 500, true⟩ := by decide +kernel
  have hsme : ((run (step sample) (genesis 0 sampleTokens) listedByOther).invoiceNft.current 1).map
      Invoice.sme = some 2 := by decide +kernel
  obtain ⟨inv, hinv, hseller⟩ := h sample 0 sampleTokens listedByOther 1 _ hlisted
  have hcurrent := Storage.current_of_current hinv
  rw [hcurrent, Option.map_some, hseller] at hsme
  exact absurd hsme (by decide)

/-- **Face-value agreement**: while the invoice contract takes calls from the marketplace and the
pool only, the invoice of every listing has left `created` and has the listed face value, and every
pool has a listing with its face value, which is above the asking price and at most what is owed. -/
theorem face_values_agree (d : Deployment) (now : ℕ) (tokens : Tokens) (as : List Action)
    (hk : ∀ a ∈ as, KeepsWiring d a) :
    (∀ i l, (run (step d) (genesis now tokens) as).marketplace.listing i = some l →
      ∃ inv, (run (step d) (genesis now tokens) as).invoiceNft.invoice i = some (.current inv) ∧
        inv.status ≠ .created ∧ inv.amount = l.faceValue) ∧
    ∀ i p, (run (step d) (genesis now tokens) as).pool.pool i = some p →
      ∃ l, (run (step d) (genesis now tokens) as).marketplace.listing i = some l ∧
        p.faceValue = l.faceValue ∧ l.askingPrice < p.faceValue ∧ p.faceValue ≤ p.totalOwed := by
  have hpooled : Pooled (genesis now tokens) := by
    rintro _ _ ⟨⟩
  obtain ⟨-, -, hs, hp⟩ := invariant
    (I := fun w => Joint d w ∧ BooksSound w ∧ Shown w ∧ Pooled w) (C := fun _ a => KeepsWiring d a)
    (fun w a hw hk => ⟨joint_step hw.1 a hk, booksSound_step d hw.2.1 a,
      shown_step hw.2.1 hw.2.2.1 a, pooled_step hw.1 hw.2.2.1 hw.2.2.2 a⟩)
    ⟨joint_genesis d now tokens, booksSound_genesis now tokens, shown_genesis now tokens, hpooled⟩
    (along_of_forall hk)
  refine ⟨fun i l hl => ?_, fun i p hpool => ?_⟩
  · obtain ⟨inv, hinv, hst, hamount, -⟩ := hs i l hl
    exact ⟨inv, hinv, hst, hamount⟩
  · obtain ⟨l, hl, hface⟩ := hp i p hpool
    obtain ⟨-, -, -, -, hlt⟩ := hs i l hl
    have haccounted := FinancingPool.poolsAccounted_run d now tokens as i p hpool
    refine ⟨l, hl, hface, ?_, haccounted.le_owed⟩
    rw [hface]
    exact hlt

theorem face_values_sample :
    (∀ i l, (run (step sample) (genesis 0 sampleTokens) (sampleFunding "USDC")).marketplace.listing
        i = some l →
      ∃ inv, (run (step sample) (genesis 0 sampleTokens) (sampleFunding "USDC")).invoiceNft.invoice
          i = some (.current inv) ∧ inv.status ≠ .created ∧ inv.amount = l.faceValue) ∧
    ∀ i p, (run (step sample) (genesis 0 sampleTokens) (sampleFunding "USDC")).pool.pool i =
        some p →
      ∃ l, (run (step sample) (genesis 0 sampleTokens) (sampleFunding "USDC")).marketplace.listing
          i = some l ∧
        p.faceValue = l.faceValue ∧ l.askingPrice < p.faceValue ∧ p.faceValue ≤ p.totalOwed :=
  face_values_agree sample 0 sampleTokens (sampleFunding "USDC") (by decide +kernel)

end Kora
