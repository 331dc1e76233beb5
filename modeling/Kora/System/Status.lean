import Kora.FinancingPool.Change

set_option autoImplicit false

/-!
# What a transaction does to the invoices

The invoice contract is written by its own entry points, by the marketplace when it lists an
invoice, and by the pool when it opens, closes or defaults one.

* **`Effect.nftChange`**: there are no other ways;
* `NftChange.wellFormed`, `NftChange.wired`: what they keep;
* `NftChange.financed`: a financed invoice stays financed;
* **`invoicesSound_run`**: in every run the records are well formed and no contract owns one.
-/

namespace Kora

open Exec

/-- What a successful transaction does to the invoice contract. -/
inductive NftChange (env : Env) (w w' : World) : Entry → Prop
  | same (e : Entry) : w'.invoiceNft = w.invoiceNft → NftChange env w w' e
  | own (op : InvoiceNft.Op) : InvoiceNft.Effect op env w.invoiceNft w'.invoiceNft →
      NftChange env w w' (.invoiceNft op)
  | listed (seller : Address) (i : ℕ) (price face : ℤ) (token : Address) (deadline : ℕ)
      (referrer : Option Address) : w'.marketplace.listing i ≠ none →
      w.invoiceNft.Moved w'.invoiceNft i .created .listed →
      NftChange env w w' (.marketplace (.listInvoice seller i price face token deadline referrer))
  | funded (e : Entry) (i : ℕ) : w.pool.pool i = none → w'.pool.pool i ≠ none →
      w.invoiceNft.Moved w'.invoiceNft i .listed .funded → NftChange env w w' e
  | repaid (e : Entry) (i : ℕ) : FinancingPool.DealsWith i e →
      w.invoiceNft.Moved w'.invoiceNft i .funded .repaid → NftChange env w w' e
  | defaulted (admin : Address) (i : ℕ) (token : Address) :
      w.invoiceNft.Moved w'.invoiceNft i .funded .defaulted →
      NftChange env w w' (.pool (.markDefault admin i token))

section Classification

variable {env : Env} {w w' : World} {u : Unit} {e : Entry} {i : ℕ}

theorem FinancingPool.Op.Repays.dealsWith {op : FinancingPool.Op} (h : op.Repays i) :
    FinancingPool.DealsWith i (.pool op) := by
  cases op with
  | repay | acceptEarlySettlement => exact h
  | _ => exact h.elim

theorem FinancingPool.Notice.nftChange {op : FinancingPool.Op}
    (h : FinancingPool.Notice env w w' op) : NftChange env w w' (.pool op) := by
  cases h with
  | silent _ hnft => exact .same _ hnft
  | funded marketplace j token inv hnone hsome hinv hst hnft =>
    refine .funded _ j hnone hsome ?_
    rw [hnft]
    exact InvoiceNft.Storage.moved_asFunded hinv hst
  | repaid _ j inv hop hinv hst hnft =>
    refine .repaid _ j hop.dealsWith ?_
    rw [hnft]
    exact InvoiceNft.Storage.moved_asRepaid hinv hst
  | defaulted admin j token inv hinv hst _ hnft =>
    refine .defaulted admin j token ?_
    rw [hnft]
    exact InvoiceNft.Storage.moved_asDefaulted hinv hst

theorem Effect.nftChange (hS : w.invoiceNft.WellFormed) (h : Effect env w w' e) :
    NftChange env w w' e := by
  cases h with
  | peripheral e _ _ _ hnft => exact .same e hnft
  | invoiceNft op s hs hw =>
    obtain rfl := hw
    have heffect := InvoiceNft.Op.exec_effect (by exact hS) hs
    exact .own op heffect
  | pool op hop => exact (FinancingPool.Op.exec_outside hop).notice.nftChange
  | listing seller j price face token deadline referrer config inv _ _ _ _ _ _ hinv hst hw =>
    obtain rfl := hw
    exact .listed seller j price face token deadline referrer (by simp)
      (InvoiceNft.Storage.moved_asListed hinv hst)
  | funding investor j amount listing config inv fee hF =>
    rcases lt_or_ge (listing.fundedAmount + amount) listing.askingPrice with hlt | hge
    · exact .same _ (hF.unreleased hlt).2
    · obtain ⟨-, hnone, -, hst, -, bps, hpool, hnft⟩ := hF.released hge
      refine .funded _ j hnone ?_ ?_
      · rw [hpool]
        simp
      · rw [hnft]
        exact InvoiceNft.Storage.moved_asFunded hF.invoice hst
  | market op _ _ _ hnft => exact .same _ hnft

theorem NftChange.wellFormed (h : NftChange env w w' e) (hS : w.invoiceNft.WellFormed) :
    w'.invoiceNft.WellFormed := by
  cases h with
  | same _ h => rwa [h]
  | own op h => exact h.wellFormed
  | listed _ _ _ _ _ _ _ _ h => exact h.wellFormed hS
  | funded _ _ _ _ h => exact h.wellFormed hS
  | repaid _ _ _ h => exact h.wellFormed hS
  | defaulted _ _ _ h => exact h.wellFormed hS

theorem NftChange.wired (h : NftChange env w w' e) {d : Deployment}
    (hk : ∀ op, e = .invoiceNft op → op.KeepsWiring d) (hS : w.invoiceNft.Wired d) :
    w'.invoiceNft.Wired d := by
  cases h with
  | same _ h => rwa [h]
  | own op h => exact h.wired d (hk op rfl) hS
  | listed _ _ _ _ _ _ _ _ h => exact h.wired hS
  | funded _ _ _ _ h => exact h.wired hS
  | repaid _ _ _ h => exact h.wired hS
  | defaulted _ _ _ h => exact h.wired hS

theorem InvoiceNft.Storage.Moved.financed {S T : InvoiceNft.Storage} {j : ℕ}
    {a b : InvoiceStatus} (h : S.Moved T j a b)
    (hab : InvoiceNft.Financed (some a) → InvoiceNft.Financed (some b) ∧ b ≠ .funded)
    (hf : InvoiceNft.Financed (S.status i)) :
    InvoiceNft.Financed (T.status i) ∧ (T.status i = some .funded → S.status i = some .funded) := by
  have hold := (h.status i).1
  rw [(h.status i).2]
  split_ifs with hi
  · subst hi
    rw [hold] at hf
    obtain ⟨hfin, hne⟩ := hab hf
    exact ⟨hfin, fun h => absurd (Option.some.inj h) hne⟩
  · exact ⟨hf, fun h => h⟩

theorem NftChange.financed (h : NftChange env w w' e) (hS : w.invoiceNft.WellFormed)
    (hf : InvoiceNft.Financed (w.invoiceNft.status i)) :
    InvoiceNft.Financed (w'.invoiceNft.status i) ∧
      (w'.invoiceNft.status i = some .funded → w.invoiceNft.status i = some .funded) := by
  cases h with
  | same _ h =>
    rw [h]
    exact ⟨hf, fun h => h⟩
  | own op h => exact h.financed hS hf
  | listed _ _ _ _ _ _ _ _ h => exact h.financed (by simp [InvoiceNft.Financed]) hf
  | funded _ _ _ _ h => exact h.financed (by simp [InvoiceNft.Financed]) hf
  | repaid _ _ _ h => exact h.financed (by simp [InvoiceNft.Financed]) hf
  | defaulted _ _ _ h => exact h.financed (by simp [InvoiceNft.Financed]) hf

theorem NftChange.ownedOutside (h : NftChange env w w' e) {A : List Address}
    (hA : ∀ a ∈ A, ¬ env.Authenticates a) (hS : w.invoiceNft.OwnedOutside A) :
    w'.invoiceNft.OwnedOutside A := by
  cases h with
  | same _ h => rwa [h]
  | own op h => exact h.ownedOutside hA hS
  | listed _ _ _ _ _ _ _ _ h => exact h.ownedOutside hS
  | funded _ _ _ _ h => exact h.ownedOutside hS
  | repaid _ _ _ h => exact h.ownedOutside hS
  | defaulted _ _ _ h => exact h.ownedOutside hS

end Classification

/-! ## Runs -/

/-- The invoices are well formed, and no contract owns one. -/
structure InvoicesSound (d : Deployment) (w : World) : Prop where
  wellFormed : w.invoiceNft.WellFormed
  owned : w.invoiceNft.OwnedOutside d.contracts

section Runs

variable {d : Deployment} {w : World}

theorem invoicesSound_step (hw : InvoicesSound d w) (a : Action) :
    InvoicesSound d (step d w a) := by
  rcases step_cases d w a with ⟨c, rfl, -, h⟩ | ⟨n, rfl, h⟩ | ⟨c, rfl, -, h⟩
  · have hn := (Entry.exec_effect h).nftChange hw.wellFormed
    exact ⟨hn.wellFormed hw.wellFormed,
      hn.ownedOutside (fun _ => Call.not_authenticates) hw.owned⟩
  · rw [h]
    exact ⟨hw.wellFormed, hw.owned⟩
  · rwa [h]

theorem wellFormed_genesis (now : ℕ) (tokens : Tokens) :
    (genesis now tokens).invoiceNft.WellFormed where
  fresh := fun _ _ => rfl
  current := by rintro _ _ ⟨⟩
  uninit := fun _ => ⟨rfl, fun _ => rfl⟩

theorem invoicesSound_genesis (d : Deployment) (now : ℕ) (tokens : Tokens) :
    InvoicesSound d (genesis now tokens) :=
  ⟨wellFormed_genesis now tokens, by rintro _ _ ⟨⟩⟩

theorem invoicesSound_run (d : Deployment) (now : ℕ) (tokens : Tokens) (as : List Action) :
    InvoicesSound d (Run.run (step d) (genesis now tokens) as) :=
  Run.always (I := InvoicesSound d) (fun _ a hw => invoicesSound_step hw a)
    (invoicesSound_genesis d now tokens) as

end Runs

end Kora
