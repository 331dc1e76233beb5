import Kora.Marketplace.Accounting
import Kora.System.Status

set_option autoImplicit false

/-!
# The joint state of the contracts

While the invoice contract takes lifecycle calls only from the marketplace and the pool, the three
contracts move an invoice together.

* `KeepsWiring`: the admin sets no other authorised callers;
* `StatusChange`, **`NftChange.status`**: how the status of an invoice changes;
* `Joint`, **`joint_step`**: a pool exists exactly for financed invoices, a listed invoice has a
  listing, and a listing that reached its price has a pool.
-/

namespace Kora

open Exec Run

/-- The step sets no authorised callers of the invoice contract but the marketplace and the pool. -/
def KeepsWiring (d : Deployment) : Action → Prop
  | .call ⟨_, .invoiceNft op⟩ => op.KeepsWiring d
  | _ => True

instance (d : Deployment) (a : Action) : Decidable (KeepsWiring d a) := by
  unfold KeepsWiring InvoiceNft.Op.KeepsWiring
  repeat' split
  all_goals infer_instance

/-- The entry points that mark an invoice as defaulted. -/
def Defaults : Entry → Prop
  | .pool (.markDefault ..) => True
  | .invoiceNft (.setDefaulted ..) => True
  | _ => False

/-- How the status of invoice `i` changes. -/
inductive StatusChange (i : ℕ) (w w' : World) : Entry → Prop
  | same (e : Entry) : w'.invoiceNft.status i = w.invoiceNft.status i → StatusChange i w w' e
  | unlisted (e : Entry) : InvoiceNft.Unlisted (w.invoiceNft.status i) →
      InvoiceNft.Unlisted (w'.invoiceNft.status i) → StatusChange i w w' e
  | listed (e : Entry) : w.invoiceNft.status i = some .created →
      w'.invoiceNft.status i = some .listed → w'.marketplace.listing i ≠ none →
      StatusChange i w w' e
  | funded (e : Entry) : w.invoiceNft.status i = some .listed →
      w'.invoiceNft.status i = some .funded → w.pool.pool i = none → w'.pool.pool i ≠ none →
      StatusChange i w w' e
  | repaid (e : Entry) : FinancingPool.DealsWith i e → w.invoiceNft.status i = some .funded →
      w'.invoiceNft.status i = some .repaid → StatusChange i w w' e
  | defaulted (e : Entry) : Defaults e → w.invoiceNft.status i = some .funded →
      w'.invoiceNft.status i = some .defaulted → StatusChange i w w' e

/-- The joint invariant. -/
structure Joint (d : Deployment) (w : World) : Prop where
  wellFormed : w.invoiceNft.WellFormed
  wired : w.invoiceNft.Wired d
  sound : ∀ i l, w.marketplace.listing i = some l → Marketplace.Sound l
  financed : ∀ i, w.pool.pool i ≠ none ↔ InvoiceNft.Financed (w.invoiceNft.status i)
  listed : ∀ i, w.invoiceNft.status i = some .listed → w.marketplace.listing i ≠ none
  full : ∀ i l, w.marketplace.listing i = some l → l.askingPrice ≤ l.fundedAmount →
    w.pool.pool i ≠ none

section Status

variable {d : Deployment} {env : Env} {w w' : World} {e : Entry} {i : ℕ}

/-- **How a transaction changes the status of an invoice**, when no contract signs it. -/
theorem NftChange.status (h : NftChange env w w' e) (hS : w.invoiceNft.WellFormed)
    (hwired : w.invoiceNft.Wired d) (hA : ∀ a ∈ d.contracts, ¬ env.Authenticates a) (i : ℕ) :
    StatusChange i w w' e := by
  cases h with
  | same _ h => exact .same _ (by rw [h])
  | own op h =>
    rcases h.status_cases hS i with h | ⟨hu, hu'⟩ | ⟨a, b, ha, hb, ht⟩
    · exact .same _ h
    · exact .unlisted _ hu hu'
    · obtain ⟨rfl, rfl, c, j, rfl⟩ := ht.quiet
        (fun c hc => hA c (hwired.marketplace c hc ▸ by simp [Deployment.contracts]))
        (fun c hc => hA c (hwired.financingPool c hc ▸ by simp [Deployment.contracts]))
      exact .defaulted _ trivial ha hb
  | listed seller j price face token deadline referrer hl h =>
    obtain ⟨hold, hnew⟩ := h.status i
    by_cases hj : i = j
    · subst hj
      exact .listed _ hold (hnew.trans (if_pos rfl)) hl
    · exact .same _ (hnew.trans (if_neg hj))
  | funded _ j hnone hsome h =>
    obtain ⟨hold, hnew⟩ := h.status i
    by_cases hj : i = j
    · subst hj
      exact .funded _ hold (hnew.trans (if_pos rfl)) hnone hsome
    · exact .same _ (hnew.trans (if_neg hj))
  | repaid _ j hdeals h =>
    obtain ⟨hold, hnew⟩ := h.status i
    by_cases hj : i = j
    · subst hj
      exact .repaid _ hdeals hold (hnew.trans (if_pos rfl))
    · exact .same _ (hnew.trans (if_neg hj))
  | defaulted admin j token h =>
    obtain ⟨hold, hnew⟩ := h.status i
    by_cases hj : i = j
    · subst hj
      exact .defaulted _ trivial hold (hnew.trans (if_pos rfl))
    · exact .same _ (hnew.trans (if_neg hj))

theorem StatusChange.financed (h : StatusChange i w w' e) :
    (InvoiceNft.Financed (w'.invoiceNft.status i) ↔ InvoiceNft.Financed (w.invoiceNft.status i)) ∨
      w.invoiceNft.status i = some .listed ∧ w'.invoiceNft.status i = some .funded ∧
        w'.pool.pool i ≠ none := by
  cases h with
  | same h => exact Or.inl (by rw [h])
  | unlisted hu hu' => exact Or.inl (iff_of_false hu'.not_financed hu.not_financed)
  | listed hold hnew _ => exact Or.inl (by simp [InvoiceNft.Financed, hold, hnew])
  | funded hold hnew _ hsome => exact Or.inr ⟨hold, hnew, hsome⟩
  | repaid _ hold hnew => exact Or.inl (by simp [InvoiceNft.Financed, hold, hnew])
  | defaulted _ hold hnew => exact Or.inl (by simp [InvoiceNft.Financed, hold, hnew])

theorem FinancingPool.Change.token (h : FinancingPool.Change env i w w' e) :
    (w'.pool.pool i).map Pool.token = (w.pool.pool i).map Pool.token ∨
      ∃ token face bps, FinancingPool.Opening i w w' token face bps ∧
        FinancingPool.OpenedBy i w' token e := by
  cases h with
  | frame _ _ h => exact Or.inl (by rw [h.pool])
  | opened _ token face bps _ h hby => exact Or.inr ⟨token, face, bps, h, hby⟩
  | recorded _ _ _ _ _ h => exact Or.inl (by rw [h.pool])
  | sold _ _ _ h => exact Or.inl (by rw [h.pool])
  | repaid _ _ _ _ _ _ _ _ h =>
    refine Or.inl ?_
    rw [h.pool, h.found]
    rfl
  | defaulted _ _ _ _ _ h => exact Or.inl (by rw [h.same.pool])
  | proposed _ _ _ h => exact Or.inl (by rw [h.pool])
  | accepted _ _ _ _ h => exact Or.inl (by rw [h.pool])
  | settled _ _ _ _ _ _ _ h =>
    refine Or.inl ?_
    rw [h.pool, h.found]
    rfl
  | cancelled _ _ _ h => exact Or.inl (by rw [h.pool])

theorem FinancingPool.Change.exists (h : FinancingPool.Change env i w w' e)
    (hp : w.pool.pool i ≠ none) : w'.pool.pool i ≠ none := by
  rcases h.token with htoken | ⟨_, _, _, hopen, -⟩
  · intro hnone
    rw [hnone, Option.map_none, eq_comm, Option.map_eq_none_iff] at htoken
    exact hp htoken
  · exact absurd hopen.unopened hp

theorem Marketplace.Change.raised (h : Marketplace.Change env i w w' e) {l : Listing}
    (hl : w.marketplace.listing i = some l) : ∃ l', w'.marketplace.listing i = some l' ∧
      l'.askingPrice = l.askingPrice ∧ l'.token = l.token ∧
      (l'.fundedAmount = l.fundedAmount ∨ l.isActive = true ∧ l'.fundedAmount ≤ l'.askingPrice ∧
        (l.askingPrice ≤ l'.fundedAmount → w'.pool.pool i ≠ none)) := by
  cases h with
  | frame _ _ h => exact ⟨l, h.listing.trans hl, rfl, rfl, Or.inl rfl⟩
  | listed _ _ _ _ _ _ h =>
    rw [h.unlisted] at hl
    cases hl
  | funded _ _ l₁ _ _ _ h =>
    obtain rfl : l = l₁ := Option.some.inj (hl.symm.trans h.listed)
    refine ⟨_, h.listing, rfl, rfl, Or.inr ⟨h.active, h.within, fun hge => ?_⟩⟩
    obtain ⟨-, -, -, -, -, _, hpool, -⟩ := h.released hge
    rw [hpool]
    simp
  | deactivated _ l₁ _ _ h =>
    obtain rfl : l = l₁ := Option.some.inj (hl.symm.trans h.found)
    exact ⟨_, h.listing, rfl, rfl, Or.inl rfl⟩
  | refunded _ _ _ _ h => exact ⟨l, h.listing.trans hl, rfl, rfl, Or.inl rfl⟩

theorem Marketplace.Change.fresh (h : Marketplace.Change env i w w' e)
    (hnone : w.marketplace.listing i = none) {l : Listing}
    (hl : w'.marketplace.listing i = some l) : l.fundedAmount < l.askingPrice := by
  cases h with
  | frame _ _ h =>
    rw [h.listing, hnone] at hl
    cases hl
  | listed _ _ _ _ _ _ h =>
    rw [h.listing] at hl
    cases hl
    exact h.positive
  | funded _ _ _ _ _ _ h =>
    rw [h.listed] at hnone
    cases hnone
  | deactivated _ _ _ _ h =>
    rw [h.found] at hnone
    cases hnone
  | refunded _ _ _ _ h =>
    rw [h.found] at hnone
    cases hnone

end Status

section Steps

variable {d : Deployment} {w : World}

theorem joint_effects (hJ : Joint d w) {c : Call}
    (h : c.entry.exec (c.env d w) w = .ok () (step d w (.call c))) (i : ℕ) :
    NftChange (c.env d w) w (step d w (.call c)) c.entry ∧
      FinancingPool.Change (c.env d w) i w (step d w (.call c)) c.entry ∧
      Marketplace.Change (c.env d w) i w (step d w (.call c)) c.entry ∧
      StatusChange i w (step d w (.call c)) c.entry := by
  have heffect := Entry.exec_effect h
  have hn := heffect.nftChange hJ.wellFormed
  exact ⟨hn, FinancingPool.change_of_effect heffect i, Marketplace.change_of_effect heffect i,
    hn.status hJ.wellFormed hJ.wired (fun _ => Call.not_authenticates) i⟩

section Fields

variable {env : Env} {w' : World} {e : Entry} {i : ℕ}

theorem financed_change (hold : w.pool.pool i ≠ none ↔ InvoiceNft.Financed (w.invoiceNft.status i))
    (hp : FinancingPool.Change env i w w' e) (hs : StatusChange i w w' e) :
    w'.pool.pool i ≠ none ↔ InvoiceNft.Financed (w'.invoiceNft.status i) := by
  rcases hs.financed with hsame | ⟨-, hnew, hsome⟩
  · rw [hsame, ← hold]
    refine ⟨fun hsome hnone => ?_, hp.exists⟩
    -- no pool opens without the invoice becoming financed
    rcases hp.token with htoken | ⟨_, _, _, hopen, -⟩
    · rw [hnone, Option.map_none, Option.map_eq_none_iff] at htoken
      exact hsome htoken
    · have hfin : InvoiceNft.Financed (w'.invoiceNft.status i) := Or.inl hopen.funded
      exact hold.mpr (hsame.mp hfin) hnone
  · exact iff_of_true hsome (Or.inl hnew)

theorem listed_change (hold : w.invoiceNft.status i = some .listed → w.marketplace.listing i ≠ none)
    (hm : Marketplace.Change env i w w' e) (hs : StatusChange i w w' e)
    (hlisted : w'.invoiceNft.status i = some .listed) : w'.marketplace.listing i ≠ none := by
  have hkept : w.marketplace.listing i ≠ none → w'.marketplace.listing i ≠ none := by
    intro hsome
    obtain ⟨l, hl⟩ := Option.ne_none_iff_exists'.mp hsome
    obtain ⟨l', hl', -⟩ := hm.raised hl
    rw [hl']
    simp
  cases hs with
  | same h => exact hkept (hold (h ▸ hlisted))
  | unlisted _ hu =>
    rw [hlisted] at hu
    rcases hu with hu | hu <;> cases hu
  | listed _ _ hl => exact hl
  | funded _ hnew _ _ =>
    rw [hlisted] at hnew
    cases hnew
  | repaid _ _ hnew =>
    rw [hlisted] at hnew
    cases hnew
  | defaulted _ _ hnew =>
    rw [hlisted] at hnew
    cases hnew

theorem full_change (hold : ∀ l, w.marketplace.listing i = some l → l.askingPrice ≤ l.fundedAmount →
      w.pool.pool i ≠ none)
    (hp : FinancingPool.Change env i w w' e) (hm : Marketplace.Change env i w w' e) {l' : Listing}
    (hl' : w'.marketplace.listing i = some l') (hfull : l'.askingPrice ≤ l'.fundedAmount) :
    w'.pool.pool i ≠ none := by
  cases hl : w.marketplace.listing i with
  | none =>
    have hshort := hm.fresh hl hl'
    omega
  | some l =>
    obtain ⟨l₁, hl₁, hasking, -, hraised⟩ := hm.raised hl
    obtain rfl : l₁ = l' := Option.some.inj (hl₁.symm.trans hl')
    rcases hraised with hsame | ⟨-, -, hpool⟩
    · have hbefore : l.askingPrice ≤ l.fundedAmount := by omega
      exact hp.exists (hold l hl hbefore)
    · have hreached : l.askingPrice ≤ l₁.fundedAmount := by omega
      exact hpool hreached

end Fields

/-- **Every step keeps the contracts together.** -/
theorem joint_step (hJ : Joint d w) (a : Action) (hk : KeepsWiring d a) :
    Joint d (step d w a) := by
  rcases step_cases d w a with ⟨c, rfl, -, h⟩ | ⟨n, rfl, h⟩ | ⟨c, rfl, -, h⟩
  · have heffects := joint_effects hJ h
    generalize step d w (.call c) = w' at h heffects ⊢
    have hn := (heffects 0).1
    have hkeeps : ∀ op, c.entry = .invoiceNft op → op.KeepsWiring d := by
      intro op hop
      obtain ⟨signers, e⟩ := c
      obtain rfl : e = .invoiceNft op := hop
      exact hk
    refine ⟨hn.wellFormed hJ.wellFormed, hn.wired hkeeps hJ.wired, ?_, ?_, ?_, ?_⟩
    · intro i l hl
      obtain ⟨-, -, hm, -⟩ := heffects i
      exact Marketplace.sound_change (hJ.sound i) hm l hl
    · intro i
      obtain ⟨-, hp, -, hs⟩ := heffects i
      exact financed_change (hJ.financed i) hp hs
    · intro i
      obtain ⟨-, -, hm, hs⟩ := heffects i
      exact listed_change (hJ.listed i) hm hs
    · intro i l' hl' hfull
      obtain ⟨-, hp, hm, -⟩ := heffects i
      exact full_change (hJ.full i) hp hm hl' hfull
  · rw [h]
    exact ⟨hJ.wellFormed, hJ.wired, hJ.sound, hJ.financed, hJ.listed, hJ.full⟩
  · rwa [h]

theorem joint_genesis (d : Deployment) (now : ℕ) (tokens : Tokens) :
    Joint d (genesis now tokens) where
  wellFormed := wellFormed_genesis now tokens
  wired := ⟨nofun, nofun⟩
  sound := nofun
  financed := fun i => iff_of_false (fun h => h rfl) (by
    rintro (h | h | h) <;> cases h)
  listed := nofun
  full := nofun

end Steps

end Kora
