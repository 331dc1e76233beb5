import Kora.System.Joint

set_option autoImplicit false

/-!
# Pools and invoices agree

A pool exists exactly for financed invoices. Repayments and settlements close the pool and mark the
invoice as repaid together; a default marks the invoice and leaves the pool open.

* `closedAt_change`: one transaction and one invoice;
* `repayment_refused`: while pools and invoices agree, a defaulted invoice takes no repayment;
* **`agreement_iff`**: in every run they agree exactly when no invoice is marked as defaulted.
-/

namespace Kora

open Exec Run

/-- The invoice is repaid or defaulted. -/
def Ended (status : Option InvoiceStatus) : Prop :=
  status = some .repaid ∨ status = some .defaulted

/-- The pool of invoice `i` is closed exactly when the invoice is repaid or defaulted. -/
def ClosedAt (w : World) (i : ℕ) : Prop := ∀ pool, w.pool.pool i = some pool →
  (pool.isClosed = true ↔ Ended (w.invoiceNft.status i))

/-- Pools and invoices agree. -/
def Agreement (w : World) : Prop := ∀ i,
  (w.pool.pool i ≠ none ↔ InvoiceNft.Financed (w.invoiceNft.status i)) ∧ ClosedAt w i

/-- No successful repayment of a defaulted invoice. -/
def RefusesDefaulted (d : Deployment) (w : World) : Action → Prop
  | .call c => c.Succeeds d w → ∀ payer i token amount,
    c.entry = .pool (.repay payer i token amount) → w.invoiceNft.status i ≠ some .defaulted
  | .tick _ => True

/-- No invoice is marked as defaulted. -/
def NoDefault (d : Deployment) (w : World) : Action → Prop
  | .call c => c.Succeeds d w → ¬ Defaults c.entry
  | .tick _ => True

section Steps

variable {d : Deployment} {env : Env} {w w' : World} {e : Entry} {i : ℕ}

theorem Ended.funded : ¬ Ended (some .funded) := by
  rintro (h | h) <;> cases h

theorem Ended.listed : ¬ Ended (some .listed) := by
  rintro (h | h) <;> cases h

theorem Ended.created : ¬ Ended (some .created) := by
  rintro (h | h) <;> cases h

theorem InvoiceNft.Unlisted.not_ended {x : Option InvoiceStatus} (h : InvoiceNft.Unlisted x) :
    ¬ Ended x := by
  rcases h with rfl | rfl
  · rintro (h | h) <;> cases h
  · exact Ended.created

theorem closedAt_congr (hp : w'.pool.pool i = w.pool.pool i)
    (hs : Ended (w'.invoiceNft.status i) ↔ Ended (w.invoiceNft.status i)) (h : ClosedAt w i) :
    ClosedAt w' i := by
  intro pool hpool
  rw [hs]
  exact h pool (hp ▸ hpool)

theorem closedAt_iff {pool : Pool} (h : w.pool.pool i = some pool) :
    ClosedAt w i ↔ (pool.isClosed = true ↔ Ended (w.invoiceNft.status i)) := by
  constructor
  · intro hc
    exact hc pool h
  · intro hc pool' hpool'
    rw [h] at hpool'
    cases hpool'
    exact hc

theorem StatusChange.ended (h : StatusChange i w w' e) (hdeals : ¬ FinancingPool.DealsWith i e)
    (hdef : ¬ Defaults e) :
    Ended (w'.invoiceNft.status i) ↔ Ended (w.invoiceNft.status i) := by
  cases h with
  | same h => rw [h]
  | unlisted hu hu' => exact iff_of_false hu'.not_ended hu.not_ended
  | listed hold hnew _ =>
    rw [hold, hnew]
    exact iff_of_false Ended.listed Ended.created
  | funded hold hnew _ _ =>
    rw [hold, hnew]
    exact iff_of_false Ended.funded Ended.listed
  | repaid h _ _ => exact absurd h hdeals
  | defaulted h _ _ => exact absurd h hdef

/-- **A transaction other than a default closes the pool exactly when it ends the invoice.** -/
theorem closedAt_change (hp : FinancingPool.Change env i w w' e) (hs : StatusChange i w w' e)
    (hdef : ¬ Defaults e) (h : ClosedAt w i) : ClosedAt w' i := by
  have hsame : w'.invoiceNft = w.invoiceNft → w'.pool.pool i = w.pool.pool i → ClosedAt w' i :=
    fun hnft hpool => closedAt_congr hpool (by rw [hnft]) h
  cases hp with
  | frame _ hdeals hpool => exact closedAt_congr hpool.pool (hs.ended hdeals hdef) h
  | opened _ _ _ _ _ hopen =>
    rw [closedAt_iff hopen.pool, hopen.funded]
    exact iff_of_false (by simp) Ended.funded
  | recorded _ _ _ _ _ h => exact hsame h.invoiceNft h.pool
  | sold _ _ _ h => exact hsame h.invoiceNft h.pool
  | repaid payer token amount owed p inv applied payments hrepay =>
    rw [closedAt_iff hrepay.pool]
    have hfound := (closedAt_iff hrepay.found).mp h
    rw [hrepay.unclosed] at hfound
    rcases hrepay.distribution with ⟨hlt, -, hnft⟩ | ⟨hle, -, hnft, -⟩
    · rw [hnft, ← hfound]
      simp [FinancingPool.repaidPool, hlt]
    · rw [hnft]
      simp [FinancingPool.repaidPool, hle, Ended]
  | defaulted => exact absurd trivial hdef
  | proposed _ _ _ h => exact hsame h.invoiceNft h.pool
  | accepted _ _ _ _ h => exact hsame h.invoiceNft h.pool
  | settled _ _ _ _ _ _ _ hsettle =>
    rw [closedAt_iff hsettle.pool, hsettle.invoiceNft]
    exact iff_of_true rfl (Or.inl (by simp))
  | cancelled _ _ _ h => exact hsame h.invoiceNft h.pool

/-- A default leaves an open pool behind. -/
theorem not_agreement_of_defaults (hA : Agreement w) {c : Call}
    (h : c.entry.exec (c.env d w) w = .ok () w') (hdef : Defaults c.entry) : ¬ Agreement w' := by
  unfold Defaults at hdef
  split at hdef
  · rename_i admin j token he
    have hchange := FinancingPool.change_of_effect (Entry.exec_effect h) j
    rw [he] at hchange
    cases hchange with
    | frame _ hne => exact absurd rfl hne
    | opened _ _ _ _ hne => exact absurd rfl hne
    | defaulted _ _ p inv payments hd =>
      intro hagree
      have hclosed := (hagree j).2 p (hd.same.pool.trans hd.found)
      rw [hd.unclosed, hd.invoiceNft] at hclosed
      exact absurd (hclosed.mpr (Or.inr (by simp))) (by simp)
  · rename_i admin j he
    rw [he] at h
    obtain ⟨s, hs, rfl⟩ := onInvoiceNft_ok.mp h
    obtain ⟨-, -, inv, hinv, hst, -, rfl⟩ := InvoiceNft.setDefaulted_ok hs
    intro hagree
    have hstatus : w.invoiceNft.status j = some .funded := by
      rw [InvoiceNft.Storage.status_of_current hinv, hst]
    obtain ⟨pool, hpool⟩ :=
      Option.ne_none_iff_exists'.mp ((hA j).1.mpr (Or.inl hstatus))
    have hbefore := (hA j).2 pool hpool
    rw [hstatus] at hbefore
    have hafter := (hagree j).2 pool hpool
    exact Ended.funded (hbefore.mp (hafter.mpr (Or.inr (by simp))))
  · exact hdef.elim

/-- While pools and invoices agree, a defaulted invoice takes no repayment. -/
theorem repayment_refused (hA : Agreement w) (a : Action) : RefusesDefaulted d w a := by
  cases a with
  | tick n => trivial
  | call c =>
    intro hs payer i token amount he hdef
    obtain ⟨w', h⟩ := Call.succeeds_iff.mp hs
    rw [he] at h
    obtain ⟨-, -, p, inv, owed, applied, hp, hopen, -⟩ := FinancingPool.repay_ok h
    have hclosed := (hA i).2 p hp
    rw [hopen] at hclosed
    exact absurd (hclosed.mpr (Or.inr hdef)) (by simp)

/-- **One step keeps pools and invoices in agreement exactly when it marks no invoice as
defaulted.** -/
theorem agreement_step (hJ : Joint d w) (a : Action) (hk : KeepsWiring d a) (hA : Agreement w) :
    Agreement (step d w a) ↔ NoDefault d w a := by
  have hJ' := joint_step hJ a hk
  rcases step_cases d w a with ⟨c, rfl, hs, h⟩ | ⟨n, rfl, h⟩ | ⟨c, rfl, hn, h⟩
  · constructor
    · rintro hagree - hdef
      exact not_agreement_of_defaults hA h hdef hagree
    · intro hno i
      obtain ⟨-, hp, -, hstatus⟩ := joint_effects hJ h i
      exact ⟨hJ'.financed i, closedAt_change hp hstatus (hno hs) (hA i).2⟩
  · rw [h]
    exact iff_of_true hA trivial
  · rw [h]
    exact iff_of_true hA fun hs => absurd hs hn

end Steps

section Runs

/-- **Agreement**: while the invoice contract takes lifecycle calls only from the marketplace and
the pool, in every state of a run a pool exists exactly for financed invoices and is closed exactly
when the invoice is repaid or defaulted, and no repayment of a defaulted invoice is accepted,
exactly when no invoice is marked as defaulted. -/
theorem agreement_iff (d : Deployment) (now : ℕ) (tokens : Tokens) (as : List Action)
    (hk : ∀ a ∈ as, KeepsWiring d a) :
    ((∀ p, p <+: as → Agreement (run (step d) (genesis now tokens) p)) ∧
        Along (step d) (RefusesDefaulted d) (genesis now tokens) as) ↔
      Along (step d) (NoDefault d) (genesis now tokens) as := by
  have hgenesis : Agreement (genesis now tokens) :=
    fun i => ⟨(joint_genesis d now tokens).financed i, nofun⟩
  have hiff := forall_prefix_iff_along (I := Joint d) (Q := Agreement)
    (A := fun _ a => KeepsWiring d a) (C := NoDefault d) (fun _ a hJ ha => joint_step hJ a ha)
    (fun _ a hJ ha hA => agreement_step hJ a ha hA) (joint_genesis d now tokens) hgenesis
    (along_of_forall hk)
  constructor
  · rintro ⟨h, -⟩
    exact hiff.mp h
  · intro h
    refine ⟨hiff.mpr h, ?_⟩
    exact .of_invariant (I := fun w => Joint d w ∧ Agreement w)
      (C := fun w a => KeepsWiring d a ∧ NoDefault d w a)
      (fun w a hw ha => ⟨joint_step hw.1 a ha.1, (agreement_step hw.1 a ha.1 hw.2).mpr ha.2⟩)
      (fun w a hw _ => repayment_refused hw.2 a) ⟨joint_genesis d now tokens, hgenesis⟩
      ((along_of_forall hk).and h)

/-- Invoice `1` is funded, misses its due date and is marked as defaulted. -/
def defaultedInvoice : List Action :=
  sampleFunding "USDC" ++ [.tick 2_000, signed 1 (.pool (.markDefault 1 1 50))]

theorem agreement_sample :
    ((∀ p, p <+: sampleFunding "USDC" → Agreement (run (step sample) sampleGenesis p)) ∧
        Along (step sample) (RefusesDefaulted sample) sampleGenesis (sampleFunding "USDC")) ↔
      Along (step sample) (NoDefault sample) sampleGenesis (sampleFunding "USDC") :=
  agreement_iff sample 0 sampleTokens (sampleFunding "USDC") (by decide +kernel)

/-- The SME repays a part. -/
def sampleRepayment : Call := ⟨[2], .pool (.repay 2 1 50 100)⟩

/-- The pool of the defaulted invoice stays open and takes the repayment. -/
theorem pool_open_after_default :
    (¬ ∀ (d : Deployment) (now : ℕ) (tokens : Tokens) (as : List Action),
      (∀ a ∈ as, KeepsWiring d a) → Agreement (run (step d) (genesis now tokens) as)) ∧
    ¬ ∀ (d : Deployment) (now : ℕ) (tokens : Tokens) (as : List Action),
      (∀ a ∈ as, KeepsWiring d a) →
        Along (step d) (RefusesDefaulted d) (genesis now tokens) as := by
  constructor
  · intro h
    have hclosed := (h sample 0 sampleTokens defaultedInvoice (by decide +kernel) 1).2
      ⟨1, 50, 0, 10_000, 0, false, 200, 10_000, false⟩ (by decide +kernel)
    exact absurd (hclosed.mpr (Or.inr (by decide +kernel))) (by decide)
  · intro h
    have hrefused := h sample 0 sampleTokens (defaultedInvoice ++ [.call sampleRepayment])
      (by decide +kernel)
    rw [along_append] at hrefused
    exact hrefused.2.1 (by decide +kernel) 2 1 50 100 rfl (by decide +kernel)

end Runs

end Kora
