import Kora.System.Agreement

set_option autoImplicit false

/-!
# One payout for each invoice

The money of a pool is distributed by the repayment that covers what is owed, by a default, or by
an early settlement. A default leaves the pool open, so the pool alone does not bar a second
distribution; the status of the invoice does.

* `performed_paysOut`: a distribution ends an invoice that was funded;
* `ended_step`: an ended invoice stays ended;
* `pool_final_step`: a closed pool is never written again;
* **`paid_out_once`**: both along every run.
-/

namespace Kora

open Exec Run

/-- The entry point can distribute the money of pool `i`. -/
def SettlesPool (i : ℕ) : Entry → Prop
  | .pool (.repay _ j _ _) => j = i
  | .pool (.markDefault _ j _) => j = i
  | .pool (.acceptEarlySettlement _ j) => j = i
  | _ => False

/-- The step distributes the money of pool `i`: the pool contract pays somebody. -/
def PaysOut (d : Deployment) (i : ℕ) (w : World) (a : Action) : Prop :=
  ∃ env e, performed d w a = some (env, e) ∧ SettlesPool i e ∧
    ∃ t ∈ newTransfers w (step d w a), t.src = d.financingPool

section Steps

variable {d : Deployment} {env : Env} {w w' : World} {e : Entry} {a : Action} {i : ℕ}

theorem SettlesPool.dealsWith (h : SettlesPool i e) : FinancingPool.DealsWith i e := by
  unfold SettlesPool at h
  split at h
  · exact h
  · exact h
  · exact h
  · exact h.elim

theorem InvoiceNft.Storage.status_funded {inv : Invoice}
    (hinv : w.invoiceNft.invoice i = some (.current inv)) (h : inv.status = .funded) :
    w.invoiceNft.status i = some .funded := by
  rw [status_of_current hinv, h]

/-- **A distribution ends an invoice that was funded.** -/
theorem FinancingPool.Change.paysOut (h : Change env i w w' e) (he : SettlesPool i e)
    (hsign : ∀ x, env.Authenticates x → x ≠ env.net.financingPool)
    (hpaid : ∃ t ∈ newTransfers w w', t.src = env.net.financingPool) :
    w.invoiceNft.status i = some .funded ∧ Ended (w'.invoiceNft.status i) := by
  obtain ⟨t, ht, hsrc⟩ := hpaid
  cases h with
  | frame _ hdeals => exact absurd he.dealsWith hdeals
  | opened _ _ _ _ hdeals => exact absurd he.dealsWith hdeals
  | recorded | sold | proposed | cancelled => exact he.elim
  | repaid payer token amount owed p inv applied payments h =>
    rcases h.distribution with ⟨-, hnone, -⟩ | ⟨-, hst, hnft, -⟩
    · -- only the payer's own transfer, and the payer is no contract
      rw [newTransfers_of_move_payAll h.tokens, hnone, List.map_nil, List.mem_singleton] at ht
      rw [ht] at hsrc
      exact absurd hsrc (hsign payer h.authenticated)
    · refine ⟨InvoiceNft.Storage.status_funded h.invoice hst, Or.inl ?_⟩
      rw [hnft]
      simp
  | defaulted _ _ _ _ _ h =>
    refine ⟨InvoiceNft.Storage.status_funded h.invoice h.funded, Or.inr ?_⟩
    rw [h.invoiceNft]
    simp
  | accepted _ _ _ _ h =>
    rw [newTransfers_of_same h.tokens] at ht
    cases ht
  | settled _ _ _ _ _ _ _ h =>
    refine ⟨InvoiceNft.Storage.status_funded h.invoice h.funded, Or.inl ?_⟩
    rw [h.invoiceNft]
    simp

theorem performed_paysOut (h : PaysOut d i w a) :
    w.invoiceNft.status i = some .funded ∧ Ended ((step d w a).invoiceNft.status i) := by
  obtain ⟨env, e, hp, he, hpaid⟩ := h
  obtain ⟨c, rfl, rfl, rfl, h⟩ := performed_call hp
  exact (FinancingPool.change_of_effect (Entry.exec_effect h) i).paysOut he
    (fun _ hx => Call.ne_financingPool hx) hpaid

theorem ended_step (hw : InvoicesSound d w) (a : Action) (h : Ended (w.invoiceNft.status i)) :
    Ended ((step d w a).invoiceNft.status i) := by
  rcases step_performed d w a with ⟨env, e, -, -, he⟩ | ⟨-, n, hn⟩
  · have hfinanced : InvoiceNft.Financed (w.invoiceNft.status i) := Or.inr h
    obtain ⟨hafter, hfunded⟩ :=
      ((Entry.exec_effect he).nftChange hw.wellFormed).financed hw.wellFormed hfinanced
    rcases hafter with hf | hended
    · rw [hfunded hf] at h
      exact absurd h Ended.funded
    · exact hended
  · rwa [hn]

/-- **A closed pool is never written again.** -/
theorem pool_final_step (a : Action) {p : Pool} (hp : w.pool.pool i = some p)
    (hclosed : p.isClosed = true) : (step d w a).pool.pool i = some p := by
  have hopen : ∀ {q : Pool}, w.pool.pool i = some q → q.isClosed ≠ false := by
    intro q hq
    rw [hp] at hq
    cases hq
    rw [hclosed]
    nofun
  rcases FinancingPool.performed_change d w a i with ⟨env, e, -, -, h⟩ | ⟨-, n, h⟩
  · cases h with
    | frame _ _ h => rw [h.pool, hp]
    | opened _ _ _ _ _ h =>
      rw [h.unopened] at hp
      cases hp
    | recorded _ _ _ _ _ h => rw [h.pool, hp]
    | sold _ _ _ h => rw [h.pool, hp]
    | repaid _ _ _ _ _ _ _ _ h => exact absurd h.unclosed (hopen h.found)
    | defaulted _ _ _ _ _ h => rw [h.same.pool, hp]
    | proposed _ _ _ h => rw [h.pool, hp]
    | accepted _ _ _ _ h => rw [h.pool, hp]
    | settled _ _ _ _ _ _ _ h => exact absurd h.unclosed (hopen h.found)
    | cancelled _ _ _ h => rw [h.pool, hp]
  · rw [h, hp]

end Steps

/-- **One payout for each invoice.** In every run the money of an invoice's pool is distributed at
most once, by repayment, default or early settlement, and always while the invoice is funded; and a
pool that is closed keeps its record for good. -/
theorem paid_out_once (d : Deployment) (now : ℕ) (tokens : Tokens) (as : List Action) (i : ℕ) :
    Once (step d) (PaysOut d i) (genesis now tokens) as ∧
      Along (step d) (fun w a => PaysOut d i w a → w.invoiceNft.status i = some .funded)
        (genesis now tokens) as ∧
      ∀ bs p, (run (step d) (genesis now tokens) as).pool.pool i = some p → p.isClosed = true →
        (run (step d) (genesis now tokens) (as ++ bs)).pool.pool i = some p := by
  refine ⟨?_, ?_, ?_⟩
  · refine once_of_mark (I := InvoicesSound d) (F := fun w => Ended (w.invoiceNft.status i))
      (fun _ a hw => invoicesSound_step hw a) (fun w a _ h => ?_)
      (fun _ a hw h => ended_step hw a h) (invoicesSound_genesis d now tokens)
    obtain ⟨hfunded, hended⟩ := performed_paysOut h
    refine ⟨?_, hended⟩
    rw [hfunded]
    exact Ended.funded
  · refine .of_always (I := fun _ => True) (fun _ _ _ => trivial) (fun w a _ h => ?_) trivial as
    exact (performed_paysOut h).1
  · intro bs p hp hclosed
    rw [run_append]
    exact always (I := fun w : World => w.pool.pool i = some p)
      (fun _ a h => pool_final_step a h hclosed) hp bs

end Kora
