import Kora.FinancingPool.Aggregate
import Kora.FinancingPool.Shares

set_option autoImplicit false

/-!
# Sales of positions

A sale removes the position of the seller and writes it under the buyer, over any position the buyer
had.

* `holding`, `SaleConserves`: what an investor holds, and what a sale is to conserve;
* `total_sold`: the sums after a sale;
* **`saleConserves_iff`**: a sale conserves the pool unless it overwrites a position.
-/

namespace Kora.FinancingPool

open Exec Run

/-! ## Statement -/

/-- The share and the contribution of a position. -/
def stakeOf (_ : Address) (p : Position) : ℤ × ℤ := (p.shareBps, p.contributed)

/-- The share and the contribution that an investor holds in the pool of invoice `i`. -/
def holding (w : World) (i : ℕ) (investor : Address) : ℤ × ℤ :=
  FinMap.entry stakeOf (w.pool.positions i) investor

/-- The sums of the shares and of the contributions stay, third parties keep their positions, and
the buyer holds what the seller held on top of its own. A seller that buys has sold first. -/
structure SaleConserves (i : ℕ) (buyer seller : Address) (w w' : World) : Prop where
  shares : shareSum (w'.pool.positions i) = shareSum (w.pool.positions i)
  contributions : contributions w' i = contributions w i
  others : ∀ x, x ≠ buyer → x ≠ seller →
    (w'.pool.positions i)[x]? = (w.pool.positions i)[x]?
  gains : holding w' i buyer =
    (if buyer = seller then 0 else holding w i buyer) + holding w i seller

/-! ## Steps -/

section Steps

variable {i : ℕ} {buyer seller : Address} {pos : Position} {w w' : World}

theorem total_stakeOf (w : World) (i : ℕ) : FinMap.total stakeOf (w.pool.positions i) =
    (shareSum (w.pool.positions i), contributions w i) := FinMap.total_prod ..

theorem total_sold (h : Sale i w w' buyer seller pos) :
    (shareSum (w'.pool.positions i), contributions w' i) =
      (shareSum (w.pool.positions i), contributions w i) -
        if buyer = seller then 0 else holding w i buyer := by
  rw [← total_stakeOf, ← total_stakeOf, h.positions]
  exact FinMap.total_move stakeOf _ h.sold rfl

theorem sold_others (h : Sale i w w' buyer seller pos) {x : Address} (hb : x ≠ buyer)
    (hs : x ≠ seller) : (w'.pool.positions i)[x]? = (w.pool.positions i)[x]? := by
  rw [h.positions, FinMap.getElem?_insert', if_neg (Ne.symm hb), FinMap.getElem?_erase',
    if_neg (Ne.symm hs)]

theorem holding_sold (h : Sale i w w' buyer seller pos) :
    holding w' i buyer = holding w i seller := by
  have hbuyer : (w'.pool.positions i)[buyer]? =
      some { pos with investor := buyer, invoiceId := i } := by
    rw [h.positions, FinMap.getElem?_insert', if_pos rfl]
  rw [holding, holding, FinMap.entry_of_some _ _ hbuyer, FinMap.entry_of_some _ _ h.sold]
  rfl

theorem holding_eq_zero_iff (hw : PoolsSound w) :
    holding w i buyer = 0 ↔ (w.pool.positions i)[buyer]? = none := by
  rw [holding]
  cases hp : (w.pool.positions i)[buyer]? with
  | none => exact iff_of_true (FinMap.entry_of_none _ _ hp) rfl
  | some p =>
    rw [FinMap.entry_of_some _ _ hp]
    refine iff_of_false (fun h => ?_) nofun
    exact (hw.positive i buyer p hp).ne' (congrArg Prod.snd h)

/-- **A sale conserves the pool exactly when it overwrites nothing.** -/
theorem sale_conserves_iff (hw : PoolsSound w) (h : Sale i w w' buyer seller pos) :
    SaleConserves i buyer seller w w' ↔
      buyer = seller ∨ (w.pool.positions i)[buyer]? = none := by
  have hzero : (if buyer = seller then 0 else holding w i buyer) = 0 ↔
      buyer = seller ∨ (w.pool.positions i)[buyer]? = none := by
    rw [← holding_eq_zero_iff hw]
    split_ifs with hb <;> simp [hb]
  rw [← hzero]
  constructor
  · intro hc
    have hgains := hc.gains
    rw [holding_sold h] at hgains
    exact right_eq_add.mp hgains
  · intro hnone
    have htotal := total_sold h
    rw [hnone, sub_zero, Prod.mk.injEq] at htotal
    exact ⟨htotal.1, htotal.2, fun x => sold_others h, by rw [hnone, zero_add, holding_sold h]⟩

end Steps

/-! ## Runs -/

/-- **Sales conserve the pool**: in every run, a sale leaves the sums of the shares and of the
contributions and the positions of third parties as they are, and adds the position of the seller to
that of the buyer, exactly when the buyer is the seller or has no position in the pool. -/
theorem saleConserves_iff (d : Deployment) (start : ℕ) (tokens : Tokens) (as : List Action)
    (a : Action) (env : Env) (i : ℕ) (buyer seller : Address)
    (h : performed d (run (step d) (genesis start tokens) as) a =
      some (env, .pool (.buyPosition buyer i seller))) :
    SaleConserves i buyer seller (run (step d) (genesis start tokens) as)
        (step d (run (step d) (genesis start tokens) as) a) ↔
      buyer = seller ∨
        ((run (step d) (genesis start tokens) as).pool.positions i)[buyer]? = none := by
  have hw : PoolsSound (run (step d) (genesis start tokens) as) :=
    always (I := PoolsSound) (fun w a hw => poolsSound_step hw a)
      (poolsSound_genesis start tokens) as
  rcases performed_change d (run (step d) (genesis start tokens) as) a i with
    ⟨env', e, hp, -, hc⟩ | ⟨hp, -⟩
  · obtain ⟨-, rfl⟩ := Prod.mk.inj (Option.some.inj (hp.symm.trans h))
    cases hc with
    | frame _ hne => exact absurd rfl hne
    | opened _ _ _ _ hne => exact absurd rfl hne
    | sold _ _ pos hs => exact sale_conserves_iff hw hs
  · rw [hp] at h
    cases h

/-- Investors `3` and `4` have positions in the pool of invoice `1`, and `4` offers its own. -/
def offeredSale : List Action := sampleFunding "USDC" ++ [
  signed 1 (.pool (.recordPosition 1 1 3 5_000 9_000)),
  signed 1 (.pool (.recordPosition 1 1 4 4_000 9_000)),
  signed 4 (.pool (.listPositionForSale 4 1 50 4_000))]

/-- `buyer` buys it. -/
def purchase (buyer : Address) : Call := ⟨[buyer], .pool (.buyPosition buyer 1 4)⟩

/-- A stranger gets what `4` had. -/
theorem saleConserves_stranger : SaleConserves 1 5 4
    (run (step sample) (genesis 0 sampleTokens) offeredSale)
    (step sample (run (step sample) (genesis 0 sampleTokens) offeredSale)
      (.call (purchase 5))) :=
  (saleConserves_iff sample 0 sampleTokens offeredSale (.call (purchase 5)) _ 1 5 4
    (performed_of_succeeds (by decide +kernel))).mpr (Or.inr (by decide +kernel))

/-- Investor `3` loses its own position. -/
theorem sale_overwrites : ¬ ∀ (d : Deployment) (start : ℕ) (tokens : Tokens) (as : List Action)
    (a : Action) (env : Env) (i : ℕ) (buyer seller : Address),
    performed d (run (step d) (genesis start tokens) as) a =
      some (env, .pool (.buyPosition buyer i seller)) →
    SaleConserves i buyer seller (run (step d) (genesis start tokens) as)
      (step d (run (step d) (genesis start tokens) as) a) := by
  intro h
  have hconserves := h sample 0 sampleTokens offeredSale (.call (purchase 3)) _ 1 3 4
    (performed_of_succeeds (by decide +kernel))
  exact absurd hconserves.contributions (by decide +kernel)

end Kora.FinancingPool
