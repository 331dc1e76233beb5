import Kora.FinancingPool
import Kora.Lib.Pages

set_option autoImplicit false

/-!
# The pages of the positions

`getPositionsPage` clamps its limit, its offset and its end; none of the clamps opens a gap.

* `pushRange_eq`: a range within the list is pushed without a trap;
* **`getPositionsPage_eq`**: a page is a window of the positions;
* **`positions_pages`**: the pages in turn are all positions.
-/

namespace Kora.FinancingPool

open Exec

variable {env : Env} {w : World} {i : ℕ}

/-- The positions of an invoice as a list. -/
def Storage.positionList (S : Storage) (invoiceId : ℕ) : List Position :=
  (S.positions invoiceId).values

theorem getPositions_eq : getPositions i env w = .ok (w.pool.positionList i) w := rfl

theorem pushRange_eq {all page : List Position} {start n : ℕ} (h : start + n ≤ all.length) :
    pushRange all (List.range' start n) page env w =
      .ok (page ++ (all.drop start).take n) w := by
  induction n generalizing start page with
  | zero => rw [List.take_zero, List.append_nil]; rfl
  | succ n ih =>
    have hlt : start < all.length := by omega
    rw [List.range'_succ, pushRange, List.getElem?_eq_getElem hlt]
    change pushRange all (List.range' (start + 1) n) (page ++ [all[start]]) env w = _
    rw [ih (by omega), List.drop_eq_getElem_cons hlt, List.take_succ_cons, List.append_assoc]
    rfl

/-- **A page is a window of the positions.** -/
theorem getPositionsPage_eq (offset limit : ℕ) : getPositionsPage i offset limit env w =
    .ok (((w.pool.positionList i).drop offset).take (min limit 100)) w := by
  have hrange : min offset (w.pool.positionList i).length +
      (min (min offset (w.pool.positionList i).length + min limit 100)
        (w.pool.positionList i).length - min offset (w.pool.positionList i).length) ≤
      (w.pool.positionList i).length := by omega
  rw [getPositionsPage, gets_run]
  exact (pushRange_eq hrange).trans (by rw [List.nil_append, Pages.window_clamped])

/-- The page that a call returns. -/
def PageAt (env : Env) (w : World) (i limit offset : ℕ) (page : List Position) : Prop :=
  getPositionsPage i offset limit env w = .ok page w

/-- Up to the cap, the pages are windows of the size that was asked for. -/
theorem serves_positions {limit : ℕ} (hle : limit ≤ 100) :
    Pages.Serves (PageAt env w i limit) limit (w.pool.positionList i) := by
  intro offset page
  rw [PageAt, getPositionsPage_eq, min_eq_left hle]
  simp only [Outcome.ok.injEq, and_true, eq_comm]

/-- **Position pages**: for every limit up to the cap, the pages at `0`, `limit`, `2 * limit`, … up
to the first empty one are all positions in order; and every call, whatever its offset and limit,
returns the window at its offset, of full size except at the end. -/
theorem positions_pages (env : Env) (w : World) (i : ℕ) :
    ∃ all, getPositions i env w = .ok all w ∧
      (∀ limit, 1 ≤ limit → limit ≤ 100 → ∀ read,
        Pages.Reads (PageAt env w i limit) limit 0 read ↔ read = all) ∧
      ∀ offset limit, ∃ page, getPositionsPage i offset limit env w = .ok page w ∧
        page = (all.drop offset).take (min limit 100) ∧
        page.length = min (min limit 100) (all.length - offset) := by
  refine ⟨w.pool.positionList i, getPositions_eq, ?_, ?_⟩
  · intro limit hpos hle read
    exact (serves_positions hle).reads_iff hpos
  · intro offset limit
    exact ⟨_, getPositionsPage_eq offset limit, rfl, by rw [List.length_take, List.length_drop]⟩

end Kora.FinancingPool
