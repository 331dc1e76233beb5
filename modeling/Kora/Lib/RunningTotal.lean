import Mathlib.Algebra.BigOperators.Pi
import Mathlib.Algebra.Order.BigOperators.Group.Finset
import Mathlib.Algebra.Order.Pi
import Mathlib.Tactic.Abel
import Mathlib.Tactic.Common

set_option autoImplicit false

/-!
# A total kept beside the records

A running total is right when it is the sum of the records. When one record changes, the total
stays right exactly when it moves by the same amount.

* `SumsUp`: the total of a finite set of records;
* `SumsUp.congr`, `sumsUp_extend`: unchanged records, and new indices without a record;
* **`SumsUp.change_iff`**: one record changes.
-/

section RunningTotal

variable {ι M : Type} {s t : Finset ι} {record record' : ι → M} {total total' : M}

/-- The total is the sum of the records with an index in `s`. -/
def SumsUp [AddCommMonoid M] (s : Finset ι) (record : ι → M) (total : M) : Prop :=
  total = ∑ i ∈ s, record i

theorem SumsUp.congr [AddCommMonoid M] (h : SumsUp s record total)
    (hr : ∀ i, record' i = record i) : SumsUp s record' total := by
  have hsame : record' = record := funext hr
  rw [hsame]
  exact h

theorem sumsUp_extend [AddCommMonoid M] (hst : s ⊆ t) (h : ∀ i ∈ t, i ∉ s → record i = 0) :
    SumsUp t record total ↔ SumsUp s record total := by
  rw [SumsUp, SumsUp, Finset.sum_subset hst h]

/-- **One record changes**: the total stays right exactly when it moves by the same amount. -/
theorem SumsUp.change_iff [AddCommGroup M] [DecidableEq ι] (h : SumsUp s record total) {i : ι}
    (hi : i ∈ s) (hother : ∀ j, j ≠ i → record' j = record j) :
    SumsUp s record' total' ↔ total' - total = record' i - record i := by
  have hrest : ∑ j ∈ s.erase i, record' j = ∑ j ∈ s.erase i, record j :=
    Finset.sum_congr rfl fun j hj => hother j (Finset.ne_of_mem_erase hj)
  have hsum : ∑ j ∈ s, record' j = total + (record' i - record i) := by
    rw [h, ← Finset.add_sum_erase s _ hi, ← Finset.add_sum_erase s record hi, hrest]
    abel
  rw [SumsUp, hsum, sub_eq_iff_eq_add']

theorem SumsUp.le [AddCommMonoid M] [PartialOrder M] [IsOrderedAddMonoid M]
    (h : SumsUp s record total) (hpos : ∀ i, 0 ≤ record i) {i : ι} (hi : i ∈ s) :
    record i ≤ total := by
  rw [h]
  exact Finset.single_le_sum (fun j _ => hpos j) hi

theorem SumsUp.nonneg [AddCommMonoid M] [PartialOrder M] [IsOrderedAddMonoid M]
    (h : SumsUp s record total) (hpos : ∀ i, 0 ≤ record i) : 0 ≤ total := by
  rw [h]
  exact Finset.sum_nonneg fun i _ => hpos i

end RunningTotal
