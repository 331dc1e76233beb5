import Mathlib.Tactic.Linarith
import Mathlib.Tactic.Ring
import Kora.Lib.FinMap

set_option autoImplicit false

/-!
# Apportioning an amount by truncated shares

The entries of a finite map weigh `w k v`, and `T` is the total weight. Each entry gets a share of
`U` units, rounded down, and is paid its share of an amount `R`, rounded down again. What the two
divisions cut off decides how much of `R` is left over.

* `share`, `paid`, `leftover`: the shares, the payments and what is left;
* **`mul_leftover`**: the leftover from the remainders of the two divisions;
* `leftover_le_of_exact`, `lt_leftover_of_inexact`: with exact shares less than one unit of `R` is
  lost for each entry; otherwise the loss grows with `R`.
-/

namespace FinMap

open Std

variable {κ ν : Type} [Ord κ] [TransOrd κ]

theorem mul_total_ediv_add (φ : κ → ν → ℤ) (m : FinMap κ ν) (N : ℤ) :
    N * total (fun k v => φ k v / N) m + total (fun k v => φ k v % N) m = total φ m := by
  rw [← total_mul_left, total, total, total, ← List.sum_map_add]
  exact congrArg List.sum (List.map_congr_left fun e _ => Int.mul_ediv_add_emod ..)

theorem total_le_size {φ : κ → ν → ℤ} {m : FinMap κ ν} {B : ℤ} (h : ∀ k v, φ k v ≤ B) :
    total φ m ≤ B * m.size := by
  rw [← ExtTreeMap.length_toList, total]
  have hsum := List.sum_le_card_nsmul (m.toList.map fun e => φ e.1 e.2) B fun x hx => by
    obtain ⟨e, -, rfl⟩ := List.mem_map.mp hx
    exact h e.1 e.2
  rwa [List.length_map, nsmul_eq_mul, mul_comm] at hsum

end FinMap

namespace Apportion

open FinMap

/-- The share of a weight in `U` units. -/
def share (U T weight : ℤ) : ℤ := weight * U / T

/-- What a share is paid of `R`. -/
def paid (U R share : ℤ) : ℤ := R * share / U

section Leftover

variable {κ ν : Type} [Ord κ] [Std.TransOrd κ] (U T R : ℤ) (w : κ → ν → ℤ) (m : FinMap κ ν)

/-- What is left of `R` once every entry is paid. -/
def leftover : ℤ := R - total (fun k v => paid U R (share U T (w k v))) m

/-- What the divisions of the shares cut off. -/
def shareRest : ℤ := total (fun k v => w k v * U % T) m

/-- What the divisions of the payments cut off. -/
def paidRest : ℤ := total (fun k v => R * share U T (w k v) % U) m

end Leftover

section Rules

variable {κ ν : Type} [Ord κ] [Std.TransOrd κ] {U T R : ℤ} {w : κ → ν → ℤ} {m : FinMap κ ν}

theorem mul_total_share (hT : total w m = T) :
    T * total (fun k v => share U T (w k v)) m = U * T - shareRest U T w m := by
  have h := mul_total_ediv_add (fun k v => w k v * U) m T
  have hweights : total (fun k v => w k v * U) m = U * T := by
    rw [← hT, ← total_mul_left]
    simp only [mul_comm]
  rw [hweights] at h
  exact eq_sub_of_add_eq h

/-- **The leftover**, from the remainders of the two divisions. -/
theorem mul_leftover (hT : total w m = T) :
    U * T * leftover U T R w m = R * shareRest U T w m + T * paidRest U T R w m := by
  have hshares := mul_total_share (U := U) hT
  have hpaid := mul_total_ediv_add (fun k v => R * share U T (w k v)) m U
  rw [total_mul_left] at hpaid
  have hpaid' : U * total (fun k v => paid U R (share U T (w k v))) m =
      R * total (fun k v => share U T (w k v)) m - paidRest U T R w m := eq_sub_of_add_eq hpaid
  calc U * T * leftover U T R w m
      = U * T * R - T * (U * total (fun k v => paid U R (share U T (w k v))) m) := by
        rw [leftover]
        ring
    _ = U * T * R - R * (T * total (fun k v => share U T (w k v)) m) +
          T * paidRest U T R w m := by
        rw [hpaid']
        ring
    _ = R * shareRest U T w m + T * paidRest U T R w m := by
        rw [hshares]
        ring

theorem leftover_le_iff (hT : total w m = T) (hpos : 0 < T) (hU : 0 < U) {n : ℤ} :
    leftover U T R w m ≤ n ↔ R * shareRest U T w m + T * paidRest U T R w m ≤ U * T * n := by
  rw [← mul_leftover hT]
  exact (mul_le_mul_iff_right₀ (mul_pos hU hpos)).symm

theorem paidRest_le (hU : 0 < U) : paidRest U T R w m ≤ U * m.size :=
  total_le_size fun _ _ => (Int.emod_lt_of_pos _ hU).le

/-- **Exact shares** lose at most one unit for each entry. -/
theorem leftover_le_of_exact (hT : total w m = T) (hpos : 0 < T) (hU : 0 < U)
    (hexact : shareRest U T w m = 0) : leftover U T R w m ≤ m.size := by
  rw [leftover_le_iff hT hpos hU, hexact, mul_zero, zero_add]
  calc T * paidRest U T R w m ≤ T * (U * m.size) := by
        exact mul_le_mul_of_nonneg_left (paidRest_le hU) hpos.le
    _ = U * T * m.size := by ring

theorem le_shareRest (hT : total w m = T) (hrest : 0 < shareRest U T w m) :
    T ≤ shareRest U T w m := by
  have h := mul_total_share (U := U) hT
  have hdvd : T ∣ shareRest U T w m :=
    ⟨U - total (fun k v => share U T (w k v)) m, by rw [mul_sub, h]; ring⟩
  exact Int.le_of_dvd hrest hdvd

/-- **Truncated shares** lose as much of a large amount as one likes. -/
theorem lt_leftover_of_inexact (hT : total w m = T) (hpos : 0 < T) (hU : 0 < U)
    (hinexact : 0 < shareRest U T w m) {n : ℤ} (hR : U * n < R) (hnonneg : 0 ≤ R) :
    n < leftover U T R w m := by
  have hrest := mul_le_mul_of_nonneg_left (le_shareRest hT hinexact) hnonneg
  have hpaid : 0 ≤ T * paidRest U T R w m := by
    refine mul_nonneg hpos.le (List.sum_nonneg fun x hx => ?_)
    obtain ⟨e, -, rfl⟩ := List.mem_map.mp hx
    exact Int.emod_nonneg _ hU.ne'
  have hlt := mul_lt_mul_of_pos_right hR hpos
  rw [← not_le, leftover_le_iff hT hpos hU, not_le]
  linarith

end Rules

end Apportion
