import Mathlib.Algebra.BigOperators.Group.List.Basic
import Mathlib.Algebra.Order.Group.Defs
import Mathlib.Algebra.Order.Ring.Int
import Mathlib.Order.Bounds.Basic
import Mathlib.Tactic.Linarith
import Mathlib.Tactic.Ring

set_option autoImplicit false

/-!
# Rates at another precision

Amounts are integers. A rate `b / n` of an amount is taken in finer units, `s` of them to a unit, or
in coarser ones, of `s` units each, and every division is rounded.

* `fine_rate`: finer units change nothing;
* **`lt_coarse_mul`**: coarser ones lose less than two of them;
* `Superadditive`, **`Superadditive.sum_map_le`**: the rates of the parts against the rate of the
  whole;
* `IsTruncation`, `isTruncation_tdiv`: rounding toward zero.
-/

namespace Rescale

/-! ## Parts and whole -/

/-- The values of two parts sum to at most the value of the whole. -/
def Superadditive {M N : Type} [Add M] [Add N] [LE N] (f : M → N) : Prop :=
  ∀ x y, f x + f y ≤ f (x + y)

/-- **The values of the parts sum to at most the value of the whole.** -/
theorem Superadditive.sum_map_le {M N : Type} [AddMonoid M] [AddMonoid N] [Preorder N]
    [AddLeftMono N] {f : M → N} (hf : Superadditive f) (hzero : 0 ≤ f 0) (l : List M) :
    (l.map f).sum ≤ f l.sum := by
  induction l with
  | nil => exact hzero
  | cons x l ih =>
    calc ((x :: l).map f).sum = f x + (l.map f).sum := by rw [List.map_cons, List.sum_cons]
      _ ≤ f x + f l.sum := add_le_add_right ih (f x)
      _ ≤ f (x + l.sum) := hf x l.sum
      _ = f (x :: l).sum := by rw [List.sum_cons]

/-! ## Finer and coarser units -/

variable {a b n s : ℤ}

/-- The rate of an amount taken in coarser units. -/
def coarse (s b n a : ℤ) : ℤ := a / s * b / n * s

theorem fine_rate (hs : 0 < s) (hn : 0 ≤ n) : a * s * b / n / s = a * b / n := by
  rw [mul_right_comm, Int.ediv_ediv_of_nonneg hn, Int.mul_ediv_mul_of_pos_left _ _ hs]

theorem dvd_coarse : s ∣ coarse s b n a := dvd_mul_left s _

/-- **Coarser units lose less than two of them**, one for each division. -/
theorem lt_coarse_mul (hs : 0 < s) (hn : 0 < n) (hb : 0 ≤ b) (hle : b ≤ n) :
    a * b < (coarse s b n a + 2 * s) * n := by
  have hamount : a < a / s * s + s := by
    have h := Int.lt_ediv_add_one_mul_self a hs
    rwa [add_mul, one_mul] at h
  have hrate : a / s * b < a / s * b / n * n + n := by
    have h := Int.lt_ediv_add_one_mul_self (a / s * b) hn
    rwa [add_mul, one_mul] at h
  calc a * b ≤ (a / s * s + s) * b := mul_le_mul_of_nonneg_right hamount.le hb
    _ = a / s * b * s + s * b := by ring
    _ < (a / s * b / n * n + n) * s + s * b := by gcongr
    _ ≤ (a / s * b / n * n + n) * s + s * n := by gcongr
    _ = (coarse s b n a + 2 * s) * n := by rw [coarse]; ring

theorem superadditive_rate (hn : 0 < n) : Superadditive fun a : ℤ => a * b / n := by
  intro x y
  have h := Int.ediv_add_ediv_le_add_ediv (x := x * b) (y := y * b) hn
  rwa [← add_mul] at h

theorem superadditive_coarse (hs : 0 < s) (hn : 0 < n) (hb : 0 ≤ b) :
    Superadditive (coarse s b n) := by
  intro x y
  have hunits : x / s + y / s ≤ (x + y) / s := Int.ediv_add_ediv_le_add_ediv hs
  calc coarse s b n x + coarse s b n y = (x / s * b / n + y / s * b / n) * s := by
        rw [coarse, coarse, add_mul]
    _ ≤ (x / s + y / s) * b / n * s := by
        have h := superadditive_rate (b := b) hn (x / s) (y / s)
        exact mul_le_mul_of_nonneg_right h hs.le
    _ ≤ coarse s b n (x + y) := by
        have hrate := mul_le_mul_of_nonneg_right hunits hb
        exact mul_le_mul_of_nonneg_right (Int.ediv_le_ediv hn hrate) hs.le

/-! ## Rounding toward zero -/

/-- `r` is `a` rounded toward zero to a multiple of `s`. -/
structure IsTruncation (s a r : ℤ) : Prop where
  down : 0 ≤ a → IsGreatest {x | s ∣ x ∧ x ≤ a} r
  up : a ≤ 0 → IsLeast {x | s ∣ x ∧ a ≤ x} r

theorem isGreatest_tdiv (hs : 0 < s) (ha : 0 ≤ a) :
    IsGreatest {x | s ∣ x ∧ x ≤ a} (a.tdiv s * s) := by
  rw [Int.tdiv_eq_ediv_of_nonneg ha]
  refine ⟨⟨dvd_mul_left s _, Int.ediv_mul_le a hs.ne'⟩, ?_⟩
  rintro x ⟨⟨k, rfl⟩, hle⟩
  have hk : k ≤ a / s := (Int.le_ediv_iff_mul_le hs).mpr (by rwa [mul_comm])
  rw [mul_comm]
  exact mul_le_mul_of_nonneg_right hk hs.le

theorem isTruncation_tdiv (hs : 0 < s) (a : ℤ) : IsTruncation s a (a.tdiv s * s) := by
  refine ⟨isGreatest_tdiv hs, fun ha => ?_⟩
  -- a negative amount mirrors a positive one
  obtain ⟨⟨hdvd, hle⟩, hmax⟩ := isGreatest_tdiv hs (neg_nonneg.mpr ha)
  rw [Int.neg_tdiv, neg_mul] at hdvd hle hmax
  refine ⟨⟨Int.dvd_neg.mp hdvd, neg_le_neg_iff.mp hle⟩, ?_⟩
  rintro x ⟨hx, hax⟩
  exact neg_le_neg_iff.mp (hmax ⟨Int.dvd_neg.mpr hx, neg_le_neg hax⟩)

end Rescale
