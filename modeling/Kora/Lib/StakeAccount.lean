import Mathlib.Algebra.Order.Ring.Int
import Mathlib.Tactic.Common

set_option autoImplicit false

/-!
# A deposit that can be slashed

Somebody's deposit is kept as one recorded balance, which a new deposit replaces, a slash lowers
and a closing of the account pays out.

* `StakeAccount`, `Conserved`: the record, what moved, and when nothing is lost;
* `Step`: how they change, each kind with the condition under which nothing is lost;
* **`Step.conserved_iff`**: nothing is lost exactly then.
-/

/-- The recorded balance, and what was deposited, slashed and returned so far. -/
@[ext] structure StakeAccount where
  recorded : ℤ
  deposited : ℤ
  slashed : ℤ
  returned : ℤ

namespace StakeAccount

variable {b b' : StakeAccount} {C : Prop}

/-- Everything deposited is still recorded, or was slashed or returned. -/
def Conserved (b : StakeAccount) : Prop := b.deposited = b.recorded + b.slashed + b.returned

/-- A change of the account, with the condition under which nothing is lost. -/
inductive Step (b : StakeAccount) : StakeAccount → Prop → Prop
  | idle : Step b b True
  /-- A deposit replaces the record. -/
  | deposit (x : ℤ) : Step b ⟨x, b.deposited + x, b.slashed, b.returned⟩ (b.recorded = 0)
  /-- A part of the record is slashed. -/
  | slash (x : ℤ) : Step b ⟨b.recorded - x, b.deposited, b.slashed + x, b.returned⟩ True
  /-- The account is closed and pays out what it has. -/
  | close : Step b ⟨0, b.deposited, b.slashed, b.returned + max 0 b.recorded⟩ (0 ≤ b.recorded)

/-- **Nothing is lost exactly under the condition of the step.** -/
theorem Step.conserved_iff (h : Step b b' C) (hb : b.Conserved) : b'.Conserved ↔ C := by
  unfold Conserved at hb
  cases h with
  | idle => exact iff_of_true hb trivial
  | deposit x =>
    show b.deposited + x = x + b.slashed + b.returned ↔ b.recorded = 0
    omega
  | slash x =>
    refine iff_of_true ?_ trivial
    show b.deposited = b.recorded - x + (b.slashed + x) + b.returned
    omega
  | close =>
    show b.deposited = 0 + b.slashed + (b.returned + max 0 b.recorded) ↔ 0 ≤ b.recorded
    omega

end StakeAccount
