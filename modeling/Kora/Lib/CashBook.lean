import Mathlib.Algebra.Order.Ring.Int
import Mathlib.Tactic.Common

set_option autoImplicit false

/-!
# A ledger beside the cash

Somebody keeps a ledger of what it received, beside the cash itself. The ledger is right when the
cash covers it, and when it is what was received as long as nothing has been paid out.

* `CashBook`, `Reconciled`: ledger, cash, receipts and payments, and when they fit together;
* `Step`: how they change, each kind with the condition under which the ledger stays right;
* **`Step.reconciled_iff`**: it stays right exactly then.
-/

/-- A ledger, the cash it stands for, and what was received and paid out so far. -/
@[ext] structure CashBook where
  recorded : ℤ
  held : ℤ
  received : ℤ
  paidOut : ℤ

namespace CashBook

variable {b b' : CashBook} {C : Prop} {x y held : ℤ}

/-- The cash covers the ledger, which is what was received while nothing has been paid out. -/
structure Reconciled (b : CashBook) : Prop where
  nonneg : 0 ≤ b.recorded
  covered : b.recorded ≤ b.held
  exact : b.paidOut = 0 → b.recorded = b.received

/-- A change of the book, with the condition under which the ledger stays right. -/
inductive Step (b : CashBook) : CashBook → Prop → Prop
  /-- Nothing is recorded, and no cash leaves. -/
  | deposit (held : ℤ) : b.held ≤ held → Step b { b with held } True
  /-- Cash comes in and is recorded. -/
  | receipt (x held : ℤ) : 0 ≤ x → b.held + x ≤ held →
      Step b ⟨b.recorded + x, held, b.received + x, b.paidOut⟩ True
  /-- Something is recorded that did not come in. -/
  | claim (x : ℤ) : 0 < x → Step b { b with recorded := b.recorded + x }
      (b.paidOut ≠ 0 ∧ b.recorded + x ≤ b.held)
  /-- Cash is paid out and taken off the ledger, which leaves `y` on it. -/
  | payment (x y held : ℤ) : 0 < x → b.held - x ≤ held → (0 ≤ y ↔ x ≤ b.recorded) →
      (0 ≤ y → y ≤ b.recorded - x) →
      Step b ⟨y, held, b.received, b.paidOut + x⟩ (x ≤ b.recorded)
  /-- Cash is paid out that was never recorded. -/
  | unrecorded (x held : ℤ) : 0 < x → b.recorded = 0 → 0 ≤ held →
      Step b ⟨b.recorded, held, b.received, b.paidOut + x⟩ True
  /-- Cash is paid out and stays on the ledger. -/
  | drain (x held : ℤ) : 0 < x →
      Step b ⟨b.recorded, held, b.received, b.paidOut + x⟩ (b.recorded ≤ held)

/-- **The ledger stays right exactly under the condition of the step.** -/
theorem Step.reconciled_iff (h : Step b b' C) (hpaid : 0 ≤ b.paidOut) (hb : b.Reconciled) :
    b'.Reconciled ↔ C := by
  have hnonneg := hb.nonneg
  have hcovered := hb.covered
  cases h with
  | deposit held hle => exact iff_of_true ⟨hnonneg, hcovered.trans hle, hb.exact⟩ trivial
  | receipt x held hx hle =>
    refine iff_of_true ⟨?_, ?_, fun hzero => ?_⟩ trivial
    · show 0 ≤ b.recorded + x
      omega
    · show b.recorded + x ≤ held
      omega
    · show b.recorded + x = b.received + x
      rw [hb.exact hzero]
  | claim x hx =>
    constructor
    · intro h
      refine ⟨fun hzero => ?_, h.covered⟩
      have hbefore := hb.exact hzero
      have hafter : b.recorded + x = b.received := h.exact hzero
      omega
    · rintro ⟨hne, hle⟩
      refine ⟨?_, hle, fun hzero => absurd hzero hne⟩
      show 0 ≤ b.recorded + x
      omega
  | payment x y held hx hheld hiff hle =>
    constructor
    · intro h
      exact hiff.mp h.nonneg
    · intro hC
      have hy : 0 ≤ y := hiff.mpr hC
      refine ⟨hy, ?_, fun hzero => ?_⟩
      · show y ≤ held
        have := hle hy
        omega
      · have hsum : b.paidOut + x = 0 := hzero
        omega
  | unrecorded x held hx hzero hheld =>
    refine iff_of_true ⟨hnonneg, ?_, fun hpaid' => ?_⟩ trivial
    · show b.recorded ≤ held
      omega
    · have hsum : b.paidOut + x = 0 := hpaid'
      omega
  | drain x held hx =>
    constructor
    · intro h
      exact h.covered
    · intro hC
      refine ⟨hnonneg, hC, fun hpaid' => ?_⟩
      have hsum : b.paidOut + x = 0 := hpaid'
      omega

end CashBook
