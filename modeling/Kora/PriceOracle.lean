import Kora.Host

set_option autoImplicit false

/-!
# The price oracle

`price_oracle/src/lib.rs`: prices of currency pairs, scaled by `10_000_000`, and conversion at a
price that is at most an hour old.

* `quote`: the rounded product of an amount and the stored price, or the amount itself when it is
  in the target currency already;
* **`convert_ok`**, **`convert_pos`**: a conversion yields the quote, which is positive.
-/

namespace Kora.PriceOracle

open Exec

/-- Largest age of a usable price, in seconds. -/
def maxStalenessSecs : ℕ := 3600

/-- A price and the time it was set. -/
structure PriceData where
  price : ℤ
  timestamp : ℕ
  deriving DecidableEq, Repr

/-- The storage of the contract. -/
structure Storage where
  admin : Option Address := none
  price : Symbol → Symbol → Option PriceData := fun _ _ => none

/-- A body of the contract. -/
abbrev Body (α : Type) : Type := Host Storage α

/-- Only the stored admin passes. -/
def requireAdmin (caller : Address) : Body Unit := do
  let admin ← fetch Storage.admin .notInitialized
  ensure (admin = caller) .notAdmin

/-- One-time initialisation. -/
def initializeContract (admin : Address) : Body Unit := do
  let old ← gets Storage.admin
  ensure (old = none) .alreadyInitialized
  modify fun S => { S with admin := some admin }

/-- Set the price of a pair. -/
def setPrice (admin : Address) (base quote : Symbol) (price : ℤ) : Body Unit := do
  requireAuth admin
  requireAdmin admin
  ensure (0 < price) .invalidAmount
  let now ← timestamp
  modify fun S => { S with
    price := Function.update S.price base (Function.update (S.price base) quote
      (some ⟨price, now⟩)) }

/-- The price of a pair, unless it is missing or stale. -/
def getPrice (base quote : Symbol) : Body PriceData := do
  let data ← fetch (fun S => S.price base quote) .invalidAmount
  let now ← timestamp
  ensure (now - data.timestamp ≤ maxStalenessSecs) .invoiceExpired
  pure data

/-- Convert an amount at the stored price. -/
def convert (amount : ℤ) (source target : Symbol) : Body ℤ :=
  if source = target then pure amount
  else do
    let data ← getPrice source target
    let converted ← check (okOr ((checkedMul amount data.price).bind fun v =>
      checkedDiv v 10_000_000) .arithmeticOverflow)
    ensure (0 < converted) .invalidAmount
    pure converted

/-- The entry points that write. -/
inductive Op : Type
  | initializeContract (admin : Address)
  | setPrice (admin : Address) (base quote : Symbol) (price : ℤ)

/-- Run an entry point. -/
def Op.exec : Op → Body Unit
  | .initializeContract admin => PriceOracle.initializeContract admin
  | .setPrice admin base quote price => PriceOracle.setPrice admin base quote price

/-- What a conversion yields when it succeeds. -/
def quote (S : Storage) (amount : ℤ) (source target : Symbol) : ℤ :=
  if source = target then amount
  else match S.price source target with
    | some data => (amount * data.price).tdiv 10_000_000
    | none => 0

variable {env : Env} {S T : Storage} {amount r : ℤ} {source target : Symbol}

theorem convert_ok (h : convert amount source target env S = .ok r T) :
    r = quote S amount source target ∧ T = S := by
  unfold convert at h
  unfold quote
  rw [ite_run] at h
  split_ifs at h ⊢
  · obtain ⟨rfl, rfl⟩ := pure_ok.mp h
    exact ⟨rfl, rfl⟩
  · simp only [getPrice, assoc_run, fetch_seq_ok, timestamp_run, ensure_seq_ok, pure_run,
      check_seq_ok, pure_ok, okOr_ok, Option.bind_eq_some_iff] at h
    obtain ⟨data, hd, -, c, ⟨v, hv, hc⟩, -, rfl, rfl⟩ := h
    obtain rfl := checkedMul_some hv
    rw [hd]
    unfold checkedDiv at hc
    rw [if_neg (by decide)] at hc
    exact ⟨(checkI128_some.mp hc).1.symm, rfl⟩

theorem convert_pos (ha : 0 < amount) (h : convert amount source target env S = .ok r T) :
    0 < r := by
  unfold convert at h
  rw [ite_run] at h
  split_ifs at h
  · rw [← (pure_ok.mp h).1]
    exact ha
  · simp only [bind_ok, check_ok, ensure_ok, pure_ok] at h
    obtain ⟨_, _, -, _, _, -, _, _, ⟨hpos, -⟩, rfl, -⟩ := h
    exact hpos

end Kora.PriceOracle
