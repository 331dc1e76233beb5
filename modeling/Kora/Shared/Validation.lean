import Mathlib.Algebra.Order.Ring.Int
import Mathlib.Tactic.Linarith
import Mathlib.Tactic.Ring
import Kora.Shared.Types

set_option autoImplicit false

/-!
# Validation and checked arithmetic

`shared/src/validation.rs`: the guards the contracts share, `i128` arithmetic that reports
overflow, and basis points of an amount, plain (`bpsOf`) and through the standard precision of
seven decimals (`bpsOfNormalized`).

* **`bpsOfNormalized_mul_le`**: a share `bps` of an amount, rounded twice, is at most the exact
  share;
* `bpsOfNormalized_nonneg`, `bpsOfNormalized_le`: it lies between zero and the amount.
-/

namespace Kora

/-! ## Constants -/

/-- `i128::MAX`. -/
def i128Max : ℤ := 2 ^ 127 - 1

/-- `i128::MIN`. -/
def i128Min : ℤ := -2 ^ 127

/-- Upper bound for amounts, half of the `i128` range. -/
def maxAmount : ℤ := i128Max / 2

/-- Largest number of bytes in an IPFS CID. -/
def maxIpfsCidLen : ℕ := 128

/-- Largest number of bytes in a debtor hash. -/
def maxDebtorHashLen : ℕ := 64

/-- The delay of timelocked changes, in seconds. -/
def upgradeTimelockDelay : ℕ := 86_400

/-- The precision of all internal arithmetic. -/
def standardDecimals : ℕ := 7

/-! ## Guards -/

/-- A guard: nothing, or the error `e` when `c` fails. -/
def guardK (c : Prop) [Decidable c] (e : KoraError) : Except KoraError Unit :=
  if c then .ok () else .error e

@[simp] theorem guardK_ok {c : Prop} [Decidable c] {e : KoraError} {u : Unit} :
    guardK c e = .ok u ↔ c := by
  unfold guardK
  split_ifs with h <;> simp [h]

/-- Reject amounts above the ceiling. -/
def requireWithinMaxAmount (amount : ℤ) : Except KoraError Unit :=
  guardK (amount ≤ maxAmount) .invalidAmount

/-- Reject zero or negative amounts. -/
def requireNonZeroAmount (amount : ℤ) : Except KoraError Unit :=
  guardK (0 < amount) .invalidAmount

/-- Reject timestamps that are not strictly in the future of `now`. -/
def requireFutureTimestamp (now ts : ℕ) : Except KoraError Unit :=
  guardK (now < ts) .invalidDueDate

/-- Reject risk scores above 100. -/
def requireValidRiskScore (score : ℕ) : Except KoraError Unit :=
  guardK (score ≤ 100) .invalidRiskScore

/-- Reject fee rates above 10 000 bps. -/
def requireValidFeeBps (bps : ℕ) : Except KoraError Unit :=
  guardK (bps ≤ 10_000) .invalidFeeRate

/-- Reject empty strings. -/
def requireNonEmptyString (s : String) : Except KoraError Unit :=
  guardK (s.utf8ByteSize ≠ 0) .emptyString

/-- Reject empty byte strings. -/
def requireNonEmptyBytes (b : Bytes) : Except KoraError Unit :=
  guardK (b.length ≠ 0) .emptyBytes

/-- Reject strings of more than `maxBytes` bytes. -/
def requireMaxLengthString (s : String) (maxBytes : ℕ) : Except KoraError Unit :=
  guardK (s.utf8ByteSize ≤ maxBytes) .fieldTooLong

/-- Reject byte strings of more than `maxBytes` bytes. -/
def requireMaxLengthBytes (b : Bytes) (maxBytes : ℕ) : Except KoraError Unit :=
  guardK (b.length ≤ maxBytes) .fieldTooLong

/-- Require an exact byte length. -/
def requireExactLength (b : Bytes) (expected : ℕ) : Except KoraError Unit :=
  guardK (b.length = expected) .invalidLength

/-- Reject the contract's own address. -/
def requireNotSelf (self addr : Address) : Except KoraError Unit :=
  guardK (addr ≠ self) .invalidAddress

/-- Reject two equal addresses. -/
def requireDistinct (a b : Address) : Except KoraError Unit := guardK (a ≠ b) .invalidAddress

attribute [simp] requireWithinMaxAmount requireNonZeroAmount requireFutureTimestamp
  requireValidRiskScore requireValidFeeBps requireNonEmptyString requireNonEmptyBytes
  requireMaxLengthString requireMaxLengthBytes requireExactLength requireNotSelf requireDistinct

/-! ## Checked arithmetic -/

/-- A value in the `i128` range. -/
def checkI128 (x : ℤ) : Option ℤ := if i128Min ≤ x ∧ x ≤ i128Max then some x else none

theorem checkI128_some {x y : ℤ} : checkI128 x = some y ↔ x = y ∧ i128Min ≤ x ∧ x ≤ i128Max := by
  unfold checkI128
  split_ifs with h <;> simp [h]

/-- `i128::checked_add`. -/
def checkedAdd (a b : ℤ) : Option ℤ := checkI128 (a + b)

/-- `i128::checked_sub`. -/
def checkedSub (a b : ℤ) : Option ℤ := checkI128 (a - b)

/-- `i128::checked_mul`. -/
def checkedMul (a b : ℤ) : Option ℤ := checkI128 (a * b)

/-- `i128::checked_div`, rounding toward zero. -/
def checkedDiv (a b : ℤ) : Option ℤ := if b = 0 then none else checkI128 (a.tdiv b)

/-- `u32::checked_add`. -/
def checkedAddU32 (a b : ℕ) : Option ℕ := if a + b < 2 ^ 32 then some (a + b) else none

/-- `u64::checked_add`. -/
def checkedAddU64 (a b : ℕ) : Option ℕ := if a + b < 2 ^ 64 then some (a + b) else none

/-- `u64` subtraction, none when it underflows. -/
def checkedSubU64 (a b : ℕ) : Option ℕ := if b ≤ a then some (a - b) else none

/-- `u64::saturating_mul`. -/
def saturatingMulU64 (a b : ℕ) : ℕ := min (a * b) (2 ^ 64 - 1)

/-- `i128::saturating_add`. -/
def saturatingAdd (a b : ℤ) : ℤ := max i128Min (min i128Max (a + b))

/-- `i128::saturating_sub`. -/
def saturatingSub (a b : ℤ) : ℤ := max i128Min (min i128Max (a - b))

theorem checkedAdd_some {a b c : ℤ} (h : checkedAdd a b = some c) : c = a + b :=
  (checkI128_some.mp h).1.symm

theorem checkedSub_some {a b c : ℤ} (h : checkedSub a b = some c) : c = a - b :=
  (checkI128_some.mp h).1.symm

theorem checkedMul_some {a b c : ℤ} (h : checkedMul a b = some c) : c = a * b :=
  (checkI128_some.mp h).1.symm

theorem saturatingAdd_of_checked {a b c : ℤ} (h : checkedAdd a b = some c) :
    saturatingAdd a b = c := by
  obtain ⟨rfl, hlo, hhi⟩ := checkI128_some.mp h
  rw [saturatingAdd, min_eq_right hhi, max_eq_right hlo]

theorem checkedAddU32_some {a b c : ℕ} :
    checkedAddU32 a b = some c ↔ a + b = c ∧ a + b < 2 ^ 32 := by
  unfold checkedAddU32
  split_ifs with h
  · simp only [Option.some.injEq, h, and_true]
  · simp only [h, and_false]

theorem checkedAddU64_some {a b c : ℕ} :
    checkedAddU64 a b = some c ↔ a + b = c ∧ a + b < 2 ^ 64 := by
  unfold checkedAddU64
  split_ifs with h
  · simp only [Option.some.injEq, h, and_true]
  · simp only [h, and_false]

theorem checkedDiv_some {a b c : ℤ} (ha : 0 ≤ a) (h : checkedDiv a b = some c) : c = a / b := by
  unfold checkedDiv at h
  split_ifs at h
  rw [← Int.tdiv_eq_ediv_of_nonneg ha]
  exact (checkI128_some.mp h).1.symm

/-- The value of an option, or the error `e`. -/
def okOr {α : Type} (o : Option α) (e : KoraError) : Except KoraError α :=
  match o with
  | some a => .ok a
  | none => .error e

@[simp] theorem okOr_ok {α : Type} {o : Option α} {e : KoraError} {a : α} :
    okOr o e = .ok a ↔ o = some a := by
  cases o <;> simp [okOr]

theorem okOr_error {α : Type} {o : Option α} {e e' : KoraError} :
    okOr o e = .error e' ↔ o = none ∧ e = e' := by
  cases o <;> simp [okOr]

/-- Addition reporting overflow. -/
def safeAdd (a b : ℤ) : Except KoraError ℤ := okOr (checkedAdd a b) .arithmeticOverflow

/-- Subtraction reporting underflow. -/
def safeSub (a b : ℤ) : Except KoraError ℤ := okOr (checkedSub a b) .arithmeticUnderflow

theorem safeAdd_ok {a b c : ℤ} (h : safeAdd a b = .ok c) : c = a + b :=
  checkedAdd_some (okOr_ok.mp h)

theorem safeSub_ok {a b c : ℤ} (h : safeSub a b = .ok c) : c = a - b :=
  checkedSub_some (okOr_ok.mp h)

/-! ## Basis points -/

/-- `amount * bps / 10_000` with overflow detection. -/
def bpsQuotient (amount : ℤ) (bps : ℕ) : Except KoraError ℤ :=
  okOr ((checkedMul amount bps).bind fun v => checkedDiv v 10_000) .arithmeticOverflow

/-- `amount * bps / 10_000`, rejecting negative amounts. -/
def bpsOf (amount : ℤ) (bps : ℕ) : Except KoraError ℤ :=
  if amount < 0 then .error .invalidAmount else bpsQuotient amount bps

/-- From `tokenDecimals` to the standard precision. -/
def normalizeAmount (amount : ℤ) (tokenDecimals : ℕ) : Except KoraError ℤ :=
  if tokenDecimals = standardDecimals then .ok amount
  else if tokenDecimals < standardDecimals then do
    let scale ← okOr (checkI128 (10 ^ (standardDecimals - tokenDecimals))) .arithmeticOverflow
    okOr (checkedMul amount scale) .arithmeticOverflow
  else do
    let scale ← okOr (checkI128 (10 ^ (tokenDecimals - standardDecimals))) .arithmeticOverflow
    okOr (checkedDiv amount scale) .arithmeticOverflow

/-- From the standard precision back to `tokenDecimals`. -/
def denormalizeAmount (amount : ℤ) (tokenDecimals : ℕ) : Except KoraError ℤ :=
  if tokenDecimals = standardDecimals then .ok amount
  else if tokenDecimals < standardDecimals then do
    let scale ← okOr (checkI128 (10 ^ (standardDecimals - tokenDecimals))) .arithmeticOverflow
    okOr (checkedDiv amount scale) .arithmeticOverflow
  else do
    let scale ← okOr (checkI128 (10 ^ (tokenDecimals - standardDecimals))) .arithmeticOverflow
    okOr (checkedMul amount scale) .arithmeticOverflow

/-- `amount * bps / 10_000` computed at the standard precision. -/
def bpsOfNormalized (amount : ℤ) (bps tokenDecimals : ℕ) : Except KoraError ℤ :=
  if amount < 0 then .error .invalidAmount
  else do
    let normalized ← normalizeAmount amount tokenDecimals
    let result ← bpsQuotient normalized bps
    denormalizeAmount result tokenDecimals

theorem except_bind_ok {δ α β : Type} {x : Except δ α} {f : α → Except δ β} {b : β} :
    (x >>= f) = .ok b ↔ ∃ a, x = .ok a ∧ f a = .ok b := by
  cases x <;> simp [bind, Except.bind]

theorem bpsQuotient_ok {a c : ℤ} {bps : ℕ} (ha : 0 ≤ a) (h : bpsQuotient a bps = .ok c) :
    c = a * bps / 10_000 := by
  obtain ⟨v, hv, hc⟩ := Option.bind_eq_some_iff.mp (okOr_ok.mp h)
  obtain rfl := checkedMul_some hv
  exact checkedDiv_some (by positivity) hc

theorem bpsOf_nonneg {a r : ℤ} {bps : ℕ} (h : bpsOf a bps = .ok r) : 0 ≤ r := by
  unfold bpsOf at h
  split_ifs at h with ha
  rw [not_lt] at ha
  rw [bpsQuotient_ok ha h]
  positivity

/-- Normalisation scales an amount up, or down with rounding; denormalisation undoes the scale. -/
theorem bpsOfNormalized_ok {a r : ℤ} {bps d : ℕ} (h : bpsOfNormalized a bps d = .ok r) :
    0 ≤ a ∧ ∃ s : ℤ, 0 < s ∧
      (r = a * s * bps / 10_000 / s ∨ r = a / s * bps / 10_000 * s) := by
  unfold bpsOfNormalized at h
  split_ifs at h with ha
  rw [not_lt] at ha
  refine ⟨ha, ?_⟩
  simp only [except_bind_ok] at h
  obtain ⟨n, hn, q, hq, hr⟩ := h
  unfold normalizeAmount at hn
  unfold denormalizeAmount at hr
  split_ifs at hn hr
  · refine ⟨1, one_pos, Or.inl ?_⟩
    cases hn
    cases hr
    rw [bpsQuotient_ok ha hq, mul_one, Int.ediv_one]
  · simp only [except_bind_ok, okOr_ok] at hn hr
    obtain ⟨s, hs, hn⟩ := hn
    obtain ⟨s', hs', hr⟩ := hr
    obtain rfl : s = s' := Option.some.inj (hs.symm.trans hs')
    have hpos : 0 < s := by rw [← (checkI128_some.mp hs).1]; positivity
    refine ⟨s, hpos, Or.inl ?_⟩
    obtain rfl := checkedMul_some hn
    have hq := bpsQuotient_ok (by positivity) hq
    rw [checkedDiv_some (by rw [hq]; positivity) hr, hq]
  · simp only [except_bind_ok, okOr_ok] at hn hr
    obtain ⟨s, hs, hn⟩ := hn
    obtain ⟨s', hs', hr⟩ := hr
    obtain rfl : s = s' := Option.some.inj (hs.symm.trans hs')
    have hpos : 0 < s := by rw [← (checkI128_some.mp hs).1]; positivity
    refine ⟨s, hpos, Or.inr ?_⟩
    obtain rfl := checkedDiv_some ha hn
    have hq := bpsQuotient_ok (Int.ediv_nonneg ha hpos.le) hq
    rw [checkedMul_some hr, hq]

theorem bpsOfNormalized_standard {a r : ℤ} {bps : ℕ}
    (h : bpsOfNormalized a bps standardDecimals = .ok r) : r = a * bps / 10_000 := by
  unfold bpsOfNormalized at h
  split_ifs at h with ha
  rw [not_lt] at ha
  simp only [normalizeAmount, denormalizeAmount, if_true, except_bind_ok] at h
  obtain ⟨_, ⟨⟩, _, hq, ⟨⟩⟩ := h
  exact bpsQuotient_ok ha hq

/-- **Rounding never favours the receiver.** -/
theorem bpsOfNormalized_mul_le {a r : ℤ} {bps d : ℕ} (h : bpsOfNormalized a bps d = .ok r) :
    r * 10_000 ≤ a * bps := by
  obtain ⟨ha, s, hs, rfl | rfl⟩ := bpsOfNormalized_ok h
  · have h₁ := Int.ediv_mul_le (a * s * bps / 10_000) hs.ne'
    have h₂ := Int.ediv_mul_le (a * s * bps) (show (10_000 : ℤ) ≠ 0 by decide)
    refine le_of_mul_le_mul_right ?_ hs
    nlinarith
  · have h₁ := Int.ediv_mul_le a hs.ne'
    have h₂ := Int.ediv_mul_le (a / s * bps) (show (10_000 : ℤ) ≠ 0 by decide)
    have h₃ := mul_le_mul_of_nonneg_right h₂ hs.le
    have h₄ := mul_le_mul_of_nonneg_right h₁ (Int.natCast_nonneg bps)
    nlinarith

theorem bpsOfNormalized_nonneg {a r : ℤ} {bps d : ℕ} (h : bpsOfNormalized a bps d = .ok r) :
    0 ≤ r := by
  obtain ⟨ha, s, hs, rfl | rfl⟩ := bpsOfNormalized_ok h
  · positivity
  · have := Int.ediv_nonneg ha hs.le
    positivity

theorem bpsOfNormalized_le {a r : ℤ} {bps d : ℕ} (h : bpsOfNormalized a bps d = .ok r)
    (hb : bps ≤ 10_000) : r ≤ a := by
  have h₁ := bpsOfNormalized_mul_le h
  have ha : 0 ≤ a := (bpsOfNormalized_ok h).1
  have h₂ : a * bps ≤ a * 10_000 := mul_le_mul_of_nonneg_left (by exact_mod_cast hb) ha
  omega

end Kora
