import Mathlib.Algebra.Order.BigOperators.Group.List
import Mathlib.Data.Rat.Cast.Order
import Mathlib.Tactic.FieldSimp
import Kora.Lib.Rescale
import Kora.Shared.Validation

set_option autoImplicit false

/-!
# Decimal normalisation

`normalize_amount` and `denormalize_amount` scale an amount up on one side of the standard precision
of seven decimals and down on the other, and `bps_of_normalized` takes basis points in between.

* `scaleUp`, `scaleDown`: the two directions, and when they succeed;
* **`normalize_denormalize`**: the round trips;
* `Descends`: a computation that accepts an amount accepts the smaller ones;
* **`bpsOfNormalized_exact`**: basis points at the standard precision against the exact rate.
-/

namespace Kora

open Rescale

/-! ## Scaling -/

/-- The amount times `10 ^ k`. -/
def scaleUp (k : ℕ) (amount : ℤ) : Except KoraError ℤ := do
  let scale ← okOr (checkI128 (10 ^ k)) .arithmeticOverflow
  okOr (checkedMul amount scale) .arithmeticOverflow

/-- The amount by `10 ^ k`, rounded toward zero. -/
def scaleDown (k : ℕ) (amount : ℤ) : Except KoraError ℤ := do
  let scale ← okOr (checkI128 (10 ^ k)) .arithmeticOverflow
  okOr (checkedDiv amount scale) .arithmeticOverflow

section Scaling

variable {a r : ℤ} {k d : ℕ}

theorem normalizeAmount_eq : normalizeAmount a d =
    if d = standardDecimals then .ok a
    else if d < standardDecimals then scaleUp (standardDecimals - d) a
    else scaleDown (d - standardDecimals) a := rfl

theorem denormalizeAmount_eq : denormalizeAmount a d =
    if d = standardDecimals then .ok a
    else if d < standardDecimals then scaleDown (standardDecimals - d) a
    else scaleUp (d - standardDecimals) a := rfl

theorem scaleUp_ok (h : scaleUp k a = .ok r) : r = a * 10 ^ k := by
  obtain ⟨s, hs, hr⟩ := except_bind_ok.mp h
  obtain ⟨rfl, -⟩ := checkI128_some.mp (okOr_ok.mp hs)
  exact checkedMul_some (okOr_ok.mp hr)

theorem scaleDown_ok (h : scaleDown k a = .ok r) : r = a.tdiv (10 ^ k) := by
  obtain ⟨s, hs, hr⟩ := except_bind_ok.mp h
  obtain ⟨rfl, -⟩ := checkI128_some.mp (okOr_ok.mp hs)
  have hdiv := okOr_ok.mp hr
  rw [checkedDiv, if_neg (by positivity)] at hdiv
  exact (checkI128_some.mp hdiv).1.symm

theorem normalizeAmount_of_le (hd : d ≤ 7) (h : normalizeAmount a d = .ok r) :
    r = a * 10 ^ (7 - d) := by
  rw [normalizeAmount_eq, standardDecimals] at h
  split_ifs at h with hseven hlow
  · subst hseven
    obtain rfl := Except.ok.inj h
    simp
  · exact scaleUp_ok h
  · omega

theorem normalizeAmount_of_ge (hd : 7 ≤ d) (h : normalizeAmount a d = .ok r) :
    r = a.tdiv (10 ^ (d - 7)) := by
  rw [normalizeAmount_eq, standardDecimals] at h
  split_ifs at h with hseven hlow
  · subst hseven
    obtain rfl := Except.ok.inj h
    simp
  · omega
  · exact scaleDown_ok h

theorem denormalizeAmount_of_le (hd : d ≤ 7) (h : denormalizeAmount a d = .ok r) :
    r = a.tdiv (10 ^ (7 - d)) := by
  rw [denormalizeAmount_eq, standardDecimals] at h
  split_ifs at h with hseven hlow
  · subst hseven
    obtain rfl := Except.ok.inj h
    simp
  · exact scaleDown_ok h
  · omega

theorem denormalizeAmount_of_ge (hd : 7 ≤ d) (h : denormalizeAmount a d = .ok r) :
    r = a * 10 ^ (d - 7) := by
  rw [denormalizeAmount_eq, standardDecimals] at h
  split_ifs at h with hseven hlow
  · subst hseven
    obtain rfl := Except.ok.inj h
    simp
  · omega
  · exact scaleUp_ok h

theorem normalizeAmount_mono {a' r' : ℤ} (hle : a ≤ a') (h : normalizeAmount a d = .ok r)
    (h' : normalizeAmount a' d = .ok r') : r ≤ r' := by
  rcases Nat.le_total d 7 with hd | hd
  · rw [normalizeAmount_of_le hd h, normalizeAmount_of_le hd h']
    exact mul_le_mul_of_nonneg_right hle (by positivity)
  · rw [normalizeAmount_of_ge hd h, normalizeAmount_of_ge hd h']
    exact Int.tdiv_le_tdiv (by positivity) hle

theorem denormalizeAmount_mono {a' r' : ℤ} (hle : a ≤ a') (h : denormalizeAmount a d = .ok r)
    (h' : denormalizeAmount a' d = .ok r') : r ≤ r' := by
  rcases Nat.le_total d 7 with hd | hd
  · rw [denormalizeAmount_of_le hd h, denormalizeAmount_of_le hd h']
    exact Int.tdiv_le_tdiv (by positivity) hle
  · rw [denormalizeAmount_of_ge hd h, denormalizeAmount_of_ge hd h']
    exact mul_le_mul_of_nonneg_right hle (by positivity)

end Scaling

/-- **The round trips**, for amounts of either sign. Scaling up and back down gives the amount
back; scaling down first rounds it toward zero to a multiple of the scale. Both directions are
monotone. -/
theorem normalize_denormalize (d : ℕ) :
    (∀ a n r, normalizeAmount a d = .ok n → denormalizeAmount n d = .ok r →
      (d ≤ 7 → r = a) ∧ (7 < d → IsTruncation (10 ^ (d - 7)) a r)) ∧
    (∀ a n r, denormalizeAmount a d = .ok n → normalizeAmount n d = .ok r → 7 ≤ d → r = a) ∧
    (∀ a a' n n', a ≤ a' → normalizeAmount a d = .ok n → normalizeAmount a' d = .ok n' →
      n ≤ n') ∧
    ∀ a a' n n', a ≤ a' → denormalizeAmount a d = .ok n → denormalizeAmount a' d = .ok n' →
      n ≤ n' := by
  refine ⟨fun a n r hn hr => ⟨fun hd => ?_, fun hd => ?_⟩, fun a n r hn hr hd => ?_,
    fun _ _ _ _ => normalizeAmount_mono, fun _ _ _ _ => denormalizeAmount_mono⟩
  · rw [denormalizeAmount_of_le hd hr, normalizeAmount_of_le hd hn]
    exact Int.mul_tdiv_cancel a (by positivity)
  · rw [denormalizeAmount_of_ge hd.le hr, normalizeAmount_of_ge hd.le hn]
    exact isTruncation_tdiv (by positivity) a
  · rw [normalizeAmount_of_ge hd hr, denormalizeAmount_of_ge hd hn]
    exact Int.mul_tdiv_cancel a (by positivity)

/-! ## Basis points at the standard precision -/

/-- Where the computation accepts a nonnegative amount it accepts the smaller ones, with smaller
results. -/
def Descends (f : ℤ → Except KoraError ℤ) : Prop :=
  ∀ a a' r', 0 ≤ a → a ≤ a' → f a' = .ok r' → ∃ r, f a = .ok r ∧ 0 ≤ r ∧ r ≤ r'

/-- The rate that the basis points of an amount come to with `d` decimals. -/
def normalizedRate (bps d : ℕ) (amount : ℤ) : ℤ :=
  if d ≤ 7 then amount * bps / 10_000 else coarse (10 ^ (d - 7)) bps 10_000 amount

section Descends

variable {f g : ℤ → Except KoraError ℤ} {b : ℤ} {e : KoraError} {k bps d : ℕ}

theorem Descends.pure : Descends fun a => .ok a := by
  intro a a' r' ha hle h
  obtain rfl := Except.ok.inj h
  exact ⟨a, rfl, ha, hle⟩

theorem Descends.bind (hf : Descends f) (hg : Descends g) : Descends fun a => f a >>= g := by
  intro a a' r' ha hle h
  obtain ⟨v', hv', hr'⟩ := except_bind_ok.mp h
  obtain ⟨v, hv, hnonneg, hvv'⟩ := hf a a' v' ha hle hv'
  obtain ⟨r, hr, hrr'⟩ := hg v v' r' hnonneg hvv' hr'
  exact ⟨r, except_bind_ok.mpr ⟨v, hv, hr⟩, hrr'⟩

theorem Descends.after {x : Except KoraError ℤ} {g : ℤ → ℤ → Except KoraError ℤ}
    (hg : ∀ s, x = .ok s → Descends (g s)) : Descends fun a => x >>= fun s => g s a := by
  intro a a' r' ha hle h
  obtain ⟨s, hs, hr'⟩ := except_bind_ok.mp h
  obtain ⟨r, hr, hrr'⟩ := hg s hs a a' r' ha hle hr'
  exact ⟨r, except_bind_ok.mpr ⟨s, hs, hr⟩, hrr'⟩

theorem checkI128_descends {x y z : ℤ} (hx : 0 ≤ x) (hle : x ≤ y) (h : checkI128 y = some z) :
    checkI128 x = some x ∧ x ≤ z := by
  obtain ⟨rfl, -, hmax⟩ := checkI128_some.mp h
  have hmin : i128Min ≤ 0 := by decide
  exact ⟨checkI128_some.mpr ⟨rfl, hmin.trans hx, hle.trans hmax⟩, hle⟩

theorem descends_checkedMul (hb : 0 ≤ b) : Descends fun a => okOr (checkedMul a b) e := by
  intro a a' r' ha hle h
  obtain ⟨hr, hrr'⟩ := checkI128_descends (mul_nonneg ha hb) (mul_le_mul_of_nonneg_right hle hb)
    (okOr_ok.mp h)
  exact ⟨a * b, okOr_ok.mpr hr, mul_nonneg ha hb, hrr'⟩

theorem descends_checkedDiv (hb : 0 < b) : Descends fun a => okOr (checkedDiv a b) e := by
  intro a a' r' ha hle h
  simp only [checkedDiv, if_neg hb.ne'] at h ⊢
  have hnonneg : 0 ≤ a.tdiv b := Int.tdiv_nonneg ha hb.le
  obtain ⟨hr, hrr'⟩ := checkI128_descends hnonneg (Int.tdiv_le_tdiv hb hle) (okOr_ok.mp h)
  exact ⟨a.tdiv b, okOr_ok.mpr hr, hnonneg, hrr'⟩

theorem scale_pos {s : ℤ} (h : okOr (checkI128 (10 ^ k)) e = .ok s) : 0 < s := by
  obtain ⟨rfl, -⟩ := checkI128_some.mp (okOr_ok.mp h)
  positivity

theorem descends_scaleUp : Descends (scaleUp k) :=
  .after fun _ hs => descends_checkedMul (scale_pos hs).le

theorem descends_scaleDown : Descends (scaleDown k) :=
  .after fun _ hs => descends_checkedDiv (scale_pos hs)

theorem descends_normalizeAmount : Descends fun a => normalizeAmount a d := by
  simp only [normalizeAmount_eq]
  split_ifs
  · exact .pure
  · exact descends_scaleUp
  · exact descends_scaleDown

theorem descends_denormalizeAmount : Descends fun a => denormalizeAmount a d := by
  simp only [denormalizeAmount_eq]
  split_ifs
  · exact .pure
  · exact descends_scaleDown
  · exact descends_scaleUp

theorem descends_bpsQuotient : Descends fun a => bpsQuotient a bps := by
  have hsplit : (fun a => bpsQuotient a bps) = fun a =>
      okOr (checkedMul a bps) .arithmeticOverflow >>= fun v =>
        okOr (checkedDiv v 10_000) .arithmeticOverflow := by
    funext a
    rw [bpsQuotient]
    cases checkedMul a bps <;> rfl
  rw [hsplit]
  exact .bind (descends_checkedMul (Int.natCast_nonneg bps)) (descends_checkedDiv (by norm_num))

/-- **Basis points descend**: an amount that is charged bounds the smaller ones. -/
theorem descends_bpsOfNormalized : Descends fun a => bpsOfNormalized a bps d := by
  intro a a' r' ha hle h
  simp only [bpsOfNormalized, if_neg (ha.trans hle).not_gt] at h
  simp only [bpsOfNormalized, if_neg ha.not_gt]
  exact Descends.bind descends_normalizeAmount
    (Descends.bind descends_bpsQuotient descends_denormalizeAmount) a a' r' ha hle h

end Descends

section Rate

variable {a r : ℤ} {bps d : ℕ}

theorem bpsOfNormalized_rate (h : bpsOfNormalized a bps d = .ok r) :
    r = normalizedRate bps d a := by
  obtain ⟨ha, -⟩ := bpsOfNormalized_ok h
  rw [bpsOfNormalized, if_neg ha.not_gt] at h
  simp only [except_bind_ok] at h
  obtain ⟨n, hn, q, hq, hr⟩ := h
  obtain ⟨n', hn', hnonneg, -⟩ := descends_normalizeAmount a a n ha le_rfl hn
  obtain rfl := Except.ok.inj (hn'.symm.trans hn)
  have hquotient : q = n' * bps / 10_000 := bpsQuotient_ok hnonneg hq
  have hq₀ : 0 ≤ q := by
    rw [hquotient]
    positivity
  unfold normalizedRate
  split_ifs with hd
  · rw [denormalizeAmount_of_le hd hr, Int.tdiv_eq_ediv_of_nonneg hq₀, hquotient,
      normalizeAmount_of_le hd hn, fine_rate (by positivity) (by norm_num)]
  · have hge : 7 ≤ d := (not_le.mp hd).le
    rw [denormalizeAmount_of_ge hge hr, hquotient, normalizeAmount_of_ge hge hn,
      Int.tdiv_eq_ediv_of_nonneg ha, coarse]

theorem bpsOf_of_normalized (hd : d ≤ 7) (h : bpsOfNormalized a bps d = .ok r) :
    bpsOf a bps = .ok r := by
  obtain ⟨ha, -⟩ := bpsOfNormalized_ok h
  have hrate := bpsOfNormalized_rate h
  rw [normalizedRate, if_pos hd] at hrate
  rw [bpsOfNormalized, if_neg ha.not_gt] at h
  simp only [except_bind_ok] at h
  obtain ⟨n, hn, q, hq, -⟩ := h
  have hscaled : a ≤ n := by
    rw [normalizeAmount_of_le hd hn]
    exact le_mul_of_one_le_right ha (one_le_pow₀ (by norm_num))
  obtain ⟨q', (hq' : bpsQuotient a bps = .ok q'), -⟩ := descends_bpsQuotient a n q ha hscaled hq
  rw [bpsOf, if_neg ha.not_gt, hq', hrate, bpsQuotient_ok ha hq']

/-- `r` is a multiple of `s` at or below the exact value, by less than two multiples. -/
structure Undershoots (s : ℤ) (exact : ℚ) (r : ℤ) : Prop where
  dvd : s ∣ r
  nonneg : 0 ≤ exact - r
  lt : exact - r < 2 * s

/-- **More decimals** cost less than two multiples of the scale. -/
theorem undershoots_bpsOfNormalized (hd : 7 < d) (hbps : bps ≤ 10_000)
    (h : bpsOfNormalized a bps d = .ok r) :
    Undershoots (10 ^ (d - 7)) ((a * bps : ℚ) / 10_000) r := by
  have hrate := bpsOfNormalized_rate h
  rw [normalizedRate, if_neg hd.not_ge] at hrate
  have hs : (0 : ℤ) < 10 ^ (d - 7) := by positivity
  have hle : r * 10_000 ≤ a * bps := bpsOfNormalized_mul_le h
  have hlt : a * bps < (r + 2 * 10 ^ (d - 7)) * 10_000 := by
    rw [hrate]
    exact lt_coarse_mul hs (by norm_num) (Int.natCast_nonneg bps) (by exact_mod_cast hbps)
  refine ⟨hrate ▸ dvd_coarse, ?_, ?_⟩
  · rw [sub_nonneg, le_div_iff₀ (by norm_num)]
    exact_mod_cast hle
  · rw [sub_lt_iff_lt_add', div_lt_iff₀ (by norm_num)]
    exact_mod_cast hlt

theorem superadditive_normalizedRate : Superadditive (normalizedRate bps d) := by
  intro x y
  unfold normalizedRate
  split_ifs
  · exact superadditive_rate (by norm_num) x y
  · exact superadditive_coarse (by positivity) (by norm_num) (Int.natCast_nonneg bps) x y

/-- **Splitting an amount** never raises what is charged: the parts are accepted with the whole,
and together they are charged no more. -/
theorem bpsOfNormalized_split {parts : List ℤ} (hparts : ∀ x ∈ parts, 0 ≤ x)
    (h : bpsOfNormalized parts.sum bps d = .ok r) : ∃ fees,
      List.Forall₂ (fun x fee => bpsOfNormalized x bps d = .ok fee) parts fees ∧
      fees.sum ≤ r := by
  refine ⟨parts.map (normalizedRate bps d), ?_, ?_⟩
  · rw [List.forall₂_map_right_iff, List.forall₂_same]
    intro x hx
    have hle : x ≤ parts.sum := List.single_le_sum hparts x hx
    obtain ⟨fee, hfee, -⟩ := descends_bpsOfNormalized x parts.sum r (hparts x hx) hle h
    exact hfee.trans (congrArg Except.ok (bpsOfNormalized_rate hfee))
  · rw [bpsOfNormalized_rate h]
    refine superadditive_normalizedRate.sum_map_le ?_ parts
    simp [normalizedRate, coarse]

end Rate

/-- **Basis points against the exact rate.** Up to seven decimals they are its floor, as the plain
computation has it; with more decimals they stay less than two multiples of the scale below it. They
lie between zero and the amount, are monotone in it, and are never raised by splitting it. -/
theorem bpsOfNormalized_exact (bps d : ℕ) (hbps : bps ≤ 10_000) :
    (∀ a r, 0 ≤ a → bpsOfNormalized a bps d = .ok r →
      (d ≤ 7 → r = a * bps / 10_000 ∧ bpsOf a bps = .ok r) ∧
      (7 < d → Undershoots (10 ^ (d - 7)) ((a * bps : ℚ) / 10_000) r) ∧ 0 ≤ r ∧ r ≤ a) ∧
    (∀ a a' r r', 0 ≤ a → a ≤ a' → bpsOfNormalized a bps d = .ok r →
      bpsOfNormalized a' bps d = .ok r' → r ≤ r') ∧
    ∀ parts r, (∀ x ∈ parts, 0 ≤ x) → bpsOfNormalized parts.sum bps d = .ok r → ∃ fees,
      List.Forall₂ (fun x fee => bpsOfNormalized x bps d = .ok fee) parts fees ∧
      fees.sum ≤ r := by
  refine ⟨fun a r _ h => ⟨fun hd => ⟨?_, bpsOf_of_normalized hd h⟩, fun hd => ?_,
    bpsOfNormalized_nonneg h, bpsOfNormalized_le h hbps⟩, fun a a' r r' ha hle h h' => ?_,
    fun _ _ => bpsOfNormalized_split⟩
  · rw [bpsOfNormalized_rate h, normalizedRate, if_pos hd]
  · exact undershoots_bpsOfNormalized hd hbps h
  · obtain ⟨q, hq, -, hqr⟩ := descends_bpsOfNormalized a a' r' ha hle h'
    obtain rfl := Except.ok.inj (hq.symm.trans h)
    exact hqr

/-- A rate of two percent at nine decimals. -/
theorem bpsOfNormalized_exact_sample : (200 : ℕ) ≤ 10_000 ∧
    Undershoots 100 ((12_345 * 200 : ℚ) / 10_000) 200 := by
  refine ⟨by decide, ?_⟩
  have h := ((bpsOfNormalized_exact 200 9 (by decide)).1 12_345 200 (by decide) rfl).2.1 (by decide)
  simpa using h

end Kora
