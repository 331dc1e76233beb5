import Mathlib.Data.List.TakeWhile
import Mathlib.Data.Nat.Digits.Lemmas
import Mathlib.Tactic.Ring

set_option autoImplicit false

/-!
# Strings of digits in two bases

A string of digits, the most significant first, stands for a number; the zeros in front of it count
as well. `convert a b` rewrites a string from base `a` to base `b` and keeps those zeros.

* `value`, `digits`: the number of a string, and the string of a number;
* `length_digits`, **`digits_eq_cons`**: the length and the first digit, from the size of the
  number;
* **`convert_convert`**: there and back.
-/

namespace Radix

variable {a b k n : ℕ} {ds : List ℕ}

/-- The number a string stands for. -/
def value (b : ℕ) (ds : List ℕ) : ℕ := Nat.ofDigits b ds.reverse

/-- The string of a number, without zeros in front. -/
def digits (b n : ℕ) : List ℕ := (Nat.digits b n).reverse

/-- Every digit is below the base. -/
def Valid (b : ℕ) (ds : List ℕ) : Prop := ∀ d ∈ ds, d < b

/-- The number of zeros in front. -/
def zeros (ds : List ℕ) : ℕ := (ds.takeWhile (· = 0)).length

/-- The string after the zeros in front. -/
def strip (ds : List ℕ) : List ℕ := ds.dropWhile (· = 0)

/-- Rewrite a string of base `a` in base `b`, keeping the zeros in front. -/
def convert (a b : ℕ) (ds : List ℕ) : List ℕ :=
  List.replicate (zeros ds) 0 ++ digits b (value a ds)

/-! ## Numbers -/

theorem value_cons (d : ℕ) : value b (d :: ds) = d * b ^ ds.length + value b ds := by
  rw [value, Nat.ofDigits_reverse_cons, List.length_reverse.symm, mul_comm, add_comm]
  rfl

theorem value_zeros (k : ℕ) (ds : List ℕ) : value b (List.replicate k 0 ++ ds) = value b ds := by
  rw [value, List.reverse_append, List.reverse_replicate, Nat.ofDigits_append_replicate_zero]
  rfl

theorem value_digits (b n : ℕ) : value b (digits b n) = n := by
  rw [value, digits, List.reverse_reverse, Nat.ofDigits_digits]

theorem valid_digits (hb : 1 < b) : Valid b (digits b n) :=
  fun _ hd => Nat.digits_lt_base hb (List.mem_reverse.mp hd)

theorem Valid.append {es : List ℕ} (hds : Valid b ds) (hes : Valid b es) : Valid b (ds ++ es) := by
  intro d hd
  rcases List.mem_append.mp hd with h | h
  · exact hds d h
  · exact hes d h

theorem value_lt (hb : 1 < b) (h : Valid b ds) : value b ds < b ^ ds.length := by
  have hlt := Nat.ofDigits_lt_base_pow_length hb (l := ds.reverse)
    fun d hd => h d (List.mem_reverse.mp hd)
  rwa [List.length_reverse] at hlt

theorem head_eq_of_value (hb : 1 < b) {d e : ℕ} (h : Valid b (e :: ds))
    (hlow : d * b ^ ds.length ≤ value b (e :: ds))
    (hhigh : value b (e :: ds) < (d + 1) * b ^ ds.length) : e = d := by
  have hpos : 0 < b ^ ds.length := Nat.pow_pos (by omega)
  have hlt := value_lt hb fun x hx => h x (List.mem_cons_of_mem _ hx)
  have hdiv : value b (e :: ds) / b ^ ds.length = e := by
    rw [value_cons, mul_comm, Nat.mul_add_div hpos, Nat.div_eq_of_lt hlt, add_zero]
  rw [← hdiv]
  exact Nat.div_eq_of_lt_le hlow hhigh

theorem length_digits (hb : 1 < b) (hlow : b ^ k ≤ n) (hhigh : n < b ^ (k + 1)) :
    (digits b n).length = k + 1 := by
  have hle := (Nat.digits_length_le_iff hb n).mpr hhigh
  have hlt := (Nat.lt_digits_length_iff hb n).mpr hlow
  rw [digits, List.length_reverse]
  omega

/-- **The first digit of a number** and the digits after it. -/
theorem digits_eq_cons (hb : 1 < b) {d : ℕ} (hd : 0 < d) (hdb : d < b) (hlow : d * b ^ k ≤ n)
    (hhigh : n < (d + 1) * b ^ k) :
    ∃ rest, digits b n = d :: rest ∧ rest.length = k ∧ Valid b rest ∧
      d * b ^ k + value b rest = n := by
  have hlen : (digits b n).length = k + 1 := by
    refine length_digits hb ((Nat.le_mul_of_pos_left _ hd).trans hlow) (hhigh.trans_le ?_)
    rw [pow_succ, mul_comm]
    exact Nat.mul_le_mul_left _ hdb
  obtain ⟨e, rest, hcons⟩ := List.exists_cons_of_length_eq_add_one hlen
  have hrest : rest.length = k := by simpa [hcons] using hlen
  have hvalid : Valid b (e :: rest) := hcons ▸ valid_digits hb
  have hvalue : value b (e :: rest) = n := hcons ▸ value_digits b n
  obtain rfl : e = d := head_eq_of_value hb hvalid (by rwa [hrest, hvalue]) (by rwa [hrest, hvalue])
  refine ⟨rest, hcons, hrest, fun x hx => hvalid x (List.mem_cons_of_mem _ hx), ?_⟩
  rw [← hvalue, value_cons, hrest]

/-! ## Zeros in front -/

theorem zeros_append_strip (ds : List ℕ) : List.replicate (zeros ds) 0 ++ strip ds = ds := by
  have hzero : ds.takeWhile (· = 0) = List.replicate (zeros ds) 0 :=
    List.eq_replicate_of_mem fun d hd => by simpa using List.mem_takeWhile_imp hd
  rw [← hzero, strip]
  exact List.takeWhile_append_dropWhile

theorem digits_value (hb : 1 < b) (h : Valid b ds) (hhead : ∀ d ∈ ds.head?, d ≠ 0) :
    digits b (value b ds) = ds := by
  have hlast : ∀ hne : ds.reverse ≠ [], ds.reverse.getLast hne ≠ 0 := by
    intro hne
    have hds : ds ≠ [] := List.reverse_ne_nil_iff.mp hne
    rw [List.getLast_reverse]
    exact hhead _ (List.head?_eq_some_head hds)
  rw [digits, value, Nat.digits_ofDigits b hb _ (fun d hd => h d (List.mem_reverse.mp hd)) hlast,
    List.reverse_reverse]

theorem head_strip (ds : List ℕ) : ∀ d ∈ (strip ds).head?, d ≠ 0 := by
  intro d hd
  have h := List.head?_dropWhile_not (· = 0) ds
  rw [strip] at hd
  rw [hd] at h
  simpa using h

theorem head_digits (b n : ℕ) : ∀ d ∈ (digits b n).head?, d ≠ 0 := by
  intro d hd
  rcases eq_or_ne n 0 with rfl | hn
  · rw [digits, Nat.digits_zero] at hd
    cases hd
  · rw [digits, List.head?_reverse, List.getLast?_eq_some_getLast
      (Nat.digits_ne_nil_iff_ne_zero.mpr hn)] at hd
    obtain rfl := Option.some.inj hd
    exact Nat.getLast_digit_ne_zero b hn

theorem zeros_replicate_append (k : ℕ) (h : ∀ d ∈ ds.head?, d ≠ 0) :
    zeros (List.replicate k 0 ++ ds) = k := by
  have htake : ds.takeWhile (· = 0) = [] := by
    cases ds with
    | nil => rfl
    | cons d ds => simp [h d rfl]
  rw [zeros, List.takeWhile_append_of_pos (by simp), htake, List.append_nil, List.length_replicate]

/-! ## Conversion -/

theorem convert_of_head (h : ∀ d ∈ ds.head?, d ≠ 0) : convert a b ds = digits b (value a ds) := by
  have hzeros : zeros ds = 0 := zeros_replicate_append 0 h
  rw [convert, hzeros]
  rfl

theorem valid_convert (hb : 1 < b) (ds : List ℕ) : Valid b (convert a b ds) := by
  refine .append (fun d hd => ?_) (valid_digits hb)
  rw [List.eq_of_mem_replicate hd]
  omega

theorem value_convert (ds : List ℕ) : value b (convert a b ds) = value a ds := by
  rw [convert, value_zeros, value_digits]

theorem convert_convert (ha : 1 < a) (h : Valid a ds) : convert b a (convert a b ds) = ds := by
  have hzeros : zeros (convert a b ds) = zeros ds := zeros_replicate_append _ (head_digits b _)
  have hstrip : Valid a (strip ds) := fun d hd => h d ((List.dropWhile_sublist _).mem hd)
  have hvalue : value a (strip ds) = value a ds := by
    rw [← value_zeros (zeros ds) (strip ds), zeros_append_strip]
  rw [convert, hzeros, value_convert, ← hvalue, digits_value ha hstrip (head_strip ds),
    zeros_append_strip]

end Radix
