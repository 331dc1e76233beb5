import Mathlib.Data.List.Basic
import Mathlib.Logic.Function.Basic
import Mathlib.Tactic.Common

set_option autoImplicit false

/-!
# Ring buffers

A ring buffer of `N` slots keeps the last `N` items pushed; `head` is the slot written next.

* `RingBuffer.push`: the buffer after one more item, which overwrites the oldest once the buffer is
  full;
* `RingBuffer.Holds`: the buffer stores the end of a list of items, kept by **`Holds.push`**;
* **`Holds.newest`**: the slot `offset + 1` places before the head holds the item that many places
  before the end;
* `page`, **`pages_flatten`**: the pages of a list, one after the other, are the list.
-/

/-- A ring buffer. -/
structure RingBuffer (α : Type) where
  head : ℕ
  total : ℕ
  slot : ℕ → Option α

namespace RingBuffer

variable {α : Type} {N : ℕ} {r : RingBuffer α} {xs : List α}

/-- The buffer of `N` slots after one more item. -/
def push (N : ℕ) (r : RingBuffer α) (x : α) : RingBuffer α where
  head := (r.head + 1) % N
  total := r.total + 1
  slot := Function.update r.slot r.head (some x)

theorem push_slot (x : α) : (r.push N x).slot = Function.update r.slot r.head (some x) := rfl

/-- The buffer has seen the items `xs` and stores the last `N` of them. -/
structure Holds (N : ℕ) (r : RingBuffer α) (xs : List α) : Prop where
  total : r.total = xs.length
  head : r.head = xs.length % N
  slot : ∀ i, i < xs.length → xs.length ≤ i + N → r.slot (i % N) = xs[i]?

theorem holds_empty (slot : ℕ → Option α) : Holds N ⟨0, 0, slot⟩ [] where
  total := rfl
  head := (Nat.zero_mod N).symm
  slot := fun _ hi => absurd hi (Nat.not_lt_zero _)

/-- Less than a revolution apart, two items are in different slots. -/
theorem mod_ne_of_lt {i n : ℕ} (hi : i < n) (hn : n < i + N) : i % N ≠ n % N := by
  intro h
  have hdvd : N ∣ n - i := Nat.dvd_of_mod_eq_zero (Nat.sub_mod_eq_zero_of_mod_eq h.symm)
  have hle : N ≤ n - i := Nat.le_of_dvd (by omega) hdvd
  omega

theorem Holds.push (h : Holds N r xs) (x : α) : Holds N (r.push N x) (xs ++ [x]) where
  total := by
    rw [RingBuffer.push, h.total, List.length_append, List.length_singleton]
  head := by
    rw [RingBuffer.push, h.head, List.length_append, List.length_singleton, Nat.mod_add_mod]
  slot := by
    intro i hi hN
    rw [List.length_append, List.length_singleton] at hi hN
    rw [push_slot, h.head]
    by_cases hlast : i = xs.length
    · rw [hlast, Function.update_self, List.getElem?_concat_length]
    · have hi' : i < xs.length := by omega
      have hne : i % N ≠ xs.length % N := mod_ne_of_lt hi' (by omega)
      rw [Function.update_of_ne hne, h.slot i hi' (by omega), List.getElem?_append_left hi']

/-- Walking back from the head is counting back from the end. -/
theorem back_mod {n offset : ℕ} (hn : offset < n) (hN : offset < N) :
    (n % N + N - 1 - offset) % N = (n - 1 - offset) % N := by
  have hdiv : N * (n / N) + n % N = n := Nat.div_add_mod n N
  have hback : n % N + N - 1 - offset + N * (n / N) = n - 1 - offset + N := by omega
  rw [← Nat.add_mul_mod_self_left (n % N + N - 1 - offset) N (n / N), hback, Nat.add_mod_right]

/-- **The newest items** are found by walking back from the head. -/
theorem Holds.newest (h : Holds N r xs) {offset : ℕ} (hlen : offset < xs.length)
    (hN : offset < N) : r.slot ((r.head + N - 1 - offset) % N) = xs.reverse[offset]? := by
  rw [h.head, back_mod hlen hN, h.slot (xs.length - 1 - offset) (by omega) (by omega),
    List.getElem?_reverse hlen]

end RingBuffer

/-! ## Pages -/

namespace List

variable {α : Type}

/-- The page `p` of a list, with `size` items on a page. -/
def page (l : List α) (size p : ℕ) : List α := (l.drop (p * size)).take size

/-- **Consecutive pages are the list**, without gap or overlap. -/
theorem pages_flatten (l : List α) (size : ℕ) (count : ℕ) :
    ((range count).map (l.page size)).flatten = l.take (count * size) := by
  induction count with
  | zero => simp
  | succ count ih =>
    rw [range_succ, map_append, flatten_append, ih, map_singleton, flatten_singleton, page,
      Nat.succ_mul, take_add]

end List
