import Mathlib.Data.List.Basic
import Mathlib.Tactic.Common

set_option autoImplicit false

/-!
# Reading page by page

A store serves pages of a list; a reader asks for one page after the other and stops at the first
empty one.

* `Pages.Serves`: the page at an offset is the next `n` items of the list;
* `Pages.window_clamped`: clamping the offset and the end changes nothing;
* `Pages.Reads`: what a reader has at its first empty page;
* **`Serves.reads_iff`**: that is the list from the first offset on.
-/

namespace Pages

variable {α : Type} {fetch : ℕ → List α → Prop} {n : ℕ} {l : List α}

/-- The page at each offset is the next `n` items of `l`. -/
def Serves (fetch : ℕ → List α → Prop) (n : ℕ) (l : List α) : Prop :=
  ∀ o page, fetch o page ↔ page = (l.drop o).take n

/-- The pages from offset `o` on, `n` apart, up to the first empty one. -/
inductive Reads (fetch : ℕ → List α → Prop) (n : ℕ) : ℕ → List α → Prop
  | stop {o : ℕ} : fetch o [] → Reads fetch n o []
  | next {o : ℕ} {page rest : List α} : fetch o page → page ≠ [] → Reads fetch n (o + n) rest →
      Reads fetch n o (page ++ rest)

theorem window_eq_nil (hn : 0 < n) {o : ℕ} : (l.drop o).take n = [] ↔ l.drop o = [] := by
  rw [List.take_eq_nil_iff, or_iff_right (Nat.ne_of_gt hn)]

theorem window_append {o : ℕ} : (l.drop o).take n ++ l.drop (o + n) = l.drop o := by
  rw [← List.drop_drop, List.take_append_drop]

/-- A window is the same when its offset and its end are clamped to the list. -/
theorem window_clamped (l : List α) (o n : ℕ) :
    (l.drop (min o l.length)).take (min (min o l.length + n) l.length - min o l.length) =
      (l.drop o).take n := by
  rcases Nat.le_total o l.length with hle | hle
  · rw [Nat.min_eq_left hle, ← Nat.sub_min_sub_right, Nat.add_sub_cancel_left,
      ← List.length_drop, ← List.take_eq_take_min]
  · rw [Nat.min_eq_right hle, List.drop_length, List.drop_eq_nil_of_le hle, List.take_nil,
      List.take_nil]

/-- **A reader has the list**, without gap or repetition. -/
theorem Serves.reads_iff (h : Serves fetch n l) (hn : 0 < n) {o : ℕ} {xs : List α} :
    Reads fetch n o xs ↔ xs = l.drop o := by
  constructor
  · intro hreads
    induction hreads with
    | stop hfetch => exact ((window_eq_nil hn).mp ((h _ _).mp hfetch).symm).symm
    | next hfetch _ _ ih => rw [(h _ _).mp hfetch, ih, window_append]
  · rintro rfl
    -- on what is left to read
    induction hk : l.length - o using Nat.strongRecOn generalizing o with
    | ind k ih =>
      by_cases hend : l.drop o = []
      · rw [hend]
        exact .stop ((h _ _).mpr ((window_eq_nil hn).mpr hend).symm)
      · have hlt : o < l.length := Nat.lt_of_not_le fun hle => hend (List.drop_eq_nil_of_le hle)
        rw [← window_append (n := n)]
        exact .next ((h _ _).mpr rfl) ((window_eq_nil hn).not.mpr hend)
          (ih (l.length - (o + n)) (by omega) rfl)

end Pages
