import Mathlib.Algebra.BigOperators.Group.List.Basic
import Mathlib.Algebra.BigOperators.Ring.List
import Mathlib.Algebra.Group.Prod
import Mathlib.Algebra.Order.BigOperators.Group.List
import Mathlib.Algebra.Order.Group.Defs
import Mathlib.Data.List.Perm.Basic
import Mathlib.Tactic.Abel
import Std.Data.ExtTreeMap

set_option autoImplicit false

/-!
# Sums over finite maps

`FinMap κ ν` is the extensional tree map of the standard library, with entries in key order.
`total φ m` is the sum of `φ k v` over the entries of `m`.

* `toList_insert_perm`, `toList_erase_perm`: the entries after an update;
* **`total_insert`**, **`total_erase`**: an update changes a total by the new entry minus the old
  one;
* `entry_erase`, **`total_move`**: an entry moves to another key;
* `total_congr`, `total_single`, `total_nonneg`, `total_eq_zero_iff`: comparing totals entry by
  entry.
-/

/-- Finite maps with entries ordered by key. -/
abbrev FinMap (κ ν : Type) [Ord κ] : Type := Std.ExtTreeMap κ ν compare

namespace FinMap

open Std

variable {κ ν : Type} [Ord κ] [TransOrd κ] [LawfulEqOrd κ] [DecidableEq κ]

omit [DecidableEq κ] in
@[simp] theorem getElem?_insert' (m : FinMap κ ν) (k a : κ) (v : ν) [Decidable (k = a)] :
    (m.insert k v)[a]? = if k = a then some v else m[a]? := by
  rw [ExtTreeMap.getElem?_insert]
  simp only [Std.compare_eq_iff_eq]

omit [DecidableEq κ] in
@[simp] theorem getElem?_erase' (m : FinMap κ ν) (k a : κ) [Decidable (k = a)] :
    (m.erase k)[a]? = if k = a then none else m[a]? := by
  rw [ExtTreeMap.getElem?_erase]
  simp only [Std.compare_eq_iff_eq]

omit [DecidableEq κ] in
theorem insert_eq_self_iff {m : FinMap κ ν} {k : κ} {v : ν} :
    m.insert k v = m ↔ m[k]? = some v := by
  classical
  constructor
  · intro h
    rw [← h, getElem?_insert', if_pos rfl]
  · intro h
    refine ExtTreeMap.ext_getElem? fun a => ?_
    rw [getElem?_insert']
    split_ifs with ha
    · rw [← ha, h]
    · rfl

omit [DecidableEq κ] in
theorem mem_toList {m : FinMap κ ν} {e : κ × ν} : e ∈ m.toList ↔ m[e.1]? = some e.2 :=
  ExtTreeMap.mem_toList_iff_getElem?_eq_some

omit [DecidableEq κ] in
theorem nodup_toList (m : FinMap κ ν) : m.toList.Nodup := by
  refine (ExtTreeMap.distinct_keys_toList (t := m)).imp ?_
  rintro a _ h rfl
  exact h compare_self

/-- The entries of `m` at keys other than `k`. -/
def others (m : FinMap κ ν) (k : κ) : List (κ × ν) := m.toList.filter fun e => decide (e.1 ≠ k)

theorem mem_others {m : FinMap κ ν} {k : κ} {e : κ × ν} :
    e ∈ m.others k ↔ m[e.1]? = some e.2 ∧ e.1 ≠ k := by
  simp [others, mem_toList]

theorem nodup_others (m : FinMap κ ν) (k : κ) : (m.others k).Nodup := (nodup_toList m).filter _

theorem nodup_cons_others (m : FinMap κ ν) (k : κ) (v : ν) : ((k, v) :: m.others k).Nodup := by
  rw [List.nodup_cons]
  exact ⟨fun h => (mem_others.mp h).2 rfl, nodup_others m k⟩

theorem toList_insert_perm (m : FinMap κ ν) (k : κ) (v : ν) :
    (m.insert k v).toList.Perm ((k, v) :: m.others k) := by
  rw [List.perm_ext_iff_of_nodup (nodup_toList _) (nodup_cons_others m k v)]
  rintro ⟨a, u⟩
  rw [mem_toList, List.mem_cons, mem_others, getElem?_insert', Prod.mk.injEq]
  by_cases h : k = a
  · subst h
    simp [eq_comm]
  · simp [h, Ne.symm h]

theorem toList_erase_perm (m : FinMap κ ν) (k : κ) : (m.erase k).toList.Perm (m.others k) := by
  rw [List.perm_ext_iff_of_nodup (nodup_toList _) (nodup_others m k)]
  rintro ⟨a, u⟩
  rw [mem_toList, mem_others, getElem?_erase']
  by_cases h : k = a
  · simp [h]
  · simp [h, Ne.symm h]

theorem toList_perm_of_some {m : FinMap κ ν} {k : κ} {v : ν} (h : m[k]? = some v) :
    m.toList.Perm ((k, v) :: m.others k) := by
  rw [List.perm_ext_iff_of_nodup (nodup_toList _) (nodup_cons_others m k v)]
  rintro ⟨a, u⟩
  rw [mem_toList, List.mem_cons, mem_others, Prod.mk.injEq]
  by_cases ha : a = k
  · subst ha
    simp [h, eq_comm]
  · simp [ha]

theorem others_eq_of_none {m : FinMap κ ν} {k : κ} (h : m[k]? = none) : m.others k = m.toList := by
  rw [others, List.filter_eq_self]
  intro e he
  have := mem_toList.mp he
  rw [decide_eq_true_iff]
  rintro rfl
  rw [h] at this
  cases this

/-! ## Totals -/

section Total

variable {M : Type} [AddCommGroup M]

/-- The sum of `φ` over the entries of `m`. -/
def total (φ : κ → ν → M) (m : FinMap κ ν) : M := (m.toList.map fun e => φ e.1 e.2).sum

/-- The contribution of key `k` to a total. -/
def entry (φ : κ → ν → M) (m : FinMap κ ν) (k : κ) : M := (m[k]?).elim 0 (φ k)

variable (φ : κ → ν → M) (m : FinMap κ ν)

omit [LawfulEqOrd κ] [DecidableEq κ] in
theorem entry_of_some {k : κ} {v : ν} (h : m[k]? = some v) : entry φ m k = φ k v := by
  rw [entry, h]; rfl

omit [LawfulEqOrd κ] [DecidableEq κ] in
theorem entry_of_none {k : κ} (h : m[k]? = none) : entry φ m k = 0 := by
  rw [entry, h]; rfl

omit [LawfulEqOrd κ] [DecidableEq κ] in
@[simp] theorem total_empty : total φ (∅ : FinMap κ ν) = 0 := by
  rw [total, ExtTreeMap.toList_eq_nil_iff.mpr rfl, List.map_nil, List.sum_nil]

theorem total_eq_entry_add (k : κ) :
    total φ m = entry φ m k + ((m.others k).map fun e => φ e.1 e.2).sum := by
  cases h : m[k]? with
  | none => rw [entry_of_none φ m h, others_eq_of_none h, zero_add, total]
  | some v =>
    rw [entry_of_some φ m h, total, ((toList_perm_of_some h).map _).sum_eq]
    simp

theorem total_insert (k : κ) (v : ν) :
    total φ (m.insert k v) = total φ m - entry φ m k + φ k v := by
  rw [total, ((toList_insert_perm m k v).map _).sum_eq, total_eq_entry_add φ m k]
  simp only [List.map_cons, List.sum_cons]
  abel

theorem total_erase (k : κ) : total φ (m.erase k) = total φ m - entry φ m k := by
  rw [total, ((toList_erase_perm m k).map _).sum_eq, total_eq_entry_add φ m k]
  abel

theorem entry_erase (k a : κ) : entry φ (m.erase k) a = if a = k then 0 else entry φ m a := by
  rw [entry, getElem?_erase']
  by_cases h : a = k
  · rw [if_pos h, if_pos h.symm]
    rfl
  · rw [if_neg h, if_neg (Ne.symm h)]
    rfl

/-- **An entry moves to another key**, over the entry that was there. -/
theorem total_move {k a : κ} {v v' : ν} (hk : m[k]? = some v) (hv : φ a v' = φ k v) :
    total φ ((m.erase k).insert a v') = total φ m - if a = k then 0 else entry φ m a := by
  rw [total_insert, total_erase, entry_erase, entry_of_some φ m hk, hv]
  abel

omit [DecidableEq κ] in
theorem total_congr {φ ψ : κ → ν → M} {m : FinMap κ ν}
    (h : ∀ k v, m[k]? = some v → φ k v = ψ k v) : total φ m = total ψ m := by
  unfold total
  congr 1
  exact List.map_congr_left fun e he => h e.1 e.2 (mem_toList.mp he)

omit [LawfulEqOrd κ] [DecidableEq κ] in
theorem total_add (ψ : κ → ν → M) :
    total (fun k v => φ k v + ψ k v) m = total φ m + total ψ m := List.sum_map_add

omit [LawfulEqOrd κ] [DecidableEq κ] in
theorem total_prod {N : Type} [AddCommGroup N] (ψ : κ → ν → N) :
    total (fun k v => (φ k v, ψ k v)) m = (total φ m, total ψ m) := by
  unfold total
  induction m.toList with
  | nil => rfl
  | cons e l ih =>
    simp only [List.map_cons, List.sum_cons, ih, Prod.mk_add_mk]

theorem total_single (k : κ) : total (fun a v => if a = k then φ a v else 0) m = entry φ m k := by
  have hrest : ((m.others k).map fun e => if e.1 = k then φ e.1 e.2 else 0).sum = 0 := by
    refine List.sum_eq_zero fun x hx => ?_
    obtain ⟨e, he, rfl⟩ := List.mem_map.mp hx
    exact if_neg (mem_others.mp he).2
  rw [total_eq_entry_add _ m k, hrest, add_zero]
  cases h : m[k]? with
  | none => rw [entry_of_none _ _ h, entry_of_none _ _ h]
  | some v => rw [entry_of_some _ _ h, entry_of_some _ _ h, if_pos rfl]

end Total

section Order

variable {m : FinMap κ ν} {φ ψ : κ → ν → ℤ}

omit [DecidableEq κ] in
theorem total_nonneg (h : ∀ k v, m[k]? = some v → 0 ≤ φ k v) : 0 ≤ total φ m := by
  refine List.sum_nonneg fun x hx => ?_
  obtain ⟨e, he, rfl⟩ := List.mem_map.mp hx
  exact h e.1 e.2 (mem_toList.mp he)

omit [LawfulEqOrd κ] [DecidableEq κ] in
theorem total_mul_left (c : ℤ) : total (fun k v => c * φ k v) m = c * total φ m :=
  List.sum_map_mul_left ..

theorem total_eq_zero_iff (h : ∀ k v, m[k]? = some v → 0 ≤ φ k v) :
    total φ m = 0 ↔ ∀ k v, m[k]? = some v → φ k v = 0 := by
  constructor
  · intro h₀ k v hk
    have hrest : 0 ≤ ((m.others k).map fun e => φ e.1 e.2).sum := by
      refine List.sum_nonneg fun x hx => ?_
      obtain ⟨e, he, rfl⟩ := List.mem_map.mp hx
      exact h e.1 e.2 (mem_others.mp he).1
    have hsplit := total_eq_entry_add φ m k
    rw [entry_of_some φ m hk] at hsplit
    have := h k v hk
    omega
  · intro h₀
    rw [total_congr (ψ := fun _ _ => 0) h₀]
    simp [total]

end Order

end FinMap
