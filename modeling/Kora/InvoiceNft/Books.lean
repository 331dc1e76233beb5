import Mathlib.Algebra.BigOperators.Group.Finset.Basic
import Mathlib.Algebra.BigOperators.Intervals
import Mathlib.Algebra.Order.BigOperators.Group.Finset
import Mathlib.Data.Int.Order.Basic
import Mathlib.Tactic.Abel
import Kora.Shared.Types
import Kora.Shared.Validation

set_option autoImplicit false

/-!
# The books of the invoice contract

What the invoice contract is for: numbered invoices that move through their lifecycle, and the
exposure of each SME.

* `Books`, `Event`, `Step`: the books and their transition;
* `StatusStep`, `Sound`, `Step.record`: what a step does to one record;
* `All`, `written`, **`Step.all`**: the terms that a step writes;
* `outstanding`: what an SME owes on its open invoices, with **`Step.outstanding`**.
-/

namespace Kora.InvoiceNft

/-- What an invoice says, apart from its lifecycle. -/
structure Terms where
  sme : Address
  debtorHash : Bytes
  amount : ℤ
  currency : Symbol
  dueDate : ℕ
  ipfsCid : String
  riskScore : ℕ
  metadataHash : Bytes
  notes : Option String
  deriving DecidableEq

/-- The terms of an invoice. -/
def termsOf (inv : Invoice) : Terms where
  sme := inv.sme
  debtorHash := inv.debtorHash
  amount := inv.amount
  currency := inv.currency
  dueDate := inv.dueDate
  ipfsCid := inv.ipfsCid
  riskScore := inv.riskScore
  metadataHash := inv.metadataHash
  notes := inv.notes

/-- A new invoice. -/
def Terms.invoice (terms : Terms) (id now : ℕ) : Invoice where
  id
  sme := terms.sme
  debtorHash := terms.debtorHash
  amount := terms.amount
  currency := terms.currency
  dueDate := terms.dueDate
  ipfsCid := terms.ipfsCid
  metadataHash := terms.metadataHash
  riskScore := terms.riskScore
  riskTier := RiskTier.fromScore terms.riskScore
  status := .created
  createdAt := now
  fundedAt := none
  repaidAt := none
  notes := terms.notes

/-- What an amendment gives anew. -/
structure Amendment where
  debtorHash : Bytes
  amount : ℤ
  dueDate : ℕ
  ipfsCid : String
  riskScore : ℕ

/-- An amended invoice. -/
def Amendment.apply (m : Amendment) (inv : Invoice) : Invoice := { inv with
  debtorHash := m.debtorHash
  amount := m.amount
  dueDate := m.dueDate
  ipfsCid := m.ipfsCid
  riskScore := m.riskScore
  riskTier := RiskTier.fromScore m.riskScore }

/-- The invoices by number, the number of the next one, and the exposure of each SME. -/
structure Books where
  invoice : ℕ → Option Invoice
  next : ℕ
  exposure : Address → ℤ

/-- What can happen to the books. -/
inductive Event : Type
  | keep
  | mint (terms : Terms)
  | amend (id : ℕ) (m : Amendment)
  | commit (id : ℕ) (hash : Bytes)
  | withdraw (id : ℕ)
  | list (id : ℕ)
  | fund (id : ℕ)
  | repay (id : ℕ)
  | default (id : ℕ)

namespace Books

/-- Rewrite or remove a record. -/
def put (B : Books) (id : ℕ) (r : Option Invoice) : Books :=
  { B with invoice := Function.update B.invoice id r }

/-- Take an invoice off the exposure of its SME. -/
def release (B : Books) (inv : Invoice) : Books := { B with
  exposure := Function.update B.exposure inv.sme
    (saturatingSub (B.exposure inv.sme) inv.amount) }

/-- The transition of the books at time `now`. -/
inductive Step (now : ℕ) (B : Books) : Event → Books → Prop
  | keep : Step now B .keep B
  | mint (terms : Terms) : 0 < terms.amount →
      Step now B (.mint terms) { B with
        invoice := Function.update B.invoice B.next (some (terms.invoice B.next now))
        next := B.next + 1 }
  | amend (id : ℕ) (m : Amendment) (inv : Invoice) : B.invoice id = some inv →
      inv.status = .created → 0 < m.amount →
      Step now B (.amend id m) (B.put id (some (m.apply inv)))
  | commit (id : ℕ) (hash : Bytes) (inv : Invoice) : B.invoice id = some inv →
      inv.status = .created →
      Step now B (.commit id hash) (B.put id (some { inv with metadataHash := hash }))
  | withdraw (id : ℕ) (inv : Invoice) : B.invoice id = some inv → inv.status = .created →
      Step now B (.withdraw id) ((B.put id none).release inv)
  | list (id : ℕ) (inv : Invoice) : B.invoice id = some inv → inv.status = .created →
      Step now B (.list id) (B.put id (some { inv with status := .listed }))
  | fund (id : ℕ) (inv : Invoice) : B.invoice id = some inv → inv.status = .listed →
      Step now B (.fund id)
        (B.put id (some { inv with status := .funded, fundedAt := some now }))
  | repay (id : ℕ) (inv : Invoice) : B.invoice id = some inv → inv.status = .funded →
      Step now B (.repay id)
        ((B.put id (some { inv with status := .repaid, repaidAt := some now })).release inv)
  | default (id : ℕ) (inv : Invoice) : B.invoice id = some inv → inv.status = .funded →
      inv.dueDate < now →
      Step now B (.default id) ((B.put id (some { inv with status := .defaulted })).release inv)

/-- Numbers from `next` on are free. -/
def Fresh (B : Books) : Prop := ∀ id, B.next ≤ id → B.invoice id = none

end Books

/-! ## One record -/

/-- The moves of a status: `created → listed → funded → repaid | defaulted`, and a created invoice
can be withdrawn. -/
inductive StatusStep : Option InvoiceStatus → Option InvoiceStatus → Prop
  | stay (s : Option InvoiceStatus) : StatusStep s s
  | mint : StatusStep none (some .created)
  | withdraw : StatusStep (some .created) none
  | list : StatusStep (some .created) (some .listed)
  | fund : StatusStep (some .listed) (some .funded)
  | repay : StatusStep (some .funded) (some .repaid)
  | default : StatusStep (some .funded) (some .defaulted)

/-- A record fits its status at time `now`. -/
structure Sound (now : ℕ) (inv : Invoice) : Prop where
  fundedAt : inv.fundedAt ≠ none ↔
    inv.status = .funded ∨ inv.status = .repaid ∨ inv.status = .defaulted
  repaidAt : inv.repaidAt ≠ none ↔ inv.status = .repaid
  created : inv.createdAt ≤ now
  funded : ∀ t, inv.fundedAt = some t → inv.createdAt ≤ t ∧ t ≤ now
  repaid : ∀ t, inv.repaidAt = some t → t ≤ now ∧ ∀ t', inv.fundedAt = some t' → t' ≤ t
  overdue : inv.status = .defaulted → inv.dueDate < now
  tier : inv.riskTier = RiskTier.fromScore inv.riskScore

theorem Sound.mono {now now' : ℕ} {inv : Invoice} (h : Sound now inv) (hle : now ≤ now') :
    Sound now' inv where
  fundedAt := h.fundedAt
  repaidAt := h.repaidAt
  created := h.created.trans hle
  funded t ht := ⟨(h.funded t ht).1, (h.funded t ht).2.trans hle⟩
  repaid t ht := ⟨(h.repaid t ht).1.trans hle, (h.repaid t ht).2⟩
  overdue hd := (h.overdue hd).trans_le hle
  tier := h.tier

/-- What a step does to a record: a free number stays free or is the next one, and a record is
removed or rewritten along `StatusStep`; its terms only change while it is created. -/
inductive RecordStep (now next : ℕ) (e : Event) (next' id : ℕ) :
    Option Invoice → Option Invoice → Prop
  | stay (r : Option Invoice) : RecordStep now next e next' id r r
  | mint (terms : Terms) : e = .mint terms → id = next → next' = next + 1 → 0 < terms.amount →
      RecordStep now next e next' id none (some (terms.invoice id now))
  | withdraw (inv : Invoice) : inv.status = .created →
      RecordStep now next e next' id (some inv) none
  | rewrite (inv inv' : Invoice) : StatusStep (some inv.status) (some inv'.status) →
      (0 < inv.amount → 0 < inv'.amount) → (Sound now inv → Sound now inv') →
      (inv.status ≠ .created → termsOf inv' = termsOf inv) →
      RecordStep now next e next' id (some inv) (some inv')

namespace Books

section Records

variable {now : ℕ} {B B' : Books} {e : Event}

theorem Step.record (hB : B.Fresh) (h : Step now B e B') (i : ℕ) :
    RecordStep now B.next e B'.next i (B.invoice i) (B'.invoice i) := by
  have hput : ∀ (e : Event) (j next' : ℕ) (r : Option Invoice),
      RecordStep now B.next e next' j (B.invoice j) r →
        RecordStep now B.next e next' i (B.invoice i) (Function.update B.invoice j r i) := by
    intro e j next' r hr
    rw [Function.update_apply]
    split_ifs with hi
    · subst hi
      exact hr
    · exact .stay _
  cases h with
  | keep => exact .stay _
  | mint terms hpos =>
    refine hput _ B.next _ _ ?_
    rw [hB B.next le_rfl]
    exact .mint terms rfl rfl rfl hpos
  | amend j m inv hj hs hpos =>
    refine hput _ j _ _ ?_
    rw [hj]
    refine .rewrite inv _ (.stay _) (fun _ => hpos) (fun h => ?_) fun hne => absurd hs hne
    have hd : (m.apply inv).status ≠ .defaulted := by
      show inv.status ≠ .defaulted
      rw [hs]
      nofun
    exact ⟨h.fundedAt, h.repaidAt, h.created, h.funded, h.repaid, fun he => absurd he hd, rfl⟩
  | commit j hash inv hj hs =>
    refine hput _ j _ _ ?_
    rw [hj]
    exact .rewrite inv _ (.stay _) id
      (fun h => ⟨h.fundedAt, h.repaidAt, h.created, h.funded, h.repaid, h.overdue, h.tier⟩)
      fun hne => absurd hs hne
  | withdraw j inv hj hs =>
    refine hput _ j _ _ ?_
    rw [hj]
    exact .withdraw inv hs
  | list j inv hj hs =>
    refine hput _ j _ _ ?_
    rw [hj]
    refine .rewrite inv _ (by rw [hs]; exact .list) id (fun h => ?_) fun _ => rfl
    have hf := h.fundedAt
    have hr := h.repaidAt
    rw [hs] at hf hr
    exact ⟨by simpa using hf, by simpa using hr, h.created, h.funded, h.repaid, nofun, h.tier⟩
  | fund j inv hj hs =>
    refine hput _ j _ _ ?_
    rw [hj]
    refine .rewrite inv _ (by rw [hs]; exact .fund) id (fun h => ?_) fun _ => rfl
    have hr : inv.repaidAt = none := by
      simpa [hs] using h.repaidAt
    refine ⟨by simp, by simp [hr], h.created, ?_, ?_, nofun, h.tier⟩
    · rintro t ⟨⟩
      exact ⟨h.created, le_rfl⟩
    · intro t ht
      rw [show _ = inv.repaidAt from rfl, hr] at ht
      cases ht
  | repay j inv hj hs =>
    refine hput _ j _ _ ?_
    rw [hj]
    refine .rewrite inv _ (by rw [hs]; exact .repay) id (fun h => ?_) fun _ => rfl
    have hf : inv.fundedAt ≠ none := h.fundedAt.mpr (Or.inl hs)
    refine ⟨by simpa using hf, by simp, h.created, h.funded, ?_, nofun, h.tier⟩
    rintro t ⟨⟩
    exact ⟨le_rfl, fun t' ht' => (h.funded t' ht').2⟩
  | default j inv hj hs hdue =>
    refine hput _ j _ _ ?_
    rw [hj]
    refine .rewrite inv _ (by rw [hs]; exact .default) id (fun h => ?_) fun _ => rfl
    have hf : inv.fundedAt ≠ none := h.fundedAt.mpr (Or.inl hs)
    have hr : inv.repaidAt = none := by
      simpa [hs] using h.repaidAt
    exact ⟨by simpa using hf, by simp [hr], h.created, h.funded, h.repaid, fun _ => hdue, h.tier⟩

theorem Step.next_le (h : Step now B e B') : B.next ≤ B'.next := by
  cases h with
  | mint terms => exact Nat.le_succ _
  | keep | amend | commit | withdraw | list | fund | repay | default => exact le_rfl

theorem Step.fresh (hB : B.Fresh) (h : Step now B e B') : B'.Fresh := by
  intro i hi
  have hrec := h.record hB i
  rw [hB i (h.next_le.trans hi)] at hrec
  generalize B'.invoice i = r at hrec
  cases hrec with
  | stay => rfl
  | mint terms _ hid hnext => omega

end Records

section Written

variable {now : ℕ} {B B' : Books} {e : Event} {P : ℕ → Terms → Prop}

/-- Every invoice has terms with `P`. -/
def All (P : ℕ → Terms → Prop) (B : Books) : Prop :=
  ∀ id inv, B.invoice id = some inv → P id (termsOf inv)

/-- The terms that an event writes, with the number they are written under. -/
def written (B : Books) : Event → Option (ℕ × Terms)
  | .mint terms => some (B.next, terms)
  | .amend id m => (B.invoice id).map fun inv => (id, termsOf (m.apply inv))
  | .commit id hash =>
    (B.invoice id).map fun inv => (id, termsOf { inv with metadataHash := hash })
  | .keep | .withdraw _ | .list _ | .fund _ | .repay _ | .default _ => none

theorem Step.all (hall : B.All P) (h : Step now B e B') :
    B'.All P ↔ ∀ id terms, B.written e = some (id, terms) → P id terms := by
  have hput : ∀ {id : ℕ} {r : Option Invoice},
      (∀ i inv, Function.update B.invoice id r i = some inv → P i (termsOf inv)) ↔
        ∀ inv, r = some inv → P id (termsOf inv) := by
    intro id r
    constructor
    · intro h inv hr
      exact h id inv (by rw [Function.update_self, hr])
    · intro h i inv hi
      rw [Function.update_apply] at hi
      split_ifs at hi with hid
      · subst hid
        exact h inv hi
      · exact hall i inv hi
  -- a move of the lifecycle writes the terms back
  have hmove : ∀ {id : ℕ} {inv inv' : Invoice}, B.invoice id = some inv →
      termsOf inv' = termsOf inv →
      ∀ i v, Function.update B.invoice id (some inv') i = some v → P i (termsOf v) := by
    intro id inv inv' hid hterms
    refine hput.mpr ?_
    rintro _ ⟨⟩
    rw [hterms]
    exact hall id inv hid
  cases h with
  | keep => exact iff_of_true hall (by simp [written])
  | mint terms => exact hput.trans (by simp [written, termsOf, Terms.invoice])
  | amend id m inv hid | commit id hash inv hid => exact hput.trans (by simp [written, hid])
  | withdraw id inv hid => exact iff_of_true (hput.mpr (by simp)) (by simp [written])
  | list id inv hid | fund id inv hid | repay id inv hid | default id inv hid =>
    exact iff_of_true (hmove hid rfl) (by simp [written])

end Written

end Books

/-! ## Outstanding invoices -/

/-- What `sme` owes on an invoice: its amount while it is created, listed or funded. -/
def owed (sme : Address) : Option Invoice → ℤ
  | some inv =>
    if inv.sme = sme ∧ (inv.status = .created ∨ inv.status = .listed ∨ inv.status = .funded) then
      inv.amount
    else 0
  | none => 0

namespace Books

/-- The sum of the open invoices of `sme`. -/
def outstanding (B : Books) (sme : Address) : ℤ := ∑ i ∈ Finset.range B.next, owed sme (B.invoice i)

/-- What an event adds to the sum of the open invoices of `sme`. -/
def change (B : Books) (sme : Address) : Event → ℤ
  | .mint terms => if terms.sme = sme then terms.amount else 0
  | .amend id m =>
    match B.invoice id with
    | some inv => if inv.sme = sme then m.amount - inv.amount else 0
    | none => 0
  | .withdraw id | .repay id | .default id => - owed sme (B.invoice id)
  | .keep | .commit .. | .list _ | .fund _ => 0

/-- Every invoice has a positive amount. -/
def Positive (B : Books) : Prop := ∀ id inv, B.invoice id = some inv → 0 < inv.amount

section Outstanding

variable {now : ℕ} {B B' : Books} {e : Event} {sme : Address} {id : ℕ} {inv : Invoice}

theorem Fresh.lt (hB : B.Fresh) (h : B.invoice id = some inv) : id < B.next := by
  by_contra hle
  rw [hB id (not_lt.mp hle)] at h
  cases h

theorem sum_update (h : id < B.next) (r : Option Invoice) :
    ∑ i ∈ Finset.range B.next, owed sme (Function.update B.invoice id r i) =
      B.outstanding sme + (owed sme r - owed sme (B.invoice id)) := by
  have hmem := Finset.mem_range.mpr h
  have hrest : ∑ i ∈ (Finset.range B.next).erase id, owed sme (Function.update B.invoice id r i) =
      ∑ i ∈ (Finset.range B.next).erase id, owed sme (B.invoice i) := by
    refine Finset.sum_congr rfl fun i hi => ?_
    rw [Function.update_of_ne (Finset.ne_of_mem_erase hi)]
  rw [outstanding, ← Finset.add_sum_erase _ _ hmem, ← Finset.add_sum_erase _ _ hmem, hrest,
    Function.update_self]
  abel

theorem Step.outstanding (hB : B.Fresh) (h : Step now B e B') :
    B'.outstanding sme = B.outstanding sme + B.change sme e := by
  have hput : ∀ {id inv} (r : Option Invoice), B.invoice id = some inv →
      (B.put id r).outstanding sme = B.outstanding sme + (owed sme r - owed sme (some inv)) := by
    intro id inv r hid
    rw [← hid]
    exact sum_update (hB.lt hid) r
  cases h with
  | keep => simp [change]
  | mint terms =>
    have hlast : ∑ i ∈ Finset.range B.next, owed sme
        (Function.update B.invoice B.next (some (terms.invoice B.next now)) i) =
        B.outstanding sme := by
      refine Finset.sum_congr rfl fun i hi => ?_
      rw [Function.update_of_ne (Finset.mem_range.mp hi).ne]
    show ∑ i ∈ Finset.range (B.next + 1), owed sme
      (Function.update B.invoice B.next (some (terms.invoice B.next now)) i) = _
    rw [Finset.sum_range_succ, hlast, Function.update_self]
    simp [owed, change, Terms.invoice]
  | amend id m inv hid hs =>
    rw [hput _ hid]
    simp only [owed, change, hid, Amendment.apply, hs]
    split_ifs <;> simp_all
  | commit id hash inv hid hs =>
    rw [hput _ hid]
    simp [owed, change]
  | withdraw id inv hid hs =>
    show (B.put id none).outstanding sme = _
    rw [hput _ hid]
    simp [owed, change, hid]
  | list id inv hid hs =>
    rw [hput _ hid]
    simp [owed, change, hs]
  | fund id inv hid hs =>
    rw [hput _ hid]
    simp [owed, change, hs]
  | repay id inv hid hs =>
    show (B.put id _).outstanding sme = _
    rw [hput _ hid]
    simp [owed, change, hid, hs]
  | default id inv hid hs =>
    show (B.put id _).outstanding sme = _
    rw [hput _ hid]
    simp [owed, change, hid, hs]

theorem Step.positive (hB : B.Fresh) (hP : B.Positive) (h : Step now B e B') : B'.Positive := by
  intro id inv' hid
  have hrec := h.record hB id
  rw [hid] at hrec
  generalize hold : B.invoice id = r at hrec
  generalize hnew : some inv' = r' at hrec
  cases hrec with
  | stay => exact hP id inv' (hold.trans hnew.symm)
  | mint terms _ _ _ hpos =>
    cases hnew
    exact hpos
  | withdraw => cases hnew
  | rewrite inv _ _ hpos =>
    cases hnew
    exact hpos (hP id inv hold)

theorem owed_nonneg (hP : B.Positive) (i : ℕ) : 0 ≤ owed sme (B.invoice i) := by
  cases hi : B.invoice i with
  | none => exact le_rfl
  | some inv =>
    have hpos := hP i inv hi
    simp only [owed]
    split_ifs <;> omega

theorem outstanding_nonneg (hP : B.Positive) : 0 ≤ B.outstanding sme :=
  Finset.sum_nonneg fun i _ => owed_nonneg hP i

theorem sme_ne_of_outstanding (hB : B.Fresh) (hP : B.Positive) (h0 : B.outstanding sme = 0)
    (hid : B.invoice id = some inv)
    (hs : inv.status = .created ∨ inv.status = .listed ∨ inv.status = .funded) : inv.sme ≠ sme := by
  intro hsme
  have hzero := (Finset.sum_eq_zero_iff_of_nonneg fun i _ => owed_nonneg hP i).mp h0 id
    (Finset.mem_range.mpr (hB.lt hid))
  rw [hid, owed, if_pos ⟨hsme, hs⟩] at hzero
  have hpos := hP id inv hid
  omega

theorem release_exposure_nonpos (hpos : 0 < inv.amount) (hB : B.exposure sme ≤ 0) :
    (B.release inv).exposure sme ≤ 0 := by
  show Function.update B.exposure inv.sme _ sme ≤ 0
  rw [Function.update_apply]
  split_ifs with hsme
  · subst hsme
    unfold saturatingSub i128Min i128Max
    omega
  · exact hB

theorem Step.exposure_nonpos (hP : B.Positive) (hE : B.exposure sme ≤ 0) (h : Step now B e B') :
    B'.exposure sme ≤ 0 := by
  cases h with
  | withdraw id inv hid => exact release_exposure_nonpos (B := B.put id none) (hP id inv hid) hE
  | repay id inv hid => exact release_exposure_nonpos (B := B.put id _) (hP id inv hid) hE
  | default id inv hid => exact release_exposure_nonpos (B := B.put id _) (hP id inv hid) hE
  | keep | mint | amend | commit | list | fund => exact hE

theorem release_exposure_of_ne (h : inv.sme ≠ sme) :
    (B.release inv).exposure sme = B.exposure sme := Function.update_of_ne h.symm _ _

/-- **A step keeps the exposure of an SME equal to its open invoices exactly when it mints none for
it.** -/
theorem Step.tracked (hB : B.Fresh) (hP : B.Positive) (hE : B.exposure sme ≤ 0)
    (hQ : B.exposure sme = B.outstanding sme) (h : Step now B e B') :
    B'.exposure sme = B'.outstanding sme ↔ ∀ terms, e = .mint terms → terms.sme ≠ sme := by
  -- the SME has no open invoice yet
  have hnonneg : 0 ≤ B.outstanding sme := outstanding_nonneg hP
  have h0 : B.outstanding sme = 0 := by omega
  have hother : ∀ {id inv}, B.invoice id = some inv →
      inv.status = .created ∨ inv.status = .listed ∨ inv.status = .funded → inv.sme ≠ sme :=
    fun hid hs => sme_ne_of_outstanding hB hP h0 hid hs
  have howed : ∀ {id inv}, B.invoice id = some inv →
      inv.status = .created ∨ inv.status = .listed ∨ inv.status = .funded →
      owed sme (B.invoice id) = 0 := by
    intro id inv hid hs
    rw [hid, owed, if_neg fun h => hother hid hs h.1]
  rw [h.outstanding hB, h0]
  cases h with
  | mint terms hpos =>
    show B.exposure sme = _ ↔ _
    rw [hQ, h0]
    simp only [change, Event.mint.injEq, forall_eq']
    split_ifs with hsme
    · exact iff_of_false (by omega) (not_not.mpr hsme)
    · exact iff_of_true (by omega) hsme
  | keep | commit | list | fund =>
    refine iff_of_true ?_ nofun
    show B.exposure sme = _
    simp [hQ, h0, change]
  | amend id m inv hid hs =>
    refine iff_of_true ?_ nofun
    show B.exposure sme = _
    simp [hQ, h0, change, hid, hother hid (Or.inl hs)]
  | withdraw id inv hid hs =>
    refine iff_of_true ?_ nofun
    rw [release_exposure_of_ne (hother hid (Or.inl hs))]
    show B.exposure sme = _
    simp [hQ, h0, change, howed hid (Or.inl hs)]
  | repay id inv hid hs | default id inv hid hs =>
    refine iff_of_true ?_ nofun
    rw [release_exposure_of_ne (hother hid (Or.inr (Or.inr hs)))]
    show B.exposure sme = _
    simp [hQ, h0, change, howed hid (Or.inr (Or.inr hs))]

/-- The event keeps the open invoices of `sme` within `limit`, as far as it adds to them. -/
def Fits (B : Books) (sme : Address) (limit : ℤ) : Event → Prop
  | .mint terms => terms.sme = sme → B.outstanding sme + terms.amount ≤ limit
  | .amend id m => ∀ inv, B.invoice id = some inv → inv.sme = sme →
    B.outstanding sme - inv.amount + m.amount ≤ limit
  | _ => True

/-- **Only a minting or an amendment can take the open invoices of an SME over a limit.** -/
theorem Step.fits {limit : ℤ} (hB : B.Fresh) (hP : B.Positive) (hle : B.outstanding sme ≤ limit)
    (h : Step now B e B') : B'.outstanding sme ≤ limit ↔ B.Fits sme limit e := by
  rw [h.outstanding hB]
  cases h with
  | mint terms =>
    simp only [change, Fits]
    split_ifs with hsme
    · simp [hsme]
    · simpa [hsme] using hle
  | amend id m inv hid =>
    simp only [change, Fits, hid, Option.some.injEq, forall_eq']
    split_ifs with hsme
    · simp only [hsme, true_implies]
      omega
    · simpa [hsme] using hle
  | keep | commit | list | fund =>
    simpa [change, Fits] using hle
  | withdraw id | repay id | default id =>
    have hnonneg : 0 ≤ owed sme (B.invoice id) := owed_nonneg hP id
    refine iff_of_true ?_ trivial
    show B.outstanding sme + -owed sme (B.invoice id) ≤ limit
    omega

end Outstanding

end Books

end Kora.InvoiceNft
