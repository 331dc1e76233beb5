import Kora.InvoiceNft.Lifecycle
import Kora.Lib.RunningTotal
import Kora.System.Joint

set_option autoImplicit false

/-!
# Aggregate exposure

The pool contract keeps, per token, the sum of the contributions to its open pools. The total is
moved by recording, by distributions and by nothing else.

* `openToken`, `contributions`, `outstanding`, `aggregate`: the pools and the total;
* `KeepsTotal`, `KeepsExposure`: the transactions that leave the total right;
* `Booking`, `booking_step`: what a step does to the pools, with the condition under which the
  total stays right;
* **`exposure_iff`**: the total is right all along a run exactly when every transaction leaves it
  right.
-/

namespace Kora.FinancingPool

open Exec Run

/-! ## Statement -/

/-- The token of a pool that is neither settled nor of a defaulted invoice. -/
def openToken (w : World) (i : ℕ) : Option Address :=
  match w.pool.pool i with
  | some p => if p.isClosed = false ∧ w.invoiceNft.status i ≠ some .defaulted then some p.token
    else none
  | none => none

/-- The contributions of all positions of an invoice. -/
def contributions (w : World) (i : ℕ) : ℤ :=
  FinMap.total (fun _ position => position.contributed) (w.pool.positions i)

/-- The obligations of the pool of an invoice, in each token. -/
def outstanding (w : World) (i : ℕ) : Address → ℤ :=
  (openToken w i).elim 0 fun token => Pi.single token (contributions w i)

/-- The total that the contract keeps, in each token. -/
def aggregate (w : World) : Address → ℤ := fun token => (w.pool.aggregateFunded token).getD 0

/-- The transaction leaves the total right. A position is recorded in an open pool or unchanged; a
sale does not overwrite a position of the buyer in an open pool; what closes or defaults a pool with
contributions distributes the pool's token. -/
def KeepsTotal (w : World) : Entry → Prop
  | .pool (.recordPosition _ i investor contributed _) =>
    openToken w i ≠ none ∨ contributed = w.pool.contributedBy i investor
  | .pool (.buyPosition buyer i seller) =>
    openToken w i = none ∨ buyer = seller ∨ w.pool.contributedBy i buyer = 0
  | .pool (.repay _ i token amount) =>
    ∀ p ∈ w.pool.pool i, ∀ inv ∈ w.invoiceNft.current i,
      ∀ q ∈ (applyLatePenalty w.now inv.dueDate p).toOption,
        q.totalOwed ≤ p.repaidAmount + credit w amount inv.currency →
          token = p.token ∨ contributions w i = 0
  | .pool (.markDefault _ i token) =>
    ∀ p ∈ w.pool.pool i, 0 < p.repaidAmount ∧ token = p.token ∨ contributions w i = 0
  | .invoiceNft (.setDefaulted _ i) => openToken w i = none ∨ contributions w i = 0
  | _ => True

instance (w : World) (e : Entry) : Decidable (KeepsTotal w e) :=
  match e with
  | .pool (.recordPosition ..) | .pool (.buyPosition ..) | .pool (.repay ..)
  | .pool (.markDefault ..) | .invoiceNft (.setDefaulted ..) => by
    dsimp only [KeepsTotal]; infer_instance
  | .pool (.initializeContract ..) | .pool (.setMaxPositionBps ..) | .pool (.releaseFunds ..)
  | .pool (.listPositionForSale ..) | .pool (.proposeEarlySettlement ..)
  | .pool (.acceptEarlySettlement ..) | .pool (.cancelEarlySettlement ..)
  | .invoiceNft (.initializeContract ..) | .invoiceNft (.setRiskRegistry ..)
  | .invoiceNft (.migrate ..) | .invoiceNft (.setAuthorizedCallers ..)
  | .invoiceNft (.mintInvoice ..) | .invoiceNft (.amendInvoice ..)
  | .invoiceNft (.withdrawInvoice ..) | .invoiceNft (.commitMetadataHash ..)
  | .invoiceNft (.setListed ..) | .invoiceNft (.setFunded ..) | .invoiceNft (.setRepaid ..)
  | .invoiceNft (.freezeInvoice ..) | .invoiceNft (.unfreezeInvoice ..)
  | .invoiceNft (.addAllowedCurrency ..) | .invoiceNft (.removeAllowedCurrency ..)
  | .accessControl _ | .priceOracle _ | .treasury _ | .riskRegistry _ | .marketplace _
  | .transfer .. => inferInstanceAs (Decidable True)

/-- A successful transaction leaves the total right. -/
def KeepsExposure (d : Deployment) (w : World) : Action → Prop
  | .call c => c.Succeeds d w → KeepsTotal w c.entry
  | .tick _ => True

instance (d : Deployment) (w : World) (a : Action) : Decidable (KeepsExposure d w a) :=
  match a with
  | .call c => inferInstanceAs (Decidable (c.Succeeds d w → KeepsTotal w c.entry))
  | .tick _ => inferInstanceAs (Decidable True)

/-! ## Pools -/

section Pools

variable {w w' : World} {i : ℕ} {p : Pool} {token : Address}

theorem openToken_of_open (hp : w.pool.pool i = some p) (ho : p.isClosed = false)
    (hs : w.invoiceNft.status i ≠ some .defaulted) : openToken w i = some p.token := by
  rw [openToken, hp]
  exact if_pos ⟨ho, hs⟩

theorem openToken_of_closed (hp : w.pool.pool i = some p) (hc : p.isClosed = true) :
    openToken w i = none := by
  rw [openToken, hp]
  exact if_neg (by simp [hc])

theorem openToken_of_defaulted (hs : w.invoiceNft.status i = some .defaulted) :
    openToken w i = none := by
  rw [openToken]
  cases w.pool.pool i with
  | none => rfl
  | some p => exact if_neg (by simp [hs])

theorem openToken_of_none (hp : w.pool.pool i = none) : openToken w i = none := by
  rw [openToken, hp]

theorem openToken_congr (hp : w'.pool.pool i = w.pool.pool i)
    (hs : w'.invoiceNft.status i = some .defaulted ↔ w.invoiceNft.status i = some .defaulted) :
    openToken w' i = openToken w i := by
  simp only [openToken, hp, ne_eq, hs]

theorem openToken_of_same {p' : Pool} (hp : w.pool.pool i = some p)
    (hp' : w'.pool.pool i = some p') (ht : p'.token = p.token) (hc : p'.isClosed = p.isClosed)
    (hs : w'.invoiceNft.status i = some .defaulted ↔ w.invoiceNft.status i = some .defaulted) :
    openToken w' i = openToken w i := by
  simp only [openToken, hp, hp', ht, hc, ne_eq, hs]

theorem outstanding_of_some (h : openToken w i = some token) :
    outstanding w i = Pi.single token (contributions w i) := by
  rw [outstanding, h]
  rfl

theorem outstanding_of_none (h : openToken w i = none) : outstanding w i = 0 := by
  rw [outstanding, h]
  rfl

theorem outstanding_of_no_contributions (h : contributions w i = 0) : outstanding w i = 0 := by
  rw [outstanding, h]
  cases openToken w i with
  | none => rfl
  | some token => exact Pi.single_zero token

theorem contributions_congr (h : w'.pool.positions i = w.pool.positions i) :
    contributions w' i = contributions w i := by
  rw [contributions, contributions, h]

theorem outstanding_congr (ho : openToken w' i = openToken w i)
    (h : w'.pool.positions i = w.pool.positions i) : outstanding w' i = outstanding w i := by
  rw [outstanding, outstanding, ho, contributions_congr h]

theorem entry_contributed (i : ℕ) (investor : Address) :
    FinMap.entry (fun _ position => position.contributed) (w.pool.positions i) investor =
      w.pool.contributedBy i investor := by
  rw [FinMap.entry, Storage.contributedBy]
  cases (w.pool.positions i)[investor]? with
  | none => rfl
  | some position => rfl

theorem single_eq_single {a b : Address} {x : ℤ} :
    (Pi.single a x : Address → ℤ) = Pi.single b x ↔ a = b ∨ x = 0 := by
  constructor
  · intro h
    have hb := congrFun h b
    rw [Pi.single_eq_same, Pi.single_apply] at hb
    split_ifs at hb with hab
    · exact Or.inl hab.symm
    · exact Or.inr hb.symm
  · rintro (rfl | rfl)
    · rfl
    · rw [Pi.single_zero, Pi.single_zero]

theorem aggregate_update {x : ℤ} (h : w'.pool.aggregateFunded =
    Function.update w.pool.aggregateFunded token (some x)) :
    aggregate w' - aggregate w = Pi.single token (x - aggregate w token) := by
  funext t
  rw [Pi.sub_apply, aggregate, h, Pi.single_apply, Function.update_apply]
  split_ifs with ht
  · rw [ht]
    rfl
  · exact sub_self _

theorem aggregate_congr (h : w'.pool.aggregateFunded = w.pool.aggregateFunded) :
    aggregate w' = aggregate w := by
  funext t
  rw [aggregate, h]
  rfl

/-- The saturating sum is the sum while that is in range. -/
theorem contributedSum_eq {positions : List (Address × Position)} {acc : ℤ} (hacc : 0 ≤ acc)
    (hpos : ∀ e ∈ positions, 0 < e.2.contributed)
    (hle : acc + (positions.map fun e => e.2.contributed).sum ≤ i128Max) :
    contributedSum positions acc = acc + (positions.map fun e => e.2.contributed).sum := by
  induction positions generalizing acc with
  | nil => simp [contributedSum]
  | cons e rest ih =>
    rw [List.forall_mem_cons] at hpos
    rw [List.map_cons, List.sum_cons] at hle ⊢
    have hrest : 0 ≤ (rest.map fun e => e.2.contributed).sum := by
      refine List.sum_nonneg fun x hx => ?_
      obtain ⟨e', he', rfl⟩ := List.mem_map.mp hx
      exact (hpos.2 e' he').le
    have hstep : saturatingAdd acc e.2.contributed = acc + e.2.contributed := by
      have hmin : i128Min ≤ 0 := by decide
      rw [saturatingAdd]
      omega
    show contributedSum rest (saturatingAdd acc e.2.contributed) = _
    have hacc' : 0 ≤ acc + e.2.contributed := by omega
    rw [hstep, ih hacc' hpos.2 (by omega), add_assoc]

end Pools

/-! ## Invariant -/

/-- Pools belong to financed invoices and positions to pools; contributions are positive, and the
total is in range. -/
structure PoolsSound (w : World) : Prop where
  books : BooksSound w
  financed : ∀ i, w.pool.pool i ≠ none → InvoiceNft.Financed (w.invoiceNft.status i)
  unopened : ∀ i, w.pool.pool i = none → contributions w i = 0
  positive : ∀ (i : ℕ) (investor : Address) (position : Position),
    (w.pool.positions i)[investor]? = some position → 0 < position.contributed
  bounded : ∀ token, aggregate w token ≤ i128Max

/-- The total is the sum of the obligations of all pools. -/
def Tracked (w : World) : Prop :=
  SumsUp (Finset.range w.books.next) (outstanding w) (aggregate w)

section Invariant

variable {w w' : World} {i : ℕ} {p : Pool} {token : Address}

theorem PoolsSound.numbered (hw : PoolsSound w) (hp : w.pool.pool i ≠ none) :
    i < w.books.next := by
  by_contra hle
  have hnone : w.invoiceNft.invoice i = none := hw.books.wellFormed.fresh i (not_lt.mp hle)
  have hfin := hw.financed i hp
  rw [InvoiceNft.Storage.status, hnone] at hfin
  rcases hfin with h | h | h <;> cases h

theorem PoolsSound.contributions_nonneg (hw : PoolsSound w) (i : ℕ) : 0 ≤ contributions w i :=
  FinMap.total_nonneg fun investor position h => (hw.positive i investor position h).le

theorem PoolsSound.outstanding_nonneg (hw : PoolsSound w) (i : ℕ) : 0 ≤ outstanding w i := by
  cases h : openToken w i with
  | none => rw [outstanding_of_none h]
  | some token =>
    rw [outstanding_of_some h]
    exact Pi.single_nonneg.mpr (hw.contributions_nonneg i)

theorem PoolsSound.contributions_le (hw : PoolsSound w) (hq : Tracked w)
    (h : openToken w i = some token) : contributions w i ≤ aggregate w token := by
  have hp : w.pool.pool i ≠ none := by
    intro hnone
    rw [openToken_of_none hnone] at h
    cases h
  have hle := SumsUp.le hq hw.outstanding_nonneg (Finset.mem_range.mpr (hw.numbered hp)) token
  rwa [outstanding_of_some h, Pi.single_eq_same] at hle

end Invariant

/-! ## What a step does to the pools -/

/-- What a step does to the pools, with the condition under which the total stays right. -/
inductive Booking (w w' : World) : Prop → Prop
  /-- The pools owe what they owed. -/
  | quiet : (∀ j, openToken w' j = openToken w j) → w'.pool.positions = w.pool.positions →
      w'.pool.aggregateFunded = w.pool.aggregateFunded → Booking w w' True
  /-- A pool opens. -/
  | opened (i : ℕ) : w.pool.pool i = none → (∀ j, j ≠ i → openToken w' j = openToken w j) →
      w'.pool.positions = w.pool.positions → w'.pool.aggregateFunded = w.pool.aggregateFunded →
      Booking w w' True
  /-- A position is recorded. -/
  | recorded (i : ℕ) (investor : Address) (contributed : ℤ) (share : ℕ) (p : Pool) :
      w.pool.pool i = some p → 0 < contributed → (∀ j, openToken w' j = openToken w j) →
      w'.pool.positions = Function.update w.pool.positions i
        ((w.pool.positions i).insert investor ⟨investor, i, contributed, share, 0⟩) →
      w'.pool.aggregateFunded = w.pool.recorded i investor p.token contributed →
      aggregate w' p.token ≤ i128Max →
      Booking w w' (openToken w i ≠ none ∨ contributed = w.pool.contributedBy i investor)
  /-- A position moves to a buyer. -/
  | sold (i : ℕ) (buyer seller : Address) (position : Position) : w.pool.pool i ≠ none →
      (w.pool.positions i)[seller]? = some position → (∀ j, openToken w' j = openToken w j) →
      w'.pool.positions = Function.update w.pool.positions i
        (((w.pool.positions i).erase seller).insert buyer
          { position with investor := buyer, invoiceId := i }) →
      w'.pool.aggregateFunded = w.pool.aggregateFunded →
      Booking w w' (openToken w i = none ∨ buyer = seller ∨ w.pool.contributedBy i buyer = 0)
  /-- A distribution of `token` ends a pool. -/
  | closed (i : ℕ) (own token : Address) : openToken w i = some own → openToken w' i = none →
      (∀ j, j ≠ i → openToken w' j = openToken w j) → w'.pool.positions = w.pool.positions →
      w'.pool.aggregateFunded = w.pool.distributed i token →
      Booking w w' (token = own ∨ contributions w i = 0)
  /-- A pool ends without a distribution. -/
  | writtenOff (i : ℕ) : i < w.books.next → openToken w' i = none →
      (∀ j, j ≠ i → openToken w' j = openToken w j) → w'.pool.positions = w.pool.positions →
      w'.pool.aggregateFunded = w.pool.aggregateFunded →
      Booking w w' (openToken w i = none ∨ contributions w i = 0)

section Booking

variable {w w' : World} {C : Prop} {i : ℕ} {token own : Address}

theorem aggregate_distributed (hw : PoolsSound w) (hq : Tracked w)
    (ho : openToken w i = some own)
    (h : w'.pool.aggregateFunded = w.pool.distributed i token) :
    aggregate w' - aggregate w = Pi.single token (-contributions w i) := by
  have hmin : i128Min ≤ -i128Max := by decide
  have hle := hw.contributions_le hq ho
  have hmax := hw.bounded own
  have hnonneg : 0 ≤ aggregate w token := SumsUp.nonneg hq hw.outstanding_nonneg token
  have htoken := hw.bounded token
  have hpos := hw.contributions_nonneg i
  have hsum : contributedSum (w.pool.positions i).toList 0 = contributions w i := by
    have heq : contributions w i =
        ((w.pool.positions i).toList.map fun e => e.2.contributed).sum := rfl
    rw [contributedSum_eq le_rfl, zero_add, heq]
    · exact fun e he => hw.positive i e.1 e.2 (FinMap.mem_toList.mp he)
    · omega
  have hsub : saturatingSub (aggregate w token) (contributions w i) =
      aggregate w token - contributions w i := by
    rw [saturatingSub]
    omega
  rw [aggregate_update h, hsum]
  congr 1
  show saturatingSub (aggregate w token) (contributions w i) - _ = _
  omega

theorem contributions_recorded {investor : Address} {position : Position}
    (h : w'.pool.positions = Function.update w.pool.positions i
      ((w.pool.positions i).insert investor position)) :
    contributions w' i =
      contributions w i - w.pool.contributedBy i investor + position.contributed := by
  rw [contributions, h, Function.update_self, FinMap.total_insert, entry_contributed]
  rfl

/-- A sale drops the contribution that the buyer had. -/
theorem contributions_sold {buyer seller : Address} {position position' : Position}
    (hseller : (w.pool.positions i)[seller]? = some position)
    (hsame : position'.contributed = position.contributed)
    (h : w'.pool.positions = Function.update w.pool.positions i
      (((w.pool.positions i).erase seller).insert buyer position')) :
    contributions w' i =
      contributions w i - if buyer = seller then 0 else w.pool.contributedBy i buyer := by
  rw [contributions, h, Function.update_self, FinMap.total_move _ _ hseller hsame,
    entry_contributed]
  rfl

theorem outstanding_other {r : FinMap Address Position} {j : ℕ} (hj : j ≠ i)
    (ho : openToken w' j = openToken w j)
    (h : w'.pool.positions = Function.update w.pool.positions i r) :
    outstanding w' j = outstanding w j := by
  refine outstanding_congr ho ?_
  rw [h, Function.update_of_ne hj]

theorem Tracked.extend (hq : Tracked w) (hw : PoolsSound w) {n : ℕ} (hnext : w.books.next ≤ n) :
    SumsUp (Finset.range n) (outstanding w) (aggregate w) := by
  refine (sumsUp_extend (Finset.range_mono hnext) fun j _ hj => ?_).mpr hq
  apply outstanding_of_none
  apply openToken_of_none
  by_contra hp
  exact hj (Finset.mem_range.mpr (hw.numbered hp))

theorem Tracked.change_iff (hq : Tracked w) (hw : PoolsSound w)
    (hnext : w.books.next ≤ w'.books.next) (hi : i < w.books.next)
    (hother : ∀ j, j ≠ i → outstanding w' j = outstanding w j) :
    Tracked w' ↔ aggregate w' - aggregate w = outstanding w' i - outstanding w i :=
  SumsUp.change_iff (hq.extend hw hnext) (Finset.mem_range.mpr (hi.trans_le hnext)) hother

theorem Tracked.congr (hq : Tracked w) (hw : PoolsSound w)
    (hnext : w.books.next ≤ w'.books.next) (hsame : ∀ j, outstanding w' j = outstanding w j)
    (hagg : w'.pool.aggregateFunded = w.pool.aggregateFunded) : Tracked w' := by
  rw [Tracked, aggregate_congr hagg]
  exact (hq.extend hw hnext).congr hsame

/-- **The total stays right exactly under the condition of the step.** -/
theorem Booking.tracked_iff (h : Booking w w' C) (hw : PoolsSound w)
    (hnext : w.books.next ≤ w'.books.next) (hq : Tracked w) : Tracked w' ↔ C := by
  cases h with
  | quiet ho hp ha =>
    have hsame : ∀ j, outstanding w' j = outstanding w j := by
      intro j
      exact outstanding_congr (ho j) (by rw [hp])
    exact iff_of_true (hq.congr hw hnext hsame ha) trivial
  | opened i hnone ho hp ha =>
    refine iff_of_true (hq.congr hw hnext (fun j => ?_) ha) trivial
    by_cases hj : j = i
    · -- nobody has a position in the new pool
      subst hj
      have hafter : contributions w' j = contributions w j := contributions_congr (by rw [hp])
      rw [outstanding_of_none (openToken_of_none hnone)]
      exact outstanding_of_no_contributions (hafter.trans (hw.unopened j hnone))
    · exact outstanding_congr (ho j hj) (by rw [hp])
  | recorded i investor contributed share p hp hpos ho hpositions ha _ =>
    have hfound : w.pool.pool i ≠ none := by simp [hp]
    have hother : ∀ j, j ≠ i → outstanding w' j = outstanding w j :=
      fun j hj => outstanding_other hj (ho j) hpositions
    have hafter : contributions w' i =
        contributions w i - w.pool.contributedBy i investor + contributed :=
      contributions_recorded hpositions
    rw [hq.change_iff hw hnext (hw.numbered hfound) hother, aggregate_update ha]
    cases hown : openToken w i with
    | none =>
      rw [outstanding_of_none hown, outstanding_of_none ((ho i).trans hown), sub_zero,
        Pi.single_eq_zero_iff]
      show aggregate w p.token - _ + _ - aggregate w p.token = 0 ↔ _
      simp only [ne_eq, not_true_eq_false, false_or]
      omega
    | some own =>
      have htoken : own = p.token := by
        rw [openToken, hp] at hown
        simp only at hown
        split_ifs at hown
        exact (Option.some.inj hown).symm
      subst htoken
      rw [outstanding_of_some hown, outstanding_of_some ((ho i).trans hown), ← Pi.single_sub,
        hafter]
      refine iff_of_true ?_ (Or.inl (by simp))
      congr 1
      show aggregate w p.token - _ + _ - aggregate w p.token = _
      omega
  | sold i buyer seller position hfound hseller ho hpositions ha =>
    have hother : ∀ j, j ≠ i → outstanding w' j = outstanding w j :=
      fun j hj => outstanding_other hj (ho j) hpositions
    have hafter := contributions_sold hseller (by rfl) hpositions
    rw [hq.change_iff hw hnext (hw.numbered hfound) hother, aggregate_congr ha, sub_self]
    cases hown : openToken w i with
    | none =>
      rw [outstanding_of_none hown, outstanding_of_none ((ho i).trans hown), sub_zero]
      exact iff_of_true rfl (Or.inl rfl)
    | some own =>
      rw [outstanding_of_some hown, outstanding_of_some ((ho i).trans hown), ← Pi.single_sub,
        hafter, eq_comm, Pi.single_eq_zero_iff]
      by_cases hb : buyer = seller
      · simp [hb]
      · simp [hb]
  | closed i own token hown hclosed ho hp ha =>
    have hfound : w.pool.pool i ≠ none := by
      intro hnone
      rw [openToken_of_none hnone] at hown
      cases hown
    have hother : ∀ j, j ≠ i → outstanding w' j = outstanding w j :=
      fun j hj => outstanding_congr (ho j hj) (by rw [hp])
    rw [hq.change_iff hw hnext (hw.numbered hfound) hother, aggregate_distributed hw hq hown ha,
      outstanding_of_none hclosed, outstanding_of_some hown, zero_sub, ← Pi.single_neg,
      single_eq_single, neg_eq_zero]
  | writtenOff i hi hended ho hp ha =>
    have hother : ∀ j, j ≠ i → outstanding w' j = outstanding w j :=
      fun j hj => outstanding_congr (ho j hj) (by rw [hp])
    rw [hq.change_iff hw hnext hi hother, aggregate_congr ha, sub_self, outstanding_of_none hended,
      zero_sub]
    cases hown : openToken w i with
    | none =>
      rw [outstanding_of_none hown, neg_zero]
      exact iff_of_true rfl (Or.inl rfl)
    | some own =>
      rw [outstanding_of_some hown, eq_comm, neg_eq_zero, Pi.single_eq_zero_iff]
      simp

theorem Booking.positive (h : Booking w w' C) (hw : PoolsSound w) (j : ℕ) (investor : Address)
    (position : Position) (hj : (w'.pool.positions j)[investor]? = some position) :
    0 < position.contributed := by
  have hsame : w'.pool.positions = w.pool.positions → 0 < position.contributed := by
    intro hp
    rw [hp] at hj
    exact hw.positive j investor position hj
  cases h with
  | quiet _ hp _ => exact hsame hp
  | opened _ _ _ hp _ => exact hsame hp
  | recorded i a contributed share p _ hpos _ hp _ _ =>
    rw [hp, Function.update_apply] at hj
    split_ifs at hj
    · rw [FinMap.getElem?_insert'] at hj
      split_ifs at hj
      · cases hj
        exact hpos
      · exact hw.positive i investor position hj
    · exact hw.positive j investor position hj
  | sold i buyer seller old _ hseller _ hp _ =>
    rw [hp, Function.update_apply] at hj
    split_ifs at hj
    · rw [FinMap.getElem?_insert'] at hj
      split_ifs at hj
      · cases hj
        exact hw.positive i seller old hseller
      · rw [FinMap.getElem?_erase'] at hj
        split_ifs at hj
        exact hw.positive i investor position hj
    · exact hw.positive j investor position hj
  | closed _ _ _ _ _ _ hp _ => exact hsame hp
  | writtenOff _ _ _ _ hp _ => exact hsame hp

theorem Booking.bounded (h : Booking w w' C) (hw : PoolsSound w) (t : Address) :
    aggregate w' t ≤ i128Max := by
  have hsame : w'.pool.aggregateFunded = w.pool.aggregateFunded → aggregate w' t ≤ i128Max := by
    intro ha
    rw [aggregate_congr ha]
    exact hw.bounded t
  have hupdate : ∀ {s x}, w'.pool.aggregateFunded =
      Function.update w.pool.aggregateFunded s (some x) →
      aggregate w' s ≤ i128Max → aggregate w' t ≤ i128Max := by
    intro s x ha hle
    by_cases ht : t = s
    · rwa [ht]
    · rw [aggregate, ha, Function.update_of_ne ht]
      exact hw.bounded t
  cases h with
  | quiet _ _ ha => exact hsame ha
  | opened _ _ _ _ ha => exact hsame ha
  | recorded _ _ _ _ _ _ _ _ _ ha hle => exact hupdate ha hle
  | sold _ _ _ _ _ _ _ _ ha => exact hsame ha
  | closed i own token _ _ _ _ ha =>
    refine hupdate ha ?_
    have hrange : i128Min ≤ i128Max := by decide
    rw [aggregate, ha, Storage.distributed, Function.update_self, Option.getD_some, saturatingSub]
    omega
  | writtenOff _ _ _ _ _ ha => exact hsame ha

theorem Booking.unopened (h : Booking w w' C) (hw : PoolsSound w) (j : ℕ)
    (hnone : w.pool.pool j = none) : contributions w' j = 0 := by
  have hsame : w'.pool.positions j = w.pool.positions j → contributions w' j = 0 := by
    intro hp
    rw [contributions_congr hp]
    exact hw.unopened j hnone
  have hupdate : ∀ {i r}, w'.pool.positions = Function.update w.pool.positions i r →
      w.pool.pool i ≠ none → contributions w' j = 0 := by
    intro i r hp hfound
    refine hsame ?_
    rw [hp, Function.update_of_ne]
    rintro rfl
    exact hfound hnone
  cases h with
  | quiet _ hp _ => exact hsame (by rw [hp])
  | opened _ _ _ hp _ => exact hsame (by rw [hp])
  | recorded i _ _ _ p hfound _ _ hp _ _ => exact hupdate hp (by simp [hfound])
  | sold i _ _ _ hfound _ _ hp _ => exact hupdate hp hfound
  | closed _ _ _ _ _ _ hp _ => exact hsame (by rw [hp])
  | writtenOff _ _ _ _ hp _ => exact hsame (by rw [hp])

end Booking

section Entries

variable {env : Env} {w w' : World} {u : Unit}

theorem Booking.frame (hp : w'.pool = w.pool) (hs : ∀ j,
    w'.invoiceNft.status j = some .defaulted ↔ w.invoiceNft.status j = some .defaulted) :
    Booking w w' True :=
  .quiet (fun j => openToken_congr (by rw [hp]) (hs j)) (by rw [hp]) (by rw [hp])

theorem moved_defaulted_iff {S T : InvoiceNft.Storage} {i : ℕ} {a b : InvoiceStatus}
    (h : S.Moved T i a b) (ha : a ≠ .defaulted) (hb : b ≠ .defaulted) (j : ℕ) :
    T.status j = some .defaulted ↔ S.status j = some .defaulted := by
  obtain ⟨hold, hnew⟩ := h.status j
  rw [hnew]
  split_ifs with hj
  · rw [hj, hold]
    simp [ha, hb]
  · rfl

theorem openToken_moved {i : ℕ} {a b : InvoiceStatus} (h : w.invoiceNft.Moved w'.invoiceNft i a b)
    {j : ℕ} (hj : j ≠ i) (hp : w'.pool.pool j = w.pool.pool j) :
    openToken w' j = openToken w j := by
  refine openToken_congr hp ?_
  rw [(h.status j).2, if_neg hj]

theorem invoiceNft_booking {op : InvoiceNft.Op} (hw : PoolsSound w)
    (h : (Entry.invoiceNft op).exec env w = .ok () w') :
    ∃ C, Booking w w' C ∧ (KeepsTotal w (.invoiceNft op) ↔ C) := by
  obtain ⟨s, hs, rfl⟩ := onInvoiceNft_ok.mp h
  have heffect := InvoiceNft.Op.exec_effect (by exact hw.books.wellFormed) hs
  by_cases hop : ∃ caller i, op = .setDefaulted caller i
  · obtain ⟨caller, i, rfl⟩ := hop
    obtain ⟨-, -, inv, hinv, hst, -, rfl⟩ := InvoiceNft.setDefaulted_ok hs
    refine ⟨_, .writtenOff i ?_ ?_ ?_ rfl rfl, Iff.rfl⟩
    · exact hw.books.fresh.lt (InvoiceNft.Storage.current_of_current hinv)
    · exact openToken_of_defaulted (by simp)
    · exact fun j hj => openToken_moved (InvoiceNft.Storage.moved_asDefaulted hinv hst) hj rfl
  · refine ⟨True, .frame rfl fun j => ?_, iff_of_true ?_ trivial⟩
    · rcases heffect.status_cases hw.books.wellFormed j with hsame | ⟨hu, hu'⟩ | ⟨a, b, ha, hb, ht⟩
      · exact Eq.congr_left hsame
      · rcases hu with hu | hu <;> rcases hu' with hu' | hu' <;> simp [hu, hu']
      · cases ht with
        | list | fund | repay => simp [ha, hb]
        | default hdefault => exact absurd ⟨_, _, hdefault⟩ hop
    · cases op with
      | setDefaulted caller i => exact absurd ⟨caller, i, rfl⟩ hop
      | _ => trivial

theorem marketplace_booking {op : Marketplace.Op} (h : op.exec env w = .ok () w') :
    Booking w w' True := by
  have heffect := Marketplace.Op.exec_effect h
  generalize he : Entry.marketplace op = e at heffect
  cases heffect with
  | peripheral _ _ hmarket => exact absurd he.symm (hmarket op)
  | invoiceNft | pool => cases he
  | listing seller i price face token deadline referrer config inv refs _ _ _ _ _ hinv hst hw' =>
    refine .frame (by rw [hw']) ?_
    rw [hw']
    exact moved_defaulted_iff (InvoiceNft.Storage.moved_asListed hinv hst) (by simp) (by simp)
  | funding investor i amount listing config inv fee hF =>
    rcases lt_or_ge (listing.fundedAmount + amount) listing.askingPrice with hlt | hge
    · obtain ⟨hpool, hnft⟩ := hF.unreleased hlt
      exact .frame hpool fun j => by rw [hnft]
    · obtain ⟨-, hnone, -, hst, -, bps, hpool, hnft⟩ := hF.released hge
      have hmoved : w.invoiceNft.Moved w'.invoiceNft i .listed .funded := by
        rw [hnft]
        exact InvoiceNft.Storage.moved_asFunded hF.invoice hst
      refine .opened i hnone (fun j hj => openToken_moved hmoved hj ?_) (by rw [hpool])
        (by rw [hpool])
      rw [hpool]
      exact Function.update_of_ne hj ..
  | market op _ _ hpool hnft => exact .frame hpool fun j => by rw [hnft]

theorem pool_booking {op : Op} (hw : PoolsSound w) (hnow : env.timestamp = w.now)
    (h : op.exec env w = .ok u w') :
    ∃ C, Booking w w' C ∧ (KeepsTotal w (.pool op) ↔ C) := by
  have hown : ∀ {i p inv}, w.pool.pool i = some p → p.isClosed = false →
      w.invoiceNft.invoice i = some (.current inv) → inv.status = .funded →
      openToken w i = some p.token := by
    intro i p inv hp hopen hinv hst
    refine openToken_of_open hp hopen ?_
    rw [InvoiceNft.Storage.status_of_current hinv, hst]
    simp
  cases op with
  | initializeContract =>
    obtain ⟨-, rfl⟩ := initializeContract_ok h
    exact ⟨True, .quiet (fun _ => rfl) rfl rfl, Iff.rfl⟩
  | setMaxPositionBps =>
    obtain rfl := setMaxPositionBps_ok h
    exact ⟨True, .quiet (fun _ => rfl) rfl rfl, Iff.rfl⟩
  | listPositionForSale =>
    obtain ⟨-, _, rfl⟩ := listPositionForSale_ok h
    exact ⟨True, .quiet (fun _ => rfl) rfl rfl, Iff.rfl⟩
  | releaseFunds marketplace i token =>
    obtain ⟨-, hnone, -, inv, bps, hinv, hst, hpos, rfl⟩ := releaseFunds_ok h
    refine ⟨True, .opened i hnone (fun j hj => ?_) rfl rfl, Iff.rfl⟩
    exact openToken_moved (InvoiceNft.Storage.moved_asFunded hinv hst) hj
      (Function.update_of_ne hj ..)
  | recordPosition caller i investor contributed total =>
    obtain ⟨hc, -, share, p, -, -, hp, rfl⟩ := recordPosition_ok h
    refine ⟨_, .recorded i investor contributed share p hp hc (fun _ => rfl) rfl rfl ?_, Iff.rfl⟩
    have hrange := recordPosition_range h hp
    simpa [aggregate, Storage.recorded] using hrange
  | buyPosition buyer i seller =>
    obtain ⟨-, p, pos, offers, token, price, hp, -, hpos, rfl⟩ := buyPosition_ok h
    exact ⟨_, .sold i buyer seller pos (by simp [hp]) hpos (fun _ => rfl) rfl rfl, Iff.rfl⟩
  | repay payer i token amount =>
    obtain ⟨-, -, p, inv, owed, applied, hp, hopen, hinv, -, hlate, h⟩ := repay_ok h
    have hkeeps : KeepsTotal w (.pool (.repay payer i token amount)) ↔
        (owed ≤ p.repaidAmount + credit w amount inv.currency →
          token = p.token ∨ contributions w i = 0) := by
      rw [hnow] at hlate
      simp [KeepsTotal, hp, InvoiceNft.Storage.current_of_current hinv, hlate, Except.toOption]
    rcases h with ⟨hlt, locks, rfl⟩ | ⟨hle, hst, decimals, payments, locks, -, rfl⟩
    · refine ⟨True, .quiet (fun j => ?_) rfl rfl, hkeeps.trans ?_⟩
      · by_cases hj : j = i
        · subst hj
          refine openToken_of_same hp (Function.update_self ..) rfl ?_ Iff.rfl
          exact (decide_eq_false (not_le.mpr hlt)).trans hopen.symm
        · exact openToken_congr (Function.update_of_ne hj ..) Iff.rfl
      · exact iff_of_true (fun hle => absurd hle (not_le.mpr hlt)) trivial
    · refine ⟨_, .closed i p.token token (hown hp hopen hinv hst) ?_ (fun j hj => ?_) rfl rfl,
        hkeeps.trans ?_⟩
      · refine openToken_of_closed (Function.update_self ..) ?_
        exact decide_eq_true hle
      · exact openToken_moved (InvoiceNft.Storage.moved_asRepaid hinv hst) hj
          (Function.update_of_ne hj ..)
      · exact ⟨fun h => h hle, fun h _ => h⟩
  | markDefault admin i token =>
    obtain ⟨p, inv, hp, hopen, hinv, hst, -, decimals, payments, registry, -, rfl⟩ :=
      markDefault_ok h
    have hkeeps : KeepsTotal w (.pool (.markDefault admin i token)) ↔
        (0 < p.repaidAmount ∧ token = p.token ∨ contributions w i = 0) := by
      simp [KeepsTotal, hp]
    have hmoved := InvoiceNft.Storage.moved_asDefaulted hinv hst
    by_cases hrepaid : 0 < p.repaidAmount
    · refine ⟨_, .closed i p.token token (hown hp hopen hinv hst) ?_ (fun j hj => ?_) rfl
        (if_pos hrepaid), hkeeps.trans ?_⟩
      · exact openToken_of_defaulted (by simp)
      · exact openToken_moved hmoved hj rfl
      · rw [and_iff_right hrepaid]
    · refine ⟨_, .writtenOff i ?_ ?_ (fun j hj => ?_) rfl (if_neg hrepaid), hkeeps.trans ?_⟩
      · exact hw.books.fresh.lt (InvoiceNft.Storage.current_of_current hinv)
      · exact openToken_of_defaulted (by simp)
      · exact openToken_moved hmoved hj rfl
      · simp [hrepaid, hown hp hopen hinv hst]
  | proposeEarlySettlement =>
    obtain ⟨-, -, _, -, -, -, rfl⟩ := proposeEarlySettlement_ok h
    exact ⟨True, .quiet (fun _ => rfl) rfl rfl, Iff.rfl⟩
  | acceptEarlySettlement investor i =>
    obtain ⟨-, offer, p, pos, -, hp, hopen, -, -, h⟩ := acceptEarlySettlement_ok h
    rcases h with ⟨-, rfl⟩ | ⟨-, inv, decimals, payments, locks, hinv, hst, -, rfl⟩
    · exact ⟨True, .quiet (fun _ => rfl) rfl rfl, Iff.rfl⟩
    · refine ⟨_, .closed i p.token p.token (hown hp hopen hinv hst) ?_ (fun j hj => ?_) rfl
        rfl, iff_of_true trivial (Or.inl rfl)⟩
      · exact openToken_of_closed (Function.update_self ..) rfl
      · exact openToken_moved (InvoiceNft.Storage.moved_asRepaid hinv hst) hj
          (Function.update_of_ne hj ..)
  | cancelEarlySettlement =>
    obtain ⟨-, _, _, -, -, rfl⟩ := cancelEarlySettlement_ok h
    exact ⟨True, .quiet (fun _ => rfl) rfl rfl, Iff.rfl⟩

theorem entry_booking {e : Entry} (hw : PoolsSound w) (hnow : env.timestamp = w.now)
    (h : e.exec env w = .ok () w') : ∃ C, Booking w w' C ∧ (KeepsTotal w e ↔ C) := by
  cases e with
  | accessControl op =>
    obtain ⟨S, -, rfl⟩ := onAccessControl_ok.mp h
    exact ⟨True, .quiet (fun _ => rfl) rfl rfl, Iff.rfl⟩
  | priceOracle op =>
    obtain ⟨S, -, rfl⟩ := onPriceOracle_ok.mp h
    exact ⟨True, .quiet (fun _ => rfl) rfl rfl, Iff.rfl⟩
  | treasury op =>
    obtain ⟨s, -, rfl⟩ := onTreasury_ok.mp h
    exact ⟨True, .quiet (fun _ => rfl) rfl rfl, Iff.rfl⟩
  | riskRegistry op =>
    obtain ⟨s, -, rfl⟩ := onRiskRegistry_ok.mp h
    exact ⟨True, .quiet (fun _ => rfl) rfl rfl, Iff.rfl⟩
  | transfer token src dst amount =>
    rw [Entry.exec, zoom_ok] at h
    obtain ⟨T, -, rfl⟩ := h
    exact ⟨True, .quiet (fun _ => rfl) rfl rfl, Iff.rfl⟩
  | invoiceNft op => exact invoiceNft_booking hw h
  | pool op => exact pool_booking hw hnow h
  | marketplace op => exact ⟨True, marketplace_booking h, Iff.rfl⟩

end Entries

/-! ## Runs -/

section Runs

variable {d : Deployment} {w : World}

theorem booking_step (hw : PoolsSound w) (a : Action) :
    ∃ C, Booking w (step d w a) C ∧ (KeepsExposure d w a ↔ C) := by
  rcases step_cases d w a with ⟨c, rfl, hs, h⟩ | ⟨n, rfl, h⟩ | ⟨c, rfl, hn, h⟩
  · obtain ⟨C, hbooking, hC⟩ := entry_booking hw rfl h
    refine ⟨C, hbooking, Iff.trans ?_ hC⟩
    exact ⟨fun h => h hs, fun h _ => h⟩
  · rw [h]
    exact ⟨True, .quiet (fun _ => rfl) rfl rfl, Iff.rfl⟩
  · rw [h]
    exact ⟨True, .quiet (fun _ => rfl) rfl rfl, iff_of_true (fun hs => absurd hs hn) trivial⟩

theorem poolsSound_step (hw : PoolsSound w) (a : Action) : PoolsSound (step d w a) := by
  obtain ⟨C, hbooking, -⟩ := booking_step (d := d) hw a
  have hpools : ∀ i, (w.pool.pool i ≠ none → (step d w a).pool.pool i ≠ none) ∧
      ((step d w a).pool.pool i ≠ none →
        InvoiceNft.Financed ((step d w a).invoiceNft.status i)) := by
    intro i
    rcases step_cases d w a with ⟨c, rfl, -, h⟩ | ⟨n, rfl, h⟩ | ⟨c, rfl, -, h⟩
    · have heffect := Entry.exec_effect h
      have hchange := change_of_effect heffect i
      refine ⟨hchange.exists, fun hp => ?_⟩
      rcases hchange.token with htoken | ⟨_, _, _, hopen, -⟩
      · -- the pool was there before
        refine ((heffect.nftChange hw.books.wellFormed).financed hw.books.wellFormed ?_).1
        refine hw.financed i fun hnone => hp ?_
        rwa [hnone, Option.map_none, Option.map_eq_none_iff] at htoken
      · exact Or.inl hopen.funded
    · rw [h]
      exact ⟨fun h => h, hw.financed i⟩
    · rw [h]
      exact ⟨fun h => h, hw.financed i⟩
  exact ⟨booksSound_step d hw.books a, fun i => (hpools i).2,
    fun i hnone => hbooking.unopened hw i (not_not.mp fun hp => (hpools i).1 hp hnone),
    hbooking.positive hw, hbooking.bounded hw⟩

theorem poolsSound_genesis (now : ℕ) (tokens : Tokens) : PoolsSound (genesis now tokens) where
  books := booksSound_genesis now tokens
  financed := fun _ h => absurd rfl h
  unopened := fun _ _ => FinMap.total_empty _
  positive := fun i investor position h => by
    have hnone : (∅ : FinMap Address Position)[investor]? = none := Std.ExtTreeMap.getElem?_empty
    rw [show (genesis now tokens).pool.positions i = ∅ from rfl, hnone] at h
    cases h
  bounded := fun _ => by
    show (0 : ℤ) ≤ i128Max
    decide

theorem tracked_genesis (now : ℕ) (tokens : Tokens) : Tracked (genesis now tokens) :=
  (Finset.sum_eq_zero fun _ _ => rfl).symm

/-- **Aggregate exposure**: in every state of a run pools are numbered by invoices and the total of
each token is the sum of the contributions to its open pools, exactly when every transaction of the
run keeps the total. -/
theorem exposure_iff (d : Deployment) (now : ℕ) (tokens : Tokens) (as : List Action) :
    (∀ p, p <+: as →
        (∀ i, (run (step d) (genesis now tokens) p).pool.pool i ≠ none →
          i < (run (step d) (genesis now tokens) p).books.next) ∧
        ∀ token, aggregate (run (step d) (genesis now tokens) p) token =
          ∑ i ∈ Finset.range (run (step d) (genesis now tokens) p).books.next,
            outstanding (run (step d) (genesis now tokens) p) i token) ↔
      Along (step d) (KeepsExposure d) (genesis now tokens) as := by
  have hexact : ∀ w a, PoolsSound w → Tracked w → (Tracked (step d w a) ↔ KeepsExposure d w a) := by
    intro w a hw hq
    obtain ⟨C, hbooking, hC⟩ := booking_step (d := d) hw a
    rw [hbooking.tracked_iff hw (InvoiceNft.next_le_step hw.books a) hq, hC]
  refine Iff.trans ?_ (forall_prefix_iff (fun w a hw => poolsSound_step hw a) hexact
    (poolsSound_genesis now tokens) (tracked_genesis now tokens))
  refine forall₂_congr fun p _ => ?_
  have hsound : PoolsSound (run (step d) (genesis now tokens) p) :=
    always (I := PoolsSound) (fun w a hw => poolsSound_step hw a) (poolsSound_genesis now tokens) p
  rw [Tracked, SumsUp, funext_iff]
  simp only [Finset.sum_apply]
  exact and_iff_right fun i hp => hsound.numbered hp

/-- A funded invoice whose position the admin records. -/
def positionRecorded : List Action :=
  sampleFunding "USDC" ++ [signed 1 (.pool (.recordPosition 1 1 3 9_000 9_000))]

/-- It defaults before anything is repaid. -/
def defaultUnpaid : List Action :=
  positionRecorded ++ [.tick 2_000, signed 1 (.pool (.markDefault 1 1 50))]

/-- It is repaid in another token. -/
def repaidInOther : List Action :=
  positionRecorded ++ [signed 2 (.pool (.repay 2 1 51 10_000))]

/-- A position is recorded after the repayment. -/
def recordedLate : List Action :=
  positionRecorded ++ [signed 2 (.pool (.repay 2 1 50 10_000)),
    signed 1 (.pool (.recordPosition 1 1 4 9_000 9_000))]

/-- A position is sold to an investor who has one. -/
def soldOver : List Action :=
  sampleFunding "USDC" ++ [signed 1 (.pool (.recordPosition 1 1 3 5_000 9_000)),
    signed 1 (.pool (.recordPosition 1 1 4 4_000 9_000)),
    signed 4 (.pool (.listPositionForSale 4 1 50 4_000)),
    signed 3 (.pool (.buyPosition 3 1 4))]

/-- The total stays too high after a default, after a repayment in another token, after a recording
in a closed pool and after a sale over a position. -/
theorem exposure_untracked :
    (¬ ∀ (d : Deployment) (now : ℕ) (tokens : Tokens) (as : List Action) (token : Address),
      aggregate (run (step d) (genesis now tokens) as) token =
        ∑ i ∈ Finset.range (run (step d) (genesis now tokens) as).books.next,
          outstanding (run (step d) (genesis now tokens) as) i token) ∧
    ∀ as ∈ [defaultUnpaid, repaidInOther, recordedLate, soldOver],
      ∑ i ∈ Finset.range (run (step sample) (genesis 0 sampleTokens) as).books.next,
          outstanding (run (step sample) (genesis 0 sampleTokens) as) i 50 <
        aggregate (run (step sample) (genesis 0 sampleTokens) as) 50 := by
  constructor
  · intro h
    exact absurd (h sample 0 sampleTokens defaultUnpaid 50) (by decide +kernel)
  · decide +kernel

end Runs

end Kora.FinancingPool
