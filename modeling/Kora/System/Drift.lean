import Kora.System.Gate

set_option autoImplicit false

/-!
# The state drift detector

`scripts/check_state_drift.sh` reads the invoice, the listing and the pool of an invoice from three
contracts and reports where they do not fit together.

* `Observation`, `driftChecks`, `checkStateDrift`: the reads and the six checks;
* `Matched`, `matched_step`: a pool is closed exactly when its invoice is repaid;
* `Aligned`, **`aligned_step`**: no active listing of a financed invoice;
* **`drift_iff`**: in every run only the first check can ever fail, and it does exactly when
  somebody calls `release_funds` on an active listing.
-/

namespace Kora

open Exec Run

/-! ## The script -/

/-- What the script reads: the status of the invoice, whether its listing is active, and whether its
pool is closed, each where the contract has a record. -/
structure Observation where
  invoiceStatus : Option InvoiceStatus
  listingActive : Option Bool
  poolClosed : Option Bool
  deriving DecidableEq

/-- The mismatches, in the order of the checks. -/
inductive Mismatch : Type
  | listingActive
  | poolBeforeFunding
  | fundedWithoutPool
  | repaidWithOpenPool
  | fundedWithClosedPool
  | delistedWithoutPool
  deriving DecidableEq

/-- The listing is active but the invoice is already financed. -/
def Observation.checkListing (o : Observation) : List Mismatch :=
  if o.listingActive = some true ∧ (o.invoiceStatus = some .funded ∨
      o.invoiceStatus = some .repaid ∨ o.invoiceStatus = some .defaulted) then
    [.listingActive]
  else []

/-- A pool exists but the invoice is still created or listed. -/
def Observation.checkPool (o : Observation) : List Mismatch :=
  if o.poolClosed ≠ none ∧
      (o.invoiceStatus = some .created ∨ o.invoiceStatus = some .listed) then
    [.poolBeforeFunding]
  else []

/-- The invoice is funded but there is no pool. -/
def Observation.checkFunded (o : Observation) : List Mismatch :=
  if o.invoiceStatus = some .funded ∧ o.poolClosed = none then [.fundedWithoutPool] else []

/-- The invoice is repaid but the pool is not closed. -/
def Observation.checkRepaid (o : Observation) : List Mismatch :=
  if o.invoiceStatus = some .repaid ∧ o.poolClosed = some false then [.repaidWithOpenPool] else []

/-- The pool is closed but the invoice is still funded. -/
def Observation.checkClosed (o : Observation) : List Mismatch :=
  if o.poolClosed = some true ∧ o.invoiceStatus = some .funded then [.fundedWithClosedPool] else []

/-- The listing is inactive and the invoice funded, but there is no pool. -/
def Observation.checkDelisted (o : Observation) : List Mismatch :=
  if o.listingActive = some false ∧ o.poolClosed = none ∧ o.invoiceStatus = some .funded then
    [.delistedWithoutPool]
  else []

/-- The drift analysis. -/
def driftChecks (o : Observation) : List Mismatch :=
  o.checkListing ++ o.checkPool ++ o.checkFunded ++ o.checkRepaid ++ o.checkClosed ++
    o.checkDelisted

/-- What the script reads off a ledger. -/
def observe (w : World) (invoiceId : ℕ) : Observation where
  invoiceStatus := (w.invoiceNft.current invoiceId).map Invoice.status
  listingActive := (w.marketplace.listing invoiceId).map Listing.isActive
  poolClosed := (w.pool.pool invoiceId).map Pool.isClosed

/-- The mismatches that the script reports. -/
def checkStateDrift (w : World) (invoiceId : ℕ) : List Mismatch := driftChecks (observe w invoiceId)

/-! ## What the checks find -/

/-- The pool of invoice `i` is closed exactly when the invoice is repaid. -/
def MatchedAt (w : World) (i : ℕ) : Prop := ∀ pool, w.pool.pool i = some pool →
  (pool.isClosed = true ↔ w.invoiceNft.status i = some .repaid)

/-- Every pool is closed exactly when its invoice is repaid. -/
def Matched (w : World) : Prop := ∀ i, MatchedAt w i

/-- No listing is active whose invoice is financed. -/
def Aligned (w : World) : Prop := ∀ i l, w.marketplace.listing i = some l → l.isActive = true →
  ¬ InvoiceNft.Financed (w.invoiceNft.status i)

/-- No successful direct call of `release_funds` on an active listing. -/
def NoBypass (d : Deployment) (w : World) : Action → Prop
  | .call c => c.Succeeds d w → ∀ marketplace i token,
    c.entry = .pool (.releaseFunds marketplace i token) →
    ∀ l, w.marketplace.listing i = some l → l.isActive = false
  | .tick _ => True

section Checks

variable {d : Deployment} {w : World}

theorem observe_status (hS : w.invoiceNft.WellFormed) (i : ℕ) :
    (observe w i).invoiceStatus = w.invoiceNft.status i := by
  rw [observe, InvoiceNft.Storage.current, InvoiceNft.Storage.status]
  cases hi : w.invoiceNft.invoice i with
  | none => rfl
  | some r =>
    obtain ⟨inv, rfl⟩ := hS.current i r hi
    rfl

theorem observe_pool (hJ : Joint d w) (i : ℕ) :
    (observe w i).poolClosed ≠ none ↔ InvoiceNft.Financed (w.invoiceNft.status i) := by
  rw [← hJ.financed i, observe, ne_eq, ne_eq, Option.map_eq_none_iff]

/-- All checks but the first pass when there is a pool exactly for a financed invoice, closed
exactly when the invoice is repaid. -/
theorem driftChecks_eq {o : Observation}
    (hpool : o.poolClosed ≠ none ↔ InvoiceNft.Financed o.invoiceStatus)
    (hclosed : ∀ b, o.poolClosed = some b → (b = true ↔ o.invoiceStatus = some .repaid)) :
    driftChecks o = o.checkListing := by
  have hbefore : o.checkPool = [] := by
    rw [Observation.checkPool, if_neg]
    rintro ⟨hsome, hst | hst⟩
    · rw [hst] at hpool
      exact absurd (hpool.mp hsome) (by simp [InvoiceNft.Financed])
    · rw [hst] at hpool
      exact absurd (hpool.mp hsome) (by simp [InvoiceNft.Financed])
  have hfunded : o.checkFunded = [] := by
    rw [Observation.checkFunded, if_neg]
    rintro ⟨hst, hnone⟩
    exact hpool.mpr (Or.inl hst) hnone
  have hrepaid : o.checkRepaid = [] := by
    rw [Observation.checkRepaid, if_neg]
    rintro ⟨hst, hopen⟩
    exact absurd ((hclosed _ hopen).mpr hst) (by simp)
  have hstays : o.checkClosed = [] := by
    rw [Observation.checkClosed, if_neg]
    rintro ⟨hclose, hst⟩
    rw [(hclosed _ hclose).mp rfl] at hst
    cases hst
  have hdelisted : o.checkDelisted = [] := by
    rw [Observation.checkDelisted, if_neg]
    rintro ⟨-, hnone, hst⟩
    exact hpool.mpr (Or.inl hst) hnone
  rw [driftChecks, hbefore, hfunded, hrepaid, hstays, hdelisted]
  simp

/-- **All checks but the first pass** where the contracts move together. -/
theorem checkStateDrift_of_joint (hJ : Joint d w) (hM : Matched w) (i : ℕ) :
    checkStateDrift w i = (observe w i).checkListing := by
  have hstatus := observe_status hJ.wellFormed i
  have hpool := observe_pool hJ i
  have hclosed : ∀ b, (observe w i).poolClosed = some b →
      (b = true ↔ w.invoiceNft.status i = some .repaid) := by
    intro b hb
    obtain ⟨pool, hp, rfl⟩ := Option.map_eq_some_iff.mp hb
    exact hM i pool hp
  rw [← hstatus] at hpool hclosed
  rw [checkStateDrift]
  generalize observe w i = o at hpool hclosed ⊢
  exact driftChecks_eq hpool hclosed

/-- **The detector is silent exactly when no listing of a financed invoice is active.** -/
theorem silent_iff_aligned (hJ : Joint d w) (hM : Matched w) :
    (∀ i, checkStateDrift w i = []) ↔ Aligned w := by
  have hcheck : ∀ i, checkStateDrift w i = [] ↔ (∀ l, w.marketplace.listing i = some l →
      l.isActive = true → ¬ InvoiceNft.Financed (w.invoiceNft.status i)) := by
    intro i
    rw [checkStateDrift_of_joint hJ hM i, Observation.checkListing, observe_status hJ.wellFormed]
    simp [observe, InvoiceNft.Financed]
  simp only [hcheck, Aligned]

theorem mem_checkStateDrift (hJ : Joint d w) (hM : Matched w) {i : ℕ} {m : Mismatch}
    (hm : m ∈ checkStateDrift w i) : m = .listingActive := by
  rw [checkStateDrift_of_joint hJ hM i, Observation.checkListing] at hm
  split at hm
  · exact List.mem_singleton.mp hm
  · cases hm

end Checks

/-! ## Steps -/

section Steps

variable {d : Deployment} {env : Env} {w w' : World} {e : Entry} {i : ℕ}

theorem matchedAt_congr (hp : w'.pool.pool i = w.pool.pool i)
    (hs : w'.invoiceNft.status i = some .repaid ↔ w.invoiceNft.status i = some .repaid)
    (h : MatchedAt w i) : MatchedAt w' i := by
  intro pool hpool
  rw [hs]
  exact h pool (hp ▸ hpool)

theorem matchedAt_iff {pool : Pool} (h : w.pool.pool i = some pool) :
    MatchedAt w i ↔ (pool.isClosed = true ↔ w.invoiceNft.status i = some .repaid) := by
  constructor
  · intro hm
    exact hm pool h
  · intro hm pool' hpool'
    rw [h] at hpool'
    cases hpool'
    exact hm

theorem StatusChange.repaid_iff (h : StatusChange i w w' e)
    (hdeals : ¬ FinancingPool.DealsWith i e) :
    w'.invoiceNft.status i = some .repaid ↔ w.invoiceNft.status i = some .repaid := by
  cases h with
  | same h => rw [h]
  | unlisted hu hu' => rcases hu with hu | hu <;> rcases hu' with hu' | hu' <;> simp [hu, hu']
  | listed hold hnew _ => simp [hold, hnew]
  | funded hold hnew _ _ => simp [hold, hnew]
  | repaid h _ _ => exact absurd h hdeals
  | defaulted _ hold hnew => simp [hold, hnew]

/-- **Every transaction closes the pool exactly when it marks the invoice as repaid.** -/
theorem matchedAt_change (hp : FinancingPool.Change env i w w' e) (hs : StatusChange i w w' e)
    (h : MatchedAt w i) : MatchedAt w' i := by
  have hsame : w'.invoiceNft = w.invoiceNft → w'.pool.pool i = w.pool.pool i → MatchedAt w' i :=
    fun hnft hpool => matchedAt_congr hpool (by rw [hnft]) h
  cases hp with
  | frame _ hdeals hpool => exact matchedAt_congr hpool.pool (hs.repaid_iff hdeals) h
  | opened _ _ _ _ _ hopen =>
    rw [matchedAt_iff hopen.pool, hopen.funded]
    simp
  | recorded _ _ _ _ _ h => exact hsame h.invoiceNft h.pool
  | sold _ _ _ h => exact hsame h.invoiceNft h.pool
  | repaid payer token amount owed p inv applied payments hrepay =>
    rw [matchedAt_iff hrepay.pool]
    have hfound := (matchedAt_iff hrepay.found).mp h
    rw [hrepay.unclosed] at hfound
    rcases hrepay.distribution with ⟨hlt, -, hnft⟩ | ⟨hle, -, hnft, -⟩
    · rw [hnft, ← hfound]
      simp [FinancingPool.repaidPool, hlt]
    · rw [hnft]
      simp [FinancingPool.repaidPool, hle]
  | defaulted admin token p inv payments hdefault =>
    rw [matchedAt_iff (hdefault.same.pool.trans hdefault.found), hdefault.unclosed,
      hdefault.invoiceNft]
    simp
  | proposed _ _ _ h => exact hsame h.invoiceNft h.pool
  | accepted _ _ _ _ h => exact hsame h.invoiceNft h.pool
  | settled _ _ _ _ _ _ _ hsettle =>
    rw [matchedAt_iff hsettle.pool, hsettle.invoiceNft]
    simp
  | cancelled _ _ _ h => exact hsame h.invoiceNft h.pool

theorem matched_step (hJ : Joint d w) (a : Action) (hM : Matched w) : Matched (step d w a) := by
  rcases step_cases d w a with ⟨c, rfl, -, h⟩ | ⟨n, rfl, h⟩ | ⟨c, rfl, -, h⟩
  · intro i
    obtain ⟨-, hp, -, hs⟩ := joint_effects hJ h i
    exact matchedAt_change hp hs (hM i)
  · rw [h]
    exact hM
  · rwa [h]

theorem Marketplace.active_before (hm : Marketplace.Change env i w w' e)
    (h : e.exec env w = .ok () w') {l' : Listing} (hl' : w'.marketplace.listing i = some l')
    (hactive : l'.isActive = true) :
    (∃ l, w.marketplace.listing i = some l ∧ l.isActive = true) ∨
      w.invoiceNft.status i = some .created := by
  cases hm with
  | frame _ _ hsame => exact Or.inl ⟨l', hsame.listing ▸ hl', hactive⟩
  | listed seller price face token deadline referrer _ =>
    obtain ⟨-, -, -, -, -, _, inv, -, hinv, hst, -, rfl⟩ := Marketplace.listInvoice_ok h
    refine Or.inr ?_
    rw [InvoiceNft.Storage.status_of_current hinv, hst]
  | funded _ _ l _ _ _ hF => exact Or.inl ⟨l, hF.listed, hF.active⟩
  | deactivated _ l _ _ hd =>
    rw [hd.listing] at hl'
    cases hl'
    cases hactive
  | refunded _ _ _ _ hr => exact Or.inl ⟨l', hr.listing ▸ hl', hactive⟩

/-- A direct release finances the invoice and leaves the listing as it is. -/
theorem not_aligned_of_releaseFunds {u : Unit} {marketplace token : Address} {l : Listing}
    (h : FinancingPool.releaseFunds marketplace i token env w = .ok u w')
    (hl : w.marketplace.listing i = some l) (hactive : l.isActive = true) : ¬ Aligned w' := by
  obtain ⟨-, -, -, inv, bps, -, -, -, rfl⟩ := FinancingPool.releaseFunds_ok h
  intro hA
  exact hA i l hl hactive (Or.inl (by simp))

/-- **One step keeps the detector silent exactly when it does not release the funds of an active
listing directly.** -/
theorem aligned_step (hJ : Joint d w) (a : Action) (hk : KeepsWiring d a) (hA : Aligned w) :
    Aligned (step d w a) ↔ NoBypass d w a := by
  have hJ' := joint_step hJ a hk
  rcases step_cases d w a with ⟨c, rfl, hs, h⟩ | ⟨n, rfl, h⟩ | ⟨c, rfl, hn, h⟩
  · constructor
    · rintro hA' - marketplace i token he l hl
      rw [he] at h
      by_contra hactive
      exact not_aligned_of_releaseFunds h hl (Bool.eq_true_of_not_eq_false hactive) hA'
    · intro hno i l' hl' hactive hfin
      obtain ⟨-, hp, hm, -⟩ := joint_effects hJ h i
      obtain ⟨pool', hpool'⟩ := Option.ne_none_iff_exists'.mp ((hJ'.financed i).mpr hfin)
      cases hpool : w.pool.pool i with
      | none =>
        -- the pool opens in this step
        obtain ⟨token, face, bps, hopen, hby⟩ := hp.opens hpool hpool'
        generalize he : c.entry = e at hby
        cases hby with
        | release marketplace =>
          obtain ⟨l, hl⟩ := Option.ne_none_iff_exists'.mp (hJ.listed i hopen.listed)
          have hinactive := hno hs marketplace i token he l hl
          rw [he] at h
          obtain ⟨-, -, -, _, _, -, -, -, hw⟩ := FinancingPool.releaseFunds_ok h
          rw [hw, hl] at hl'
          cases hl'
          rw [hinactive] at hactive
          cases hactive
        | funding investor amount l hl hfull _ =>
          rw [hl'] at hl
          cases hl
          exact absurd hfull ((hJ'.sound i l' hl').active hactive).ne
      | some pool =>
        have hbefore := (hJ.financed i).mp (by rw [hpool]; simp)
        rcases Marketplace.active_before hm h hl' hactive with ⟨l, hl, hact⟩ | hst
        · exact hA i l hl hact hbefore
        · rw [hst] at hbefore
          rcases hbefore with hst | hst | hst <;> cases hst
  · rw [h]
    exact iff_of_true hA trivial
  · rw [h]
    exact iff_of_true hA fun hs => absurd hs hn

end Steps

section Runs

/-- **The drift detector**: while the invoice contract takes lifecycle calls only from the
marketplace and the pool, in every state of a run at most the first check fails, and in every state
all checks pass for all invoices exactly when nobody calls `release_funds` on an active listing
directly. -/
theorem drift_iff (d : Deployment) (now : ℕ) (tokens : Tokens) (as : List Action)
    (hk : ∀ a ∈ as, KeepsWiring d a) :
    (∀ p, p <+: as → ∀ i, ∀ m ∈ checkStateDrift (run (step d) (genesis now tokens) p) i,
        m = .listingActive) ∧
      ((∀ p, p <+: as → ∀ i, checkStateDrift (run (step d) (genesis now tokens) p) i = []) ↔
        Along (step d) (NoBypass d) (genesis now tokens) as) := by
  have hstep : ∀ w a, Joint d w ∧ Matched w → KeepsWiring d a →
      Joint d (step d w a) ∧ Matched (step d w a) :=
    fun w a hw ha => ⟨joint_step hw.1 a ha, matched_step hw.1 a hw.2⟩
  have hgenesis : Joint d (genesis now tokens) ∧ Matched (genesis now tokens) :=
    ⟨joint_genesis d now tokens, by rintro _ _ ⟨⟩⟩
  have hreach : ∀ p, p <+: as → Joint d (run (step d) (genesis now tokens) p) ∧
      Matched (run (step d) (genesis now tokens) p) := by
    intro p hp
    have hprefix : ∀ a ∈ p, KeepsWiring d a := fun a ha => hk a (hp.subset ha)
    exact invariant (I := fun w => Joint d w ∧ Matched w) (C := fun _ a => KeepsWiring d a) hstep
      hgenesis (along_of_forall hprefix)
  constructor
  · intro p hp i m hm
    obtain ⟨hJ, hM⟩ := hreach p hp
    exact mem_checkStateDrift hJ hM hm
  · rw [← forall_prefix_iff_along (I := fun w => Joint d w ∧ Matched w) (Q := Aligned) hstep
      (fun w a hw ha hA => aligned_step hw.1 a ha hA) hgenesis (by rintro _ _ ⟨⟩)
      (along_of_forall hk)]
    refine forall₂_congr fun p hp => ?_
    obtain ⟨hJ, hM⟩ := hreach p hp
    exact silent_iff_aligned hJ hM

/-- The detector sees the pool that a stranger opens, and nothing else is wrong. -/
theorem drift_iff_sample :
    ((∀ p, p <+: releasedByStranger → ∀ i,
        ∀ m ∈ checkStateDrift (run (step sample) sampleGenesis p) i, m = .listingActive) ∧
      ((∀ p, p <+: releasedByStranger →
          ∀ i, checkStateDrift (run (step sample) sampleGenesis p) i = []) ↔
        Along (step sample) (NoBypass sample) sampleGenesis releasedByStranger)) ∧
      checkStateDrift (run (step sample) sampleGenesis releasedByStranger) 1 = [.listingActive] :=
  ⟨drift_iff sample 0 sampleTokens releasedByStranger (by decide +kernel), by decide +kernel⟩

end Runs

end Kora
