import Kora.FinancingPool.Flow

set_option autoImplicit false

/-!
# Repayments and the money behind them

`repay` takes the token its caller names and credits the pool with the amount converted from the
invoice currency to USDC. While there was no early settlement, the credited amount is the money
received in the pool's token exactly as long as every repayment names that token and is credited
at par.

* `repayInflow`, `settlements`: the money received from repayments, and the early settlements;
* `backed_change`: one transaction;
* **`backed_iff`**: every run.
-/

namespace Kora.FinancingPool

open Exec Run

/-- The invoice an entry point repays. -/
def repaidInvoice : Entry → Option ℕ
  | .pool (.repay _ i _ _) => some i
  | _ => none

/-- The invoice whose offer an entry point accepts. -/
def acceptedInvoice : Entry → Option ℕ
  | .pool (.acceptEarlySettlement _ i) => some i
  | _ => none

/-- What payers transfer to the pool contract in a repayment of invoice `i`, in each token. -/
def repayInflow : Deployment → ℕ → World → Action → Address → ℤ := flowOf repaidInvoice inflow

/-- The pool of invoice `i` is open. -/
def isOpen (w : World) (i : ℕ) : Bool := (w.pool.pool i).any fun p => !p.isClosed

/-- The early settlements of invoice `i`: acceptances that close its pool. -/
def settlements (d : Deployment) (i : ℕ) (w : World) : Action → ℕ
  | .call c => if acceptedInvoice c.entry = some i ∧ isOpen w i = true ∧
      isOpen (step d w (.call c)) i = false then 1 else 0
  | .tick _ => 0

/-- A successful repayment of invoice `i` names the token of the pool and is credited with the
amount it transfers. -/
def RepaysInKind (d : Deployment) (i : ℕ) (w : World) : Action → Prop
  | .call c => c.Succeeds d w → ∀ payer token amount pool inv,
    c.entry = .pool (.repay payer i token amount) → w.pool.pool i = some pool →
    w.invoiceNft.invoice i = some (.current inv) →
    token = pool.token ∧ credit w amount inv.currency = amount
  | .tick _ => True

/-- With `received` from repayments and no settlement, the pool is credited with what it received
in its token. -/
def Backed (i : ℕ) (w : World) (m : (Address → ℤ) × ℕ) : Prop :=
  ∀ pool, w.pool.pool i = some pool → m.2 = 0 → pool.repaidAmount = m.1 pool.token

/-- Nothing is received before there is a pool, and an open pool was not settled. -/
structure RepayLedger (i : ℕ) (w : World) (m : (Address → ℤ) × ℕ) : Prop where
  unopened : w.pool.pool i = none → m = 0
  unsettled : ∀ pool, w.pool.pool i = some pool → pool.isClosed = false → m.2 = 0

section Steps

variable {d : Deployment} {i : ℕ} {w w' : World} {c : Call} {m : (Address → ℤ) × ℕ}

/-- The money received in a step and the settlements in it. -/
def repayStep (d : Deployment) (i : ℕ) (w : World) (a : Action) : (Address → ℤ) × ℕ :=
  (repayInflow d i w a, settlements d i w a)

theorem dealsWith_of_repaidInvoice {e : Entry} (h : repaidInvoice e = some i) :
    DealsWith i e := by
  unfold repaidInvoice at h
  split at h
  · exact Option.some.inj h
  · cases h

theorem dealsWith_of_acceptedInvoice {e : Entry} (h : acceptedInvoice e = some i) :
    DealsWith i e := by
  unfold acceptedInvoice at h
  split at h
  · exact Option.some.inj h
  · cases h

theorem settlements_of_ne (h : acceptedInvoice c.entry ≠ some i) :
    settlements d i w (.call c) = 0 := if_neg fun hc => h hc.1

theorem settlements_of_isOpen (h : isOpen (step d w (.call c)) i = isOpen w i) :
    settlements d i w (.call c) = 0 := by
  refine if_neg fun hc => ?_
  rw [h, hc.2.1] at hc
  exact absurd hc.2.2 (by decide)

theorem repaysInKind_of_ne (he : repaidInvoice c.entry ≠ some i) :
    RepaysInKind d i w (.call c) := by
  rintro - _ _ _ _ _ he'
  rw [he'] at he
  exact absurd rfl he

theorem repaysInKind_iff {payer token : Address} {amount : ℤ} {p : Pool} {inv : Invoice}
    (he : c.entry = .pool (.repay payer i token amount)) (hs : c.Succeeds d w)
    (hp : w.pool.pool i = some p) (hinv : w.invoiceNft.invoice i = some (.current inv)) :
    RepaysInKind d i w (.call c) ↔ token = p.token ∧ credit w amount inv.currency = amount := by
  constructor
  · intro h
    exact h hs payer token amount p inv he hp hinv
  · rintro h - _ _ _ pool inv' he' hpool hinv'
    rw [he] at he'
    cases he'
    rw [hp] at hpool
    cases hpool
    rw [hinv] at hinv'
    cases hinv'
    exact h

theorem isOpen_congr (h : w'.pool.pool i = w.pool.pool i) : isOpen w' i = isOpen w i := by
  rw [isOpen, isOpen, h]

theorem repayLedger_congr (hI : RepayLedger i w m) (h : w'.pool.pool i = w.pool.pool i) :
    RepayLedger i w' m :=
  ⟨fun hp => hI.unopened (h ▸ hp), fun p hp => hI.unsettled p (h ▸ hp)⟩

theorem backed_congr (h : w'.pool.pool i = w.pool.pool i) : Backed i w' m ↔ Backed i w m := by
  rw [Backed, Backed, h]

theorem backed_same (hI : RepayLedger i w m) (he : repaidInvoice c.entry ≠ some i)
    (h : (step d w (.call c)).pool.pool i = w.pool.pool i) :
    RepayLedger i (step d w (.call c)) (m + repayStep d i w (.call c)) ∧
      (Backed i w m → (Backed i (step d w (.call c)) (m + repayStep d i w (.call c)) ↔
        RepaysInKind d i w (.call c))) := by
  have hzero : repayStep d i w (.call c) = 0 :=
    Prod.ext (flowOf_of_ne he) (settlements_of_isOpen (isOpen_congr h))
  rw [hzero, add_zero]
  exact ⟨repayLedger_congr hI h,
    fun hQ => iff_of_true ((backed_congr h).mpr hQ) (repaysInKind_of_ne he)⟩

theorem backed_open (hI : RepayLedger i w m) {token : Address} {face : ℤ} {bps : ℕ}
    (hdeals : ¬ DealsWith i c.entry) (h : Opening i w (step d w (.call c)) token face bps) :
    RepayLedger i (step d w (.call c)) (m + repayStep d i w (.call c)) ∧
      (Backed i w m → (Backed i (step d w (.call c)) (m + repayStep d i w (.call c)) ↔
        RepaysInKind d i w (.call c))) := by
  have hrepaid : repaidInvoice c.entry ≠ some i :=
    fun h' => hdeals (dealsWith_of_repaidInvoice h')
  have haccepted : acceptedInvoice c.entry ≠ some i :=
    fun h' => hdeals (dealsWith_of_acceptedInvoice h')
  have hzero : repayStep d i w (.call c) = 0 :=
    Prod.ext (flowOf_of_ne hrepaid) (settlements_of_ne haccepted)
  rw [hI.unopened h.unopened, hzero, add_zero]
  refine ⟨⟨fun _ => rfl, fun _ _ _ => rfl⟩, fun _ => ?_⟩
  have hbacked : Backed i (step d w (.call c)) 0 := by
    intro pool hpool _
    rw [h.pool] at hpool
    cases hpool
    rfl
  exact iff_of_true hbacked (repaysInKind_of_ne hrepaid)

theorem backed_repay (hI : RepayLedger i w m) (hs : c.Succeeds d w) {payer token : Address}
    {amount owed : ℤ} {p : Pool} {inv : Invoice} {applied : Bool} {payments : List (Address × ℤ)}
    (he : c.entry = .pool (.repay payer i token amount))
    (h : Repayment (c.env d w) i w (step d w (.call c)) payer token amount owed p inv applied
      payments) :
    RepayLedger i (step d w (.call c)) (m + repayStep d i w (.call c)) ∧
      (Backed i w m → (Backed i (step d w (.call c)) (m + repayStep d i w (.call c)) ↔
        RepaysInKind d i w (.call c))) := by
  have hp' := h.pool
  have hpayer : payer ≠ d.financingPool := Call.ne_financingPool h.authenticated
  have hreceived : repayInflow d i w (.call c) = fun t => if token = t then amount else 0 := by
    rw [repayInflow, flowOf_of_eq (by rw [he]; rfl), newTransfers_of_move_payAll h.tokens]
    funext t
    simp [hpayer, Call.env]
  have hstep : repayStep d i w (.call c) = (fun t => if token = t then amount else 0, 0) :=
    Prod.ext hreceived (settlements_of_ne (by rw [he]; rintro ⟨⟩))
  have hn := hI.unsettled p h.found h.unclosed
  rw [hstep, repaysInKind_iff he hs h.found h.invoice]
  refine ⟨⟨fun hnone => ?_, fun _ _ _ => hn⟩, fun hQ => ?_⟩
  · rw [hp'] at hnone
    cases hnone
  · -- the credit is backed when it equals what came in of the pool's token
    have hcredit : Backed i (step d w (.call c))
        (m + (fun t => if token = t then amount else 0, 0)) ↔
        p.repaidAmount + credit w amount inv.currency =
          m.1 p.token + if token = p.token then amount else 0 := by
      constructor
      · intro h
        exact h _ hp' hn
      · intro h pool hpool _
        rw [hp'] at hpool
        cases hpool
        exact h
    rw [hcredit, hQ p h.found hn, add_right_inj]
    split_ifs with htoken
    · simp [htoken]
    · exact iff_of_false h.credited.ne' fun h => htoken h.1

theorem backed_settle {investor : Address} {offer : EarlySettlementOffer} {p : Pool}
    {pos : Position} {inv : Invoice} {decimals : ℕ} {payments : List (Address × ℤ)}
    (he : c.entry = .pool (.acceptEarlySettlement investor i))
    (h : Settlement (c.env d w) i w (step d w (.call c)) investor offer p pos inv decimals
      payments) :
    RepayLedger i (step d w (.call c)) (m + repayStep d i w (.call c)) ∧
      (Backed i w m → (Backed i (step d w (.call c)) (m + repayStep d i w (.call c)) ↔
        RepaysInKind d i w (.call c))) := by
  have hp' := h.pool
  have hrepaid : repaidInvoice c.entry ≠ some i := by
    rw [he]
    rintro ⟨⟩
  have hsettled : settlements d i w (.call c) = 1 :=
    if_pos ⟨by rw [he]; rfl, by simp [isOpen, h.found, h.unclosed], by simp [isOpen, hp']⟩
  have hstep : repayStep d i w (.call c) = (0, 1) := Prod.ext (flowOf_of_ne hrepaid) hsettled
  rw [hstep]
  refine ⟨⟨fun hnone => ?_, fun pool hpool hopen => ?_⟩, fun _ => ?_⟩
  · rw [hp'] at hnone
    cases hnone
  · rw [hp'] at hpool
    cases hpool
    cases hopen
  · refine iff_of_true (fun pool _ hzero => ?_) (repaysInKind_of_ne hrepaid)
    exact absurd hzero (Nat.succ_ne_zero _)

theorem backed_change (hI : RepayLedger i w m) (hs : c.Succeeds d w)
    (h : Change (c.env d w) i w (step d w (.call c)) c.entry) :
    RepayLedger i (step d w (.call c)) (m + repayStep d i w (.call c)) ∧
      (Backed i w m → (Backed i (step d w (.call c)) (m + repayStep d i w (.call c)) ↔
        RepaysInKind d i w (.call c))) := by
  generalize he : c.entry = e at h
  have hsame := backed_same (d := d) (c := c) hI
  rw [he] at hsame
  cases h with
  | frame _ hne h => exact hsame (fun h' => hne (dealsWith_of_repaidInvoice h')) h.pool
  | opened _ token face bps hne h => exact backed_open hI (by rwa [he]) h
  | recorded _ _ _ _ _ h => exact hsame nofun h.pool
  | sold _ _ _ h => exact hsame nofun h.pool
  | repaid _ _ _ _ _ _ _ _ h => exact backed_repay hI hs he h
  | defaulted _ _ _ _ _ h => exact hsame nofun h.same.pool
  | proposed _ _ _ h => exact hsame nofun h.pool
  | accepted _ _ _ _ h => exact hsame nofun h.pool
  | settled _ _ _ _ _ _ _ h => exact backed_settle he h
  | cancelled _ _ _ h => exact hsame nofun h.pool

theorem repayStep_of_not_succeeds {a : Action} (hn : ∀ c, a = .call c → ¬ c.Succeeds d w) :
    repayStep d i w a = 0 ∧ RepaysInKind d i w a := by
  refine ⟨Prod.ext (flowOf_of_not_succeeds (fun _ => rfl) hn) ?_, ?_⟩
  · cases a with
    | tick n => rfl
    | call c => exact settlements_of_isOpen (by rw [step_call_of_not_ok (hn c rfl)])
  · cases a with
    | tick n => trivial
    | call c => exact fun hs => absurd hs (hn c rfl)

/-- **One step keeps the credit backed exactly when it repays in kind.** -/
theorem backed_step (hI : RepayLedger i w m) (a : Action) :
    RepayLedger i (step d w a) (m + repayStep d i w a) ∧
      (Backed i w m → (Backed i (step d w a) (m + repayStep d i w a) ↔ RepaysInKind d i w a)) := by
  rcases step_change d w a i with ⟨c, rfl, hs, h⟩ | ⟨hn, n, h⟩
  · exact backed_change hI hs h
  · obtain ⟨hzero, hkind⟩ := repayStep_of_not_succeeds (i := i) hn
    rw [hzero, add_zero, h]
    exact ⟨repayLedger_congr hI rfl, fun hQ => iff_of_true hQ hkind⟩

end Steps

section Runs

/-- **Repayment credit**: in a run, every pool without early settlement is credited with the units
of its token received from repayments, in every state, exactly when every repayment names the
pool's token and is credited at par. -/
theorem backed_iff (d : Deployment) (now : ℕ) (tokens : Tokens) (as : List Action) :
    (∀ p, p <+: as → ∀ i pool, (run (step d) (genesis now tokens) p).pool.pool i = some pool →
        tally (step d) (settlements d i) (genesis now tokens) p = 0 →
        pool.repaidAmount = tally (step d) (repayInflow d i) (genesis now tokens) p pool.token) ↔
      Along (step d) (fun w a => ∀ i, RepaysInKind d i w a) (genesis now tokens) as := by
  have hiff : ∀ i, _ ↔ _ := fun i => @forall_prefix_iff _ _ (counted (step d) (repayStep d i))
    (fun s => RepayLedger i s.1 s.2) (fun s => Backed i s.1 s.2)
    (fun s a => RepaysInKind d i s.1 a)
    (fun s a hI => (backed_step hI a).1) (fun s a hI => (backed_step hI a).2)
    (genesis now tokens, 0) as ⟨fun _ => rfl, nofun⟩ nofun
  have htally : ∀ i p, tally (step d) (repayStep d i) (genesis now tokens) p =
      (tally (step d) (repayInflow d i) (genesis now tokens) p,
        tally (step d) (settlements d i) (genesis now tokens) p) := fun _ _ => tally_prod _ _ _ _
  simp only [along_counted, run_counted, zero_add, htally] at hiff
  rw [along_forall, ← forall_congr' hiff]
  exact ⟨fun h i p hp => h p hp i, fun h p hp i => h i p hp⟩

/-- The pool of invoice `1` holds token `50`; the SME repays `4_000` in token `51`. -/
def repaidElsewhere : List Action :=
  sampleFunding "USDC" ++ [signed 2 (.pool (.repay 2 1 51 4_000))]

/-- The pool is credited with 4 000 and received nothing in its token. -/
theorem credit_unbacked : ¬ ∀ (d : Deployment) (now : ℕ) (tokens : Tokens) (as : List Action)
    (i : ℕ) (pool : Pool), (run (step d) (genesis now tokens) as).pool.pool i = some pool →
    tally (step d) (settlements d i) (genesis now tokens) as = 0 →
    pool.repaidAmount = tally (step d) (repayInflow d i) (genesis now tokens) as pool.token :=
  fun h => absurd (h sample 0 sampleTokens repaidElsewhere 1
    ⟨1, 50, 0, 10_000, 4_000, false, 200, 10_000, false⟩ (by decide +kernel) (by decide +kernel))
    (by decide +kernel)

end Runs

end Kora.FinancingPool
