import Kora.FinancingPool.Errors
import Kora.System

set_option autoImplicit false

/-!
# What a failed body leaves behind

A repayment that returns an error after it took the lock returns with the lock held, except where
the pool is closed; a recording that returns an error after it wrote the position leaves the
position. Only the host undoes these writes.

* `Locks`, `RepayFails`: a repayment takes the lock, and returns an error afterwards;
* **`repay_error_iff`**, `repayOpen_error_iff`: every error of a repayment that took the lock, with
  the ledger it leaves;
* `Recordable`, `RecordFails`: the same for a recording, with **`recordPosition_error_iff`**;
* **`cleansUp_iff`**: when the lock, and the position, the pool and the aggregates, are as before.
-/

namespace Kora.FinancingPool

open Exec Run

variable {env : Env} {w w' : World} {i : ℕ} {e : KoraError}

/-! ## Repayment -/

/-- What is owed at a time, with the late penalty once it is due. -/
def Owes (now dueDate : ℕ) (p : Pool) (owed : ℤ) : Prop :=
  if p.penaltyApplied = false ∧ 0 < p.latePenaltyBps ∧ dueDate < now then
    ∃ penalty, bpsOf p.faceValue p.latePenaltyBps = .ok penalty ∧
      checkedAdd p.totalOwed penalty = some owed
  else owed = p.totalOwed

theorem owes_iff {now due : ℕ} {p : Pool} {owed : ℤ} : Owes now due p owed ↔
    ∃ q, applyLatePenalty now due p = .ok q ∧ q.totalOwed = owed := by
  unfold Owes applyLatePenalty
  split_ifs
  · simp only [except_bind_ok, okOr_ok]
    constructor
    · rintro ⟨penalty, hpenalty, howed⟩
      exact ⟨_, ⟨penalty, hpenalty, owed, howed, rfl⟩, rfl⟩
    · rintro ⟨_, ⟨penalty, hpenalty, owed, howed, ⟨⟩⟩, rfl⟩
      exact ⟨penalty, hpenalty, howed⟩
  · constructor
    · rintro rfl
      exact ⟨p, rfl, rfl⟩
    · rintro ⟨_, ⟨⟩, rfl⟩
      rfl

theorem not_owes_iff {now due : ℕ} {p : Pool} :
    (∀ owed, ¬ Owes now due p owed) ↔ ∃ e, applyLatePenalty now due p = .error e := by
  simp only [owes_iff]
  cases applyLatePenalty now due p with
  | error e => simp
  | ok q => simp

/-- The payer may repay invoice `i` by `amount`, and nobody is doing so. -/
structure Locks (env : Env) (w : World) (payer : Address) (i : ℕ) (amount : ℤ) : Prop where
  authenticated : env.Authenticates payer
  amount : 0 < amount ∧ amount ≤ maxAmount
  wired : w.pool.invoiceNft = some env.net.invoiceNft
  unfrozen : w.invoiceNft.invoiceFrozen i = false
  free : w.pool.repaymentLock i = false

/-- The invoice `inv` of an open pool is repaid by `amount`, which is worth `r`. -/
structure Credits (env : Env) (w : World) (i : ℕ) (amount : ℤ) (inv : Invoice) (r : ℤ) : Prop where
  invoice : w.invoiceNft.invoice i = some (.current inv)
  converts : Converts env w amount inv.currency r

/-- A repayment of the open pool `p` returns an error. -/
inductive OpenFails (env : Env) (w : World) (payer : Address) (i : ℕ) (token : Address)
    (amount : ℤ) (p : Pool) : Prop
  /-- What is owed with the late penalty cannot be computed. -/
  | owed {inv : Invoice} {r : ℤ} : Credits env w i amount inv r →
      (∀ owed, ¬ Owes env.timestamp inv.dueDate p owed) → OpenFails env w payer i token amount p
  /-- The repaid amount is out of range. -/
  | credit {inv : Invoice} {r owed : ℤ} : Credits env w i amount inv r →
      Owes env.timestamp inv.dueDate p owed → checkedAdd p.repaidAmount r = none →
      OpenFails env w payer i token amount p
  /-- The pool would close, but an investor cannot be paid. -/
  | payout {inv : Invoice} {r owed repaid : ℤ} : Credits env w i amount inv r →
      Owes env.timestamp inv.dueDate p owed → checkedAdd p.repaidAmount r = some repaid →
      owed ≤ repaid →
      (w.tokens.asksAuth token = true → (env.from env.net.financingPool).Authenticates payer) →
      amount ≤ w.tokens.balance token payer →
      DistributionStops env (w.tokens.move token payer env.net.financingPool amount)
        (w.pool.positions i) token repaid → OpenFails env w payer i token amount p

/-- A repayment of invoice `i` returns an error while it holds the lock. -/
def RepayFails (env : Env) (w : World) (payer : Address) (i : ℕ) (token : Address)
    (amount : ℤ) : Prop :=
  w.pool.pool i = none ∨ ∃ p, w.pool.pool i = some p ∧ p.isClosed = false ∧
    OpenFails env w payer i token amount p

/-- The ledger after the repayment lock of an invoice is removed. -/
def freed (w : World) (i : ℕ) : World :=
  { w with pool := { w.pool with repaymentLock := Function.update w.pool.repaymentLock i false } }

theorem held_lock (w : World) (i : ℕ) : (held w i).pool.repaymentLock i = true :=
  Function.update_self ..

theorem freed_lock (w : World) (i : ℕ) : (freed w i).pool.repaymentLock i = false :=
  Function.update_self ..

/-- The ledger after `amount` is paid to the contract and the pool is written. -/
def paidIn (env : Env) (w : World) (payer : Address) (i : ℕ) (token : Address) (amount : ℤ)
    (p : Pool) : World := { w with
  pool := { w.pool with pool := Function.update w.pool.pool i (some p) }
  tokens := w.tokens.move token payer env.net.financingPool amount }

section Repayment

variable {payer token : Address} {amount : ℤ}

theorem repay_unlocked (hl : ¬ Locks env w payer i amount)
    (h : repay payer i token amount env w = .error (.contract e) w') : w' = w := by
  simp only [repay, requireAuth_seq_returns, ensure_seq_error, invoiceFrozen_seq_returns,
    requireUnlocked_seq_error] at h
  obtain ⟨hauth, ⟨-, -, rfl⟩ | ⟨hamount, ⟨-, -, rfl⟩ | ⟨hwired, ⟨-, -, rfl⟩ | ⟨hfrozen,
    ⟨-, -, rfl⟩ | ⟨hfree, -⟩⟩⟩⟩⟩ := h
  · rfl
  · rfl
  · rfl
  · rfl
  · exact absurd ⟨hauth, hamount, hwired, hfrozen, hfree⟩ hl

/-- A repayment from where it found the pool open. -/
def repayOpen (payer : Address) (invoiceId : ℕ) (token : Address) (amount : ℤ) (pool : Pool) :
    Host World Unit := do
  let invoice ← loadInvoice invoiceId
  let effectiveAmount ← convertIfNeeded amount invoice.currency pool.token
  let now ← timestamp
  let pool ← check (applyLatePenalty now invoice.dueDate pool)
  let repaidAmount ← check (okOr (checkedAdd pool.repaidAmount effectiveAmount)
    .arithmeticOverflow)
  let shouldClose := decide (pool.totalOwed ≤ repaidAmount)
  let pool := { pool with repaidAmount, isClosed := pool.isClosed || shouldClose }
  putPool invoiceId pool
  let d ← net
  callToken d.financingPool (Token.transfer token payer d.financingPool amount)
  if shouldClose = true then
    distributeYield invoiceId token pool.repaidAmount pool.faceValue
    callInvoiceNft (InvoiceNft.setRepaid d.financingPool invoiceId)
  setRepaymentLock invoiceId false

theorem repay_error_iff (hl : Locks env w payer i amount) :
    repay payer i token amount env w = .error (.contract e) w' ↔
      (w.pool.pool i = none ∧ .poolNotFound = e ∧ held w i = w') ∨
      ∃ p, w.pool.pool i = some p ∧
        ((p.isClosed = true ∧ .repaymentAlreadyMade = e ∧ freed (held w i) i = w') ∨
        p.isClosed = false ∧
          repayOpen payer i token amount p env (held w i) = .error (.contract e) w') := by
  rw [repay, requireAuth_run hl.authenticated, ensure_run hl.amount, invoiceFrozen_run hl.wired,
    ensure_run hl.unfrozen, requireUnlocked_run hl.free]
  simp only [setRepaymentLock, modifyOwn, modify_run, loadPool_seq_error, Failure.contract.injEq]
  refine or_congr Iff.rfl (exists_congr fun p => and_congr_right fun hp => ?_)
  rw [ite_run]
  split_ifs with hclosed
  · simp only [modify_run, throw_seq_error, hclosed, Failure.contract.injEq, true_and, reduceCtorEq,
      false_and, or_false]
    exact Iff.rfl
  · rw [Bool.not_eq_true] at hclosed
    simp only [hclosed, reduceCtorEq, false_and, false_or, true_and]
    exact Iff.rfl

/-- After the investors are paid nothing returns an error. -/
theorem closing_error_iff {total face : ℤ} {m : InvoiceNft.Body Unit}
    (hwired : w.pool.invoiceNft = some env.net.invoiceNft) :
    (distributeYield i token total face >>= fun _ => callInvoiceNft m >>= fun _ =>
        setRepaymentLock i false) env w = .error (.contract e) w' ↔
      distributeYield i token total face env w = .error (.contract e) w' := by
  rw [bind_error]
  refine or_iff_left ?_
  rintro ⟨_, v, hd, h⟩
  obtain ⟨_, _, -, rfl⟩ := distributeYield_ok hd
  rcases callInvoiceNft_seq_returns.mp h with ⟨hnone, -⟩ | ⟨_, _, -, h⟩
  · change w.pool.invoiceNft = none at hnone
    rw [hwired] at hnone
    cases hnone
  · cases h

/-- **The errors of a repayment of an open pool**: of the penalty, of the credit, or of the
distribution that closes the pool. -/
theorem repayOpen_error_iff {p : Pool} (hwired : w.pool.invoiceNft = some env.net.invoiceNft)
    (hamount : 0 < amount) :
    repayOpen payer i token amount p env w = .error (.contract e) w' ↔
      ∃ inv, w.invoiceNft.invoice i = some (.current inv) ∧
      ∃ r, Converts env w amount inv.currency r ∧
        ((applyLatePenalty env.timestamp inv.dueDate p = .error e ∧ w = w') ∨
        ∃ q, applyLatePenalty env.timestamp inv.dueDate p = .ok q ∧
          ((checkedAdd q.repaidAmount r = none ∧ .arithmeticOverflow = e ∧ w = w') ∨
          ∃ repaid, checkedAdd q.repaidAmount r = some repaid ∧ q.totalOwed ≤ repaid ∧
            (w.tokens.asksAuth token = true →
              (env.from env.net.financingPool).Authenticates payer) ∧
            amount ≤ w.tokens.balance token payer ∧
            distributeYield i token repaid q.faceValue env (paidIn env w payer i token amount
              { q with
                repaidAmount := repaid
                isClosed := q.isClosed || decide (q.totalOwed ≤ repaid) }) =
                  .error (.contract e) w')) := by
  rw [repayOpen, loadInvoice_seq_returns hwired]
  refine exists_congr fun inv => and_congr_right fun hinv => ?_
  simp only [traps_convertIfNeeded.seq_returns, convertIfNeeded_ok_iff, and_assoc,
    exists_and_left, exists_eq_left', timestamp_run, check_seq_returns, okOr_ok, okOr_error]
  refine exists_congr fun r => and_congr_right fun hr => or_congr_right ?_
  refine exists_congr fun q => and_congr_right fun hq => or_congr_right ?_
  refine exists_congr fun repaid => and_congr_right fun hrepaid => ?_
  simp only [putPool, modifyOwn, modify_run, net_run, traps_callToken.seq_returns,
    callToken_transfer_ok, ite_run, decide_eq_true_iff]
  constructor
  · rintro ⟨_, _, ⟨hauth, -, -, hbalance, rfl⟩, h⟩
    split_ifs at h with hclose
    · exact ⟨hclose, hauth, hbalance, (closing_error_iff (by exact hwired)).mp h⟩
    · cases h
  · rintro ⟨hclose, hauth, hbalance, h⟩
    obtain ⟨⟨decimals, hdecimals, -⟩, -⟩ := distributeYield_returns h
    have hknown : (w.tokens.decimals token).isSome = true :=
      Option.isSome_iff_exists.mpr ⟨_, hdecimals⟩
    refine ⟨(), _, ⟨hauth, hknown, hamount.le, hbalance, rfl⟩, ?_⟩
    rw [if_pos hclose]
    exact (closing_error_iff (by exact hwired)).mpr h

theorem repayOpen_lock {p : Pool} (hwired : w.pool.invoiceNft = some env.net.invoiceNft)
    (hamount : 0 < amount)
    (h : repayOpen payer i token amount p env w = .error (.contract e) w') :
    w'.pool.repaymentLock = w.pool.repaymentLock := by
  obtain ⟨inv, -, r, -, ⟨-, rfl⟩ | ⟨q, -, ⟨-, -, rfl⟩ | ⟨repaid, -, -, -, -, hd⟩⟩⟩ :=
    (repayOpen_error_iff hwired hamount).mp h
  · rfl
  · rfl
  · rw [(distributeYield_returns hd).2]
    rfl

theorem repayOpen_returns_iff {p : Pool} (hwired : w.pool.invoiceNft = some env.net.invoiceNft)
    (hamount : 0 < amount) :
    (∃ e w', repayOpen payer i token amount p env (held w i) = .error (.contract e) w') ↔
      OpenFails env w payer i token amount p := by
  constructor
  · rintro ⟨e, w', h⟩
    obtain ⟨inv, hinv, r, hr, ⟨hq, -⟩ | ⟨q, hq, ⟨hnone, -, -⟩ |
      ⟨repaid, hrepaid, hclose, hauth, hbalance, hd⟩⟩⟩ :=
        (repayOpen_error_iff (by exact hwired) hamount).mp h
    · exact .owed ⟨hinv, hr⟩ (not_owes_iff.mpr ⟨e, hq⟩)
    · obtain ⟨owed, applied, rfl⟩ := applyLatePenalty_ok hq
      exact .credit ⟨hinv, hr⟩ (owes_iff.mpr ⟨_, hq, rfl⟩) hnone
    · obtain ⟨owed, applied, rfl⟩ := applyLatePenalty_ok hq
      exact .payout ⟨hinv, hr⟩ (owes_iff.mpr ⟨_, hq, rfl⟩) hrepaid hclose hauth hbalance
        (distributeYield_returns hd).1
  · intro h
    cases h with
    | owed hc hnot =>
      obtain ⟨e, he⟩ := not_owes_iff.mp hnot
      exact ⟨e, _, (repayOpen_error_iff (by exact hwired) hamount).mpr
        ⟨_, hc.invoice, _, hc.converts, Or.inl ⟨he, rfl⟩⟩⟩
    | credit hc howes hnone =>
      obtain ⟨q, hq, rfl⟩ := owes_iff.mp howes
      obtain ⟨owed, applied, rfl⟩ := applyLatePenalty_ok hq
      exact ⟨_, _, (repayOpen_error_iff (by exact hwired) hamount).mpr
        ⟨_, hc.invoice, _, hc.converts, Or.inr ⟨_, hq, Or.inl ⟨hnone, rfl, rfl⟩⟩⟩⟩
    | payout hc howes hrepaid hclose hauth hbalance hstops =>
      obtain ⟨q, hq, rfl⟩ := owes_iff.mp howes
      obtain ⟨owed, applied, rfl⟩ := applyLatePenalty_ok hq
      obtain ⟨e, w', hd⟩ := DistributionStops.returns
        (w := paidIn env (held w i) payer i token amount _) hstops
      exact ⟨e, w', (repayOpen_error_iff (by exact hwired) hamount).mpr
        ⟨_, hc.invoice, _, hc.converts, Or.inr ⟨_, hq,
          Or.inr ⟨_, hrepaid, hclose, hauth, hbalance, hd⟩⟩⟩⟩

/-- **A repayment returns without its lock** exactly where it does not fail after taking it. -/
theorem repay_cleansUp_iff :
    (∀ e w', repay payer i token amount env w = .error (.contract e) w' →
      w'.pool.repaymentLock i = w.pool.repaymentLock i) ↔
        ¬ (Locks env w payer i amount ∧ RepayFails env w payer i token amount) := by
  constructor
  · rintro hclean ⟨hl, hfails⟩
    obtain ⟨e, w', h, hheld⟩ : ∃ e w', repay payer i token amount env w = .error (.contract e) w' ∧
        w'.pool.repaymentLock = (held w i).pool.repaymentLock := by
      rcases hfails with hnone | ⟨p, hp, hopen, hfails⟩
      · exact ⟨_, _, (repay_error_iff hl).mpr (Or.inl ⟨hnone, rfl, rfl⟩), rfl⟩
      · obtain ⟨e, w', h⟩ := (repayOpen_returns_iff hl.wired hl.amount.1).mpr hfails
        exact ⟨e, w', (repay_error_iff hl).mpr (Or.inr ⟨p, hp, Or.inr ⟨hopen, h⟩⟩),
          repayOpen_lock (by exact hl.wired) hl.amount.1 h⟩
    have hsame : w'.pool.repaymentLock i = w.pool.repaymentLock i := hclean e w' h
    rw [hheld, hl.free, held_lock] at hsame
    cases hsame
  · intro hnot e w' h
    by_cases hl : Locks env w payer i amount
    · rcases (repay_error_iff hl).mp h with ⟨hnone, -, -⟩ | ⟨p, hp, ⟨-, -, rfl⟩ | ⟨hopen, h⟩⟩
      · exact absurd ⟨hl, Or.inl hnone⟩ hnot
      · -- the closed pool is the one error that removes the lock
        rw [freed_lock, hl.free]
      · have hfails : OpenFails env w payer i token amount p :=
          (repayOpen_returns_iff hl.wired hl.amount.1).mp ⟨e, w', h⟩
        exact absurd ⟨hl, Or.inr ⟨p, hp, hopen, hfails⟩⟩ hnot
    · rw [repay_unlocked hl h]

end Repayment

/-! ## Recording -/

/-- The admin may record the contribution, which has share `share` within the cap. -/
structure Recordable (env : Env) (w : World) (caller : Address) (contributed total : ℤ)
    (share : ℕ) : Prop where
  authenticated : env.Authenticates caller
  admin : w.pool.admin = some caller
  unpaused : w.pool.accessControl = some env.net.accessControl ∧
    w.accessControl.paused.getD false = false
  positive : 0 < contributed ∧ 0 < total
  bounded : contributed ≤ total ∧ contributed ≤ maxAmount ∧ total ≤ maxAmount
  shareOk : shareBpsOf contributed total = .ok share
  capped : share ≤ w.pool.maxPositionBps.getD 5_000

/-- The aggregate of the token of `p`, with the contribution in place of the old one, is out of
range. -/
def AggregateOverflows (w : World) (i : ℕ) (investor : Address) (contributed : ℤ) (p : Pool) :
    Prop :=
  ((checkedSub ((w.pool.aggregateFunded p.token).getD 0)
    (w.pool.contributedBy i investor)).bind fun v => checkedAdd v contributed) = none

/-- A recording returns an error after it wrote the position. -/
def RecordFails (w : World) (i : ℕ) (investor : Address) (contributed : ℤ) : Prop :=
  w.pool.pool i = none ∨ ∃ p, w.pool.pool i = some p ∧
    AggregateOverflows w i investor contributed p

/-- The ledger after a position is written. -/
def positioned (w : World) (i : ℕ) (investor : Address) (p : Position) : World := { w with
  pool := { w.pool with
    positions := Function.update w.pool.positions i ((w.pool.positions i).insert investor p) } }

section Recording

variable {caller investor : Address} {contributed total : ℤ} {share : ℕ}

theorem recordPosition_unwritten
    (hr : ∀ share, ¬ Recordable env w caller contributed total share)
    (h : recordPosition caller i investor contributed total env w = .error (.contract e) w') :
    w' = w := by
  rw [recordPosition, requireAuth_seq_returns] at h
  obtain ⟨hauth, h⟩ := h
  rcases requireAdmin_seq_returns h with rfl | ⟨hadmin, h⟩
  · rfl
  rcases requireNotPaused_seq_returns h with ⟨rfl, -⟩ | ⟨hunpaused, h⟩
  · rfl
  simp only [ensure_seq_error, check_seq_returns, gets_run] at h
  rcases h with ⟨-, -, rfl⟩ | ⟨hpos, ⟨-, -, rfl⟩ | ⟨hbounded, ⟨-, rfl⟩ | ⟨share, hshare,
    ⟨-, -, rfl⟩ | ⟨hcap, -⟩⟩⟩⟩
  · rfl
  · rfl
  · rfl
  · rfl
  · exact absurd ⟨hauth, hadmin, hunpaused, hpos, hbounded, hshare, hcap⟩ (hr share)

theorem recordPosition_error_iff (hr : Recordable env w caller contributed total share) :
    recordPosition caller i investor contributed total env w = .error (.contract e) w' ↔
      ((w.pool.pool i = none ∧ .poolNotFound = e) ∨
        ∃ p, w.pool.pool i = some p ∧ AggregateOverflows w i investor contributed p ∧
          .arithmeticOverflow = e) ∧
        positioned w i investor ⟨investor, i, contributed, share, 0⟩ = w' := by
  rw [recordPosition, requireAuth_run hr.authenticated, requireAdmin_run hr.admin,
    requireNotPaused_run hr.unpaused, ensure_run hr.positive, ensure_run hr.bounded,
    check_run hr.shareOk, gets_run, ensure_run hr.capped]
  simp only [gets_run, modifyOwn, modify_run, loadPool_seq_error, check_seq_returns, okOr_ok,
    okOr_error, Failure.contract.injEq]
  constructor
  · rintro (⟨hnone, he, rfl⟩ | ⟨p, hp, ⟨⟨hover, he⟩, rfl⟩ | ⟨_, -, ⟨⟩⟩⟩)
    · exact ⟨Or.inl ⟨hnone, he⟩, rfl⟩
    · exact ⟨Or.inr ⟨p, hp, hover, he⟩, rfl⟩
  · rintro ⟨⟨hnone, he⟩ | ⟨p, hp, hover, he⟩, rfl⟩
    · exact Or.inl ⟨hnone, he, rfl⟩
    · exact Or.inr ⟨p, hp, Or.inl ⟨⟨hover, he⟩, rfl⟩⟩

theorem recordPosition_returns_iff (hr : Recordable env w caller contributed total share) :
    (∃ e, recordPosition caller i investor contributed total env w = .error (.contract e) w') ↔
      RecordFails w i investor contributed ∧
        positioned w i investor ⟨investor, i, contributed, share, 0⟩ = w' := by
  simp only [recordPosition_error_iff hr, exists_and_right]
  refine and_congr_left fun _ => ?_
  constructor
  · rintro ⟨e, ⟨hnone, -⟩ | ⟨p, hp, hover, -⟩⟩
    · exact Or.inl hnone
    · exact Or.inr ⟨p, hp, hover⟩
  · rintro (hnone | ⟨p, hp, hover⟩)
    · exact ⟨_, Or.inl ⟨hnone, rfl⟩⟩
    · exact ⟨_, Or.inr ⟨p, hp, hover, rfl⟩⟩

/-- **A recording returns without its position** exactly where it does not fail after writing a new
one. -/
theorem recordPosition_cleansUp_iff :
    (∀ e w', recordPosition caller i investor contributed total env w = .error (.contract e) w' →
      w'.pool.positions = w.pool.positions ∧ w'.pool.pool = w.pool.pool ∧
        w'.pool.aggregateFunded = w.pool.aggregateFunded) ↔
      ¬ ∃ share, Recordable env w caller contributed total share ∧
        (w.pool.positions i)[investor]? ≠ some ⟨investor, i, contributed, share, 0⟩ ∧
        RecordFails w i investor contributed := by
  constructor
  · rintro hclean ⟨share, hr, hnew, hfails⟩
    obtain ⟨e, h⟩ := (recordPosition_returns_iff hr).mpr ⟨hfails, rfl⟩
    have hsame : (positioned w i investor ⟨investor, i, contributed, share, 0⟩).pool.positions =
        w.pool.positions := (hclean e _ h).1
    rw [positioned, Function.update_eq_self_iff, FinMap.insert_eq_self_iff] at hsame
    exact hnew hsame
  · intro hnot e w' h
    by_cases hr : ∃ share, Recordable env w caller contributed total share
    · obtain ⟨share, hr⟩ := hr
      obtain ⟨hfails, rfl⟩ := (recordPosition_returns_iff hr).mp ⟨e, h⟩
      have hold : (w.pool.positions i)[investor]? = some ⟨investor, i, contributed, share, 0⟩ := by
        by_contra hnew
        exact hnot ⟨share, hr, hnew, hfails⟩
      refine ⟨?_, rfl, rfl⟩
      rw [positioned, Function.update_eq_self_iff, FinMap.insert_eq_self_iff]
      exact hold
    · rw [recordPosition_unwritten (not_exists.mp hr) h]
      exact ⟨rfl, rfl, rfl⟩

end Recording

/-! ## Both -/

/-- **The bodies clean up** exactly where they do not fail after their first write: a repayment
that took the lock, unless the pool is closed, and a recording that wrote a new position. -/
theorem cleansUp_iff (env : Env) (w : World) (i : ℕ) :
    (∀ payer token amount,
      (∀ e w', repay payer i token amount env w = .error (.contract e) w' →
        w'.pool.repaymentLock i = w.pool.repaymentLock i) ↔
          ¬ (Locks env w payer i amount ∧ RepayFails env w payer i token amount)) ∧
    ∀ caller investor contributed total,
      (∀ e w', recordPosition caller i investor contributed total env w = .error (.contract e) w' →
        w'.pool.positions = w.pool.positions ∧ w'.pool.pool = w.pool.pool ∧
          w'.pool.aggregateFunded = w.pool.aggregateFunded) ↔
        ¬ ∃ share, Recordable env w caller contributed total share ∧
          (w.pool.positions i)[investor]? ≠ some ⟨investor, i, contributed, share, 0⟩ ∧
          RecordFails w i investor contributed :=
  ⟨fun _ _ _ => repay_cleansUp_iff, fun _ _ _ _ => recordPosition_cleansUp_iff⟩

/-- Invoice `1` is listed and has no pool yet: a repayment of `100` leaves its lock, and a recording
of `50` of `100` its position. -/
theorem cleanUp_missing_pool :
    (∃ w', repay 2 1 50 100 ⟨sample, 0, none, [2]⟩
        (run (step sample) sampleGenesis (sampleSetup "USDC")) =
          .error (.contract .poolNotFound) w' ∧ w'.pool.repaymentLock 1 ≠
        (run (step sample) sampleGenesis (sampleSetup "USDC")).pool.repaymentLock 1) ∧
    ∃ w', recordPosition 1 1 3 50 100 ⟨sample, 0, none, [1]⟩
        (run (step sample) sampleGenesis (sampleSetup "USDC")) =
          .error (.contract .poolNotFound) w' ∧ w'.pool.positions ≠
        (run (step sample) sampleGenesis (sampleSetup "USDC")).pool.positions := by
  constructor
  · refine ⟨held _ 1, (repay_error_iff ⟨by decide, by decide +kernel, by decide +kernel,
      by decide +kernel, by decide +kernel⟩).mpr (Or.inl ⟨by decide +kernel, rfl, rfl⟩), ?_⟩
    rw [held_lock]
    decide +kernel
  · refine ⟨positioned _ 1 3 ⟨3, 1, 50, 5_000, 0⟩, (recordPosition_error_iff ⟨by decide,
      by decide +kernel, by decide +kernel, by decide, by decide +kernel, rfl,
      by decide +kernel⟩).mpr ⟨Or.inl ⟨by decide +kernel, rfl⟩, rfl⟩, ?_⟩
    rw [positioned, Ne, Function.update_eq_self_iff, FinMap.insert_eq_self_iff]
    decide +kernel

end Kora.FinancingPool
