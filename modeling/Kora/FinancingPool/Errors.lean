import Kora.FinancingPool.Spec

set_option autoImplicit false

/-!
# Where the financing pool returns an error

A call of another contract traps when it fails, so the errors that the pool returns are those of
its own guards, of its own arithmetic and of the payouts of a distribution.

* `requireAdmin_seq_returns`, `requireNotPaused_seq_returns`, `callInvoiceNft_seq_returns`, …: the
  helpers in a sequence that returns an error;
* `Stops`: an investor of the list whose payout cannot be computed, after all that are paid;
* **`payInvestors_returns`**, **`Stops.returns`**: a distribution returns an error exactly there,
  with the storage of the pool as it was.
-/

namespace Kora.FinancingPool

open Exec

variable {env : Env} {w w' : World} {i : ℕ} {e : KoraError}

/-! ## Helpers -/

section Helpers

variable {α β : Type} {l : Unit → Host World β}

theorem requireAdmin_seq_returns {caller : Address}
    (h : (requireAdmin caller >>= l) env w = .error (.contract e) w') :
    w' = w ∨ w.pool.admin = some caller ∧ l () env w = .error (.contract e) w' := by
  simp only [requireAdmin, assoc_run, fetch_seq_error, ensure_seq_error] at h
  rcases h with ⟨-, -, rfl⟩ | ⟨a, ha, ⟨-, -, rfl⟩ | ⟨rfl, h⟩⟩
  · exact Or.inl rfl
  · exact Or.inl rfl
  · exact Or.inr ⟨ha, h⟩

theorem requireNotPaused_seq_returns
    (h : (requireNotPaused >>= l) env w = .error (.contract e) w') :
    (w' = w ∧ (e = .notInitialized ∨ e = .protocolPaused)) ∨
      (w.pool.accessControl = some env.net.accessControl ∧
        w.accessControl.paused.getD false = false) ∧ l () env w = .error (.contract e) w' := by
  simp only [requireNotPaused, assoc_run, fetch_seq_error, net_run,
    traps_callFrom.seq_returns, callFrom_ok, onAccessControl_ok, AccessControl.isPaused_ok,
    ensure_seq_error] at h
  rcases h with ⟨-, he, rfl⟩ |
    ⟨a, ha, _, _, ⟨rfl, _, ⟨rfl, rfl⟩, rfl⟩, ⟨-, he, rfl⟩ | ⟨hpaused, h⟩⟩
  · cases he
    exact Or.inl ⟨rfl, Or.inl rfl⟩
  · cases he
    exact Or.inl ⟨rfl, Or.inr rfl⟩
  · exact Or.inr ⟨⟨ha, hpaused⟩, h⟩

theorem loadPool_seq_error {k : Pool → Host World β} {f : Failure} :
    (loadPool i >>= k) env w = .error f w' ↔
      (w.pool.pool i = none ∧ .contract .poolNotFound = f ∧ w = w') ∨
        ∃ p, w.pool.pool i = some p ∧ k p env w = .error f w' := fetch_seq_error

theorem requireUnlocked_seq_error {f : Failure} : (requireUnlocked i >>= l) env w = .error f w' ↔
    (¬ w.pool.repaymentLock i = false ∧ .contract .unauthorized = f ∧ w = w') ∨
      w.pool.repaymentLock i = false ∧ l () env w = .error f w' := by
  rw [requireUnlocked, assoc_run, gets_run, ensure_seq_error]

theorem callInvoiceNft_seq_returns {m : InvoiceNft.Body α} {k : α → Host World β} :
    (callInvoiceNft m >>= k) env w = .error (.contract e) w' ↔
      (w.pool.invoiceNft = none ∧ .notInitialized = e ∧ w = w') ∨
        ∃ a u, callInvoiceNft m env w = .ok a u ∧ k a env u = .error (.contract e) w' := by
  rw [bind_error, callInvoiceNft, fetch_seq_error]
  simp only [net_run, Failure.contract.injEq]
  refine or_congr_left (or_iff_left ?_)
  rintro ⟨nft, -, h⟩
  exact traps_callFrom _ _ _ _ h

theorem loadInvoice_seq_returns {k : Invoice → Host World β}
    (hnft : w.pool.invoiceNft = some env.net.invoiceNft) :
    (loadInvoice i >>= k) env w = .error (.contract e) w' ↔
      ∃ inv, w.invoiceNft.invoice i = some (.current inv) ∧
        k inv env w = .error (.contract e) w' := by
  rw [loadInvoice, callInvoiceNft_seq_returns, hnft]
  simp only [reduceCtorEq, false_and, false_or, callInvoiceNft_ok, InvoiceNft.getInvoice_ok]
  constructor
  · rintro ⟨inv, _, ⟨-, _, ⟨hinv, rfl⟩, rfl⟩, hk⟩
    exact ⟨inv, hinv, hk⟩
  · rintro ⟨inv, hinv, hk⟩
    exact ⟨inv, w, ⟨hnft, _, ⟨hinv, rfl⟩, rfl⟩, hk⟩

theorem invoiceFrozen_seq_returns {k : Bool → Host World β} :
    (callInvoiceNft (InvoiceNft.isInvoiceFrozen i) >>= k) env w = .error (.contract e) w' ↔
      (w.pool.invoiceNft = none ∧ .notInitialized = e ∧ w = w') ∨
        w.pool.invoiceNft = some env.net.invoiceNft ∧
          k (w.invoiceNft.invoiceFrozen i) env w = .error (.contract e) w' := by
  rw [callInvoiceNft_seq_returns]
  simp only [callInvoiceNft_ok, InvoiceNft.isInvoiceFrozen_ok]
  refine or_congr_right ?_
  constructor
  · rintro ⟨_, _, ⟨hnft, _, ⟨rfl, rfl⟩, rfl⟩, hk⟩
    exact ⟨hnft, hk⟩
  · rintro ⟨hnft, hk⟩
    exact ⟨_, w, ⟨hnft, _, ⟨rfl, rfl⟩, rfl⟩, hk⟩

/-- The amount converts: there is no oracle, or it quotes a price that is fresh. -/
def Converts (env : Env) (w : World) (amount : ℤ) (currency : Symbol) (r : ℤ) : Prop :=
  match w.pool.priceOracle with
  | none => r = amount
  | some oracle => oracle = env.net.priceOracle ∧
      PriceOracle.convert amount currency "USDC" (env.from env.net.financingPool) w.priceOracle =
        .ok r w.priceOracle

theorem convertIfNeeded_ok_iff {amount r : ℤ} {currency : Symbol} {token : Address} :
    convertIfNeeded amount currency token env w = .ok r w' ↔
      Converts env w amount currency r ∧ w = w' := by
  rw [convertIfNeeded, gets_run, Converts]
  cases w.pool.priceOracle with
  | none =>
    rw [pure_ok, eq_comm (a := r)]
  | some oracle =>
    simp only [net_run, callFrom_ok, onPriceOracle_ok, and_assoc]
    refine and_congr_right fun _ => ?_
    constructor
    · rintro ⟨S, hS, rfl⟩
      obtain rfl : S = w.priceOracle := (PriceOracle.convert_ok hS).2
      exact ⟨hS, rfl⟩
    · rintro ⟨hS, rfl⟩
      exact ⟨_, hS, rfl⟩

theorem traps_convertIfNeeded {amount : ℤ} {currency : Symbol} {token : Address} :
    Traps (convertIfNeeded amount currency token) := by
  intro env w e w' h
  rw [convertIfNeeded, gets_run] at h
  cases ho : w.pool.priceOracle with
  | none =>
    rw [ho] at h
    cases h
  | some oracle =>
    rw [ho] at h
    exact traps_callFrom _ _ _ _ h

end Helpers

/-! ## Distribution -/

/-- The payout of a position cannot be computed, or its yield cannot. -/
def NoPayout (total : ℤ) (decimals : ℕ) (p : Position) : Prop :=
  ∀ payout, bpsOfNormalized total p.shareBps decimals = .ok payout →
    checkedSub payout p.contributed = none

/-- Contract `self` pays the investors of the list in turn up to one without payout. -/
inductive Stops (token self : Address) (total : ℤ) (decimals : ℕ) :
    Tokens → List (Address × Position) → Prop
  | here {T : Tokens} {x : Address} {p : Position} {rest : List (Address × Position)} :
      NoPayout total decimals p → Stops token self total decimals T ((x, p) :: rest)
  | later {T : Tokens} {x : Address} {p : Position} {rest : List (Address × Position)}
      {payout gain : ℤ} : bpsOfNormalized total p.shareBps decimals = .ok payout →
      checkedSub payout p.contributed = some gain → payout ≤ T.balance token self →
      Stops token self total decimals (T.move token self x payout) rest →
      Stops token self total decimals T ((x, p) :: rest)

section Distribution

variable {token : Address} {total acc : ℤ} {decimals : ℕ} {positions : List (Address × Position)}

theorem payInvestors_cons_returns {x : Address} {p : Position} :
    payInvestors token total decimals ((x, p) :: positions) acc env w =
        .error (.contract e) w' ↔
      (bpsOfNormalized total p.shareBps decimals = .error e ∧ w = w') ∨
      ∃ payout, bpsOfNormalized total p.shareBps decimals = .ok payout ∧
        ((checkedSub payout p.contributed = none ∧ .arithmeticOverflow = e ∧ w = w') ∨
        ∃ gain, checkedSub payout p.contributed = some gain ∧
          (w.tokens.decimals token).isSome = true ∧
          payout ≤ w.tokens.balance token env.net.financingPool ∧
          payInvestors token total decimals positions (saturatingAdd acc p.contributed) env
            { w with tokens := w.tokens.move token env.net.financingPool x payout } =
              .error (.contract e) w') := by
  simp only [payInvestors, check_seq_returns, okOr_ok, okOr_error, net_run,
    traps_callToken.seq_returns, callToken_transfer_ok, and_assoc]
  refine or_congr_right (exists_congr fun payout => and_congr_right fun hpayout => ?_)
  refine or_congr_right (exists_congr fun gain => and_congr_right fun hgain => ?_)
  constructor
  · rintro ⟨_, _, -, hdecimals, -, hbalance, rfl, h⟩
    exact ⟨hdecimals, hbalance, h⟩
  · rintro ⟨hdecimals, hbalance, h⟩
    exact ⟨(), _, fun _ => env.authenticates_from _, hdecimals, bpsOfNormalized_nonneg hpayout,
      hbalance, rfl, h⟩

/-- **A distribution that returns an error stops at an investor**, with the storage of the pool as
it was. -/
theorem payInvestors_returns
    (h : payInvestors token total decimals positions acc env w = .error (.contract e) w') :
    Stops token env.net.financingPool total decimals w.tokens positions ∧ w'.pool = w.pool := by
  induction positions generalizing acc w with
  | nil => cases h
  | cons entry rest ih =>
    obtain ⟨x, p⟩ := entry
    rcases payInvestors_cons_returns.mp h with ⟨hnone, rfl⟩ |
      ⟨payout, hpayout, ⟨hnone, -, rfl⟩ | ⟨gain, hgain, -, hbalance, hrest⟩⟩
    · refine ⟨.here fun payout hpayout => ?_, rfl⟩
      rw [hnone] at hpayout
      cases hpayout
    · refine ⟨.here fun payout' hpayout' => ?_, rfl⟩
      rw [hpayout] at hpayout'
      cases hpayout'
      exact hnone
    · obtain ⟨hstops, hpool⟩ := ih hrest
      exact ⟨.later hpayout hgain hbalance hstops, hpool⟩

theorem Stops.returns (hd : (w.tokens.decimals token).isSome = true)
    (h : Stops token env.net.financingPool total decimals w.tokens positions) :
    ∃ e w', payInvestors token total decimals positions acc env w = .error (.contract e) w' := by
  induction positions generalizing acc w with
  | nil => cases h
  | cons entry rest ih =>
    obtain ⟨x, p⟩ := entry
    cases h with
    | here hnone =>
      cases hpayout : bpsOfNormalized total p.shareBps decimals with
      | error e => exact ⟨e, w, payInvestors_cons_returns.mpr (Or.inl ⟨hpayout, rfl⟩)⟩
      | ok payout =>
        exact ⟨_, w, payInvestors_cons_returns.mpr
          (Or.inr ⟨payout, hpayout, Or.inl ⟨hnone payout hpayout, rfl, rfl⟩⟩)⟩
    | @later _ _ _ _ payout gain hpayout hgain hbalance hstops =>
      obtain ⟨e, w', hrest⟩ := ih
        (w := { w with tokens := w.tokens.move token env.net.financingPool x payout }) hd hstops
      exact ⟨e, w', payInvestors_cons_returns.mpr
        (Or.inr ⟨_, hpayout, Or.inr ⟨_, hgain, hd, hbalance, hrest⟩⟩)⟩

/-- The distribution of `total` to the investors of an invoice stops at one of them. -/
def DistributionStops (env : Env) (T : Tokens) (positions : FinMap Address Position)
    (token : Address) (total : ℤ) : Prop :=
  ∃ decimals, T.decimals token = some decimals ∧
    Stops token env.net.financingPool total decimals T positions.toList

theorem distributeYield_returns {face : ℤ}
    (h : distributeYield i token total face env w = .error (.contract e) w') :
    DistributionStops env w.tokens (w.pool.positions i) token total ∧ w'.pool = w.pool := by
  simp only [distributeYield, gets_run, net_run, traps_callToken.seq_returns,
    callToken_decimals_ok] at h
  obtain ⟨decimals, _, ⟨hd, rfl⟩, h⟩ := h
  rcases bind_error.mp h with h | ⟨_, _, -, h⟩
  · obtain ⟨hstops, hpool⟩ := payInvestors_returns h
    exact ⟨⟨decimals, hd, hstops⟩, hpool⟩
  · cases h

theorem DistributionStops.returns {face : ℤ}
    (h : DistributionStops env w.tokens (w.pool.positions i) token total) :
    ∃ e w', distributeYield i token total face env w = .error (.contract e) w' := by
  obtain ⟨decimals, hd, hstops⟩ := h
  obtain ⟨e, w', hpay⟩ : ∃ e w', payInvestors token total decimals (w.pool.positions i).toList 0
      env w = .error (.contract e) w' := hstops.returns (by rw [hd]; rfl)
  refine ⟨e, w', ?_⟩
  simp only [distributeYield, gets_run, net_run, traps_callToken.seq_returns,
    callToken_decimals_ok]
  exact ⟨decimals, w, ⟨hd, rfl⟩, error_run hpay⟩

end Distribution

end Kora.FinancingPool
