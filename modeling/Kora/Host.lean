import Mathlib.Data.List.Nodup
import Kora.Lib.Exec
import Kora.Shared.Validation

set_option autoImplicit false

/-!
# The contract host

What a contract body can use of its host: the addresses of the deployed contracts, the ledger
clock, and authorisation. An address is authenticated when it signed the transaction or is the
contract that made the current call; a callee's failure is a trap for its caller.

* `Env`, `Failure`, `Host`: environment, failures and computations;
* `requireAuth`, `check`, `ensure`, `guarded`, `callFrom`, `tryCallFrom`: authorisation, guards,
  the reentrancy guard and cross-contract calls, each with its inversion lemma;
* `Traps`: the computations that return no error.
-/

namespace Kora

/-- The addresses of the deployed contracts, all different. -/
structure Deployment where
  accessControl : Address
  invoiceNft : Address
  marketplace : Address
  financingPool : Address
  treasury : Address
  riskRegistry : Address
  priceOracle : Address
  distinct : [accessControl, invoiceNft, marketplace, financingPool, treasury, riskRegistry,
    priceOracle].Nodup

/-- The deployed contracts. -/
def Deployment.contracts (d : Deployment) : List Address :=
  [d.accessControl, d.invoiceNft, d.marketplace, d.financingPool, d.treasury, d.riskRegistry,
    d.priceOracle]

/-- The environment of a contract call: the deployment, the ledger timestamp, the contract that
made the call (none for a transaction) and the addresses that signed the transaction. -/
structure Env where
  net : Deployment
  timestamp : ℕ
  invoker : Option Address
  signers : List Address

/-- Address `a` is authenticated in `env`. -/
def Env.Authenticates (env : Env) (a : Address) : Prop := env.invoker = some a ∨ a ∈ env.signers

instance (env : Env) (a : Address) : Decidable (env.Authenticates a) := by
  unfold Env.Authenticates; infer_instance

/-- The environment of a call made by contract `self`. -/
def Env.from (self : Address) (env : Env) : Env := { env with invoker := some self }

@[simp] theorem Env.from_net (self : Address) (env : Env) : (env.from self).net = env.net := rfl

@[simp] theorem Env.from_timestamp (self : Address) (env : Env) :
    (env.from self).timestamp = env.timestamp := rfl

@[simp] theorem Env.from_signers (self : Address) (env : Env) :
    (env.from self).signers = env.signers := rfl

@[simp] theorem Env.authenticates_from (self : Address) (env : Env) :
    (env.from self).Authenticates self := Or.inl rfl

/-- A contract error, or a trap that aborts the transaction. -/
inductive Failure : Type
  | contract (e : KoraError)
  | trap
  deriving DecidableEq, Repr

/-- A contract body over storage `σ`. -/
abbrev Host (σ α : Type) : Type := Exec Env Failure σ α

section Primitives

open Exec

variable {σ α : Type}

/-- `address.require_auth()`. -/
def requireAuth (a : Address) : Host σ Unit := do
  let ok ← asks fun env => decide (env.Authenticates a)
  require (ok = true) .trap

/-- The ledger timestamp. -/
def timestamp : Host σ ℕ := asks Env.timestamp

/-- The addresses of the deployed contracts. -/
def net : Host σ Deployment := asks Env.net

/-- Return the error of a failed check. -/
def check (x : Except KoraError α) : Host σ α := ofExcept .contract x

/-- Return `e` unless `c`. -/
def ensure (c : Prop) [Decidable c] (e : KoraError) : Host σ Unit := require c (.contract e)

/-- A stored value, or the error `e` when there is none. -/
def fetch (o : σ → Option α) (e : KoraError) : Host σ α := do
  let v ← gets o
  ofOption v (.contract e)

/-- `ReentrancyGuard`: fail when the lock is held, else hold it while `m` runs. -/
def guarded (isLocked : σ → Bool) (setLock : Bool → σ → σ) (m : Host σ α) : Host σ α := do
  let held ← gets isLocked
  ensure (held = false) .reentrancy
  bracket (setLock true) (setLock false) m

/-- Contract `self` calls `m` on the contract at `target`, which must be the one at `expected`. -/
def callFrom (self target expected : Address) (m : Host σ α) : Host σ α := do
  require (target = expected) .trap
  «local» (Env.from self) (fun _ => .trap) m

/-- As `callFrom`, but a failing callee is rolled back and reported. -/
def tryCallFrom (self target expected : Address) (m : Host σ α) : Host σ (Option α) :=
  attempt (callFrom self target expected m)

variable {env : Env} {s t : σ} {a : α} {u : Unit}

@[simp] theorem requireAuth_ok {b : Address} :
    (requireAuth b : Host σ Unit) env s = .ok u t ↔ env.Authenticates b ∧ s = t := by
  simp only [requireAuth, bind_ok, asks_ok, require_ok]
  constructor
  · rintro ⟨_, _, ⟨rfl, rfl⟩, h, rfl⟩
    exact ⟨of_decide_eq_true h, rfl⟩
  · rintro ⟨h, rfl⟩
    exact ⟨_, _, ⟨rfl, rfl⟩, decide_eq_true h, rfl⟩

@[simp] theorem timestamp_ok {n : ℕ} :
    (timestamp : Host σ ℕ) env s = .ok n t ↔ env.timestamp = n ∧ s = t := asks_ok

@[simp] theorem net_ok {d : Deployment} :
    (net : Host σ Deployment) env s = .ok d t ↔ env.net = d ∧ s = t := asks_ok

@[simp] theorem check_ok {x : Except KoraError α} :
    (check x : Host σ α) env s = .ok a t ↔ x = .ok a ∧ s = t := ofExcept_ok

@[simp] theorem ensure_ok {c : Prop} [Decidable c] {e : KoraError} :
    (ensure c e : Host σ Unit) env s = .ok u t ↔ c ∧ s = t := require_ok

theorem ensure_error {c : Prop} [Decidable c] {e : KoraError} (h : ¬ c) :
    (ensure c e : Host σ Unit) env s = .error (.contract e) s := by
  rw [ensure, require, if_neg h]
  rfl

theorem requireAuth_error {b : Address} (h : ¬ env.Authenticates b) :
    (requireAuth b : Host σ Unit) env s = .error .trap s := by
  rw [requireAuth, asks_run, require, if_neg (by rwa [decide_eq_true_iff])]
  rfl

theorem fetch_error {o : σ → Option α} {e : KoraError} (h : o s = none) :
    (fetch o e : Host σ α) env s = .error (.contract e) s := by
  rw [fetch, gets_run, h]
  rfl

theorem callFrom_error {self target expected : Address} {m : Host σ α} (h : target ≠ expected) :
    callFrom self target expected m env s = .error .trap s := by
  rw [callFrom, require, if_neg h]
  rfl

@[simp] theorem fetch_ok {o : σ → Option α} {e : KoraError} :
    (fetch o e : Host σ α) env s = .ok a t ↔ o s = some a ∧ s = t := by
  simp only [fetch, bind_ok, gets_ok, ofOption_ok]
  constructor
  · rintro ⟨_, _, ⟨rfl, rfl⟩, h, rfl⟩
    exact ⟨h, rfl⟩
  · rintro ⟨h, rfl⟩
    exact ⟨_, _, ⟨rfl, rfl⟩, h, rfl⟩

@[simp] theorem guarded_ok {isLocked : σ → Bool} {setLock : Bool → σ → σ} {m : Host σ α} :
    guarded isLocked setLock m env s = .ok a t ↔
      isLocked s = false ∧ ∃ v, m env (setLock true s) = .ok a v ∧ setLock false v = t := by
  simp only [guarded, bind_ok, gets_ok, ensure_ok, bracket_ok]
  constructor
  · rintro ⟨_, _, ⟨rfl, rfl⟩, _, _, ⟨h, rfl⟩, hm⟩
    exact ⟨h, hm⟩
  · rintro ⟨h, hm⟩
    exact ⟨_, s, ⟨rfl, rfl⟩, (), s, ⟨h, rfl⟩, hm⟩

@[simp] theorem callFrom_ok {self target expected : Address} {m : Host σ α} :
    callFrom self target expected m env s = .ok a t ↔
      target = expected ∧ m (env.from self) s = .ok a t := by
  simp only [callFrom, bind_ok, require_ok, local_ok]
  constructor
  · rintro ⟨_, _, ⟨h, rfl⟩, hm⟩
    exact ⟨h, hm⟩
  · rintro ⟨h, hm⟩
    exact ⟨(), s, ⟨h, rfl⟩, hm⟩

/-! ## Inversion of a sequence -/

variable {β : Type} {b : β} {k : α → Host σ β} {l : Unit → Host σ β}

theorem requireAuth_seq_ok {x : Address} :
    (requireAuth x >>= l) env s = .ok b t ↔ env.Authenticates x ∧ l () env s = .ok b t := by
  rw [requireAuth, assoc_run, asks_run, require_seq_ok, decide_eq_true_iff]

theorem timestamp_run {k : ℕ → Host σ β} : (timestamp >>= k) env s = k env.timestamp env s := rfl

theorem requireAuth_run {x : Address} (hx : env.Authenticates x) :
    (requireAuth x >>= l) env s = l () env s := ok_run (requireAuth_ok.mpr ⟨hx, rfl⟩)

theorem ensure_run {c : Prop} [Decidable c] {e : KoraError} (hc : c) :
    (ensure c e >>= l) env s = l () env s := ok_run (ensure_ok.mpr ⟨hc, rfl⟩)

theorem check_run {x : Except KoraError α} (hx : x = .ok a) :
    (check x >>= k) env s = k a env s := ok_run (check_ok.mpr ⟨hx, rfl⟩)

theorem fetch_run {o : σ → Option α} {e : KoraError} (ho : o s = some a) :
    (fetch o e >>= k) env s = k a env s := ok_run (fetch_ok.mpr ⟨ho, rfl⟩)

theorem net_run {k : Deployment → Host σ β} : (net >>= k) env s = k env.net env s := rfl

theorem check_seq_ok {x : Except KoraError α} :
    (check x >>= k) env s = .ok b t ↔ ∃ a, x = .ok a ∧ k a env s = .ok b t := ofExcept_seq_ok

theorem ensure_seq_ok {c : Prop} [Decidable c] {e : KoraError} :
    (ensure c e >>= l) env s = .ok b t ↔ c ∧ l () env s = .ok b t := require_seq_ok

theorem fetch_seq_ok {o : σ → Option α} {e : KoraError} :
    (fetch o e >>= k) env s = .ok b t ↔ ∃ a, o s = some a ∧ k a env s = .ok b t := by
  rw [fetch, assoc_run, gets_run, ofOption_seq_ok]

theorem requireAuth_seq_error {x : Address} {e : Failure} :
    (requireAuth x >>= l) env s = .error e t ↔
      (¬ env.Authenticates x ∧ .trap = e ∧ s = t) ∨
        env.Authenticates x ∧ l () env s = .error e t := by
  rw [requireAuth, assoc_run, asks_run, require_seq_error, decide_eq_true_iff]

theorem ensure_seq_error {c : Prop} [Decidable c] {e : KoraError} {e' : Failure} :
    (ensure c e >>= l) env s = .error e' t ↔
      (¬ c ∧ .contract e = e' ∧ s = t) ∨ c ∧ l () env s = .error e' t := require_seq_error

theorem fetch_seq_error {o : σ → Option α} {e : KoraError} {e' : Failure} :
    (fetch o e >>= k) env s = .error e' t ↔
      (o s = none ∧ .contract e = e' ∧ s = t) ∨ ∃ a, o s = some a ∧ k a env s = .error e' t := by
  rw [fetch, assoc_run, gets_run, ofOption_seq_error]

theorem check_seq_error {x : Except KoraError α} {e' : Failure} :
    (check x >>= k) env s = .error e' t ↔
      (∃ e, x = .error e ∧ .contract e = e' ∧ s = t) ∨ ∃ a, x = .ok a ∧ k a env s = .error e' t :=
  ofExcept_seq_error

/-- The failure of a callee is a trap. -/
theorem local_error {f : Env → Env} {m : Host σ α} {e : Failure}
    (h : «local» f (fun _ => .trap) m env s = .error e t) : e = .trap := by
  unfold «local» at h
  split at h
  · cases h
  · cases h
    rfl

theorem callFrom_seq_ok {self target expected : Address} {m : Host σ α} :
    (callFrom self target expected m >>= k) env s = .ok b t ↔ target = expected ∧
      ∃ a u, m (env.from self) s = .ok a u ∧ k a env u = .ok b t := by
  simp only [bind_ok, callFrom_ok, and_assoc, exists_and_left]

/-! ## Returned errors

A trap returns to nobody; what a body returns is an error of its own. -/

/-- Where the computation fails, it traps. -/
def Traps (m : Host σ α) : Prop := ∀ env s e t, m env s ≠ .error (.contract e) t

theorem Traps.seq_returns {m : Host σ α} (hm : Traps m) {e : KoraError} :
    (m >>= k) env s = .error (.contract e) t ↔
      ∃ a u, m env s = .ok a u ∧ k a env u = .error (.contract e) t := by
  rw [bind_error]
  exact or_iff_right (hm env s e t)

theorem requireAuth_seq_returns {x : Address} {e : KoraError} :
    (requireAuth x >>= l) env s = .error (.contract e) t ↔
      env.Authenticates x ∧ l () env s = .error (.contract e) t := by
  rw [requireAuth_seq_error]
  simp only [reduceCtorEq, false_and, and_false, false_or]

theorem check_seq_returns {x : Except KoraError α} {e : KoraError} :
    (check x >>= k) env s = .error (.contract e) t ↔
      (x = .error e ∧ s = t) ∨ ∃ a, x = .ok a ∧ k a env s = .error (.contract e) t := by
  rw [check_seq_error]
  simp only [Failure.contract.injEq]
  refine or_congr_left ?_
  constructor
  · rintro ⟨_, hx, rfl, hs⟩
    exact ⟨hx, hs⟩
  · rintro ⟨hx, hs⟩
    exact ⟨e, hx, rfl, hs⟩

theorem traps_local {f : Env → Env} {m : Host σ α} :
    Traps («local» f (fun _ => .trap) m) := by
  intro env s e t h
  cases local_error h

theorem traps_callFrom {self target expected : Address} {m : Host σ α} :
    Traps (callFrom self target expected m) := by
  intro env s e t h
  rw [callFrom, require_seq_error] at h
  rcases h with ⟨-, he, -⟩ | ⟨-, h⟩
  · cases he
  · exact traps_local env s e t h

end Primitives

end Kora
