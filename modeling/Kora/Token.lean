import Kora.Host

set_option autoImplicit false

/-!
# Tokens

Token contracts keep exact balances: `transfer` moves the whole amount or fails. Whether a token
asks for the authorisation of the payer, as the standard has it, is up to its own code. The
balances of all tokens are one ledger, which also records every transfer, oldest first.

* `move_balance`: the balances after a transfer;
* `Spares`: no authorised transfer takes anything out of an account;
* `transfer_ok`: when a transfer succeeds, and what it leaves.
-/

namespace Kora

/-- One transfer of a token. -/
structure Transfer where
  token : Address
  src : Address
  dst : Address
  amount : ℤ
  deriving DecidableEq, Repr

/-- The token contracts: `decimals` is set where there is one, and `asksAuth` where it wants the
payer's authorisation. -/
structure Tokens where
  decimals : Address → Option ℕ
  asksAuth : Address → Bool
  balance : Address → Address → ℤ
  transfers : List Transfer

namespace Tokens

/-- Move `amount` of `token` from `src` to `dst`. -/
def move (T : Tokens) (token src dst : Address) (amount : ℤ) : Tokens :=
  { T with
    balance := fun t a => T.balance t a - (if t = token ∧ a = src then amount else 0) +
      (if t = token ∧ a = dst then amount else 0)
    transfers := T.transfers ++ [⟨token, src, dst, amount⟩] }

@[simp] theorem move_decimals (T : Tokens) (token src dst : Address) (amount : ℤ) :
    (T.move token src dst amount).decimals = T.decimals := rfl

@[simp] theorem move_transfers (T : Tokens) (token src dst : Address) (amount : ℤ) :
    (T.move token src dst amount).transfers = T.transfers ++ [⟨token, src, dst, amount⟩] := rfl

theorem move_balance (T : Tokens) (token src dst : Address) (amount : ℤ) (t a : Address) :
    (T.move token src dst amount).balance t a = T.balance t a -
      (if t = token ∧ a = src then amount else 0) +
      (if t = token ∧ a = dst then amount else 0) := rfl

/-- Pay the amounts of the list out of `src`, in order. -/
def payAll (T : Tokens) (token src : Address) (payments : List (Address × ℤ)) : Tokens :=
  payments.foldl (fun T p => T.move token src p.1 p.2) T

@[simp] theorem payAll_nil (T : Tokens) (token src : Address) : T.payAll token src [] = T := rfl

@[simp] theorem payAll_cons (T : Tokens) (token src : Address) (p : Address × ℤ)
    (ps : List (Address × ℤ)) :
    T.payAll token src (p :: ps) = (T.move token src p.1 p.2).payAll token src ps := rfl

@[simp] theorem payAll_transfers (T : Tokens) (token src : Address) (ps : List (Address × ℤ)) :
    (T.payAll token src ps).transfers =
      T.transfers ++ ps.map fun p => ⟨token, src, p.1, p.2⟩ := by
  induction ps generalizing T with
  | nil => simp
  | cons p ps ih => simp [ih]

/-- From `T` to `T'` no token that asks for authorisation takes anything out of account `a`, and
the token contracts are the same. -/
structure Spares (a : Address) (T T' : Tokens) : Prop where
  decimals : T'.decimals = T.decimals
  asksAuth : T'.asksAuth = T.asksAuth
  balance : ∀ t, T.asksAuth t = true → T.balance t a ≤ T'.balance t a

section Spares

variable {a token src dst : Address} {amount : ℤ} {T T' T'' : Tokens}

theorem Spares.refl (a : Address) (T : Tokens) : Spares a T T := ⟨rfl, rfl, fun _ _ => le_rfl⟩

theorem Spares.trans (h : Spares a T T') (h' : Spares a T' T'') : Spares a T T'' where
  decimals := h'.decimals.trans h.decimals
  asksAuth := h'.asksAuth.trans h.asksAuth
  balance := fun t ht => (h.balance t ht).trans (h'.balance t (by rw [h.asksAuth, ht]))

theorem Spares.move (hsrc : T.asksAuth token = true → src ≠ a) (hamount : 0 ≤ amount) :
    Spares a T (T.move token src dst amount) := by
  refine ⟨rfl, rfl, fun t ht => ?_⟩
  have hout : (if t = token ∧ a = src then amount else 0) = 0 := by
    refine if_neg ?_
    rintro ⟨rfl, rfl⟩
    exact hsrc ht rfl
  have hin : 0 ≤ if t = token ∧ a = dst then amount else 0 := by
    split_ifs
    · exact hamount
    · exact le_rfl
  rw [move_balance, hout]
  omega

theorem Spares.payAll (hsrc : src ≠ a) {payments : List (Address × ℤ)}
    (h : ∀ p ∈ payments, 0 ≤ p.2) : Spares a T (T.payAll token src payments) := by
  induction payments generalizing T with
  | nil => exact .refl a T
  | cons p ps ih =>
    rw [List.forall_mem_cons] at h
    rw [payAll_cons]
    exact (Spares.move (fun _ => hsrc) h.1).trans (ih h.2)

end Spares

end Tokens

namespace Token

open Exec

/-- The authorisation of the payer, where the token asks for it. -/
def authorise (token src : Address) : Host Tokens Unit := do
  let asks ← gets fun T => T.asksAuth token
  if asks = true then requireAuth src else pure ()

/-- `token.transfer(src, dst, amount)`. -/
def transfer (token src dst : Address) (amount : ℤ) : Host Tokens Unit := do
  authorise token src
  let d ← gets fun T => T.decimals token
  require (d.isSome = true) .trap
  require (0 ≤ amount) .trap
  let b ← gets fun T => T.balance token src
  require (amount ≤ b) .trap
  modify fun T => T.move token src dst amount

/-- `token.decimals()`. -/
def decimals (token : Address) : Host Tokens ℕ := do
  let d ← gets fun T => T.decimals token
  ofOption d .trap

/-- `token.balance(addr)`. -/
def balance (token addr : Address) : Host Tokens ℤ := do
  let d ← gets fun T => T.decimals token
  require (d.isSome = true) .trap
  gets fun T => T.balance token addr

/-- Contract `self` calls a token contract. -/
def callFrom {σ α : Type} (get : σ → Tokens) (set : Tokens → σ → σ) (self : Address)
    (m : Host Tokens α) : Host σ α :=
  «local» (Env.from self) (fun _ => .trap) (zoom get set m)

theorem authorise_ok {env : Env} {token src : Address} {T T' : Tokens} {u : Unit} :
    authorise token src env T = .ok u T' ↔
      (T.asksAuth token = true → env.Authenticates src) ∧ T = T' := by
  rw [authorise, gets_run]
  split_ifs with hasks
  · simp [hasks]
  · simp [hasks]

theorem transfer_ok {env : Env} {token src dst : Address} {amount : ℤ} {T T' : Tokens}
    {u : Unit} : transfer token src dst amount env T = .ok u T' ↔
      (T.asksAuth token = true → env.Authenticates src) ∧ (T.decimals token).isSome = true ∧
        0 ≤ amount ∧ amount ≤ T.balance token src ∧ T' = T.move token src dst amount := by
  simp only [transfer, bind_ok, authorise_ok, gets_ok, require_ok, modify_ok]
  constructor
  · rintro ⟨_, _, ⟨h₁, rfl⟩, _, _, ⟨rfl, rfl⟩, _, _, ⟨h₂, rfl⟩, _, _, ⟨h₃, rfl⟩, _, _,
      ⟨rfl, rfl⟩, _, _, ⟨h₄, rfl⟩, rfl⟩
    exact ⟨h₁, h₂, h₃, h₄, rfl⟩
  · rintro ⟨h₁, h₂, h₃, h₄, rfl⟩
    exact ⟨(), T, ⟨h₁, rfl⟩, _, T, ⟨rfl, rfl⟩, (), T, ⟨h₂, rfl⟩, (), T, ⟨h₃, rfl⟩, _, T,
      ⟨rfl, rfl⟩, (), T, ⟨h₄, rfl⟩, rfl⟩

/-- A transfer spares every account that does not authorise it. -/
theorem spares_of_transfer {env : Env} {token src dst a : Address} {amount : ℤ} {T T' : Tokens}
    {u : Unit} (h : transfer token src dst amount env T = .ok u T') (ha : ¬ env.Authenticates a) :
    T.Spares a T' := by
  obtain ⟨hauth, -, hamount, -, rfl⟩ := transfer_ok.mp h
  refine Tokens.Spares.move (fun hasks hsrc => ?_) hamount
  subst hsrc
  exact ha (hauth hasks)

theorem callFrom_ok {σ α : Type} {get : σ → Tokens} {set : Tokens → σ → σ} {self : Address}
    {m : Host Tokens α} {env : Env} {s t : σ} {a : α} :
    callFrom get set self m env s = .ok a t ↔
      ∃ T, m (env.from self) (get s) = .ok a T ∧ set T s = t := by
  rw [callFrom, local_ok, zoom_ok]

@[simp] theorem decimals_ok {env : Env} {token : Address} {T T' : Tokens} {d : ℕ} :
    decimals token env T = .ok d T' ↔ T.decimals token = some d ∧ T = T' := by
  simp only [decimals, bind_ok, gets_ok, ofOption_ok]
  constructor
  · rintro ⟨_, _, ⟨rfl, rfl⟩, h, rfl⟩
    exact ⟨h, rfl⟩
  · rintro ⟨h, rfl⟩
    exact ⟨_, T, ⟨rfl, rfl⟩, h, rfl⟩

end Token

end Kora
