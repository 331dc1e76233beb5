import Kora.FinancingPool.Change

set_option autoImplicit false

/-!
# Money flows of the pool

The part of the transfers of a transaction that a class of entry points moves on behalf of one
invoice.

* `inflow`, `outflow`: what a list of transfers brings into an account, and takes out of it;
* `flowOf`: the flow of the entry points of one invoice, for the running totals over a run.
-/

namespace Kora.FinancingPool

open Exec Run

/-- What the transfers bring into an account from others, in each token. -/
def inflow (account : Address) (ts : List Transfer) (token : Address) : ℤ :=
  (ts.map fun x => if x.token = token ∧ x.dst = account ∧ x.src ≠ account then x.amount else 0).sum

/-- What the transfers take out of an account, in each token. -/
def outflow (account : Address) (ts : List Transfer) (token : Address) : ℤ :=
  (ts.map fun x => if x.token = token ∧ x.src = account then x.amount else 0).sum

/-- The flow of a transaction whose entry point `kind` maps to invoice `i`; none for the others. -/
def flowOf (kind : Entry → Option ℕ) (flow : Address → List Transfer → Address → ℤ)
    (d : Deployment) (i : ℕ) (w : World) : Action → Address → ℤ
  | .call c, token => if kind c.entry = some i then
      flow d.financingPool (newTransfers w (step d w (.call c))) token else 0
  | .tick _, _ => 0

section Flows

variable {account token src dst t : Address} {amount : ℤ} {ts : List Transfer}
  {payments : List (Address × ℤ)}

@[simp] theorem inflow_nil : inflow account [] t = 0 := rfl

@[simp] theorem outflow_nil : outflow account [] t = 0 := rfl

@[simp] theorem inflow_cons (x : Transfer) : inflow account (x :: ts) t =
    (if x.token = t ∧ x.dst = account ∧ x.src ≠ account then x.amount else 0) +
      inflow account ts t := rfl

@[simp] theorem outflow_cons (x : Transfer) : outflow account (x :: ts) t =
    (if x.token = t ∧ x.src = account then x.amount else 0) + outflow account ts t := rfl

/-- An account receives nothing from its own payments. -/
@[simp] theorem inflow_payments :
    inflow account (payments.map fun p => ⟨token, account, p.1, p.2⟩) t = 0 := by
  induction payments with
  | nil => rfl
  | cons p ps ih => simp [ih]

@[simp] theorem outflow_payments :
    outflow account (payments.map fun p => ⟨token, account, p.1, p.2⟩) t =
      if token = t then (payments.map Prod.snd).sum else 0 := by
  induction payments with
  | nil => simp
  | cons p ps ih =>
    simp only [List.map_cons, outflow_cons, ih, List.sum_cons, and_true]
    split_ifs <;> ring

end Flows

section FlowOf

variable {kind : Entry → Option ℕ} {flow : Address → List Transfer → Address → ℤ}
  {d : Deployment} {i : ℕ} {w : World} {c : Call}

theorem flowOf_of_ne (h : kind c.entry ≠ some i) : flowOf kind flow d i w (.call c) = 0 := by
  funext t
  exact if_neg h

theorem flowOf_of_eq (h : kind c.entry = some i) : flowOf kind flow d i w (.call c) =
    flow d.financingPool (newTransfers w (step d w (.call c))) := by
  funext t
  exact if_pos h

theorem flowOf_tick (n : ℕ) : flowOf kind flow d i w (.tick n) = 0 := rfl

theorem flowOf_of_not_succeeds (hflow : ∀ account, flow account [] = 0) {a : Action}
    (h : ∀ c, a = .call c → ¬ c.Succeeds d w) : flowOf kind flow d i w a = 0 := by
  cases a with
  | tick n => rfl
  | call c =>
    have hnone : flow d.financingPool (newTransfers w (step d w (.call c))) = 0 := by
      rw [newTransfers_of_same (by rw [step_call_of_not_ok (h c rfl)]), hflow]
    funext t
    simp only [flowOf, hnone]
    exact ite_self _

end FlowOf

end Kora.FinancingPool
