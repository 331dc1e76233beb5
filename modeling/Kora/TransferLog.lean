import Mathlib.Tactic.Abel
import Kora.World

set_option autoImplicit false

/-!
# The transfer log

The balances of the tokens are what the log of transfers makes of the initial ones.

* `Tokens.after`: the tokens after a list of transfers;
* **`balance_after`**: a balance is the old one with what was received and without what was sent;
* `Moves P`: the tokens moved by transfers that satisfy `P`;
* `Moves.reconciles`: the new transfers explain the new balances.
-/

namespace Kora

/-- What `account` receives of a token. -/
def received (token account : Address) (ts : List Transfer) : ℤ :=
  (ts.map fun t => if t.token = token ∧ t.dst = account then t.amount else 0).sum

/-- What `account` sends of a token. -/
def sent (token account : Address) (ts : List Transfer) : ℤ :=
  (ts.map fun t => if t.token = token ∧ t.src = account then t.amount else 0).sum

namespace Tokens

/-- The tokens after the transfers of the list. -/
def after (T : Tokens) (ts : List Transfer) : Tokens :=
  ts.foldl (fun T t => T.move t.token t.src t.dst t.amount) T

@[simp] theorem after_nil (T : Tokens) : T.after [] = T := rfl

@[simp] theorem after_cons (T : Tokens) (t : Transfer) (ts : List Transfer) :
    T.after (t :: ts) = (T.move t.token t.src t.dst t.amount).after ts := rfl

theorem after_append (T : Tokens) (ts us : List Transfer) :
    T.after (ts ++ us) = (T.after ts).after us := List.foldl_append

@[simp] theorem after_transfers (T : Tokens) (ts : List Transfer) :
    (T.after ts).transfers = T.transfers ++ ts := by
  induction ts generalizing T with
  | nil => simp
  | cons t ts ih => simp [ih]

@[simp] theorem after_asksAuth (T : Tokens) (ts : List Transfer) :
    (T.after ts).asksAuth = T.asksAuth := by
  induction ts generalizing T with
  | nil => rfl
  | cons t ts ih => rw [after_cons, ih]; rfl

@[simp] theorem after_decimals (T : Tokens) (ts : List Transfer) :
    (T.after ts).decimals = T.decimals := by
  induction ts generalizing T with
  | nil => rfl
  | cons t ts ih => rw [after_cons, ih, move_decimals]

/-- **A balance is the initial one, plus what was received, minus what was sent.** -/
theorem balance_after (T : Tokens) (ts : List Transfer) (token account : Address) :
    (T.after ts).balance token account =
      T.balance token account + received token account ts - sent token account ts := by
  induction ts generalizing T with
  | nil => simp [received, sent]
  | cons t ts ih =>
    rw [after_cons, ih, move_balance]
    simp only [received, sent, List.map_cons, List.sum_cons, eq_comm (a := token),
      eq_comm (a := account)]
    abel

theorem payAll_eq_after (T : Tokens) (token src : Address) (payments : List (Address × ℤ)) :
    T.payAll token src payments = T.after (payments.map fun p => ⟨token, src, p.1, p.2⟩) := by
  induction payments generalizing T with
  | nil => rfl
  | cons p ps ih => rw [payAll_cons, ih]; rfl

/-- `T'` is `T` after transfers that satisfy `P`. -/
def Moves (P : Transfer → Prop) (T T' : Tokens) : Prop := ∃ ts, T' = T.after ts ∧ ∀ t ∈ ts, P t

section Moves

variable {P Q : Transfer → Prop} {T T' T'' : Tokens}

theorem Moves.of_eq (h : T' = T) : Moves P T T' := ⟨[], h, nofun⟩

theorem Moves.trans (h : Moves P T T') (h' : Moves P T' T'') : Moves P T T'' := by
  obtain ⟨ts, rfl, hts⟩ := h
  obtain ⟨us, rfl, hus⟩ := h'
  refine ⟨ts ++ us, (after_append T ts us).symm, fun t ht => ?_⟩
  rcases List.mem_append.mp ht with ht | ht
  · exact hts t ht
  · exact hus t ht

theorem Moves.imp (hPQ : ∀ t, P t → Q t) (h : Moves P T T') : Moves Q T T' := by
  obtain ⟨ts, hT, hts⟩ := h
  exact ⟨ts, hT, fun t ht => hPQ t (hts t ht)⟩

theorem Moves.move {token src dst : Address} {amount : ℤ} (h : P ⟨token, src, dst, amount⟩) :
    Moves P T (T.move token src dst amount) := by
  refine ⟨[⟨token, src, dst, amount⟩], rfl, fun t ht => ?_⟩
  rw [List.mem_singleton.mp ht]
  exact h

theorem Moves.payAll {token src : Address} {payments : List (Address × ℤ)}
    (h : ∀ p ∈ payments, P ⟨token, src, p.1, p.2⟩) : Moves P T (T.payAll token src payments) := by
  refine ⟨_, payAll_eq_after T token src payments, fun t ht => ?_⟩
  obtain ⟨p, hp, rfl⟩ := List.mem_map.mp ht
  exact h p hp

theorem Moves.asksAuth (h : Moves P T T') : T'.asksAuth = T.asksAuth := by
  obtain ⟨ts, rfl, -⟩ := h
  exact after_asksAuth T ts

/-- **An account that sends nothing loses nothing.** -/
theorem Moves.balance_le {token account : Address} (h : Moves P T T')
    (hP : ∀ t, P t → 0 ≤ t.amount ∧ (t.token = token → t.src ≠ account)) :
    T.balance token account ≤ T'.balance token account := by
  obtain ⟨ts, rfl, hts⟩ := h
  have hsent : sent token account ts = 0 := by
    refine List.sum_eq_zero fun x hx => ?_
    obtain ⟨t, ht, rfl⟩ := List.mem_map.mp hx
    refine if_neg ?_
    rintro ⟨htoken, hsrc⟩
    exact (hP t (hts t ht)).2 htoken hsrc
  have hreceived : 0 ≤ received token account ts := by
    refine List.sum_nonneg fun x hx => ?_
    obtain ⟨t, ht, rfl⟩ := List.mem_map.mp hx
    split_ifs
    · exact (hP t (hts t ht)).1
    · exact le_rfl
  rw [balance_after, hsent]
  omega

end Moves

end Tokens

section NewTransfers

variable {P : Transfer → Prop} {w w' : World}

theorem Tokens.Moves.forall_new (h : Tokens.Moves P w.tokens w'.tokens) :
    ∀ t ∈ newTransfers w w', P t := by
  obtain ⟨ts, hT, hts⟩ := h
  rwa [newTransfers_of_append (by rw [hT, Tokens.after_transfers])]

/-- **The new transfers explain the new balances.** -/
theorem Tokens.Moves.reconciles (h : Tokens.Moves P w.tokens w'.tokens) (token account : Address) :
    w'.tokens.balance token account = w.tokens.balance token account +
      received token account (newTransfers w w') - sent token account (newTransfers w w') := by
  obtain ⟨ts, hT, -⟩ := h
  rw [newTransfers_of_append (by rw [hT, Tokens.after_transfers]), hT, Tokens.balance_after]

end NewTransfers

end Kora
