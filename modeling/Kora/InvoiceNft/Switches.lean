import Kora.System.Status

set_option autoImplicit false

/-!
# The switches of the admin

The admin freezes invoices and allows currencies. Listing, funding, repaying and defaulting an
invoice leave these switches alone.

* `Op.allows`, `Op.freezes`: what an entry point sets;
* `Op.exec_switches`, `Entry.exec_switches`: one transaction;
* **`allowed_step`**, **`frozen_step`**: one step of the system.
-/

namespace Kora.InvoiceNft

open Exec

/-- Whether a currency is allowed, as an entry point sets it. -/
def Op.allows (currency : Symbol) : Op → Option Bool
  | .addAllowedCurrency _ c => if c = currency then some true else none
  | .removeAllowedCurrency _ c => if c = currency then some false else none
  | _ => none

/-- Whether an invoice is frozen, as an entry point sets it. -/
def Op.freezes (id : ℕ) : Op → Option Bool
  | .freezeInvoice _ i => if i = id then some true else none
  | .unfreezeInvoice _ i => if i = id then some false else none
  | _ => none

/-- The switches: the allowed currencies and the frozen invoices. -/
def Storage.switches (S : Storage) : (Symbol → Bool) × (ℕ → Bool) :=
  (S.currencyAllowlist, S.invoiceFrozen)

/-- The switches after an entry point. -/
def Op.switched (op : Op) (S : Storage) : (Symbol → Bool) × (ℕ → Bool) :=
  (fun c => (op.allows c).getD (S.currencyAllowlist c),
    fun i => (op.freezes i).getD (S.invoiceFrozen i))

section Own

variable {env : Env} {s t : State} {u : Unit} {op : Op}

theorem switches_migrateRecords (ids : List ℕ) :
    Frames (fun s : State => s.own.switches) (migrateRecords ids) := by
  induction ids with
  | nil => exact .pure ()
  | cons id ids ih =>
    refine .bind (.bind (.gets _) fun record => ?_) fun _ => ih
    cases record with
    | none => exact .pure ()
    | some record =>
      cases record with
      | v1 old => exact .modify fun _ => rfl
      | current inv => exact .throw _

theorem update_getD {κ : Type} [DecidableEq κ] (f : κ → Bool) (k : κ) (b : Bool) :
    Function.update f k b = fun i => (if k = i then some b else none).getD (f i) := by
  funext i
  by_cases hi : k = i
  · subst hi
    simp
  · simp [hi, Ne.symm hi]

theorem Op.exec_switches (h : op.exec env s = .ok u t) : t.own.switches = op.switched s.own := by
  cases op with
  | initializeContract admin ac =>
    simp only [exec, InvoiceNft.initializeContract, gets_run, ensure_seq_ok, net_run, check_seq_ok,
      modifyOwn, modify_ok] at h
    obtain ⟨-, _, -, _, -, _, -, rfl⟩ := h
    rfl
  | setRiskRegistry admin rr =>
    simp only [exec, InvoiceNft.setRiskRegistry, requireAuth_seq_ok, requireAdmin_seq_ok, net_run,
      check_seq_ok, modifyOwn, modify_ok] at h
    obtain ⟨-, -, _, -, rfl⟩ := h
    rfl
  | migrate admin =>
    have hloop : ∀ {ids : List ℕ} {s : State}, (migrateRecords ids >>= fun _ =>
        modify fun s : State => { s with own := { s.own with migrationVersion := some 2 } })
          env s = .ok u t → t.own.switches = s.own.switches := by
      intro ids s h
      refine Frames.bind (switches_migrateRecords _) (fun _ => ?_) env s u t h
      exact .modify fun _ => rfl
    simp only [exec, InvoiceNft.migrate, requireAuth_seq_ok, requireAdmin_seq_ok, gets_run, ite_run,
      modifyOwn, modify_run] at h
    obtain ⟨-, -, h⟩ := h
    split_ifs at h with h₁ h₂
    · exact (hloop h).trans rfl
    · obtain ⟨-, rfl⟩ := pure_ok.mp h
      rfl
    · exact (hloop h).trans rfl
    · obtain ⟨-, rfl⟩ := pure_ok.mp h
      rfl
  | setAuthorizedCallers admin mp fp =>
    simp only [exec, InvoiceNft.setAuthorizedCallers, requireAuth_seq_ok, requireAdmin_seq_ok,
      modifyOwn, modify_ok] at h
    obtain ⟨-, -, rfl⟩ := h
    rfl
  | mintInvoice sme hash amount currency due cid score notes =>
    simp only [exec, bind_ok, pure_ok] at h
    obtain ⟨id, _, hm, -, rfl⟩ := h
    obtain ⟨-, -, -, -, -, rfl⟩ := mintInvoice_ok hm
    rfl
  | amendInvoice sme id hash amount due cid score =>
    obtain ⟨-, -, -, inv, -, -, -, rfl⟩ := amendInvoice_ok h
    rfl
  | withdrawInvoice sme id =>
    obtain ⟨-, inv, -, -, -, rfl⟩ := withdrawInvoice_ok h
    rfl
  | commitMetadataHash sme id hash =>
    obtain ⟨-, inv, -, -, -, -, rfl⟩ := commitMetadataHash_ok h
    rfl
  | setListed caller id =>
    obtain ⟨-, -, inv, -, -, rfl⟩ := setListed_ok h
    rfl
  | setFunded caller id =>
    obtain ⟨-, -, inv, -, -, rfl⟩ := setFunded_ok h
    rfl
  | setRepaid caller id =>
    obtain ⟨-, -, inv, -, -, rfl⟩ := setRepaid_ok h
    rfl
  | setDefaulted caller id =>
    obtain ⟨-, -, inv, -, -, -, rfl⟩ := setDefaulted_ok h
    rfl
  | freezeInvoice admin id | unfreezeInvoice admin id =>
    simp only [exec, InvoiceNft.freezeInvoice, InvoiceNft.unfreezeInvoice, requireAuth_seq_ok,
      requireAdmin_seq_ok, loadInvoice_seq_ok, modifyOwn, modify_ok] at h
    obtain ⟨-, -, _, -, rfl⟩ := h
    exact Prod.ext rfl (update_getD _ _ _)
  | addAllowedCurrency admin c | removeAllowedCurrency admin c =>
    simp only [exec, InvoiceNft.addAllowedCurrency, InvoiceNft.removeAllowedCurrency,
      requireAuth_seq_ok, requireAdmin_seq_ok, modifyOwn, modify_ok] at h
    obtain ⟨-, -, rfl⟩ := h
    exact Prod.ext (update_getD _ _ _) rfl

end Own

section Others

variable {env : Env} {w w' : World} {e : Entry}

theorem Entry.exec_switches (he : ∀ op, e ≠ .invoiceNft op) (h : e.exec env w = .ok () w') :
    w'.invoiceNft.switches = w.invoiceNft.switches := by
  cases Entry.exec_effect h with
  | peripheral _ _ _ _ hnft => rw [hnft]
  | invoiceNft op => exact absurd rfl (he op)
  | pool op hop =>
    cases (FinancingPool.Op.exec_outside hop).notice with
    | silent _ hnft => rw [hnft]
    | funded _ _ _ _ _ _ _ _ hnft | repaid _ _ _ _ _ _ hnft | defaulted _ _ _ _ _ _ _ hnft =>
      rw [hnft]
      rfl
  | listing _ _ _ _ _ _ _ _ _ _ _ _ _ _ _ _ _ hw =>
    rw [hw]
    rfl
  | funding investor i amount listing config inv fee hF =>
    rcases lt_or_ge (listing.fundedAmount + amount) listing.askingPrice with hlt | hge
    · rw [(hF.unreleased hlt).2]
    · obtain ⟨-, -, -, -, -, bps, -, hnft⟩ := hF.released hge
      rw [hnft]
      rfl
  | market _ _ _ _ hnft => rw [hnft]

end Others

/-- What a step sets through an entry point of the contract. -/
def switchedBy (d : Deployment) (f : Op → Option Bool) (w : World) (a : Action) : Option Bool :=
  match performed d w a with
  | some (_, .invoiceNft op) => f op
  | _ => none

section Steps

variable {d : Deployment} {w : World} {a : Action} {f : Op → Option Bool}

theorem switchedBy_eq_none (h : ∀ env op, performed d w a ≠ some (env, .invoiceNft op)) :
    switchedBy d f w a = none := by
  unfold switchedBy
  split
  · rename_i env op heq
    exact absurd heq (h env op)
  · rfl

theorem switches_step (d : Deployment) (w : World) (a : Action) :
    (∃ op, (∀ f, switchedBy d f w a = f op) ∧
      (step d w a).invoiceNft.switches = op.switched w.invoiceNft) ∨
    (∀ f, switchedBy d f w a = none) ∧
      (step d w a).invoiceNft.switches = w.invoiceNft.switches := by
  rcases step_performed d w a with ⟨env, e, hp, -, h⟩ | ⟨hp, n, h⟩
  · by_cases he : ∃ op, e = .invoiceNft op
    · obtain ⟨op, rfl⟩ := he
      obtain ⟨s, hs, hw⟩ := onInvoiceNft_ok.mp h
      refine Or.inl ⟨op, fun f => by rw [switchedBy, hp], ?_⟩
      rw [← hw]
      exact Op.exec_switches hs
    · rw [not_exists] at he
      refine Or.inr ⟨fun f => switchedBy_eq_none ?_, Entry.exec_switches he h⟩
      rintro env' op hop
      rw [hp] at hop
      cases hop
      exact he op rfl
  · refine Or.inr ⟨fun f => switchedBy_eq_none ?_, by rw [h]⟩
    rw [hp]
    nofun

theorem allowed_step (d : Deployment) (w : World) (a : Action) (currency : Symbol) :
    (step d w a).invoiceNft.currencyAllowlist currency =
      (switchedBy d (Op.allows currency) w a).getD (w.invoiceNft.currencyAllowlist currency) := by
  rcases switches_step d w a with ⟨op, hset, h⟩ | ⟨hset, h⟩
  · rw [hset]
    exact congrFun (congrArg Prod.fst h) currency
  · rw [hset]
    exact congrFun (congrArg Prod.fst h) currency

theorem frozen_step (d : Deployment) (w : World) (a : Action) (id : ℕ) :
    (step d w a).invoiceNft.invoiceFrozen id =
      (switchedBy d (Op.freezes id) w a).getD (w.invoiceNft.invoiceFrozen id) := by
  rcases switches_step d w a with ⟨op, hset, h⟩ | ⟨hset, h⟩
  · rw [hset]
    exact congrFun (congrArg Prod.snd h) id
  · rw [hset]
    exact congrFun (congrArg Prod.snd h) id

end Steps

end Kora.InvoiceNft
