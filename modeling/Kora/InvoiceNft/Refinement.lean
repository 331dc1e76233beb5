import Kora.InvoiceNft.Spec

set_option autoImplicit false

/-!
# The invoice contract keeps its books

* `Storage.books`: the books that a storage holds;
* `Op.event`: what an entry point does to them;
* **`Op.exec_books`**: every entry point is a transition of the books.
-/

namespace Kora.InvoiceNft

open Exec

/-- The books that the storage holds. -/
def Storage.books (S : Storage) : Books where
  invoice := S.current
  next := S.nextId.getD 1
  exposure sme := (S.outstandingExposure sme).getD 0

/-- What a successful entry point does to the books. -/
def Op.event : Op → Event
  | .mintInvoice sme hash amount currency due cid score notes =>
    .mint ⟨sme, hash, amount, currency, due, cid, score, [], notes⟩
  | .amendInvoice _ id hash amount due cid score => .amend id ⟨hash, amount, due, cid, score⟩
  | .withdrawInvoice _ id => .withdraw id
  | .commitMetadataHash _ id hash => .commit id hash
  | .setListed _ id => .list id
  | .setFunded _ id => .fund id
  | .setRepaid _ id => .repay id
  | .setDefaulted _ id => .default id
  | _ => .keep

/-- Numbers are only given out by an initialised contract. -/
def Storage.Unnumbered (S : Storage) : Prop := S.admin = none → S.nextId = none

section Books

variable {S : Storage} {id now : ℕ} {inv : Invoice}

theorem Storage.current_update (id : ℕ) (r : Option Invoice) (f : ℕ → Option InvoiceRecord) :
    ({ S with invoice := Function.update f id (r.map .current) } : Storage).current =
      Function.update ({ S with invoice := f } : Storage).current id r := by
  funext i
  simp only [current, Function.update_apply]
  split_ifs
  · cases r with
    | none | some => rfl
  · rfl

theorem Storage.books_put : (S.put id inv).books = S.books.put id (some inv) := by
  have h := S.current_update id (some inv) S.invoice
  exact congrArg (fun f : ℕ → Option Invoice => (⟨f, _, _⟩ : Books)) h

theorem Storage.books_release : (S.release inv).books = S.books.release inv := by
  have h : (fun sme => ((S.release inv).outstandingExposure sme).getD 0) =
      (S.books.release inv).exposure := by
    funext sme
    simp only [release, books, Books.release, Function.update_apply]
    split_ifs <;> rfl
  exact congrArg (fun f : Address → ℤ => (⟨_, _, f⟩ : Books)) h

@[simp] theorem Storage.books_asListed :
    (S.asListed id inv).books = S.books.put id (some { inv with status := .listed }) := books_put

@[simp] theorem Storage.books_asFunded : (S.asFunded id inv now).books =
    S.books.put id (some { inv with status := .funded, fundedAt := some now }) := books_put

@[simp] theorem Storage.books_asRepaid : (S.asRepaid id inv now).books =
    (S.books.put id (some { inv with status := .repaid, repaidAt := some now })).release inv := by
  rw [asRepaid, books_release, books_put]

@[simp] theorem Storage.books_asDefaulted : (S.asDefaulted id inv).books =
    (S.books.put id (some { inv with status := .defaulted })).release inv := by
  rw [← books_put, ← books_release]
  rfl

@[simp] theorem Storage.books_asWithdrawn :
    (S.asWithdrawn id inv).books = (S.books.put id none).release inv := by
  rw [asWithdrawn, books_release]
  have h := S.current_update id none S.invoice
  exact congrArg (fun f : ℕ → Option Invoice => (⟨f, _, _⟩ : Books).release inv) h

@[simp] theorem Storage.books_asMinted : (S.asMinted (S.nextId.getD 1) inv).books = { S.books with
    invoice := Function.update S.books.invoice S.books.next (some inv)
    next := S.books.next + 1 } := by
  have h := S.current_update (S.nextId.getD 1) (some inv) S.invoice
  exact congrArg (fun f : ℕ → Option Invoice => (⟨f, _, _⟩ : Books)) h

end Books

section Operations

variable {env : Env} {s t : State} {u : Unit} {op : Op}

theorem step_of_eq {now : ℕ} {S T : Storage} (h : T.books = S.books) :
    Books.Step now S.books .keep T.books := h ▸ .keep

theorem initializeContract_books (hN : s.own.Unnumbered) {admin ac : Address}
    (h : initializeContract admin ac env s = .ok u t) :
    t.own.books = s.own.books ∧ t.own.Unnumbered := by
  simp only [initializeContract, gets_run, ensure_seq_ok, net_run, check_seq_ok, requireNotSelf,
    requireDistinct, guardK_ok, modifyOwn, modify_ok] at h
  obtain ⟨hnone, _, -, _, -, _, -, rfl⟩ := h
  refine ⟨?_, fun hadmin => absurd hadmin (Option.some_ne_none _)⟩
  simp only [Storage.books, hN hnone]
  rfl

theorem migrate_books (hS : s.own.WellFormed) (hN : s.own.Unnumbered) {admin : Address}
    (h : migrate admin env s = .ok u t) : t.own.books = s.own.books ∧ t.own.Unnumbered := by
  simp only [migrate, requireAuth_seq_ok, requireAdmin_seq_ok, gets_run, ite_run, modifyOwn,
    modify_run] at h
  obtain ⟨-, -, h⟩ := h
  split_ifs at h with h₁ h₂
  · simp only [bind_ok, modify_ok] at h
    obtain ⟨_, _, hm, rfl⟩ := h
    obtain rfl := migrateRecords_frame (by exact hS.current) hm
    exact ⟨rfl, hN⟩
  · obtain ⟨-, rfl⟩ := pure_ok.mp h
    exact ⟨rfl, hN⟩
  · simp only [bind_ok, modify_ok] at h
    obtain ⟨_, _, hm, rfl⟩ := h
    obtain rfl := migrateRecords_frame (by exact hS.current) hm
    exact ⟨rfl, hN⟩
  · obtain ⟨-, rfl⟩ := pure_ok.mp h
    exact ⟨rfl, hN⟩

/-- **Every entry point is a transition of the books.** -/
theorem Op.exec_books (hS : s.own.WellFormed) (hN : s.own.Unnumbered)
    (h : op.exec env s = .ok u t) :
    Books.Step env.timestamp s.own.books op.event t.own.books ∧ t.own.Unnumbered := by
  cases op with
  | initializeContract admin ac =>
    exact ⟨step_of_eq (initializeContract_books hN h).1, (initializeContract_books hN h).2⟩
  | migrate admin =>
    exact ⟨step_of_eq (migrate_books hS hN h).1, (migrate_books hS hN h).2⟩
  | mintInvoice sme hash amount currency due cid score notes =>
    simp only [exec, bind_ok, pure_ok] at h
    obtain ⟨id, _, hm, -, rfl⟩ := h
    obtain ⟨hacts, hpos, -, rfl, -, rfl⟩ := mintInvoice_ok hm
    rw [Storage.books_asMinted]
    refine ⟨.mint _ hpos, fun hnone => ?_⟩
    have hwired := hacts.wired
    rw [(hS.uninit hnone).1] at hwired
    cases hwired
  | amendInvoice sme id hash amount due cid score =>
    obtain ⟨-, hpos, -, inv, hinv, hst, -, rfl⟩ := amendInvoice_ok h
    rw [Storage.books_put]
    exact ⟨.amend id _ inv (Storage.current_of_current hinv) hst hpos, hN⟩
  | withdrawInvoice sme id =>
    obtain ⟨-, inv, hinv, hst, -, rfl⟩ := withdrawInvoice_ok h
    rw [Storage.books_asWithdrawn]
    exact ⟨.withdraw id inv (Storage.current_of_current hinv) hst, hN⟩
  | commitMetadataHash sme id hash =>
    obtain ⟨-, inv, hinv, hst, -, -, rfl⟩ := commitMetadataHash_ok h
    have hstep : Books.Step env.timestamp s.own.books (.commit id hash) _ :=
      .commit id hash inv (Storage.current_of_current hinv) hst
    rw [← Storage.books_put] at hstep
    exact ⟨hstep, hN⟩
  | setListed caller id =>
    obtain ⟨-, -, inv, hinv, hst, rfl⟩ := setListed_ok h
    rw [Storage.books_asListed]
    exact ⟨.list id inv (Storage.current_of_current hinv) hst, hN⟩
  | setFunded caller id =>
    obtain ⟨-, -, inv, hinv, hst, rfl⟩ := setFunded_ok h
    rw [Storage.books_asFunded]
    exact ⟨.fund id inv (Storage.current_of_current hinv) hst, hN⟩
  | setRepaid caller id =>
    obtain ⟨-, -, inv, hinv, hst, rfl⟩ := setRepaid_ok h
    rw [Storage.books_asRepaid]
    exact ⟨.repay id inv (Storage.current_of_current hinv) hst, hN⟩
  | setDefaulted caller id =>
    obtain ⟨-, -, inv, hinv, hst, hdue, rfl⟩ := setDefaulted_ok h
    rw [Storage.books_asDefaulted]
    exact ⟨.default id inv (Storage.current_of_current hinv) hst hdue, hN⟩
  | setRiskRegistry admin rr =>
    simp only [exec, InvoiceNft.setRiskRegistry, requireAuth_seq_ok, requireAdmin_seq_ok, net_run,
      check_seq_ok, modifyOwn, modify_ok] at h
    obtain ⟨-, -, _, -, rfl⟩ := h
    exact ⟨.keep, hN⟩
  | setAuthorizedCallers | addAllowedCurrency | removeAllowedCurrency =>
    simp only [exec, InvoiceNft.setAuthorizedCallers, InvoiceNft.addAllowedCurrency,
      InvoiceNft.removeAllowedCurrency, requireAuth_seq_ok, requireAdmin_seq_ok, modifyOwn,
      modify_ok] at h
    obtain ⟨-, -, rfl⟩ := h
    exact ⟨.keep, hN⟩
  | freezeInvoice admin id | unfreezeInvoice admin id =>
    simp only [exec, InvoiceNft.freezeInvoice, InvoiceNft.unfreezeInvoice, requireAuth_seq_ok,
      requireAdmin_seq_ok, loadInvoice_seq_ok, modifyOwn, modify_ok] at h
    obtain ⟨-, -, _, -, rfl⟩ := h
    exact ⟨.keep, hN⟩

end Operations

end Kora.InvoiceNft
