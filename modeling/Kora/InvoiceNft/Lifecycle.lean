import Kora.System.Books

set_option autoImplicit false

/-!
# The lifecycle of an invoice

* `ReturnsNumber`, `Lifecycle`: the numbers that minting returns, and the life of the invoices in a
  run;
* `record_step`: what a step of the system does to a record;
* **`invoice_lifecycle`**: every run.
-/

namespace Kora.InvoiceNft

open Exec Run

/-- The step mints an invoice and returns the number `id`. -/
def ReturnsNumber (d : Deployment) (id : ℕ) (w : World) (a : Action) : Prop :=
  ∃ c sme hash amount currency due cid score notes s, a = .call c ∧
    c.entry = .invoiceNft (.mintInvoice sme hash amount currency due cid score notes) ∧
    mintInvoice sme hash amount currency due cid score notes (c.env d w)
      ⟨w.invoiceNft, w.accessControl, w.riskRegistry⟩ = .ok id s

/-- The life of the invoices in the run `as` from `s`. -/
structure Lifecycle (d : Deployment) (s : World) (as : List Action) : Prop where
  /-- No number is returned twice. -/
  fresh : ∀ id, Once (step d) (ReturnsNumber d id) s as
  /-- A record only appears under the number that is returned, also after a withdrawal. -/
  appears : Along (step d) (fun w a => ∀ id, w.invoiceNft.invoice id = none →
    (step d w a).invoiceNft.invoice id ≠ none → ReturnsNumber d id w a) s as
  /-- Statuses follow the lifecycle. -/
  path : Along (step d) (fun w a => ∀ id,
    StatusStep (w.invoiceNft.status id) ((step d w a).invoiceNft.status id)) s as
  /-- `repaid` and `defaulted` are final. -/
  final : ∀ p, p <+: as → ∀ id x, x = .repaid ∨ x = .defaulted →
    (run (step d) s p).invoiceNft.status id = some x →
    (run (step d) s as).invoiceNft.status id = some x
  /-- A record has the current format and fits its status. -/
  sound : ∀ id record, (run (step d) s as).invoiceNft.invoice id = some record →
    ∃ inv, record = .current inv ∧ Sound (run (step d) s as).now inv
  /-- The terms of an invoice stay as they are once it is listed. -/
  terms : ∀ p, p <+: as → ∀ id inv,
    (run (step d) s p).invoiceNft.invoice id = some (.current inv) → inv.status ≠ .created →
    ∃ inv', (run (step d) s as).invoiceNft.invoice id = some (.current inv') ∧
      termsOf inv' = termsOf inv

section Steps

variable {d : Deployment} {w : World} {id : ℕ}

theorem Storage.status_eq (S : Storage) (id : ℕ) : S.status id = (S.current id).map (·.status) := by
  unfold status current
  cases S.invoice id with
  | none => rfl
  | some r => cases r <;> rfl

theorem Storage.current_eq_none {S : Storage} (hS : S.WellFormed) :
    S.current id = none ↔ S.invoice id = none := by
  unfold current
  cases h : S.invoice id with
  | none => simp
  | some r =>
    obtain ⟨inv, rfl⟩ := hS.current id r h
    simp

theorem ReturnsNumber.next {a : Action} (h : ReturnsNumber d id w a) :
    id = w.books.next ∧ (step d w a).books.next = id + 1 := by
  obtain ⟨c, sme, hash, amount, currency, due, cid, score, notes, s, rfl, he, h⟩ := h
  have hok := mintInvoice_ok h
  have hexec : c.entry.exec (c.env d w) w = .ok () { w with
      invoiceNft := s.own
      accessControl := s.accessControl
      riskRegistry := s.riskRegistry } := by
    rw [he]
    exact onInvoiceNft_ok.mpr ⟨s, bind_ok.mpr ⟨id, s, h, rfl⟩, rfl⟩
  rw [step_call_of_ok hexec]
  obtain ⟨-, -, -, hid, -, rfl⟩ := hok
  exact ⟨hid, rfl⟩

theorem Mints.returnsNumber {terms : Terms} {a : Action} (h : Mints d terms w a) :
    ReturnsNumber d w.books.next w a := by
  obtain ⟨op, hop, he⟩ := h
  cases a with
  | tick n => exact hop.elim
  | call c =>
    cases op with
    | mintInvoice sme hash amount currency due cid score notes =>
      obtain ⟨w', h⟩ := Call.succeeds_iff.mp hop.1
      rw [hop.2] at h
      obtain ⟨s, hs, -⟩ := onInvoiceNft_ok.mp h
      obtain ⟨id, s', hmint, -⟩ := bind_ok.mp hs
      have hreturns : ReturnsNumber d id w (.call c) :=
        ⟨c, sme, hash, amount, currency, due, cid, score, notes, s', rfl, hop.2, hmint⟩
      exact hreturns.next.1 ▸ hreturns
    | initializeContract | setRiskRegistry | migrate | setAuthorizedCallers | amendInvoice
    | withdrawInvoice | commitMetadataHash | setListed | setFunded | setRepaid | setDefaulted
    | freezeInvoice | unfreezeInvoice | addAllowedCurrency | removeAllowedCurrency => cases he

theorem record_step (hw : BooksSound w) (a : Action) (id : ℕ) :
    ∃ ev, (∀ terms, ev = .mint terms → Mints d terms w a) ∧
      RecordStep w.now w.books.next ev (step d w a).books.next id (w.books.invoice id)
        ((step d w a).books.invoice id) := by
  obtain ⟨ev, hstep, -, hev⟩ := books_step (d := d) hw a
  exact ⟨ev, fun terms => (mints_iff hev).mp, hstep.record hw.fresh id⟩

theorem next_le_step (hw : BooksSound w) (a : Action) :
    w.books.next ≤ (step d w a).books.next := by
  obtain ⟨ev, hstep, -⟩ := books_step (d := d) hw a
  exact hstep.next_le

theorem RecordStep.status {now next next' : ℕ} {e : Event} {r r' : Option Invoice}
    (h : RecordStep now next e next' id r r') :
    StatusStep (r.map (·.status)) (r'.map (·.status)) := by
  cases h with
  | stay => exact .stay _
  | mint => exact .mint
  | withdraw inv hs =>
    rw [Option.map_some, hs]
    exact .withdraw
  | rewrite inv inv' hs => exact hs

theorem StatusStep.final {x : InvoiceStatus} {s : Option InvoiceStatus}
    (hx : x = .repaid ∨ x = .defaulted) (h : StatusStep (some x) s) : s = some x := by
  rcases hx with rfl | rfl <;> cases h <;> rfl

/-- An invoice that has left `created` never is `created` again. -/
theorem StatusStep.left {x y : InvoiceStatus} (hx : x ≠ .created)
    (h : StatusStep (some x) (some y)) : y ≠ .created := by
  cases h with
  | stay => exact hx
  | list | fund | repay | default => nofun

theorem status_step (hw : BooksSound w) (a : Action) (id : ℕ) :
    StatusStep (w.invoiceNft.status id) ((step d w a).invoiceNft.status id) := by
  obtain ⟨ev, -, h⟩ := record_step (d := d) hw a id
  rw [Storage.status_eq, Storage.status_eq]
  exact h.status

theorem appears_step (hw : BooksSound w) (a : Action) (id : ℕ)
    (hnone : w.invoiceNft.invoice id = none) (hsome : (step d w a).invoiceNft.invoice id ≠ none) :
    ReturnsNumber d id w a := by
  obtain ⟨ev, hmints, h⟩ := record_step (d := d) hw a id
  have hold : w.books.invoice id = none := (Storage.current_eq_none hw.wellFormed).mpr hnone
  have hnew : (step d w a).books.invoice id ≠ none :=
    mt (Storage.current_eq_none (booksSound_step d hw a).wellFormed).mp hsome
  rw [hold] at h
  generalize (step d w a).books.invoice id = r at h hnew
  cases h with
  | stay => exact absurd rfl hnew
  | mint terms he hid => exact hid ▸ Mints.returnsNumber (hmints terms he)

/-- The records fit their statuses. -/
def RecordsSound (w : World) : Prop := ∀ id inv, w.books.invoice id = some inv → Sound w.now inv

theorem Terms.sound (terms : Terms) (id now : ℕ) : Sound now (terms.invoice id now) where
  fundedAt := by simp [Terms.invoice]
  repaidAt := by simp [Terms.invoice]
  created := le_rfl
  funded := nofun
  repaid := nofun
  overdue := nofun
  tier := rfl

theorem recordsSound_step (hw : BooksSound w) (hr : RecordsSound w) (a : Action) :
    RecordsSound (step d w a) := by
  intro id inv' hid
  refine Sound.mono ?_ (now_le_step d w a)
  obtain ⟨ev, -, h⟩ := record_step (d := d) hw a id
  rw [hid] at h
  generalize hold : w.books.invoice id = r at h
  generalize hnew : some inv' = r' at h
  cases h with
  | stay => exact hr id inv' (hold.trans hnew.symm)
  | mint terms =>
    cases hnew
    exact terms.sound id w.now
  | withdraw => cases hnew
  | rewrite inv _ _ _ hsound =>
    cases hnew
    exact hsound (hr id inv hold)

/-- The invoice has left `created` and has the terms `terms`. -/
def Fixed (id : ℕ) (terms : Terms) (w : World) : Prop :=
  ∃ inv, w.books.invoice id = some inv ∧ inv.status ≠ .created ∧ termsOf inv = terms

theorem fixed_step {terms : Terms} (hw : BooksSound w) (hf : Fixed id terms w) (a : Action) :
    Fixed id terms (step d w a) := by
  obtain ⟨inv, hid, hs, hterms⟩ := hf
  obtain ⟨ev, -, h⟩ := record_step (d := d) hw a id
  unfold Fixed
  rw [hid] at h
  generalize (step d w a).books.invoice id = r at h
  cases h with
  | stay => exact ⟨inv, rfl, hs, hterms⟩
  | withdraw _ hc => exact absurd hc hs
  | rewrite _ inv' hstep _ _ hkeep => exact ⟨inv', rfl, hstep.left hs, (hkeep hs).trans hterms⟩

end Steps

/-! ## Runs -/

/-- **The lifecycle of invoices** holds in every run. -/
theorem invoice_lifecycle (d : Deployment) (now : ℕ) (tokens : Tokens) (as : List Action) :
    Lifecycle d (genesis now tokens) as := by
  have halong : ∀ {C : World → Action → Prop}, (∀ w a, BooksSound w → C w a) →
      Along (step d) C (genesis now tokens) as := fun hC =>
    .of_always (I := BooksSound) (fun _ a hw => booksSound_step d hw a) hC
      (booksSound_genesis now tokens) as
  have hkeep : ∀ {I : World → Prop}, (∀ w a, BooksSound w → I w → I (step d w a)) →
      ∀ p, p <+: as → I (run (step d) (genesis now tokens) p) →
        I (run (step d) (genesis now tokens) as) := by
    rintro I hI p ⟨q, rfl⟩ hp
    rw [run_append]
    exact (always (I := fun w => BooksSound w ∧ I w)
      (fun w a hw => ⟨booksSound_step d hw.1 a, hI w a hw.1 hw.2⟩)
      ⟨booksSound_run d now tokens p, hp⟩ q).2
  refine ⟨fun id => ?_, halong fun w a hw => appears_step hw a,
    halong fun w a hw => status_step hw a, fun p hp id x hx => ?_, fun id record hid => ?_,
    fun p hp id inv hid hs => ?_⟩
  · refine once_of_mark (I := BooksSound) (F := fun w => id < w.books.next)
      (fun _ a hw => booksSound_step d hw a) ?_ ?_ (booksSound_genesis now tokens)
    · intro w a _ h
      have hnext := h.next
      omega
    · intro w a hw h
      exact h.trans_le (next_le_step hw a)
  · refine hkeep (I := fun w => w.invoiceNft.status id = some x) (fun w a hw h => ?_) p hp
    have hstep := status_step (d := d) hw a id
    rw [h] at hstep
    exact hstep.final hx
  · have hgenesis : RecordsSound (genesis now tokens) := by
      rintro _ _ ⟨⟩
    have hrecords := hkeep (I := RecordsSound) (fun w a hw h => recordsSound_step hw h a) []
      List.nil_prefix hgenesis
    obtain ⟨inv, rfl⟩ := (booksSound_run d now tokens as).wellFormed.current id record hid
    exact ⟨inv, rfl, hrecords id inv (Storage.current_of_current hid)⟩
  · obtain ⟨inv', hid', -, hterms⟩ := hkeep (I := Fixed id (termsOf inv))
      (fun w a hw h => fixed_step hw h a) p hp ⟨inv, Storage.current_of_current hid, hs, rfl⟩
    exact ⟨inv', Storage.of_current hid', hterms⟩

end Kora.InvoiceNft
