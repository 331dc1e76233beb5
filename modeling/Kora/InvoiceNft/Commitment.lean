import Kora.InvoiceNft.Fields

set_option autoImplicit false

/-!
# The metadata commitment

An SME commits once to the hash of the document that the CID of its invoice refers to. The hash
stays, but an amendment can still give the invoice another CID.

* `written_of_committed`: only an amendment writes a committed invoice, and it keeps the hash;
* **`commitment_iff`**: when the commitment is binding.
-/

namespace Kora.InvoiceNft

open Exec Run

/-- Invoice `id`, if it is there, has the metadata hash `hash`. -/
def HashIs (id : ℕ) (hash : Bytes) (w : World) : Prop :=
  ∀ inv, w.invoiceNft.invoice id = some (.current inv) → inv.metadataHash = hash

/-- Invoice `id`, if it is there, has the metadata hash `hash` and the CID `cid`. -/
def Committed (id : ℕ) (hash : Bytes) (cid : String) (w : World) : Prop :=
  ∀ inv, w.invoiceNft.invoice id = some (.current inv) →
    inv.metadataHash = hash ∧ inv.ipfsCid = cid

/-- A successful amendment of invoice `id` in the step keeps the CID. -/
def KeepsCid (d : Deployment) (id : ℕ) (cid : String) (w : World) (a : Action) : Prop :=
  ∀ sme hash amount due cid' score,
    Performs d w (.invoiceNft (.amendInvoice sme id hash amount due cid' score)) a → cid' = cid

section Steps

variable {d : Deployment} {w : World} {id : ℕ} {hash : Bytes} {cid : String} {a : Action}

theorem all_at_iff {Q : Terms → Prop} : (w.books.All fun i terms => i = id → Q terms) ↔
    ∀ inv, w.invoiceNft.invoice id = some (.current inv) → Q (termsOf inv) := by
  constructor
  · exact fun h inv hinv => h id inv (Storage.current_of_current hinv) rfl
  · rintro h i inv hinv rfl
    exact h inv (Storage.of_current hinv)

theorem hashIs_iff : HashIs id hash w ↔
    w.books.All fun i terms => i = id → terms.metadataHash = hash :=
  (all_at_iff (Q := fun terms => terms.metadataHash = hash)).symm

theorem committed_iff : Committed id hash cid w ↔ w.books.All fun i terms =>
    i = id → terms.metadataHash = hash ∧ terms.ipfsCid = cid :=
  (all_at_iff (Q := fun terms => terms.metadataHash = hash ∧ terms.ipfsCid = cid)).symm

/-- **Once committed, only an amendment writes the invoice**, and it keeps the hash. -/
theorem written_of_committed (hid : id < w.books.next) (hhash : hash ≠ [])
    (hw : HashIs id hash w) {op : Op} (hop : Performs d w (.invoiceNft op) a) {terms : Terms}
    (hwritten : w.books.written op.event = some (id, terms)) :
    terms.metadataHash = hash ∧ ∃ sme hash' amount due score,
      op = .amendInvoice sme id hash' amount due terms.ipfsCid score := by
  have hadmits := admits_of_performs hop
  cases op with
  | mintInvoice =>
    obtain ⟨hnext, -⟩ := Prod.mk.inj (Option.some.inj hwritten)
    omega
  | amendInvoice sme i hash' amount due cid' score =>
    obtain ⟨inv, hinv, heq⟩ := Option.map_eq_some_iff.mp hwritten
    cases heq
    exact ⟨hw inv (Storage.of_current hinv), sme, hash', amount, due, score, rfl⟩
  | commitMetadataHash sme i hash' =>
    -- the contract only takes a hash where there is none
    obtain ⟨inv, hinv, heq⟩ := Option.map_eq_some_iff.mp hwritten
    cases heq
    have hempty := hadmits.2 inv hinv
    rw [hw inv (Storage.of_current hinv)] at hempty
    exact absurd hempty hhash
  | initializeContract | setRiskRegistry | migrate | setAuthorizedCallers | withdrawInvoice
  | setListed | setFunded | setRepaid | setDefaulted | freezeInvoice | unfreezeInvoice
  | addAllowedCurrency | removeAllowedCurrency => cases hwritten

theorem hashIs_step (hw : BooksSound w) (hid : id < w.books.next) (hhash : hash ≠ [])
    (h : HashIs id hash w) (a : Action) : HashIs id hash (step d w a) := by
  rw [hashIs_iff, all_step hw (hashIs_iff.mp h)]
  rintro op hop _ terms hwritten rfl
  exact (written_of_committed hid hhash h hop hwritten).1

theorem committed_step (hw : BooksSound w) (hid : id < w.books.next) (hhash : hash ≠ [])
    (h : Committed id hash cid w) (a : Action) :
    Committed id hash cid (step d w a) ↔ KeepsCid d id cid w a := by
  have hhashIs : HashIs id hash w := fun inv hinv => (h inv hinv).1
  rw [committed_iff, all_step hw (committed_iff.mp h)]
  constructor
  · intro hwrites sme hash' amount due cid' score hop
    obtain ⟨inv, hinv⟩ := stored_of_amends hop
    have hwritten : w.books.written (.amend id ⟨hash', amount, due, cid', score⟩) =
        some (id, termsOf (Amendment.apply ⟨hash', amount, due, cid', score⟩ inv)) := by
      simp [Books.written, hinv]
    exact (hwrites _ hop _ _ hwritten rfl).2
  · rintro hkeeps op hop _ terms hwritten rfl
    obtain ⟨hterms, sme, hash', amount, due, score, rfl⟩ :=
      written_of_committed hid hhash hhashIs hop hwritten
    exact ⟨hterms, hkeeps _ _ _ _ _ _ hop⟩

theorem commits_stored (hw : BooksSound w) {sme : Address}
    (h : Performs d w (.invoiceNft (.commitMetadataHash sme id hash)) a) :
    hash ≠ [] ∧ id < (step d w a).books.next ∧ ∃ inv,
      (step d w a).invoiceNft.invoice id = some (.current inv) ∧ inv.metadataHash = hash := by
  have hhash : hash ≠ [] := (admits_of_performs h).1
  obtain ⟨c, -, hexec⟩ := h.exec
  obtain ⟨s, hs, hstep⟩ := onInvoiceNft_ok.mp hexec
  obtain ⟨-, inv, hinv, -, -, -, rfl⟩ := commitMetadataHash_ok hs
  have hlt : id < w.books.next := hw.fresh.lt (Storage.current_of_current hinv)
  refine ⟨hhash, hlt.trans_le (next_le_step hw a), { inv with metadataHash := hash }, ?_, rfl⟩
  rw [← hstep]
  simp [Storage.put]

end Steps

/-- **The commitment** to a hash for an invoice: in every later run the metadata hash stays, and the
hash and the CID both stay exactly when every later amendment of the invoice keeps the CID. -/
theorem commitment_iff (d : Deployment) (now : ℕ) (tokens : Tokens) (before as : List Action)
    (sme : Address) (id : ℕ) (hash : Bytes) (a : Action)
    (h : Performs d (run (step d) (genesis now tokens) before)
      (.invoiceNft (.commitMetadataHash sme id hash)) a) :
    ∃ inv, (run (step d) (genesis now tokens) (before ++ [a])).invoiceNft.invoice id =
        some (.current inv) ∧ inv.metadataHash = hash ∧
      (∀ p, p <+: as → HashIs id hash (run (step d) (genesis now tokens) (before ++ [a] ++ p))) ∧
      ((∀ p, p <+: as → Committed id hash inv.ipfsCid
          (run (step d) (genesis now tokens) (before ++ [a] ++ p))) ↔
        Along (step d) (KeepsCid d id inv.ipfsCid)
          (run (step d) (genesis now tokens) (before ++ [a])) as) := by
  simp only [run_append, run_cons, run_nil]
  have hw := booksSound_run d now tokens before
  generalize run (step d) (genesis now tokens) before = w at h hw ⊢
  obtain ⟨hhash, hid, inv, hinv, hmeta⟩ := commits_stored hw h
  refine ⟨inv, hinv, hmeta, fun p _ => ?_, ?_⟩
  · refine (always (I := fun w : World => (BooksSound w ∧ id < w.books.next) ∧ HashIs id hash w)
      (fun w a hw => ⟨⟨booksSound_step d hw.1.1 a, hw.1.2.trans_le (next_le_step hw.1.1 a)⟩,
        hashIs_step hw.1.1 hw.1.2 hhash hw.2 a⟩) ⟨⟨booksSound_step d hw a, hid⟩, ?_⟩ p).2
    intro inv' hinv'
    rw [← Storage.current_inj hinv hinv', hmeta]
  · refine forall_prefix_iff (I := fun w : World => BooksSound w ∧ id < w.books.next)
      (Q := Committed id hash inv.ipfsCid)
      (fun _ a hw => ⟨booksSound_step d hw.1 a, hw.2.trans_le (next_le_step hw.1 a)⟩)
      (fun _ a hw hQ => committed_step hw.1 hw.2 hhash hQ a) ⟨booksSound_step d hw a, hid⟩ ?_
    intro inv' hinv'
    rw [← Storage.current_inj hinv hinv']
    exact ⟨hmeta, rfl⟩

/-- SME `2` commits to the hash of the document of invoice `1`. -/
def committing : Action := signed 2 (.invoiceNft (.commitMetadataHash 2 1 [7]))

/-- SME `2` amends invoice `1` to another CID. -/
def recasting : Action := signed 2 (.invoiceNft (.amendInvoice 2 1 [1] 10_000 1000 "other" 50))

theorem commitment_recasting :
    ∃ inv, (run (step sample) (genesis 0 sampleTokens)
        (sampleMinted ++ [committing])).invoiceNft.invoice 1 = some (.current inv) ∧
      inv.metadataHash = [7] ∧
      (∀ p, p <+: [recasting] → HashIs 1 [7]
        (run (step sample) (genesis 0 sampleTokens) (sampleMinted ++ [committing] ++ p))) ∧
      ((∀ p, p <+: [recasting] → Committed 1 [7] inv.ipfsCid
          (run (step sample) (genesis 0 sampleTokens) (sampleMinted ++ [committing] ++ p))) ↔
        Along (step sample) (KeepsCid sample 1 inv.ipfsCid)
          (run (step sample) (genesis 0 sampleTokens) (sampleMinted ++ [committing]))
          [recasting]) :=
  commitment_iff sample 0 sampleTokens sampleMinted [recasting] 2 1 [7] committing
    ⟨by decide +kernel, rfl⟩

/-- The CID of a committed invoice changes. -/
theorem commitment_not_binding : ¬ ∀ (d : Deployment) (now : ℕ) (tokens : Tokens)
    (before as : List Action) (sme : Address) (id : ℕ) (hash : Bytes) (a : Action),
    Performs d (run (step d) (genesis now tokens) before)
      (.invoiceNft (.commitMetadataHash sme id hash)) a →
    ∀ inv inv', (run (step d) (genesis now tokens) (before ++ [a])).invoiceNft.invoice id =
        some (.current inv) →
      (run (step d) (genesis now tokens) (before ++ [a] ++ as)).invoiceNft.invoice id =
        some (.current inv') →
      inv'.metadataHash = inv.metadataHash ∧ inv'.ipfsCid = inv.ipfsCid := by
  intro h
  have hcid : ((run (step sample) (genesis 0 sampleTokens)
      (sampleMinted ++ [committing])).invoiceNft.current 1).map (·.ipfsCid) = some "cid" := by
    decide +kernel
  have hcid' : ((run (step sample) (genesis 0 sampleTokens)
      (sampleMinted ++ [committing] ++ [recasting])).invoiceNft.current 1).map (·.ipfsCid) =
        some "other" := by
    decide +kernel
  obtain ⟨inv, hinv, hold⟩ := Option.map_eq_some_iff.mp hcid
  obtain ⟨inv', hinv', hnew⟩ := Option.map_eq_some_iff.mp hcid'
  have hcommits : Performs sample (run (step sample) (genesis 0 sampleTokens) sampleMinted)
      (.invoiceNft (.commitMetadataHash 2 1 [7])) committing := ⟨by decide +kernel, rfl⟩
  have hkept := h sample 0 sampleTokens sampleMinted [recasting] 2 1 [7] committing hcommits
  have heq := (hkept inv inv' (Storage.of_current hinv) (Storage.of_current hinv')).2
  rw [hold, hnew] at heq
  exact absurd heq (by decide)

end Kora.InvoiceNft
