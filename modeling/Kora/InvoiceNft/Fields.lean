import Kora.InvoiceNft.Lifecycle

set_option autoImplicit false

/-!
# The fields of stored invoices

Minting checks the lengths of the debtor hash and of the CID from both sides. An amendment rewrites
the same two fields and only asks that they are not empty.

* `Terms.Valid`: what minting asks for;
* `Op.exec_admits`: what the entry points check;
* **`all_step`**: a property of all terms, in a step of the system;
* **`mintable_iff`**: when every stored invoice is one that could be minted.
-/

namespace Kora.InvoiceNft

open Exec Run

/-! ## Checks -/

/-- The conditions of minting on the fields of an invoice. -/
structure Terms.Valid (terms : Terms) : Prop where
  amount : 0 < terms.amount
  riskScore : terms.riskScore ≤ 100
  hash_pos : 1 ≤ terms.debtorHash.length
  hash_le : terms.debtorHash.length ≤ maxDebtorHashLen
  cid_pos : 1 ≤ terms.ipfsCid.utf8ByteSize
  cid_le : terms.ipfsCid.utf8ByteSize ≤ maxIpfsCidLen

theorem Terms.valid_iff {terms : Terms} : terms.Valid ↔
    (0 < terms.amount ∧ terms.riskScore ≤ 100) ∧
      (1 ≤ terms.debtorHash.length ∧ terms.debtorHash.length ≤ maxDebtorHashLen) ∧
      1 ≤ terms.ipfsCid.utf8ByteSize ∧ terms.ipfsCid.utf8ByteSize ≤ maxIpfsCidLen :=
  ⟨fun h => ⟨⟨h.amount, h.riskScore⟩, ⟨h.hash_pos, h.hash_le⟩, h.cid_pos, h.cid_le⟩,
    fun ⟨⟨ha, hr⟩, ⟨hp, hl⟩, hp', hl'⟩ => ⟨ha, hr, hp, hl, hp', hl'⟩⟩

instance (terms : Terms) : Decidable terms.Valid := decidable_of_iff' _ Terms.valid_iff

/-- The conditions of an amendment. -/
structure Amendment.Valid (m : Amendment) : Prop where
  amount : 0 < m.amount
  riskScore : m.riskScore ≤ 100
  hash_pos : 1 ≤ m.debtorHash.length
  cid_pos : 1 ≤ m.ipfsCid.utf8ByteSize

/-- The new debtor hash and CID are no longer than minting allows. -/
def Amendment.Short (m : Amendment) : Prop :=
  m.debtorHash.length ≤ maxDebtorHashLen ∧ m.ipfsCid.utf8ByteSize ≤ maxIpfsCidLen

/-- What the contract checks of the terms that an event writes. -/
def Books.Admits (B : Books) : Event → Prop
  | .mint terms => terms.Valid
  | .amend _ m => m.Valid
  | .commit id hash => hash ≠ [] ∧ ∀ inv, B.invoice id = some inv → inv.metadataHash = []
  | .keep | .withdraw _ | .list _ | .fund _ | .repay _ | .default _ => True

section Checks

variable {env : Env} {s t : State} {u : Unit} {op : Op}

theorem Op.exec_admits (h : op.exec env s = .ok u t) : s.own.books.Admits op.event := by
  cases op with
  | mintInvoice sme hash amount currency due cid score notes =>
    simp only [exec, bind_ok] at h
    obtain ⟨id, _, h, -⟩ := h
    obtain ⟨hg, -, -⟩ := mintInvoice_iff.mp h
    exact ⟨hg.amount_pos, hg.score_le, Nat.one_le_iff_ne_zero.mpr hg.hash_pos, hg.hash_le,
      Nat.one_le_iff_ne_zero.mpr hg.cid_pos, hg.cid_le⟩
  | amendInvoice sme id hash amount due cid score =>
    simp only [exec, InvoiceNft.amendInvoice, requireAuth_seq_ok, requireNotPaused_seq_ok,
      timestamp_run, check_seq_ok, requireNonZeroAmount, requireValidRiskScore,
      requireNonEmptyBytes, requireNonEmptyString, guardK_ok] at h
    obtain ⟨-, -, -, _, ha, _, -, _, hr, _, hp, _, hp', -⟩ := h
    exact ⟨ha, hr, Nat.one_le_iff_ne_zero.mpr hp, Nat.one_le_iff_ne_zero.mpr hp'⟩
  | commitMetadataHash sme id hash =>
    obtain ⟨-, inv, hinv, -, -, hempty, -⟩ := commitMetadataHash_ok h
    simp only [exec, InvoiceNft.commitMetadataHash, requireAuth_seq_ok, requireNotPaused_seq_ok,
      guard, guarded_ok, check_seq_ok, requireNonEmptyBytes, guardK_ok] at h
    obtain ⟨-, -, -, -, _, ⟨_, hhash, -⟩, -⟩ := h
    refine ⟨fun hnil => hhash (by rw [hnil]; rfl), fun inv' hinv' => ?_⟩
    obtain rfl := Option.some.inj ((Storage.current_of_current hinv).symm.trans hinv')
    exact List.length_eq_zero_iff.mp hempty
  | initializeContract | setRiskRegistry | migrate | setAuthorizedCallers | withdrawInvoice
  | setListed | setFunded | setRepaid | setDefaulted | freezeInvoice | unfreezeInvoice
  | addAllowedCurrency | removeAllowedCurrency => trivial

end Checks

/-! ## Steps -/

section Steps

variable {d : Deployment} {w : World} {a : Action} {P : ℕ → Terms → Prop}

theorem admits_of_performs {op : Op} (h : Performs d w (.invoiceNft op) a) :
    w.books.Admits op.event := by
  obtain ⟨c, -, hexec⟩ := h.exec
  obtain ⟨s, hs, -⟩ := onInvoiceNft_ok.mp hexec
  exact Op.exec_admits hs

/-- **A step keeps a property of all terms exactly when the terms it writes have it.** -/
theorem all_step (hw : BooksSound w) (hall : w.books.All P) (a : Action) :
    (step d w a).books.All P ↔ ∀ op, Performs d w (.invoiceNft op) a →
      ∀ id terms, w.books.written op.event = some (id, terms) → P id terms := by
  obtain ⟨ev, hstep, -, hev⟩ := books_step (d := d) hw a
  rw [hstep.all hall]
  rcases hev with ⟨op, hop, rfl⟩ | ⟨hnone, hinternal⟩
  · constructor
    · intro h op' hop'
      cases hop.unique hop'
      exact h
    · exact fun h => h op hop
  · refine iff_of_true ?_ fun op hop => absurd hop (hnone op)
    cases ev with
    | mint | amend | commit | withdraw => exact hinternal.elim
    | keep | list | fund | repay | default => simp [Books.written]

end Steps

/-! ## Valid invoices -/

/-- Every stored invoice meets the conditions of minting. -/
def Mintable (w : World) : Prop := w.books.All fun _ terms => terms.Valid

/-- A successful amendment of the step keeps to the lengths of minting. -/
def AmendsShort (d : Deployment) (w : World) (a : Action) : Prop :=
  ∀ sme id hash amount due cid score,
    Performs d w (.invoiceNft (.amendInvoice sme id hash amount due cid score)) a →
      Amendment.Short ⟨hash, amount, due, cid, score⟩

section Valid

variable {d : Deployment} {w : World}

theorem Amendment.valid_apply {m : Amendment} (hm : m.Valid) (inv : Invoice) :
    (termsOf (m.apply inv)).Valid ↔ m.Short :=
  ⟨fun h => ⟨h.hash_le, h.cid_le⟩,
    fun h => ⟨hm.amount, hm.riskScore, hm.hash_pos, h.1, hm.cid_pos, h.2⟩⟩

theorem stored_of_amends {sme : Address} {id due score : ℕ} {hash : Bytes} {amount : ℤ}
    {cid : String} {a : Action}
    (h : Performs d w (.invoiceNft (.amendInvoice sme id hash amount due cid score)) a) :
    ∃ inv, w.books.invoice id = some inv := by
  obtain ⟨c, -, hexec⟩ := h.exec
  obtain ⟨s, hs, -⟩ := onInvoiceNft_ok.mp hexec
  obtain ⟨-, -, -, inv, hinv, -⟩ := amendInvoice_ok hs
  exact ⟨inv, Storage.current_of_current hinv⟩

theorem mintable_step (hw : BooksSound w) (hvalid : Mintable w) (a : Action) :
    Mintable (step d w a) ↔ AmendsShort d w a := by
  rw [Mintable, all_step hw hvalid]
  constructor
  · intro h sme id hash amount due cid score hop
    obtain ⟨inv, hinv⟩ := stored_of_amends hop
    have hwritten : w.books.written (.amend id ⟨hash, amount, due, cid, score⟩) =
        some (id, termsOf (Amendment.apply ⟨hash, amount, due, cid, score⟩ inv)) := by
      simp [Books.written, hinv]
    exact (Amendment.valid_apply (admits_of_performs hop) inv).mp (h _ hop _ _ hwritten)
  · intro h op hop id terms hwritten
    have hadmits := admits_of_performs hop
    cases op with
    | mintInvoice =>
      cases hwritten
      exact hadmits
    | amendInvoice sme j hash amount due cid score =>
      obtain ⟨inv, -, heq⟩ := Option.map_eq_some_iff.mp hwritten
      cases heq
      exact (Amendment.valid_apply hadmits inv).mpr (h _ _ _ _ _ _ _ hop)
    | commitMetadataHash sme j hash =>
      -- the metadata hash is not among the fields that minting checks
      obtain ⟨inv, hinv, heq⟩ := Option.map_eq_some_iff.mp hwritten
      cases heq
      have hold := hvalid _ inv hinv
      exact ⟨hold.amount, hold.riskScore, hold.hash_pos, hold.hash_le, hold.cid_pos, hold.cid_le⟩
    | initializeContract | setRiskRegistry | migrate | setAuthorizedCallers | withdrawInvoice
    | setListed | setFunded | setRepaid | setDefaulted | freezeInvoice | unfreezeInvoice
    | addAllowedCurrency | removeAllowedCurrency => cases hwritten

/-- **Every stored invoice could be minted**, in every state of a run, exactly when every successful
amendment of the run keeps to the lengths of minting. -/
theorem mintable_iff (d : Deployment) (now : ℕ) (tokens : Tokens) (as : List Action) :
    (∀ p, p <+: as → Mintable (run (step d) (genesis now tokens) p)) ↔
      Along (step d) (AmendsShort d) (genesis now tokens) as :=
  forall_prefix_iff (I := BooksSound) (Q := Mintable) (fun _ a hw => booksSound_step d hw a)
    (fun _ a hw hQ => mintable_step hw hQ a) (booksSound_genesis now tokens) (by rintro _ _ ⟨⟩)

end Valid

/-! ## Samples -/

/-- Invoice `1` of SME `2` is minted and not listed yet. -/
def sampleMinted : List Action := (sampleSetup "USDC").dropLast

/-- The SME amends the debtor hash to one of `65` bytes. -/
def amendedLong : List Action := sampleMinted ++ [
  signed 2 (.invoiceNft (.amendInvoice 2 1 (List.replicate 65 1) 10_000 1000 "cid" 50))]

/-- No minting would take the amended invoice. -/
theorem not_mintable : ¬ ∀ (d : Deployment) (now : ℕ) (tokens : Tokens) (as : List Action),
    Mintable (run (step d) (genesis now tokens) as) := by
  intro h
  have hlength : ((run (step sample) (genesis 0 sampleTokens) amendedLong).books.invoice 1).map
      (fun inv => inv.debtorHash.length) = some 65 := by decide +kernel
  obtain ⟨inv, hinv, hlong⟩ := Option.map_eq_some_iff.mp hlength
  have hle : inv.debtorHash.length ≤ 64 := (h sample 0 sampleTokens amendedLong 1 inv hinv).hash_le
  omega

end Kora.InvoiceNft
