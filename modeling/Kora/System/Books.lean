import Kora.InvoiceNft.Refinement
import Kora.System.Controls
import Kora.System.Status

set_option autoImplicit false

/-!
# The books of the ledger

Every step of the system is a transition of the books of the invoice contract. SMEs mint, amend,
commit and withdraw by their own transactions; the other events also come from the marketplace and
the pool.

* **`Entry.exec_books`**, **`books_step`**: the refinement;
* `Mints`, `mints_iff`: minting, in a step and in the books;
* **`booksSound_run`**: in every run numbers are fresh and amounts positive.
-/

namespace Kora

open Exec Run InvoiceNft

/-- The books of the invoice contract. -/
def World.books (w : World) : Books := w.invoiceNft.books

/-- The event can come from another contract. -/
def InvoiceNft.Event.Internal : Event → Prop
  | .keep | .list _ | .fund _ | .repay _ | .default _ => True
  | .mint _ | .amend .. | .commit .. | .withdraw _ => False

section Entries

variable {env : Env} {w w' : World} {u : Unit} {e : Entry}

theorem FinancingPool.Notice.books {op : FinancingPool.Op} (hN : w.invoiceNft.Unnumbered)
    (h : FinancingPool.Notice env w w' op) :
    ∃ ev, ev.Internal ∧ Books.Step env.timestamp w.books ev w'.books ∧
      w'.invoiceNft.Unnumbered := by
  unfold World.books
  cases h with
  | silent _ hnft =>
    rw [hnft]
    exact ⟨.keep, trivial, .keep, hN⟩
  | funded marketplace j token inv _ _ hinv hst hnft =>
    rw [hnft, Storage.books_asFunded]
    exact ⟨.fund j, trivial, .fund j inv (Storage.current_of_current hinv) hst, hN⟩
  | repaid _ j inv _ hinv hst hnft =>
    rw [hnft, Storage.books_asRepaid]
    exact ⟨.repay j, trivial, .repay j inv (Storage.current_of_current hinv) hst, hN⟩
  | defaulted admin j token inv hinv hst hdue hnft =>
    rw [hnft, Storage.books_asDefaulted]
    exact ⟨.default j, trivial, .default j inv (Storage.current_of_current hinv) hst hdue, hN⟩

theorem Marketplace.Op.exec_books {op : Marketplace.Op} (hN : w.invoiceNft.Unnumbered)
    (h : op.exec env w = .ok () w') :
    ∃ ev, ev.Internal ∧ Books.Step env.timestamp w.books ev w'.books ∧
      w'.invoiceNft.Unnumbered := by
  have heffect := Marketplace.Op.exec_effect h
  generalize he : Entry.marketplace op = e at heffect
  cases heffect with
  | peripheral _ _ hmarket => exact absurd he.symm (hmarket op)
  | invoiceNft | pool => cases he
  | listing seller j price face token deadline referrer config inv refs _ _ _ _ _ hinv hst hw =>
    obtain rfl := hw
    refine ⟨.list j, trivial, ?_, hN⟩
    simp only [World.books, Storage.books_asListed]
    exact .list j inv (Storage.current_of_current hinv) hst
  | funding investor j amount listing config inv fee hF =>
    unfold World.books
    rcases lt_or_ge (listing.fundedAmount + amount) listing.askingPrice with hlt | hge
    · rw [(hF.unreleased hlt).2]
      exact ⟨.keep, trivial, .keep, hN⟩
    · obtain ⟨-, -, -, hst, -, bps, -, hnft⟩ := hF.released hge
      rw [hnft, Storage.books_asFunded]
      exact ⟨.fund j, trivial, .fund j inv (Storage.current_of_current hF.invoice) hst, hN⟩
  | market op _ _ _ hnft =>
    unfold World.books
    rw [hnft]
    exact ⟨.keep, trivial, .keep, hN⟩

/-- **Every transaction is a transition of the books**, by its own event when it is one at the
invoice contract. -/
theorem Entry.exec_books (hS : w.invoiceNft.WellFormed) (hN : w.invoiceNft.Unnumbered)
    (h : e.exec env w = .ok () w') :
    ∃ ev, Books.Step env.timestamp w.books ev w'.books ∧ w'.invoiceNft.Unnumbered ∧
      ((∃ op, e = .invoiceNft op ∧ ev = op.event) ∨ (∀ op, e ≠ .invoiceNft op) ∧ ev.Internal) := by
  have hkeep : ∀ {v : World}, v.invoiceNft = w.invoiceNft → (∀ op, e ≠ .invoiceNft op) →
      ∃ ev, Books.Step env.timestamp w.books ev v.books ∧ v.invoiceNft.Unnumbered ∧
        ((∃ op, e = .invoiceNft op ∧ ev = op.event) ∨
          (∀ op, e ≠ .invoiceNft op) ∧ ev.Internal) := by
    intro v hv hne
    refine ⟨.keep, ?_, by rwa [hv], Or.inr ⟨hne, trivial⟩⟩
    rw [World.books, World.books, hv]
    exact .keep
  cases e with
  | accessControl op =>
    obtain ⟨S, -, rfl⟩ := onAccessControl_ok.mp h
    exact hkeep rfl (by simp)
  | priceOracle op =>
    obtain ⟨S, -, rfl⟩ := onPriceOracle_ok.mp h
    exact hkeep rfl (by simp)
  | treasury op =>
    obtain ⟨s, -, rfl⟩ := onTreasury_ok.mp h
    exact hkeep rfl (by simp)
  | riskRegistry op =>
    obtain ⟨s, -, rfl⟩ := onRiskRegistry_ok.mp h
    exact hkeep rfl (by simp)
  | transfer token src dst amount =>
    rw [exec, zoom_ok] at h
    obtain ⟨T, -, rfl⟩ := h
    exact hkeep rfl (by simp)
  | invoiceNft op =>
    obtain ⟨s, hs, rfl⟩ := onInvoiceNft_ok.mp h
    obtain ⟨hstep, hN'⟩ := InvoiceNft.Op.exec_books (by exact hS) (by exact hN) hs
    exact ⟨op.event, hstep, hN', Or.inl ⟨op, rfl, rfl⟩⟩
  | pool op =>
    obtain ⟨ev, hev, hstep, hN'⟩ := (FinancingPool.Op.exec_outside h).notice.books hN
    exact ⟨ev, hstep, hN', Or.inr ⟨by simp, hev⟩⟩
  | marketplace op =>
    obtain ⟨ev, hev, hstep, hN'⟩ := Marketplace.Op.exec_books hN h
    exact ⟨ev, hstep, hN', Or.inr ⟨by simp, hev⟩⟩

end Entries

/-! ## Steps -/

/-- The step mints an invoice with these terms. -/
def Mints (d : Deployment) (terms : Terms) (w : World) (a : Action) : Prop :=
  ∃ op, Performs d w (.invoiceNft op) a ∧ op.event = .mint terms

/-- The books are in order: the storage is well formed, numbers from the next one on are free, and
amounts are positive. -/
structure BooksSound (w : World) : Prop where
  wellFormed : w.invoiceNft.WellFormed
  unnumbered : w.invoiceNft.Unnumbered
  fresh : w.books.Fresh
  positive : w.books.Positive

section Steps

variable {d : Deployment} {w : World}

theorem books_step (hw : BooksSound w) (a : Action) :
    ∃ ev, Books.Step w.now w.books ev (step d w a).books ∧
      (step d w a).invoiceNft.Unnumbered ∧
      ((∃ op, Performs d w (.invoiceNft op) a ∧ ev = op.event) ∨
        (∀ op, ¬ Performs d w (.invoiceNft op) a) ∧ ev.Internal) := by
  rcases step_cases d w a with ⟨c, rfl, hs, h⟩ | ⟨n, rfl, h⟩ | ⟨c, rfl, hn, h⟩
  · obtain ⟨ev, hstep, hN, hev⟩ := Entry.exec_books hw.wellFormed hw.unnumbered h
    refine ⟨ev, hstep, hN, ?_⟩
    rcases hev with ⟨op, he, hev⟩ | ⟨hne, hev⟩
    · exact Or.inl ⟨op, ⟨hs, he⟩, hev⟩
    · exact Or.inr ⟨fun op hop => hne op hop.2, hev⟩
  · rw [h]
    exact ⟨.keep, .keep, hw.unnumbered, Or.inr ⟨fun _ => id, trivial⟩⟩
  · rw [h]
    exact ⟨.keep, .keep, hw.unnumbered, Or.inr ⟨fun _ hop => hn hop.1, trivial⟩⟩

theorem mints_iff {a : Action} {ev : Event} {terms : Terms}
    (hev : (∃ op, Performs d w (.invoiceNft op) a ∧ ev = op.event) ∨
      (∀ op, ¬ Performs d w (.invoiceNft op) a) ∧ ev.Internal) :
    ev = .mint terms ↔ Mints d terms w a := by
  rcases hev with ⟨op, hop, rfl⟩ | ⟨hnone, hev⟩
  · constructor
    · exact fun h => ⟨op, hop, h⟩
    · rintro ⟨op', hop', h⟩
      cases hop.unique hop'
      exact h
  · refine iff_of_false ?_ fun ⟨op, hop, _⟩ => hnone op hop
    rintro rfl
    exact hev

theorem booksSound_step (d : Deployment) (hw : BooksSound w) (a : Action) :
    BooksSound (step d w a) := by
  obtain ⟨ev, hstep, hN, -⟩ := books_step (d := d) hw a
  refine ⟨?_, hN, hstep.fresh hw.fresh, hstep.positive hw.fresh hw.positive⟩
  rcases step_cases d w a with ⟨c, rfl, -, h⟩ | ⟨n, rfl, h⟩ | ⟨c, rfl, -, h⟩
  · exact ((Entry.exec_effect h).nftChange hw.wellFormed).wellFormed hw.wellFormed
  · rw [h]
    exact hw.wellFormed
  · rw [h]
    exact hw.wellFormed

theorem booksSound_genesis (now : ℕ) (tokens : Tokens) : BooksSound (genesis now tokens) where
  wellFormed := wellFormed_genesis now tokens
  unnumbered := fun _ => rfl
  fresh := fun _ _ => rfl
  positive := by rintro _ _ ⟨⟩

/-- **Reachable books are sound.** -/
theorem booksSound_run (d : Deployment) (now : ℕ) (tokens : Tokens) (as : List Action) :
    BooksSound (run (step d) (genesis now tokens) as) :=
  always (I := BooksSound) (fun _ a hw => booksSound_step d hw a) (booksSound_genesis now tokens) as

end Steps

end Kora
