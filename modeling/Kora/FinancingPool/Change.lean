import Kora.System.Effect

set_option autoImplicit false

/-!
# What a transaction does to one pool

`Change env i w w' e` lists everything a successful transaction `e` can do to the pool, the
positions and the pending offer of invoice `i`, with the tokens it moves on behalf of `i`.

* **`change_of_effect`**: there is nothing else;
* `Change.positions`, `Change.opens`: what becomes of the positions, and where pools come from;
* `step_change`, `performed_change`: the same for one step of the system.
-/

namespace Kora.FinancingPool

open Exec

/-- The entry point moves positions or money of invoice `i`. -/
def DealsWith (i : ℕ) : Entry → Prop
  | .pool (.recordPosition _ j _ _ _) => j = i
  | .pool (.buyPosition _ j _) => j = i
  | .pool (.repay _ j _ _) => j = i
  | .pool (.markDefault _ j _) => j = i
  | .pool (.proposeEarlySettlement _ j _) => j = i
  | .pool (.acceptEarlySettlement _ j) => j = i
  | .pool (.cancelEarlySettlement _ j) => j = i
  | _ => False

/-- The pool, the positions and the offer of invoice `i` are the same. -/
structure SamePool (i : ℕ) (w w' : World) : Prop where
  pool : w'.pool.pool i = w.pool.pool i
  positions : w'.pool.positions i = w.pool.positions i
  offers : w'.pool.earlySettlement i = w.pool.earlySettlement i

/-- The pool of invoice `i` opens. -/
structure Opening (i : ℕ) (w w' : World) (token : Address) (face : ℤ) (bps : ℕ) : Prop where
  unopened : w.pool.pool i = none
  positive : 0 < face
  listed : w.invoiceNft.status i = some .listed
  funded : w'.invoiceNft.status i = some .funded
  pool : w'.pool.pool i = some ⟨i, token, 0, face, 0, false, bps, face, false⟩
  positions : w'.pool.positions i = w.pool.positions i
  offers : w'.pool.earlySettlement i = w.pool.earlySettlement i

/-- Who opens the pool of invoice `i`: a direct call, or the contribution that completes the
listing. -/
inductive OpenedBy (i : ℕ) (w' : World) (token : Address) : Entry → Prop
  | release (marketplace : Address) :
      OpenedBy i w' token (.pool (.releaseFunds marketplace i token))
  | funding (investor : Address) (amount : ℤ) (l : Listing) :
      w'.marketplace.listing i = some l → l.fundedAmount = l.askingPrice → token = l.token →
      OpenedBy i w' token (.marketplace (.fundInvoice investor i amount))

/-- The admin records a position of `investor`. -/
structure Recording (i : ℕ) (w w' : World) (investor : Address) (contributed total : ℤ)
    (share : ℕ) : Prop where
  positive : 0 < contributed
  floor : (share : ℤ) = contributed * 10_000 / total
  pool : w'.pool.pool i = w.pool.pool i
  positions : w'.pool.positions i =
    (w.pool.positions i).insert investor ⟨investor, i, contributed, share, 0⟩
  offers : w'.pool.earlySettlement i = w.pool.earlySettlement i
  invoiceNft : w'.invoiceNft = w.invoiceNft

/-- The position `pos` of `seller` moves to `buyer`. -/
structure Sale (i : ℕ) (w w' : World) (buyer seller : Address) (pos : Position) : Prop where
  sold : (w.pool.positions i)[seller]? = some pos
  pool : w'.pool.pool i = w.pool.pool i
  positions : w'.pool.positions i = ((w.pool.positions i).erase seller).insert buyer
    { pos with investor := buyer, invoiceId := i }
  offers : w'.pool.earlySettlement i = w.pool.earlySettlement i
  invoiceNft : w'.invoiceNft = w.invoiceNft

/-- A repayment, with the payments to investors when it closes the pool. -/
structure Repayment (env : Env) (i : ℕ) (w w' : World) (payer token : Address) (amount owed : ℤ)
    (p : Pool) (inv : Invoice) (applied : Bool) (payments : List (Address × ℤ)) : Prop where
  authenticated : env.Authenticates payer
  positive : 0 < amount
  found : w.pool.pool i = some p
  unclosed : p.isClosed = false
  invoice : w.invoiceNft.invoice i = some (.current inv)
  credited : 0 < credit w amount inv.currency
  penalty : applyLatePenalty env.timestamp inv.dueDate p =
    .ok { p with totalOwed := owed, penaltyApplied := applied }
  pool : w'.pool.pool i = some (repaidPool p owed applied (credit w amount inv.currency))
  positions : w'.pool.positions i = w.pool.positions i
  offers : w'.pool.earlySettlement i = w.pool.earlySettlement i
  tokens : w'.tokens = (w.tokens.move token payer env.net.financingPool amount).payAll token
    env.net.financingPool payments
  distribution : p.repaidAmount + credit w amount inv.currency < owed ∧ payments = [] ∧
      w'.invoiceNft = w.invoiceNft ∨
    owed ≤ p.repaidAmount + credit w amount inv.currency ∧ inv.status = .funded ∧
      w'.invoiceNft = w.invoiceNft.asRepaid i inv env.timestamp ∧ ∃ decimals,
        Payments (p.repaidAmount + credit w amount inv.currency) decimals
          (w.pool.positions i).toList payments

/-- A default, with the payments of what was repaid so far. -/
structure Default (env : Env) (i : ℕ) (w w' : World) (token : Address) (p : Pool) (inv : Invoice)
    (payments : List (Address × ℤ)) : Prop where
  found : w.pool.pool i = some p
  unclosed : p.isClosed = false
  invoice : w.invoiceNft.invoice i = some (.current inv)
  funded : inv.status = .funded
  same : SamePool i w w'
  invoiceNft : w'.invoiceNft = w.invoiceNft.asDefaulted i inv
  tokens : w'.tokens = w.tokens.payAll token env.net.financingPool payments
  distribution : 0 < p.repaidAmount ∧ (∃ decimals,
      Payments p.repaidAmount decimals (w.pool.positions i).toList payments) ∨
    p.repaidAmount ≤ 0 ∧ payments = []

/-- An early-settlement offer, with its amount in escrow. -/
structure Proposal (env : Env) (i : ℕ) (w w' : World) (sme : Address) (amount : ℤ) (p : Pool) :
    Prop where
  authenticated : env.Authenticates sme
  positive : 0 < amount
  found : w.pool.pool i = some p
  unclosed : p.isClosed = false
  free : w.pool.earlySettlement i = none
  pool : w'.pool.pool i = w.pool.pool i
  positions : w'.pool.positions i = w.pool.positions i
  offers : w'.pool.earlySettlement i = some ⟨i, amount, 0, []⟩
  invoiceNft : w'.invoiceNft = w.invoiceNft
  tokens : w'.tokens = w.tokens.move p.token sme env.net.financingPool amount

/-- What an acceptance finds. -/
structure Accepting (env : Env) (i : ℕ) (w : World) (investor : Address)
    (offer : EarlySettlementOffer) (p : Pool) (pos : Position) : Prop where
  authenticated : env.Authenticates investor
  pending : w.pool.earlySettlement i = some offer
  found : w.pool.pool i = some p
  unclosed : p.isClosed = false
  holds : (w.pool.positions i)[investor]? = some pos
  new : investor ∉ offer.accepted

/-- An acceptance that leaves the offer pending. -/
structure Acceptance (env : Env) (i : ℕ) (w w' : World) (investor : Address)
    (offer : EarlySettlementOffer) (p : Pool) (pos : Position) : Prop
    extends Accepting env i w investor offer p pos where
  partly : offer.acceptedBps + pos.shareBps < 10_000
  pool : w'.pool.pool i = w.pool.pool i
  positions : w'.pool.positions i = w.pool.positions i
  offers : w'.pool.earlySettlement i = some { offer with
    acceptedBps := offer.acceptedBps + pos.shareBps
    accepted := offer.accepted ++ [investor] }
  invoiceNft : w'.invoiceNft = w.invoiceNft
  tokens : w'.tokens = w.tokens

/-- The acceptance that settles the offer, with the payments to investors. -/
structure Settlement (env : Env) (i : ℕ) (w w' : World) (investor : Address)
    (offer : EarlySettlementOffer) (p : Pool) (pos : Position) (inv : Invoice) (decimals : ℕ)
    (payments : List (Address × ℤ)) : Prop
    extends Accepting env i w investor offer p pos where
  whole : 10_000 ≤ offer.acceptedBps + pos.shareBps
  invoice : w.invoiceNft.invoice i = some (.current inv)
  funded : inv.status = .funded
  distribution : Payments offer.amount decimals (w.pool.positions i).toList payments
  pool : w'.pool.pool i = some { p with repaidAmount := offer.amount, isClosed := true }
  positions : w'.pool.positions i = w.pool.positions i
  offers : w'.pool.earlySettlement i = none
  invoiceNft : w'.invoiceNft = w.invoiceNft.asRepaid i inv env.timestamp
  tokens : w'.tokens = w.tokens.payAll p.token env.net.financingPool payments

/-- The offer is withdrawn and its escrow paid back. -/
structure Cancellation (env : Env) (i : ℕ) (w w' : World) (sme : Address)
    (offer : EarlySettlementOffer) (p : Pool) : Prop where
  pending : w.pool.earlySettlement i = some offer
  found : w.pool.pool i = some p
  pool : w'.pool.pool i = w.pool.pool i
  positions : w'.pool.positions i = w.pool.positions i
  offers : w'.pool.earlySettlement i = none
  invoiceNft : w'.invoiceNft = w.invoiceNft
  tokens : w'.tokens = w.tokens.move p.token env.net.financingPool sme offer.amount

/-- What a successful transaction does to the pool of invoice `i`. -/
inductive Change (env : Env) (i : ℕ) (w w' : World) : Entry → Prop
  | frame (e : Entry) : ¬ DealsWith i e → SamePool i w w' → Change env i w w' e
  | opened (e : Entry) (token : Address) (face : ℤ) (bps : ℕ) : ¬ DealsWith i e →
      Opening i w w' token face bps → OpenedBy i w' token e → Change env i w w' e
  | recorded (caller investor : Address) (contributed total : ℤ) (share : ℕ) :
      Recording i w w' investor contributed total share →
      Change env i w w' (.pool (.recordPosition caller i investor contributed total))
  | sold (buyer seller : Address) (pos : Position) : Sale i w w' buyer seller pos →
      Change env i w w' (.pool (.buyPosition buyer i seller))
  | repaid (payer token : Address) (amount owed : ℤ) (p : Pool) (inv : Invoice)
      (applied : Bool) (payments : List (Address × ℤ)) :
      Repayment env i w w' payer token amount owed p inv applied payments →
      Change env i w w' (.pool (.repay payer i token amount))
  | defaulted (admin token : Address) (p : Pool) (inv : Invoice)
      (payments : List (Address × ℤ)) : Default env i w w' token p inv payments →
      Change env i w w' (.pool (.markDefault admin i token))
  | proposed (sme : Address) (amount : ℤ) (p : Pool) : Proposal env i w w' sme amount p →
      Change env i w w' (.pool (.proposeEarlySettlement sme i amount))
  | accepted (investor : Address) (offer : EarlySettlementOffer) (p : Pool) (pos : Position) :
      Acceptance env i w w' investor offer p pos →
      Change env i w w' (.pool (.acceptEarlySettlement investor i))
  | settled (investor : Address) (offer : EarlySettlementOffer) (p : Pool) (pos : Position)
      (inv : Invoice) (decimals : ℕ) (payments : List (Address × ℤ)) :
      Settlement env i w w' investor offer p pos inv decimals payments →
      Change env i w w' (.pool (.acceptEarlySettlement investor i))
  | cancelled (sme : Address) (offer : EarlySettlementOffer) (p : Pool) :
      Cancellation env i w w' sme offer p →
      Change env i w w' (.pool (.cancelEarlySettlement sme i))

/-- What a successful transaction does to the positions of invoice `i`. -/
inductive PositionChange (i : ℕ) (w w' : World) : Entry → Prop
  | kept (e : Entry) : w'.pool.positions i = w.pool.positions i → PositionChange i w w' e
  | recorded (caller investor : Address) (contributed total : ℤ) (share : ℕ) :
      Recording i w w' investor contributed total share →
      PositionChange i w w' (.pool (.recordPosition caller i investor contributed total))
  | sold (buyer seller : Address) (pos : Position) : Sale i w w' buyer seller pos →
      PositionChange i w w' (.pool (.buyPosition buyer i seller))

section Classification

variable {env : Env} {w w' : World} {u : Unit}

theorem Change.positions {i : ℕ} {e : Entry} (h : Change env i w w' e) :
    PositionChange i w w' e := by
  cases h with
  | recorded caller investor contributed total share h =>
    exact .recorded caller investor contributed total share h
  | sold buyer seller pos h => exact .sold buyer seller pos h
  | frame _ _ h => exact .kept _ h.positions
  | opened _ _ _ _ _ h => exact .kept _ h.positions
  | repaid _ _ _ _ _ _ _ _ h => exact .kept _ h.positions
  | defaulted _ _ _ _ _ h => exact .kept _ h.same.positions
  | proposed _ _ _ h => exact .kept _ h.positions
  | accepted _ _ _ _ h => exact .kept _ h.positions
  | settled _ _ _ _ _ _ _ h => exact .kept _ h.positions
  | cancelled _ _ _ h => exact .kept _ h.positions

theorem Change.opens {i : ℕ} {e : Entry} {p : Pool} (h : Change env i w w' e)
    (hnone : w.pool.pool i = none) (hp : w'.pool.pool i = some p) :
    ∃ token face bps, Opening i w w' token face bps ∧ OpenedBy i w' token e := by
  have hkept : w'.pool.pool i ≠ w.pool.pool i := by
    rw [hp, hnone]
    nofun
  have hfound : ∀ q, w.pool.pool i ≠ some q := by
    rw [hnone]
    nofun
  cases h with
  | opened _ token face bps _ h hby => exact ⟨token, face, bps, h, hby⟩
  | frame _ _ h => exact absurd h.pool hkept
  | recorded _ _ _ _ _ h => exact absurd h.pool hkept
  | sold _ _ _ h => exact absurd h.pool hkept
  | repaid _ _ _ _ p _ _ _ h => exact absurd h.found (hfound p)
  | defaulted _ _ p _ _ h => exact absurd h.found (hfound p)
  | proposed _ _ p h => exact absurd h.found (hfound p)
  | accepted _ _ _ _ h => exact absurd h.pool hkept
  | settled _ _ p _ _ _ _ h => exact absurd h.found (hfound p)
  | cancelled _ _ _ h => exact absurd h.pool hkept

theorem SamePool.of_eq {i : ℕ} (h : w'.pool = w.pool) : SamePool i w w' := by
  constructor <;> rw [h]

theorem Op.exec_change {op : Op} (h : op.exec env w = .ok u w') (i : ℕ) :
    Change env i w w' (.pool op) := by
  cases op with
  | initializeContract =>
    obtain ⟨-, rfl⟩ := initializeContract_ok h
    exact .frame _ (fun h => h) ⟨rfl, rfl, rfl⟩
  | setMaxPositionBps =>
    obtain rfl := setMaxPositionBps_ok h
    exact .frame _ (fun h => h) ⟨rfl, rfl, rfl⟩
  | listPositionForSale =>
    obtain ⟨-, _, rfl⟩ := listPositionForSale_ok h
    exact .frame _ (fun h => h) ⟨rfl, rfl, rfl⟩
  | releaseFunds marketplace j token =>
    obtain ⟨-, hnone, -, inv, bps, hinv, hst, hpos, rfl⟩ := releaseFunds_ok h
    by_cases hj : i = j
    · subst hj
      exact .opened _ token inv.amount bps (fun h => h) ⟨hnone, hpos,
        by rw [InvoiceNft.Storage.status_of_current hinv, hst], by simp,
        Function.update_self .., rfl, rfl⟩ (.release marketplace)
    · exact .frame _ (fun h => h) ⟨Function.update_of_ne hj .., rfl, rfl⟩
  | recordPosition caller j investor contributed total =>
    obtain ⟨hc, hle, share, p, hs, -, -, rfl⟩ := recordPosition_ok h
    by_cases hj : i = j
    · subst hj
      exact .recorded caller investor contributed total share
        ⟨hc, shareBpsOf_ok hc.le hs (hc.le.trans hle), rfl, Function.update_self .., rfl, rfl⟩
    · exact .frame _ (fun h => hj h.symm) ⟨rfl, Function.update_of_ne hj .., rfl⟩
  | buyPosition buyer j seller =>
    obtain ⟨-, p, pos, offers, token, price, -, -, hpos, rfl⟩ := buyPosition_ok h
    by_cases hj : i = j
    · subst hj
      exact .sold buyer seller pos ⟨hpos, rfl, Function.update_self .., rfl, rfl⟩
    · exact .frame _ (fun h => hj h.symm) ⟨rfl, Function.update_of_ne hj .., rfl⟩
  | repay payer j token amount =>
    obtain ⟨ha, hpos, p, inv, owed, applied, hp, hopen, hinv, hcredit, hlate, h⟩ := repay_ok h
    by_cases hj : i = j
    · subst hj
      rcases h with ⟨hlt, locks, rfl⟩ | ⟨hle, hst, decimals, payments, locks, hpay, rfl⟩
      · exact .repaid payer token amount owed p inv applied [] ⟨ha, hpos, hp, hopen, hinv, hcredit,
          hlate, Function.update_self .., rfl, rfl, rfl, Or.inl ⟨hlt, rfl, rfl⟩⟩
      · exact .repaid payer token amount owed p inv applied payments ⟨ha, hpos, hp, hopen, hinv,
          hcredit, hlate, Function.update_self .., rfl, rfl, rfl,
          Or.inr ⟨hle, hst, rfl, decimals, hpay⟩⟩
    · refine .frame _ (fun h => hj h.symm) ?_
      rcases h with ⟨-, locks, rfl⟩ | ⟨-, -, decimals, payments, locks, -, rfl⟩
      · exact ⟨Function.update_of_ne hj .., rfl, rfl⟩
      · exact ⟨Function.update_of_ne hj .., rfl, rfl⟩
  | markDefault admin j token =>
    obtain ⟨p, inv, hp, hopen, hinv, hst, -, decimals, payments, registry, hpay, rfl⟩ :=
      markDefault_ok h
    by_cases hj : i = j
    · subst hj
      refine .defaulted admin token p inv payments
        ⟨hp, hopen, hinv, hst, ⟨rfl, rfl, rfl⟩, rfl, rfl, ?_⟩
      exact hpay.imp_left fun hd => ⟨hd.1, decimals, hd.2⟩
    · exact .frame _ (fun h => hj h.symm) ⟨rfl, rfl, rfl⟩
  | proposeEarlySettlement sme j amount =>
    obtain ⟨ha, hpos, p, hp, hopen, hnone, rfl⟩ := proposeEarlySettlement_ok h
    by_cases hj : i = j
    · subst hj
      exact .proposed sme amount p
        ⟨ha, hpos, hp, hopen, hnone, rfl, rfl, Function.update_self .., rfl, rfl⟩
    · exact .frame _ (fun h => hj h.symm) ⟨rfl, rfl, Function.update_of_ne hj ..⟩
  | acceptEarlySettlement investor j =>
    obtain ⟨ha, offer, p, pos, ho, hp, hopen, hpos, hnot, h⟩ := acceptEarlySettlement_ok h
    by_cases hj : i = j
    · subst hj
      have hfound : Accepting env i w investor offer p pos := ⟨ha, ho, hp, hopen, hpos, hnot⟩
      rcases h with ⟨hlt, rfl⟩ | ⟨hle, inv, decimals, payments, locks, hinv, hst, hpay, rfl⟩
      · exact .accepted investor offer p pos
          ⟨hfound, hlt, rfl, rfl, Function.update_self .., rfl, rfl⟩
      · exact .settled investor offer p pos inv decimals payments ⟨hfound, hle, hinv, hst, hpay,
          Function.update_self .., rfl, Function.update_self .., rfl, rfl⟩
    · refine .frame _ (fun h => hj h.symm) ?_
      rcases h with ⟨-, rfl⟩ | ⟨-, inv, decimals, payments, locks, -, -, -, rfl⟩
      · exact ⟨rfl, rfl, Function.update_of_ne hj ..⟩
      · exact ⟨Function.update_of_ne hj .., rfl, Function.update_of_ne hj ..⟩
  | cancelEarlySettlement sme j =>
    obtain ⟨-, offer, p, ho, hp, rfl⟩ := cancelEarlySettlement_ok h
    by_cases hj : i = j
    · subst hj
      exact .cancelled sme offer p ⟨ho, hp, rfl, rfl, Function.update_self .., rfl, rfl⟩
    · exact .frame _ (fun h => hj h.symm) ⟨rfl, rfl, Function.update_of_ne hj ..⟩

theorem change_of_effect {e : Entry} (h : Effect env w w' e) (i : ℕ) : Change env i w w' e := by
  cases h with
  | peripheral e hp _ hpool =>
    refine .frame e (fun h => ?_) (.of_eq hpool)
    cases e with
    | pool op => exact hp op rfl
    | accessControl | priceOracle | treasury | riskRegistry | invoiceNft | marketplace | transfer =>
      exact h
  | invoiceNft op s _ hw => exact .frame _ (fun h => h) (.of_eq (by rw [hw]))
  | listing _ _ _ _ _ _ _ _ _ _ _ _ _ _ _ _ _ hw =>
    exact .frame _ (fun h => h) (.of_eq (by rw [hw]))
  | funding investor j amount listing config inv fee hF =>
    rcases lt_or_ge (listing.fundedAmount + amount) listing.askingPrice with hlt | hge
    · exact .frame _ (fun h => h) (.of_eq (hF.unreleased hlt).1)
    · obtain ⟨-, hnone, -, hst, hpos, bps, hpool, hnft⟩ := hF.released hge
      by_cases hj : i = j
      · subst hj
        have hlisting : w'.marketplace.listing i = some { listing with
            fundedAmount := listing.fundedAmount + amount
            isActive := decide (listing.fundedAmount + amount < listing.askingPrice) } := by
          rw [hF.marketplace]
          exact Function.update_self ..
        refine .opened _ listing.token inv.amount bps (fun h => h) ⟨hnone, hpos, ?_, ?_, ?_, ?_, ?_⟩
          (.funding investor amount _ hlisting (le_antisymm hF.within hge) rfl)
        · rw [InvoiceNft.Storage.status_of_current hF.invoice, hst]
        · rw [hnft]
          simp
        · rw [hpool]
          exact Function.update_self ..
        · rw [hpool]
        · rw [hpool]
      · refine .frame _ (fun h => h) ⟨?_, ?_, ?_⟩
        · rw [hpool]
          exact Function.update_of_ne hj ..
        · rw [hpool]
        · rw [hpool]
  | market op _ _ hpool => exact .frame _ (fun h => h) (.of_eq hpool)
  | pool op hop => exact Op.exec_change hop i

/-- **A step** is a transaction with one of these effects, or leaves everything but the clock
alone. -/
theorem step_change (d : Deployment) (w : World) (a : Action) (i : ℕ) :
    (∃ c, a = .call c ∧ c.Succeeds d w ∧ Change (c.env d w) i w (step d w a) c.entry) ∨
      (∀ c, a = .call c → ¬ c.Succeeds d w) ∧ ∃ n, step d w a = { w with now := n } := by
  rcases step_cases d w a with ⟨c, rfl, hs, h⟩ | ⟨n, rfl, h⟩ | ⟨c, rfl, hn, h⟩
  · exact Or.inl ⟨c, rfl, hs, change_of_effect (Entry.exec_effect h) i⟩
  · exact Or.inr ⟨nofun, _, h⟩
  · refine Or.inr ⟨?_, w.now, h⟩
    rintro _ ⟨⟩
    exact hn

theorem performed_change (d : Deployment) (w : World) (a : Action) (i : ℕ) :
    (∃ env e, performed d w a = some (env, e) ∧ env.net = d ∧ Change env i w (step d w a) e) ∨
      performed d w a = none ∧ ∃ n, step d w a = { w with now := n } := by
  rcases step_performed d w a with ⟨env, e, hp, hnet, h⟩ | h
  · exact Or.inl ⟨env, e, hp, hnet, change_of_effect (Entry.exec_effect h) i⟩
  · exact Or.inr h

end Classification

end Kora.FinancingPool
