import Kora.FinancingPool.Change
import Kora.System.Custody

set_option autoImplicit false

/-!
# Title to positions

A position changes hands by the record of the admin, or by a sale at the price its holder asked.

* `OfferChange`, **`Entry.exec_offer`**: what a successful entry point does to a sale offer;
* `Asked`, **`asked_of_offer`**: every offer goes back to the last listing of its seller, who
  signed it, and nobody has taken it since;
* **`title`**: how a position changes, in every run.
-/

namespace Kora

open Exec Run

/-! ## Statement -/

/-- The entry point buys the position of `seller` in the pool of invoice `i`, or lists it. -/
def Entry.Trades (i : ℕ) (seller : Address) : Entry → Prop
  | .pool (.buyPosition _ j s) | .pool (.listPositionForSale s j _ _) => j = i ∧ s = seller
  | _ => False

/-- The action buys the position of `seller` in the pool of invoice `i`, or lists it. -/
def Trades (d : Deployment) (i : ℕ) (seller : Address) (w : World) (a : Action) : Prop :=
  ∃ env e, performed d w a = some (env, e) ∧ e.Trades i seller

/-- In the run `as`, `seller` last listed its position at the price of `offer`, and nobody has
bought it since. -/
def Asked (d : Deployment) (i : ℕ) (w : World) (as : List Action) (seller : Address)
    (offer : PositionSaleOffer) : Prop :=
  ∃ bs c cs, as = bs ++ .call c :: cs ∧ c.Succeeds d (run (step d) w bs) ∧ seller ∈ c.signers ∧
    c.entry = .pool (.listPositionForSale seller i offer.token offer.price) ∧ 0 < offer.price ∧
    Along (step d) (fun w a => ¬ Trades d i seller w a) (run (step d) w (bs ++ [.call c])) cs

/-- How the position of `x` in the pool of invoice `i` changes. -/
inductive TitleChange (i : ℕ) (x : Address) (asked : Address → PositionSaleOffer → Prop)
    (w w' : World) (c : Call) : Prop
  /-- The admin records it. -/
  | recorded (admin : Address) (contributed total : ℤ) (share : ℕ) : admin ∈ c.signers →
      w.pool.admin = some admin → c.entry = .pool (.recordPosition admin i x contributed total) →
      (w'.pool.positions i)[x]? = some ⟨x, i, contributed, share, 0⟩ → TitleChange i x asked w w' c
  /-- `x` buys a position, at the price its holder asked. -/
  | bought (seller : Address) (offer : PositionSaleOffer) (pos : Position) : x ∈ c.signers →
      c.entry = .pool (.buyPosition x i seller) → asked seller offer →
      (w.pool.positions i)[seller]? = some pos →
      (w'.pool.positions i)[x]? = some { pos with investor := x, invoiceId := i } →
      newTransfers w w' = [⟨offer.token, x, seller, offer.price⟩] → TitleChange i x asked w w' c
  /-- The position of `x` is bought, at the price that `x` asked. -/
  | sold (buyer : Address) (offer : PositionSaleOffer) : buyer ∈ c.signers →
      c.entry = .pool (.buyPosition buyer i x) → asked x offer →
      (w'.pool.positions i)[x]? = none →
      newTransfers w w' = [⟨offer.token, buyer, x, offer.price⟩] → TitleChange i x asked w w' c

/-! ## Offers -/

section Offers

variable {env : Env} {w w' : World} {u : Unit} {e : Entry} {i : ℕ} {seller : Address}

/-- What an entry point does to the offer of `seller` for its position in the pool of `i`. -/
inductive OfferChange (env : Env) (i : ℕ) (seller : Address) (w w' : World) : Entry → Prop
  | kept (e : Entry) : ¬ e.Trades i seller →
      w'.pool.saleOffer i seller = w.pool.saleOffer i seller → OfferChange env i seller w w' e
  | listed (token : Address) (price : ℤ) : env.Authenticates seller → 0 < price →
      w'.pool.saleOffer i seller = some ⟨seller, i, token, price⟩ →
      OfferChange env i seller w w' (.pool (.listPositionForSale seller i token price))
  | used (buyer : Address) : w'.pool.saleOffer i seller = none →
      OfferChange env i seller w w' (.pool (.buyPosition buyer i seller))

theorem Entry.not_trades (hne : ∀ op, e ≠ .pool op) : ¬ e.Trades i seller := by
  cases e with
  | pool op => exact absurd rfl (hne op)
  | accessControl | priceOracle | treasury | riskRegistry | invoiceNft | marketplace
  | transfer => exact id

theorem OfferChange.of_same (hne : ¬ e.Trades i seller)
    (h : w'.pool.saleOffer = w.pool.saleOffer) : OfferChange env i seller w w' e :=
  .kept e hne (by rw [h])

theorem FinancingPool.listPositionForSale_price {token : Address} {price : ℤ}
    (h : listPositionForSale seller i token price env w = .ok u w') : 0 < price := by
  simp only [listPositionForSale, requireAuth_seq_ok, requireNotPaused_seq_ok, ensure_seq_ok] at h
  exact h.2.2.2.1

theorem FinancingPool.recordPosition_auth {caller investor : Address} {contributed total : ℤ}
    (h : recordPosition caller i investor contributed total env w = .ok u w') :
    env.Authenticates caller := by
  simp only [recordPosition, requireAuth_seq_ok] at h
  exact h.1

theorem FinancingPool.Op.exec_offer {op : FinancingPool.Op} (h : op.exec env w = .ok u w')
    (i : ℕ) (seller : Address) : OfferChange env i seller w w' (.pool op) := by
  cases op with
  | initializeContract =>
    obtain ⟨-, rfl⟩ := initializeContract_ok h
    exact .of_same id rfl
  | setMaxPositionBps =>
    obtain rfl := setMaxPositionBps_ok h
    exact .of_same id rfl
  | releaseFunds =>
    obtain ⟨-, -, -, _, _, -, -, -, rfl⟩ := releaseFunds_ok h
    exact .of_same id rfl
  | recordPosition =>
    obtain ⟨-, -, _, _, -, -, -, rfl⟩ := recordPosition_ok h
    exact .of_same id rfl
  | listPositionForSale s j token price =>
    have hprice := listPositionForSale_price h
    obtain ⟨ha, -, -, rfl⟩ := listPositionForSale_offers h
    by_cases hj : i = j
    · subst hj
      by_cases hs : seller = s
      · subst hs
        exact .listed token price ha hprice (by simp)
      · exact .kept _ (fun htrades => hs htrades.2.symm) (by simp [hs])
    · exact .kept _ (fun htrades => hj htrades.1.symm) (by simp [hj])
  | buyPosition buyer j s =>
    obtain ⟨-, _, _, _, -, -, -, -, -, rfl⟩ := buyPosition_sells h
    by_cases hj : i = j
    · subst hj
      by_cases hs : seller = s
      · subst hs
        exact .used buyer (by simp)
      · exact .kept _ (fun htrades => hs htrades.2.symm) (by simp [hs])
    · exact .kept _ (fun htrades => hj htrades.1.symm) (by simp [hj])
  | repay =>
    obtain ⟨-, -, _, _, _, _, -, -, -, -, -, ⟨-, _, rfl⟩ | ⟨-, -, _, _, _, -, rfl⟩⟩ := repay_ok h
    · exact .of_same id rfl
    · exact .of_same id rfl
  | markDefault =>
    obtain ⟨_, _, -, -, -, -, -, _, _, _, -, rfl⟩ := markDefault_ok h
    exact .of_same id rfl
  | proposeEarlySettlement =>
    obtain ⟨-, -, _, -, -, -, rfl⟩ := proposeEarlySettlement_ok h
    exact .of_same id rfl
  | acceptEarlySettlement =>
    obtain ⟨-, _, _, _, -, -, -, -, -, ⟨-, rfl⟩ | ⟨-, _, _, _, _, -, -, -, rfl⟩⟩ :=
      acceptEarlySettlement_ok h
    · exact .of_same id rfl
    · exact .of_same id rfl
  | cancelEarlySettlement =>
    obtain ⟨-, _, _, -, -, rfl⟩ := cancelEarlySettlement_ok h
    exact .of_same id rfl

/-- **Offers change by listings and purchases alone.** -/
theorem Entry.exec_offer (h : e.exec env w = .ok () w') (i : ℕ) (seller : Address) :
    OfferChange env i seller w w' e := by
  cases Entry.exec_effect h with
  | peripheral _ hne _ hpool => exact .of_same (Entry.not_trades hne) (by rw [hpool])
  | invoiceNft op s _ hw => exact .of_same id (by rw [hw])
  | pool op hop => exact FinancingPool.Op.exec_offer hop i seller
  | listing _ _ _ _ _ _ _ _ _ _ _ _ _ _ _ _ _ hw => exact .of_same id (by rw [hw])
  | funding investor j amount l config inv fee hF =>
    refine .of_same id ?_
    rcases lt_or_ge (l.fundedAmount + amount) l.askingPrice with hlt | hge
    · rw [(hF.unreleased hlt).1]
    · obtain ⟨-, -, -, -, -, _, hpool, -⟩ := hF.released hge
      rw [hpool]
  | market op _ _ hpool => exact .of_same id (by rw [hpool])

end Offers

/-! ## Runs -/

section Runs

variable {d : Deployment} {w : World} {as : List Action} {i : ℕ} {seller : Address}
  {offer : PositionSaleOffer}

theorem Asked.of_since (h : Since
    (fun bs a => ∃ c, a = .call c ∧ c.Succeeds d (run (step d) w bs) ∧ seller ∈ c.signers ∧
      c.entry = .pool (.listPositionForSale seller i offer.token offer.price) ∧ 0 < offer.price)
    (fun bs a => Trades d i seller (run (step d) w bs) a) as) : Asked d i w as seller offer := by
  obtain ⟨bs, a, cs, rfl, ⟨c, rfl, hs, hsigned, he, hprice⟩, hkept⟩ := h
  refine ⟨bs, c, cs, rfl, hs, hsigned, he, hprice, along_iff_forall.mpr fun ds b hds => ?_⟩
  rw [← run_append, List.append_assoc, List.singleton_append]
  exact hkept ds b hds

theorem not_trades_of_entry {c : Call} (h : ¬ c.entry.Trades i seller) :
    ¬ Trades d i seller w (.call c) := by
  rintro ⟨env, e, hp, htrades⟩
  obtain ⟨_, ⟨⟩, -, rfl, -⟩ := performed_call hp
  exact h htrades

/-- **Every offer was asked for.** -/
theorem asked_of_offer (d : Deployment) (now : ℕ) (tokens : Tokens) (as : List Action) (i : ℕ)
    (seller : Address) : ∀ offer,
      (run (step d) (genesis now tokens) as).pool.saleOffer i seller = some offer →
      Asked d i (genesis now tokens) as seller offer := by
  intro offer hoffer
  refine .of_since (since_of_holds
    (Q := fun as => (run (step d) (genesis now tokens) as).pool.saleOffer i seller = some offer)
    nofun (fun as a h => ?_) hoffer)
  rw [run_append, run_cons, run_nil] at h
  rcases step_cases d (run (step d) (genesis now tokens) as) a with
    ⟨c, rfl, hs, hexec⟩ | ⟨n, rfl, hw⟩ | ⟨c, rfl, hn, hw⟩
  · have hchange := Entry.exec_offer hexec i seller
    generalize he : c.entry = e at hchange
    cases hchange with
    | kept _ hne hkept =>
      rw [hkept] at h
      exact Or.inr ⟨h, not_trades_of_entry (by rw [he]; exact hne)⟩
    | listed token price ha hprice hlisted =>
      obtain rfl := Option.some.inj (hlisted.symm.trans h)
      exact Or.inl ⟨c, rfl, hs, Call.signed ha, he, hprice⟩
    | used buyer hused =>
      rw [hused] at h
      cases h
  · rw [hw] at h
    refine Or.inr ⟨h, ?_⟩
    rintro ⟨env, e, hp, -⟩
    cases hp
  · rw [hw] at h
    refine Or.inr ⟨h, ?_⟩
    rintro ⟨env, e, hp, -⟩
    rw [performed, if_neg hn] at hp
    cases hp

theorem FinancingPool.titleChange {c : Call} {w' : World} {x : Address}
    {asked : Address → PositionSaleOffer → Prop}
    (h : c.entry.exec (c.env d w) w = .ok () w')
    (hasked : ∀ seller offer, w.pool.saleOffer i seller = some offer → asked seller offer) :
    (w'.pool.positions i)[x]? = (w.pool.positions i)[x]? ∨ TitleChange i x asked w w' c := by
  have hchange := (change_of_effect (Entry.exec_effect h) i).positions
  generalize he : c.entry = e at h hchange
  cases hchange with
  | kept _ hkept => exact Or.inl (by rw [hkept])
  | recorded caller investor contributed total share hr =>
    rw [hr.positions, FinMap.getElem?_insert']
    split_ifs with hx
    · subst hx
      refine Or.inr (.recorded caller contributed total share ?_ (recordPosition_records h).1 he ?_)
      · exact Call.signed (recordPosition_auth h)
      · rw [hr.positions, FinMap.getElem?_insert', if_pos rfl]
    · exact Or.inl rfl
  | sold buyer seller pos hsale =>
    obtain ⟨hbuyer, _, pos', offer, hoffer, -, -, hpos, -, rfl⟩ := buyPosition_sells h
    obtain rfl : pos = pos' := Option.some.inj (hsale.sold.symm.trans hpos)
    have hsigned := Call.signed hbuyer
    rw [hsale.positions, FinMap.getElem?_insert', FinMap.getElem?_erase']
    split_ifs with hx hx'
    · subst hx
      refine Or.inr (.bought seller offer pos hsigned he (hasked _ _ hoffer) hpos ?_
        (newTransfers_of_move rfl))
      rw [hsale.positions, FinMap.getElem?_insert', if_pos rfl]
    · subst hx'
      refine Or.inr (.sold buyer offer hsigned he (hasked _ _ hoffer) ?_ (newTransfers_of_move rfl))
      rw [hsale.positions, FinMap.getElem?_insert', if_neg hx, FinMap.getElem?_erase', if_pos rfl]
    · exact Or.inl rfl

/-- **Title to a position passes by consent or by record.** In every run, a position changes only
when the admin of the pool records it, or in a sale that the buyer signs, at the price that the
seller last asked for under its own signature, paid to the seller and to nobody else. -/
theorem title (d : Deployment) (now : ℕ) (tokens : Tokens) (as : List Action) (a : Action) (i : ℕ)
    (x : Address) :
    ((run (step d) (genesis now tokens) (as ++ [a])).pool.positions i)[x]? =
        ((run (step d) (genesis now tokens) as).pool.positions i)[x]? ∨
      ∃ c, a = .call c ∧ TitleChange i x (Asked d i (genesis now tokens) as)
        (run (step d) (genesis now tokens) as)
        (run (step d) (genesis now tokens) (as ++ [a])) c := by
  rw [run_append, run_cons, run_nil]
  rcases step_cases d (run (step d) (genesis now tokens) as) a with
    ⟨c, rfl, -, h⟩ | ⟨n, rfl, h⟩ | ⟨c, rfl, -, h⟩
  · exact (FinancingPool.titleChange h (asked_of_offer d now tokens as i)).imp_right
      fun hchange => ⟨c, rfl, hchange⟩
  · rw [h]
    exact Or.inl rfl
  · rw [h]
    exact Or.inl rfl

end Runs

end Kora
