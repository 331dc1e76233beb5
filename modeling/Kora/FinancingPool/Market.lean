import Kora.FinancingPool.Change
import Kora.FinancingPool.Errors

set_option autoImplicit false

/-!
# The market of positions

The admin records positions within the concentration cap; a holder offers a position for sale, and a
sale moves it to the buyer and uses the offer up.

* `Market`, `Market.Step`: the cap, the positions and the offers, and how they change;
* `Market.Step.capped`, `Market.Step.backed`: the cap bounds the shares, and offers have positions;
* **`market_step`**: one step of the system is one step of the market;
* **`concentration_capped`**, **`offers_backed`**: both in every run.
-/

namespace Kora.FinancingPool

open Exec Run

/-- The concentration cap, the positions of the invoices and the offers on them. -/
structure Market where
  admin : Option Address
  cap : Option ℕ
  positions : ℕ → FinMap Address Position
  offers : ℕ → Address → Option PositionSaleOffer

namespace Market

variable {M M' : Market}

/-- A change of the market. -/
inductive Step (M : Market) : Market → Prop
  | idle : Step M M
  | configured (admin : Address) (cap : ℕ) :
      Step M { M with admin := some admin, cap := some cap }
  | capSet (cap : ℕ) : Step M { M with cap := some cap }
  /-- The admin records a position within the cap. -/
  | recorded (i : ℕ) (investor : Address) (p : Position) : M.admin.isSome = true →
      p.shareBps ≤ M.cap.getD 5_000 →
      Step M { M with
        positions := Function.update M.positions i ((M.positions i).insert investor p) }
  /-- A holder offers its position. -/
  | offered (i : ℕ) (seller : Address) (offer : PositionSaleOffer) :
      (M.positions i)[seller]?.isSome = true →
      Step M { M with
        offers := Function.update M.offers i
          (Function.update (M.offers i) seller (some offer)) }
  /-- A position moves to the buyer, over any position the buyer had. -/
  | sold (i : ℕ) (buyer seller : Address) (pos p : Position) :
      (M.positions i)[seller]? = some pos → p.shareBps = pos.shareBps →
      Step M { M with
        positions := Function.update M.positions i
          (((M.positions i).erase seller).insert buyer p)
        offers := Function.update M.offers i (Function.update (M.offers i) seller none) }

/-! ## The cap -/

/-- No position has a share above the cap. -/
structure Capped (M : Market) : Prop where
  configured : M.admin.isSome = true → M.cap.isSome = true
  within : ∀ (i : ℕ) (investor : Address) (p : Position),
    (M.positions i)[investor]? = some p → p.shareBps ≤ M.cap.getD 0

theorem position_cases {positions : ℕ → FinMap Address Position} {i j : ℕ} {x y : Address}
    {p q : Position} {m : FinMap Address Position}
    (hm : ∀ (x : Address) (q : Position), m[x]? = some q → (positions i)[x]? = some q)
    (h : (Function.update positions i (m.insert y p) j)[x]? = some q) :
    q = p ∨ (positions j)[x]? = some q := by
  by_cases hj : j = i
  · subst hj
    rw [Function.update_self, FinMap.getElem?_insert'] at h
    split_ifs at h
    · exact Or.inl (Option.some.inj h).symm
    · exact Or.inr (hm x q h)
  · rw [Function.update_of_ne hj] at h
    exact Or.inr h

theorem erase_subset {m : FinMap Address Position} {seller x : Address} {q : Position}
    (h : (m.erase seller)[x]? = some q) : m[x]? = some q := by
  rw [FinMap.getElem?_erase'] at h
  split_ifs at h
  exact h

/-- **The cap bounds the shares** as long as it is not lowered. -/
theorem Step.capped (h : Step M M') (hM : M.Capped) (hcap : M.cap.getD 0 ≤ M'.cap.getD 0) :
    M'.Capped := by
  cases h with
  | idle => exact hM
  | configured admin cap =>
    exact ⟨fun _ => rfl, fun i x p hp => (hM.within i x p hp).trans hcap⟩
  | capSet cap => exact ⟨fun _ => rfl, fun i x p hp => (hM.within i x p hp).trans hcap⟩
  | recorded i investor p hadmin hle =>
    refine ⟨hM.configured, fun j x q hq => ?_⟩
    obtain ⟨cap, hset⟩ := Option.isSome_iff_exists.mp (hM.configured hadmin)
    rcases position_cases (fun _ _ h => h) hq with rfl | hold
    · change q.shareBps ≤ M.cap.getD 0
      rw [hset] at hle ⊢
      exact hle
    · exact hM.within j x q hold
  | offered i seller offer hpos => exact ⟨hM.configured, hM.within⟩
  | sold i buyer seller pos p hpos hshare =>
    refine ⟨hM.configured, fun j x q hq => ?_⟩
    rcases position_cases (fun _ _ => erase_subset) hq with rfl | hold
    · rw [hshare]
      exact hM.within i seller pos hpos
    · exact hM.within j x q hold

/-! ## Offers -/

/-- Every offer is of a position that the seller holds. -/
def Backed (M : Market) : Prop := ∀ i seller offer, M.offers i seller = some offer →
  (M.positions i)[seller]?.isSome = true

theorem isSome_insert {m : FinMap Address Position} {x y : Address} {p : Position}
    (h : x = y ∨ m[x]?.isSome = true) : (m.insert y p)[x]?.isSome = true := by
  rw [FinMap.getElem?_insert']
  split_ifs with hy
  · rfl
  · exact h.resolve_left fun hxy => hy hxy.symm

/-- **Offers stay backed**: only a sale takes a position from its holder, with the offer on it. -/
theorem Step.backed (h : Step M M') (hM : M.Backed) : M'.Backed := by
  cases h with
  | idle | configured | capSet => exact hM
  | recorded i investor p =>
    intro j x offer hoffer
    have hx : (M.positions j)[x]?.isSome = true := hM j x offer hoffer
    by_cases hj : j = i
    · subst hj
      simp only [Function.update_self]
      exact isSome_insert (Or.inr hx)
    · simpa only [Function.update_of_ne hj] using hx
  | offered i seller new hpos =>
    intro j x offer hoffer
    change Function.update M.offers i (Function.update (M.offers i) seller (some new)) j x =
      some offer at hoffer
    by_cases hj : j = i
    · subst hj
      rw [Function.update_self] at hoffer
      by_cases hx : x = seller
      · exact hx ▸ hpos
      · rw [Function.update_of_ne hx] at hoffer
        exact hM j x offer hoffer
    · rw [Function.update_of_ne hj] at hoffer
      exact hM j x offer hoffer
  | sold i buyer seller pos p =>
    intro j x offer hoffer
    change Function.update M.offers i (Function.update (M.offers i) seller none) j x =
      some offer at hoffer
    by_cases hj : j = i
    · subst hj
      rw [Function.update_self] at hoffer
      -- the offer of the seller is gone, so this one is of somebody else
      have hx : x ≠ seller := by
        rintro rfl
        rw [Function.update_self] at hoffer
        cases hoffer
      rw [Function.update_of_ne hx] at hoffer
      simp only [Function.update_self]
      refine isSome_insert (Or.inr ?_)
      rw [FinMap.getElem?_erase', if_neg (Ne.symm hx)]
      exact hM j x offer hoffer
    · rw [Function.update_of_ne hj] at hoffer
      simpa only [Function.update_of_ne hj] using hM j x offer hoffer

end Market

/-! ## The contract -/

section Contract

variable {env : Env} {w w' : World} {u : Unit}

/-- The market in the storage of the contract. -/
def Storage.market (S : Storage) : Market := ⟨S.admin, S.maxPositionBps, S.positions, S.saleOffer⟩

theorem Op.exec_market {op : Op} (h : op.exec env w = .ok u w') :
    Market.Step w.pool.market w'.pool.market := by
  cases op with
  | initializeContract admin _ _ _ _ _ _ cap =>
    obtain ⟨-, rfl⟩ := initializeContract_ok h
    exact .configured admin cap
  | setMaxPositionBps _ cap =>
    obtain rfl := setMaxPositionBps_ok h
    exact .capSet cap
  | recordPosition caller i investor contributed total =>
    obtain ⟨hadmin, -, share, p, -, hcap, -, -, rfl⟩ := recordPosition_records h
    exact .recorded i investor ⟨investor, i, contributed, share, 0⟩
      (Option.isSome_iff_exists.mpr ⟨caller, hadmin⟩) hcap
  | listPositionForSale seller i token price =>
    obtain ⟨-, hpos, -, rfl⟩ := listPositionForSale_offers h
    exact .offered i seller ⟨seller, i, token, price⟩ hpos
  | buyPosition buyer i seller =>
    obtain ⟨-, p, pos, offer, -, -, -, hpos, -, rfl⟩ := buyPosition_sells h
    exact .sold i buyer seller pos _ hpos rfl
  | releaseFunds =>
    obtain ⟨-, -, -, _, _, -, -, -, rfl⟩ := releaseFunds_ok h
    exact .idle
  | repay =>
    obtain ⟨-, -, _, _, _, _, -, -, -, -, -, ⟨-, _, rfl⟩ | ⟨-, -, _, _, _, -, rfl⟩⟩ := repay_ok h
    · exact .idle
    · exact .idle
  | markDefault =>
    obtain ⟨_, _, -, -, -, -, -, _, _, _, -, rfl⟩ := markDefault_ok h
    exact .idle
  | proposeEarlySettlement =>
    obtain ⟨-, -, _, -, -, -, rfl⟩ := proposeEarlySettlement_ok h
    exact .idle
  | acceptEarlySettlement =>
    obtain ⟨-, _, _, _, -, -, -, -, -, ⟨-, rfl⟩ | ⟨-, _, _, _, _, -, -, -, rfl⟩⟩ :=
      acceptEarlySettlement_ok h
    · exact .idle
    · exact .idle
  | cancelEarlySettlement =>
    obtain ⟨-, _, _, -, -, rfl⟩ := cancelEarlySettlement_ok h
    exact .idle

theorem Market.step_of_same (h : w'.pool.market = w.pool.market) :
    Market.Step w.pool.market w'.pool.market := by
  rw [h]
  exact .idle

/-- **One step of the system is one step of the market.** -/
theorem market_step (d : Deployment) (w : World) (a : Action) :
    Market.Step w.pool.market (step d w a).pool.market := by
  rcases step_performed d w a with ⟨env, e, -, -, h⟩ | ⟨-, n, h⟩
  · cases Entry.exec_effect h with
    | peripheral _ _ _ hpool => exact Market.step_of_same (by rw [hpool])
    | invoiceNft op s _ hw => exact Market.step_of_same (by rw [hw])
    | pool op hop => exact Op.exec_market hop
    | listing _ _ _ _ _ _ _ _ _ _ _ _ _ _ _ _ _ hw => exact Market.step_of_same (by rw [hw])
    | funding investor i amount listing config inv fee hF =>
      rcases lt_or_ge (listing.fundedAmount + amount) listing.askingPrice with hlt | hge
      · exact Market.step_of_same (by rw [(hF.unreleased hlt).1])
      · obtain ⟨-, -, -, -, -, bps, hpool, -⟩ := hF.released hge
        exact Market.step_of_same (by rw [hpool]; rfl)
    | market op _ _ hpool => exact Market.step_of_same (by rw [hpool])
  · exact Market.step_of_same (by rw [h])

/-- A purchase fails to find the position of an offer where the seller holds none. -/
theorem buyPosition_notFound {buyer seller : Address} {i : ℕ}
    (h : buyPosition buyer i seller env w = .error (.contract .positionNotFound) w') :
    ∃ offer, w.pool.saleOffer i seller = some offer ∧ (w.pool.positions i)[seller]? = none := by
  rw [buyPosition, requireAuth_seq_returns] at h
  obtain ⟨-, h⟩ := h
  rcases requireNotPaused_seq_returns h with ⟨-, he | he⟩ | ⟨-, h⟩
  · cases he
  · cases he
  simp only [fetch_seq_error, loadPool_seq_error, ensure_seq_error, gets_run] at h
  rcases h with ⟨-, he, -⟩ | ⟨offer, hoffer, ⟨-, he, -⟩ | ⟨p, -, ⟨-, he, -⟩ |
    ⟨-, ⟨hnone, -, -⟩ | ⟨pos, -, h⟩⟩⟩⟩
  · cases he
  · cases he
  · cases he
  · exact ⟨offer, hoffer, hnone⟩
  · -- what follows is the payment, which traps when it fails
    simp only [modifyOwn, modify_run, net_run] at h
    exact (traps_callToken _ _ _ _ h).elim

end Contract

/-! ## Runs -/

/-- The cap as the contract reads it. -/
def Storage.positionCap (S : Storage) : ℕ := S.maxPositionBps.getD 5_000

/-- The step does not lower the cap, once there is one. -/
def KeepsCap (d : Deployment) (w : World) (a : Action) : Prop :=
  w.pool.maxPositionBps.getD 0 ≤ (step d w a).pool.maxPositionBps.getD 0

instance (d : Deployment) (w : World) (a : Action) : Decidable (KeepsCap d w a) := by
  unfold KeepsCap
  infer_instance

/-- **The concentration cap holds**: in every run that never lowers the cap, every position of every
pool has a share of at most the cap, whoever recorded, sold and bought positions in whatever
order. -/
theorem concentration_capped (d : Deployment) (start : ℕ) (tokens : Tokens) (as : List Action)
    (hcap : Along (step d) (KeepsCap d) (genesis start tokens) as) (i : ℕ) (investor : Address)
    (p : Position)
    (hp : ((run (step d) (genesis start tokens) as).pool.positions i)[investor]? = some p) :
    p.shareBps ≤ (run (step d) (genesis start tokens) as).pool.positionCap := by
  have hgenesis : (genesis start tokens).pool.market.Capped := by
    refine ⟨nofun, ?_⟩
    rintro _ _ _ ⟨⟩
  have hrun : (run (step d) (genesis start tokens) as).pool.market.Capped :=
    invariant (I := fun w : World => w.pool.market.Capped)
      (fun w a hw hkeeps => (market_step d w a).capped hw hkeeps) hgenesis hcap
  refine (hrun.within i investor p hp).trans ?_
  change (run (step d) (genesis start tokens) as).pool.maxPositionBps.getD 0 ≤
    (run (step d) (genesis start tokens) as).pool.maxPositionBps.getD 5_000
  cases (run (step d) (genesis start tokens) as).pool.maxPositionBps with
  | none => exact Nat.zero_le _
  | some cap => exact le_rfl

/-- Investor `4` sells its position to investor `3`, who has one of `5_000`. -/
def resold : List Action := sampleFunding "USDC" ++ [
  signed 1 (.pool (.recordPosition 1 1 3 5_000 9_000)),
  signed 1 (.pool (.recordPosition 1 1 4 4_000 9_000)),
  signed 4 (.pool (.listPositionForSale 4 1 50 4_000)),
  signed 3 (.pool (.buyPosition 3 1 4))]

theorem concentration_capped_resold :
    4_444 ≤ (run (step sample) sampleGenesis resold).pool.positionCap :=
  concentration_capped sample 0 sampleTokens resold (by decide +kernel) 1 3 ⟨3, 1, 4_000, 4_444, 0⟩
    (by decide +kernel)

/-- **Sale offers are backed**: in every run the seller of every offer holds a position of the
invoice, so no purchase fails for want of it. -/
theorem offers_backed (d : Deployment) (start : ℕ) (tokens : Tokens) (as : List Action) :
    (∀ i seller offer,
      (run (step d) (genesis start tokens) as).pool.saleOffer i seller = some offer →
        ∃ p, ((run (step d) (genesis start tokens) as).pool.positions i)[seller]? = some p) ∧
    ∀ env buyer i seller w',
      buyPosition buyer i seller env (run (step d) (genesis start tokens) as) ≠
        .error (.contract .positionNotFound) w' := by
  have hgenesis : (genesis start tokens).pool.market.Backed := by
    rintro _ _ _ ⟨⟩
  have hrun : (run (step d) (genesis start tokens) as).pool.market.Backed :=
    always (I := fun w : World => w.pool.market.Backed)
      (fun w a hw => (market_step d w a).backed hw) hgenesis as
  have hbacked : ∀ i seller offer,
      (run (step d) (genesis start tokens) as).pool.saleOffer i seller = some offer →
        ∃ p, ((run (step d) (genesis start tokens) as).pool.positions i)[seller]? = some p :=
    fun i seller offer hoffer => Option.isSome_iff_exists.mp (hrun i seller offer hoffer)
  refine ⟨hbacked, ?_⟩
  intro env buyer i seller w' h
  obtain ⟨offer, hoffer, hnone⟩ := buyPosition_notFound h
  obtain ⟨p, hp⟩ := hbacked i seller offer hoffer
  rw [hnone] at hp
  cases hp

end Kora.FinancingPool
