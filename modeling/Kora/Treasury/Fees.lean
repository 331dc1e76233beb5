import Kora.Lib.CashBook
import Kora.Marketplace.Accounting
import Kora.System.Purse

set_option autoImplicit false

/-!
# The fee ledger of the treasury

`collect_fee` takes anybody's word for a payment, `withdraw` may take more than what is on the
ledger, and `emergency_withdraw` leaves the ledger as it is.

* `collectedOf`, `feesIn`, `withdrawnIn`: the ledger of a token, its fees and its withdrawals;
* `Accounts`: the transactions that leave the ledger right;
* `cashBook_step`: one step of the system is a step of a cash book;
* **`fees_reconciled_iff`**: the ledger is right all along a run exactly when every transaction
  leaves it right.
-/

namespace Kora.Treasury

open Exec Run

/-! ## Statement -/

/-- The fee ledger of a token. -/
def collectedOf (w : World) (token : Address) : ℤ := (w.treasury.collected token).getD 0

/-- The fee of a successful contribution in `token`. -/
def feesIn (d : Deployment) (token : Address) (w : World) : Action → ℤ
  | .call c => match c.entry with
    | .marketplace (.fundInvoice _ i amount) =>
      if c.Succeeds d w ∧ (w.marketplace.listing i).map Listing.token = some token then
        Marketplace.feeOf w i amount
      else 0
    | _ => 0
  | .tick _ => 0

/-- What a withdrawal takes out of the treasury in `token`. -/
def withdrawnIn (d : Deployment) (token : Address) (w : World) : Action → ℤ
  | .call c => match c.entry with
    | .treasury (.withdraw _ t _ amount) => if c.Succeeds d w ∧ t = token then amount else 0
    | .treasury (.emergencyWithdraw _ t _) =>
      if c.Succeeds d w ∧ t = token then max 0 (w.tokens.balance token d.treasury) else 0
    | _ => 0
  | .tick _ => 0

/-- Fees and withdrawals in `token`. -/
def feesAndWithdrawals (d : Deployment) (token : Address) (w : World) (a : Action) : ℤ × ℤ :=
  (feesIn d token w a, withdrawnIn d token w a)

/-- A successful transaction that leaves the ledger of `token` right, given the fees and the
withdrawals so far: a direct call of `collect_fee` comes after a withdrawal and stays within the
balance, a withdrawal stays within the ledger, and no token with fees on the ledger is drained. -/
def Accounts (d : Deployment) (token : Address) (p : World × (ℤ × ℤ)) : Action → Prop
  | .call c => c.Succeeds d p.1 → match c.entry with
    | .treasury (.collectFee t amount) => t = token → p.2.2 ≠ 0 ∧
        collectedOf p.1 token + amount ≤ p.1.tokens.balance token d.treasury
    | .treasury (.withdraw _ t _ amount) => t = token →
        p.1.treasury.collected token = none ∨ amount ≤ collectedOf p.1 token
    | .treasury (.emergencyWithdraw _ t recipient) => t = token →
        collectedOf p.1 token = 0 ∨ recipient = d.treasury
    | _ => True
  | .tick _ => True

instance (d : Deployment) (token : Address) (p : World × (ℤ × ℤ)) (a : Action) :
    Decidable (Accounts d token p a) := by
  unfold Accounts
  repeat' split
  all_goals infer_instance

/-! ## Steps -/

/-- The cash book of a token. -/
def cashBook (d : Deployment) (token : Address) (w : World) (m : ℤ × ℤ) : CashBook :=
  ⟨collectedOf w token, w.tokens.balance token d.treasury, m.1, m.2⟩

section Steps

variable {d : Deployment} {token : Address} {w : World} {m : ℤ × ℤ} {c : Call}

/-- The book takes a step under a condition that `Accounts` spells out. -/
def Books (d : Deployment) (token : Address) (w : World) (m : ℤ × ℤ) (a : Action) : Prop :=
  ∃ C, CashBook.Step (cashBook d token w m)
    (cashBook d token (step d w a) (m + feesAndWithdrawals d token w a)) C ∧
    (Accounts d token (w, m) a ↔ C)

theorem books_deposit {a : Action} (hsums : feesAndWithdrawals d token w a = 0)
    (hcollected : collectedOf (step d w a) token = collectedOf w token)
    (hheld : w.tokens.balance token d.treasury ≤ (step d w a).tokens.balance token d.treasury)
    (ha : Accounts d token (w, m) a) : Books d token w m a := by
  refine ⟨True, ?_, iff_of_true ha trivial⟩
  have hbook : cashBook d token (step d w a) (m + feesAndWithdrawals d token w a) =
      { cashBook d token w m with held := (step d w a).tokens.balance token d.treasury } := by
    rw [hsums, add_zero, cashBook, hcollected]
    rfl
  rw [hbook]
  exact .deposit _ hheld

theorem collectedOf_congr {w' : World} (h : w'.treasury.collected token =
    w.treasury.collected token) : collectedOf w' token = collectedOf w token := by
  rw [collectedOf, collectedOf, h]

theorem collectedOf_some {w' : World} {x : ℤ} (h : w'.treasury.collected token = some x) :
    collectedOf w' token = x := by
  rw [collectedOf, h]
  rfl

theorem books_collectFee {t : Address} {amount : ℤ} (hs : c.Succeeds d w)
    (he : c.entry = .treasury (.collectFee t amount)) (hpos : 0 < amount)
    (hcollected : (step d w (.call c)).treasury.collected =
      Function.update w.treasury.collected t (some ((w.treasury.collected t).getD 0 + amount)))
    (htokens : (step d w (.call c)).tokens = w.tokens) : Books d token w m (.call c) := by
  have hsums : feesAndWithdrawals d token w (.call c) = 0 := by
    simp [feesAndWithdrawals, feesIn, withdrawnIn, he]
  by_cases ht : t = token
  · subst ht
    refine ⟨_, ?_, (?_ : _ ↔ m.2 ≠ 0 ∧
      collectedOf w t + amount ≤ w.tokens.balance t d.treasury)⟩
    · have hbook : cashBook d t (step d w (.call c)) (m + feesAndWithdrawals d t w (.call c)) =
          { cashBook d t w m with recorded := collectedOf w t + amount } := by
        rw [hsums, add_zero, cashBook, htokens,
          collectedOf_some (by rw [hcollected]; exact Function.update_self ..)]
        rfl
      rw [hbook]
      exact .claim amount hpos
    · simp [Accounts, he, hs]
  · refine books_deposit hsums (collectedOf_congr ?_) (by rw [htokens]) ?_
    · rw [hcollected]
      exact Function.update_of_ne (Ne.symm ht) ..
    · simp [Accounts, he, ht]

theorem balance_withdrawn {T : Tokens} {t recipient self : Address} {amount : ℤ} :
    (T.move t self recipient amount).balance t self =
      if recipient = self then T.balance t self else T.balance t self - amount := by
  rw [Tokens.move_balance]
  simp only [true_and, if_true]
  by_cases h : recipient = self
  · simp [h]
  · rw [if_neg h, if_neg (Ne.symm h), add_zero]

theorem balance_other {T : Tokens} {t token src dst account : Address} {amount : ℤ}
    (h : t ≠ token) :
    (T.move t src dst amount).balance token account = T.balance token account := by
  simp [Tokens.move_balance, Ne.symm h]

theorem books_withdraw {admin t recipient : Address} {amount : ℤ} (hs : c.Succeeds d w)
    (he : c.entry = .treasury (.withdraw admin t recipient amount)) (hpos : 0 < amount)
    (hle : amount ≤ w.tokens.balance t d.treasury)
    (hcollected : (step d w (.call c)).treasury.collected = w.treasury.released t amount)
    (htokens : (step d w (.call c)).tokens = w.tokens.move t d.treasury recipient amount)  :
    Books d token w m (.call c) := by
  by_cases ht : t = token
  · subst ht
    have hsums : feesAndWithdrawals d t w (.call c) = (0, amount) := by
      simp [feesAndWithdrawals, feesIn, withdrawnIn, he, hs]
    have hheld : w.tokens.balance t d.treasury - amount ≤
        (step d w (.call c)).tokens.balance t d.treasury := by
      rw [htokens, balance_withdrawn]
      split_ifs <;> omega
    cases hc : w.treasury.collected t with
    | none =>
      -- the token has no ledger yet
      have hzero : collectedOf w t = 0 := by rw [collectedOf, hc]; rfl
      have hafter : collectedOf (step d w (.call c)) t = collectedOf w t :=
        collectedOf_congr (by simp only [hcollected, Storage.released, hc])
      refine ⟨True, ?_, iff_of_true ?_ trivial⟩
      · have hbook : cashBook d t (step d w (.call c)) (m + (0, amount)) =
            ⟨(cashBook d t w m).recorded, (step d w (.call c)).tokens.balance t d.treasury,
              m.1, m.2 + amount⟩ := by
          simp [cashBook, hafter]
        rw [hsums, hbook]
        exact .unrecorded amount _ hpos hzero (by omega)
      · simp [Accounts, he, hc]
    | some x =>
      have hx : collectedOf w t = x := collectedOf_some hc
      have hafter : collectedOf (step d w (.call c)) t = saturatingSub x amount := by
        refine collectedOf_some ?_
        rw [hcollected, Storage.released, hc]
        exact Function.update_self ..
      refine ⟨_, ?_, (?_ : _ ↔ amount ≤ collectedOf w t)⟩
      · have hbook : cashBook d t (step d w (.call c)) (m + (0, amount)) =
            ⟨saturatingSub x amount, (step d w (.call c)).tokens.balance t d.treasury,
              m.1, m.2 + amount⟩ := by
          simp [cashBook, hafter]
        rw [hsums, hbook]
        refine .payment amount _ _ hpos hheld ?_ ?_
        · show 0 ≤ saturatingSub x amount ↔ amount ≤ collectedOf w t
          rw [hx, saturatingSub, i128Min, i128Max]
          omega
        · show 0 ≤ saturatingSub x amount → saturatingSub x amount ≤ collectedOf w t - amount
          rw [hx, saturatingSub, i128Min, i128Max]
          omega
      · simp [Accounts, he, hs, hc]
  · have hsums : feesAndWithdrawals d token w (.call c) = 0 := by
      simp [feesAndWithdrawals, feesIn, withdrawnIn, he, ht]
    refine books_deposit hsums (collectedOf_congr ?_) ?_ (by simp [Accounts, he, ht])
    · rw [hcollected, Storage.released]
      cases w.treasury.collected t with
      | none => rfl
      | some x => exact Function.update_of_ne (Ne.symm ht) ..
    · rw [htokens, balance_other ht]

theorem books_drain {admin t recipient : Address} (hs : c.Succeeds d w)
    (he : c.entry = .treasury (.emergencyWithdraw admin t recipient))
    (hpos : 0 < w.tokens.balance t d.treasury)
    (hcollected : (step d w (.call c)).treasury.collected = w.treasury.collected)
    (htokens : (step d w (.call c)).tokens =
      w.tokens.move t d.treasury recipient (w.tokens.balance t d.treasury))
    (hb : (cashBook d token w m).Reconciled) : Books d token w m (.call c) := by
  have hafter : collectedOf (step d w (.call c)) token = collectedOf w token :=
    collectedOf_congr (by rw [hcollected])
  by_cases ht : t = token
  · subst ht
    have hsums : feesAndWithdrawals d t w (.call c) = (0, w.tokens.balance t d.treasury) := by
      simp [feesAndWithdrawals, feesIn, withdrawnIn, he, hs, hpos.le]
    have hheld : (step d w (.call c)).tokens.balance t d.treasury =
        if recipient = d.treasury then w.tokens.balance t d.treasury else 0 := by
      rw [htokens, balance_withdrawn, sub_self]
    refine ⟨_, ?_, (?_ : _ ↔ collectedOf w t ≤
      (step d w (.call c)).tokens.balance t d.treasury)⟩
    · have hbook : cashBook d t (step d w (.call c)) (m + (0, w.tokens.balance t d.treasury)) =
          ⟨(cashBook d t w m).recorded, (step d w (.call c)).tokens.balance t d.treasury,
            m.1, m.2 + w.tokens.balance t d.treasury⟩ := by
        simp [cashBook, hafter]
      rw [hsums, hbook]
      exact .drain _ _ hpos
    · have hnonneg : 0 ≤ collectedOf w t := hb.nonneg
      have hcovered : collectedOf w t ≤ w.tokens.balance t d.treasury := hb.covered
      rw [hheld]
      simp only [Accounts, he, hs, true_imp_iff]
      split_ifs with hr
      · exact iff_of_true (Or.inr hr) hcovered
      · rw [or_iff_left hr]
        omega
  · have hsums : feesAndWithdrawals d token w (.call c) = 0 := by
      simp [feesAndWithdrawals, feesIn, withdrawnIn, he, ht]
    refine books_deposit hsums hafter ?_ (by simp [Accounts, he, ht])
    rw [htokens, balance_other ht]

theorem books_treasury {op : Op} (hs : c.Succeeds d w) (he : c.entry = .treasury op)
    (h : LedgerEffect (c.env d w) (w.treasury, w.tokens)
      ((step d w (.call c)).treasury, (step d w (.call c)).tokens) op)
    (hb : (cashBook d token w m).Reconciled) : Books d token w m (.call c) := by
  cases h with
  | collect t amount hpos hcollected htokens =>
    exact books_collectFee hs he hpos hcollected htokens
  | withdraw admin t recipient amount hpos _ hle hcollected htokens =>
    exact books_withdraw hs he hpos hle hcollected htokens
  | drain admin t recipient hpos hcollected htokens =>
    exact books_drain hs he hpos hcollected htokens hb
  | idle admin t recipient hle hcollected htokens =>
    have hnonneg : 0 ≤ collectedOf w token := hb.nonneg
    have hcovered : collectedOf w token ≤ w.tokens.balance token d.treasury := hb.covered
    have hempty : w.tokens.balance t d.treasury ≤ 0 := hle
    refine books_deposit ?_ (collectedOf_congr ?_) ?_ ?_
    · simp only [feesAndWithdrawals, feesIn, withdrawnIn, he]
      split_ifs with ht
      · obtain ⟨-, rfl⟩ := ht
        rw [max_eq_left hempty]
        rfl
      · rfl
    · exact congrFun hcollected token
    · exact (congrArg (fun T : Tokens => T.balance token d.treasury) htokens).ge
    · simp only [Accounts, he]
      rintro - rfl
      exact Or.inl (by omega)
  | rest op hquiet hcollected htokens =>
    obtain ⟨hsums, haccounts⟩ : feesAndWithdrawals d token w (.call c) = 0 ∧
        Accounts d token (w, m) (.call c) := by
      simp only [feesAndWithdrawals, feesIn, withdrawnIn, Accounts, he]
      cases op with
      | collectFee | withdraw | emergencyWithdraw => exact hquiet.elim
      | initializeContract | setFeeBps | whitelistToken | proposeWithdrawalCap
      | executeWithdrawalCap => exact ⟨rfl, fun _ => trivial⟩
    exact books_deposit hsums (collectedOf_congr (congrFun hcollected token))
      (congrArg (fun T : Tokens => T.balance token d.treasury) htokens).ge haccounts

theorem collectedOf_charged {w' : World} {fee : ℤ}
    (h : w'.treasury = Marketplace.chargedTo w.treasury token fee) (hfee : 0 ≤ fee) :
    collectedOf w' token = collectedOf w token + fee := by
  rw [collectedOf, h, Marketplace.chargedTo]
  split_ifs with hpos
  · simp [collectedOf]
  · obtain rfl : fee = 0 := le_antisymm (not_lt.mp hpos) hfee
    exact (add_zero _).symm

section Contribution

open Marketplace

variable {T : Tokens} {config : MarketplaceConfig} {t investor account : Address} {fee net : ℤ}

theorem balance_contributed_other (h : t ≠ token) :
    (contributed T config t investor fee net).balance token account = T.balance token account := by
  unfold contributed
  split_ifs <;> simp [balance_other h]

theorem balance_charged (hinvestor : investor ≠ account)
    (htreasury : 0 < fee → config.treasury = account) (hfee : 0 ≤ fee) :
    T.balance t account + fee ≤ (contributed T config t investor fee net).balance t account := by
  have hspare : ∀ {T : Tokens} {dst : Address} {x : ℤ}, 0 ≤ x →
      T.balance t account ≤ (T.move t investor dst x).balance t account := by
    intro T dst x hx
    rw [Tokens.move_balance, if_neg fun h => hinvestor h.2.symm]
    split_ifs <;> omega
  have hpaid : T.balance t account + fee ≤
      (if 0 < fee then T.move t investor config.treasury fee else T).balance t account := by
    split_ifs with hpos
    · rw [Tokens.move_balance, if_neg fun h => hinvestor h.2.symm,
        if_pos ⟨rfl, (htreasury hpos).symm⟩]
      omega
    · omega
  have hmove : contributed T config t investor fee net =
      if 0 < net then (if 0 < fee then T.move t investor config.treasury fee else T).move t
        investor config.financingPool net
      else if 0 < fee then T.move t investor config.treasury fee else T := rfl
  rw [hmove]
  by_cases hnet : 0 < net
  · rw [if_pos hnet]
    exact hpaid.trans (hspare hnet.le)
  · rw [if_neg hnet]
    exact hpaid

end Contribution

theorem books_fundInvoice {investor : Address} {i : ℕ} {amount : ℤ} (hs : c.Succeeds d w)
    (he : c.entry = .marketplace (.fundInvoice investor i amount))
    (h : Marketplace.fundInvoice investor i amount (c.env d w) w = .ok () (step d w (.call c))) :
    Books d token w m (.call c) := by
  obtain ⟨l, fee, hl, hfee, htreasury⟩ := Marketplace.fundInvoice_treasury h
  obtain ⟨l', config, inv, fee', hF⟩ := Marketplace.fundInvoice_ok h
  obtain rfl : l = l' := Option.some.inj (hl.symm.trans hF.listed)
  obtain rfl : fee = fee' := Option.some.inj (hfee.symm.trans hF.chargedFee)
  have hnonneg : 0 ≤ fee := by
    obtain ⟨_, -, hbps⟩ := hF.charged
    exact bpsOfNormalized_nonneg hbps
  have haccounts : Accounts d token (w, m) (.call c) := by
    simp only [Accounts, he]
    exact fun _ => trivial
  have hinvestor : investor ≠ d.treasury :=
    Env.ne_of_authenticates hF.authenticated c.treasury_not_authenticates
  by_cases ht : l.token = token
  · subst ht
    have hsums : feesAndWithdrawals d l.token w (.call c) = (fee, 0) := by
      simp [feesAndWithdrawals, feesIn, withdrawnIn, he, hs, hl, Marketplace.feeOf, hfee]
    have hafter : collectedOf (step d w (.call c)) l.token = collectedOf w l.token + fee :=
      collectedOf_charged htreasury hnonneg
    have hheld : w.tokens.balance l.token d.treasury + fee ≤
        (step d w (.call c)).tokens.balance l.token d.treasury := by
      rw [hF.tokens]
      exact balance_charged hinvestor hF.toTreasury hnonneg
    refine ⟨True, ?_, iff_of_true haccounts trivial⟩
    have hbook : cashBook d l.token (step d w (.call c)) (m + (fee, 0)) =
        ⟨collectedOf w l.token + fee, (step d w (.call c)).tokens.balance l.token d.treasury,
          m.1 + fee, m.2⟩ := by
      simp [cashBook, hafter]
    rw [hsums, hbook]
    exact .receipt fee _ hnonneg hheld
  · have hsums : feesAndWithdrawals d token w (.call c) = 0 := by
      simp [feesAndWithdrawals, feesIn, withdrawnIn, he, hl, ht]
    refine books_deposit hsums (collectedOf_congr ?_) ?_ haccounts
    · rw [htreasury, Marketplace.chargedTo]
      split_ifs
      · exact Function.update_of_ne (Ne.symm ht) ..
      · rfl
    · rw [hF.tokens, balance_contributed_other ht]

theorem sums_of_other (ht : ∀ op, c.entry ≠ .treasury op)
    (hf : ∀ investor i amount, c.entry ≠ .marketplace (.fundInvoice investor i amount)) :
    feesAndWithdrawals d token w (.call c) = 0 ∧ Accounts d token (w, m) (.call c) := by
  simp only [feesAndWithdrawals, feesIn, withdrawnIn, Accounts]
  generalize c.entry = e at ht hf
  cases e with
  | treasury op => exact absurd rfl (ht op)
  | marketplace op =>
    cases op with
    | fundInvoice investor i amount => exact absurd rfl (hf investor i amount)
    | initializeContract | setReferrerSplitBps | setFeeBps | updateFeeBps | setTierFeeBps
    | whitelistToken | removeTokenWhitelist | listInvoice | cancelListing | requestCancellation
    | adminConfirmCancellation | claimRefund => exact ⟨rfl, fun _ => trivial⟩
  | accessControl | priceOracle | riskRegistry | invoiceNft | pool | transfer =>
    exact ⟨rfl, fun _ => trivial⟩

/-- **One step of the system is a step of the cash book.** -/
theorem cashBook_step (a : Action) (hasks : w.tokens.asksAuth token = true)
    (hb : (cashBook d token w m).Reconciled) : Books d token w m a := by
  rcases step_cases d w a with ⟨c, rfl, hs, h⟩ | ⟨n, rfl, h⟩ | ⟨c, rfl, hn, h⟩
  · by_cases ht : ∃ op, c.entry = .treasury op
    · obtain ⟨op, he⟩ := ht
      rw [he] at h
      obtain ⟨s, hop, hw⟩ := onTreasury_ok.mp h
      refine books_treasury hs he ?_ hb
      rw [← hw]
      exact Op.exec_ledger hop
    by_cases hf : ∃ investor i amount, c.entry = .marketplace (.fundInvoice investor i amount)
    · obtain ⟨investor, i, amount, he⟩ := hf
      rw [he] at h
      exact books_fundInvoice hs he h
    · push Not at ht hf
      have hkept := Entry.exec_kept h ht hf c.treasury_not_authenticates
      obtain ⟨hsums, haccounts⟩ : feesAndWithdrawals d token w (.call c) = 0 ∧
          Accounts d token (w, m) (.call c) := sums_of_other ht hf
      exact books_deposit hsums (collectedOf_congr (by rw [hkept.treasury]))
        (hkept.spares.balance token hasks) haccounts
  · exact books_deposit rfl rfl le_rfl trivial
  · have hsums : feesAndWithdrawals d token w (.call c) = 0 := by
      simp only [feesAndWithdrawals, feesIn, withdrawnIn, hn, false_and, if_false]
      generalize c.entry = e
      cases e with
      | treasury op => cases op <;> rfl
      | marketplace op => cases op <;> rfl
      | accessControl | priceOracle | riskRegistry | invoiceNft | pool | transfer => rfl
    exact books_deposit hsums (by rw [h]) (by rw [h]) fun hs => absurd hs hn

end Steps

section Runs

variable {d : Deployment} {token : Address}

theorem reconciled_step {p : World × (ℤ × ℤ)} {a : Action}
    (hasks : p.1.tokens.asksAuth token = true) (hpaid : 0 ≤ p.2.2)
    (hb : (cashBook d token p.1 p.2).Reconciled) :
    (cashBook d token (step d p.1 a) (p.2 + feesAndWithdrawals d token p.1 a)).Reconciled ↔
      Accounts d token p a := by
  obtain ⟨C, hstep, hC⟩ := cashBook_step a hasks hb
  rw [hstep.reconciled_iff hpaid hb, hC]

theorem withdrawnIn_nonneg (w : World) (a : Action) : 0 ≤ withdrawnIn d token w a := by
  cases a with
  | tick n => exact le_rfl
  | call c =>
    simp only [withdrawnIn]
    split
    · rename_i admin t recipient amount he
      split_ifs with hs
      · obtain ⟨w', h⟩ := Call.succeeds_iff.mp hs.1
        rw [he] at h
        obtain ⟨s, hop, -⟩ := onTreasury_ok.mp h
        exact (withdraw_ok hop).1.le
      · exact le_rfl
    · split_ifs
      · exact le_max_left _ _
      · exact le_rfl
    · exact le_rfl

/-- **Fee reconciliation**: for a token that asks for the payer's authorisation, in every state of a
run the fee ledger lies between zero and the treasury's balance, and equals the sum of the fees of
all contributions while nothing has been withdrawn, exactly when every transaction of the run
accounts for what it does. -/
theorem fees_reconciled_iff (d : Deployment) (now : ℕ) (tokens : Tokens) (as : List Action)
    (token : Address) (hasks : tokens.asksAuth token = true)
    (hfunds : 0 ≤ tokens.balance token d.treasury) :
    (∀ p, p <+: as →
        0 ≤ collectedOf (run (step d) (genesis now tokens) p) token ∧
        collectedOf (run (step d) (genesis now tokens) p) token ≤
          (run (step d) (genesis now tokens) p).tokens.balance token d.treasury ∧
        (tally (step d) (withdrawnIn d token) (genesis now tokens) p = 0 →
          collectedOf (run (step d) (genesis now tokens) p) token =
            tally (step d) (feesIn d token) (genesis now tokens) p)) ↔
      Along (counted (step d) (feesAndWithdrawals d token)) (Accounts d token)
        (genesis now tokens, 0) as := by
  have hgenesis : (cashBook d token (genesis now tokens) 0).Reconciled :=
    ⟨le_rfl, hfunds, fun _ => rfl⟩
  have hkeep : ∀ (p : World × (ℤ × ℤ)) a, p.1.tokens.asksAuth token = true ∧ 0 ≤ p.2.2 →
      (counted (step d) (feesAndWithdrawals d token) p a).1.tokens.asksAuth token = true ∧
        0 ≤ (counted (step d) (feesAndWithdrawals d token) p a).2.2 := by
    rintro ⟨w, m⟩ a ⟨hw, hm⟩
    constructor
    · show (step d w a).tokens.asksAuth token = true
      rw [(tokenContracts_step d w a).2]
      exact hw
    · exact add_nonneg hm (withdrawnIn_nonneg w a)
  refine Iff.trans ?_ (forall_prefix_iff
    (Q := fun p => (cashBook d token p.1 p.2).Reconciled) hkeep
    (fun p a hp hb => reconciled_step hp.1 hp.2 hb) ⟨hasks, le_rfl⟩ hgenesis)
  refine forall₂_congr fun p _ => ?_
  have hsum : tally (step d) (feesAndWithdrawals d token) (genesis now tokens) p =
      (tally (step d) (feesIn d token) (genesis now tokens) p,
        tally (step d) (withdrawnIn d token) (genesis now tokens) p) := tally_prod _ _ _ _
  rw [run_counted, zero_add, hsum]
  exact ⟨fun h => ⟨h.1, h.2.1, h.2.2⟩, fun h => ⟨h.nonneg, h.covered, h.exact⟩⟩

/-- The fee of a contribution is collected, and withdrawn in full. -/
def feesWithdrawn : List Action :=
  sampleFunding "USDC" ++ [signed 1 (.treasury (.withdraw 1 50 1 180))]

theorem fees_sample :
    collectedOf (run (step sample) (genesis 0 sampleTokens) (sampleFunding "USDC")) 50 ≤
      (run (step sample) (genesis 0 sampleTokens) (sampleFunding "USDC")).tokens.balance 50
        sample.treasury ∧
    collectedOf (run (step sample) (genesis 0 sampleTokens) (sampleFunding "USDC")) 50 =
      tally (step sample) (feesIn sample 50) (genesis 0 sampleTokens) (sampleFunding "USDC") := by
  have hreconciled := (fees_reconciled_iff sample 0 sampleTokens feesWithdrawn 50 rfl
    (by decide)).mpr (by decide +kernel) (sampleFunding "USDC") (List.prefix_append _ _)
  exact ⟨hreconciled.2.1, hreconciled.2.2 (by decide +kernel)⟩

/-- A stranger reports a fee that nobody paid. -/
def feeInvented : List Action :=
  sampleSetup "USDC" ++ [signed 9 (.treasury (.collectFee 50 1_000))]

/-- The fee of a contribution is drained. -/
def feesDrained : List Action :=
  sampleFunding "USDC" ++ [signed 1 (.treasury (.emergencyWithdraw 1 50 1))]

/-- The treasury receives a transfer, and the admin withdraws it. -/
def giftWithdrawn : List Action :=
  sampleFunding "USDC" ++ [signed 9 (.transfer 50 9 105 1_000),
    signed 1 (.treasury (.withdraw 1 50 1 1_000))]

/-- The ledger exceeds the fees before any withdrawal, exceeds the balance after a drain, and falls
below zero after a withdrawal. -/
theorem fees_unreconciled :
    (¬ ∀ (d : Deployment) (now : ℕ) (tokens : Tokens) (as : List Action) (token : Address),
      tokens.asksAuth token = true → 0 ≤ tokens.balance token d.treasury →
      tally (step d) (withdrawnIn d token) (genesis now tokens) as = 0 →
      collectedOf (run (step d) (genesis now tokens) as) token =
        tally (step d) (feesIn d token) (genesis now tokens) as) ∧
    (¬ ∀ (d : Deployment) (now : ℕ) (tokens : Tokens) (as : List Action) (token : Address),
      tokens.asksAuth token = true → 0 ≤ tokens.balance token d.treasury →
      collectedOf (run (step d) (genesis now tokens) as) token ≤
        (run (step d) (genesis now tokens) as).tokens.balance token d.treasury) ∧
    ¬ ∀ (d : Deployment) (now : ℕ) (tokens : Tokens) (as : List Action) (token : Address),
      tokens.asksAuth token = true → 0 ≤ tokens.balance token d.treasury →
      0 ≤ collectedOf (run (step d) (genesis now tokens) as) token := by
  refine ⟨fun h => ?_, fun h => ?_, fun h => ?_⟩
  · exact absurd (h sample 0 sampleTokens feeInvented 50 rfl (by decide) (by decide +kernel))
      (by decide +kernel)
  · exact absurd (h sample 0 sampleTokens feesDrained 50 rfl (by decide)) (by decide +kernel)
  · exact absurd (h sample 0 sampleTokens giftWithdrawn 50 rfl (by decide)) (by decide +kernel)

end Runs

end Kora.Treasury
