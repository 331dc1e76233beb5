import Kora.Marketplace
import Kora.Lib.Run

set_option autoImplicit false

/-!
# The system

Transactions call one entry point of one contract, or transfer a token, with a set of signers;
the clock only moves forward. A failing transaction is rolled back, so a step changes the ledger
only when it succeeds.

* `step`, `genesis`: the system and its initial ledgers; its runs are `Run.run (step d)`;
* `step_call_of_ok`, `step_call_of_not_ok`: the two outcomes of a transaction.
-/

namespace Kora

open Exec

/-- An entry point. -/
inductive Entry : Type
  | accessControl (op : AccessControl.Op)
  | priceOracle (op : PriceOracle.Op)
  | treasury (op : Treasury.Op)
  | riskRegistry (op : RiskRegistry.Op)
  | invoiceNft (op : InvoiceNft.Op)
  | pool (op : FinancingPool.Op)
  | marketplace (op : Marketplace.Op)
  | transfer (token src dst : Address) (amount : ℤ)

/-- Run an entry point. -/
def Entry.exec : Entry → Host World Unit
  | .accessControl op => onAccessControl op.exec
  | .priceOracle op => onPriceOracle op.exec
  | .treasury op => onTreasury op.exec
  | .riskRegistry op => onRiskRegistry op.exec
  | .invoiceNft op => onInvoiceNft op.exec
  | .pool op => op.exec
  | .marketplace op => op.exec
  | .transfer token src dst amount =>
    zoom World.tokens (fun T w => { w with tokens := T }) (Token.transfer token src dst amount)

/-- A transaction. -/
structure Call where
  signers : List Address
  entry : Entry

/-- A transaction, or the passing of time. -/
inductive Action : Type
  | call (c : Call)
  | tick (seconds : ℕ)

/-- The environment of a transaction. A contract has no key, so it signs nothing. -/
def Call.env (c : Call) (d : Deployment) (w : World) : Env :=
  ⟨d, w.now, none, c.signers.filter (· ∉ d.contracts)⟩

/-- The outcome of a transaction. -/
def Call.run (c : Call) (d : Deployment) (w : World) : Outcome Failure World Unit :=
  c.entry.exec (c.env d w) w

/-- The transaction succeeds. -/
def Call.Succeeds (c : Call) (d : Deployment) (w : World) : Prop := (c.run d w).isOk = true

instance (c : Call) (d : Deployment) (w : World) : Decidable (c.Succeeds d w) := by
  unfold Call.Succeeds; infer_instance

/-- One step of the system. -/
def step (d : Deployment) (w : World) : Action → World
  | .call c => (c.run d w).commit w
  | .tick seconds => { w with now := w.now + seconds }

/-- The ledger before the contracts are initialised. -/
def genesis (now : ℕ) (tokens : Tokens) : World where
  now
  accessControl := {}
  invoiceNft := {}
  marketplace := {}
  pool := {}
  treasury := {}
  riskRegistry := {}
  priceOracle := {}
  tokens

section Step

variable {d : Deployment} {w : World} {c : Call}

theorem Call.succeeds_iff : c.Succeeds d w ↔ ∃ w', c.entry.exec (c.env d w) w = .ok () w' := by
  rw [Call.Succeeds, Outcome.isOk_iff]
  constructor
  · rintro ⟨⟨⟩, w', h⟩
    exact ⟨w', h⟩
  · rintro ⟨w', h⟩
    exact ⟨(), w', h⟩

theorem step_call_of_ok {w' : World} (h : c.entry.exec (c.env d w) w = .ok () w') :
    step d w (.call c) = w' := by
  rw [step, Call.run, h]
  rfl

theorem step_call_of_not_ok (h : ¬ c.Succeeds d w) : step d w (.call c) = w := by
  rw [step]
  rw [Call.Succeeds] at h
  cases hr : c.run d w with
  | ok a t => rw [hr] at h; exact absurd rfl h
  | error e t => rfl

/-- **A transaction succeeds or changes nothing.** -/
theorem step_call_cases (d : Deployment) (w : World) (c : Call) :
    (c.entry.exec (c.env d w) w = .ok () (step d w (.call c)) ∧ c.Succeeds d w) ∨
      (¬ c.Succeeds d w ∧ step d w (.call c) = w) := by
  by_cases hs : c.Succeeds d w
  · obtain ⟨w', h⟩ := Call.succeeds_iff.mp hs
    rw [step_call_of_ok h]
    exact Or.inl ⟨h, hs⟩
  · exact Or.inr ⟨hs, step_call_of_not_ok hs⟩

end Step

/-! ## A sample deployment

Small concrete ledgers: the admin is account `1`, the SME is `2`, investors are `3`, `4` and `5`,
the verifier is `6`; tokens `50` and `51` have seven decimals. -/

section Sample

/-- The addresses of the sample deployment. -/
def sample : Deployment := ⟨101, 102, 103, 104, 105, 106, 107, by decide⟩

/-- The tokens: every account below `100` owns a million of each; they ask for authorisation. -/
def sampleTokens : Tokens where
  decimals := fun t => if t = 50 ∨ t = 51 then some 7 else none
  asksAuth := fun _ => true
  balance := fun t a => if (t = 50 ∨ t = 51) ∧ a < 100 then 1_000_000 else 0
  transfers := []

/-- A transaction with one signer. -/
def signed (signer : Address) (e : Entry) : Action := .call ⟨[signer], e⟩

/-- Deploy the protocol, whitelist token `50`, and mint and list invoice `1` of `10_000` in
`currency`, due at time `1000`, for `9_000`. -/
def sampleSetup (currency : Symbol) : List Action := [
  signed 1 (.accessControl (.initializeContract 1)),
  signed 1 (.invoiceNft (.initializeContract 1 101)),
  signed 1 (.riskRegistry (.initializeContract 1 102 50 0 0)),
  signed 1 (.treasury (.initializeContract 1 0)),
  signed 1 (.marketplace (.initializeContract 1 102 104 105 101 106 200)),
  signed 1 (.pool (.initializeContract 1 102 106 105 101 200 107 10_000)),
  signed 1 (.priceOracle (.initializeContract 1)),
  signed 1 (.invoiceNft (.setAuthorizedCallers 1 103 104)),
  signed 1 (.treasury (.whitelistToken 1 50)),
  signed 1 (.marketplace (.whitelistToken 1 50)),
  .call ⟨[1, 6], .riskRegistry (.addVerifier 1 6 0)⟩,
  signed 6 (.riskRegistry (.registerSme 6 2 50 true)),
  signed 2 (.invoiceNft (.mintInvoice 2 [1] 10_000 currency 1000 "cid" 50 none)),
  signed 2 (.marketplace (.listInvoice 2 1 9_000 10_000 50 500 none))]

/-- Deploy, list, and fund invoice `1` by investor `3`. -/
def sampleFunding (currency : Symbol) : List Action :=
  sampleSetup currency ++ [signed 3 (.marketplace (.fundInvoice 3 1 9_000))]

/-- The initial ledger of the sample runs. -/
def sampleGenesis : World := genesis 0 sampleTokens

end Sample

end Kora
