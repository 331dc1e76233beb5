import Kora.System.Joint

set_option autoImplicit false

/-!
# The funding gate

The marketplace opens the pool of an invoice when its listing reaches the asking price. But
`release_funds` authenticates whatever address is handed to it as the marketplace, so anyone can
open the pool of a listed invoice.

* `gate_step`: one step keeps the gate closed exactly when it does not call `release_funds`
  directly;
* **`gate_iff`**: every run.
-/

namespace Kora

open Exec Run

/-- The invoice has a listing that reached its price, in the token of the pool. -/
def FundedListing (w : World) (i : ℕ) (pool : Pool) : Prop :=
  ∃ l, w.marketplace.listing i = some l ∧ l.fundedAmount = l.askingPrice ∧ pool.token = l.token

/-- A financed invoice has a pool only if its listing reached its price. -/
def Gate (w : World) : Prop := ∀ i pool, w.pool.pool i = some pool →
  InvoiceNft.Financed (w.invoiceNft.status i) → FundedListing w i pool

/-- The entry point is a direct call of `release_funds`. -/
def ReleasesDirectly : Entry → Prop
  | .pool (.releaseFunds ..) => True
  | _ => False

/-- No successful direct call of `release_funds`. -/
def NoDirectRelease (d : Deployment) (w : World) : Action → Prop
  | .call c => c.Succeeds d w → ¬ ReleasesDirectly c.entry
  | .tick _ => True

section Steps

variable {d : Deployment} {env : Env} {w w' : World} {i : ℕ}

theorem fundedListing_kept {e : Entry} (hJ : Joint d w) {pool pool' : Pool}
    (h : FundedListing w i pool) (hm : Marketplace.Change env i w w' e)
    (htoken : pool'.token = pool.token) : FundedListing w' i pool' := by
  obtain ⟨l, hl, hfull, hl'⟩ := h
  obtain ⟨l', hlisting, hasking, htoken', hraised⟩ := hm.raised hl
  refine ⟨l', hlisting, ?_, by rw [htoken, hl', htoken']⟩
  rcases hraised with hsame | ⟨hactive, -, -⟩
  · rw [hsame, hasking, hfull]
  · exact absurd hfull ((hJ.sound i l hl).active hactive).ne

theorem fundedListing_opened {e : Entry} {token : Address} {face : ℤ} {bps : ℕ} {pool : Pool}
    (h : FinancingPool.Opening i w w' token face bps)
    (hby : FinancingPool.OpenedBy i w' token e) (hdirect : ¬ ReleasesDirectly e)
    (hp : w'.pool.pool i = some pool) : FundedListing w' i pool := by
  have htoken : pool.token = token := by
    rw [h.pool] at hp
    cases hp
    rfl
  cases hby with
  | release => exact absurd trivial hdirect
  | funding _ _ l hl hfull hlt => exact ⟨l, hl, hfull, htoken.trans hlt⟩

/-- A direct call opens the pool of an invoice whose listing is short of its price. -/
theorem not_gate_of_releaseFunds (hJ : Joint d w) {u : Unit} {marketplace token : Address}
    (h : FinancingPool.releaseFunds marketplace i token env w = .ok u w') : ¬ Gate w' := by
  obtain ⟨-, hnone, -, inv, bps, -, -, -, rfl⟩ := FinancingPool.releaseFunds_ok h
  intro hgate
  obtain ⟨l, hl, hfull, -⟩ := hgate i _ (Function.update_self ..) (Or.inl (by simp))
  exact hJ.full i l hl hfull.ge hnone

/-- **One step keeps the gate closed exactly when it does not call `release_funds` directly.** -/
theorem gate_step (hJ : Joint d w) (a : Action) (hG : Gate w) :
    Gate (step d w a) ↔ NoDirectRelease d w a := by
  rcases step_cases d w a with ⟨c, rfl, hs, h⟩ | ⟨n, rfl, h⟩ | ⟨c, rfl, hn, h⟩
  · have heffects := joint_effects hJ h
    constructor
    · rintro hgate - hdirect
      unfold ReleasesDirectly at hdirect
      split at hdirect
      · rename_i he
        rw [he] at h
        exact not_gate_of_releaseFunds hJ h hgate
      · exact hdirect
    · intro hno i pool' hpool' _
      obtain ⟨-, hp, hm, -⟩ := heffects i
      rcases hp.token with htoken | ⟨token, face, bps, hopen, hby⟩
      · rw [hpool', Option.map_some, eq_comm, Option.map_eq_some_iff] at htoken
        obtain ⟨pool, hpool, htoken⟩ := htoken
        have hfin := (hJ.financed i).mp (by rw [hpool]; simp)
        exact fundedListing_kept hJ (hG i pool hpool hfin) hm htoken.symm
      · exact fundedListing_opened hopen hby (hno hs) hpool'
  · rw [h]
    exact iff_of_true hG trivial
  · rw [h]
    exact iff_of_true hG fun hs => absurd hs hn

end Steps

section Runs

/-- **The funding gate**: while the invoice contract takes lifecycle calls only from the marketplace
and the pool, in every state of a run every financed invoice with a pool has a listing at its
asking price in the pool's token, exactly when nobody calls `release_funds` directly. -/
theorem gate_iff (d : Deployment) (now : ℕ) (tokens : Tokens) (as : List Action)
    (hk : ∀ a ∈ as, KeepsWiring d a) :
    (∀ p, p <+: as → Gate (run (step d) (genesis now tokens) p)) ↔
      Along (step d) (NoDirectRelease d) (genesis now tokens) as :=
  forall_prefix_iff_along (I := Joint d) (A := fun _ a => KeepsWiring d a)
    (fun _ a hJ ha => joint_step hJ a ha) (fun _ a hJ _ hG => gate_step hJ a hG)
    (joint_genesis d now tokens) nofun (along_of_forall hk)

/-- Account `9` opens the pool of the listed invoice `1`. -/
def releasedByStranger : List Action :=
  sampleSetup "USDC" ++ [signed 9 (.pool (.releaseFunds 9 1 50))]

theorem gate_sample :
    (∀ a ∈ sampleFunding "USDC", KeepsWiring sample a) ∧
      ((∀ p, p <+: sampleFunding "USDC" → Gate (run (step sample) sampleGenesis p)) ↔
        Along (step sample) (NoDirectRelease sample) sampleGenesis (sampleFunding "USDC")) :=
  ⟨by decide +kernel, gate_iff sample 0 sampleTokens (sampleFunding "USDC") (by decide +kernel)⟩

/-- The invoice is funded while its listing has raised nothing. -/
theorem gate_opened : ¬ ∀ (d : Deployment) (now : ℕ) (tokens : Tokens) (as : List Action),
    (∀ a ∈ as, KeepsWiring d a) → Gate (run (step d) (genesis now tokens) as) := by
  intro h
  obtain ⟨l, hl, hfull, -⟩ := h sample 0 sampleTokens releasedByStranger (by decide +kernel) 1
    ⟨1, 50, 0, 10_000, 0, false, 200, 10_000, false⟩ (by decide +kernel)
    (Or.inl (by decide +kernel))
  have hunfunded :
      (run (step sample) (genesis 0 sampleTokens) releasedByStranger).marketplace.listing 1 =
        some ⟨1, 2, 9_000, 10_000, 50, 0, 500, true⟩ := by decide +kernel
  rw [hunfunded] at hl
  cases hl
  exact absurd hfull (by decide)

end Runs

end Kora
