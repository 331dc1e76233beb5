import Kora.InvoiceNft
import Kora.InvoiceNft.Books

set_option autoImplicit false

/-!
# What the invoice contract does

* `mintInvoice_iff`, `amendInvoice_ok`, `withdrawInvoice_ok`, `commitMetadataHash_ok`: what an SME
  does to its invoices;
* `setListed_ok`, `setFunded_ok`, `setRepaid_ok`, `setDefaulted_ok`, `getInvoice_ok`: the calls
  other contracts make;
* `Change`: the ways in which an entry point changes the stored invoices;
* **`Op.exec_change`**: there are no others.
-/

namespace Kora.InvoiceNft

open Exec

variable {env : Env} {s t : State} {u : Unit}

/-! ## Helpers -/

section Helpers

variable {β : Type} {b : β} {l : Unit → Body β}

theorem requireAdmin_seq_ok {caller : Address} :
    (requireAdmin caller >>= l) env s = .ok b t ↔
      s.own.admin = some caller ∧ l () env s = .ok b t := by
  simp only [requireAdmin, assoc_run, fetch_seq_ok, ensure_seq_ok]
  constructor
  · rintro ⟨a, h, rfl, hl⟩
    exact ⟨h, hl⟩
  · rintro ⟨h, hl⟩
    exact ⟨caller, h, rfl, hl⟩

theorem requireNotPaused_seq_ok :
    (requireNotPaused >>= l) env s = .ok b t ↔ s.own.accessControl = some env.net.accessControl ∧
      s.accessControl.paused.getD false = false ∧ l () env s = .ok b t := by
  simp only [requireNotPaused, assoc_run, fetch_seq_ok, net_run, callFrom_seq_ok, ensure_seq_ok,
    zoom_ok, AccessControl.isPaused_ok]
  constructor
  · rintro ⟨a, h, rfl, _, _, ⟨_, ⟨rfl, rfl⟩, rfl⟩, hp, hl⟩
    exact ⟨h, hp, hl⟩
  · rintro ⟨h, hp, hl⟩
    exact ⟨_, h, rfl, _, s, ⟨_, ⟨rfl, rfl⟩, rfl⟩, hp, hl⟩

theorem Storage.current_inj {S : Storage} {id : ℕ} {inv inv' : Invoice}
    (h : S.invoice id = some (.current inv)) (h' : S.invoice id = some (.current inv')) :
    inv = inv' := InvoiceRecord.current.inj (Option.some.inj (h.symm.trans h'))

theorem loadInvoice_ok {id : ℕ} {inv : Invoice} :
    loadInvoice id env s = .ok inv t ↔ s.own.invoice id = some (.current inv) ∧ s = t := by
  simp only [loadInvoice, fetch_seq_ok]
  constructor
  · rintro ⟨r, h, hk⟩
    cases r with
    | v1 r => exact absurd hk (by simp)
    | current r =>
      obtain ⟨rfl, rfl⟩ := pure_ok.mp hk
      exact ⟨h, rfl⟩
  · rintro ⟨h, rfl⟩
    exact ⟨_, h, pure_ok.mpr ⟨rfl, rfl⟩⟩

theorem loadInvoice_seq_ok {id : ℕ} {k : Invoice → Body β} :
    (loadInvoice id >>= k) env s = .ok b t ↔
      ∃ inv, s.own.invoice id = some (.current inv) ∧ k inv env s = .ok b t := by
  simp only [bind_ok, loadInvoice_ok]
  constructor
  · rintro ⟨inv, _, ⟨h, rfl⟩, hk⟩
    exact ⟨inv, h, hk⟩
  · rintro ⟨inv, h, hk⟩
    exact ⟨inv, s, ⟨h, rfl⟩, hk⟩

theorem requireAuthorizedCaller_seq_ok {caller : Address}
    {allowed : List (Storage → Option Address)} :
    (requireAuthorizedCaller caller allowed >>= l) env s = .ok b t ↔
      (∃ key ∈ allowed, key s.own = some caller) ∧ l () env s = .ok b t := by
  rw [requireAuthorizedCaller, assoc_run, gets_run, ensure_seq_ok]

/-- What the credit check reads of the registry: the profile of the SME, if it is there and the
registry is the one of the deployment. -/
theorem profile_run {sme rr : Address} :
    tryCallFrom env.net.invoiceNft rr env.net.riskRegistry
      (zoom State.riskRegistry (fun S s => { s with riskRegistry := S })
        (RiskRegistry.getSmeProfile sme)) env s =
      .ok (if rr = env.net.riskRegistry then s.riskRegistry.smeProfile sme else none) s := by
  rw [tryCallFrom, attempt_ok]
  by_cases hrr : rr = env.net.riskRegistry
  · subst hrr
    rw [if_pos rfl]
    cases hp : s.riskRegistry.smeProfile sme with
    | none =>
      refine Or.inr ⟨rfl, rfl, Bool.eq_false_iff.mpr fun hok => ?_⟩
      obtain ⟨profile, t, h⟩ := Outcome.isOk_iff.mp hok
      obtain ⟨-, h⟩ := callFrom_ok.mp h
      obtain ⟨S, h, -⟩ := zoom_ok.mp h
      rw [RiskRegistry.getSmeProfile, fetch_ok, hp] at h
      cases h.1
    | some profile =>
      refine Or.inl ⟨profile, rfl, callFrom_ok.mpr ⟨rfl, zoom_ok.mpr ⟨s.riskRegistry, ?_, rfl⟩⟩⟩
      exact fetch_ok.mpr ⟨hp, rfl⟩
  · rw [if_neg hrr]
    refine Or.inr ⟨rfl, rfl, Bool.eq_false_iff.mpr fun hok => ?_⟩
    obtain ⟨profile, t, h⟩ := Outcome.isOk_iff.mp hok
    exact hrr (callFrom_ok.mp h).1

/-- The recorded exposure and the new amount together fit in an `i128` and stay within the credit
limit that the registry has for the SME. -/
def WithinCreditLimit (env : Env) (s : State) (sme : Address) (amount : ℤ) : Prop :=
  ∀ profile, s.own.riskRegistry = some env.net.riskRegistry →
    s.riskRegistry.smeProfile sme = some profile → 0 < profile.creditLimit →
    ∃ sum, checkedAdd ((s.own.outstandingExposure sme).getD 0) amount = some sum ∧
      sum ≤ profile.creditLimit

/-- **The credit check** compares the recorded exposure and the new amount with the limit. -/
theorem requireWithinCreditLimit_ok {sme : Address} {amount : ℤ} :
    requireWithinCreditLimit sme amount env s = .ok u t ↔
      WithinCreditLimit env s sme amount ∧ s = t := by
  rw [requireWithinCreditLimit, gets_run, WithinCreditLimit]
  cases hr : s.own.riskRegistry with
  | none => simp
  | some rr =>
    simp only [net_run, ok_run profile_run, Option.some.injEq]
    split_ifs with hrr
    · cases hp : s.riskRegistry.smeProfile sme with
      | none => simp
      | some profile =>
        simp only [ite_run, Option.some.injEq, forall_eq', hrr, true_implies]
        split_ifs with hlimit
        · simp only [gets_run, check_seq_ok, okOr_ok, ensure_ok, hlimit, true_implies, ← and_assoc,
            exists_and_right]
        · simp [hlimit]
    · simp [hrr]

end Helpers

/-! ## The calls other contracts make -/

namespace Storage

variable (S : Storage) (id : ℕ) (inv : Invoice) (now : ℕ)

/-- Rewrite the record of an invoice. -/
def put : Storage := { S with invoice := Function.update S.invoice id (some (.current inv)) }

/-- Take an invoice off the exposure of its SME. -/
def release : Storage := { S with
  outstandingExposure := Function.update S.outstandingExposure inv.sme
    (some (saturatingSub ((S.outstandingExposure inv.sme).getD 0) inv.amount)) }

/-- The storage after `setListed`. -/
def asListed : Storage := { S.put id { inv with status := .listed } with lock := false }

/-- The storage after `setFunded`. -/
def asFunded : Storage :=
  { S.put id { inv with status := .funded, fundedAt := some now } with lock := false }

/-- The storage after `setRepaid`. -/
def asRepaid : Storage :=
  (S.put id { inv with status := .repaid, repaidAt := some now }).release inv

/-- The storage after `setDefaulted`. -/
def asDefaulted : Storage :=
  { (S.put id { inv with status := .defaulted }).release inv with lock := false }

/-- The storage after `mintInvoice`. -/
def asMinted : Storage := { S.put id inv with nextId := some (id + 1), lock := false }

/-- The storage after `withdrawInvoice`. -/
def asWithdrawn : Storage :=
  ({ S with invoice := Function.update S.invoice id none } : Storage).release inv

end Storage

section Calls

variable {caller : Address} {id : ℕ}

theorem getInvoice_ok {inv : Invoice} :
    getInvoice id env s = .ok inv t ↔ s.own.invoice id = some (.current inv) ∧ s = t :=
  loadInvoice_ok

theorem isInvoiceFrozen_ok {b : Bool} :
    isInvoiceFrozen id env s = .ok b t ↔ s.own.invoiceFrozen id = b ∧ s = t := gets_ok

theorem setListed_ok (h : setListed caller id env s = .ok u t) :
    env.Authenticates caller ∧ s.own.marketplace = some caller ∧
      ∃ inv, s.own.invoice id = some (.current inv) ∧ inv.status = .created ∧
        t = { s with own := s.own.asListed id inv } := by
  simp only [setListed, requireAuth_seq_ok, requireAuthorizedCaller_seq_ok, requireNotPaused_seq_ok,
    guard, guarded_ok, loadInvoice_seq_ok, ensure_seq_ok, putInvoice, modifyOwn, modify_ok,
    List.mem_singleton, exists_eq_left] at h
  obtain ⟨ha, hc, -, -, -, _, ⟨inv, hi, hs, rfl⟩, rfl⟩ := h
  exact ⟨ha, hc, inv, hi, hs, rfl⟩

theorem setFunded_iff : setFunded caller id env s = .ok u t ↔
    env.Authenticates caller ∧ s.own.financingPool = some caller ∧
      s.own.accessControl = some env.net.accessControl ∧
      s.accessControl.paused.getD false = false ∧ s.own.lock = false ∧
      ∃ inv, s.own.invoice id = some (.current inv) ∧ inv.status = .listed ∧
        t = { s with own := s.own.asFunded id inv env.timestamp } := by
  simp only [setFunded, requireAuth_seq_ok, requireAuthorizedCaller_seq_ok, requireNotPaused_seq_ok,
    guard, guarded_ok, loadInvoice_seq_ok, ensure_seq_ok, timestamp_run, putInvoice, modifyOwn,
    modify_ok, List.mem_singleton, exists_eq_left]
  constructor
  · rintro ⟨ha, hc, hac, hp, hlock, _, ⟨inv, hi, hs, rfl⟩, rfl⟩
    exact ⟨ha, hc, hac, hp, hlock, inv, hi, hs, rfl⟩
  · rintro ⟨ha, hc, hac, hp, hlock, inv, hi, hs, rfl⟩
    exact ⟨ha, hc, hac, hp, hlock, _, ⟨inv, hi, hs, rfl⟩, rfl⟩

theorem setFunded_ok (h : setFunded caller id env s = .ok u t) :
    env.Authenticates caller ∧ s.own.financingPool = some caller ∧
      ∃ inv, s.own.invoice id = some (.current inv) ∧ inv.status = .listed ∧
        t = { s with own := s.own.asFunded id inv env.timestamp } := by
  obtain ⟨ha, hc, -, -, -, inv, hi, hs, ht⟩ := setFunded_iff.mp h
  exact ⟨ha, hc, inv, hi, hs, ht⟩

theorem setRepaid_iff : setRepaid caller id env s = .ok u t ↔
    env.Authenticates caller ∧ s.own.financingPool = some caller ∧
      s.own.accessControl = some env.net.accessControl ∧
      s.accessControl.paused.getD false = false ∧
      ∃ inv, s.own.invoice id = some (.current inv) ∧ inv.status = .funded ∧
        { s with own := s.own.asRepaid id inv env.timestamp } = t := by
  simp only [setRepaid, requireAuth_seq_ok, requireAuthorizedCaller_seq_ok, requireNotPaused_seq_ok,
    loadInvoice_seq_ok, ensure_seq_ok, timestamp_run, putInvoice, releaseExposure, modifyOwn,
    modify_run, modify_ok, List.mem_singleton, exists_eq_left]
  rfl

theorem setRepaid_ok (h : setRepaid caller id env s = .ok u t) :
    env.Authenticates caller ∧ s.own.financingPool = some caller ∧
      ∃ inv, s.own.invoice id = some (.current inv) ∧ inv.status = .funded ∧
        t = { s with own := s.own.asRepaid id inv env.timestamp } := by
  obtain ⟨ha, hc, -, -, inv, hi, hs, rfl⟩ := setRepaid_iff.mp h
  exact ⟨ha, hc, inv, hi, hs, rfl⟩

theorem setDefaulted_iff : setDefaulted caller id env s = .ok u t ↔
    env.Authenticates caller ∧ s.own.admin = some caller ∧ s.own.lock = false ∧
      ∃ inv, s.own.invoice id = some (.current inv) ∧ inv.status = .funded ∧
        inv.dueDate < env.timestamp ∧ t = { s with own := s.own.asDefaulted id inv } := by
  simp only [setDefaulted, requireAuth_seq_ok, requireAdmin_seq_ok, guard, guarded_ok,
    loadInvoice_seq_ok, ensure_seq_ok, timestamp_run, putInvoice, releaseExposure, modifyOwn,
    modify_run, modify_ok]
  constructor
  · rintro ⟨ha, hc, hlock, _, ⟨inv, hi, hs, hd, rfl⟩, rfl⟩
    exact ⟨ha, hc, hlock, inv, hi, hs, hd, rfl⟩
  · rintro ⟨ha, hc, hlock, inv, hi, hs, hd, rfl⟩
    exact ⟨ha, hc, hlock, _, ⟨inv, hi, hs, hd, rfl⟩, rfl⟩

theorem setDefaulted_ok (h : setDefaulted caller id env s = .ok u t) :
    env.Authenticates caller ∧ s.own.admin = some caller ∧
      ∃ inv, s.own.invoice id = some (.current inv) ∧ inv.status = .funded ∧
        inv.dueDate < env.timestamp ∧ t = { s with own := s.own.asDefaulted id inv } := by
  obtain ⟨ha, hc, -, inv, hi, hs, hd, ht⟩ := setDefaulted_iff.mp h
  exact ⟨ha, hc, inv, hi, hs, hd, ht⟩

end Calls

/-! ## What an SME does to its invoices -/

section Records

variable {sme : Address} {hash : Bytes} {amount : ℤ} {currency : Symbol} {due score id : ℕ}
  {cid : String} {notes : Option String}

/-- The SME is authenticated and the protocol is not paused. -/
structure Acts (env : Env) (s : State) (sme : Address) : Prop where
  auth : env.Authenticates sme
  wired : s.own.accessControl = some env.net.accessControl
  unpaused : s.accessControl.paused.getD false = false

/-- What `mintInvoice` checks. -/
structure MintGuards (env : Env) (s : State) (sme : Address) (hash : Bytes) (amount : ℤ)
    (due : ℕ) (cid : String) (score : ℕ) : Prop extends Acts env s sme where
  unlocked : s.own.lock = false
  amount_pos : 0 < amount
  future : env.timestamp < due
  score_le : score ≤ 100
  hash_pos : hash.length ≠ 0
  hash_le : hash.length ≤ maxDebtorHashLen
  cid_pos : cid.utf8ByteSize ≠ 0
  cid_le : cid.utf8ByteSize ≤ maxIpfsCidLen
  credit : WithinCreditLimit env s sme amount
  number : s.own.nextId.getD 1 + 1 < 2 ^ 64

/-- **Minting** stores a new invoice under the next number, once the checks pass. -/
theorem mintInvoice_iff : mintInvoice sme hash amount currency due cid score notes env s =
      .ok id t ↔
    MintGuards env s sme hash amount due cid score ∧ id = s.own.nextId.getD 1 ∧
      t = { s with own := s.own.asMinted id (Terms.invoice
        ⟨sme, hash, amount, currency, due, cid, score, [], notes⟩ id env.timestamp) } := by
  simp only [mintInvoice, requireAuth_seq_ok, requireNotPaused_seq_ok, guard, guarded_ok,
    timestamp_run, check_seq_ok, bind_ok (x := requireWithinCreditLimit _ _),
    requireWithinCreditLimit_ok, gets_run, putInvoice, modifyOwn, modify_run, pure_ok, okOr_ok,
    requireNonZeroAmount, requireFutureTimestamp, requireValidRiskScore, requireNonEmptyBytes,
    requireMaxLengthBytes, requireNonEmptyString, requireMaxLengthString, guardK_ok,
    checkedAddU64_some]
  constructor
  · rintro ⟨ha, hac, hp, hlock, t', ⟨_, hpos, _, hdue, _, hscore, _, hh, _, hhl, _, hc, _, hcl, _,
      _, ⟨hcredit, rfl⟩, n, ⟨rfl, hn⟩, rfl, rfl⟩, rfl⟩
    exact ⟨⟨⟨ha, hac, hp⟩, hlock, hpos, hdue, hscore, hh, hhl, hc, hcl, hcredit, hn⟩, rfl, rfl⟩
  · rintro ⟨⟨⟨ha, hac, hp⟩, hlock, hpos, hdue, hscore, hh, hhl, hc, hcl, hcredit, hn⟩, rfl, rfl⟩
    exact ⟨ha, hac, hp, hlock, _, ⟨(), hpos, (), hdue, (), hscore, (), hh, (), hhl, (), hc, (), hcl,
      (), _, ⟨hcredit, rfl⟩, _, ⟨rfl, hn⟩, rfl, rfl⟩, rfl⟩

theorem mintInvoice_ok (h : mintInvoice sme hash amount currency due cid score notes env s =
      .ok id t) :
    Acts env s sme ∧ 0 < amount ∧ score ≤ 100 ∧ id = s.own.nextId.getD 1 ∧
      (∀ profile, s.own.riskRegistry = some env.net.riskRegistry →
        s.riskRegistry.smeProfile sme = some profile → 0 < profile.creditLimit →
        (s.own.outstandingExposure sme).getD 0 + amount ≤ profile.creditLimit) ∧
      t = { s with own := s.own.asMinted id (Terms.invoice
        ⟨sme, hash, amount, currency, due, cid, score, [], notes⟩ id env.timestamp) } := by
  obtain ⟨hguards, hid, ht⟩ := mintInvoice_iff.mp h
  refine ⟨hguards.toActs, hguards.amount_pos, hguards.score_le, hid,
    fun profile hr hp hlimit => ?_, ht⟩
  obtain ⟨sum, hsum, hle⟩ := hguards.credit profile hr hp hlimit
  rwa [checkedAdd_some hsum] at hle

theorem amendInvoice_ok (h : amendInvoice sme id hash amount due cid score env s = .ok u t) :
    Acts env s sme ∧ 0 < amount ∧ score ≤ 100 ∧ ∃ inv, s.own.invoice id = some (.current inv) ∧
      inv.status = .created ∧ inv.sme = sme ∧
      t = { s with own := s.own.put id (Amendment.apply ⟨hash, amount, due, cid, score⟩ inv) } := by
  simp only [amendInvoice, requireAuth_seq_ok, requireNotPaused_seq_ok, timestamp_run,
    check_seq_ok, loadInvoice_seq_ok, ensure_seq_ok, putInvoice, modifyOwn, modify_ok,
    requireNonZeroAmount, requireValidRiskScore, guardK_ok] at h
  obtain ⟨ha, hac, hp, _, hpos, _, -, _, hscore, _, -, _, -, inv, hinv, hst, hsme, rfl⟩ := h
  exact ⟨⟨ha, hac, hp⟩, hpos, hscore, inv, hinv, hst, hsme, rfl⟩

theorem withdrawInvoice_ok (h : withdrawInvoice sme id env s = .ok u t) :
    Acts env s sme ∧ ∃ inv, s.own.invoice id = some (.current inv) ∧ inv.status = .created ∧
      inv.sme = sme ∧ t = { s with own := s.own.asWithdrawn id inv } := by
  simp only [withdrawInvoice, requireAuth_seq_ok, requireNotPaused_seq_ok, loadInvoice_seq_ok,
    ensure_seq_ok, releaseExposure, modifyOwn, modify_run, modify_ok] at h
  obtain ⟨ha, hac, hp, inv, hinv, hst, hsme, rfl⟩ := h
  exact ⟨⟨ha, hac, hp⟩, inv, hinv, hst, hsme, rfl⟩

theorem commitMetadataHash_ok (h : commitMetadataHash sme id hash env s = .ok u t) :
    Acts env s sme ∧ ∃ inv, s.own.invoice id = some (.current inv) ∧ inv.status = .created ∧
      inv.sme = sme ∧ inv.metadataHash.length = 0 ∧
      t = { s with own := { s.own.put id { inv with metadataHash := hash } with lock := false } }
      := by
  simp only [commitMetadataHash, requireAuth_seq_ok, requireNotPaused_seq_ok, guard, guarded_ok,
    check_seq_ok, loadInvoice_seq_ok, ensure_seq_ok, putInvoice, modifyOwn, modify_ok] at h
  obtain ⟨ha, hac, hp, -, _, ⟨_, -, inv, hinv, hsme, hst, hempty, rfl⟩, rfl⟩ := h
  exact ⟨⟨ha, hac, hp⟩, inv, hinv, hst, hsme, hempty, rfl⟩

end Records

/-! ## Changes of the stored invoices -/

/-- A move of the lifecycle by `op`, with the authorisation it takes. -/
inductive Transition (op : Op) (env : Env) (S : Storage) : InvoiceStatus → InvoiceStatus → Prop
  | list {c : Address} : S.marketplace = some c → env.Authenticates c →
      Transition op env S .created .listed
  | fund {c : Address} : S.financingPool = some c → env.Authenticates c →
      Transition op env S .listed .funded
  | repay {c : Address} : S.financingPool = some c → env.Authenticates c →
      Transition op env S .funded .repaid
  | default {c : Address} {id : ℕ} : op = .setDefaulted c id →
      Transition op env S .funded .defaulted

/-- The ways in which `op` changes the stored invoices. -/
inductive Change (op : Op) (env : Env) (S : Storage) : (ℕ → Option InvoiceRecord) → Prop
  | keep : Change op env S S.invoice
  | mint (inv : Invoice) : inv.status = .created → env.Authenticates inv.sme →
      Change op env S (Function.update S.invoice (S.nextId.getD 1) (some (.current inv)))
  | edit (id : ℕ) (inv inv' : Invoice) : S.invoice id = some (.current inv) →
      inv.status = .created → inv'.status = .created → inv'.sme = inv.sme →
      Change op env S (Function.update S.invoice id (some (.current inv')))
  | withdraw (id : ℕ) (inv : Invoice) : S.invoice id = some (.current inv) →
      inv.status = .created → Change op env S (Function.update S.invoice id none)
  | move (id : ℕ) (inv inv' : Invoice) : S.invoice id = some (.current inv) →
      Transition op env S inv.status inv'.status → inv'.sme = inv.sme →
      Change op env S (Function.update S.invoice id (some (.current inv')))

/-- Records are stored below the next id, in the current schema, and only once the contract is
initialised. -/
structure Storage.WellFormed (S : Storage) : Prop where
  fresh : ∀ i, S.nextId.getD 1 ≤ i → S.invoice i = none
  current : ∀ i r, S.invoice i = some r → ∃ inv, r = .current inv
  uninit : S.admin = none → S.accessControl = none ∧ ∀ i, S.invoice i = none

/-- Every address under the two authorised-caller keys is the deployed contract. -/
structure Storage.Wired (S : Storage) (d : Deployment) : Prop where
  marketplace : ∀ c, S.marketplace = some c → c = d.marketplace
  financingPool : ∀ c, S.financingPool = some c → c = d.financingPool

/-- The operation sets no other authorised callers than the deployed contracts. -/
def Op.KeepsWiring (d : Deployment) : Op → Prop
  | .setAuthorizedCallers _ marketplace financingPool =>
    marketplace = d.marketplace ∧ financingPool = d.financingPool
  | _ => True

/-- What `op` does to the parts of the storage that the lifecycle depends on. -/
structure Effect (op : Op) (env : Env) (S T : Storage) : Prop where
  change : Change op env S T.invoice
  wellFormed : T.WellFormed
  wired : ∀ d, op.KeepsWiring d → S.Wired d → T.Wired d

section Effects

variable {op : Op} {S T : Storage}

theorem Storage.Wired.congr {d : Deployment} (h : S.Wired d) (hm : T.marketplace = S.marketplace)
    (hp : T.financingPool = S.financingPool) : T.Wired d :=
  ⟨fun c hc => h.marketplace c (hm ▸ hc), fun c hc => h.financingPool c (hp ▸ hc)⟩

theorem Effect.frame (hS : S.WellFormed) (hi : T.invoice = S.invoice) (hn : T.nextId = S.nextId)
    (ha : T.admin = S.admin) (hac : T.accessControl = S.accessControl)
    (hm : T.marketplace = S.marketplace) (hp : T.financingPool = S.financingPool) :
    Effect op env S T where
  change := hi ▸ .keep
  wellFormed := ⟨fun i h => by rw [hi]; exact hS.fresh i (hn ▸ h), fun i => hi ▸ hS.current i,
    fun h => by rw [hi, hac]; exact hS.uninit (ha ▸ h)⟩
  wired := fun _ _ h => h.congr hm hp

theorem Storage.WellFormed.rewrite (hS : S.WellFormed) {id : ℕ} {inv : Invoice}
    {r : Option InvoiceRecord} (hid : S.invoice id = some (.current inv))
    (hi : T.invoice = Function.update S.invoice id r)
    (hr : ∀ v, r = some v → ∃ inv', v = .current inv') (hn : T.nextId = S.nextId)
    (ha : T.admin = S.admin) : T.WellFormed := by
  refine ⟨fun i h => ?_, fun i v hv => ?_, fun h => ?_⟩
  · rw [hn] at h
    have hne : i ≠ id := by
      rintro rfl
      rw [hS.fresh i h] at hid
      cases hid
    rw [hi, Function.update_of_ne hne]
    exact hS.fresh i h
  · rw [hi, Function.update_apply] at hv
    split_ifs at hv
    · exact hr v hv
    · exact hS.current i v hv
  · rw [(hS.uninit (ha ▸ h)).2 id] at hid
    cases hid

theorem Effect.rewrite (hS : S.WellFormed) {id : ℕ} {inv : Invoice} {r : Option InvoiceRecord}
    (hid : S.invoice id = some (.current inv)) (hi : T.invoice = Function.update S.invoice id r)
    (hr : ∀ v, r = some v → ∃ inv', v = .current inv')
    (hc : Change op env S (Function.update S.invoice id r)) (hn : T.nextId = S.nextId)
    (ha : T.admin = S.admin) (hm : T.marketplace = S.marketplace)
    (hp : T.financingPool = S.financingPool) : Effect op env S T where
  change := hi ▸ hc
  wellFormed := hS.rewrite hid hi hr hn ha
  wired := fun _ _ h => h.congr hm hp

/-- `T` is `S` with invoice `id` moved from status `a` to `b`. -/
structure Storage.Moved (S T : Storage) (id : ℕ) (a b : InvoiceStatus) : Prop where
  record : ∃ inv inv', S.invoice id = some (.current inv) ∧ inv.status = a ∧ inv'.status = b ∧
    inv'.sme = inv.sme ∧ T.invoice = Function.update S.invoice id (some (.current inv'))
  nextId : T.nextId = S.nextId
  admin : T.admin = S.admin
  marketplace : T.marketplace = S.marketplace
  financingPool : T.financingPool = S.financingPool

section Moved

variable {id : ℕ} {inv : Invoice} {a b : InvoiceStatus} {now : ℕ}

theorem Storage.moved_asListed (h : S.invoice id = some (.current inv)) (ha : inv.status = a) :
    S.Moved (S.asListed id inv) id a .listed :=
  ⟨⟨inv, { inv with status := .listed }, h, ha, rfl, rfl, rfl⟩, rfl, rfl, rfl, rfl⟩

theorem Storage.moved_asFunded (h : S.invoice id = some (.current inv)) (ha : inv.status = a) :
    S.Moved (S.asFunded id inv now) id a .funded :=
  ⟨⟨inv, { inv with status := .funded, fundedAt := some now }, h, ha, rfl, rfl, rfl⟩, rfl, rfl, rfl,
    rfl⟩

theorem Storage.moved_asRepaid (h : S.invoice id = some (.current inv)) (ha : inv.status = a) :
    S.Moved (S.asRepaid id inv now) id a .repaid :=
  ⟨⟨inv, { inv with status := .repaid, repaidAt := some now }, h, ha, rfl, rfl, rfl⟩, rfl, rfl, rfl,
    rfl⟩

theorem Storage.moved_asDefaulted (h : S.invoice id = some (.current inv))
    (ha : inv.status = a) : S.Moved (S.asDefaulted id inv) id a .defaulted :=
  ⟨⟨inv, { inv with status := .defaulted }, h, ha, rfl, rfl, rfl⟩, rfl, rfl, rfl, rfl⟩

theorem Storage.Moved.wellFormed (h : S.Moved T id a b) (hS : S.WellFormed) : T.WellFormed := by
  obtain ⟨inv, inv', hid, -, -, -, hi⟩ := h.record
  exact hS.rewrite hid hi (fun _ h => ⟨inv', (Option.some.inj h).symm⟩) h.nextId h.admin

theorem Storage.Moved.wired (h : S.Moved T id a b) {d : Deployment} (hS : S.Wired d) : T.Wired d :=
  hS.congr h.marketplace h.financingPool

end Moved

theorem Effect.transition (hS : S.WellFormed) {id : ℕ} {a b : InvoiceStatus}
    (h : S.Moved T id a b) (ht : Transition op env S a b) : Effect op env S T := by
  obtain ⟨inv, inv', hid, rfl, rfl, hsme, hi⟩ := h.record
  exact ⟨hi ▸ .move id inv inv' hid ht hsme, h.wellFormed hS, fun _ _ hw => h.wired hw⟩

theorem initializeContract_effect (hS : S.WellFormed) {admin ac : Address} {s t : State}
    (hs : s.own = S) (h : initializeContract admin ac env s = .ok u t) :
    Effect op env S t.own := by
  subst hs
  simp only [initializeContract, gets_run, ensure_seq_ok, net_run, check_seq_ok, requireNotSelf,
    requireDistinct, guardK_ok, modifyOwn, modify_ok] at h
  obtain ⟨hnone, _, -, _, -, _, -, rfl⟩ := h
  have hempty := (hS.uninit hnone).2
  exact ⟨.keep, ⟨fun i _ => hempty i, hS.current, fun h => by cases h⟩,
    fun _ _ h => h.congr rfl rfl⟩

theorem mintInvoice_effect (hS : s.own.WellFormed) {sme : Address} {hash : Bytes} {amount : ℤ}
    {currency : Symbol} {due score id : ℕ} {cid : String} {notes : Option String}
    (h : mintInvoice sme hash amount currency due cid score notes env s = .ok id t) :
    Effect op env s.own t.own := by
  obtain ⟨hacts, -, -, rfl, -, rfl⟩ := mintInvoice_ok h
  refine ⟨.mint _ rfl hacts.auth, ⟨fun i hi => ?_, fun i r hr => ?_, fun h => ?_⟩,
    fun _ _ h => h.congr rfl rfl⟩
  · have hlt : s.own.nextId.getD 1 < i := hi
    show Function.update s.own.invoice _ _ i = none
    rw [Function.update_of_ne hlt.ne']
    exact hS.fresh i hlt.le
  · simp only [Storage.asMinted, Storage.put, Function.update_apply] at hr
    split_ifs at hr
    · exact ⟨_, (Option.some.inj hr).symm⟩
    · exact hS.current i r hr
  · have hwired := hacts.wired
    rw [(hS.uninit h).1] at hwired
    cases hwired

theorem migrateRecords_frame (hS : ∀ i r, s.own.invoice i = some r → ∃ inv, r = .current inv)
    {ids : List ℕ} (h : migrateRecords ids env s = .ok u t) : t = s := by
  induction ids with
  | nil => exact (pure_ok.mp h).2.symm
  | cons id ids ih =>
    rw [migrateRecords, migrateRecord, assoc_run, gets_run] at h
    cases hr : s.own.invoice id with
    | none =>
      rw [hr] at h
      exact ih h
    | some r =>
      obtain ⟨inv, rfl⟩ := hS id r hr
      rw [hr] at h
      exact absurd h (by simp [throw_seq_ok])

theorem migrate_effect (hS : s.own.WellFormed) {admin : Address}
    (h : migrate admin env s = .ok u t) : Effect op env s.own t.own := by
  simp only [migrate, requireAuth_seq_ok, requireAdmin_seq_ok, gets_run, ite_run, modifyOwn,
    modify_run] at h
  obtain ⟨-, -, h⟩ := h
  split_ifs at h with h₁ h₂
  · simp only [bind_ok, modify_ok] at h
    obtain ⟨_, _, hm, rfl⟩ := h
    obtain rfl := migrateRecords_frame (by exact hS.current) hm
    exact .frame hS rfl rfl rfl rfl rfl rfl
  · obtain ⟨-, rfl⟩ := pure_ok.mp h
    exact .frame hS rfl rfl rfl rfl rfl rfl
  · simp only [bind_ok, modify_ok] at h
    obtain ⟨_, _, hm, rfl⟩ := h
    obtain rfl := migrateRecords_frame (by exact hS.current) hm
    exact .frame hS rfl rfl rfl rfl rfl rfl
  · obtain ⟨-, rfl⟩ := pure_ok.mp h
    exact .frame hS rfl rfl rfl rfl rfl rfl

theorem amendInvoice_effect (hS : s.own.WellFormed) {sme : Address} {id due score : ℕ}
    {hash : Bytes} {amount : ℤ} {cid : String}
    (h : amendInvoice sme id hash amount due cid score env s = .ok u t) :
    Effect op env s.own t.own := by
  obtain ⟨-, -, -, inv, hinv, hst, -, rfl⟩ := amendInvoice_ok h
  exact .rewrite hS hinv rfl (fun _ h => ⟨_, (Option.some.inj h).symm⟩)
    (.edit id inv _ hinv hst hst rfl) rfl rfl rfl rfl

theorem withdrawInvoice_effect (hS : s.own.WellFormed) {sme : Address} {id : ℕ}
    (h : withdrawInvoice sme id env s = .ok u t) : Effect op env s.own t.own := by
  obtain ⟨-, inv, hinv, hst, -, rfl⟩ := withdrawInvoice_ok h
  exact .rewrite hS hinv rfl (fun _ h => by cases h) (.withdraw id inv hinv hst) rfl rfl rfl rfl

theorem commitMetadataHash_effect (hS : s.own.WellFormed) {sme : Address} {id : ℕ} {hash : Bytes}
    (h : commitMetadataHash sme id hash env s = .ok u t) : Effect op env s.own t.own := by
  obtain ⟨-, inv, hinv, hst, -, -, rfl⟩ := commitMetadataHash_ok h
  exact .rewrite hS hinv rfl (fun _ h => ⟨_, (Option.some.inj h).symm⟩)
    (.edit id inv _ hinv hst hst rfl) rfl rfl rfl rfl

/-- **Every entry point changes the invoices in one of the listed ways.** -/
theorem Op.exec_effect (hS : s.own.WellFormed) (h : op.exec env s = .ok u t) :
    Effect op env s.own t.own := by
  cases op with
  | initializeContract admin ac => exact initializeContract_effect hS rfl h
  | setRiskRegistry admin rr =>
    simp only [exec, InvoiceNft.setRiskRegistry, requireAuth_seq_ok, requireAdmin_seq_ok, net_run,
      check_seq_ok, modifyOwn, modify_ok] at h
    obtain ⟨-, -, _, -, rfl⟩ := h
    exact .frame hS rfl rfl rfl rfl rfl rfl
  | migrate admin => exact migrate_effect hS h
  | setAuthorizedCallers admin mp fp =>
    simp only [exec, InvoiceNft.setAuthorizedCallers, requireAuth_seq_ok, requireAdmin_seq_ok,
      modifyOwn, modify_ok] at h
    obtain ⟨-, -, rfl⟩ := h
    refine ⟨.keep, ⟨hS.fresh, hS.current, hS.uninit⟩, fun d hk _ => ⟨?_, ?_⟩⟩
    · rintro c ⟨⟩
      exact hk.1
    · rintro c ⟨⟩
      exact hk.2
  | mintInvoice sme hash amount currency due cid score notes =>
    simp only [exec, bind_ok, pure_ok] at h
    obtain ⟨id, _, hm, -, rfl⟩ := h
    exact mintInvoice_effect hS hm
  | amendInvoice sme id hash amount due cid score => exact amendInvoice_effect hS h
  | withdrawInvoice sme id => exact withdrawInvoice_effect hS h
  | commitMetadataHash sme id hash => exact commitMetadataHash_effect hS h
  | setListed caller id =>
    obtain ⟨ha, hc, inv, hinv, hst, rfl⟩ := setListed_ok h
    exact .transition hS (Storage.moved_asListed hinv hst) (.list hc ha)
  | setFunded caller id =>
    obtain ⟨ha, hc, inv, hinv, hst, rfl⟩ := setFunded_ok h
    exact .transition hS (Storage.moved_asFunded hinv hst) (.fund hc ha)
  | setRepaid caller id =>
    obtain ⟨ha, hc, inv, hinv, hst, rfl⟩ := setRepaid_ok h
    exact .transition hS (Storage.moved_asRepaid hinv hst) (.repay hc ha)
  | setDefaulted caller id =>
    obtain ⟨-, -, inv, hinv, hst, -, rfl⟩ := setDefaulted_ok h
    exact .transition hS (Storage.moved_asDefaulted hinv hst) (.default rfl)
  | freezeInvoice admin id =>
    simp only [exec, InvoiceNft.freezeInvoice, requireAuth_seq_ok, requireAdmin_seq_ok,
      loadInvoice_seq_ok, modifyOwn, modify_ok] at h
    obtain ⟨-, -, _, -, rfl⟩ := h
    exact .frame hS rfl rfl rfl rfl rfl rfl
  | unfreezeInvoice admin id =>
    simp only [exec, InvoiceNft.unfreezeInvoice, requireAuth_seq_ok, requireAdmin_seq_ok,
      loadInvoice_seq_ok, modifyOwn, modify_ok] at h
    obtain ⟨-, -, _, -, rfl⟩ := h
    exact .frame hS rfl rfl rfl rfl rfl rfl
  | addAllowedCurrency admin currency =>
    simp only [exec, InvoiceNft.addAllowedCurrency, requireAuth_seq_ok, requireAdmin_seq_ok,
      modifyOwn, modify_ok] at h
    obtain ⟨-, -, rfl⟩ := h
    exact .frame hS rfl rfl rfl rfl rfl rfl
  | removeAllowedCurrency admin currency =>
    simp only [exec, InvoiceNft.removeAllowedCurrency, requireAuth_seq_ok, requireAdmin_seq_ok,
      modifyOwn, modify_ok] at h
    obtain ⟨-, -, rfl⟩ := h
    exact .frame hS rfl rfl rfl rfl rfl rfl

end Effects

/-! ## Statuses -/

/-- The status of a stored record. -/
def InvoiceRecord.status? : Option InvoiceRecord → Option InvoiceStatus
  | some (.current inv) => some inv.status
  | _ => none

/-- The status of an invoice. -/
def Storage.status (S : Storage) (id : ℕ) : Option InvoiceStatus :=
  InvoiceRecord.status? (S.invoice id)

/-- The record of an invoice, when it is in the current schema. -/
def Storage.current (S : Storage) (id : ℕ) : Option Invoice :=
  match S.invoice id with
  | some (.current inv) => some inv
  | _ => none

theorem Storage.current_of_current {S : Storage} {id : ℕ} {inv : Invoice}
    (h : S.invoice id = some (.current inv)) : S.current id = some inv := by
  rw [current, h]

theorem Storage.of_current {S : Storage} {id : ℕ} {inv : Invoice} (h : S.current id = some inv) :
    S.invoice id = some (.current inv) := by
  unfold current at h
  split at h
  · cases h
    assumption
  · cases h

/-- The SME that owns an invoice. -/
def Storage.owner (S : Storage) (id : ℕ) : Option Address := (S.current id).map Invoice.sme

/-- The invoice has been financed. -/
def Financed (status : Option InvoiceStatus) : Prop :=
  status = some .funded ∨ status = some .repaid ∨ status = some .defaulted

/-- The invoice is not on the market yet. -/
def Unlisted (status : Option InvoiceStatus) : Prop := status = none ∨ status = some .created

section Status

variable {op : Op} {S T : Storage} {id : ℕ} {inv : Invoice}

theorem Storage.status_of_current (h : S.invoice id = some (.current inv)) :
    S.status id = some inv.status := by
  rw [status, h]
  rfl

section AfterCalls

variable {now j : ℕ}

theorem Storage.status_put :
    (S.put id inv).status j = if j = id then some inv.status else S.status j := by
  simp only [status, put, Function.update_apply]
  split_ifs <;> rfl

@[simp] theorem Storage.status_asListed :
    (S.asListed id inv).status j = if j = id then some .listed else S.status j := status_put

@[simp] theorem Storage.status_asFunded :
    (S.asFunded id inv now).status j = if j = id then some .funded else S.status j := status_put

@[simp] theorem Storage.status_asRepaid :
    (S.asRepaid id inv now).status j = if j = id then some .repaid else S.status j := status_put

@[simp] theorem Storage.status_asDefaulted :
    (S.asDefaulted id inv).status j = if j = id then some .defaulted else S.status j := status_put

end AfterCalls

theorem Storage.Moved.status {a b : InvoiceStatus} (h : S.Moved T id a b) (j : ℕ) :
    S.status id = some a ∧ T.status j = if j = id then some b else S.status j := by
  obtain ⟨inv, inv', hid, rfl, rfl, -, hi⟩ := h.record
  refine ⟨status_of_current hid, ?_⟩
  simp only [Storage.status, hi, Function.update_apply]
  split_ifs <;> rfl

theorem Unlisted.not_financed {x : Option InvoiceStatus} (h : Unlisted x) : ¬ Financed x := by
  rcases h with rfl | rfl <;> simp [Financed]

theorem Effect.status_cases (hS : S.WellFormed) (h : Effect op env S T) (id : ℕ) :
    T.status id = S.status id ∨ (Unlisted (S.status id) ∧ Unlisted (T.status id)) ∨
      ∃ a b, S.status id = some a ∧ T.status id = some b ∧ Transition op env S a b := by
  have hT := h.change
  unfold Storage.status
  generalize T.invoice = r at hT
  cases hT with
  | keep => exact Or.inl rfl
  | mint inv hinv _ =>
    rw [Function.update_apply]
    split_ifs with hid
    · refine Or.inr (Or.inl ⟨?_, Or.inr (congrArg some hinv)⟩)
      rw [hS.fresh id hid.ge]
      exact Or.inl rfl
    · exact Or.inl rfl
  | edit j inv inv' hj hinv hinv' _ =>
    rw [Function.update_apply]
    split_ifs with hid
    · subst hid
      rw [hj]
      exact Or.inl (congrArg some (hinv'.trans hinv.symm))
    · exact Or.inl rfl
  | withdraw j inv hj hinv =>
    rw [Function.update_apply]
    split_ifs with hid
    · subst hid
      rw [hj]
      exact Or.inr (Or.inl ⟨Or.inr (congrArg some hinv), Or.inl rfl⟩)
    · exact Or.inl rfl
  | move j inv inv' hj ht _ =>
    rw [Function.update_apply]
    split_ifs with hid
    · subst hid
      rw [hj]
      exact Or.inr (Or.inr ⟨_, _, rfl, rfl, ht⟩)
    · exact Or.inl rfl

/-- **A financed invoice stays financed, and none becomes funded again.** -/
theorem Effect.financed (hS : S.WellFormed) (h : Effect op env S T) (hf : Financed (S.status id)) :
    Financed (T.status id) ∧ (T.status id = some .funded → S.status id = some .funded) := by
  rcases h.status_cases hS id with hid | ⟨hu, -⟩ | ⟨a, b, ha, hb, ht⟩
  · rw [hid]
    exact ⟨hf, fun h => h⟩
  · exact absurd hf hu.not_financed
  · rw [ha] at hf
    rw [ha, hb]
    cases ht <;> simp [Financed] at hf ⊢

/-- Without the authorised callers only the admin's `setDefaulted` moves an invoice. -/
theorem Transition.quiet {a b : InvoiceStatus} (h : Transition op env S a b)
    (hm : ∀ c, S.marketplace = some c → ¬ env.Authenticates c)
    (hp : ∀ c, S.financingPool = some c → ¬ env.Authenticates c) :
    a = .funded ∧ b = .defaulted ∧ ∃ c i, op = .setDefaulted c i := by
  cases h with
  | list hc ha => exact absurd ha (hm _ hc)
  | fund hc ha => exact absurd ha (hp _ hc)
  | repay hc ha => exact absurd ha (hp _ hc)
  | default h => exact ⟨rfl, rfl, _, _, h⟩

/-- Every stored invoice belongs to an account outside `A`. -/
def Storage.OwnedOutside (A : List Address) (S : Storage) : Prop :=
  ∀ i inv, S.invoice i = some (.current inv) → inv.sme ∉ A

theorem Storage.Moved.ownedOutside {A : List Address} {a b : InvoiceStatus}
    (h : S.Moved T id a b) (hS : S.OwnedOutside A) : T.OwnedOutside A := by
  obtain ⟨inv, inv', hid, -, -, hsme, hi⟩ := h.record
  intro j inv₁ hj
  rw [hi, Function.update_apply] at hj
  split_ifs at hj
  · cases hj
    exact hsme ▸ hS id inv hid
  · exact hS j inv₁ hj

/-- SMEs sign their invoices, so addresses that never sign own none. -/
theorem Effect.ownedOutside {A : List Address} (h : Effect op env S T)
    (hA : ∀ a ∈ A, ¬ env.Authenticates a) (hS : S.OwnedOutside A) : T.OwnedOutside A := by
  have hT := h.change
  unfold Storage.OwnedOutside
  generalize T.invoice = r at hT
  have key : ∀ (id : ℕ) (v : Option InvoiceRecord), (∀ inv, v = some (.current inv) → inv.sme ∉ A) →
      ∀ i inv, Function.update S.invoice id v i = some (.current inv) → inv.sme ∉ A := by
    intro id v hv i inv hi
    rw [Function.update_apply] at hi
    split_ifs at hi
    · exact hv inv hi
    · exact hS i inv hi
  cases hT with
  | keep => exact hS
  | mint inv _ hauth =>
    refine key _ _ ?_
    rintro _ ⟨⟩ hmem
    exact hA _ hmem hauth
  | edit j inv inv' hj _ _ hsme =>
    refine key _ _ ?_
    rintro _ ⟨⟩
    exact hsme ▸ hS j inv hj
  | withdraw j inv hj _ =>
    refine key _ _ ?_
    rintro _ ⟨⟩
  | move j inv inv' hj _ hsme =>
    refine key _ _ ?_
    rintro _ ⟨⟩
    exact hsme ▸ hS j inv hj

end Status

end Kora.InvoiceNft
