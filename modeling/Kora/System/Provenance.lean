import Kora.InvoiceNft.Lifecycle
import Kora.RiskRegistry.Verifiers
import Kora.System.Custody
import Kora.System.Listings
import Kora.System.Registry

set_option autoImplicit false

/-!
# Where a listing comes from

Behind every listing stands a chain of signatures: the seller, the verifier that attested the
seller, the admin that enrolled the verifier, the admin that admitted the token, and the SME that
minted the invoice.

* `Enrolled`, `Attested`, `Admitted`, `Minted`, `Offered`: the links, each since a step of the run;
* `enrolled_of_verifier`, `attested_of_attests`, `admitted_of_whitelisted`, `minted_of_invoice`: the
  ledger shows each link;
* **`provenance`**: the chain, in every run.
-/

namespace Kora

open Exec Run

/-! ## Statement -/

/-- Address `x` signs the action, a successful transaction at the entry point `e`. -/
def Signs (d : Deployment) (w : World) (x : Address) (e : Entry) : Action → Prop
  | .call c => c.Succeeds d w ∧ c.entry = e ∧ x ∈ c.signers
  | .tick _ => False

section Links

variable (d : Deployment) (w : World)

/-- The admin of the registry enrolled `v` as a verifier, and none has removed it since. -/
def Enrolled (v : Address) : List Action → Prop := Since
  (fun as a => ∃ admin stake, (run (step d) w as).riskRegistry.admin = some admin ∧
    Signs d (run (step d) w as) admin (.riskRegistry (.addVerifier admin v stake)) a)
  fun as a => ∃ admin, Performs d (run (step d) w as) (.riskRegistry (.removeVerifier admin v)) a

/-- A verifier, enrolled at that time, attested that `sme` is compliant; `sme` was never registered
again. -/
def Attested (sme : Address) : List Action → Prop := Since
  (fun as a => ∃ v score, Enrolled d w v as ∧
    Signs d (run (step d) w as) v (.riskRegistry (.registerSme v sme score true)) a)
  fun as a => ∃ v score attested,
    Performs d (run (step d) w as) (.riskRegistry (.registerSme v sme score attested)) a

/-- The admin of the marketplace admitted the token, and none has removed it since. -/
def Admitted (token : Address) : List Action → Prop := Since
  (fun as a => ∃ config, (run (step d) w as).marketplace.currentConfig = some config ∧
    Signs d (run (step d) w as) config.admin (.marketplace (.whitelistToken config.admin token)) a)
  fun as a => ∃ admin,
    Performs d (run (step d) w as) (.marketplace (.removeTokenWhitelist admin token)) a

/-- `sme` minted invoice `i`, and has not withdrawn it since. -/
def Minted (i : ℕ) (sme : Address) : List Action → Prop := Since
  (fun as a => (run (step d) w as).books.next = i ∧ ∃ hash amount currency due cid score notes,
    Signs d (run (step d) w as) sme
      (.invoiceNft (.mintInvoice sme hash amount currency due cid score notes)) a)
  fun as a => ∃ caller, Performs d (run (step d) w as) (.invoiceNft (.withdrawInvoice caller i)) a

/-- The seller listed the invoice on these terms when it was attested, the token admitted and the
invoice minted; the invoice was never listed again. -/
def Offered (i : ℕ) (l : Listing) : List Action → Prop := Since
  (fun as a => Attested d w l.seller as ∧ Admitted d w l.token as ∧ (∃ sme, Minted d w i sme as) ∧
    ∃ referrer, Signs d (run (step d) w as) l.seller (.marketplace (.listInvoice l.seller i
      l.askingPrice l.faceValue l.token l.fundingDeadline referrer)) a)
  fun as a => ∃ seller price face token deadline referrer, Performs d (run (step d) w as)
    (.marketplace (.listInvoice seller i price face token deadline referrer)) a

end Links

section Signatures

variable {d : Deployment} {w : World} {x : Address} {e : Entry} {a : Action} {env : Env}

theorem Signs.of_performed (hp : performed d w a = some (env, e)) (ha : env.Authenticates x) :
    Signs d w x e a := by
  obtain ⟨c, rfl, rfl, rfl, h⟩ := performed_call hp
  exact ⟨Call.succeeds_iff.mpr ⟨_, h⟩, rfl, Call.signed ha⟩

theorem Performs.entry_eq {e' : Entry} (h : Performs d w e' a)
    (hp : performed d w a = some (env, e)) : e' = e := by
  cases a with
  | tick => cases hp
  | call c =>
    rw [performed_of_succeeds h.1] at hp
    exact h.2.symm.trans (Prod.mk.inj (Option.some.inj hp)).2

theorem Performs.performs_env (h : Performs d w e a) : ∃ env, performed d w a = some (env, e) := by
  cases a with
  | tick => exact h.elim
  | call c =>
    obtain ⟨hs, rfl⟩ := h
    exact ⟨_, performed_of_succeeds hs⟩

end Signatures

/-! ## The registry -/

section Registry

open RiskRegistry

theorem RiskRegistry.Effect.flag {env : Env} {S T : RiskRegistry.Storage} {op : RiskRegistry.Op}
    {v : Address} (hquiet : op.Quiet → QuietEffect env S op T) (h : RiskRegistry.Effect env S op T)
    (hv : T.verifier v = true) :
    (∃ admin stake, S.admin = some admin ∧ op = .addVerifier admin v stake) ∨
      S.verifier v = true ∧ ∀ admin, op ≠ .removeVerifier admin v := by
  cases h with
  | addVerifier admin v' stake log hadmin =>
    rcases eq_or_ne v v' with rfl | hne
    · exact Or.inl ⟨admin, stake, hadmin, rfl⟩
    · simp only [Function.update_of_ne hne] at hv
      exact Or.inr ⟨hv, nofun⟩
  | removeVerifier admin v' =>
    rcases eq_or_ne v v' with rfl | hne
    · simp at hv
    · simp only [Function.update_of_ne hne] at hv
      refine Or.inr ⟨hv, ?_⟩
      rintro _ ⟨⟩
      exact hne rfl
  | registerSme | updateSmeScore | setCreditLimit | incrementInvoiceCount | recordDefault =>
    exact Or.inr ⟨hv, nofun⟩
  | rest _ _ hop =>
    cases hquiet hop with
    | initializeContract | transferAdmin | setDebtorScore => exact Or.inr ⟨hv, nofun⟩

/-- The registry records that `sme` was attested. -/
def RiskRegistry.Storage.Attests (S : RiskRegistry.Storage) (sme : Address) : Prop :=
  (S.smeProfile sme).map SmeProfile.complianceAttested = some true

theorem RiskRegistry.Storage.attests_update {S T : RiskRegistry.Storage} {sme who : Address}
    {p : SmeProfile} (hT : T.smeProfile = Function.update S.smeProfile who (some p)) :
    T.Attests sme ↔ if sme = who then p.complianceAttested = true else S.Attests sme := by
  unfold Attests
  rw [hT, Function.update_apply]
  split_ifs <;> simp

theorem RiskRegistry.Storage.attests_rewrite {S T : RiskRegistry.Storage} {sme who : Address}
    {p q : SmeProfile} (hT : T.smeProfile = Function.update S.smeProfile who (some q))
    (hp : S.smeProfile who = some p) (hq : q.complianceAttested = p.complianceAttested) :
    T.Attests sme ↔ S.Attests sme := by
  rw [attests_update hT]
  split_ifs with hwho
  · rw [hwho, Attests, hp, hq, Option.map_some, Option.some.injEq]
  · rfl

theorem RiskRegistry.Effect.attests {env : Env} {S T : RiskRegistry.Storage} {op : RiskRegistry.Op}
    {sme : Address} (h : RiskRegistry.Effect env S op T) (hattests : T.Attests sme) :
    (∃ v score, S.verifier v = true ∧ op = .registerSme v sme score true) ∨
      S.Attests sme ∧ ∀ v score attested, op ≠ .registerSme v sme score attested := by
  cases h with
  | addVerifier | removeVerifier => exact Or.inr ⟨hattests, nofun⟩
  | registerSme v who score attested hverifier =>
    rw [Storage.attests_update rfl] at hattests
    split_ifs at hattests with hwho
    · subst hwho
      obtain rfl : attested = true := hattests
      exact Or.inl ⟨v, score, hverifier, rfl⟩
    · refine Or.inr ⟨hattests, ?_⟩
      rintro _ _ _ ⟨⟩
      exact hwho rfl
  | updateSmeScore _ who _ p hp =>
    exact Or.inr ⟨(Storage.attests_rewrite rfl hp (by rfl)).mp hattests, nofun⟩
  | setCreditLimit _ who _ p hp =>
    exact Or.inr ⟨(Storage.attests_rewrite rfl hp (by rfl)).mp hattests, nofun⟩
  | incrementInvoiceCount _ who p _ _ hp =>
    exact Or.inr ⟨(Storage.attests_rewrite rfl hp (by rfl)).mp hattests, nofun⟩
  | recordDefault _ who p _ _ _ _ hp =>
    exact Or.inr ⟨(Storage.attests_rewrite rfl hp (by rfl)).mp hattests, nofun⟩
  | rest _ _ hop _ hsame =>
    refine Or.inr ⟨?_, ?_⟩
    · rwa [Storage.Attests, hsame] at hattests
    · rintro _ _ _ rfl
      exact hop

variable {d : Deployment} {w : World} {a : Action} {env : Env} {v sme : Address}

theorem RiskRegistry.addVerifier_auth {s t : RiskRegistry.State} {admin : Address} {stake : ℤ}
    {u : Unit} (h : addVerifier admin v stake env s = .ok u t) : env.Authenticates admin := by
  rw [addVerifier, requireAuth_seq_ok] at h
  exact h.1

theorem RiskRegistry.registerSme_auth {S T : RiskRegistry.Storage} {score : ℕ} {attested : Bool}
    {u : Unit} (h : registerSme v sme score attested env S = .ok u T) : env.Authenticates v := by
  rw [registerSme, requireAuth_seq_ok] at h
  exact h.1

theorem verifier_step (h : (step d w a).riskRegistry.verifier v = true) :
    (∃ admin stake, w.riskRegistry.admin = some admin ∧
      Signs d w admin (.riskRegistry (.addVerifier admin v stake)) a) ∨
    w.riskRegistry.verifier v = true ∧
      ¬ ∃ admin, Performs d w (.riskRegistry (.removeVerifier admin v)) a := by
  cases registry_step d w a with
  | own env op hp heffect =>
    rcases heffect.flag (fun hquiet => quiet_step hquiet hp) h with
      ⟨admin, stake, hadmin, rfl⟩ | ⟨hv, hne⟩
    · have hadd := addVerifier_auth (performed_exec hp).2
      exact Or.inl ⟨admin, stake, hadmin, .of_performed hp hadd⟩
    · refine Or.inr ⟨hv, ?_⟩
      rintro ⟨admin, hremove⟩
      cases hremove.entry_eq hp
      exact hne admin rfl
  | marked env admin i token who hp _ heffect =>
    obtain ⟨_, _, -, hverifier, -⟩ := heffect.writes
    rw [hverifier] at h
    refine Or.inr ⟨h, ?_⟩
    rintro ⟨_, hremove⟩
    cases hremove.entry_eq hp
  | rest hother _ hsame =>
    rw [hsame] at h
    refine Or.inr ⟨h, ?_⟩
    rintro ⟨admin, hremove⟩
    obtain ⟨env, hp⟩ := hremove.performs_env
    exact hother env _ hp

theorem attests_step (h : (step d w a).riskRegistry.Attests sme) :
    (∃ v score, w.riskRegistry.verifier v = true ∧
      Signs d w v (.riskRegistry (.registerSme v sme score true)) a) ∨
    w.riskRegistry.Attests sme ∧ ¬ ∃ v score attested,
      Performs d w (.riskRegistry (.registerSme v sme score attested)) a := by
  cases registry_step d w a with
  | own env op hp heffect =>
    rcases heffect.attests h with ⟨v, score, hverifier, rfl⟩ | ⟨hattests, hne⟩
    · obtain ⟨S, hS, -⟩ := own_ok.mp (performed_exec hp).2
      exact Or.inl ⟨v, score, hverifier, .of_performed hp (registerSme_auth hS)⟩
    · refine Or.inr ⟨hattests, ?_⟩
      rintro ⟨v, score, attested, hregister⟩
      cases hregister.entry_eq hp
      exact hne v score attested rfl
  | marked env admin i token who hp _ heffect =>
    refine Or.inr ⟨?_, ?_⟩
    · rcases heffect.attests h with ⟨_, _, -, ⟨⟩⟩ | ⟨hattests, -⟩
      exact hattests
    · rintro ⟨_, _, _, hregister⟩
      cases hregister.entry_eq hp
  | rest hother _ hsame =>
    rw [hsame] at h
    refine Or.inr ⟨h, ?_⟩
    rintro ⟨v, score, attested, hregister⟩
    obtain ⟨env, hp⟩ := hregister.performs_env
    exact hother env _ hp

end Registry

/-! ## Invoices -/

section Invoices

open InvoiceNft

theorem InvoiceNft.Books.Step.owner {now i : ℕ} {B B' : Books} {ev : Event} {sme : Address}
    (h : B.Step now ev B') (hsme : (B'.invoice i).map Invoice.sme = some sme) :
    (∃ terms, ev = .mint terms ∧ B.next = i ∧ terms.sme = sme) ∨
      (B.invoice i).map Invoice.sme = some sme ∧ ev ≠ .withdraw i := by
  -- A record that is written keeps its owner.
  have hput : ∀ {j : ℕ} {inv inv' : Invoice}, B.invoice j = some inv → inv'.sme = inv.sme →
      (Function.update B.invoice j (some inv') i).map Invoice.sme = some sme →
      (B.invoice i).map Invoice.sme = some sme := by
    intro j inv inv' hj hsame hsme
    rw [Function.update_apply] at hsme
    split_ifs at hsme with hi
    · rw [hi, hj, Option.map_some, ← hsame]
      exact hsme
    · exact hsme
  cases h with
  | keep => exact Or.inr ⟨hsme, nofun⟩
  | mint terms =>
    simp only [Function.update_apply] at hsme
    split_ifs at hsme with hi
    · exact Or.inl ⟨terms, rfl, hi.symm, Option.some.inj hsme⟩
    · exact Or.inr ⟨hsme, nofun⟩
  | amend j m inv hj => exact Or.inr ⟨hput hj (by rfl) hsme, nofun⟩
  | commit j hash inv hj => exact Or.inr ⟨hput hj (by rfl) hsme, nofun⟩
  | list j inv hj => exact Or.inr ⟨hput hj (by rfl) hsme, nofun⟩
  | fund j inv hj => exact Or.inr ⟨hput hj (by rfl) hsme, nofun⟩
  | repay j inv hj => exact Or.inr ⟨hput hj (by rfl) hsme, nofun⟩
  | default j inv hj => exact Or.inr ⟨hput hj (by rfl) hsme, nofun⟩
  | withdraw j =>
    simp only [put, release, Function.update_apply] at hsme
    split_ifs at hsme with hi
    · cases hsme
    · refine Or.inr ⟨hsme, ?_⟩
      rintro ⟨⟩
      exact hi rfl

variable {d : Deployment} {w : World} {a : Action} {i : ℕ} {sme : Address}

theorem Performs.signs_mint {hash : Bytes} {amount : ℤ} {currency : Symbol} {due score : ℕ}
    {cid : String} {notes : Option String}
    (h : Performs d w (.invoiceNft (.mintInvoice sme hash amount currency due cid score notes)) a) :
    Signs d w sme (.invoiceNft (.mintInvoice sme hash amount currency due cid score notes)) a := by
  obtain ⟨env, hp⟩ := h.performs_env
  obtain ⟨_, -, -, -, hexec⟩ := performed_call hp
  obtain ⟨s, hs, -⟩ := onInvoiceNft_ok.mp hexec
  obtain ⟨id, s', hmint, -⟩ := bind_ok.mp hs
  exact .of_performed hp (mintInvoice_ok hmint).1.auth

theorem owner_step (hw : BooksSound w)
    (h : ((step d w a).books.invoice i).map Invoice.sme = some sme) :
    (w.books.next = i ∧ ∃ hash amount currency due cid score notes, Signs d w sme
      (.invoiceNft (.mintInvoice sme hash amount currency due cid score notes)) a) ∨
    (w.books.invoice i).map Invoice.sme = some sme ∧
      ¬ ∃ caller, Performs d w (.invoiceNft (.withdrawInvoice caller i)) a := by
  obtain ⟨ev, hstep, -, hev⟩ := books_step (d := d) hw a
  rcases hstep.owner h with ⟨terms, rfl, hnext, rfl⟩ | ⟨howner, hne⟩
  · obtain ⟨op, hop, he⟩ := (mints_iff hev).mp rfl
    cases op with
    | mintInvoice sme hash amount currency due cid score notes =>
      cases he
      exact Or.inl ⟨hnext, hash, amount, currency, due, cid, score, notes, hop.signs_mint⟩
    | _ => cases he
  · refine Or.inr ⟨howner, ?_⟩
    rintro ⟨caller, hwithdraw⟩
    rcases hev with ⟨op, hop, rfl⟩ | ⟨hnone, -⟩
    · cases hop.unique hwithdraw
      exact hne rfl
    · exact hnone _ hwithdraw

end Invoices

/-! ## The marketplace -/

section Marketplace

open Marketplace

theorem Marketplace.Op.exec_whitelist {env : Env} {w w' : World} {u : Unit} {op : Marketplace.Op}
    {token : Address} (h : op.exec env w = .ok u w')
    (htoken : w'.marketplace.whitelistedToken token = true) :
    (∃ config, w.marketplace.currentConfig = some config ∧ env.Authenticates config.admin ∧
      op = .whitelistToken config.admin token) ∨
    w.marketplace.whitelistedToken token = true ∧
      ∀ admin, op ≠ .removeTokenWhitelist admin token := by
  cases op with
  | whitelistToken admin t =>
    have hauth := h
    simp only [Op.exec, Marketplace.whitelistToken, requireAuth_seq_ok,
      requireAdmin_seq_ok] at hauth
    obtain ⟨ha, config, hc, rfl, -⟩ := hauth
    obtain ⟨_, -, rfl⟩ := whitelistToken_ok h
    simp only [Function.update_apply] at htoken
    split_ifs at htoken with ht
    · subst ht
      exact Or.inl ⟨config, hc, ha, rfl⟩
    · exact Or.inr ⟨htoken, fun _ h => by cases h⟩
  | removeTokenWhitelist admin t =>
    obtain ⟨_, -, rfl⟩ := removeTokenWhitelist_ok h
    simp only [Function.update_apply] at htoken
    split_ifs at htoken with ht
    refine Or.inr ⟨htoken, ?_⟩
    rintro _ ⟨⟩
    exact ht rfl
  | initializeContract =>
    obtain ⟨-, rfl⟩ := initializeContract_ok h
    exact Or.inr ⟨htoken, fun _ h => by cases h⟩
  | setReferrerSplitBps =>
    obtain ⟨_, -, rfl⟩ := setReferrerSplitBps_ok h
    exact Or.inr ⟨htoken, fun _ h => by cases h⟩
  | setFeeBps =>
    obtain ⟨-, _, -, rfl⟩ := setFeeBps_ok h
    exact Or.inr ⟨htoken, fun _ h => by cases h⟩
  | updateFeeBps =>
    obtain ⟨-, _, -, rfl⟩ := setFeeBps_ok h
    exact Or.inr ⟨htoken, fun _ h => by cases h⟩
  | setTierFeeBps =>
    obtain ⟨-, _, -, rfl⟩ := setTierFeeBps_ok h
    exact Or.inr ⟨htoken, fun _ h => by cases h⟩
  | listInvoice =>
    obtain ⟨-, -, -, -, -, _, _, -, -, -, -, rfl⟩ := listInvoice_ok h
    exact Or.inr ⟨htoken, fun _ h => by cases h⟩
  | fundInvoice =>
    obtain ⟨_, _, _, _, hF⟩ := fundInvoice_ok h
    rw [hF.marketplace] at htoken
    exact Or.inr ⟨htoken, fun _ h => by cases h⟩
  | cancelListing =>
    obtain ⟨_, _, -, -, -, rfl⟩ := cancelListing_ok h
    exact Or.inr ⟨htoken, fun _ h => by cases h⟩
  | requestCancellation =>
    obtain ⟨_, _, -, -, -, ⟨-, rfl⟩ | ⟨_, rfl⟩⟩ := requestCancellation_ok h
    · exact Or.inr ⟨htoken, fun _ h => by cases h⟩
    · exact Or.inr ⟨htoken, fun _ h => by cases h⟩
  | adminConfirmCancellation =>
    obtain ⟨_, _, _, -, -, -, rfl⟩ := adminConfirmCancellation_ok h
    exact Or.inr ⟨htoken, fun _ h => by cases h⟩
  | claimRefund =>
    obtain ⟨_, _, _, -, -, -, -, -, -, -, rfl⟩ := claimRefund_ok h
    exact Or.inr ⟨htoken, fun _ h => by cases h⟩

variable {d : Deployment} {w : World} {a : Action} {token : Address}

theorem whitelist_step (h : (step d w a).marketplace.whitelistedToken token = true) :
    (∃ config, w.marketplace.currentConfig = some config ∧ Signs d w config.admin
      (.marketplace (.whitelistToken config.admin token)) a) ∨
    w.marketplace.whitelistedToken token = true ∧
      ¬ ∃ admin, Performs d w (.marketplace (.removeTokenWhitelist admin token)) a := by
  rcases step_performed d w a with ⟨env, e, hp, -, hexec⟩ | ⟨hp, n, hw⟩
  · by_cases hm : ∃ op, e = .marketplace op
    · obtain ⟨op, rfl⟩ := hm
      rcases Op.exec_whitelist hexec h with ⟨config, hc, ha, rfl⟩ | ⟨hbefore, hne⟩
      · exact Or.inl ⟨config, hc, .of_performed hp ha⟩
      · refine Or.inr ⟨hbefore, ?_⟩
        rintro ⟨admin, hremove⟩
        cases hremove.entry_eq hp
        exact hne admin rfl
    · push Not at hm
      rw [(Entry.exec_effect hexec).marketplace hm] at h
      refine Or.inr ⟨h, ?_⟩
      rintro ⟨admin, hremove⟩
      exact hm _ (hremove.entry_eq hp).symm
  · rw [hw] at h
    refine Or.inr ⟨h, ?_⟩
    rintro ⟨admin, hremove⟩
    obtain ⟨env, hp'⟩ := hremove.performs_env
    rw [hp] at hp'
    cases hp'

theorem Marketplace.attests_of_required {env : Env} {w' : World} {u : Unit} {sme : Address}
    {l : Unit → Host World Unit} (h : (requireComplianceAttested sme >>= l) env w = .ok u w') :
    w.riskRegistry.Attests sme := by
  simp only [requireComplianceAttested, assoc_run, loadConfig_seq_ok, net_run, callFrom_seq_ok,
    onRiskRegistry_ok, RiskRegistry.own, zoom_ok, RiskRegistry.isComplianceAttested, gets_ok,
    ensure_seq_ok] at h
  obtain ⟨config, hc, -, ok, _, ⟨_, ⟨_, ⟨rfl, rfl⟩, rfl⟩, rfl⟩, hok, h⟩ := h
  unfold RiskRegistry.Storage.Attests
  revert hok
  cases (w.riskRegistry.smeProfile sme).map SmeProfile.complianceAttested with
  | none =>
    rintro ⟨⟩
  | some b =>
    rintro rfl
    rfl

/-- What a listing requires of its seller and its token. -/
theorem Marketplace.listInvoice_requires {env : Env} {w' : World} {u : Unit}
    {seller : Address} {i : ℕ} {price face : ℤ} {deadline : ℕ} {referrer : Option Address}
    (h : listInvoice seller i price face token deadline referrer env w = .ok u w') :
    env.Authenticates seller ∧ w.marketplace.whitelistedToken token = true ∧
      w.riskRegistry.Attests seller := by
  simp only [listInvoice, requireAuth_seq_ok] at h
  obtain ⟨ha, h⟩ := h
  replace h := requireNotPaused_seq_ok h
  simp only [timestamp_run, check_seq_ok, ensure_seq_ok, requireWhitelistedToken_seq_ok] at h
  obtain ⟨_, -, _, -, _, -, _, -, _, -, -, htoken, h⟩ := h
  exact ⟨ha, htoken, attests_of_required h⟩

/-- The listing with its funding left out. -/
def Listing.terms (l : Listing) : Listing := { l with fundedAmount := 0, isActive := true }

theorem terms_step {i : ℕ} {t : Listing}
    (h : ((step d w a).marketplace.listing i).map Listing.terms = some t) :
    (w.riskRegistry.Attests t.seller ∧ w.marketplace.whitelistedToken t.token = true ∧
      (∃ inv, w.invoiceNft.invoice i = some (.current inv)) ∧
      ∃ referrer, Signs d w t.seller (.marketplace (.listInvoice t.seller i t.askingPrice
        t.faceValue t.token t.fundingDeadline referrer)) a) ∨
    (w.marketplace.listing i).map Listing.terms = some t ∧
      ¬ ∃ seller price face token deadline referrer, Performs d w
        (.marketplace (.listInvoice seller i price face token deadline referrer)) a := by
  rcases step_performed d w a with ⟨env, e, hp, -, hexec⟩ | ⟨hp, n, hw⟩
  · -- An invoice that is listed is not listed again.
    have hkept : ∀ l, w.marketplace.listing i = some l →
        ¬ ∃ seller price face token deadline referrer, Performs d w
          (.marketplace (.listInvoice seller i price face token deadline referrer)) a := by
      rintro l hl ⟨_, _, _, _, _, _, hlist⟩
      cases hlist.entry_eq hp
      have hnone := (listInvoice_ok hexec).2.2.1
      rw [hl] at hnone
      cases hnone
    cases Marketplace.change_of_effect (Entry.exec_effect hexec) i with
    | frame _ _ hsame =>
      rw [hsame.listing] at h
      obtain ⟨l, hl, -⟩ := Option.map_eq_some_iff.mp h
      exact Or.inr ⟨h, hkept l hl⟩
    | listed seller price face token deadline referrer hopen =>
      rw [hopen.listing] at h
      obtain rfl := Option.some.inj h
      obtain ⟨ha, htoken, hattests⟩ := listInvoice_requires hexec
      obtain ⟨-, -, -, -, -, _, inv, -, hinv, -⟩ := listInvoice_ok hexec
      exact Or.inl ⟨hattests, htoken, ⟨inv, hinv⟩, referrer, .of_performed hp ha⟩
    | funded _ _ l _ _ _ hF =>
      rw [hF.listing] at h
      rw [hF.listed]
      exact Or.inr ⟨h, hkept l hF.listed⟩
    | deactivated _ l _ _ hD =>
      rw [hD.listing] at h
      rw [hD.found]
      exact Or.inr ⟨h, hkept l hD.found⟩
    | refunded _ l _ _ hR =>
      rw [hR.listing] at h
      exact Or.inr ⟨h, hkept l hR.found⟩
  · rw [hw] at h
    refine Or.inr ⟨h, ?_⟩
    rintro ⟨_, _, _, _, _, _, hlist⟩
    obtain ⟨env, hp'⟩ := hlist.performs_env
    rw [hp] at hp'
    cases hp'

end Marketplace

/-! ## Runs -/

section Runs

variable (d : Deployment) (now : ℕ) (tokens : Tokens) (as : List Action)

/-- **Every verifier was enrolled** by the admin of the registry, and not removed since. -/
theorem enrolled_of_verifier (v : Address)
    (h : (run (step d) (genesis now tokens) as).riskRegistry.verifier v = true) :
    Enrolled d (genesis now tokens) v as := by
  refine since_of_holds
    (Q := fun as => (run (step d) (genesis now tokens) as).riskRegistry.verifier v = true)
    (by simp [genesis]) (fun as a h => ?_) h
  rw [run_append] at h
  exact verifier_step h

theorem attested_of_attests (sme : Address)
    (h : (run (step d) (genesis now tokens) as).riskRegistry.Attests sme) :
    Attested d (genesis now tokens) sme as := by
  refine since_of_holds
    (Q := fun as => (run (step d) (genesis now tokens) as).riskRegistry.Attests sme)
    (by simp [genesis, RiskRegistry.Storage.Attests]) (fun as a h => ?_) h
  rw [run_append] at h
  rcases attests_step h with ⟨v, score, hverifier, hsigned⟩ | hkept
  · exact Or.inl ⟨v, score, enrolled_of_verifier d now tokens as v hverifier, hsigned⟩
  · exact Or.inr hkept

theorem admitted_of_whitelisted (token : Address)
    (h : (run (step d) (genesis now tokens) as).marketplace.whitelistedToken token = true) :
    Admitted d (genesis now tokens) token as := by
  refine since_of_holds
    (Q := fun as =>
      (run (step d) (genesis now tokens) as).marketplace.whitelistedToken token = true)
    (by simp [genesis]) (fun as a h => ?_) h
  rw [run_append] at h
  exact whitelist_step h

theorem minted_of_invoice (i : ℕ) (sme : Address)
    (h : ((run (step d) (genesis now tokens) as).books.invoice i).map Invoice.sme = some sme) :
    Minted d (genesis now tokens) i sme as := by
  refine since_of_holds
    (Q := fun as =>
      ((run (step d) (genesis now tokens) as).books.invoice i).map Invoice.sme = some sme)
    nofun (fun as a h => ?_) h
  rw [run_append] at h
  exact owner_step (booksSound_run d now tokens as) h

/-- **Where a listing comes from.** Every listing of every reachable ledger goes back to a listing
signed by its seller; at that time the seller had been attested by a verifier, whom the admin of
the registry had enrolled, the token had been admitted by the admin of the marketplace, and the
invoice had been minted by its owner. -/
theorem provenance (i : ℕ) (l : Listing)
    (h : (run (step d) (genesis now tokens) as).marketplace.listing i = some l) :
    Offered d (genesis now tokens) i l as := by
  refine since_of_holds
    (Q := fun as => ((run (step d) (genesis now tokens) as).marketplace.listing i).map
      Listing.terms = some l.terms)
    nofun (fun as a h => ?_) (by rw [h]; rfl)
  rw [run_append] at h
  rcases terms_step h with ⟨hattests, htoken, ⟨inv, hinv⟩, hsigned⟩ | hkept
  · have hbooks : (run (step d) (genesis now tokens) as).books.invoice i = some inv :=
      InvoiceNft.Storage.current_of_current hinv
    refine Or.inl ⟨attested_of_attests d now tokens as _ hattests,
      admitted_of_whitelisted d now tokens as _ htoken,
      ⟨inv.sme, minted_of_invoice d now tokens as i _ ?_⟩, hsigned⟩
    rw [hbooks, Option.map_some]
  · exact Or.inr hkept

end Runs

/-- The listing of the sample invoice. -/
theorem provenance_sample :
    Offered sample sampleGenesis 1 ⟨1, 2, 9_000, 10_000, 50, 0, 500, true⟩ (sampleSetup "USDC") :=
  provenance sample 0 sampleTokens (sampleSetup "USDC") 1 _ (by decide +kernel)

end Kora
