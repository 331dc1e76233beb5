import Kora.Marketplace.Accounting

set_option autoImplicit false

/-!
# The phases of a listing

A listing is open until it is fully funded, withdrawn in one step, or cancelled in two steps: a
request, and its confirmation by the admin. The contract keeps no phase; it is read off the
listing, the pending request and the confirmation flag, and a request outlives the listing.

* `Docket`, `Docket.phase`: what the phase is read off;
* `Docket.Moves`, `Phase.Edge`: what an entry point does to it, and the edges of the machine;
* **`Docket.Moves.edge`**: the contract refines the machine;
* **`listing_phases`**: every run follows the edges, and a final phase is final.
-/

namespace Kora.Marketplace

open Exec Run

/-! ## The machine -/

/-- The phase of a listing. -/
inductive Phase : Type
  | unlisted
  | active
  | requested
  | withdrawn
  | confirmed
  | funded
  deriving DecidableEq

/-- The listing takes contributions. -/
def Phase.Open (p : Phase) : Prop := p = .active ∨ p = .requested

/-- The listing is over. -/
def Phase.Final (p : Phase) : Prop := p = .withdrawn ∨ p = .confirmed ∨ p = .funded

/-- The seller or the admin asks to cancel the listing of invoice `i`. -/
structure Cancels (env : Env) (w : World) (i : ℕ) (caller : Address) : Prop where
  authenticated : env.Authenticates caller
  entitled : ∃ l config, w.marketplace.listing i = some l ∧
    w.marketplace.currentConfig = some config ∧ (caller = l.seller ∨ caller = config.admin)

/-- The edges of the machine, with the entry point that takes each of them. -/
inductive Phase.Edge (env : Env) (w : World) (i : ℕ) : Entry → Phase → Phase → Prop
  | listed (seller : Address) (price face : ℤ) (token : Address) (deadline : ℕ)
      (referrer : Option Address) : env.Authenticates seller → Phase.Edge env w i
        (.marketplace (.listInvoice seller i price face token deadline referrer)) .unlisted .active
  | completed (p : Phase) (investor : Address) (amount : ℤ) : p.Open →
      env.Authenticates investor →
      Phase.Edge env w i (.marketplace (.fundInvoice investor i amount)) p .funded
  | cancelled (p : Phase) (caller : Address) : p.Open → Cancels env w i caller →
      Phase.Edge env w i (.marketplace (.cancelListing caller i)) p .withdrawn
  | withdrawn (caller : Address) : Cancels env w i caller →
      Phase.Edge env w i (.marketplace (.requestCancellation caller i)) .active .withdrawn
  | requested (caller : Address) : Cancels env w i caller →
      Phase.Edge env w i (.marketplace (.requestCancellation caller i)) .active .requested
  | confirmed (admin : Address) (config : MarketplaceConfig) : env.Authenticates admin →
      w.marketplace.currentConfig = some config → config.admin = admin →
      Phase.Edge env w i (.marketplace (.adminConfirmCancellation admin i)) .requested .confirmed

theorem Phase.Edge.not_final {env : Env} {w : World} {i : ℕ} {e : Entry} {p q : Phase}
    (h : Phase.Edge env w i e p q) : ¬ p.Final := by
  cases h with
  | completed p _ _ hp => rcases hp with rfl | rfl <;> simp [Final]
  | cancelled p _ hp => rcases hp with rfl | rfl <;> simp [Final]
  | _ => simp [Final]

/-! ## Dockets -/

/-- What the contract stores about the phase of a listing. -/
structure Docket where
  listing : Option Listing
  request : Option Address
  confirmed : Bool

/-- The docket of invoice `i`. -/
def Storage.docket (S : Storage) (i : ℕ) : Docket :=
  ⟨S.listing i, S.cancellationRequest i, S.cancellationConfirmed i⟩

/-- The phase of a docket. -/
def Docket.phase (b : Docket) : Phase :=
  match b.listing with
  | none => .unlisted
  | some l =>
    if l.isActive = true then
      if b.request = none then .active else .requested
    else if l.fundedAmount = l.askingPrice then .funded
    else if b.confirmed = true then .confirmed
    else .withdrawn

/-- The docket fits together. -/
structure Docket.Sound (b : Docket) : Prop where
  amounts : ∀ l, b.listing = some l → Marketplace.Sound l
  unlisted : b.listing = none → b.request = none ∧ b.confirmed = false
  requested : b.request ≠ none → ∀ l, b.listing = some l → 0 < l.fundedAmount
  confirmed : b.confirmed = true → ∀ l, b.listing = some l →
    l.isActive = false ∧ 0 < l.fundedAmount ∧ l.fundedAmount < l.askingPrice

/-- What an entry point does to the docket of invoice `i`. -/
inductive Docket.Moves (env : Env) (w : World) (i : ℕ) (b : Docket) : Entry → Docket → Prop
  | kept (e : Entry) : Docket.Moves env w i b e b
  | listed (seller : Address) (price face : ℤ) (token : Address) (deadline : ℕ)
      (referrer : Option Address) : env.Authenticates seller → 0 < price → price < face →
      b.listing = none → Docket.Moves env w i b
        (.marketplace (.listInvoice seller i price face token deadline referrer))
        { b with listing := some ⟨i, seller, price, face, token, 0, deadline, true⟩ }
  | funded (investor : Address) (amount : ℤ) (l : Listing) : env.Authenticates investor →
      b.listing = some l → l.isActive = true → 0 < amount →
      l.fundedAmount + amount ≤ l.askingPrice →
      Docket.Moves env w i b (.marketplace (.fundInvoice investor i amount))
        { b with listing := some { l with
          fundedAmount := l.fundedAmount + amount
          isActive := decide (l.fundedAmount + amount < l.askingPrice) } }
  | cancelled (caller : Address) (l : Listing) : Cancels env w i caller → b.listing = some l →
      l.isActive = true → Docket.Moves env w i b (.marketplace (.cancelListing caller i))
        { b with listing := some { l with isActive := false } }
  | withdrawn (caller : Address) (l : Listing) : Cancels env w i caller → b.listing = some l →
      l.isActive = true → l.fundedAmount = 0 →
      Docket.Moves env w i b (.marketplace (.requestCancellation caller i))
        { b with listing := some { l with isActive := false } }
  | requested (caller : Address) (l : Listing) : Cancels env w i caller → b.listing = some l →
      l.isActive = true → l.fundedAmount ≠ 0 → b.request = none →
      Docket.Moves env w i b (.marketplace (.requestCancellation caller i))
        { b with request := some caller }
  | confirmed (admin : Address) (config : MarketplaceConfig) (l : Listing) :
      env.Authenticates admin → w.marketplace.currentConfig = some config →
      config.admin = admin → b.listing = some l → l.isActive = true → b.request ≠ none →
      Docket.Moves env w i b (.marketplace (.adminConfirmCancellation admin i))
        ⟨some { l with isActive := false }, none, true⟩

section Dockets

variable {env : Env} {w : World} {i : ℕ} {b b' : Docket} {e : Entry} {l : Listing}

theorem Docket.phase_active (h : l.isActive = true) (request : Option Address)
    (confirmed : Bool) : Docket.phase ⟨some l, request, confirmed⟩ =
      if request = none then .active else .requested := by
  simp only [phase, h, if_true]

theorem Docket.phase_inactive (h : l.isActive = false) (request : Option Address)
    (confirmed : Bool) : Docket.phase ⟨some l, request, confirmed⟩ =
      if l.fundedAmount = l.askingPrice then .funded
      else if confirmed = true then .confirmed else .withdrawn := by
  simp only [phase, h, Bool.false_eq_true, if_false]

theorem Docket.phase_open (h : l.isActive = true) (request : Option Address) (confirmed : Bool) :
    (Docket.phase ⟨some l, request, confirmed⟩).Open := by
  rw [phase_active h]
  split_ifs
  · exact Or.inl rfl
  · exact Or.inr rfl

theorem Docket.Sound.unconfirmed (hb : b.Sound) (hl : b.listing = some l)
    (h : l.isActive = true) : b.confirmed = false := by
  rw [← Bool.not_eq_true]
  intro hc
  have hinactive := (hb.confirmed hc l hl).1
  rw [h] at hinactive
  cases hinactive

theorem Docket.Sound.phase_deactivated {request : Option Address} {confirmed : Bool}
    (hb : Docket.Sound ⟨some l, request, confirmed⟩) (h : l.isActive = true) :
    Docket.phase ⟨some { l with isActive := false }, request, confirmed⟩ = .withdrawn := by
  have hconfirmed : confirmed = false := hb.unconfirmed rfl h
  rw [phase_inactive rfl, if_neg ((hb.amounts l rfl).active h).ne, hconfirmed]
  rfl

theorem Docket.Sound.deactivated (hb : b.Sound) (hl : b.listing = some l)
    (h : l.isActive = true) :
    Docket.Sound { b with listing := some { l with isActive := false } } := by
  have hamounts := hb.amounts l hl
  refine ⟨?_, nofun, ?_, ?_⟩
  · rintro _ ⟨⟩
    exact ⟨hamounts.positive, hamounts.nonneg, hamounts.within, hamounts.discounted, nofun⟩
  · rintro hreq _ ⟨⟩
    exact hb.requested hreq l hl
  · intro hc
    rw [hb.unconfirmed hl h] at hc
    cases hc

/-- **Every move keeps the docket together.** -/
theorem Docket.Moves.sound (h : Docket.Moves env w i b e b') (hb : b.Sound) : b'.Sound := by
  cases h with
  | kept => exact hb
  | listed seller price face token deadline referrer _ hpos hlt hnone =>
    obtain ⟨hrequest, hconfirmed⟩ := hb.unlisted hnone
    refine ⟨?_, nofun, fun h => absurd hrequest h, fun h => ?_⟩
    · rintro _ ⟨⟩
      exact ⟨hpos, le_rfl, hpos.le, hlt, fun _ => hpos⟩
    · rw [hconfirmed] at h
      cases h
  | funded investor amount l _ hl hactive hpos hle =>
    have hamounts := hb.amounts l hl
    refine ⟨?_, nofun, ?_, fun h => ?_⟩
    · rintro _ ⟨⟩
      exact ⟨hamounts.positive, add_nonneg hamounts.nonneg hpos.le, hle, hamounts.discounted,
        of_decide_eq_true⟩
    · rintro hreq _ ⟨⟩
      exact add_pos_of_nonneg_of_pos hamounts.nonneg hpos
    · rw [hb.unconfirmed hl hactive] at h
      cases h
  | cancelled caller l _ hl hactive => exact hb.deactivated hl hactive
  | withdrawn caller l _ hl hactive => exact hb.deactivated hl hactive
  | requested caller l _ hl hactive hfunded =>
    refine ⟨hb.amounts, fun h => ?_, fun _ l' hl' => ?_, hb.confirmed⟩
    · rw [hl] at h
      cases h
    · rw [hl] at hl'
      cases hl'
      exact lt_of_le_of_ne (hb.amounts l hl).nonneg hfunded.symm
  | confirmed admin config l _ _ _ hl hactive hreq =>
    have hamounts := hb.amounts l hl
    refine ⟨(hb.deactivated hl hactive).amounts, nofun, fun h => absurd rfl h, ?_⟩
    rintro - _ ⟨⟩
    exact ⟨rfl, hb.requested hreq l hl, hamounts.active hactive⟩

/-- **Refinement**: every move follows an edge of the machine, or stays in its phase. -/
theorem Docket.Moves.edge (h : Docket.Moves env w i b e b') (hb : b.Sound) :
    b'.phase = b.phase ∨ Phase.Edge env w i e b.phase b'.phase := by
  obtain ⟨listing, request, confirmed⟩ := b
  cases h with
  | kept => exact Or.inl rfl
  | listed seller price face token deadline referrer hauth _ _ hnone =>
    obtain rfl : listing = none := hnone
    obtain rfl : request = none := (hb.unlisted rfl).1
    exact Or.inr (.listed seller price face token deadline referrer hauth)
  | funded investor amount l hauth hl hactive _ hle =>
    obtain rfl : listing = some l := hl
    rcases lt_or_eq_of_le hle with hlt | heq
    · left
      rw [phase_active (decide_eq_true hlt), phase_active hactive]
    · right
      have hphase : Docket.phase ⟨some { l with
          fundedAmount := l.fundedAmount + amount
          isActive := decide (l.fundedAmount + amount < l.askingPrice) }, request, confirmed⟩ =
          .funded := by
        rw [phase_inactive, if_pos heq]
        exact decide_eq_false heq.not_lt
      rw [hphase]
      exact .completed _ investor amount (phase_open hactive _ _) hauth
  | cancelled caller l hcancels hl hactive =>
    obtain rfl : listing = some l := hl
    right
    rw [hb.phase_deactivated hactive]
    exact .cancelled _ caller (phase_open hactive _ _) hcancels
  | withdrawn caller l hcancels hl hactive hzero =>
    obtain rfl : listing = some l := hl
    obtain rfl : request = none := by
      by_contra hreq
      exact (hb.requested hreq l rfl).ne' hzero
    right
    rw [hb.phase_deactivated hactive, phase_active hactive, if_pos rfl]
    exact .withdrawn caller hcancels
  | requested caller l hcancels hl hactive _ hrequest =>
    obtain rfl : listing = some l := hl
    obtain rfl : request = none := hrequest
    right
    rw [phase_active hactive, phase_active hactive, if_pos rfl, if_neg nofun]
    exact .requested caller hcancels
  | confirmed admin config l hauth hconfig hadmin hl hactive hreq =>
    obtain rfl : listing = some l := hl
    right
    rw [phase_active hactive, if_neg hreq, phase_inactive rfl,
      if_neg ((hb.amounts l rfl).active hactive).ne, if_pos rfl]
    exact .confirmed admin config hauth hconfig hadmin

theorem Docket.Sound.partly (hb : b.Sound) (hl : b.listing = some l)
    (h : b.phase ∈ [Phase.requested, Phase.confirmed]) :
    0 < l.fundedAmount ∧ l.fundedAmount < l.askingPrice := by
  obtain ⟨listing, request, confirmed⟩ := b
  obtain rfl : listing = some l := hl
  cases hactive : l.isActive with
  | true =>
    rw [phase_active hactive] at h
    refine ⟨hb.requested (fun hnone => ?_) l rfl, (hb.amounts l rfl).active hactive⟩
    rw [if_pos hnone] at h
    simp at h
  | false =>
    rw [phase_inactive hactive] at h
    refine (hb.confirmed ?_ l rfl).2
    split_ifs at h with hfunded hconfirmed
    · simp at h
    · exact hconfirmed
    · simp at h

end Dockets

/-! ## The contract -/

/-- The phase of the listing of invoice `i`. -/
def phase (w : World) (i : ℕ) : Phase := (w.marketplace.docket i).phase

/-- The step leaves the phase of listing `i` alone, or takes an edge of the machine. -/
def FollowsEdge (d : Deployment) (i : ℕ) (w : World) (a : Action) : Prop :=
  phase (step d w a) i = phase w i ∨ ∃ env e, performed d w a = some (env, e) ∧
    Phase.Edge env w i e (phase w i) (phase (step d w a) i)

section Contract

variable {d : Deployment} {env : Env} {w w' : World} {u : Unit} {e : Entry} {i j : ℕ}

theorem cancelListing_cancels {caller : Address} (h : cancelListing caller j env w = .ok u w') :
    Cancels env w j caller ∧ ∃ l config, w.marketplace.listing j = some l ∧ l.isActive = true ∧
      w'.marketplace = w.marketplace.deactivated config j l := by
  simp only [cancelListing, requireAuth_seq_ok, loadListing_seq_ok, ensure_seq_ok,
    loadConfig_seq_ok, putListing, modifyOwn, modify_ok] at h
  obtain ⟨hauth, l, hl, hactive, config, hconfig, hcaller, rfl⟩ := h
  exact ⟨⟨hauth, l, config, hl, hconfig, hcaller⟩, l, config, hl, hactive, rfl⟩

theorem requestCancellation_cancels {caller : Address}
    (h : requestCancellation caller j env w = .ok u w') :
    Cancels env w j caller ∧ ∃ l config, w.marketplace.listing j = some l ∧ l.isActive = true ∧
      (l.fundedAmount = 0 ∧ w'.marketplace = w.marketplace.deactivated config j l ∨
        l.fundedAmount ≠ 0 ∧ w.marketplace.cancellationRequest j = none ∧
          w'.marketplace = { w.marketplace with
            config := some config
            cancellationRequest :=
              Function.update w.marketplace.cancellationRequest j (some caller) }) := by
  simp only [requestCancellation, requireAuth_seq_ok, loadListing_seq_ok, ensure_seq_ok,
    loadConfig_seq_ok, putListing, modifyOwn, gets_run, ite_run] at h
  obtain ⟨hauth, l, hl, hactive, config, hconfig, hcaller, h⟩ := h
  refine ⟨⟨hauth, l, config, hl, hconfig, hcaller⟩, l, config, hl, hactive, ?_⟩
  split_ifs at h with hzero
  · obtain rfl := modify_ok.mp h
    exact Or.inl ⟨hzero, rfl⟩
  · rw [ensure_seq_ok, modify_ok] at h
    obtain ⟨hnone, rfl⟩ := h
    exact Or.inr ⟨hzero, hnone, rfl⟩

theorem adminConfirmCancellation_confirms {admin : Address}
    (h : adminConfirmCancellation admin j env w = .ok u w') :
    env.Authenticates admin ∧ ∃ l config, w.marketplace.currentConfig = some config ∧
      config.admin = admin ∧ w.marketplace.listing j = some l ∧ l.isActive = true ∧
      w.marketplace.cancellationRequest j ≠ none ∧
      w'.marketplace = { w.marketplace.deactivated config j l with
        cancellationRequest := Function.update w.marketplace.cancellationRequest j none
        cancellationConfirmed :=
          Function.update w.marketplace.cancellationConfirmed j true } := by
  simp only [adminConfirmCancellation, requireAuth_seq_ok, requireAdmin_seq_ok, gets_run,
    loadListing_seq_ok, ensure_seq_ok, putListing, modifyOwn, modify_run, modify_ok] at h
  obtain ⟨hauth, config, hconfig, hadmin, hsome, l, hl, hactive, rfl⟩ := h
  exact ⟨hauth, l, config, hconfig, hadmin, hl, hactive, Option.isSome_iff_ne_none.mp hsome, rfl⟩

theorem listInvoice_auth {seller token : Address} {price face : ℤ} {deadline : ℕ}
    {referrer : Option Address}
    (h : listInvoice seller j price face token deadline referrer env w = .ok u w') :
    env.Authenticates seller := by
  rw [listInvoice, requireAuth_seq_ok] at h
  exact h.1

theorem Op.exec_admin_request {op : Op} (hop : op.Administers) (h : op.exec env w = .ok u w') :
    w'.marketplace.cancellationRequest = w.marketplace.cancellationRequest := by
  cases op with
  | initializeContract =>
    obtain ⟨-, rfl⟩ := initializeContract_ok h
    rfl
  | setReferrerSplitBps =>
    obtain ⟨_, -, rfl⟩ := setReferrerSplitBps_ok h
    rfl
  | setFeeBps | updateFeeBps =>
    obtain ⟨-, _, -, rfl⟩ := setFeeBps_ok h
    rfl
  | setTierFeeBps =>
    obtain ⟨-, _, -, rfl⟩ := setTierFeeBps_ok h
    rfl
  | whitelistToken =>
    obtain ⟨_, -, rfl⟩ := whitelistToken_ok h
    rfl
  | removeTokenWhitelist =>
    obtain ⟨_, -, rfl⟩ := removeTokenWhitelist_ok h
    rfl
  | listInvoice | fundInvoice | cancelListing | requestCancellation | adminConfirmCancellation
  | claimRefund => exact hop.elim

theorem Docket.Moves.of_update {S T : Storage} {l : Option Listing}
    (hl : T.listing = Function.update S.listing j l)
    (hr : T.cancellationRequest = S.cancellationRequest)
    (hc : T.cancellationConfirmed = S.cancellationConfirmed)
    (h : Docket.Moves env w j (S.docket j) e { S.docket j with listing := l }) :
    Docket.Moves env w i (S.docket i) e (T.docket i) := by
  by_cases hij : i = j
  · subst hij
    have hT : T.docket i = { S.docket i with listing := l } := by
      rw [Storage.docket, hl, hr, hc, Function.update_self]
      rfl
    rwa [hT]
  · rw [show T.docket i = S.docket i by
      rw [Storage.docket, Storage.docket, hl, hr, hc, Function.update_of_ne hij]]
    exact .kept _

theorem Op.exec_moves {op : Op} (h : op.exec env w = .ok () w') (i : ℕ) :
    Docket.Moves env w i (w.marketplace.docket i) (.marketplace op) (w'.marketplace.docket i) := by
  by_cases hop : op.Administers
  · have hbooks := (exec_admin hop h).books
    rw [show w'.marketplace.docket i = w.marketplace.docket i by
      rw [Storage.docket, hbooks.listing, exec_admin_request hop h, hbooks.cancellationConfirmed]
      rfl]
    exact .kept _
  · cases op with
    | listInvoice seller j price face token deadline referrer =>
      have hauth := listInvoice_auth h
      obtain ⟨hpos, hlt, hnone, -, -, _, _, -, -, -, -, rfl⟩ := listInvoice_ok h
      exact .of_update rfl rfl rfl
        (.listed seller price face token deadline referrer hauth hpos hlt hnone)
    | fundInvoice investor j amount =>
      obtain ⟨l, config, inv, fee, hF⟩ := fundInvoice_ok h
      rw [hF.marketplace]
      exact .of_update rfl rfl rfl
        (.funded investor amount l hF.authenticated hF.listed hF.active hF.positive hF.within)
    | cancelListing caller j =>
      obtain ⟨hcancels, l, config, hl, hactive, hw⟩ := cancelListing_cancels h
      rw [hw]
      exact .of_update rfl rfl rfl (.cancelled caller l hcancels hl hactive)
    | requestCancellation caller j =>
      obtain ⟨hcancels, l, config, hl, hactive, ⟨hzero, hw⟩ | ⟨hne, hnone, hw⟩⟩ :=
        requestCancellation_cancels h
      · rw [hw]
        exact .of_update rfl rfl rfl (.withdrawn caller l hcancels hl hactive hzero)
      · rw [hw]
        by_cases hij : i = j
        · subst hij
          have hdocket := Docket.Moves.requested (b := w.marketplace.docket i) caller l hcancels hl
            hactive hne hnone
          simpa only [Storage.docket, Function.update_self] using hdocket
        · simp only [Storage.docket, Function.update_of_ne hij]
          exact .kept _
    | adminConfirmCancellation admin j =>
      obtain ⟨hauth, l, config, hconfig, hadmin, hl, hactive, hreq, hw⟩ :=
        adminConfirmCancellation_confirms h
      rw [hw]
      by_cases hij : i = j
      · subst hij
        have hdocket := Docket.Moves.confirmed (i := i) (b := w.marketplace.docket i) admin config l
          hauth hconfig hadmin hl hactive hreq
        simpa only [Storage.docket, Storage.deactivated, Function.update_self] using hdocket
      · simp only [Storage.docket, Storage.deactivated, Function.update_of_ne hij]
        exact .kept _
    | claimRefund investor j =>
      obtain ⟨_, _, _, -, -, -, -, -, -, -, rfl⟩ := claimRefund_ok h
      exact .kept _
    | initializeContract | setReferrerSplitBps | setFeeBps | updateFeeBps | setTierFeeBps
    | whitelistToken | removeTokenWhitelist => exact absurd trivial hop

theorem moves_of_exec (h : e.exec env w = .ok () w') (i : ℕ) :
    Docket.Moves env w i (w.marketplace.docket i) e (w'.marketplace.docket i) := by
  have hkept : w'.marketplace = w.marketplace →
      Docket.Moves env w i (w.marketplace.docket i) e (w'.marketplace.docket i) := by
    intro hm
    rw [hm]
    exact .kept _
  cases Entry.exec_effect h with
  | peripheral _ _ _ _ _ hm => exact hkept hm
  | invoiceNft _ _ _ hw => exact hkept (by rw [hw])
  | pool _ _ hm => exact hkept hm
  | listing | funding | market =>
    rw [Entry.exec] at h
    exact Op.exec_moves h i

/-- **One step** keeps the docket together and follows the machine. -/
theorem docket_step (a : Action) (hb : (w.marketplace.docket i).Sound) :
    ((step d w a).marketplace.docket i).Sound ∧ FollowsEdge d i w a := by
  rcases step_performed d w a with ⟨env, e, hp, -, h⟩ | ⟨-, n, h⟩
  · have hmoves := moves_of_exec h i
    refine ⟨hmoves.sound hb, (hmoves.edge hb).imp_right fun hedge => ?_⟩
    exact ⟨env, e, hp, hedge⟩
  · rw [FollowsEdge, h]
    exact ⟨hb, Or.inl rfl⟩

theorem docket_genesis (now : ℕ) (tokens : Tokens) :
    ((genesis now tokens).marketplace.docket i).Sound :=
  ⟨nofun, fun _ => ⟨rfl, rfl⟩, nofun, nofun⟩

theorem final_step (a : Action) (hb : (w.marketplace.docket i).Sound) (h : (phase w i).Final) :
    phase (step d w a) i = phase w i := by
  rcases (docket_step (d := d) a hb).2 with heq | ⟨env, e, -, hedge⟩
  · exact heq
  · exact absurd h hedge.not_final

end Contract

/-- **The phases of a listing.** In every run, every step leaves the phase of a listing alone or
takes an edge of the machine; a listing that is withdrawn, cancelled or funded stays so; and a
pending request or a confirmed cancellation means that the listing was funded in part. -/
theorem listing_phases (d : Deployment) (now : ℕ) (tokens : Tokens) (as : List Action) (i : ℕ) :
    Along (step d) (FollowsEdge d i) (genesis now tokens) as ∧
      (∀ bs, (phase (run (step d) (genesis now tokens) as) i).Final →
        phase (run (step d) (genesis now tokens) (as ++ bs)) i =
          phase (run (step d) (genesis now tokens) as) i) ∧
      ∀ l, (run (step d) (genesis now tokens) as).marketplace.listing i = some l →
        phase (run (step d) (genesis now tokens) as) i ∈ [Phase.requested, Phase.confirmed] →
        0 < l.fundedAmount ∧ l.fundedAmount < l.askingPrice := by
  have hsound : ∀ as, ((run (step d) (genesis now tokens) as).marketplace.docket i).Sound :=
    always (I := fun w : World => (w.marketplace.docket i).Sound)
      (fun _ a hb => (docket_step a hb).1) (docket_genesis now tokens)
  refine ⟨?_, fun bs hfinal => ?_, fun l hl hphase => ?_⟩
  · exact .of_always (I := fun w : World => (w.marketplace.docket i).Sound)
      (fun _ a hb => (docket_step (d := d) a hb).1) (fun _ a hb => (docket_step a hb).2)
      (docket_genesis now tokens) as
  · rw [run_append]
    refine (always (I := fun w : World => (w.marketplace.docket i).Sound ∧
      phase w i = phase (run (step d) (genesis now tokens) as) i) ?_ ⟨hsound as, rfl⟩ bs).2
    rintro w a ⟨hb, hw⟩
    rw [← hw] at hfinal
    exact ⟨(docket_step a hb).1, (final_step a hb hfinal).trans hw⟩
  · exact (hsound as).partly hl hphase

end Kora.Marketplace
