import Kora.Lib.Run
import Kora.System.Registry
import Kora.System.Status

set_option autoImplicit false

/-!
# The counters of the SMEs

A profile counts the invoices of its SME and the defaults among them. Minting counts nothing, since
the invoice contract never calls `increment_invoice_count`; `set_defaulted` counts nothing unless
the pool makes the call; and `record_default` counts a default that may not have happened.

* `mintsIn`, `defaultedInvoice`, `defaultsIn`: what happens to the invoices of an SME;
* `KeepsCounters`: the steps that count what happens;
* `becomes_defaulted_iff`: an invoice becomes defaulted by two entry points;
* `recordDefault_isOk`: when the registry accepts the record of a default;
* **`counters_match_iff`**: the counters match exactly when every step of the run keeps them.
-/

namespace Kora.RiskRegistry

open Exec Run

/-! ## Statement -/

/-- The SME has a profile. -/
def Storage.Registered (S : Storage) (sme : Address) : Prop := (S.smeProfile sme).isSome = true

instance (S : Storage) (sme : Address) : Decidable (S.Registered sme) := by
  unfold Storage.Registered
  infer_instance

/-- The invoices that a registered SME mints in a step. -/
def mintsIn (d : Deployment) (sme : Address) (w : World) (a : Action) : ℕ :=
  match performed d w a with
  | some (_, .invoiceNft (.mintInvoice minter _ _ _ _ _ _ _)) =>
    if minter = sme ∧ w.riskRegistry.Registered sme then 1 else 0
  | _ => 0

/-- The invoice that becomes defaulted in a step. -/
def defaultedInvoice (d : Deployment) (w : World) (a : Action) : Option ℕ :=
  match performed d w a with
  | some (_, .invoiceNft (.setDefaulted _ i)) => some i
  | some (_, .pool (.markDefault _ i _)) => some i
  | _ => none

/-- The invoices of a registered SME that become defaulted in a step. -/
def defaultsIn (d : Deployment) (sme : Address) (w : World) (a : Action) : ℕ :=
  match defaultedInvoice d w a with
  | some i =>
    if w.invoiceNft.owner i = some sme ∧ w.riskRegistry.Registered sme then 1 else 0
  | none => 0

/-- The registry accepts the record of a default of `sme` by `admin`. -/
def Storage.AcceptsDefault (S : Storage) (admin sme : Address) : Prop :=
  S.admin = some admin ∧ S.lock = false ∧ ∃ profile percentage, S.smeProfile sme = some profile ∧
    profile.defaults + 1 < 2 ^ 32 ∧ S.slashPercentage = some percentage ∧
    (0 < S.stake profile.verifier → S.stake profile.verifier * percentage < 2 ^ 128 ∧
      ∃ r, checkedSub (S.stake profile.verifier)
        (S.stake profile.verifier * percentage / 10_000) = some r)

/-- The step counts what happens to the invoices of the SME, when it is registered: it mints none,
defaults none outside the pool, counts nothing by hand, and a default in the pool is recorded. -/
def KeepsCounters (d : Deployment) (sme : Address) (w : World) (a : Action) : Prop :=
  w.riskRegistry.Registered sme →
    match performed d w a with
    | some (_, .invoiceNft (.mintInvoice minter _ _ _ _ _ _ _)) => minter ≠ sme
    | some (_, .invoiceNft (.setDefaulted _ i)) => w.invoiceNft.owner i ≠ some sme
    | some (_, .riskRegistry (.incrementInvoiceCount _ counted)) => counted ≠ sme
    | some (_, .riskRegistry (.recordDefault _ counted)) => counted ≠ sme
    | some (_, .pool (.markDefault admin i _)) => w.invoiceNft.owner i = some sme →
      w.pool.riskRegistry = some d.riskRegistry ∧ w.riskRegistry.AcceptsDefault admin sme
    | _ => True

/-! ## Recording a default -/

section Record

variable {env : Env} {S : Storage} {admin sme : Address}

/-- **When the registry accepts the record of a default.** -/
theorem recordDefault_isOk : (recordDefault admin sme env S).isOk = true ↔
    env.Authenticates admin ∧ S.AcceptsDefault admin sme := by
  simp only [Outcome.isOk_iff, recordDefault, requireAuth_seq_ok, requireAdmin_seq_ok, guard,
    guarded_ok, fetch_seq_ok, check_seq_ok, okOr_ok, checkedAddU32_some, gets_run, ite_run]
  constructor
  · rintro ⟨_, _, ha, hadmin, hlock, _, ⟨profile, hprofile, _, ⟨rfl, hle⟩, percentage, hpercentage,
      h⟩, -⟩
    refine ⟨ha, hadmin, hlock, profile, percentage, hprofile, hle, hpercentage, fun hpos => ?_⟩
    rw [if_pos (by exact hpos)] at h
    simp only [require_seq_ok, check_seq_ok, okOr_ok] at h
    obtain ⟨hlt, remaining, hremaining, -⟩ := h
    exact ⟨hlt, remaining, hremaining⟩
  · rintro ⟨ha, hadmin, hlock, profile, percentage, hprofile, hle, hpercentage, hslash⟩
    by_cases hpos : 0 < S.stake profile.verifier
    · obtain ⟨hlt, remaining, hremaining⟩ := hslash hpos
      exact ⟨(), _, ha, hadmin, hlock, _, ⟨profile, hprofile, _, ⟨rfl, hle⟩, percentage,
        hpercentage, (if_pos hpos).trans (require_seq_ok.mpr
          ⟨hlt, check_seq_ok.mpr ⟨remaining, okOr_ok.mpr hremaining, rfl⟩⟩)⟩, rfl⟩
    · exact ⟨(), _, ha, hadmin, hlock, _, ⟨profile, hprofile, _, ⟨rfl, hle⟩, percentage,
        hpercentage, (if_neg hpos).trans rfl⟩, rfl⟩

end Record

/-! ## Steps -/

/-- The counters of an SME; zero for an unregistered one. -/
def Storage.counters (S : Storage) (sme : Address) : ℕ × ℕ :=
  ((S.smeProfile sme).map fun profile => (profile.totalInvoices, profile.defaults)).getD 0

/-- What happens to the invoices of a registered SME in a step. -/
def eventsIn (d : Deployment) (sme : Address) (w : World) (a : Action) : ℕ × ℕ :=
  (mintsIn d sme w a, defaultsIn d sme w a)

/-- What an entry point of the registry counts. -/
def Op.counts (sme : Address) : Op → ℕ × ℕ
  | .incrementInvoiceCount _ counted => if counted = sme then (1, 0) else 0
  | .recordDefault _ counted => if counted = sme then (0, 1) else 0
  | _ => 0

/-- What a step counts. -/
def countedIn (d : Deployment) (sme : Address) (w : World) (a : Action) : ℕ × ℕ :=
  match performed d w a with
  | some (_, .riskRegistry op) => op.counts sme
  | some (env, .pool (.markDefault admin i _)) =>
    if FinancingPool.recordedSme env w admin i = some sme then (0, 1) else 0
  | _ => 0

section Steps

variable {env : Env} {S T : Storage} {op : Op} {sme : Address}

theorem Storage.counters_of_profile {profile : SmeProfile} (h : S.smeProfile sme = some profile) :
    S.counters sme = (profile.totalInvoices, profile.defaults) := by
  rw [counters, h]
  rfl

theorem Storage.counters_update {who : Address} {profile : SmeProfile}
    (h : T.smeProfile = Function.update S.smeProfile who (some profile)) :
    T.counters sme =
      if who = sme then (profile.totalInvoices, profile.defaults) else S.counters sme := by
  rw [counters, h, Function.update_apply]
  by_cases hwho : who = sme
  · rw [if_pos hwho.symm, if_pos hwho]
    rfl
  · rw [if_neg (Ne.symm hwho), if_neg hwho]
    rfl

/-- `T` counts what `op` says, without losing a profile. -/
structure Counted (S T : Storage) (op : Op) (sme : Address) : Prop where
  counters : T.counters sme = S.counters sme + op.counts sme
  registered : S.Registered sme → T.Registered sme
  known : ¬ S.Registered sme → op.counts sme = 0

theorem Counted.frame (h : T.smeProfile = S.smeProfile) (hop : op.counts sme = 0) :
    Counted S T op sme where
  counters := by rw [hop, add_zero, Storage.counters, Storage.counters, h]
  registered := fun hS => by rwa [Storage.Registered, h]
  known := fun _ => hop

theorem Counted.put {who : Address} {profile : SmeProfile}
    (h : T.smeProfile = Function.update S.smeProfile who (some profile))
    (hprofile : (profile.totalInvoices, profile.defaults) = S.counters who + op.counts who)
    (hothers : who ≠ sme → op.counts sme = 0)
    (hknown : ¬ S.Registered who → op.counts who = 0) : Counted S T op sme := by
  by_cases hwho : who = sme
  · subst hwho
    refine ⟨?_, fun _ => ?_, hknown⟩
    · rw [Storage.counters_update h, if_pos rfl, hprofile]
    · rw [Storage.Registered, h, Function.update_self]
      rfl
  · refine ⟨?_, fun hS => ?_, fun _ => hothers hwho⟩
    · rw [Storage.counters_update h, if_neg hwho, hothers hwho, add_zero]
    · rwa [Storage.Registered, h, Function.update_of_ne (Ne.symm hwho)]

theorem Storage.registered_of_profile {profile : SmeProfile} (h : S.smeProfile sme = some profile) :
    S.Registered sme := by
  rw [Registered, h]
  rfl

theorem Effect.counted (h : Effect env S op T) (sme : Address) : Counted S T op sme := by
  cases h with
  | addVerifier | removeVerifier => exact .frame rfl rfl
  | registerSme verifier who score attested _ hnew =>
    refine .put rfl ?_ (fun _ => rfl) (fun _ => rfl)
    rw [Storage.counters, hnew]
    rfl
  | updateSmeScore verifier who score profile hprofile =>
    refine .put rfl ?_ (fun _ => rfl) (fun _ => rfl)
    rw [Storage.counters_of_profile hprofile]
    rfl
  | setCreditLimit verifier who limit profile hprofile =>
    refine .put rfl ?_ (fun _ => rfl) (fun _ => rfl)
    rw [Storage.counters_of_profile hprofile]
    rfl
  | incrementInvoiceCount caller who profile _ _ hprofile =>
    refine .put rfl ?_ (fun hwho => if_neg hwho)
      (fun hno => absurd (Storage.registered_of_profile hprofile) hno)
    rw [Storage.counters_of_profile hprofile, Op.counts, if_pos rfl]
    rfl
  | recordDefault admin who profile reputation log _ _ hprofile =>
    refine .put rfl ?_ (fun hwho => if_neg hwho)
      (fun hno => absurd (Storage.registered_of_profile hprofile) hno)
    rw [Storage.counters_of_profile hprofile, Op.counts, if_pos rfl]
    rfl
  | rest op T hquiet _ hprofile =>
    refine .frame hprofile ?_
    cases op with
    | initializeContract | transferAdmin | setDebtorScore => rfl
    | _ => exact hquiet.elim

variable {d : Deployment} {w : World} {a : Action}

theorem counted_step (d : Deployment) (sme : Address) (w : World) (a : Action) :
    (step d w a).riskRegistry.counters sme = w.riskRegistry.counters sme + countedIn d sme w a ∧
      (w.riskRegistry.Registered sme → (step d w a).riskRegistry.Registered sme) ∧
      (¬ w.riskRegistry.Registered sme → countedIn d sme w a = 0) := by
  cases registry_step d w a with
  | own env op hp h =>
    have hcounted : countedIn d sme w a = op.counts sme := by simp only [countedIn, hp]
    rw [hcounted]
    exact ⟨(h.counted sme).counters, (h.counted sme).registered, (h.counted sme).known⟩
  | marked env admin i token who hp hwho h =>
    have hcounted : countedIn d sme w a = (Op.recordDefault admin who).counts sme := by
      simp only [countedIn, hp, hwho, Option.some.injEq]
      rfl
    rw [hcounted]
    exact ⟨(h.counted sme).counters, (h.counted sme).registered, (h.counted sme).known⟩
  | rest hnot hnone hsame =>
    have hcounted : countedIn d sme w a = 0 := by
      rw [countedIn]
      rcases hp : performed d w a with - | ⟨env, e⟩
      · rfl
      · cases e with
        | riskRegistry op => exact absurd hp (hnot env op)
        | pool op =>
          cases op with
          | markDefault admin i token =>
            have hrecorded : FinancingPool.recordedSme env w admin i = none := by
              simpa only [recordedDefault, hp] using hnone
            simp only [hrecorded]
            exact if_neg (by simp)
          | _ => rfl
        | _ => rfl
    rw [hcounted, add_zero, hsame]
    exact ⟨rfl, fun h => h, fun _ => rfl⟩

theorem eventsIn_unregistered (h : ¬ w.riskRegistry.Registered sme) : eventsIn d sme w a = 0 := by
  have hmints : mintsIn d sme w a = 0 := by
    unfold mintsIn
    split
    · exact if_neg fun hm => h hm.2
    · rfl
  have hdefaults : defaultsIn d sme w a = 0 := by
    unfold defaultsIn
    split
    · exact if_neg fun hd => h hd.2
    · rfl
  rw [eventsIn, hmints, hdefaults]
  rfl

theorem recordedSme_iff {env : Env} {admin token : Address} {i : ℕ}
    (hp : performed d w a = some (env, .pool (.markDefault admin i token))) :
    FinancingPool.recordedSme env w admin i = some sme ↔ w.invoiceNft.owner i = some sme ∧
      w.pool.riskRegistry = some d.riskRegistry ∧ w.riskRegistry.AcceptsDefault admin sme := by
  obtain ⟨c, rfl, rfl, -, h⟩ := performed_call hp
  have ha := (FinancingPool.markDefault_registry h).1
  rw [FinancingPool.recordedSme, InvoiceNft.Storage.owner, InvoiceNft.Storage.current]
  rcases hi : w.invoiceNft.invoice i with - | r
  · simp
  · cases r with
    | v1 r => simp
    | current inv =>
      simp only [Option.map_some, Option.some.injEq]
      constructor
      · intro hsme
        split_ifs at hsme with hok
        obtain rfl := Option.some.inj hsme
        exact ⟨rfl, hok.1, (recordDefault_isOk.mp hok.2).2⟩
      · rintro ⟨rfl, hwired, haccepts⟩
        exact if_pos ⟨hwired, recordDefault_isOk.mpr ⟨Call.authenticates_from _ ha, haccepts⟩⟩

/-- **A step keeps the counters of a registered SME when it counts what happens.** -/
theorem keepsCounters_iff :
    KeepsCounters d sme w a ↔ countedIn d sme w a = eventsIn d sme w a := by
  by_cases hreg : w.riskRegistry.Registered sme
  · -- both sides follow the entry point
    rw [KeepsCounters, forall_prop_of_true hreg]
    rw [Prod.ext_iff]
    simp only [countedIn, eventsIn, mintsIn, defaultsIn, defaultedInvoice]
    rcases hp : performed d w a with - | ⟨env, e⟩
    · simp
    · cases e with
      | invoiceNft op =>
        cases op with
        | mintInvoice minter => by_cases h : minter = sme <;> simp [h, hreg]
        | setDefaulted caller i => by_cases h : w.invoiceNft.owner i = some sme <;> simp [h, hreg]
        | _ => simp
      | riskRegistry op =>
        cases op with
        | incrementInvoiceCount caller who => by_cases h : who = sme <;> simp [h, Op.counts]
        | recordDefault admin who => by_cases h : who = sme <;> simp [h, Op.counts]
        | _ => simp [Op.counts]
      | pool op =>
        cases op with
        | markDefault admin i token =>
          have hrecorded : _ ↔ w.invoiceNft.owner i = some sme ∧ _ := recordedSme_iff hp
          by_cases h : FinancingPool.recordedSme env w admin i = some sme
          · simp [h, hreg, hrecorded.mp h]
          · rw [hrecorded, not_and] at h
            by_cases ho : w.invoiceNft.owner i = some sme
            · simp [hrecorded, ho, hreg, h ho]
            · simp [hrecorded, ho]
        | _ => simp
      | _ => simp
  · rw [eventsIn_unregistered hreg]
    exact iff_of_true (fun h => absurd h hreg) ((counted_step d sme w a).2.2 hreg)

/-- The counters of a registered SME are the totals `m`. -/
def Matches (sme : Address) (w : World) (m : ℕ × ℕ) : Prop :=
  w.riskRegistry.Registered sme → w.riskRegistry.counters sme = m

theorem matches_step {m : ℕ × ℕ} (hzero : ¬ w.riskRegistry.Registered sme → m = 0)
    (h : Matches sme w m) :
    Matches sme (step d w a) (m + eventsIn d sme w a) ↔ KeepsCounters d sme w a := by
  obtain ⟨hcounters, hreg, hknown⟩ := counted_step d sme w a
  rw [keepsCounters_iff]
  by_cases hr : w.riskRegistry.Registered sme
  · rw [Matches, forall_prop_of_true (hreg hr), hcounters, h hr, add_right_inj]
  · rw [hknown hr, eventsIn_unregistered hr, hzero hr]
    refine iff_of_true (fun _ => ?_) rfl
    have hno : w.riskRegistry.smeProfile sme = none := Option.not_isSome_iff_eq_none.mp hr
    rw [hcounters, hknown hr, Storage.counters, hno]
    rfl

theorem unregistered_step {m : ℕ × ℕ} (hzero : ¬ w.riskRegistry.Registered sme → m = 0)
    (h : ¬ (step d w a).riskRegistry.Registered sme) : m + eventsIn d sme w a = 0 := by
  have hr : ¬ w.riskRegistry.Registered sme := fun hr => h ((counted_step d sme w a).2.1 hr)
  rw [hzero hr, eventsIn_unregistered hr, add_zero]

theorem nftChange_defaults {env : Env} {w w' : World} {e : Entry} {i : ℕ}
    (h : NftChange env w w' e) (hS : w.invoiceNft.WellFormed)
    (hbefore : w.invoiceNft.status i ≠ some .defaulted)
    (hafter : w'.invoiceNft.status i = some .defaulted) :
    (∃ caller j, e = .invoiceNft (.setDefaulted caller j)) ∨
      ∃ admin j token, e = .pool (.markDefault admin j token) := by
  have hmoved : ∀ {j x y}, w.invoiceNft.Moved w'.invoiceNft j x y → y = .defaulted := by
    intro j x y hm
    rw [(hm.status i).2] at hafter
    split_ifs at hafter
    · exact Option.some.inj hafter
    · exact absurd hafter hbefore
  cases h with
  | same _ hsame => exact absurd (hsame ▸ hafter) hbefore
  | own op hop =>
    rcases hop.status_cases hS i with hsame | ⟨-, hu⟩ | ⟨x, y, -, hy, ht⟩
    · exact absurd (hsame ▸ hafter) hbefore
    · rw [hafter] at hu
      rcases hu with hu | hu <;> cases hu
    · cases hy.symm.trans hafter
      cases ht with
      | default hop => exact Or.inl ⟨_, _, congrArg Entry.invoiceNft hop⟩
  | listed _ _ _ _ _ _ _ _ hm => cases hmoved hm
  | funded _ _ _ _ hm => cases hmoved hm
  | repaid _ _ _ hm => cases hmoved hm
  | defaulted admin j token hm => exact Or.inr ⟨admin, j, token, rfl⟩

theorem moved_defaulted_iff {S T : InvoiceNft.Storage} {i j : ℕ}
    (h : S.Moved T j .funded .defaulted) :
    S.status i ≠ some .defaulted ∧ T.status i = some .defaulted ↔ j = i := by
  obtain ⟨hbefore, hafter⟩ := h.status i
  rw [hafter]
  constructor
  · rintro ⟨hne, heq⟩
    split_ifs at heq with hi
    · exact hi.symm
    · exact absurd heq hne
  · rintro rfl
    rw [hbefore, if_pos rfl]
    exact ⟨nofun, rfl⟩

/-- **An invoice becomes defaulted by two entry points.** -/
theorem becomes_defaulted_iff (hw : InvoicesSound d w) (i : ℕ) :
    (w.invoiceNft.status i ≠ some .defaulted ∧
        (step d w a).invoiceNft.status i = some .defaulted) ↔ defaultedInvoice d w a = some i := by
  rcases step_performed d w a with ⟨env, e, hp, -, h⟩ | ⟨hp, n, h⟩
  · have hother : (∀ caller j, e ≠ .invoiceNft (.setDefaulted caller j)) →
        (∀ admin j token, e ≠ .pool (.markDefault admin j token)) →
        ¬ (w.invoiceNft.status i ≠ some .defaulted ∧
          (step d w a).invoiceNft.status i = some .defaulted) := by
      rintro hset hmark ⟨hbefore, hafter⟩
      rcases nftChange_defaults ((Entry.exec_effect h).nftChange hw.wellFormed) hw.wellFormed
        hbefore hafter with ⟨c, j, he⟩ | ⟨c, j, token, he⟩
      · exact hset c j he
      · exact hmark c j token he
    simp only [defaultedInvoice, hp]
    cases e with
    | invoiceNft op =>
      cases op with
      | setDefaulted caller j =>
        obtain ⟨s, hs, hstep⟩ := onInvoiceNft_ok.mp h
        obtain ⟨-, -, inv, hinv, hst, -, rfl⟩ := InvoiceNft.setDefaulted_ok hs
        rw [← hstep, Option.some.injEq]
        exact moved_defaulted_iff (InvoiceNft.Storage.moved_asDefaulted hinv hst)
      | _ => exact iff_of_false (hother nofun nofun) nofun
    | pool op =>
      cases op with
      | markDefault admin j token =>
        obtain ⟨p, inv, -, -, hinv, hst, -, _, _, _, -, hstep⟩ := FinancingPool.markDefault_ok h
        rw [hstep, Option.some.injEq]
        exact moved_defaulted_iff (InvoiceNft.Storage.moved_asDefaulted hinv hst)
      | _ => exact iff_of_false (hother nofun nofun) nofun
    | _ => exact iff_of_false (hother nofun nofun) nofun
  · rw [h, defaultedInvoice, hp]
    exact iff_of_false (fun hs => hs.1 hs.2) nofun

end Steps

/-! ## Runs -/

/-- **The counters match the history**: in every state of a run, the profile of every registered
SME counts the invoices that the SME minted and those of its invoices that became defaulted, since
its registration, exactly when every step of the run keeps the counters. -/
theorem counters_match_iff (d : Deployment) (start : ℕ) (tokens : Tokens) (as : List Action) :
    (∀ p, p <+: as → ∀ sme profile,
        (run (step d) (genesis start tokens) p).riskRegistry.smeProfile sme = some profile →
        profile.totalInvoices = tally (step d) (mintsIn d sme) (genesis start tokens) p ∧
          profile.defaults = tally (step d) (defaultsIn d sme) (genesis start tokens) p) ↔
      Along (step d) (fun w a => ∀ sme, KeepsCounters d sme w a) (genesis start tokens) as := by
  have hsme : ∀ sme, _ ↔ _ := fun sme => @forall_prefix_iff _ _
    (counted (step d) (eventsIn d sme)) (fun s => ¬ s.1.riskRegistry.Registered sme → s.2 = 0)
    (fun s => Matches sme s.1 s.2) (fun s => KeepsCounters d sme s.1)
    (fun _ _ hs h => unregistered_step hs h) (fun _ _ hs hq => matches_step hs hq)
    (genesis start tokens, 0) as (fun _ => rfl) (fun h => absurd h nofun)
  have hsum : ∀ sme p, tally (step d) (eventsIn d sme) (genesis start tokens) p =
      (tally (step d) (mintsIn d sme) (genesis start tokens) p,
        tally (step d) (defaultsIn d sme) (genesis start tokens) p) :=
    fun sme p => tally_prod _ _ _ _
  simp only [along_counted, run_counted, zero_add, hsum] at hsme
  rw [along_forall]
  constructor
  · intro h sme
    refine (hsme sme).mp fun p hp hreg => ?_
    obtain ⟨profile, hprofile⟩ := Option.isSome_iff_exists.mp hreg
    obtain ⟨htotal, hdefaults⟩ := h p hp sme profile hprofile
    rw [Storage.counters_of_profile hprofile, htotal, hdefaults]
  · intro h p hp sme profile hprofile
    have heq := (hsme sme).mpr (h sme) p hp (Storage.registered_of_profile hprofile)
    rw [Storage.counters_of_profile hprofile] at heq
    exact Prod.mk.inj heq

/-- The SME of the sample deployment mints an invoice after its registration, and none is
counted. -/
theorem counters_behind : ¬ ∀ (d : Deployment) (start : ℕ) (tokens : Tokens) (as : List Action)
    (sme : Address) (profile : SmeProfile),
    (run (step d) (genesis start tokens) as).riskRegistry.smeProfile sme = some profile →
    profile.totalInvoices = tally (step d) (mintsIn d sme) (genesis start tokens) as ∧
      profile.defaults = tally (step d) (defaultsIn d sme) (genesis start tokens) as := by
  intro h
  have hprofile : (run (step sample) (genesis 0 sampleTokens)
      (sampleSetup "USDC")).riskRegistry.smeProfile 2 =
        some ⟨2, true, 6, 50, 0, 0, 0, true, 0⟩ := by decide +kernel
  exact absurd (h sample 0 sampleTokens (sampleSetup "USDC") 2 _ hprofile) (by decide +kernel)

end Kora.RiskRegistry
