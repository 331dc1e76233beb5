import Mathlib.Algebra.Group.Basic
import Mathlib.Algebra.Group.Pi.Basic
import Mathlib.Algebra.Group.Prod
import Mathlib.Data.List.Infix
import Mathlib.Tactic.Abel
import Mathlib.Tactic.Common

set_option autoImplicit false

/-!
# Runs of a deterministic system

A system is a step function `step : σ → α → σ`; a run is a list of actions.

* `run`, `tally`: the state after a run, and a quantity summed over its steps;
* `Along`: every step of a run meets a condition on the state before it and the action;
* **`invariant`**, **`invariant_tally`**: what every step preserves holds after every run;
* **`frame`**: what every step leaves alone stays;
* **`forall_prefix_iff_along`**: when a property survives a step exactly if the step meets a
  condition, it holds all along a run exactly if every step does;
* `Happened`, `Once`: a kind of step occurs in a run, or occurs at most once, with the rules
  **`happened_iff`** (the state records the occurrence) and **`once_of_mark`** (the state bars a
  second one);
* `Since`: a kind of step occurs, and another does not afterwards, with the rule
  **`since_of_holds`** (the state shows it);
* `latest`: the value set last, with the rules **`latest_rule`** (the state holds it) and
  **`invariant_latest`** (the state is bounded by it).
-/

namespace Run

variable {σ α M : Type} (step : σ → α → σ)

/-- The state after the actions `as`. -/
def run (s : σ) (as : List α) : σ := as.foldl step s

/-- The sum over the steps of a run of a quantity read off the state before the step and the
action. -/
def tally [AddCommMonoid M] (μ : σ → α → M) : σ → List α → M
  | _, [] => 0
  | s, a :: as => μ s a + tally μ (step s a) as

/-- Every step meets `C`. -/
def Along (C : σ → α → Prop) : σ → List α → Prop
  | _, [] => True
  | s, a :: as => C s a ∧ Along C (step s a) as

variable {step}

@[simp] theorem run_nil (s : σ) : run step s [] = s := rfl

@[simp] theorem run_cons (s : σ) (a : α) (as : List α) :
    run step s (a :: as) = run step (step s a) as := rfl

@[simp] theorem run_append (s : σ) (as bs : List α) :
    run step s (as ++ bs) = run step (run step s as) bs := List.foldl_append

instance instDecidableAlong {C : σ → α → Prop} [∀ s a, Decidable (C s a)] (s : σ) (as : List α) :
    Decidable (Along step C s as) :=
  match as with
  | [] => inferInstanceAs (Decidable True)
  | a :: as =>
    have : Decidable (Along step C (step s a) as) := instDecidableAlong (step s a) as
    inferInstanceAs (Decidable (C s a ∧ Along step C (step s a) as))

section Along

variable {C D : σ → α → Prop}

@[simp] theorem along_nil (s : σ) : Along step C s [] := trivial

@[simp] theorem along_cons {s : σ} {a : α} {as : List α} :
    Along step C s (a :: as) ↔ C s a ∧ Along step C (step s a) as := Iff.rfl

@[simp] theorem along_append {s : σ} {as bs : List α} :
    Along step C s (as ++ bs) ↔ Along step C s as ∧ Along step C (run step s as) bs := by
  induction as generalizing s with
  | nil => simp
  | cons a as ih => simp [ih, and_assoc]

theorem along_of_forall {A : α → Prop} {s : σ} {as : List α} (h : ∀ a ∈ as, A a) :
    Along step (fun _ a => A a) s as := by
  induction as generalizing s with
  | nil => trivial
  | cons a as ih =>
    rw [List.forall_mem_cons] at h
    exact ⟨h.1, ih h.2⟩

theorem along_true (s : σ) (as : List α) : Along step (fun _ _ => True) s as :=
  along_of_forall fun _ _ => trivial

theorem Along.and {s : σ} {as : List α} (hC : Along step C s as) (hD : Along step D s as) :
    Along step (fun s a => C s a ∧ D s a) s as := by
  induction as generalizing s with
  | nil => trivial
  | cons a as ih => exact ⟨⟨hC.1, hD.1⟩, ih hC.2 hD.2⟩

theorem along_forall {ι : Type} {C : ι → σ → α → Prop} {s : σ} {as : List α} :
    Along step (fun s a => ∀ i, C i s a) s as ↔ ∀ i, Along step (C i) s as := by
  induction as generalizing s with
  | nil => simp
  | cons a as ih => simp only [along_cons, ih, forall_and]

end Along

theorem along_iff_forall {C : σ → α → Prop} {s : σ} {as : List α} :
    Along step C s as ↔ ∀ p a, p ++ [a] <+: as → C (run step s p) a := by
  induction as generalizing s with
  | nil => simp [List.prefix_nil]
  | cons b as ih =>
    rw [along_cons, ih]
    constructor
    · rintro ⟨hb, h⟩ p a hp
      cases p with
      | nil =>
        obtain ⟨rfl, -⟩ := List.cons_prefix_cons.mp hp
        exact hb
      | cons c p =>
        obtain ⟨rfl, hp'⟩ := List.cons_prefix_cons.mp hp
        exact h p a hp'
    · intro h
      refine ⟨h [] b (by simp), fun p a hp => ?_⟩
      exact h (b :: p) a (List.cons_prefix_cons.mpr ⟨rfl, hp⟩)

section Tally

variable [AddCommMonoid M] (μ : σ → α → M)

@[simp] theorem tally_nil (s : σ) : tally step μ s [] = 0 := rfl

@[simp] theorem tally_cons (s : σ) (a : α) (as : List α) :
    tally step μ s (a :: as) = μ s a + tally step μ (step s a) as := rfl

theorem tally_append (s : σ) (as bs : List α) :
    tally step μ s (as ++ bs) = tally step μ s as + tally step μ (run step s as) bs := by
  induction as generalizing s with
  | nil => simp
  | cons a as ih => rw [List.cons_append, tally_cons, ih, tally_cons, run_cons, add_assoc]

theorem tally_prod {N : Type} [AddCommMonoid N] (ν : σ → α → N) (s : σ) (as : List α) :
    tally step (fun s a => (μ s a, ν s a)) s as = (tally step μ s as, tally step ν s as) := by
  induction as generalizing s with
  | nil => rfl
  | cons a as ih => rw [tally_cons, ih, tally_cons, tally_cons, Prod.mk_add_mk]

theorem tally_sub {N : Type} [AddCommGroup N] (μ ν : σ → α → N) (s : σ) (as : List α) :
    tally step (fun s a => μ s a - ν s a) s as = tally step μ s as - tally step ν s as := by
  induction as generalizing s with
  | nil => simp
  | cons a as ih =>
    rw [tally_cons, ih, tally_cons, tally_cons]
    abel

end Tally

/-! ## Invariants -/

/-- **Invariant rule.** -/
theorem invariant {I : σ → Prop} {C : σ → α → Prop} (hstep : ∀ s a, I s → C s a → I (step s a))
    {s : σ} {as : List α} (hI : I s) (hC : Along step C s as) : I (run step s as) := by
  induction as generalizing s with
  | nil => exact hI
  | cons a as ih => exact ih (hstep s a hI hC.1) hC.2

/-- **Invariant rule**, for an invariant that every step keeps. -/
theorem always {I : σ → Prop} (hstep : ∀ s a, I s → I (step s a)) {s : σ} (hI : I s)
    (as : List α) : I (run step s as) :=
  invariant (C := fun _ _ => True) (fun s a hs _ => hstep s a hs) hI (along_true s as)

/-- **Frame rule.** An observation that survives the steps that `C` admits for it survives a run of
such steps. -/
theorem frame {O : σ → M} {C : M → α → Prop} (hstep : ∀ s a, C (O s) a → O (step s a) = O s)
    {s : σ} {as : List α} (hC : ∀ a ∈ as, C (O s) a) : O (run step s as) = O s := by
  induction as generalizing s with
  | nil => rfl
  | cons a as ih =>
    rw [List.forall_mem_cons] at hC
    have ha := hstep s a hC.1
    rw [run_cons, ih (by rw [ha]; exact hC.2), ha]

theorem Along.of_invariant {I : σ → Prop} {C D : σ → α → Prop}
    (hstep : ∀ s a, I s → C s a → I (step s a)) (hD : ∀ s a, I s → C s a → D s a) {s : σ}
    {as : List α} (hI : I s) (hC : Along step C s as) : Along step D s as := by
  induction as generalizing s with
  | nil => trivial
  | cons a as ih => exact ⟨hD s a hI hC.1, ih (hstep s a hI hC.1) hC.2⟩

theorem Along.of_always {I : σ → Prop} {D : σ → α → Prop} (hstep : ∀ s a, I s → I (step s a))
    (hD : ∀ s a, I s → D s a) {s : σ} (hI : I s) (as : List α) : Along step D s as :=
  .of_invariant (fun s a hs _ => hstep s a hs) (fun s a hs _ => hD s a hs) hI (along_true s as)

/-- **Invariant rule with a running total.** -/
theorem invariant_tally [AddCommMonoid M] {μ : σ → α → M} {I : σ → M → Prop} {C : σ → α → Prop}
    (hstep : ∀ s m a, I s m → C s a → I (step s a) (m + μ s a)) {s : σ} {m : M} {as : List α}
    (hI : I s m) (hC : Along step C s as) : I (run step s as) (m + tally step μ s as) := by
  induction as generalizing s m with
  | nil => simpa using hI
  | cons a as ih =>
    rw [run_cons, tally_cons, ← add_assoc]
    exact ih (hstep s m a hI hC.1) hC.2

/-- **Exactness rule.** `I` is kept by every step, and a step from a state with `Q` keeps `Q`
exactly when it meets `C`. Then `Q` holds in every state of a run exactly when every step of the
run meets `C`. -/
theorem forall_prefix_iff_along {I Q : σ → Prop} {A C : σ → α → Prop}
    (hI : ∀ s a, I s → A s a → I (step s a))
    (hQ : ∀ s a, I s → A s a → Q s → (Q (step s a) ↔ C s a)) {s : σ} {as : List α}
    (hs : I s) (hq : Q s) (hA : Along step A s as) :
    (∀ p, p <+: as → Q (run step s p)) ↔ Along step C s as := by
  induction as generalizing s with
  | nil => simpa [List.prefix_nil] using hq
  | cons a as ih =>
    rw [along_cons]
    constructor
    · intro h
      have ha : Q (step s a) := h [a] (by simp)
      refine ⟨(hQ s a hs hA.1 hq).mp ha, (ih (hI s a hs hA.1) ha hA.2).mp fun p hp => ?_⟩
      exact h (a :: p) (List.cons_prefix_cons.mpr ⟨rfl, hp⟩)
    · rintro ⟨hc, hrest⟩ p hp
      cases p with
      | nil => exact hq
      | cons b p =>
        obtain ⟨rfl, hp'⟩ := List.cons_prefix_cons.mp hp
        have hb : Q (step s b) := (hQ s b hs hA.1 hq).mpr hc
        exact (ih (hI s b hs hA.1) hb hA.2).mpr hrest p hp'

/-- **Exactness rule**, for an invariant that every step keeps. -/
theorem forall_prefix_iff {I Q : σ → Prop} {C : σ → α → Prop} (hI : ∀ s a, I s → I (step s a))
    (hQ : ∀ s a, I s → Q s → (Q (step s a) ↔ C s a)) {s : σ} {as : List α} (hs : I s)
    (hq : Q s) : (∀ p, p <+: as → Q (run step s p)) ↔ Along step C s as :=
  forall_prefix_iff_along (A := fun _ _ => True) (fun s a hs _ => hI s a hs)
    (fun s a hs _ hq => hQ s a hs hq) hs hq (along_true s as)

/-! ## Occurrences -/

/-- Some step of the run is an `E`. -/
def Happened (step : σ → α → σ) (E : σ → α → Prop) : σ → List α → Prop
  | _, [] => False
  | s, a :: as => E s a ∨ Happened step E (step s a) as

/-- At most one step of the run is an `E`. -/
def Once (step : σ → α → σ) (E : σ → α → Prop) : σ → List α → Prop
  | _, [] => True
  | s, a :: as => (E s a → ¬ Happened step E (step s a) as) ∧ Once step E (step s a) as

section Occurrences

variable {E : σ → α → Prop} {I F Q : σ → Prop} {s : σ} {as : List α}

theorem Happened.imp {E' : σ → α → Prop} (hE : ∀ s a, E s a → E' s a)
    (h : Happened step E s as) : Happened step E' s as := by
  induction as generalizing s with
  | nil => exact h
  | cons a as ih => exact h.imp (hE s a) ih

/-- A quantity that only the `E` steps change sums to zero where no `E` happened. -/
theorem tally_eq_zero [AddCommMonoid M] {μ : σ → α → M} {C : σ → α → Prop}
    (hμ : ∀ s a, C s a → ¬ E s a → μ s a = 0) (hC : Along step C s as)
    (h : ¬ Happened step E s as) : tally step μ s as = 0 := by
  induction as generalizing s with
  | nil => rfl
  | cons a as ih =>
    rw [Happened, not_or] at h
    rw [tally_cons, hμ s a hC.1 h.1, ih hC.2 h.2, add_zero]

/-- **Recording rule.** When a step makes `Q` true exactly if it is an `E`, then `Q` says whether
an `E` happened. -/
theorem happened_iff (hI : ∀ s a, I s → I (step s a))
    (hQ : ∀ s a, I s → (Q (step s a) ↔ Q s ∨ E s a)) (hs : I s) :
    Q (run step s as) ↔ Q s ∨ Happened step E s as := by
  induction as generalizing s with
  | nil => simp [Happened]
  | cons a as ih => rw [run_cons, ih (hI s a hs), hQ s a hs, Happened, or_assoc]

/-- **One-shot rule.** An `E` sets a mark that stays and that bars another `E`. -/
theorem once_of_mark (hI : ∀ s a, I s → I (step s a))
    (hmark : ∀ s a, I s → E s a → ¬ F s ∧ F (step s a))
    (hkeep : ∀ s a, I s → F s → F (step s a)) (hs : I s) : Once step E s as := by
  have hbar : ∀ (as : List α) (s : σ), I s → F s → ¬ Happened step E s as := by
    intro as
    induction as with
    | nil => exact fun _ _ _ h => h
    | cons a as ih =>
      rintro s hs hF (h | h)
      · exact (hmark s a hs h).1 hF
      · exact ih (step s a) (hI s a hs) (hkeep s a hs hF) h
  induction as generalizing s with
  | nil => trivial
  | cons a as ih =>
    exact ⟨fun h => hbar as (step s a) (hI s a hs) (hmark s a hs h).2, ih (hI s a hs)⟩

end Occurrences

/-! ## What has held since -/

/-- In the history `as`, an `E` step is followed by no `R` step. Both are given with the history
before them. -/
def Since (E R : List α → α → Prop) (as : List α) : Prop :=
  ∃ bs a cs, as = bs ++ a :: cs ∧ E bs a ∧ ∀ ds b, ds ++ [b] <+: cs → ¬ R (bs ++ a :: ds) b

section Since

variable {E R : List α → α → Prop} {Q : List α → Prop} {as : List α} {a : α}

theorem Since.last (h : E as a) : Since E R (as ++ [a]) :=
  ⟨as, a, [], rfl, h, by simp⟩

theorem Since.snoc (h : Since E R as) (ha : ¬ R as a) : Since E R (as ++ [a]) := by
  obtain ⟨bs, b, cs, rfl, hE, hR⟩ := h
  refine ⟨bs, b, cs ++ [a], by simp, hE, fun ds c hds => ?_⟩
  rcases List.prefix_concat_iff.mp hds with heq | hold
  · obtain ⟨rfl, hc⟩ := List.append_inj' heq rfl
    obtain rfl := List.singleton_inj.mp hc
    exact ha
  · exact hR ds c hold

/-- **Origin rule.** What an `E` step brings about, and no `R` step leaves, has held since an `E`
step. -/
theorem since_of_holds (hnil : ¬ Q []) (hsnoc : ∀ as a, Q (as ++ [a]) → E as a ∨ Q as ∧ ¬ R as a)
    (h : Q as) : Since E R as := by
  induction as using List.reverseRecOn with
  | nil => exact absurd h hnil
  | append_singleton as a ih =>
    rcases hsnoc as a h with hE | ⟨hQ, hR⟩
    · exact .last hE
    · exact (ih hQ).snoc hR

end Since

/-! ## The value set last -/

/-- The value that the last setting step of the run sets; `E` says what a step sets. -/
def latest {ν : Type} (step : σ → α → σ) (E : σ → α → Option ν) : σ → List α → Option ν
  | _, [] => none
  | s, a :: as => (latest step E (step s a) as).or (E s a)

/-- **Last-write rule.** An observation that a step sets as `E` says, or leaves alone, is the value
set last, or else the initial one. -/
theorem latest_rule {ν : Type} {E : σ → α → Option ν} {g : σ → Option ν}
    (hg : ∀ s a, g (step s a) = (E s a).or (g s)) (s : σ) (as : List α) :
    g (run step s as) = (latest step E s as).or (g s) := by
  induction as generalizing s with
  | nil => rfl
  | cons a as ih => rw [run_cons, ih, hg, latest, Option.or_assoc]

/-- **Invariant rule with the value set last.** -/
theorem invariant_latest {ν : Type} {E : σ → α → Option ν} {I : σ → Option ν → Prop}
    {C : σ → α → Prop} (hstep : ∀ s v a, I s v → C s a → I (step s a) ((E s a).or v)) {s : σ}
    {v : Option ν} {as : List α} (hI : I s v) (hC : Along step C s as) :
    I (run step s as) ((latest step E s as).or v) := by
  induction as generalizing s v with
  | nil => exact hI
  | cons a as ih =>
    rw [run_cons, latest, Option.or_assoc]
    exact ih (hstep s v a hI hC.1) hC.2

/-! ## Logs -/

/-- What the steps of a run log, in order. -/
def logged {β : Type} (step : σ → α → σ) (μ : σ → α → List β) : σ → List α → List β
  | _, [] => []
  | s, a :: as => μ s a ++ logged step μ (step s a) as

/-! ## Carrying a running total in the state -/

/-- The system whose state also carries the running total of `μ`. -/
def counted [AddCommMonoid M] (step : σ → α → σ) (μ : σ → α → M) : σ × M → α → σ × M :=
  fun p a => (step p.1 a, p.2 + μ p.1 a)

section Counted

variable [AddCommMonoid M] {μ : σ → α → M}

theorem run_counted (p : σ × M) (as : List α) :
    run (counted step μ) p as = (run step p.1 as, p.2 + tally step μ p.1 as) := by
  induction as generalizing p with
  | nil => simp
  | cons a as ih => simp [ih, counted, add_assoc]

theorem along_counted {C : σ → α → Prop} {p : σ × M} {as : List α} :
    Along (counted step μ) (fun p a => C p.1 a) p as ↔ Along step C p.1 as := by
  induction as generalizing p with
  | nil => simp
  | cons a as ih => simp [ih, counted]

end Counted

end Run
