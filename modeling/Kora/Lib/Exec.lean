import Mathlib.Logic.Function.Basic
import Mathlib.Tactic.Common

set_option autoImplicit false

/-!
# Failing computations that keep their state

`Exec ρ ε σ α` is a computation that reads an environment `ρ`, changes a state `σ` and either
returns an `α` or fails with an `ε`. A failure carries the state in which it happened, so the
writes of a failed body remain visible until a caller rolls them back (`attempt`).

* `Exec.require`, `Exec.ofOption`, `Exec.ofExcept`: the guards;
* `Exec.local`, `Exec.attempt`, `Exec.zoom`: a call in another environment, a call that is
  rolled back when it fails, a call that only sees part of the state;
* **inversion**: `bind_ok`, the lemmas below it and their forms for a primitive followed by a
  continuation (`…_run`, `…_seq_ok`) turn `m r s = .ok a t` into the guards that were passed and
  the state that was reached;
* `Frames`, `Changes`, `Keeps`: what a successful run leaves alone, what it changes, and what it
  keeps true.
-/

/-- The result of a computation: the state survives in both cases. -/
inductive Exec.Outcome (ε σ α : Type) : Type
  | ok (a : α) (s : σ)
  | error (e : ε) (s : σ)

/-- A computation with environment `ρ`, failures `ε`, state `σ` and value `α`. -/
def Exec (ρ ε σ α : Type) : Type := ρ → σ → Exec.Outcome ε σ α

namespace Exec

variable {ρ ε σ τ α β : Type}

/-- The outcome is a success. -/
def Outcome.isOk : Outcome ε σ α → Bool
  | .ok _ _ => true
  | .error _ _ => false

theorem Outcome.isOk_iff {o : Outcome ε σ α} : o.isOk = true ↔ ∃ a s, o = .ok a s := by
  cases o <;> simp [isOk]

/-- The state an outcome leaves behind when failures are rolled back to `s`. -/
def Outcome.commit (o : Outcome ε σ α) (s : σ) : σ :=
  match o with
  | .ok _ t => t
  | .error _ _ => s

@[simp] theorem Outcome.commit_ok (a : α) (s t : σ) :
    (Outcome.ok a t : Outcome ε σ α).commit s = t := rfl

@[simp] theorem Outcome.commit_error (e : ε) (s t : σ) :
    (Outcome.error e t : Outcome ε σ α).commit s = s := rfl

/-- Run `x`, then `f` on its value; a failure of `x` ends the computation. -/
protected def bind (x : Exec ρ ε σ α) (f : α → Exec ρ ε σ β) : Exec ρ ε σ β := fun r s =>
  match x r s with
  | .ok a t => f a r t
  | .error e t => .error e t

instance : Monad (Exec ρ ε σ) where
  pure a := fun _ s => .ok a s
  bind := Exec.bind

/-! ## Primitives -/

/-- Fail, keeping the state. -/
def throw (e : ε) : Exec ρ ε σ α := fun _ s => .error e s

/-- Read from the environment. -/
def asks (f : ρ → α) : Exec ρ ε σ α := fun r s => .ok (f r) s

/-- Read from the state. -/
def gets (f : σ → α) : Exec ρ ε σ α := fun _ s => .ok (f s) s

/-- Change the state. -/
def modify (f : σ → σ) : Exec ρ ε σ Unit := fun _ s => .ok () (f s)

/-- Fail with `e` unless `c`. -/
def require (c : Prop) [Decidable c] (e : ε) : Exec ρ ε σ Unit :=
  if c then pure () else throw e

/-- The value of an option, or failure `e`. -/
def ofOption (o : Option α) (e : ε) : Exec ρ ε σ α :=
  match o with
  | some a => pure a
  | none => throw e

/-- The value of an `Except`, its error sent through `f`. -/
def ofExcept {δ : Type} (f : δ → ε) (x : Except δ α) : Exec ρ ε σ α :=
  match x with
  | .ok a => pure a
  | .error e => throw (f e)

/-- Run in a changed environment, sending failures through `h`. -/
def «local» (f : ρ → ρ) (h : ε → ε) (m : Exec ρ ε σ α) : Exec ρ ε σ α := fun r s =>
  match m (f r) s with
  | .ok a t => .ok a t
  | .error e t => .error (h e) t

/-- Run `m`; when it fails, undo its writes and go on with `none`. -/
def attempt (m : Exec ρ ε σ α) : Exec ρ ε σ (Option α) := fun r s =>
  match m r s with
  | .ok a t => .ok (some a) t
  | .error _ _ => .ok none s

/-- Run a computation on a part of the state. -/
def zoom (get : σ → τ) (set : τ → σ → σ) (m : Exec ρ ε τ α) : Exec ρ ε σ α := fun r s =>
  match m r (get s) with
  | .ok a t => .ok a (set t s)
  | .error e t => .error e (set t s)

/-- Run `m` between `enter` and `leave`; `leave` also runs when `m` fails. -/
def bracket (enter leave : σ → σ) (m : Exec ρ ε σ α) : Exec ρ ε σ α := fun r s =>
  match m r (enter s) with
  | .ok a t => .ok a (leave t)
  | .error e t => .error e (leave t)

/-! ## Inversion -/

section Inversion

variable {r : ρ} {s t : σ} {a : α} {b : β} {e : ε}

theorem bind_ok {x : Exec ρ ε σ α} {f : α → Exec ρ ε σ β} :
    (x >>= f) r s = .ok b t ↔ ∃ a u, x r s = .ok a u ∧ f a r u = .ok b t := by
  change Exec.bind x f r s = _ ↔ _
  unfold Exec.bind
  cases x r s <;> simp

@[simp] theorem pure_ok {a' : α} : (pure a : Exec ρ ε σ α) r s = .ok a' t ↔ a = a' ∧ s = t := by
  change Outcome.ok a s = _ ↔ _
  simp

@[simp] theorem throw_ok : (throw e : Exec ρ ε σ α) r s = .ok a t ↔ False := by
  simp [throw]

@[simp] theorem asks_ok {f : ρ → α} :
    (asks f : Exec ρ ε σ α) r s = .ok a t ↔ f r = a ∧ s = t := by
  simp [asks]

@[simp] theorem gets_ok {f : σ → α} :
    (gets f : Exec ρ ε σ α) r s = .ok a t ↔ f s = a ∧ s = t := by
  simp [gets]

@[simp] theorem modify_ok {f : σ → σ} {u : Unit} :
    (modify f : Exec ρ ε σ Unit) r s = .ok u t ↔ f s = t := by
  simp [modify]

theorem ite_run (c : Prop) [Decidable c] (x y : Exec ρ ε σ α) :
    (if c then x else y) r s = if c then x r s else y r s := by
  split_ifs <;> rfl

@[simp] theorem require_ok {c : Prop} [Decidable c] {u : Unit} :
    (require c e : Exec ρ ε σ Unit) r s = .ok u t ↔ c ∧ s = t := by
  unfold require
  split_ifs with h <;> simp [h]

@[simp] theorem ofOption_ok {o : Option α} :
    (ofOption o e : Exec ρ ε σ α) r s = .ok a t ↔ o = some a ∧ s = t := by
  cases o <;> simp [ofOption]

@[simp] theorem ofExcept_ok {δ : Type} {f : δ → ε} {x : Except δ α} :
    (ofExcept f x : Exec ρ ε σ α) r s = .ok a t ↔ x = .ok a ∧ s = t := by
  cases x <;> simp [ofExcept]

@[simp] theorem local_ok {f : ρ → ρ} {h : ε → ε} {m : Exec ρ ε σ α} :
    («local» f h m) r s = .ok a t ↔ m (f r) s = .ok a t := by
  unfold «local»
  cases m (f r) s <;> simp

theorem attempt_ok {m : Exec ρ ε σ α} {o : Option α} : attempt m r s = .ok o t ↔
    (∃ a, o = some a ∧ m r s = .ok a t) ∨ (o = none ∧ s = t ∧ (m r s).isOk = false) := by
  unfold attempt
  cases m r s <;> simp [Outcome.isOk, eq_comm]

/-- An attempt never fails. -/
theorem attempt_runs (m : Exec ρ ε σ α) (r : ρ) (s : σ) : ∃ o t, attempt m r s = .ok o t := by
  unfold attempt
  cases m r s <;> exact ⟨_, _, rfl⟩

theorem zoom_ok {get : σ → τ} {set : τ → σ → σ} {m : Exec ρ ε τ α} :
    zoom get set m r s = .ok a t ↔ ∃ u, m r (get s) = .ok a u ∧ set u s = t := by
  unfold zoom
  cases m r (get s) <;> simp [and_assoc]

theorem bracket_ok {enter leave : σ → σ} {m : Exec ρ ε σ α} :
    bracket enter leave m r s = .ok a t ↔ ∃ u, m r (enter s) = .ok a u ∧ leave u = t := by
  unfold bracket
  cases m r (enter s) <;> simp [and_assoc]

end Inversion

/-! ## Inversion of a sequence

Inside a body the primitives are followed by a continuation `k`; these lemmas peel them off one
by one. -/

section Sequence

variable {r : ρ} {s t : σ} {a : α} {b : β} {e : ε} {k : α → Exec ρ ε σ β}
  {l : Unit → Exec ρ ε σ β}

theorem assoc_run {γ : Type} {x : Exec ρ ε σ γ} {f : γ → Exec ρ ε σ α} :
    (x >>= f >>= k) r s = (x >>= fun c => f c >>= k) r s := by
  change Exec.bind (Exec.bind x f) k r s = Exec.bind x (fun c => Exec.bind (f c) k) r s
  unfold Exec.bind
  cases x r s <;> rfl

theorem ok_run {x : Exec ρ ε σ α} (h : x r s = .ok a t) : (x >>= k) r s = k a r t := by
  change Exec.bind x k r s = _
  unfold Exec.bind
  rw [h]

theorem error_run {x : Exec ρ ε σ α} (h : x r s = .error e t) :
    (x >>= k) r s = .error e t := by
  change Exec.bind x k r s = _
  unfold Exec.bind
  rw [h]

theorem pure_run : (pure a >>= k) r s = k a r s := rfl

theorem asks_run {f : ρ → α} : (asks f >>= k) r s = k (f r) r s := rfl

theorem gets_run {f : σ → α} : (gets f >>= k) r s = k (f s) r s := rfl

theorem modify_run {f : σ → σ} : (modify f >>= l) r s = l () r (f s) := rfl

theorem throw_seq_ok : (throw e >>= k) r s = .ok b t ↔ False := by
  simp [bind_ok]

theorem require_seq_ok {c : Prop} [Decidable c] :
    (require c e >>= l) r s = .ok b t ↔ c ∧ l () r s = .ok b t := by
  simp only [bind_ok, require_ok]
  constructor
  · rintro ⟨_, _, ⟨h, rfl⟩, hl⟩
    exact ⟨h, hl⟩
  · rintro ⟨h, hl⟩
    exact ⟨(), s, ⟨h, rfl⟩, hl⟩

theorem ofOption_seq_ok {o : Option α} :
    (ofOption o e >>= k) r s = .ok b t ↔ ∃ a, o = some a ∧ k a r s = .ok b t := by
  simp only [bind_ok, ofOption_ok]
  constructor
  · rintro ⟨a, _, ⟨h, rfl⟩, hk⟩
    exact ⟨a, h, hk⟩
  · rintro ⟨a, h, hk⟩
    exact ⟨a, s, ⟨h, rfl⟩, hk⟩

theorem ofExcept_seq_ok {δ : Type} {f : δ → ε} {x : Except δ α} :
    (ofExcept f x >>= k) r s = .ok b t ↔ ∃ a, x = .ok a ∧ k a r s = .ok b t := by
  simp only [bind_ok, ofExcept_ok]
  constructor
  · rintro ⟨a, _, ⟨h, rfl⟩, hk⟩
    exact ⟨a, h, hk⟩
  · rintro ⟨a, h, hk⟩
    exact ⟨a, s, ⟨h, rfl⟩, hk⟩

/-- A sequence fails where its first part fails, or where its continuation does. -/
theorem bind_error {x : Exec ρ ε σ α} : (x >>= k) r s = .error e t ↔
    x r s = .error e t ∨ ∃ a u, x r s = .ok a u ∧ k a r u = .error e t := by
  change Exec.bind x k r s = _ ↔ _
  unfold Exec.bind
  cases x r s with
  | ok a u => simp
  | error e' u => simp

theorem throw_seq_error {e' : ε} {k : α → Exec ρ ε σ β} :
    ((throw e' : Exec ρ ε σ α) >>= k) r s = .error e t ↔ e' = e ∧ s = t := by
  rw [error_run (show throw e' r s = .error e' s from rfl)]
  simp

theorem require_seq_error {c : Prop} [Decidable c] {e' : ε} :
    (require c e' >>= l) r s = .error e t ↔
      (¬ c ∧ e' = e ∧ s = t) ∨ c ∧ l () r s = .error e t := by
  by_cases hc : c
  · rw [ok_run (by rw [require, if_pos hc]; rfl)]
    simp [hc]
  · rw [error_run (by rw [require, if_neg hc]; rfl)]
    simp [hc]

theorem ofOption_seq_error {o : Option α} {e' : ε} :
    (ofOption o e' >>= k) r s = .error e t ↔
      (o = none ∧ e' = e ∧ s = t) ∨ ∃ a, o = some a ∧ k a r s = .error e t := by
  cases o with
  | none =>
    rw [error_run (by rfl)]
    simp
  | some a =>
    rw [ok_run (by rfl)]
    simp

theorem ofExcept_seq_error {δ : Type} {f : δ → ε} {x : Except δ α} :
    (ofExcept f x >>= k) r s = .error e t ↔
      (∃ c, x = .error c ∧ f c = e ∧ s = t) ∨ ∃ a, x = .ok a ∧ k a r s = .error e t := by
  cases x with
  | error c =>
    rw [error_run (by rfl)]
    simp
  | ok a =>
    rw [ok_run (by rfl)]
    simp

end Sequence

/-! ## Frames

The rules are tagged for `grind`, which finds the frame of an unfolded body. -/

/-- A successful run of `m` leaves the observation `f` of the state alone. -/
def Frames (f : σ → τ) (m : Exec ρ ε σ α) : Prop :=
  ∀ r s a t, m r s = .ok a t → f t = f s

namespace Frames

variable {f : σ → τ}

@[grind ←] theorem bind {x : Exec ρ ε σ α} {g : α → Exec ρ ε σ β} (hx : Frames f x)
    (hg : ∀ a, Frames f (g a)) : Frames f (x >>= g) := by
  intro r s b t h
  obtain ⟨a, u, h₁, h₂⟩ := bind_ok.mp h
  exact (hg a r u b t h₂).trans (hx r s a u h₁)

@[grind ←] theorem pure (a : α) : Frames f (pure a : Exec ρ ε σ α) := by
  intro r s b t h
  rw [(pure_ok.mp h).2]

@[grind ←] theorem throw (e : ε) : Frames f (throw e : Exec ρ ε σ α) := by
  intro r s b t h
  exact (throw_ok.mp h).elim

@[grind ←] theorem asks (g : ρ → α) : Frames f (asks g : Exec ρ ε σ α) := by
  intro r s b t h
  rw [(asks_ok.mp h).2]

@[grind ←] theorem gets (g : σ → α) : Frames f (gets g : Exec ρ ε σ α) := by
  intro r s b t h
  rw [(gets_ok.mp h).2]

@[grind ←] theorem modify {g : σ → σ} (h : ∀ s, f (g s) = f s) :
    Frames f (modify g : Exec ρ ε σ Unit) := by
  intro r s b t hm
  rw [← modify_ok.mp hm, h]

@[grind ←] theorem require (c : Prop) [Decidable c] (e : ε) :
    Frames f (require c e : Exec ρ ε σ Unit) := by
  intro r s b t h
  rw [(require_ok.mp h).2]

@[grind ←] theorem ofOption (o : Option α) (e : ε) : Frames f (ofOption o e : Exec ρ ε σ α) := by
  intro r s b t h
  rw [(ofOption_ok.mp h).2]

@[grind ←] theorem ofExcept {δ : Type} (g : δ → ε) (x : Except δ α) :
    Frames f (ofExcept g x : Exec ρ ε σ α) := by
  intro r s b t h
  rw [(ofExcept_ok.mp h).2]

theorem ite {c : Prop} [Decidable c] {x y : Exec ρ ε σ α} (hx : Frames f x)
    (hy : Frames f y) : Frames f (if c then x else y) := by
  split_ifs
  · exact hx
  · exact hy

@[grind ←] theorem «local» {g : ρ → ρ} {h : ε → ε} {m : Exec ρ ε σ α} (hm : Frames f m) :
    Frames f (Exec.«local» g h m) := by
  intro r s a t hl
  exact hm (g r) s a t (local_ok.mp hl)

@[grind ←] theorem bracket {enter leave : σ → σ} {m : Exec ρ ε σ α} (he : ∀ s, f (enter s) = f s)
    (hl : ∀ s, f (leave s) = f s) (hm : Frames f m) : Frames f (bracket enter leave m) := by
  intro r s a t h
  obtain ⟨u, hu, rfl⟩ := bracket_ok.mp h
  rw [hl, hm r (enter s) a u hu, he]

theorem zoom_same {κ : Type} {get : σ → κ} {set : κ → σ → σ} (h : ∀ s, set (get s) s = s)
    {m : Exec ρ ε κ α} (hm : Frames id m) : Frames f (Exec.zoom get set m) := by
  intro r s a t hz
  obtain ⟨u, hu, rfl⟩ := zoom_ok.mp hz
  have hsame : u = get s := hm r (get s) a u hu
  rw [hsame, h]

end Frames

/-! ## Changes -/

/-- A successful run of `m` changes the observation `f` of the state by `g`. -/
def Changes (f : σ → τ) (g : ρ → τ → τ) (m : Exec ρ ε σ α) : Prop :=
  ∀ r s a t, m r s = .ok a t → f t = g r (f s)

namespace Changes

variable {f : σ → τ} {g : ρ → τ → τ}

theorem after {x : Exec ρ ε σ α} {k : α → Exec ρ ε σ β} (hx : Frames f x)
    (hk : ∀ a, Changes f g (k a)) : Changes f g (x >>= k) := by
  intro r s b t h
  obtain ⟨a, u, h₁, h₂⟩ := bind_ok.mp h
  rw [hk a r u b t h₂, hx r s a u h₁]

theorem before {x : Exec ρ ε σ α} {k : α → Exec ρ ε σ β} (hx : Changes f g x)
    (hk : ∀ a, Frames f (k a)) : Changes f g (x >>= k) := by
  intro r s b t h
  obtain ⟨a, u, h₁, h₂⟩ := bind_ok.mp h
  rw [hk a r u b t h₂, hx r s a u h₁]

theorem ite {c : Prop} [Decidable c] {x y : Exec ρ ε σ α} (hx : Changes f g x)
    (hy : Changes f g y) : Changes f g (if c then x else y) := by
  split_ifs
  · exact hx
  · exact hy

theorem bracket {enter leave : σ → σ} {m : Exec ρ ε σ α} (he : ∀ s, f (enter s) = f s)
    (hl : ∀ s, f (leave s) = f s) (hm : Changes f g m) : Changes f g (bracket enter leave m) := by
  intro r s a t h
  obtain ⟨u, hu, rfl⟩ := bracket_ok.mp h
  rw [hl, hm r (enter s) a u hu, he]

end Changes

/-! ## Invariants -/

/-- A successful run of `m` keeps `I`. -/
def Keeps (I : σ → Prop) (m : Exec ρ ε σ α) : Prop :=
  ∀ r s a t, I s → m r s = .ok a t → I t

theorem Frames.keeps {f : σ → τ} {m : Exec ρ ε σ α} (hm : Frames f m) (P : τ → Prop) :
    Keeps (fun s => P (f s)) m := by
  intro r s a t hs h
  rw [hm r s a t h]
  exact hs

namespace Keeps

variable {I : σ → Prop}

@[grind ←] theorem bind {x : Exec ρ ε σ α} {g : α → Exec ρ ε σ β} (hx : Keeps I x)
    (hg : ∀ a, Keeps I (g a)) : Keeps I (x >>= g) := by
  intro r s b t hs h
  obtain ⟨a, u, h₁, h₂⟩ := bind_ok.mp h
  exact hg a r u b t (hx r s a u hs h₁) h₂

theorem of_same {m : Exec ρ ε σ α} (hm : ∀ r s a t, m r s = .ok a t → t = s) : Keeps I m := by
  intro r s a t hs h
  rw [hm r s a t h]
  exact hs

@[grind ←] theorem pure (a : α) : Keeps I (pure a : Exec ρ ε σ α) :=
  of_same fun _ _ _ _ h => (pure_ok.mp h).2.symm

@[grind ←] theorem throw (e : ε) : Keeps I (throw e : Exec ρ ε σ α) :=
  of_same fun _ _ _ _ h => (throw_ok.mp h).elim

@[grind ←] theorem asks (g : ρ → α) : Keeps I (asks g : Exec ρ ε σ α) :=
  of_same fun _ _ _ _ h => (asks_ok.mp h).2.symm

@[grind ←] theorem gets (g : σ → α) : Keeps I (gets g : Exec ρ ε σ α) :=
  of_same fun _ _ _ _ h => (gets_ok.mp h).2.symm

@[grind ←] theorem require (c : Prop) [Decidable c] (e : ε) :
    Keeps I (require c e : Exec ρ ε σ Unit) :=
  of_same fun _ _ _ _ h => (require_ok.mp h).2.symm

@[grind ←] theorem ofOption (o : Option α) (e : ε) : Keeps I (ofOption o e : Exec ρ ε σ α) :=
  of_same fun _ _ _ _ h => (ofOption_ok.mp h).2.symm

@[grind ←] theorem modify {g : σ → σ} (h : ∀ s, I s → I (g s)) :
    Keeps I (modify g : Exec ρ ε σ Unit) := by
  intro r s b t hs hm
  rw [← modify_ok.mp hm]
  exact h s hs

@[grind ←] theorem «local» {g : ρ → ρ} {h : ε → ε} {m : Exec ρ ε σ α} (hm : Keeps I m) :
    Keeps I (Exec.«local» g h m) := by
  intro r s a t hs hl
  exact hm (g r) s a t hs (local_ok.mp hl)

@[grind ←] theorem attempt {m : Exec ρ ε σ α} (hm : Keeps I m) : Keeps I (attempt m) := by
  intro r s o t hs h
  rcases attempt_ok.mp h with ⟨a, -, h⟩ | ⟨-, rfl, -⟩
  · exact hm r s a t hs h
  · exact hs

theorem zoom {κ : Type} {get : σ → κ} {set : κ → σ → σ} {P : κ → Prop}
    (h : ∀ k s, get (set k s) = k) {m : Exec ρ ε κ α} (hm : Keeps P m) :
    Keeps (fun s => P (get s)) (zoom get set m) := by
  intro r s a t hs hz
  obtain ⟨u, hu, rfl⟩ := zoom_ok.mp hz
  rw [h]
  exact hm r (get s) a u hs hu

end Keeps

end Exec
