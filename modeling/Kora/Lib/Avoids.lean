import Kora.Lib.Exec

set_option autoImplicit false

/-!
# Failures that cannot happen

A triple for computations that may fail: from a state in which the invariant holds, the computation
keeps the invariant when it succeeds, and where it fails it does not fail with a given failure.

* `Exec.Avoids` and its rules, one for each primitive, tagged for `grind`;
* `Avoids.strengthen`: the same under a stronger invariant, once it is known to hold at the end;
* `Avoids.zoom`: on a part of the state;
* `Avoids.bracket`: a computation that runs outside the invariant, between two changes of the state.
-/

namespace Exec

variable {ρ ε σ τ α β : Type}

/-- From a state in which `I` holds, `m` keeps `I` and does not fail with `e`. -/
structure Avoids (I : σ → Prop) (e : ε) (m : Exec ρ ε σ α) : Prop where
  keeps : Keeps I m
  avoids : ∀ r s t, I s → m r s ≠ .error e t

namespace Avoids

variable {I J : σ → Prop} {e e' : ε}

@[grind ←] theorem bind {x : Exec ρ ε σ α} {k : α → Exec ρ ε σ β} (hx : Avoids I e x)
    (hk : ∀ a, Avoids I e (k a)) : Avoids I e (x >>= k) where
  keeps := .bind hx.keeps fun a => (hk a).keeps
  avoids r s t hs h := by
    rcases bind_error.mp h with h | ⟨a, u, hx', h⟩
    · exact hx.avoids r s t hs h
    · exact (hk a).avoids r u t (hx.keeps r s a u hs hx') h

theorem of_keeps {m : Exec ρ ε σ α} (hm : Keeps I m) (h : ∀ r s t, m r s ≠ .error e t) :
    Avoids I e m := ⟨hm, fun r s t _ => h r s t⟩

@[grind ←] theorem pure (a : α) : Avoids I e (pure a : Exec ρ ε σ α) :=
  of_keeps (.pure a) fun _ _ _ h => by cases h

@[grind ←] theorem throw (hne : e' ≠ e) : Avoids I e (throw e' : Exec ρ ε σ α) :=
  of_keeps (.throw e') fun _ _ _ h => by cases h; exact hne rfl

@[grind ←] theorem asks (g : ρ → α) : Avoids I e (asks g : Exec ρ ε σ α) :=
  of_keeps (.asks g) fun _ _ _ h => by cases h

@[grind ←] theorem gets (g : σ → α) : Avoids I e (gets g : Exec ρ ε σ α) :=
  of_keeps (.gets g) fun _ _ _ h => by cases h

@[grind ←] theorem modify {g : σ → σ} (h : ∀ s, I s → I (g s)) :
    Avoids I e (modify g : Exec ρ ε σ Unit) :=
  of_keeps (.modify h) fun _ _ _ h => by cases h

@[grind ←] theorem require (c : Prop) [Decidable c] (hne : e' ≠ e) :
    Avoids I e (require c e' : Exec ρ ε σ Unit) := by
  unfold Exec.require
  split_ifs
  · exact .pure ()
  · exact .throw hne

@[grind ←] theorem ofOption (o : Option α) (hne : e' ≠ e) :
    Avoids I e (ofOption o e' : Exec ρ ε σ α) := by
  cases o with
  | none => exact .throw hne
  | some a => exact .pure a

@[grind ←] theorem ofExcept {δ : Type} {g : δ → ε} (x : Except δ α) (hne : ∀ c, x = .error c →
    g c ≠ e) : Avoids I e (ofExcept g x : Exec ρ ε σ α) := by
  cases x with
  | error c => exact .throw (hne c rfl)
  | ok a => exact .pure a

theorem ite {c : Prop} [Decidable c] {x y : Exec ρ ε σ α} (hx : Avoids I e x)
    (hy : Avoids I e y) : Avoids I e (if c then x else y) := by
  split_ifs
  · exact hx
  · exact hy

theorem strengthen {m : Exec ρ ε σ α} (hm : Avoids I e m) (hI : ∀ s, J s → I s)
    (hJ : ∀ r s a t, J s → I t → m r s = .ok a t → J t) : Avoids J e m where
  keeps r s a t hs h := hJ r s a t hs (hm.keeps r s a t (hI s hs) h) h
  avoids r s t hs h := hm.avoids r s t (hI s hs) h

theorem «local» {g : ρ → ρ} {f : ε → ε} {m : Exec ρ ε σ α} (hm : Keeps I m)
    (hne : ∀ c, f c ≠ e) : Avoids I e (Exec.«local» g f m) := by
  refine of_keeps (.local hm) fun r s t h => ?_
  unfold Exec.«local» at h
  split at h
  · cases h
  · cases h
    exact hne _ rfl

theorem attempt {m : Exec ρ ε σ α} (hm : Keeps I m) : Avoids I e (attempt m) := by
  refine of_keeps (.attempt hm) fun r s t h => ?_
  unfold Exec.attempt at h
  split at h
  · cases h
  · cases h

theorem zoom {κ : Type} {get : σ → κ} {set : κ → σ → σ} {P : κ → Prop}
    (hget : ∀ s, I s → P (get s)) (hset : ∀ k s, P k → I s → I (set k s)) {m : Exec ρ ε κ α}
    (hm : Avoids P e m) : Avoids I e (Exec.zoom get set m) where
  keeps := by
    intro r s a t hs h
    obtain ⟨u, hu, rfl⟩ := zoom_ok.mp h
    exact hset u s (hm.keeps r (get s) a u (hget s hs) hu) hs
  avoids r s t hs h := by
    unfold Exec.zoom at h
    split at h
    · cases h
    · rename_i heq
      cases h
      exact hm.avoids r (get s) _ (hget s hs) heq

/-- A computation that runs under `J`, which `enter` and `leave` turn from `I` and back. -/
theorem bracket {enter leave : σ → σ} {m : Exec ρ ε σ α} (he : ∀ s, I s → J (enter s))
    (hl : ∀ s, J s → I (leave s)) (hm : Avoids J e m) : Avoids I e (bracket enter leave m) where
  keeps := by
    intro r s a t hs h
    obtain ⟨u, hu, rfl⟩ := bracket_ok.mp h
    exact hl u (hm.keeps r (enter s) a u (he s hs) hu)
  avoids r s t hs h := by
    unfold Exec.bracket at h
    split at h
    · cases h
    · rename_i heq
      cases h
      exact hm.avoids r (enter s) _ (he s hs) heq

end Avoids

end Exec
