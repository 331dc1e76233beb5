import Kora.Lib.Exec

set_option autoImplicit false

/-!
# Two runs of one computation

A map `f` of states relates the run of a computation from `s` with its run from `f s`.

* `Natural f m`: the two runs are the same up to `f`, failures included; closed under every
  combinator;
* `OnlyBlocks f g D m`: as a caller sees it, the run from `f s` is the same up to `f`, or it fails
  where the run from `s` succeeds and changes the observation `g` as `D` says;
* **`Natural.result`**, **`OnlyBlocks.bind`**: the rules that the uses rest on.
-/

namespace Exec

variable {ρ ε σ τ α β : Type}

/-- Change the state of an outcome. -/
def Outcome.map (f : σ → τ) : Outcome ε σ α → Outcome ε τ α
  | .ok a s => .ok a (f s)
  | .error e s => .error e (f s)

/-- An outcome without the state of a failure, which a caller rolls back. -/
def Outcome.result : Outcome ε σ α → Except ε (α × σ)
  | .ok a s => .ok (a, s)
  | .error e _ => .error e

/-- The result with its state changed by `f`. -/
def resultMap (f : σ → τ) : Except ε (α × σ) → Except ε (α × τ) := Except.map (Prod.map id f)

@[simp] theorem resultMap_ok (f : σ → τ) (a : α) (s : σ) :
    resultMap f (.ok (a, s) : Except ε (α × σ)) = .ok (a, f s) := rfl

@[simp] theorem resultMap_error (f : σ → τ) (e : ε) :
    resultMap f (.error e : Except ε (α × σ)) = .error e := rfl

theorem resultMap_comp {υ : Type} (f : σ → τ) (g : τ → υ) (x : Except ε (α × σ)) :
    resultMap g (resultMap f x) = resultMap (g ∘ f) x := by
  cases x <;> rfl

theorem Outcome.result_map (f : σ → τ) (o : Outcome ε σ α) :
    (o.map f).result = resultMap f o.result := by
  cases o <;> rfl

/-- The run from `f s` is the run from `s`, up to `f`. -/
def Natural (f : σ → σ) (m : Exec ρ ε σ α) : Prop := ∀ r s, m r (f s) = (m r s).map f

namespace Natural

variable {f : σ → σ}

theorem result {m : Exec ρ ε σ α} (h : Natural f m) (r : ρ) (s : σ) :
    (m r (f s)).result = resultMap f (m r s).result := by
  rw [h r s, Outcome.result_map]

theorem ok {m : Exec ρ ε σ α} (h : Natural f m) {r : ρ} {s t : σ} {a : α}
    (hm : m r s = .ok a t) : m r (f s) = .ok a (f t) := by
  rw [h r s, hm]
  rfl

@[grind ←] theorem bind {x : Exec ρ ε σ α} {k : α → Exec ρ ε σ β} (hx : Natural f x)
    (hk : ∀ a, Natural f (k a)) : Natural f (x >>= k) := by
  intro r s
  change Exec.bind x k r (f s) = (Exec.bind x k r s).map f
  unfold Exec.bind
  rw [hx r s]
  cases x r s with
  | ok a t => exact hk a r t
  | error e t => rfl

@[grind ←] theorem pure (a : α) : Natural f (pure a : Exec ρ ε σ α) := fun _ _ => rfl

@[grind ←] theorem throw (e : ε) : Natural f (throw e : Exec ρ ε σ α) := fun _ _ => rfl

@[grind ←] theorem asks (g : ρ → α) : Natural f (asks g : Exec ρ ε σ α) := fun _ _ => rfl

@[grind ←] theorem gets {g : σ → α} (h : ∀ s, g (f s) = g s) :
    Natural f (gets g : Exec ρ ε σ α) := by
  intro r s
  exact congrArg (Outcome.ok · (f s)) (h s)

@[grind ←] theorem modify {g : σ → σ} (h : ∀ s, g (f s) = f (g s)) :
    Natural f (modify g : Exec ρ ε σ Unit) := by
  intro r s
  exact congrArg (Outcome.ok ()) (h s)

theorem ite {c : Prop} [Decidable c] {x y : Exec ρ ε σ α} (hx : Natural f x)
    (hy : Natural f y) : Natural f (if c then x else y) := by
  split_ifs
  · exact hx
  · exact hy

@[grind ←] theorem require (c : Prop) [Decidable c] (e : ε) :
    Natural f (require c e : Exec ρ ε σ Unit) := ite (pure ()) (throw e)

@[grind ←] theorem ofOption (o : Option α) (e : ε) :
    Natural f (ofOption o e : Exec ρ ε σ α) := by
  cases o with
  | none => exact throw e
  | some a => exact pure a

@[grind ←] theorem ofExcept {δ : Type} (g : δ → ε) (x : Except δ α) :
    Natural f (ofExcept g x : Exec ρ ε σ α) := by
  cases x with
  | ok a => exact pure a
  | error e => exact throw (g e)

@[grind ←] theorem «local» {g : ρ → ρ} {h : ε → ε} {m : Exec ρ ε σ α} (hm : Natural f m) :
    Natural f (Exec.«local» g h m) := by
  intro r s
  unfold Exec.«local»
  rw [hm (g r) s]
  cases m (g r) s <;> rfl

@[grind ←] theorem attempt {m : Exec ρ ε σ α} (hm : Natural f m) : Natural f (attempt m) := by
  intro r s
  unfold Exec.attempt
  rw [hm r s]
  cases m r s <;> rfl

@[grind ←] theorem bracket {enter leave : σ → σ} {m : Exec ρ ε σ α}
    (he : ∀ s, enter (f s) = f (enter s)) (hl : ∀ s, leave (f s) = f (leave s))
    (hm : Natural f m) : Natural f (bracket enter leave m) := by
  intro r s
  unfold Exec.bracket
  rw [he, hm r (enter s)]
  cases m r (enter s) with
  | ok a t => exact congrArg (Outcome.ok a) (hl t)
  | error e t => exact congrArg (Outcome.error e) (hl t)

theorem zoom {g : τ → τ} {get : σ → τ} {set : τ → σ → σ} (hget : ∀ s, get (f s) = g (get s))
    (hset : ∀ t s, set (g t) (f s) = f (set t s)) {m : Exec ρ ε τ α} (hm : Natural g m) :
    Natural f (zoom get set m) := by
  intro r s
  unfold Exec.zoom
  rw [hget, hm r (get s)]
  cases m r (get s) with
  | ok a t => exact congrArg (Outcome.ok a) (hset t s)
  | error e t => exact congrArg (Outcome.error e) (hset t s)

theorem id (m : Exec ρ ε σ α) : Natural (fun s => s) m := by
  intro r s
  cases m r s <;> rfl

end Natural

/-! ## Blocking -/

/-- The run from `f s` has the result of the run from `s`, up to `f`, or it fails where the run from
`s` succeeds and takes the observation `g` through `D`. -/
def OnlyBlocks (f : σ → σ) (g : σ → τ) (D : τ → τ → Prop) (m : Exec ρ ε σ α) : Prop :=
  ∀ r s, (m r (f s)).result = resultMap f (m r s).result ∨
    (∃ a t, m r s = .ok a t ∧ D (g s) (g t)) ∧ (m r (f s)).isOk = false

namespace OnlyBlocks

variable {f : σ → σ} {g : σ → τ} {D : τ → τ → Prop}

theorem of_natural {m : Exec ρ ε σ α} (h : Natural f m) : OnlyBlocks f g D m :=
  fun r s => Or.inl (h.result r s)

theorem isOk_bind {x : Exec ρ ε σ α} {k : α → Exec ρ ε σ β} {r : ρ} {s : σ}
    (h : (x r s).isOk = false) : ((x >>= k) r s).isOk = false := by
  change (Exec.bind x k r s).isOk = false
  unfold Exec.bind
  cases hx : x r s with
  | ok a t => rw [hx] at h; cases h
  | error e t => rfl

/-- **A natural computation that keeps the observation can come first.** -/
theorem bind {x : Exec ρ ε σ α} {k : α → Exec ρ ε σ β} (hx : Natural f x) (hframe : Frames g x)
    (hk : ∀ a, OnlyBlocks f g D (k a)) : OnlyBlocks f g D (x >>= k) := by
  intro r s
  change (Exec.bind x k r (f s)).result = resultMap f (Exec.bind x k r s).result ∨
    (∃ a t, Exec.bind x k r s = .ok a t ∧ D (g s) (g t)) ∧ (Exec.bind x k r (f s)).isOk = false
  unfold Exec.bind
  rw [hx r s]
  cases h : x r s with
  | ok a t =>
    rw [← hframe r s a t h]
    exact hk a r t
  | error e t => exact Or.inl rfl

theorem throw_bind (e : ε) (k : α → Exec ρ ε σ β) :
    OnlyBlocks f g D ((throw e : Exec ρ ε σ α) >>= k) := fun _ _ => Or.inl rfl

theorem seq_modify {x : Exec ρ ε σ Unit} {h : σ → σ} (hx : OnlyBlocks f g D x)
    (hf : ∀ s, h (f s) = f (h s)) (hg : ∀ s, g (h s) = g s) :
    OnlyBlocks f g D (x >>= fun _ => modify h) := by
  intro r s
  rcases hx r s with heq | ⟨⟨a, t, hok, hD⟩, hblocked⟩
  · left
    change (Exec.bind x _ r (f s)).result = resultMap f (Exec.bind x _ r s).result
    unfold Exec.bind
    cases hfs : x r (f s) with
    | ok b u =>
      cases hs : x r s with
      | ok a t =>
        rw [hfs, hs] at heq
        cases heq
        exact congrArg (fun v => Except.ok ((), v)) (hf t)
      | error e t => rw [hfs, hs] at heq; cases heq
    | error e u =>
      cases hs : x r s with
      | ok a t => rw [hfs, hs] at heq; cases heq
      | error e' t =>
        rw [hfs, hs] at heq
        exact heq
  · refine Or.inr ⟨⟨(), h t, bind_ok.mpr ⟨a, t, hok, rfl⟩, ?_⟩, isOk_bind hblocked⟩
    rwa [hg]

theorem ite {c : Prop} [Decidable c] {x y : Exec ρ ε σ α} (hx : OnlyBlocks f g D x)
    (hy : OnlyBlocks f g D y) : OnlyBlocks f g D (if c then x else y) := by
  split_ifs
  · exact hx
  · exact hy

/-- A call whose failures all look the same to the caller: only its successes matter. -/
theorem masked {m : Exec ρ ε σ α} {enter : ρ → ρ} {e : ε}
    (hdown : ∀ r s a t, m r (f s) = .ok a t → ∃ u, t = f u ∧ m r s = .ok a u)
    (hup : ∀ r s a t, m r s = .ok a t → m r (f s) = .ok a (f t) ∨ D (g s) (g t)) :
    OnlyBlocks f g D (Exec.«local» enter (fun _ => e) m) := by
  intro r s
  unfold Exec.«local»
  cases hfs : m (enter r) (f s) with
  | ok a t =>
    obtain ⟨u, rfl, hu⟩ := hdown _ _ _ _ hfs
    rw [hu]
    exact Or.inl rfl
  | error e' t =>
    cases hs : m (enter r) s with
    | error _ _ => exact Or.inl rfl
    | ok a u =>
      rcases hup _ _ _ _ hs with hok | hD
      · rw [hfs] at hok
        cases hok
      · exact Or.inr ⟨⟨a, u, rfl, hD⟩, rfl⟩

end OnlyBlocks

end Exec
