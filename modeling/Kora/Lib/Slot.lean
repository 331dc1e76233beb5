import Kora.Lib.Run

set_option autoImplicit false

/-!
# A slot for one item

A slot is empty or holds one item. An item is put into an empty slot and taken out again in some
way. Over a run the items put in are those taken out, in the same order, and the one that is left.

* `SlotStep`: how a slot changes, with the items put in and taken out;
* **`slot_run`**: the items of a run.
-/

/-- How a slot changes, with what is put in and what is taken out, and in which way. -/
inductive SlotStep {β ρ : Type} : Option β → List β → List (ρ × β) → Option β → Prop
  | keep (s : Option β) : SlotStep s [] [] s
  | put (x : β) : SlotStep none [x] [] (some x)
  | take (way : ρ) (x : β) : SlotStep (some x) [] [(way, x)] none

namespace SlotStep

variable {β ρ : Type} {s s' : Option β} {puts : List β} {takes : List (ρ × β)}

theorem balance (h : SlotStep s puts takes s') :
    s.toList ++ puts = takes.map Prod.snd ++ s'.toList := by
  cases h with
  | keep => simp
  | put => rfl
  | take => rfl

end SlotStep

namespace Run

variable {σ α β ρ : Type} {step : σ → α → σ} {I : σ → Prop} {slot : σ → Option β}
  {puts : σ → α → List β} {takes : σ → α → List (ρ × β)} {s : σ}

/-- **Every item put in is taken out once, or left in the slot**: the items of a run in the order in
which they were put in are the items taken out, in order, and the last one if it is still there. -/
theorem slot_run (hI : ∀ s a, I s → I (step s a))
    (hslot : ∀ s a, I s → SlotStep (slot s) (puts s a) (takes s a) (slot (step s a))) (hs : I s)
    (as : List α) : (slot s).toList ++ logged step puts s as =
      (logged step takes s as).map Prod.snd ++ (slot (run step s as)).toList := by
  induction as generalizing s with
  | nil => simp [logged]
  | cons a as ih =>
    have hstep := (hslot s a hs).balance
    rw [logged, logged, run_cons, ← List.append_assoc, hstep, List.append_assoc, ih (hI s a hs),
      List.map_append, List.append_assoc]

end Run
