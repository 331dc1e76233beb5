import Mathlib.Data.Finset.Card
import Mathlib.Data.List.Nodup
import Mathlib.Logic.Function.Basic
import Mathlib.Tactic.Common

set_option autoImplicit false

/-!
# Ballots

Motions of type `M` are put to the vote under consecutive numbers; voters of type `V` approve a
ballot while it is open, and carrying it out closes it.

* `Ballots`, `Event`, `Step`: the ballots, what can happen to them, and the transition;
* **`Step.wellFormed`**: numbers are fresh and no voter counts twice;
* **`Step.approved_iff`**, **`Step.moved_iff`**, **`Step.closed_iff`**: what a step records;
* `Backed`, **`Backed.quorum`**, **`Step.secured`**: approvals that count after the eligible voters
  changed;
* **`quorum_of_all`**: the eligible voters together reach a threshold.
-/

/-- A ballot: what is put to the vote, who approved it, and whether it was carried out. -/
structure Ballot (V M : Type) where
  motion : M
  approvals : List V
  closed : Bool

/-- The ballots by number, and the number of the next one. -/
structure Ballots (V M : Type) where
  next : ℕ
  ballot : ℕ → Option (Ballot V M)

namespace Ballots

variable {V M : Type}

/-- What can happen to the ballots. -/
inductive Event (V M : Type) : Type
  | keep
  | propose (v : V) (m : M)
  | approve (v : V) (id : ℕ)
  | execute (id : ℕ)

/-- The transition: the proposer approves, an approval is new, and only open ballots move. -/
inductive Step (B : Ballots V M) : Event V M → Ballots V M → Prop
  | keep : Step B .keep B
  | propose (v : V) (m : M) : Step B (.propose v m)
      ⟨B.next + 1, Function.update B.ballot B.next (some ⟨m, [v], false⟩)⟩
  | approve (v : V) (id : ℕ) (b : Ballot V M) : B.ballot id = some b → b.closed = false →
      v ∉ b.approvals → Step B (.approve v id) { B with
        ballot := Function.update B.ballot id (some { b with approvals := b.approvals ++ [v] }) }
  | execute (id : ℕ) (b : Ballot V M) : B.ballot id = some b → b.closed = false →
      Step B (.execute id) { B with
        ballot := Function.update B.ballot id (some { b with closed := true }) }

/-- Voter `v` approved ballot `id`. -/
def Approved (B : Ballots V M) (id : ℕ) (v : V) : Prop :=
  ∃ b, B.ballot id = some b ∧ v ∈ b.approvals

/-- Ballot `id` is about `m`. -/
def Moved (B : Ballots V M) (id : ℕ) (m : M) : Prop := ∃ b, B.ballot id = some b ∧ b.motion = m

/-- Ballot `id` was carried out. -/
def Closed (B : Ballots V M) (id : ℕ) : Prop := ∃ b, B.ballot id = some b ∧ b.closed = true

/-- The event is an approval of ballot `id` by `v`, which may be its proposal. -/
def Event.Approves (B : Ballots V M) (id : ℕ) (v : V) : Event V M → Prop
  | .propose v' _ => v' = v ∧ B.next = id
  | .approve v' id' => v' = v ∧ id' = id
  | _ => False

/-- The event puts `m` to the vote as ballot `id`. -/
def Event.Moves (B : Ballots V M) (id : ℕ) (m : M) : Event V M → Prop
  | .propose _ m' => m' = m ∧ B.next = id
  | _ => False

/-- Numbers from `next` on are free, and no voter is counted twice. -/
structure WellFormed (B : Ballots V M) : Prop where
  fresh : ∀ id, B.next ≤ id → B.ballot id = none
  nodup : ∀ id b, B.ballot id = some b → b.approvals.Nodup

section Steps

variable {B B' : Ballots V M} {e : Event V M} {id : ℕ} {v : V} {m : M}

theorem exists_update {f : ℕ → Option (Ballot V M)} {b : Ballot V M} {id' : ℕ}
    {P : Ballot V M → Prop} :
    (∃ b', Function.update f id' (some b) id = some b' ∧ P b') ↔
      id' = id ∧ P b ∨ id' ≠ id ∧ ∃ b', f id = some b' ∧ P b' := by
  by_cases h : id' = id
  · subst h
    simp
  · simp [Function.update_of_ne (Ne.symm h), h]

/-- **Numbers stay fresh and approvals stay different.** -/
theorem Step.wellFormed (hB : B.WellFormed) (h : Step B e B') : B'.WellFormed := by
  have hne : ∀ {id b}, B.ballot id = some b → ∀ id', B.next ≤ id' → id' ≠ id := by
    rintro id b hb id' hle rfl
    rw [hB.fresh id' hle] at hb
    cases hb
  have hwrite : ∀ (id : ℕ) (b : Ballot V M), b.approvals.Nodup → ∀ id' b',
      Function.update B.ballot id (some b) id' = some b' → b'.approvals.Nodup := by
    intro id b hb id' b' h'
    rw [Function.update_apply] at h'
    split_ifs at h' with heq
    · cases h'
      exact hb
    · exact hB.nodup id' b' h'
  cases h with
  | keep => exact hB
  | propose v m =>
    refine ⟨fun id' (hle : B.next + 1 ≤ id') => ?_, hwrite _ _ (List.nodup_singleton v)⟩
    change Function.update B.ballot B.next _ id' = none
    rw [Function.update_of_ne (by omega)]
    exact hB.fresh id' (by omega)
  | approve v id b hb _ hv =>
    refine ⟨fun id' (hle : B.next ≤ id') => ?_, hwrite _ _ ?_⟩
    · change Function.update B.ballot id _ id' = none
      rw [Function.update_of_ne (hne hb id' hle)]
      exact hB.fresh id' hle
    · have hd : List.Disjoint b.approvals [v] := by simpa using hv
      exact (hB.nodup id b hb).append (List.nodup_singleton v) hd
  | execute id b hb =>
    refine ⟨fun id' (hle : B.next ≤ id') => ?_, hwrite _ _ (hB.nodup id b hb)⟩
    change Function.update B.ballot id _ id' = none
    rw [Function.update_of_ne (hne hb id' hle)]
    exact hB.fresh id' hle

/-- **Approvals are recorded and kept.** -/
theorem Step.approved_iff (hB : B.WellFormed) (h : Step B e B') :
    B'.Approved id v ↔ B.Approved id v ∨ e.Approves B id v := by
  unfold Approved Event.Approves
  cases h with
  | keep => simp
  | propose v' m =>
    have hfree := hB.fresh B.next le_rfl
    rw [exists_update]
    grind
  | approve v' id' b hb =>
    rw [exists_update]
    grind
  | execute id' b hb =>
    rw [exists_update]
    grind

theorem Step.moved_iff (hB : B.WellFormed) (h : Step B e B') :
    B'.Moved id m ↔ B.Moved id m ∨ e.Moves B id m := by
  unfold Moved Event.Moves
  cases h with
  | keep => simp
  | propose v m' =>
    have hfree := hB.fresh B.next le_rfl
    rw [exists_update]
    grind
  | approve v id' b hb =>
    rw [exists_update]
    grind
  | execute id' b hb =>
    rw [exists_update]
    grind

/-- **A ballot is carried out at most once.** -/
theorem Step.closed_iff (hB : B.WellFormed) (h : Step B e B') :
    B'.Closed id ↔ B.Closed id ∨ e = .execute id := by
  unfold Closed
  cases h with
  | keep => simp
  | propose v m =>
    have hfree := hB.fresh B.next le_rfl
    rw [exists_update]
    grind
  | approve v id' b hb =>
    rw [exists_update]
    grind
  | execute id' b hb =>
    rw [exists_update]
    grind

theorem Step.not_closed (h : Step B (.execute id) B') : ¬ B.Closed id := by
  generalize he : Event.execute id = e at h
  cases h with
  | execute id' b hb hopen =>
    cases he
    rintro ⟨b', hb', hclosed⟩
    grind
  | keep | propose | approve => cases he

theorem Step.next_le (h : Step B e B') : B.next ≤ B'.next := by
  cases h with
  | propose v m => exact Nat.le_succ _
  | keep | approve | execute => exact le_rfl

end Steps

/-! ## Quorum -/

section Quorum

variable [DecidableEq V] {approvals eligible : List V} {threshold : ℕ}

/-- The approvals are all by eligible voters, or a threshold of them is. -/
def Backed (eligible : List V) (threshold : ℕ) (approvals : List V) : Prop :=
  (∀ v ∈ approvals, v ∈ eligible) ∨ threshold ≤ (approvals.filter (· ∈ eligible)).length

theorem Backed.snoc {v : V} (h : Backed eligible threshold approvals) (hv : v ∈ eligible) :
    Backed eligible threshold (approvals ++ [v]) := by
  rcases h with hall | hquorum
  · refine Or.inl fun u hu => ?_
    rcases List.mem_append.mp hu with hold | hnew
    · exact hall u hold
    · rwa [List.mem_singleton.mp hnew]
  · right
    rw [List.filter_append, List.length_append]
    omega

/-- **A count of backed approvals** that reaches the threshold is a count of eligible voters. -/
theorem Backed.quorum (h : Backed eligible threshold approvals) (hnodup : approvals.Nodup)
    (hcount : threshold ≤ approvals.length) :
    ∃ voters : Finset V, threshold ≤ voters.card ∧
      ∀ v ∈ voters, v ∈ eligible ∧ v ∈ approvals := by
  have hle : threshold ≤ (approvals.filter (· ∈ eligible)).length := by
    rcases h with hall | hquorum
    · rwa [List.filter_eq_self.mpr fun v hv => decide_eq_true (hall v hv)]
    · exact hquorum
  refine ⟨(approvals.filter (· ∈ eligible)).toFinset, ?_, fun v hv => ?_⟩
  · rwa [List.toFinset_card_of_nodup (hnodup.filter _)]
  · have hmem := List.mem_filter.mp (List.mem_toFinset.mp hv)
    exact ⟨of_decide_eq_true hmem.2, hmem.1⟩

/-- Every open ballot on a live motion is backed. -/
def Secured (live : M → Prop) (eligible : List V) (threshold : ℕ) (B : Ballots V M) : Prop :=
  ∀ id b, B.ballot id = some b → b.closed = false → live b.motion →
    Backed eligible threshold b.approvals

variable {live : M → Prop} {B B' : Ballots V M} {e : Event V M}

theorem Secured.mono {live' : M → Prop} (h : B.Secured live eligible threshold)
    (hlive : ∀ m, live' m → live m) : B.Secured live' eligible threshold :=
  fun id b hb hopen hm => h id b hb hopen (hlive _ hm)

/-- **While the eligible voters stay the same**, their approvals keep the ballots backed. -/
theorem Step.secured (h : Step B e B') (hB : B.Secured live eligible threshold)
    (hvotes : ∀ id v, e.Approves B id v → v ∈ eligible) :
    B'.Secured live eligible threshold := by
  have hwrite : ∀ (id : ℕ) (b : Ballot V M),
      (b.closed = false → live b.motion → Backed eligible threshold b.approvals) →
      ∀ id' b', Function.update B.ballot id (some b) id' = some b' → b'.closed = false →
        live b'.motion → Backed eligible threshold b'.approvals := by
    intro id b hb id' b' h'
    rw [Function.update_apply] at h'
    split_ifs at h' with heq
    · cases h'
      exact hb
    · exact hB id' b' h'
  cases h with
  | keep => exact hB
  | propose v m =>
    refine hwrite _ _ fun _ _ => Or.inl fun u hu => ?_
    rw [List.mem_singleton.mp hu]
    exact hvotes B.next v ⟨rfl, rfl⟩
  | approve v id b hb hopen =>
    exact hwrite _ _ fun _ hm => (hB id b hb hopen hm).snoc (hvotes id v ⟨rfl, rfl⟩)
  | execute id b hb =>
    refine hwrite _ _ ?_
    rintro ⟨⟩

/-- **A threshold of at most the different eligible voters is reached when all of them
approved.** -/
theorem quorum_of_all (hle : threshold ≤ eligible.toFinset.card)
    (hall : ∀ v ∈ eligible, v ∈ approvals) : threshold ≤ approvals.length := by
  have hsub : eligible.toFinset ⊆ approvals.toFinset := by
    intro v hv
    exact List.mem_toFinset.mpr (hall v (List.mem_toFinset.mp hv))
  calc threshold ≤ eligible.toFinset.card := hle
    _ ≤ approvals.toFinset.card := Finset.card_le_card hsub
    _ ≤ approvals.length := List.toFinset_card_le approvals

end Quorum

end Ballots
