/-
Partial steps with a footprint.

A state is seen as a family of locations. A step that reads and writes only
certain locations runs alike in all states that agree on them, and leaves every
other location alone. Two steps whose footprints meet only in what neither
writes can therefore be swapped.
-/

import Mathlib.Data.Set.Disjoint
import Mathlib.Data.Set.Lattice
import Mathlib.Order.CompletePartialOrder

namespace Footprint

variable {σ ℓ : Type*} (same : ℓ → σ → σ → Prop)

def AgreeOn (locations : Set ℓ) (state state' : σ) : Prop :=
  ∀ location ∈ locations, same location state state'

/-- From a state that looks like `before`, the step does what it does there,
to its own locations only. -/
def Local (reads writes : Set ℓ) (step : σ → Option σ) (before after : σ) : Prop :=
  ∀ state, AgreeOn same (reads ∪ writes) before state →
    ∃ state', step state = some state' ∧ AgreeOn same writes after state' ∧
      AgreeOn same (Set.compl writes) state state'

variable {same} (equivalence : ∀ location, Equivalence (same location))
  {reads writes reads' writes' : Set ℓ} {step step' : σ → Option σ}
  {before after after' : σ}

include equivalence

theorem AgreeOn.refl (locations : Set ℓ) (state : σ) : AgreeOn same locations state state :=
  fun location _ => (equivalence location).refl state

omit equivalence in
theorem AgreeOn.mono {locations locations' : Set ℓ} {state state' : σ}
    (agree : AgreeOn same locations state state') (fewer : locations' ⊆ locations) :
    AgreeOn same locations' state state' :=
  fun location member => agree location (fewer member)

theorem Local.frame (runs : Local same reads writes step before after)
    (steps : step before = some after) : AgreeOn same (Set.compl writes) before after := by
  obtain ⟨state', steps', _, frame⟩ := runs before (AgreeOn.refl equivalence _ before)
  cases steps.symm.trans steps'
  exact frame

theorem Local.following (runs : Local same reads writes step before after)
    (runs' : Local same reads' writes' step' before after')
    (steps' : step' before = some after') (apart : Disjoint writes' (reads ∪ writes)) :
    ∃ state', step after' = some state' ∧ AgreeOn same writes after state' ∧
      AgreeOn same (Set.compl writes) after' state' := by
  apply runs
  apply AgreeOn.mono (runs'.frame equivalence steps')
  intro location member written
  exact Set.disjoint_left.mp apart written member

/-- Two steps with separate footprints run in either order, to states that
agree everywhere. -/
theorem Local.commute (runs : Local same reads writes step before after)
    (runs' : Local same reads' writes' step' before after')
    (steps : step before = some after) (steps' : step' before = some after')
    (apart : Disjoint writes' (reads ∪ writes)) (apart' : Disjoint writes (reads' ∪ writes')) :
    ∃ first second, step' after = some first ∧ step after' = some second ∧
      AgreeOn same Set.univ first second := by
  obtain ⟨second, stepSecond, written, kept⟩ := runs.following equivalence runs' steps' apart
  obtain ⟨first, stepFirst, written', kept'⟩ := runs'.following equivalence runs steps apart'
  refine ⟨first, second, stepFirst, stepSecond, ?_⟩
  intro location _
  have chain {one two three : σ} (left : same location one two) (right : same location two three) :
      same location one three := (equivalence location).trans left right
  have back {one two : σ} (equal : same location one two) : same location two one :=
    (equivalence location).symm equal
  by_cases mine : location ∈ writes
  · -- the other step leaves it, so both hold what the first step wrote
    have theirs : location ∉ writes' := by
      intro member
      exact Set.disjoint_left.mp apart member (Set.mem_union_right _ mine)
    exact chain (back (kept' location theirs)) (written location mine)
  · by_cases theirs : location ∈ writes'
    · exact chain (back (written' location theirs)) (kept location mine)
    · have left := chain (runs.frame equivalence steps location mine) (kept' location theirs)
      have right := chain (runs'.frame equivalence steps' location theirs) (kept location mine)
      exact chain (back left) right

end Footprint
