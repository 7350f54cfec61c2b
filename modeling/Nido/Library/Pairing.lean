/-
Two maps that are kept inverse to each other.

A pair is linked in both maps or in neither, so each side of a pair determines
the other. Linking a free pair and unlinking a linked one keep this.
-/

import Mathlib.Logic.Function.Basic

namespace Pairing

variable {α β : Type*}

/-- The maps hold the same pairs. -/
def Paired (forward : α → Option β) (backward : β → Option α) : Prop :=
  ∀ left right, forward left = some right ↔ backward right = some left

variable {forward : α → Option β} {backward : β → Option α}

theorem paired_empty : Paired (fun _ : α => (none : Option β)) (fun _ => none) := by
  intro left right
  constructor
  · intro impossible
    cases impossible
  · intro impossible
    cases impossible

theorem Paired.injective (paired : Paired forward backward) {left left' : α} {right : β}
    (found : forward left = some right) (found' : forward left' = some right) : left = left' := by
  have back := (paired left right).mp found
  have back' := (paired left' right).mp found'
  exact Option.some.inj (back.symm.trans back')

variable [DecidableEq α] [DecidableEq β]

theorem Paired.link (paired : Paired forward backward) {left : α} {right : β}
    (free : forward left = none) (free' : backward right = none) :
    Paired (Function.update forward left (some right))
      (Function.update backward right (some left)) := by
  intro one two
  by_cases atLeft : one = left
  · subst one
    by_cases atRight : two = right
    · subst two
      simp only [Function.update_self]
    · rw [Function.update_self, Function.update_of_ne atRight, ← paired, free, Option.some.injEq]
      constructor
      · intro same
        exact absurd same.symm atRight
      · intro impossible
        cases impossible
  · by_cases atRight : two = right
    · subst two
      rw [Function.update_self, Function.update_of_ne atLeft, paired, free', Option.some.injEq]
      constructor
      · intro impossible
        cases impossible
      · intro same
        exact absurd same.symm atLeft
    · rw [Function.update_of_ne atLeft, Function.update_of_ne atRight]
      exact paired one two

theorem Paired.unlink (paired : Paired forward backward) {left : α} {right : β}
    (linked : forward left = some right) :
    Paired (Function.update forward left none) (Function.update backward right none) := by
  intro one two
  by_cases atLeft : one = left
  · subst one
    rw [Function.update_self]
    by_cases atRight : two = right
    · rw [atRight, Function.update_self]
      constructor <;> intro impossible <;> cases impossible
    · rw [Function.update_of_ne atRight, ← paired, linked, Option.some.injEq]
      constructor
      · intro impossible
        cases impossible
      · intro same
        exact absurd same.symm atRight
  · rw [Function.update_of_ne atLeft]
    by_cases atRight : two = right
    · rw [atRight, Function.update_self]
      constructor
      · intro found
        exact absurd (paired.injective found linked) atLeft
      · intro impossible
        cases impossible
    · rw [Function.update_of_ne atRight]
      exact paired one two

/-- A linked left side may be handed to a free right side. -/
theorem Paired.relink (paired : Paired forward backward) {left : α} {right right' : β}
    (linked : forward left = some right) (free : backward right' = none) :
    Paired (Function.update forward left (some right'))
      (Function.update (Function.update backward right none) right' (some left)) := by
  have different : right' ≠ right := by
    intro same
    rw [same, (paired left right).mp linked] at free
    cases free
  have unlinked := paired.unlink linked
  have freeLeft : Function.update forward left none left = none := Function.update_self ..
  have freeRight : Function.update backward right none right' = none := by
    rw [Function.update_of_ne different]
    exact free
  have relinked := unlinked.link freeLeft freeRight
  rw [Function.update_idem] at relinked
  exact relinked

end Pairing
