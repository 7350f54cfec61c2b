/-
Lists compared item by item, and sorting when the comparison separates the items.

A sort is then strict, and its result depends on the items alone, not on the order in
which they were given.
-/

import Mathlib.Data.List.Basic
import Mathlib.Order.Basic

namespace Nido.Sorting

variable {α : Type}

section Lexicographic

variable [LT α] [Std.Irrefl (· < · : α → α → Prop)]

/-- Of two texts whose heads have one length, the heads decide first. -/
theorem append_lt_append_iff {left right leftTail rightTail : List α}
    (sameLength : left.length = right.length) :
    left ++ leftTail < right ++ rightTail ↔
      left < right ∨ left = right ∧ leftTail < rightTail := by
  induction left generalizing right with
  | nil =>
      have empty : right = [] := List.length_eq_zero_iff.mp sameLength.symm
      subst empty
      simp [List.lt_irrefl]
  | cons head rest ih =>
      cases right with
      | nil => cases sameLength
      | cons other others =>
          have sameRest : rest.length = others.length := Nat.succ.inj sameLength
          rw [List.cons_append, List.cons_append, List.cons_lt_cons_iff, ih sameRest,
            List.cons_lt_cons_iff, List.cons.injEq]
          tauto

theorem append_left_lt_iff (common : List α) {left right : List α} :
    common ++ left < common ++ right ↔ left < right := by
  rw [append_lt_append_iff rfl]
  constructor
  · intro decided
    exact (decided.resolve_left (List.lt_irrefl common)).2
  · intro less
    exact Or.inr ⟨rfl, less⟩

end Lexicographic

section MergeSort

variable {le : α → α → Bool} {items others : List α}
  (trans : ∀ a b c, le a b = true → le b c = true → le a c = true)
  (total : ∀ a b, (le a b || le b a) = true)

include trans total

theorem mergeSort_strict {less : α → α → Prop} (distinct : items.Nodup)
    (separated : ∀ a ∈ items, ∀ b ∈ items, a ≠ b → le a b = true → less a b) :
    (items.mergeSort le).Pairwise less := by
  have perm := List.mergeSort_perm items le
  have sorted := List.pairwise_mergeSort trans total items
  have nodup : (items.mergeSort le).Nodup := perm.nodup_iff.mpr distinct
  apply (sorted.and nodup).imp_of_mem
  intro a b aMember bMember both
  exact separated a (perm.mem_iff.mp aMember) b (perm.mem_iff.mp bMember) both.2 both.1

theorem mergeSort_eq_of_perm (perm : items.Perm others)
    (antisymm : ∀ a ∈ items, ∀ b ∈ items, le a b = true → le b a = true → a = b) :
    items.mergeSort le = others.mergeSort le := by
  have left := List.mergeSort_perm items le
  have right := List.mergeSort_perm others le
  apply List.Perm.eq_of_pairwise _ (List.pairwise_mergeSort trans total items)
    (List.pairwise_mergeSort trans total others) (left.trans (perm.trans right.symm))
  intro a b aMember bMember forward backward
  exact antisymm a (left.mem_iff.mp aMember) b
    (perm.mem_iff.mpr (right.mem_iff.mp bMember)) forward backward

end MergeSort

end Nido.Sorting
