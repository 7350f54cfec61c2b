/-
A pool filled leaf by leaf, and the roots that it still knows.

The ring grows until it is full and is overwritten from its oldest slot on.
However many leaves have been inserted, it knows the root after each of the last
128 insertions and no other, and the current root is the newest of them.
-/

import Nido.ZkRecovery.Reference

namespace Nido.ZkRecovery

open Contract

def insertLeaves (host : Host) : RecoveryState → List (BytesN 32) → Contract RecoveryState
  | state, [] => pure state
  | state, stored :: rest => do
      let (_, state) ← insertLeaf host state stored
      insertLeaves host state rest

def rootAfter (host : Host) (leaves : List (BytesN 32)) (count : Nat) : BytesN 32 :=
  treeRoot host (leaves.take count)

theorem insertLeaves_holds {host : Host} {state : RecoveryState} {leaves : List (BytesN 32)}
    (more : List (BytesN 32)) (holds : PoolHolds host state leaves)
    (fits : leaves.length + more.length ≤ 2 ^ depth) :
    ∃ state', insertLeaves host state more = .ok state' ∧
      PoolHolds host state' (leaves ++ more) := by
  induction more generalizing state leaves with
  | nil =>
      rw [List.append_nil]
      exact ⟨state, rfl, holds⟩
  | cons stored rest ih =>
      rw [List.length_cons] at fits
      have room : leaves.length < 2 ^ depth := by omega
      obtain ⟨index, frontier, ring, head, next, inserted, _, appended⟩ :=
        insertLeaf_spec stored holds room
      have fewer : (leaves ++ [stored]).length + rest.length ≤ 2 ^ depth := by
        rw [List.length_append, List.length_singleton]
        omega
      obtain ⟨state', filled, holds'⟩ := ih appended fewer
      refine ⟨state', ?_, ?_⟩
      · unfold insertLeaves
        rw [inserted]
        exact filled
      · rw [List.append_cons]
        exact holds'

theorem filled_holds (host : Host) (config : RecoveryConfig) (leaves : List (BytesN 32))
    (fits : leaves.length ≤ 2 ^ depth) :
    ∃ state, insertLeaves host (construct config) leaves = .ok state ∧
      PoolHolds host state leaves := by
  apply insertLeaves_holds leaves (PoolHolds.construct host config)
  rw [List.length_nil, Nat.zero_add]
  exact fits

/-- The recent trees, counted backwards from the newest. -/
theorem recent_iff_back {leaves : List (BytesN 32)} (nonempty : 1 ≤ leaves.length) (count : Nat) :
    Recent leaves count ↔ ∃ back < min leaves.length 128, count = leaves.length - back := by
  constructor
  · intro recent
    have inserted : 1 ≤ count := by
      apply recent.inserted.resolve_left
      intro empty
      rw [empty] at nonempty
      exact absurd nonempty (by decide)
    have within := recent.within
    have window := recent.window
    exact ⟨leaves.length - count, by omega, by omega⟩
  · intro recent
    obtain ⟨back, low, same⟩ := recent
    exact ⟨by omega, by omega, Or.inr (by omega)⟩

theorem recent_nil (count : Nat) : Recent [] count ↔ count = 0 := by
  constructor
  · intro recent
    exact Nat.le_zero.mp recent.within
  · intro atStart
    rw [atStart]
    exact ⟨Nat.le_refl 0, by decide, Or.inl rfl⟩

/-- After any number of insertions the ring knows the roots after the last 128
of them, and an older root only if it is one of these again. -/
theorem ring_knows_recent_roots (host : Host) (config : RecoveryConfig)
    (leaves : List (BytesN 32)) (fits : leaves.length ≤ 2 ^ 24) :
    ∃ state, insertLeaves host (construct config) leaves = .ok state ∧
      (∀ count ≤ leaves.length, ∃ earlier,
        insertLeaves host (construct config) (leaves.take count) = .ok earlier ∧
        currentRoot host earlier = .ok (rootAfter host leaves count)) ∧
      (∀ root, ∃ known, isKnownRoot host state root = .ok known ∧
        (known = true ↔
          (1 ≤ leaves.length ∧ ∃ back < min leaves.length 128,
            root = rootAfter host leaves (leaves.length - back)) ∨
          (leaves.length = 0 ∧ root = treeRoot host []))) ∧
      (Set.InjOn (rootAfter host leaves) (Set.Iic leaves.length) →
        ∀ count, 1 ≤ count → count ≤ leaves.length →
          (isKnownRoot host state (rootAfter host leaves count) = .ok true ↔
            leaves.length - count < 128)) := by
  obtain ⟨state, filled, holds⟩ := filled_holds host config leaves fits
  refine ⟨state, filled, ?_, ?_, ?_⟩
  · intro count within
    have shorter : (leaves.take count).length ≤ 2 ^ depth := by
      rw [List.length_take]
      exact Nat.le_trans (Nat.min_le_right _ _) fits
    obtain ⟨earlier, filled', holds'⟩ := filled_holds host config (leaves.take count) shorter
    exact ⟨earlier, filled', currentRoot_spec holds'⟩
  · intro root
    obtain ⟨known, answered, exact_⟩ := isKnownRoot_spec holds root
    refine ⟨known, answered, exact_.trans ?_⟩
    rcases Nat.eq_zero_or_pos leaves.length with none_ | some_
    · have empty : leaves = [] := List.length_eq_zero_iff.mp none_
      subst empty
      have absent : ¬ 1 ≤ 0 := by decide
      simp only [recent_nil, exists_eq_left, List.take_nil, List.length_nil, absent, false_and,
        true_and, false_or]
    · have nonempty : leaves.length ≠ 0 := Nat.ne_of_gt some_
      simp only [recent_iff_back some_, nonempty, false_and, or_false]
      constructor
      · intro recent
        obtain ⟨count, ⟨back, low, same⟩, matching⟩ := recent
        rw [same] at matching
        exact ⟨some_, back, low, matching⟩
      · intro recent
        obtain ⟨_, back, low, matching⟩ := recent
        exact ⟨_, ⟨back, low, rfl⟩, matching⟩
  · intro distinct count inserted within
    obtain ⟨known, answered, exact_⟩ := isKnownRoot_spec holds (rootAfter host leaves count)
    have nonempty : 1 ≤ leaves.length := Nat.le_trans inserted within
    rw [answered, Except.ok.injEq, exact_]
    constructor
    · intro recent
      obtain ⟨other, recent, same⟩ := recent
      have sameCount : count = other := distinct within recent.within same
      have window := recent.window
      omega
    · intro young
      exact ⟨count, ⟨within, by omega, Or.inr inserted⟩, rfl⟩

/-! ### A ring that has wrapped -/

/-- A hash that is easy to follow: a node carries the largest leaf below it. -/
def Reference.largestHost : Host where
  poseidon2Hash := fun inputs => toFr (inputs.foldl (fun largest input => max largest input.val) 0)
  sha256 := Reference.host.sha256
  verifyProof := Reference.host.verifyProof

/-- Two leaves more than the ring has slots, each larger than those before. -/
def Reference.overflowing : List (BytesN 32) :=
  (List.range 130).map fun position => Fr.toBytes (toFr (position + 1))

theorem largest_commutes (left right : BytesN 32) :
    (hash2 Reference.largestHost left right).toFr.val = max left.toFr.val right.toFr.val := by
  have largest : hash2 Reference.largestHost left right =
      Fr.toBytes (toFr (max (max 0 left.toFr.val) right.toFr.val)) := rfl
  rw [largest, Fr.toBytes_toFr, Nat.zero_max, toFr_of_lt]
  exact max_lt left.toFr.isLt right.toFr.isLt

theorem node_max_le {leaf : Nat → Nat} {bound : Nat} (below : ∀ index, leaf index ≤ bound)
    (level position : Nat) : HashTree.node max leaf level position ≤ bound := by
  induction level generalizing position with
  | zero => exact below position
  | succ level ih => exact max_le (ih _) (ih _)

theorem le_node_max {leaf : Nat → Nat} {level position index : Nat}
    (low : position * 2 ^ level ≤ index) (high : index < (position + 1) * 2 ^ level) :
    leaf index ≤ HashTree.node max leaf level position := by
  induction level generalizing position with
  | zero =>
      have here : index = position := by omega
      subst here
      exact Nat.le_refl _
  | succ level ih =>
      rw [Nat.pow_succ] at low high
      rcases Nat.lt_or_ge index ((2 * position + 1) * 2 ^ level) with left | right
      · have leftHalf : 2 * position * 2 ^ level ≤ index := by linarith
        exact le_max_of_le_left (ih leftHalf left)
      · have rightHalf : index < (2 * position + 1 + 1) * 2 ^ level := by linarith
        exact le_max_of_le_right (ih right rightHalf)

theorem root_max_range {count levels : Nat} (fits : count ≤ 2 ^ levels) :
    HashTree.root max 0 levels ((List.range count).map (· + 1)) = count := by
  apply Nat.le_antisymm
  · apply node_max_le
    intro index
    rw [HashTree.padded, List.getD_eq_getElem?_getD, List.getElem?_map]
    rcases Nat.lt_or_ge index count with inside | beyond
    · rw [List.getElem?_range inside]
      exact inside
    · rw [List.getElem?_eq_none (by simpa using beyond)]
      exact Nat.zero_le _
  · cases count with
    | zero => exact Nat.zero_le _
    | succ last =>
        have newest : HashTree.padded 0 ((List.range (last + 1)).map (· + 1)) last = last + 1 := by
          simp [HashTree.padded]
        have first : 0 * 2 ^ levels ≤ last := by simp
        have inside : last < (0 + 1) * 2 ^ levels := by omega
        have atLast : HashTree.padded 0 ((List.range (last + 1)).map (· + 1)) last ≤
            HashTree.root max 0 levels ((List.range (last + 1)).map (· + 1)) :=
          le_node_max first inside
        rw [newest] at atLast
        exact atLast

theorem rootAfter_overflowing {count : Nat} (within : count ≤ 130) :
    (rootAfter Reference.largestHost Reference.overflowing count).toFr.val = count := by
  have canonical (position : Nat) (inside : position < 130) :
      (toFr (position + 1)).val = position + 1 :=
    toFr_of_lt (Nat.lt_of_le_of_lt inside (by decide))
  have numbers : (Reference.overflowing.take count).map (fun leaf => leaf.toFr.val) =
      (List.range count).map (· + 1) := by
    rw [Reference.overflowing, ← List.map_take, List.take_range, Nat.min_eq_left within,
      List.map_map]
    apply List.map_congr_left
    intro position inside
    have low := List.mem_range.mp inside
    rw [Function.comp_apply, Fr.toBytes_toFr]
    exact canonical position (Nat.lt_of_lt_of_le low within)
  have empty : (BytesN.zero 32).toFr.val = 0 := rfl
  have fits : count ≤ 2 ^ depth := by
    unfold depth
    omega
  calc (rootAfter Reference.largestHost Reference.overflowing count).toFr.val
      = HashTree.root max (BytesN.zero 32).toFr.val depth
          ((Reference.overflowing.take count).map fun leaf => leaf.toFr.val) :=
        HashTree.root_map _ max (fun word : BytesN 32 => word.toFr.val) largest_commutes _ _ _
    _ = HashTree.root max 0 depth ((List.range count).map (· + 1)) := by rw [numbers, empty]
    _ = count := root_max_range fits

theorem overflowing_injOn :
    Set.InjOn (rootAfter Reference.largestHost Reference.overflowing) (Set.Iic 130) := by
  intro count within count' within' same
  rw [← rootAfter_overflowing within, ← rootAfter_overflowing within', same]

theorem overflowing_length : Reference.overflowing.length = 130 := by
  simp [Reference.overflowing]

theorem ring_knows_recent_roots_wrapped :
    ∃ state,
      insertLeaves Reference.largestHost (construct Reference.config) Reference.overflowing =
        .ok state ∧
      isKnownRoot Reference.largestHost state
        (rootAfter Reference.largestHost Reference.overflowing 2) = .ok false ∧
      ∀ count, 3 ≤ count → count ≤ 130 →
        isKnownRoot Reference.largestHost state
          (rootAfter Reference.largestHost Reference.overflowing count) = .ok true := by
  have distinct : Set.InjOn (rootAfter Reference.largestHost Reference.overflowing)
      (Set.Iic Reference.overflowing.length) := by
    rw [overflowing_length]
    exact overflowing_injOn
  obtain ⟨state, filled, _, answers, recent⟩ :=
    ring_knows_recent_roots Reference.largestHost Reference.config Reference.overflowing
      (by rw [overflowing_length]; decide)
  refine ⟨state, filled, ?_, ?_⟩
  · obtain ⟨known, answered, _⟩ :=
      answers (rootAfter Reference.largestHost Reference.overflowing 2)
    have old := recent distinct 2 (by decide) (by rw [overflowing_length]; decide)
    rw [answered, overflowing_length] at old
    rw [answered]
    cases known with
    | false => rfl
    | true => exact absurd (old.mp rfl) (by decide)
  · intro count inside within
    rw [overflowing_length] at recent
    exact (recent (overflowing_length ▸ distinct) count (by omega) within).mpr (by omega)

end Nido.ZkRecovery
