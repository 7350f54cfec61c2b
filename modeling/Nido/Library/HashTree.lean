/-
Perfect binary hash trees over an arbitrary two-to-one hash.

The leaves are a function on all positions, so an append-only list padded with
an empty leaf and the tree above any of its prefixes are instances. A path is
the list of siblings met while climbing from a leaf to the root, each with the
side on which the climbing value stands. No property of the hash is assumed
before the binding theorem, and there only that it does not collide on the
pairs which were really hashed.
-/

import Mathlib.Data.Set.Function
import Mathlib.Data.List.GetD
import Mathlib.Tactic.Linarith

namespace HashTree

variable {α β : Type*} (hash : α → α → α)

/-- The node at a level and a position, the leaves standing at level zero. -/
def node (leaf : Nat → α) : (level position : Nat) → α
  | 0, position => leaf position
  | level + 1, position =>
      hash (node leaf level (2 * position)) (node leaf level (2 * position + 1))

/-- The node of a subtree without a single written leaf. -/
def emptyNode (empty : α) : (level : Nat) → α
  | 0 => empty
  | level + 1 => hash (emptyNode empty level) (emptyNode empty level)

theorem emptyNode_shift (empty : α) (level : Nat) :
    emptyNode hash (hash empty empty) level = emptyNode hash empty (level + 1) := by
  induction level with
  | zero => rfl
  | succ level ih =>
      rw [emptyNode, ih]
      rfl

/-- An append-only list of leaves, every position beyond its end being empty. -/
def padded (empty : α) (leaves : List α) (position : Nat) : α := leaves.getD position empty

def root (empty : α) (depth : Nat) (leaves : List α) : α :=
  node hash (padded empty leaves) depth 0

theorem node_congr {leaf leaf' : Nat → α} {level position : Nat}
    (same : ∀ index, position * 2 ^ level ≤ index → index < (position + 1) * 2 ^ level →
      leaf index = leaf' index) :
    node hash leaf level position = node hash leaf' level position := by
  induction level generalizing position with
  | zero => exact same position (by omega) (by omega)
  | succ level ih =>
      have left : node hash leaf level (2 * position) = node hash leaf' level (2 * position) := by
        apply ih
        intro index low high
        apply same index
        · rw [pow_succ]
          linarith
        · rw [pow_succ]
          linarith
      have right : node hash leaf level (2 * position + 1) =
          node hash leaf' level (2 * position + 1) := by
        apply ih
        intro index low high
        apply same index
        · rw [pow_succ]
          linarith [Nat.zero_le (2 ^ level)]
        · rw [pow_succ]
          linarith
      rw [node, node, left, right]

theorem node_const (empty : α) (level position : Nat) :
    node hash (fun _ => empty) level position = emptyNode hash empty level := by
  induction level generalizing position with
  | zero => rfl
  | succ level ih => rw [node, emptyNode, ih, ih]

theorem node_beyond (empty : α) (leaves : List α) (level position : Nat)
    (beyond : leaves.length ≤ position * 2 ^ level) :
    node hash (padded empty leaves) level position = emptyNode hash empty level := by
  rw [← node_const hash empty level position]
  apply node_congr
  intro index low _high
  exact List.getD_eq_default _ _ (Nat.le_trans beyond low)

theorem node_append (empty : α) (leaves more : List α) (level position : Nat)
    (full : (position + 1) * 2 ^ level ≤ leaves.length) :
    node hash (padded empty (leaves ++ more)) level position =
      node hash (padded empty leaves) level position := by
  apply node_congr
  intro index _low high
  exact List.getD_append _ _ _ _ (Nat.lt_of_lt_of_le high full)

theorem root_nil (empty : α) (depth : Nat) :
    root hash empty depth [] = emptyNode hash empty depth :=
  node_beyond hash empty [] depth 0 (Nat.zero_le _)

/-! ### Appending through a frontier -/

/-- Wherever the number of leaves has a bit set, a frontier saves the full left
sibling of the next path at that level. -/
structure Saves (empty : α) (depth : Nat) (leaves frontier : List α) : Prop where
  length : frontier.length = depth
  saved : ∀ level < depth, leaves.length / 2 ^ level % 2 = 1 →
    frontier[level]? =
      some (node hash (padded empty leaves) level (leaves.length / 2 ^ level - 1))

/-- An insertion that has reached a level: `current` is the node above the new
leaf. A slot where the index has a set bit is only read, one below `level` where
it has a clear bit already holds the new path. -/
structure Climbing (empty : α) (depth : Nat) (leaves : List α) (leaf : α) (level : Nat)
    (current : α) (frontier : List α) : Prop where
  current_eq : current =
    node hash (padded empty (leaves ++ [leaf])) level (leaves.length / 2 ^ level)
  length : frontier.length = depth
  kept : ∀ lower < depth, leaves.length / 2 ^ lower % 2 = 1 →
    frontier[lower]? =
      some (node hash (padded empty leaves) lower (leaves.length / 2 ^ lower - 1))
  written : ∀ lower < level, leaves.length / 2 ^ lower % 2 = 0 →
    frontier[lower]? =
      some (node hash (padded empty (leaves ++ [leaf])) lower (leaves.length / 2 ^ lower))

theorem shift_bit (number level : Nat) :
    (number >>> level) &&& 1 = number / 2 ^ level % 2 := by
  rw [Nat.and_one_is_mod, Nat.shiftRight_eq_div_pow]

private theorem halve (number level : Nat) :
    number / 2 ^ (level + 1) = number / 2 ^ level / 2 := by
  rw [pow_succ, Nat.div_div_eq_div_mul]

private theorem pred_succ_of_odd {number : Nat} (odd : number % 2 = 1) :
    number - 1 + 1 = number := by omega

section Frontier

variable {hash} {empty leaf current : α} {depth level : Nat} {leaves frontier : List α}

/-- A clear bit: the right half above the new leaf is still empty. -/
theorem node_up_left (empty leaf : α) (even : leaves.length / 2 ^ level % 2 = 0) :
    node hash (padded empty (leaves ++ [leaf])) (level + 1) (leaves.length / 2 ^ (level + 1)) =
      hash (node hash (padded empty (leaves ++ [leaf])) level (leaves.length / 2 ^ level))
        (emptyNode hash empty level) := by
  have position : 2 * (leaves.length / 2 ^ (level + 1)) = leaves.length / 2 ^ level := by
    rw [halve]
    omega
  have inside := Nat.lt_mul_div_succ leaves.length (Nat.two_pow_pos level)
  have right : node hash (padded empty (leaves ++ [leaf])) level
      (leaves.length / 2 ^ level + 1) = emptyNode hash empty level := by
    apply node_beyond
    rw [List.length_append, List.length_singleton, Nat.mul_comm]
    exact inside
  rw [node, position, right]

/-- A set bit: the left half above the new leaf is the one saved before. -/
theorem node_up_right (empty leaf : α) (odd : leaves.length / 2 ^ level % 2 = 1) :
    node hash (padded empty (leaves ++ [leaf])) (level + 1) (leaves.length / 2 ^ (level + 1)) =
      hash (node hash (padded empty leaves) level (leaves.length / 2 ^ level - 1))
        (node hash (padded empty (leaves ++ [leaf])) level (leaves.length / 2 ^ level)) := by
  have left : 2 * (leaves.length / 2 ^ (level + 1)) = leaves.length / 2 ^ level - 1 := by
    rw [halve]
    omega
  have right : leaves.length / 2 ^ level - 1 + 1 = leaves.length / 2 ^ level :=
    pred_succ_of_odd odd
  have full := Nat.div_mul_le_self leaves.length (2 ^ level)
  rw [node, left, right]
  congr 1
  exact node_append _ _ _ _ _ _ (by rw [right]; exact full)

theorem Saves.start (saves : Saves hash empty depth leaves frontier) (leaf : α) :
    Climbing hash empty depth leaves leaf 0 leaf frontier := by
  refine ⟨?_, saves.length, saves.saved, ?_⟩
  · rw [node, pow_zero, Nat.div_one, padded, List.getD_eq_getElem?_getD,
      List.getElem?_append_right (Nat.le_refl _), Nat.sub_self]
    rfl
  · intro lower below
    exact absurd below (Nat.not_lt_zero lower)

theorem Climbing.left (climbing : Climbing hash empty depth leaves leaf level current frontier)
    (inDepth : level < depth) (even : leaves.length / 2 ^ level % 2 = 0) :
    Climbing hash empty depth leaves leaf (level + 1) (hash current (emptyNode hash empty level))
      (frontier.set level current) := by
  refine ⟨?_, ?_, ?_, ?_⟩
  · rw [node_up_left empty leaf even, climbing.current_eq]
  · rw [List.length_set, climbing.length]
  · intro lower below odd
    have distinct : level ≠ lower := by
      intro same
      rw [same] at even
      omega
    rw [List.getElem?_set_ne distinct]
    exact climbing.kept lower below odd
  · intro lower below clear
    rcases Nat.lt_or_eq_of_le (Nat.le_of_lt_succ below) with deeper | here
    · rw [List.getElem?_set_ne (Nat.ne_of_gt deeper)]
      exact climbing.written lower deeper clear
    · rw [here, List.getElem?_set_self (by rw [climbing.length]; exact inDepth),
        climbing.current_eq]

theorem Climbing.right (climbing : Climbing hash empty depth leaves leaf level current frontier)
    (odd : leaves.length / 2 ^ level % 2 = 1) :
    Climbing hash empty depth leaves leaf (level + 1)
      (hash (node hash (padded empty leaves) level (leaves.length / 2 ^ level - 1)) current)
      frontier := by
  refine ⟨?_, climbing.length, climbing.kept, ?_⟩
  · rw [node_up_right empty leaf odd, climbing.current_eq]
  · intro lower below clear
    rcases Nat.lt_or_eq_of_le (Nat.le_of_lt_succ below) with deeper | here
    · exact climbing.written lower deeper clear
    · rw [here] at clear
      omega

theorem Climbing.saves (climbing : Climbing hash empty depth leaves leaf depth current frontier) :
    Saves hash empty depth (leaves ++ [leaf]) frontier := by
  refine ⟨climbing.length, ?_⟩
  intro level inDepth odd
  rw [List.length_append, List.length_singleton] at odd ⊢
  by_cases carried : 2 ^ level ∣ leaves.length + 1
  · -- the addition carries past this level, so its bit was clear before
    have quotient : (leaves.length + 1) / 2 ^ level = leaves.length / 2 ^ level + 1 :=
      Nat.succ_div_of_dvd carried
    rw [quotient] at odd ⊢
    exact climbing.written level inDepth (by omega)
  · have quotient : (leaves.length + 1) / 2 ^ level = leaves.length / 2 ^ level :=
      Nat.succ_div_of_not_dvd carried
    rw [quotient] at odd ⊢
    rw [climbing.kept level inDepth odd]
    have full := Nat.div_mul_le_self leaves.length (2 ^ level)
    congr 1
    symm
    apply node_append
    rw [pred_succ_of_odd odd]
    exact full

theorem Climbing.root_eq (climbing : Climbing hash empty depth leaves leaf depth current frontier)
    (room : leaves.length < 2 ^ depth) : current = root hash empty depth (leaves ++ [leaf]) := by
  rw [climbing.current_eq, Nat.div_eq_of_lt room, root]

end Frontier

/-! ### Whole layers -/

/-- The layer above a layer; a missing node counts as empty. -/
def parents (empty : α) (layer : List α) : List α :=
  (List.range ((layer.length + 1) / 2)).map
    (fun position => hash (layer.getD (2 * position) empty) (layer.getD (2 * position + 1) empty))

theorem parents_length (empty : α) (layer : List α) :
    (parents hash empty layer).length = (layer.length + 1) / 2 := by
  rw [parents, List.length_map, List.length_range]

theorem parents_getD (empty : α) (layer : List α) (position : Nat) :
    (parents hash empty layer).getD position (hash empty empty) =
      hash (layer.getD (2 * position) empty) (layer.getD (2 * position + 1) empty) := by
  by_cases inside : position < (layer.length + 1) / 2
  · have present : (parents hash empty layer)[position]? =
        some (hash (layer.getD (2 * position) empty) (layer.getD (2 * position + 1) empty)) := by
      rw [parents, List.getElem?_map, List.getElem?_range inside]
      rfl
    rw [List.getD_eq_getElem?_getD, present]
    rfl
  · have beyond : layer.length ≤ 2 * position := by omega
    rw [List.getD_eq_default _ _ (by rw [parents_length]; omega),
      List.getD_eq_default _ _ beyond, List.getD_eq_default _ _ (Nat.le_succ_of_le beyond)]

/-- The layer holds the nodes of its level, up to empty ones. -/
def IsLayer (empty : α) (leaves : List α) (level : Nat) (layer : List α) : Prop :=
  ∀ position, layer.getD position (emptyNode hash empty level) =
    node hash (padded empty leaves) level position

theorem isLayer_leaves (empty : α) (leaves : List α) : IsLayer hash empty leaves 0 leaves :=
  fun _ => rfl

theorem IsLayer.parents {hash : α → α → α} {empty : α} {leaves layer : List α} {level : Nat}
    (isLayer : IsLayer hash empty leaves level layer) :
    IsLayer hash empty leaves (level + 1)
      (HashTree.parents hash (emptyNode hash empty level) layer) := by
  intro position
  rw [emptyNode, parents_getD, isLayer, isLayer, node]

theorem node_map (hash' : β → β → β) (image : α → β)
    (commutes : ∀ left right, image (hash left right) = hash' (image left) (image right))
    (leaf : Nat → α) (level position : Nat) :
    image (node hash leaf level position) =
      node hash' (fun index => image (leaf index)) level position := by
  induction level generalizing position with
  | zero => rfl
  | succ level ih => rw [node, node, commutes, ih, ih]

theorem padded_map (image : α → β) (empty : α) (leaves : List α) :
    (fun index => image (padded empty leaves index)) =
      padded (image empty) (leaves.map image) := by
  funext index
  simp only [padded, List.getD_eq_getElem?_getD, List.getElem?_map]
  cases leaves[index]? <;> rfl

theorem root_map (hash' : β → β → β) (image : α → β)
    (commutes : ∀ left right, image (hash left right) = hash' (image left) (image right))
    (empty : α) (depth : Nat) (leaves : List α) :
    image (root hash empty depth leaves) =
      root hash' (image empty) depth (leaves.map image) := by
  rw [root, root, node_map hash hash' image commutes, padded_map]

def spine (empty leaf : α) : (level : Nat) → α
  | 0 => leaf
  | level + 1 => hash (spine empty leaf level) (emptyNode hash empty level)

theorem node_single (empty leaf : α) (level : Nat) :
    node hash (padded empty [leaf]) level 0 = spine hash empty leaf level := by
  induction level with
  | zero => rfl
  | succ level ih =>
      have right : node hash (padded empty [leaf]) level 1 = emptyNode hash empty level :=
        node_beyond hash empty [leaf] level 1
          (Nat.le_trans (Nat.one_le_two_pow) (Nat.le_of_eq (Nat.one_mul _).symm))
      rw [node, Nat.mul_zero, ih, right, spine]

/-- One step up: the climbing value stands right of its sibling or left of it. -/
def combine (current : α) (onRight : Bool) (sibling : α) : α :=
  if onRight then hash sibling current else hash current sibling

def climb (current : α) : List (Bool × α) → α
  | [] => current
  | (onRight, sibling) :: rest => climb (combine hash current onRight sibling) rest

/-- The position a path starts from, its lowest bit first. -/
def pathIndex : List (Bool × α) → Nat
  | [] => 0
  | (onRight, _) :: rest => onRight.toNat + 2 * pathIndex rest

/-- The way up from a node: at every level its sibling, and whether it stands
on the right of it. -/
def pathOf (leaf : Nat → α) : (count level position : Nat) → List (Bool × α)
  | 0, _, _ => []
  | count + 1, level, position =>
      (decide (position % 2 = 1),
        node hash leaf level (if position % 2 = 1 then position - 1 else position + 1)) ::
        pathOf leaf count (level + 1) (position / 2)

theorem climb_pathOf (leaf : Nat → α) (count level position : Nat) :
    climb hash (node hash leaf level position) (pathOf hash leaf count level position) =
      node hash leaf (level + count) (position / 2 ^ count) := by
  induction count generalizing level position with
  | zero =>
      rw [pathOf, climb, pow_zero, Nat.div_one]
      rfl
  | succ count ih =>
      have parent : combine hash (node hash leaf level position) (decide (position % 2 = 1))
          (node hash leaf level (if position % 2 = 1 then position - 1 else position + 1)) =
          node hash leaf (level + 1) (position / 2) := by
        rcases Nat.mod_two_eq_zero_or_one position with even | odd
        · have left : 2 * (position / 2) = position := by omega
          have notOdd : ¬ position % 2 = 1 := by omega
          rw [node, left, if_neg notOdd, combine, decide_eq_false notOdd]
          rfl
        · have left : 2 * (position / 2) = position - 1 := by omega
          have right : 2 * (position / 2) + 1 = position := by omega
          rw [node, right, left, if_pos odd, combine, decide_eq_true odd]
          rfl
      rw [pathOf, climb, parent, ih, Nat.div_div_eq_div_mul, ← pow_succ', Nat.add_right_comm,
        Nat.add_assoc]

theorem pathOf_length (leaf : Nat → α) (count level position : Nat) :
    (pathOf hash leaf count level position).length = count := by
  induction count generalizing level position with
  | zero => rfl
  | succ count ih => rw [pathOf, List.length_cons, ih]

theorem pathOf_map (hash' : β → β → β) (image : α → β)
    (commutes : ∀ left right, image (hash left right) = hash' (image left) (image right))
    (leaf : Nat → α) (count level position : Nat) :
    (pathOf hash leaf count level position).map (fun stage => (stage.1, image stage.2)) =
      pathOf hash' (fun index => image (leaf index)) count level position := by
  induction count generalizing level position with
  | zero => rfl
  | succ count ih =>
      rw [pathOf, pathOf, List.map_cons, ih, node_map hash hash' image commutes]

def withSides : (index : Nat) → List α → List (Bool × α)
  | _, [] => []
  | index, sibling :: rest => (decide (index % 2 = 1), sibling) :: withSides (index / 2) rest

theorem withSides_pathOf (leaf : Nat → α) (count level position : Nat) :
    withSides position ((pathOf hash leaf count level position).map Prod.snd) =
      pathOf hash leaf count level position := by
  induction count generalizing level position with
  | zero => rfl
  | succ count ih => rw [pathOf, List.map_cons, withSides, ih]

theorem withSides_length (index : Nat) (siblings : List α) :
    (withSides index siblings).length = siblings.length := by
  induction siblings generalizing index with
  | nil => rfl
  | cons sibling rest ih => rw [withSides, List.length_cons, List.length_cons, ih]

theorem withSides_map (image : α → β) (index : Nat) (siblings : List α) :
    (withSides index siblings).map (fun stage => (stage.1, image stage.2)) =
      withSides index (siblings.map image) := by
  induction siblings generalizing index with
  | nil => rfl
  | cons sibling rest ih => rw [withSides, List.map_cons, List.map_cons, withSides, ih]

theorem pathIndex_withSides (index : Nat) (siblings : List α) :
    pathIndex (withSides index siblings) = index % 2 ^ siblings.length := by
  induction siblings generalizing index with
  | nil => rw [withSides, pathIndex, List.length_nil, pow_zero, Nat.mod_one]
  | cons sibling rest ih =>
      have bit : (decide (index % 2 = 1)).toNat = index % 2 := by
        rcases Nat.mod_two_eq_zero_or_one index with even | odd
        · rw [even]
          rfl
        · rw [odd]
          rfl
      rw [withSides, pathIndex, ih, bit, List.length_cons, pow_succ', Nat.mod_mul]

theorem climb_map (hash' : β → β → β) (image : α → β)
    (commutes : ∀ left right, image (hash left right) = hash' (image left) (image right))
    (current : α) (path : List (Bool × α)) :
    image (climb hash current path) =
      climb hash' (image current) (path.map (fun stage => (stage.1, image stage.2))) := by
  induction path generalizing current with
  | nil => rfl
  | cons stage rest ih =>
      obtain ⟨onRight, sibling⟩ := stage
      rw [climb, ih, List.map_cons, climb]
      cases onRight with
      | false =>
          rw [combine, combine, if_neg Bool.false_ne_true, if_neg Bool.false_ne_true, commutes]
      | true => rw [combine, combine, if_pos rfl, if_pos rfl, commutes]

def climbPairs (current : α) : List (Bool × α) → List (α × α)
  | [] => []
  | (onRight, sibling) :: rest =>
      (if onRight then (sibling, current) else (current, sibling)) ::
        climbPairs (combine hash current onRight sibling) rest

theorem climbPairs_spine (empty leaf : α) (level count : Nat) :
    climbPairs hash (spine hash empty leaf level)
        ((List.range' level count).map (fun step => (false, emptyNode hash empty step))) =
      (List.range' level count).map
        (fun step => (spine hash empty leaf step, emptyNode hash empty step)) := by
  induction count generalizing level with
  | zero => rfl
  | succ count ih =>
      rw [List.range'_succ, List.map_cons, List.map_cons, climbPairs]
      exact congrArg _ (ih (level + 1))

theorem pathIndex_lt (path : List (Bool × α)) : pathIndex path < 2 ^ path.length := by
  induction path with
  | nil => exact Nat.one_pos
  | cons stage rest ih =>
      obtain ⟨onRight, sibling⟩ := stage
      have bit : onRight.toNat ≤ 1 := Bool.toNat_le onRight
      simp only [pathIndex, List.length_cons, pow_succ]
      omega

def PairsWithin (hashed : Set (α × α)) (leaf : Nat → α) (depth : Nat) : Prop :=
  ∀ level < depth, ∀ position < 2 ^ (depth - level - 1),
    (node hash leaf level (2 * position), node hash leaf level (2 * position + 1)) ∈ hashed

theorem pairsWithin_of_single {hashed : Set (α × α)} {empty leaf : α} {leaves : List α}
    {depth : Nat} (short : leaves = [] ∨ leaves = [leaf])
    (empties : ∀ level < depth,
      (emptyNode hash empty level, emptyNode hash empty level) ∈ hashed)
    (spines : ∀ level < depth, (spine hash empty leaf level, emptyNode hash empty level) ∈ hashed) :
    PairsWithin hash hashed (padded empty leaves) depth := by
  intro level inDepth position _inside
  have beyond (place : Nat) (later : leaves.length ≤ place) :
      node hash (padded empty leaves) level place = emptyNode hash empty level :=
    node_beyond hash empty leaves level place
      (Nat.le_trans later (Nat.le_mul_of_pos_right _ (Nat.two_pow_pos level)))
  have atMostOne : leaves.length ≤ 1 := by
    rcases short with rfl | rfl
    · exact Nat.zero_le 1
    · exact Nat.le_refl 1
  rw [beyond (2 * position + 1) (by omega)]
  by_cases first : 2 * position = 0
  · rcases short with rfl | rfl
    · rw [beyond (2 * position) (Nat.zero_le _)]
      exact empties level inDepth
    · rw [first, node_single]
      exact spines level inDepth
  · rw [beyond (2 * position) (by omega)]
    exact empties level inDepth

def layerPairs (empty : α) (layer : List α) : List (α × α) :=
  (List.range ((layer.length + 1) / 2)).map
    (fun position => (layer.getD (2 * position) empty, layer.getD (2 * position + 1) empty))

def treePairs : (levels : Nat) → (empty : α) → (layer : List α) → List (α × α)
  | 0, _, _ => []
  | levels + 1, empty, layer =>
      (empty, empty) :: layerPairs empty layer ++
        treePairs levels (hash empty empty) (parents hash empty layer)

theorem mem_treePairs {empty : α} {leaves layer : List α} {level : Nat}
    (isLayer : IsLayer hash empty leaves level layer) (levels above position : Nat)
    (inside : above < levels) :
    (node hash (padded empty leaves) (level + above) (2 * position),
      node hash (padded empty leaves) (level + above) (2 * position + 1)) ∈
        treePairs hash levels (emptyNode hash empty level) layer := by
  induction levels generalizing level layer above with
  | zero => exact absurd inside (Nat.not_lt_zero above)
  | succ levels ih =>
      rw [treePairs]
      cases above with
      | zero =>
          apply List.mem_append_left
          rw [Nat.add_zero, ← isLayer, ← isLayer]
          by_cases listed : position < (layer.length + 1) / 2
          · exact List.mem_cons_of_mem _
              (List.mem_map.mpr ⟨position, List.mem_range.mpr listed, rfl⟩)
          · have beyond : layer.length ≤ 2 * position := by omega
            rw [List.getD_eq_default _ _ beyond, List.getD_eq_default _ _ (Nat.le_succ_of_le beyond)]
            exact List.mem_cons_self ..
      | succ above =>
          apply List.mem_append_right
          have higher := ih isLayer.parents above (Nat.lt_of_succ_lt_succ inside)
          rw [Nat.add_right_comm, Nat.add_assoc] at higher
          exact higher

theorem pairsWithin_treePairs (empty : α) (leaves : List α) (depth : Nat) :
    PairsWithin hash (fun pair => pair ∈ treePairs hash depth empty leaves)
      (padded empty leaves) depth := by
  intro level inDepth position _inside
  have listed := mem_treePairs hash (isLayer_leaves hash empty leaves) depth level position inDepth
  rw [Nat.zero_add] at listed
  exact listed

theorem climbPairs_pathOf {hashed : Set (α × α)} {leaf : Nat → α} {depth : Nat}
    (within : PairsWithin hash hashed leaf depth) {count level position : Nat}
    (reaches : level + count = depth) (inside : position < 2 ^ count) :
    ∀ pair ∈ climbPairs hash (node hash leaf level position)
      (pathOf hash leaf count level position), pair ∈ hashed := by
  induction count generalizing level position with
  | zero =>
      intro pair listed
      cases listed
  | succ count ih =>
      have higher : position / 2 < 2 ^ count := by
        rw [Nat.pow_succ] at inside
        omega
      have here := within level (by omega) (position / 2)
        (Nat.lt_of_lt_of_eq higher (by congr 1; omega))
      have later := @ih (level + 1) (position / 2) (by omega) higher
      intro pair listed
      rw [pathOf, climbPairs, List.mem_cons] at listed
      rcases Nat.mod_two_eq_zero_or_one position with even | odd
      · have left : 2 * (position / 2) = position := by omega
        have notOdd : ¬ position % 2 = 1 := by omega
        rw [node, left] at later
        rw [left] at here
        rw [combine, if_neg notOdd, decide_eq_false notOdd] at listed
        rcases listed with rfl | above
        · exact here
        · exact later pair above
      · have left : 2 * (position / 2) = position - 1 := by omega
        have right : 2 * (position / 2) + 1 = position := by omega
        rw [node, right, left] at later
        rw [right, left] at here
        rw [combine, if_pos odd, decide_eq_true odd] at listed
        rcases listed with rfl | above
        · exact here
        · exact later pair above

/-- A path that folds to the root starts from the node its bits spell, unless
two of the pairs hashed on the way collide. The induction goes up the path. -/
theorem climb_binding {hashed : Set (α × α)}
    (collisionFree : Set.InjOn (fun pair : α × α => hash pair.1 pair.2) hashed)
    {leaf : Nat → α} {depth : Nat} (treePairs : PairsWithin hash hashed leaf depth)
    (path : List (Bool × α)) (current : α) (level : Nat) (reaches : level + path.length = depth)
    (pathPairs : ∀ pair ∈ climbPairs hash current path, pair ∈ hashed)
    (folds : climb hash current path = node hash leaf depth 0) :
    current = node hash leaf level (pathIndex path) := by
  induction path generalizing current level with
  | nil =>
      have atTop : level = depth := by simpa using reaches
      rw [atTop]
      exact folds
  | cons stage rest ih =>
      obtain ⟨onRight, sibling⟩ := stage
      have above : level + 1 + rest.length = depth := by
        simp only [List.length_cons] at reaches
        omega
      have parent : combine hash current onRight sibling =
          node hash leaf (level + 1) (pathIndex rest) :=
        ih (combine hash current onRight sibling) (level + 1) above
          (fun pair member => pathPairs pair (List.mem_cons_of_mem _ member)) folds
      have inTree := treePairs level (by omega) (pathIndex rest)
        (Nat.lt_of_lt_of_eq (pathIndex_lt rest) (by congr 1; omega))
      have onPath := pathPairs _ (List.mem_cons_self ..)
      cases onRight with
      | false =>
          have same := collisionFree onPath inTree parent
          simpa [pathIndex] using congrArg Prod.fst same
      | true =>
          have same := collisionFree onPath inTree parent
          simpa [pathIndex, Nat.add_comm] using congrArg Prod.snd same

end HashTree
