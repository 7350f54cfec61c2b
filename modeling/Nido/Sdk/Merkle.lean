/-
The client's incremental tree.

It keeps all leaves and rebuilds every layer on demand, treating a position
beyond the end of a layer as an empty subtree. Its root is the root of the plain
padded tree, and the path it hands out climbs to that root.
-/

import Nido.Sdk.AuthHash
import Nido.Circuits.ZkRecovery

namespace Nido.Sdk

open HashTree

def depth : Nat := 24

/-- `p2([left, right])`, a bigint again. -/
def p2Pair (poseidon2Hash : List Fr → Fr) (left right : Int) : Int :=
  ((poseidon2Hash [reduce left, reduce right]).val : Int)

/-- Two inputs are a supported arity, so hashing a pair never throws. -/
theorem p2_pair (poseidon2Hash : List Fr → Fr) (left right : Int) :
    (p2 poseidon2Hash [left, right]).map (fun hashed => (hashed.val : Int)) =
      .ok (p2Pair poseidon2Hash left right) := by
  rw [p2, if_neg]
  · rfl
  · change ¬ 2 ∉ supportedArities
    decide

def zerosFrom (poseidon2Hash : List Fr → Fr) : (levels : Nat) → Int → List Int
  | 0, zero => [zero]
  | levels + 1, zero =>
      zero :: zerosFrom poseidon2Hash levels (p2Pair poseidon2Hash zero zero)

def zeros (poseidon2Hash : List Fr → Fr) : List Int := zerosFrom poseidon2Hash depth 0

def climbFrom (poseidon2Hash : List Fr → Fr) (index : Nat) :
    (level : Nat) → Int → List Int → Int
  | _, cur, [] => cur
  | level, cur, sib :: rest =>
      let bit := (index >>> level) &&& 1
      climbFrom poseidon2Hash index (level + 1)
        (if bit = 0 then p2Pair poseidon2Hash cur sib else p2Pair poseidon2Hash sib cur) rest

def computeRoot (poseidon2Hash : List Fr → Fr) (leaf : Int) (index : Nat) (siblings : List Int) :
    Js Int :=
  if siblings.length ≠ depth then
    .error ("computeRoot: expected " ++ toString depth ++ " siblings, got " ++
      toString siblings.length)
  else
    .ok (climbFrom poseidon2Hash index 0 leaf siblings)

structure IncrementalTree where
  leaves : List Int

namespace IncrementalTree

def empty : IncrementalTree := ⟨[]⟩

def insert (tree : IncrementalTree) (leaf : Int) : Nat × IncrementalTree :=
  (tree.leaves.length, ⟨tree.leaves ++ [leaf]⟩)

def layersFrom (poseidon2Hash : List Fr → Fr) :
    (remaining level : Nat) → List Int → List (List Int)
  | 0, _, layer => [layer]
  | remaining + 1, level, layer =>
      layer :: layersFrom poseidon2Hash remaining (level + 1)
        (parents (p2Pair poseidon2Hash) ((zeros poseidon2Hash).getD level 0) layer)

def buildLayers (poseidon2Hash : List Fr → Fr) (tree : IncrementalTree) : List (List Int) :=
  layersFrom poseidon2Hash depth 0 tree.leaves

/-- The topmost layer of a tree with a leaf is never empty. -/
def root (poseidon2Hash : List Fr → Fr) (tree : IncrementalTree) : Int :=
  if tree.leaves.length = 0 then (zeros poseidon2Hash).getD depth 0
  else ((tree.buildLayers poseidon2Hash).getD depth []).getD 0 0

def pathLevels (poseidon2Hash : List Fr → Fr) (layers : List (List Int)) :
    (remaining level idx : Nat) → List (Int × Nat)
  | 0, _, _ => []
  | remaining + 1, level, idx =>
      let bit := idx &&& 1
      let siblingIndex := if bit = 0 then idx + 1 else idx - 1
      ((layers.getD level []).getD siblingIndex ((zeros poseidon2Hash).getD level 0), bit) ::
        pathLevels poseidon2Hash layers remaining (level + 1) (idx >>> 1)

def pathFor (poseidon2Hash : List Fr → Fr) (tree : IncrementalTree) (index : Nat) :
    Js (List Int × List Nat) :=
  if tree.leaves.length ≤ index then
    .error ("pathFor: index " ++ toString index ++ " out of range (0.." ++
      toString tree.leaves.length ++ ")")
  else
    let path := pathLevels poseidon2Hash (tree.buildLayers poseidon2Hash) depth 0 index
    .ok (path.map Prod.fst, path.map Prod.snd)

/-- A tree built by inserting a list of leaves. -/
def ofLeaves (leaves : List Int) : IncrementalTree :=
  leaves.foldl (fun tree leaf => (tree.insert leaf).2) empty

theorem ofLeaves_leaves (leaves : List Int) : (ofLeaves leaves).leaves = leaves := by
  have inserted (tree : IncrementalTree) :
      (leaves.foldl (fun tree leaf => (tree.insert leaf).2) tree).leaves =
        tree.leaves ++ leaves := by
    induction leaves generalizing tree with
    | nil => exact (List.append_nil _).symm
    | cons leaf rest ih =>
        rw [List.foldl_cons, ih, insert, List.append_assoc]
        rfl
  exact inserted empty

end IncrementalTree

theorem zerosFrom_getD (poseidon2Hash : List Fr → Fr) (levels level : Nat) (zero : Int)
    (inside : level ≤ levels) :
    (zerosFrom poseidon2Hash levels zero).getD level 0 =
      emptyNode (p2Pair poseidon2Hash) zero level := by
  induction levels generalizing level zero with
  | zero =>
      have atEnd : level = 0 := Nat.le_zero.mp inside
      rw [atEnd]
      rfl
  | succ levels ih =>
      cases level with
      | zero => rfl
      | succ level =>
          rw [zerosFrom, List.getD_cons_succ, ih level _ (Nat.le_of_succ_le_succ inside),
            emptyNode_shift]

theorem zeros_getD (poseidon2Hash : List Fr → Fr) (level : Nat) (inside : level ≤ depth) :
    (zeros poseidon2Hash).getD level 0 = emptyNode (p2Pair poseidon2Hash) 0 level :=
  zerosFrom_getD poseidon2Hash depth level 0 inside

namespace IncrementalTree

section Layers

variable (poseidon2Hash : List Fr → Fr) {leaves : List Int}

theorem layersFrom_isLayer (remaining level : Nat) (layer : List Int)
    (reaches : level + remaining = depth)
    (isLayer : IsLayer (p2Pair poseidon2Hash) 0 leaves level layer) (above : Nat)
    (inside : above ≤ remaining) :
    IsLayer (p2Pair poseidon2Hash) 0 leaves (level + above)
      ((layersFrom poseidon2Hash remaining level layer).getD above []) := by
  induction remaining generalizing level layer above with
  | zero =>
      have here : above = 0 := Nat.le_zero.mp inside
      rw [here]
      exact isLayer
  | succ remaining ih =>
      cases above with
      | zero => exact isLayer
      | succ above =>
          have next := isLayer.parents
          rw [← zeros_getD poseidon2Hash level (by omega)] at next
          have higher := ih (level + 1) _ (by omega) next above (Nat.le_of_succ_le_succ inside)
          rw [Nat.add_right_comm, Nat.add_assoc] at higher
          exact higher

theorem layersFrom_nonempty (remaining level : Nat) (layer : List Int)
    (nonempty : 0 < layer.length) (above : Nat) (inside : above ≤ remaining) :
    0 < ((layersFrom poseidon2Hash remaining level layer).getD above []).length := by
  induction remaining generalizing level layer above with
  | zero =>
      have here : above = 0 := Nat.le_zero.mp inside
      rw [here]
      exact nonempty
  | succ remaining ih =>
      cases above with
      | zero => exact nonempty
      | succ above =>
          apply ih (level + 1) _ _ above (Nat.le_of_succ_le_succ inside)
          rw [parents_length]
          omega

theorem buildLayers_isLayer (tree : IncrementalTree) (level : Nat) (inside : level ≤ depth) :
    IsLayer (p2Pair poseidon2Hash) 0 tree.leaves level
      ((tree.buildLayers poseidon2Hash).getD level []) := by
  have layer := layersFrom_isLayer poseidon2Hash depth 0 tree.leaves (Nat.zero_add _)
    (isLayer_leaves (p2Pair poseidon2Hash) 0 tree.leaves) level inside
  rw [Nat.zero_add] at layer
  exact layer

theorem root_eq (tree : IncrementalTree) :
    tree.root poseidon2Hash = HashTree.root (p2Pair poseidon2Hash) 0 depth tree.leaves := by
  unfold root
  split
  · rename_i none_
    rw [List.length_eq_zero_iff.mp none_, zeros_getD poseidon2Hash depth (Nat.le_refl _), root_nil]
  · rename_i some_
    have nonempty : 0 < ((tree.buildLayers poseidon2Hash).getD depth []).length :=
      layersFrom_nonempty poseidon2Hash depth 0 tree.leaves (Nat.pos_of_ne_zero some_) depth
        (Nat.le_refl _)
    have top := buildLayers_isLayer poseidon2Hash tree depth (Nat.le_refl _) 0
    rw [HashTree.root, ← top, List.getD_eq_getElem _ _ nonempty, List.getD_eq_getElem _ _ nonempty]

theorem pathLevels_eq (tree : IncrementalTree) (remaining level idx : Nat)
    (reaches : level + remaining = depth) :
    (pathLevels poseidon2Hash (tree.buildLayers poseidon2Hash) remaining level idx).map
        (fun stage => (decide (stage.2 = 1), stage.1)) =
      pathOf (p2Pair poseidon2Hash) (padded 0 tree.leaves) remaining level idx := by
  induction remaining generalizing level idx with
  | zero => rfl
  | succ remaining ih =>
      have layer := buildLayers_isLayer poseidon2Hash tree level (by omega)
      have half : idx >>> 1 = idx / 2 := Nat.shiftRight_one idx
      have sibling : (if idx % 2 = 0 then idx + 1 else idx - 1) =
          if idx % 2 = 1 then idx - 1 else idx + 1 := by
        rcases Nat.mod_two_eq_zero_or_one idx with even | odd
        · rw [if_pos even, if_neg (by omega)]
        · rw [if_neg (by omega), if_pos odd]
      rw [pathLevels, pathOf, List.map_cons, ih (level + 1) (idx >>> 1) (by omega), half]
      dsimp only
      rw [Nat.and_one_is_mod, sibling, zeros_getD poseidon2Hash level (by omega), layer]

end Layers

end IncrementalTree

/-! ### On canonical elements -/

theorem p2Pair_bigint (poseidon2Hash : List Fr → Fr) (left right : Fr) :
    bigint (Circuit.hash2 poseidon2Hash left right) =
      p2Pair poseidon2Hash (bigint left) (bigint right) := by
  rw [p2Pair, reduce_bigint, reduce_bigint]
  rfl

namespace IncrementalTree

variable (poseidon2Hash : List Fr → Fr)

theorem root_bigint (values : List Fr) :
    root poseidon2Hash ⟨values.map bigint⟩ =
      bigint (HashTree.root (Circuit.hash2 poseidon2Hash) 0 depth values) := by
  rw [root_eq, root_map _ _ bigint (p2Pair_bigint poseidon2Hash)]
  rfl

theorem pathLevels_bit (layers : List (List Int)) (remaining level idx : Nat) :
    ∀ stage ∈ pathLevels poseidon2Hash layers remaining level idx,
      (stage.1, (decide (stage.2 = 1)).toNat) = stage := by
  induction remaining generalizing level idx with
  | zero =>
      intro stage listed
      cases listed
  | succ remaining ih =>
      rw [pathLevels, List.forall_mem_cons]
      refine ⟨?_, ih (level + 1) (idx >>> 1)⟩
      dsimp only
      rw [Nat.and_one_is_mod]
      rcases Nat.mod_two_eq_zero_or_one idx with even | odd
      · rw [even]
        rfl
      · rw [odd]
        rfl

/-- Over canonical leaves the path is the way up in the circuit's tree. -/
theorem pathLevels_bigint (values : List Fr) (index : Nat) :
    pathLevels poseidon2Hash (buildLayers poseidon2Hash ⟨values.map bigint⟩) depth 0 index =
      (pathOf (Circuit.hash2 poseidon2Hash) (padded 0 values) depth 0 index).map
        (fun stage => (bigint stage.2, stage.1.toNat)) := by
  have stages := pathLevels_eq poseidon2Hash ⟨values.map bigint⟩ depth 0 index (Nat.zero_add _)
  have zero : bigint 0 = 0 := rfl
  have leaves : (fun index => bigint (padded 0 values index)) = padded 0 (values.map bigint) := by
    rw [padded_map, zero]
  dsimp only at stages
  rw [← leaves, ← pathOf_map (Circuit.hash2 poseidon2Hash) _ bigint
    (p2Pair_bigint poseidon2Hash)] at stages
  have back := congrArg (List.map (fun stage : Bool × Int => (stage.2, stage.1.toNat))) stages
  rw [List.map_map, List.map_map] at back
  rw [← List.map_id (pathLevels _ _ _ _ _)]
  refine Eq.trans (List.map_congr_left ?_) back
  intro stage listed
  exact (pathLevels_bit poseidon2Hash _ _ _ _ stage listed).symm

theorem pathFor_bigint (values : List Fr) {index : Nat} (inside : index < values.length) :
    pathFor poseidon2Hash ⟨values.map bigint⟩ index =
      .ok ((pathOf (Circuit.hash2 poseidon2Hash) (padded 0 values) depth 0 index).map
          (fun stage => bigint stage.2),
        (pathOf (Circuit.hash2 poseidon2Hash) (padded 0 values) depth 0 index).map
          (fun stage => stage.1.toNat)) := by
  rw [pathFor, if_neg (by rw [List.length_map]; omega), pathLevels_bigint]
  dsimp only
  rw [List.map_map, List.map_map]
  rfl

end IncrementalTree

end Nido.Sdk
