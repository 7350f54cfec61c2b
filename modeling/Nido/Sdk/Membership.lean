/-
Witnesses of membership.

The client's tree hands out a path for every leaf; its own fold and the circuit
climb that path to the same root. Read backwards, a path that reaches the root
starts from the leaf at the place that its bits spell. The leaves themselves
come from an untrusted source, merged whole or not at all.
-/

import Nido.Sdk.PoolSync
import Nido.ZkRecovery.Binding

namespace Nido.Sdk

open HashTree

/-! ### The client's fold -/

section Fold

variable (poseidon2Hash : List Fr → Fr)

theorem reduce_p2Pair (left right : Int) :
    reduce (p2Pair poseidon2Hash left right) =
      Circuit.hash2 poseidon2Hash (reduce left) (reduce right) :=
  reduce_bigint _

theorem climbFrom_eq (index level : Nat) (cur : Int) (siblings : List Int) :
    climbFrom poseidon2Hash index level cur siblings =
      climb (p2Pair poseidon2Hash) cur (withSides (index >>> level) siblings) := by
  induction siblings generalizing level cur with
  | nil => rfl
  | cons sib rest ih =>
      have next : index >>> (level + 1) = index >>> level / 2 := Nat.shiftRight_succ index level
      rw [climbFrom, withSides, climb, ih, next, Nat.and_one_is_mod, combine]
      congr 1
      rcases Nat.mod_two_eq_zero_or_one (index >>> level) with even | odd
      · rw [even]
        rfl
      · rw [odd]
        rfl

theorem computeRoot_eq_ok {leaf : Int} {index : Nat} {siblings : List Int} {root : Int} :
    computeRoot poseidon2Hash leaf index siblings = .ok root ↔
      siblings.length = depth ∧
        climb (p2Pair poseidon2Hash) leaf (withSides index siblings) = root := by
  unfold computeRoot
  split
  · rename_i short
    constructor
    · intro impossible
      cases impossible
    · intro both
      exact absurd both.1 short
  · rename_i full
    rw [climbFrom_eq, Nat.shiftRight_zero, Except.ok.injEq]
    exact (and_iff_right (not_ne_iff.mp full)).symm

end Fold

/-! ### Paths that reach the root -/

namespace IncrementalTree

section Witness

variable (poseidon2Hash : List Fr → Fr)

theorem pathFor_eq_ok {tree : IncrementalTree} {index : Nat} {path : List Int × List Nat} :
    tree.pathFor poseidon2Hash index = .ok path ↔
      index < tree.leaves.length ∧
      path = ((pathOf (p2Pair poseidon2Hash) (padded 0 tree.leaves) depth 0 index).map Prod.snd,
        (pathOf (p2Pair poseidon2Hash) (padded 0 tree.leaves) depth 0 index).map
          (fun stage => stage.1.toNat)) := by
  have stages := pathLevels_eq poseidon2Hash tree depth 0 index (Nat.zero_add _)
  have siblings : (pathLevels poseidon2Hash (tree.buildLayers poseidon2Hash) depth 0 index).map
      Prod.fst =
      (pathOf (p2Pair poseidon2Hash) (padded 0 tree.leaves) depth 0 index).map Prod.snd := by
    rw [← stages, List.map_map]
    rfl
  have bits : (pathLevels poseidon2Hash (tree.buildLayers poseidon2Hash) depth 0 index).map
      Prod.snd =
      (pathOf (p2Pair poseidon2Hash) (padded 0 tree.leaves) depth 0 index).map
        (fun stage => stage.1.toNat) := by
    rw [← stages, List.map_map]
    apply List.map_congr_left
    intro stage listed
    exact (congrArg Prod.snd (pathLevels_bit poseidon2Hash _ _ _ _ stage listed)).symm
  unfold pathFor
  split
  · rename_i beyond
    constructor
    · intro impossible
      cases impossible
    · intro both
      exact absurd both.1 (Nat.not_lt.mpr beyond)
  · rename_i inside
    rw [Except.ok.injEq, siblings, bits]
    constructor
    · intro same
      exact ⟨Nat.not_le.mp inside, same.symm⟩
    · intro both
      exact both.2.symm

/-- The fold of the path of a place: the root of the subtree of full depth that
holds the place, and that is the root of the tree below its capacity. -/
theorem computeRoot_pathOf (leaves : List Int) (index : Nat) :
    computeRoot poseidon2Hash (padded 0 leaves index) index
        ((pathOf (p2Pair poseidon2Hash) (padded 0 leaves) depth 0 index).map Prod.snd) =
      .ok (node (p2Pair poseidon2Hash) (padded 0 leaves) depth (index / 2 ^ depth)) := by
  rw [computeRoot_eq_ok, List.length_map, pathOf_length, withSides_pathOf]
  have climbed := climb_pathOf (p2Pair poseidon2Hash) (padded 0 leaves) depth 0 index
  rw [Nat.zero_add] at climbed
  exact ⟨rfl, climbed⟩

theorem reduce_root (leaves : List Int) :
    reduce (root poseidon2Hash ⟨leaves⟩) =
      HashTree.root (Circuit.hash2 poseidon2Hash) 0 depth (leaves.map reduce) := by
  rw [root_eq, root_map _ _ reduce (reduce_p2Pair poseidon2Hash)]
  rfl

end Witness

end IncrementalTree

def spelled : List Fr → Nat
  | [] => 0
  | bit :: rest => (if bit = 0 then 0 else 1) + 2 * spelled rest

theorem spelled_path (path : List (Bool × Int)) :
    spelled ((path.map (fun stage => stage.1.toNat)).map toFr) = pathIndex path := by
  induction path with
  | nil => rfl
  | cons stage rest ih =>
      obtain ⟨onRight, sibling⟩ := stage
      rw [List.map_cons, List.map_cons, spelled, ih, pathIndex]
      cases onRight with
      | false => rfl
      | true => rfl

def circuitPath (siblings bits : List Fr) : List (Bool × Fr) :=
  (siblings.zip bits).map (fun level => (decide (level.2 ≠ 0), level.1))

theorem pathIndex_circuitPath {siblings bits : List Fr} (lengths : siblings.length = bits.length) :
    pathIndex (circuitPath siblings bits) = spelled bits := by
  induction siblings generalizing bits with
  | nil =>
      obtain rfl : bits = [] := List.length_eq_zero_iff.mp lengths.symm
      rfl
  | cons sibling rest ih =>
      cases bits with
      | nil => cases lengths
      | cons bit bits =>
          have deeper := ih (Nat.succ.inj lengths)
          unfold circuitPath at deeper ⊢
          rw [List.zip_cons_cons, List.map_cons, pathIndex, deeper, spelled]
          by_cases left : bit = 0
          · simp [left]
          · simp [left]

theorem circuitPath_length {siblings bits : List Fr} (lengths : siblings.length = bits.length) :
    (circuitPath siblings bits).length = siblings.length := by
  unfold circuitPath
  rw [List.length_map, List.length_zip, lengths, Nat.min_self]

theorem circuit_computeRoot_pathOf (poseidon2Hash : List Fr → Fr) (leaves : List Int)
    (index : Nat) :
    Circuit.computeRoot poseidon2Hash (reduce (padded 0 leaves index))
        ((((pathOf (p2Pair poseidon2Hash) (padded 0 leaves) depth 0 index).map Prod.snd).map
            reduce).zip
          (((pathOf (p2Pair poseidon2Hash) (padded 0 leaves) depth 0 index).map
            (fun stage => stage.1.toNat)).map toFr)) =
      some (reduce
        (node (p2Pair poseidon2Hash) (padded 0 leaves) depth (index / 2 ^ depth))) := by
  have climbed := climb_pathOf (p2Pair poseidon2Hash) (padded 0 leaves) depth 0 index
  rw [Nat.zero_add] at climbed
  rw [← climbed, climb_map _ _ reduce (reduce_p2Pair poseidon2Hash),
    ← Circuit.computeRoot_path, List.map_map, List.map_map, List.map_map, List.zip_map']
  congr 1
  apply List.map_congr_left
  intro stage _listed
  obtain ⟨onRight, sibling⟩ := stage
  cases onRight with
  | false => rfl
  | true => rfl

section Soundness

variable {poseidon2Hash : List Fr → Fr} {leaves : List Int} {hashed : Set (Fr × Fr)}

theorem circuit_binds
    (injective : Set.InjOn
      (fun pair : Fr × Fr => Circuit.hash2 poseidon2Hash pair.1 pair.2) hashed)
    (treePairs : PairsWithin (Circuit.hash2 poseidon2Hash) hashed
      (padded 0 (leaves.map reduce)) depth)
    {value : Fr} {siblings bits : List Fr} (full : siblings.length = depth)
    (lengths : siblings.length = bits.length)
    (pathPairs : ∀ pair ∈ climbPairs (Circuit.hash2 poseidon2Hash) value
      (circuitPath siblings bits), pair ∈ hashed)
    (folds : Circuit.computeRoot poseidon2Hash value (siblings.zip bits) =
      some (reduce (IncrementalTree.root poseidon2Hash ⟨leaves⟩))) :
    value = padded 0 (leaves.map reduce) (spelled bits) := by
  have climbs := Circuit.computeRoot_eq_some folds
  rw [IncrementalTree.reduce_root] at climbs
  have bound := climb_binding (Circuit.hash2 poseidon2Hash) injective treePairs
    (circuitPath siblings bits) value 0
    (by rw [Nat.zero_add, circuitPath_length lengths, full]) pathPairs climbs
  rw [pathIndex_circuitPath lengths] at bound
  exact bound

theorem computeRoot_binds
    (injective : Set.InjOn
      (fun pair : Fr × Fr => Circuit.hash2 poseidon2Hash pair.1 pair.2) hashed)
    (treePairs : PairsWithin (Circuit.hash2 poseidon2Hash) hashed
      (padded 0 (leaves.map reduce)) depth)
    {value : Int} {index : Nat} {siblings : List Int}
    (pathPairs : ∀ pair ∈ climbPairs (Circuit.hash2 poseidon2Hash) (reduce value)
      (withSides index (siblings.map reduce)), pair ∈ hashed)
    (folds : computeRoot poseidon2Hash value index siblings =
      .ok (IncrementalTree.root poseidon2Hash ⟨leaves⟩)) :
    reduce value = padded 0 (leaves.map reduce) (index % 2 ^ depth) := by
  obtain ⟨full, climbs⟩ := (computeRoot_eq_ok poseidon2Hash).mp folds
  have reduced := congrArg reduce climbs
  rw [climb_map _ _ reduce (reduce_p2Pair poseidon2Hash), withSides_map,
    IncrementalTree.reduce_root] at reduced
  have bound := climb_binding (Circuit.hash2 poseidon2Hash) injective treePairs
    (withSides index (siblings.map reduce)) (reduce value) 0
    (by rw [Nat.zero_add, withSides_length, List.length_map, full]) pathPairs reduced
  rw [pathIndex_withSides, List.length_map, full] at bound
  exact bound

end Soundness

/-- The field is finite, so no hash of pairs is injective outright; what the
second half uses is that it is so on the pairs that the tree and the path hash. -/
theorem membership_witness (poseidon2Hash : List Fr → Fr) (leaves : List Int) :
    (leaves.length ≤ 2 ^ 24 → ∀ index leaf, leaves[index]? = some leaf →
      ∃ siblings bits,
        (IncrementalTree.ofLeaves leaves).pathFor poseidon2Hash index = .ok (siblings, bits) ∧
        spelled (bits.map toFr) = index ∧
        computeRoot poseidon2Hash leaf index siblings =
          .ok ((IncrementalTree.ofLeaves leaves).root poseidon2Hash) ∧
        Circuit.computeRoot poseidon2Hash (reduce leaf)
            ((siblings.map reduce).zip (bits.map toFr)) =
          some (reduce ((IncrementalTree.ofLeaves leaves).root poseidon2Hash))) ∧
    ∀ hashed : Set (Fr × Fr),
      Set.InjOn (fun pair : Fr × Fr => Circuit.hash2 poseidon2Hash pair.1 pair.2) hashed →
      PairsWithin (Circuit.hash2 poseidon2Hash) hashed (padded 0 (leaves.map reduce)) depth →
      (∀ (value : Fr) (siblings bits : List Fr), siblings.length = depth → bits.length = depth →
        (∀ pair ∈ climbPairs (Circuit.hash2 poseidon2Hash) value (circuitPath siblings bits),
          pair ∈ hashed) →
        Circuit.computeRoot poseidon2Hash value (siblings.zip bits) =
          some (reduce ((IncrementalTree.ofLeaves leaves).root poseidon2Hash)) →
        value = padded 0 (leaves.map reduce) (spelled bits)) ∧
      ∀ (value : Int) (index : Nat) (siblings : List Int),
        (∀ pair ∈ climbPairs (Circuit.hash2 poseidon2Hash) (reduce value)
          (withSides index (siblings.map reduce)), pair ∈ hashed) →
        computeRoot poseidon2Hash value index siblings =
          .ok ((IncrementalTree.ofLeaves leaves).root poseidon2Hash) →
        reduce value = padded 0 (leaves.map reduce) (index % 2 ^ depth) := by
  have built : IncrementalTree.ofLeaves leaves = ⟨leaves⟩ :=
    congrArg IncrementalTree.mk (IncrementalTree.ofLeaves_leaves leaves)
  rw [built]
  constructor
  · intro room index leaf present
    obtain ⟨inside, here⟩ := List.getElem?_eq_some_iff.mp present
    have below : index < 2 ^ depth := Nat.lt_of_lt_of_le inside room
    have placed : padded 0 leaves index = leaf := by
      rw [padded, List.getD_eq_getElem _ _ inside, here]
    have capacity : index / 2 ^ depth = 0 := Nat.div_eq_of_lt below
    have folds := IncrementalTree.computeRoot_pathOf poseidon2Hash leaves index
    have circuit := circuit_computeRoot_pathOf poseidon2Hash leaves index
    rw [placed, capacity] at folds circuit
    refine ⟨_, _, (IncrementalTree.pathFor_eq_ok poseidon2Hash).mpr ⟨inside, rfl⟩, ?_, ?_, ?_⟩
    · rw [spelled_path, ← withSides_pathOf, pathIndex_withSides, List.length_map, pathOf_length]
      exact Nat.mod_eq_of_lt below
    · rw [IncrementalTree.root_eq]
      exact folds
    · rw [IncrementalTree.root_eq]
      exact circuit
  · intro hashed injective treePairs
    constructor
    · intro value siblings bits full fullBits pathPairs folds
      exact circuit_binds injective treePairs full (full.trans fullBits.symm) pathPairs folds
    · intro value index siblings pathPairs folds
      exact computeRoot_binds injective treePairs pathPairs folds

/-! ### Leaves from an untrusted source -/

/-- The check of `bytesToFieldCanonical`: 32 bytes below the field order. -/
def IsCanonical (b : Bytes) : Prop := b.length = 32 ∧ BigEndian.value b < fieldOrder

theorem isCanonical_iff {b : Bytes} : IsCanonical b ↔ ∃ scalar, b = word scalar := by
  constructor
  · intro canonical
    have accepted : bytesToFieldCanonical b = .ok (bytesToBigIntBE b) := by
      unfold bytesToFieldCanonical
      rw [if_neg (not_not_intro canonical.1), if_neg]
      rw [bytesToBigIntBE_eq, not_le]
      exact Int.ofNat_lt.mpr canonical.2
    obtain ⟨scalar, isWord, _⟩ := bytesToFieldCanonical_eq_ok.mp accepted
    exact ⟨scalar, isWord⟩
  · intro isWord
    obtain ⟨scalar, rfl⟩ := isWord
    exact ⟨(Fr.toBytes scalar).size, (Fr.toBytes_value scalar).trans_lt scalar.isLt⟩

theorem canonical_words {words : List Bytes} (canonical : ∀ b ∈ words, IsCanonical b) :
    ∃ values : List Fr, words = values.map word := by
  induction words with
  | nil => exact ⟨[], rfl⟩
  | cons b rest ih =>
      rw [List.forall_mem_cons] at canonical
      obtain ⟨scalar, rfl⟩ := isCanonical_iff.mp canonical.1
      obtain ⟨values, rfl⟩ := ih canonical.2
      exact ⟨scalar :: values, rfl⟩

/-- The witness that is found for a leaf folds to the root that is rebuilt. -/
def WitnessFolds (poseidon2Hash : List Fr → Fr) (leaves : List Leaf) (mine : Bytes) : Prop :=
  ∃ root located value, rebuildRoot poseidon2Hash leaves = .ok root ∧
    locateLeaf poseidon2Hash leaves mine = .ok (some located) ∧
    ⟨located.index, mine⟩ ∈ leaves ∧
    bytesToFieldCanonical mine = .ok value ∧
    computeRoot poseidon2Hash value located.index located.siblings = .ok root

def NothingComputed (poseidon2Hash : List Fr → Fr) (leaves : List Leaf) (mine : Bytes) : Prop :=
  (∃ message, rebuildRoot poseidon2Hash leaves = .error message) ∧
    ∃ message, locateLeaf poseidon2Hash leaves mine = .error message

section Untrusted

variable (poseidon2Hash : List Fr → Fr)

theorem computeRoot_located {values : List Fr} {mine : Fr} {index : Nat}
    (present : values[index]? = some mine) :
    computeRoot poseidon2Hash (bigint mine) index
        ((pathOf (Circuit.hash2 poseidon2Hash) (padded 0 values) depth 0 index).map
          (fun stage => bigint stage.2)) =
      .ok (bigint (node (Circuit.hash2 poseidon2Hash) (padded 0 values) depth
        (index / 2 ^ depth))) := by
  have zero : bigint 0 = 0 := rfl
  have image : (fun index => bigint (padded 0 values index)) = padded 0 (values.map bigint) := by
    rw [padded_map, zero]
  have placed : padded 0 (values.map bigint) index = bigint mine := by
    obtain ⟨inside, here⟩ := List.getElem?_eq_some_iff.mp present
    rw [← image]
    dsimp only
    rw [padded, List.getD_eq_getElem _ _ inside, here]
  have siblings : (pathOf (Circuit.hash2 poseidon2Hash) (padded 0 values) depth 0 index).map
      (fun stage => bigint stage.2) =
      (pathOf (p2Pair poseidon2Hash) (padded 0 (values.map bigint)) depth 0 index).map
        Prod.snd := by
    rw [← image, ← pathOf_map (Circuit.hash2 poseidon2Hash) _ bigint (p2Pair_bigint poseidon2Hash),
      List.map_map]
    rfl
  rw [siblings, ← placed, IncrementalTree.computeRoot_pathOf, ← image,
    ← node_map (Circuit.hash2 poseidon2Hash) _ bigint (p2Pair_bigint poseidon2Hash)]

/-- A leaf among canonical ones is located where its path leads to the root. A
map is full before the tree is. -/
theorem witness_folds {values : List Fr} (fits : values.length ≤ mapMaximum) {mine : Fr}
    (enrolled : mine ∈ values) :
    WitnessFolds poseidon2Hash (indexed (values.map word)) (word mine) := by
  have lists := Lists.indexed (values.map word)
  obtain ⟨index, present, located⟩ := locateLeaf_words poseidon2Hash fits lists enrolled
  obtain ⟨inside, _⟩ := List.getElem?_eq_some_iff.mp present
  have here : (values.map word)[index]? = some (word mine) := by
    rw [List.getElem?_map, present]
    rfl
  have below : index < 2 ^ depth := Nat.lt_of_lt_of_le inside fits
  have folds := computeRoot_located poseidon2Hash present
  rw [Nat.div_eq_of_lt below] at folds
  exact ⟨_, _, _, rebuildRoot_words poseidon2Hash fits lists, located, mem_indexed.mpr here,
    bytesToFieldCanonical_word mine, folds⟩

theorem nothing_computed {words : List Bytes} (fits : words.length ≤ mapMaximum) (mine : Bytes)
    (noncanonical : ∃ b ∈ words, ¬ IsCanonical b) :
    NothingComputed poseidon2Hash (indexed words) mine := by
  have rejected (tree : IncrementalTree) : insertAll .empty (indexed words) ≠ .ok tree := by
    intro inserted
    obtain ⟨values, isWords⟩ := insertAll_canonical inserted
    rw [indexed_words] at isWords
    obtain ⟨b, listed, strange⟩ := noncanonical
    rw [isWords] at listed
    obtain ⟨scalar, _, isWord⟩ := List.mem_map.mp listed
    exact strange (isCanonical_iff.mpr ⟨scalar, isWord.symm⟩)
  constructor
  · cases built : insertAll .empty (indexed words) with
    | ok tree => exact absurd built (rejected tree)
    | error message =>
        refine ⟨message, ?_⟩
        rw [rebuildRoot, mergeLeaves_indexed fits]
        dsimp only [bind, Except.bind]
        rw [built]
  · cases searched : insertAndFind mine .empty none (indexed words) with
    | ok result =>
        obtain ⟨tree, lastIndex⟩ := result
        exact absurd (insertAndFind_insertAll searched) (rejected tree)
    | error message =>
        refine ⟨message, ?_⟩
        rw [locateLeaf, mergeLeaves_indexed fits]
        dsimp only [bind, Except.bind]
        rw [searched]

end Untrusted

theorem mergeLeaves_congr {known incoming known' incoming' : List Leaf}
    (same : ∀ leaf, leaf ∈ known ++ incoming ↔ leaf ∈ known' ++ incoming') (merged : List Leaf) :
    mergeLeaves known incoming = .ok merged ↔ mergeLeaves known' incoming' = .ok merged := by
  have lists (words : List Bytes) :
      Lists (known ++ incoming) words ↔ Lists (known' ++ incoming') words := by
    constructor
    · intro lists
      exact ⟨fun leaf listed => lists.placed leaf ((same leaf).mpr listed),
        fun index word present => (same _).mp (lists.complete index word present)⟩
    · intro lists
      exact ⟨fun leaf listed => lists.placed leaf ((same leaf).mp listed),
        fun index word present => (same _).mpr (lists.complete index word present)⟩
  rw [mergeLeaves_eq_ok, mergeLeaves_eq_ok]
  simp only [lists]

theorem mergeLeaves_accepts_iff {known incoming : List Leaf} :
    (∃ merged, mergeLeaves known incoming = .ok merged) ↔
      ∃ count ≤ 2 ^ 24, Enumerates (known ++ incoming) count := by
  constructor
  · intro accepted
    obtain ⟨merged, accepted⟩ := accepted
    obtain ⟨words, lists, fits, _⟩ := mergeLeaves_eq_ok.mp accepted
    exact ⟨words.length, fits, lists.enumerates⟩
  · intro enumerated
    obtain ⟨count, fits, enumerates⟩ := enumerated
    refine ⟨_, mergeLeaves_eq_ok.mpr ⟨_, enumerates.lists, ?_, rfl⟩⟩
    rw [List.length_map, List.length_range]
    exact fits

theorem mergeLeaves_throws {known incoming : List Leaf}
    (rejects : ∀ count, ¬ Enumerates (known ++ incoming) count) :
    ∃ message, mergeLeaves known incoming = .error message := by
  cases merges : mergeLeaves known incoming with
  | error message => exact ⟨message, rfl⟩
  | ok merged =>
      obtain ⟨count, _, enumerates⟩ := mergeLeaves_accepts_iff.mp ⟨merged, merges⟩
      exact absurd enumerates (rejects count)

/-- A merge is all or nothing, whatever the order, and what it returned serves
every leaf in it as soon as all of them are field elements. -/
theorem merge_all_or_nothing (known incoming : List Leaf) :
    ((∃ merged, mergeLeaves known incoming = .ok merged) ↔
      ∃ count ≤ 2 ^ 24, Enumerates (known ++ incoming) count) ∧
    (∀ merged, mergeLeaves known incoming = .ok merged →
      merged.map Leaf.index = List.range merged.length ∧
      ∀ leaf, leaf ∈ merged ↔ leaf ∈ known ++ incoming) ∧
    (∀ known' incoming', (∀ leaf, leaf ∈ known ++ incoming ↔ leaf ∈ known' ++ incoming') →
      ∀ merged, mergeLeaves known incoming = .ok merged ↔
        mergeLeaves known' incoming' = .ok merged) ∧
    (∀ leaf ∈ known ++ incoming, ∀ other ∈ known ++ incoming, leaf.index = other.index →
      leaf.leaf ≠ other.leaf → ∃ message, mergeLeaves known incoming = .error message) ∧
    (∀ leaf ∈ known ++ incoming, ∀ missing < leaf.index,
      (∀ other ∈ known ++ incoming, other.index ≠ missing) →
      ∃ message, mergeLeaves known incoming = .error message) ∧
    ∀ (poseidon2Hash : List Fr → Fr) (merged : List Leaf) (index : Nat) (mine : Bytes),
      mergeLeaves known incoming = .ok merged → ⟨index, mine⟩ ∈ merged →
      ((∀ leaf ∈ merged, IsCanonical leaf.leaf) → WitnessFolds poseidon2Hash merged mine) ∧
      ((∃ leaf ∈ merged, ¬ IsCanonical leaf.leaf) → NothingComputed poseidon2Hash merged mine) := by
  refine ⟨mergeLeaves_accepts_iff, ?_, fun _ _ same => mergeLeaves_congr same, ?_, ?_, ?_⟩
  · intro merged accepted
    obtain ⟨words, lists, _, rfl⟩ := mergeLeaves_eq_ok.mp accepted
    constructor
    · apply List.ext_getElem
      · simp [indexed]
      · intro index _ _
        simp [indexed]
    · intro leaf
      rw [mem_indexed]
      exact ⟨fun present => lists.complete _ _ present, fun listed => lists.placed leaf listed⟩
  · intro leaf listed other listed' same different
    apply mergeLeaves_throws
    intro count enumerates
    exact different (enumerates.functional leaf listed other listed' same)
  · intro leaf listed missing before absent
    apply mergeLeaves_throws
    intro count enumerates
    have inside := (enumerates.domain leaf.index).mp ⟨leaf, listed, rfl⟩
    obtain ⟨other, listed', isMissing⟩ :=
      (enumerates.domain missing).mpr (Nat.lt_trans before inside)
    exact absent other listed' isMissing
  · intro poseidon2Hash merged index mine accepted enrolled
    obtain ⟨words, _, fits, rfl⟩ := mergeLeaves_eq_ok.mp accepted
    constructor
    · intro canonical
      have all (b : Bytes) (listed : b ∈ words) : IsCanonical b := by
        obtain ⟨place, here⟩ := List.mem_iff_getElem?.mp listed
        exact canonical ⟨place, b⟩ (mem_indexed.mpr here)
      obtain ⟨values, rfl⟩ := canonical_words all
      obtain ⟨scalar, isValue, rfl⟩ :=
        List.mem_map.mp (List.mem_of_getElem? (mem_indexed.mp enrolled))
      rw [List.length_map] at fits
      exact witness_folds poseidon2Hash fits isValue
    · intro noncanonical
      obtain ⟨leaf, listed, strange⟩ := noncanonical
      exact nothing_computed poseidon2Hash fits mine
        ⟨leaf.leaf, List.mem_of_getElem? (mem_indexed.mp listed), strange⟩

/-! ### Real leaves under the real hash -/

open ZkRecovery.Reference (poseidon2Hash)

theorem treePairs_injective :
    Set.InjOn (fun pair : Fr × Fr => Circuit.hash2 poseidon2Hash pair.1 pair.2)
      (fun pair =>
        pair ∈ treePairs (Circuit.hash2 poseidon2Hash) depth 0 ([7, 11, 13].map reduce)) := by
  have distinct :
      ((treePairs (Circuit.hash2 poseidon2Hash) depth 0 ([7, 11, 13].map reduce)).map
        (fun pair : Fr × Fr => Circuit.hash2 poseidon2Hash pair.1 pair.2)).Nodup := by
    decide +kernel
  intro left isLeft right isRight same
  exact List.inj_on_of_nodup_map distinct isLeft isRight same

/-- The second of three leaves, whose sibling stands on its left and whose next
one is completed by an empty leaf. -/
theorem membership_witness_second :
    ∃ siblings bits,
      (IncrementalTree.ofLeaves [7, 11, 13]).pathFor poseidon2Hash 1 = .ok (siblings, bits) ∧
      spelled (bits.map toFr) = 1 ∧
      computeRoot poseidon2Hash 11 1 siblings =
        .ok ((IncrementalTree.ofLeaves [7, 11, 13]).root poseidon2Hash) ∧
      Circuit.computeRoot poseidon2Hash (reduce 11)
          ((siblings.map reduce).zip (bits.map toFr)) =
        some (reduce ((IncrementalTree.ofLeaves [7, 11, 13]).root poseidon2Hash)) ∧
      reduce 11 = padded 0 ([7, 11, 13].map reduce) (1 % 2 ^ depth) := by
  obtain ⟨complete, sound⟩ := membership_witness poseidon2Hash [7, 11, 13]
  obtain ⟨siblings, bits, path, place, folds, circuit⟩ := complete (by decide) 1 11 rfl
  refine ⟨siblings, bits, path, place, folds, circuit, ?_⟩
  have within := pairsWithin_treePairs (Circuit.hash2 poseidon2Hash) 0 ([7, 11, 13].map reduce)
    depth
  apply (sound _ treePairs_injective within).2 11 1 siblings _ folds
  obtain ⟨_, isPath⟩ := (IncrementalTree.pathFor_eq_ok poseidon2Hash).mp path
  obtain ⟨isSiblings, _⟩ := Prod.mk.inj isPath
  have image : (fun index => reduce (padded 0 [7, 11, 13] index)) =
      padded 0 ([7, 11, 13].map reduce) := padded_map reduce 0 [7, 11, 13]
  have onPath : withSides 1 (siblings.map reduce) =
      pathOf (Circuit.hash2 poseidon2Hash) (padded 0 ([7, 11, 13].map reduce)) depth 0 1 := by
    rw [isSiblings, ← withSides_map, withSides_pathOf, pathOf_map _ _ reduce
      (reduce_p2Pair poseidon2Hash), IncrementalTree.ofLeaves_leaves, image]
  rw [onPath]
  exact climbPairs_pathOf _ within (Nat.zero_add depth) (by decide)

/-- A snapshot out of order, with one leaf twice. -/
theorem merge_all_or_nothing_shuffled :
    mergeLeaves [⟨2, word 13⟩, ⟨0, word 7⟩] [⟨1, word 11⟩, ⟨0, word 7⟩] =
        .ok (indexed ([7, 11, 13].map word)) ∧
      WitnessFolds poseidon2Hash (indexed ([7, 11, 13].map word)) (word 11) := by
  have same (first second third leaf : Leaf) :
      leaf ∈ [third, first] ++ [second, first] ↔ leaf ∈ [] ++ [first, second, third] := by
    simp only [List.cons_append, List.nil_append, List.mem_cons, List.not_mem_nil, or_false]
    tauto
  obtain ⟨_, _, independent, _, _, served⟩ :=
    merge_all_or_nothing [⟨2, word 13⟩, ⟨0, word 7⟩] [⟨1, word 11⟩, ⟨0, word 7⟩]
  have accepted := (independent [] (indexed ([7, 11, 13].map word)) (same _ _ _) _).mpr
    (mergeLeaves_indexed (by simp [mapMaximum]))
  refine ⟨accepted, (served poseidon2Hash _ 1 (word 11) accepted (mem_indexed.mpr rfl)).1 ?_⟩
  intro leaf present
  have isWord := List.mem_of_getElem? (mem_indexed.mp present)
  obtain ⟨scalar, _, same⟩ := List.mem_map.mp isWord
  exact isCanonical_iff.mpr ⟨scalar, same.symm⟩

/-- 32 bytes that are no field element. -/
def Reference.noncanonical : Bytes := List.replicate 32 0xff

/-- They are merged, but no root and no witness is ever computed from them. -/
theorem merge_noncanonical :
    mergeLeaves [] [⟨0, Reference.noncanonical⟩] = .ok [⟨0, Reference.noncanonical⟩] ∧
      ¬ WitnessFolds poseidon2Hash [⟨0, Reference.noncanonical⟩] Reference.noncanonical := by
  have fits : [Reference.noncanonical].length ≤ mapMaximum := by decide
  have strange : ¬ IsCanonical Reference.noncanonical := by
    unfold IsCanonical
    decide
  obtain ⟨⟨message, stopped⟩, _⟩ :=
    nothing_computed poseidon2Hash fits Reference.noncanonical
      ⟨_, List.mem_singleton_self _, strange⟩
  refine ⟨mergeLeaves_indexed fits, ?_⟩
  intro folds
  obtain ⟨root, _, _, rebuilt, _⟩ := folds
  have both := stopped.symm.trans rebuilt
  cases both

end Nido.Sdk
