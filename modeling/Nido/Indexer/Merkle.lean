/-
The pool indexer's root, and the one tree behind three programs.

The indexer replays the contract's frontier over a whole list of leaves, on
bigints and for any depth. The contract, the client and the indexer are three
ways to compute the root of the plain padded tree.
-/

import Nido.Sdk.Merkle
import Nido.ZkRecovery.Ring

namespace Nido.Indexer

open HashTree
open Sdk (bigint reduce_bigint p2Pair_bigint)

def depth : Nat := 24

/-- A remainder takes the sign of its dividend here. -/
def reduceMod (x : Int) : Int :=
  let m := x.tmod fieldOrder
  if m < 0 then m + fieldOrder else m

def p2raw (poseidon2Hash : List Fr → Fr) (a b : Int) : Int :=
  ((poseidon2Hash [toFr (reduceMod a).toNat, toFr (reduceMod b).toNat]).val : Int)

def zerosFrom (poseidon2Hash : List Fr → Fr) : (levels : Nat) → Int → List Int
  | 0, zero => [zero]
  | levels + 1, zero => zero :: zerosFrom poseidon2Hash levels (p2raw poseidon2Hash zero zero)

def computeZeros (poseidon2Hash : List Fr → Fr) (depth : Nat) : List Int :=
  zerosFrom poseidon2Hash depth 0

/-- The inner loop: one leaf, from the bottom to the top. -/
def insertLevels (poseidon2Hash : List Fr → Fr) (zeros : List Int) (idx : Nat) :
    (remaining level : Nat) → Int → List Int → Int × List Int
  | 0, _, cur, frontier => (cur, frontier)
  | remaining + 1, level, cur, frontier =>
      if (idx >>> level) &&& 1 = 0 then
        insertLevels poseidon2Hash zeros idx remaining (level + 1)
          (p2raw poseidon2Hash cur (zeros.getD level 0)) (frontier.set level cur)
      else
        insertLevels poseidon2Hash zeros idx remaining (level + 1)
          (p2raw poseidon2Hash (frontier.getD level 0) cur) frontier

def replay (poseidon2Hash : List Fr → Fr) (zeros : List Int) (depth : Nat) :
    (idx : Nat) → (root : Int) → (frontier leaves : List Int) → Int
  | _, root, _, [] => root
  | idx, _, frontier, leaf :: rest =>
      let (cur, frontier) :=
        insertLevels poseidon2Hash zeros idx depth 0 (reduceMod leaf) frontier
      replay poseidon2Hash zeros depth (idx + 1) cur frontier rest

def rebuildRoot (poseidon2Hash : List Fr → Fr) (leaves : List Int) (depth : Nat) : Int :=
  let zeros := computeZeros poseidon2Hash depth
  if leaves.length = 0 then zeros.getD depth 0
  else replay poseidon2Hash zeros depth 0 (zeros.getD depth 0) (List.replicate depth 0) leaves

theorem zerosFrom_getD (poseidon2Hash : List Fr → Fr) (levels level : Nat) (zero : Int)
    (inside : level ≤ levels) :
    (zerosFrom poseidon2Hash levels zero).getD level 0 =
      emptyNode (p2raw poseidon2Hash) zero level := by
  induction levels generalizing level zero with
  | zero =>
      have atEnd : level = 0 := Nat.le_zero.mp inside
      rw [atEnd]
      rfl
  | succ levels ih =>
      cases level with
      | zero => rfl
      | succ level =>
          rw [zerosFrom, List.getD_cons_succ, ih level _ (Nat.le_of_succ_le_succ inside),
            emptyNode_shift]

section Replay

variable (poseidon2Hash : List Fr → Fr) (depth : Nat)

theorem insertLevels_climbing {leaves frontier : List Int} {leaf cur : Int}
    (remaining level : Nat) (reaches : level + remaining = depth)
    (climbing : Climbing (p2raw poseidon2Hash) 0 depth leaves leaf level cur frontier) :
    ∃ root frontier', Climbing (p2raw poseidon2Hash) 0 depth leaves leaf depth root frontier' ∧
      insertLevels poseidon2Hash (computeZeros poseidon2Hash depth) leaves.length remaining level
        cur frontier = (root, frontier') := by
  induction remaining generalizing level cur frontier with
  | zero =>
      have atTop : level = depth := reaches
      rw [atTop] at climbing
      exact ⟨cur, frontier, climbing, rfl⟩
  | succ remaining ih =>
      have inDepth : level < depth := by omega
      unfold insertLevels
      rw [shift_bit]
      rcases Nat.mod_two_eq_zero_or_one (leaves.length / 2 ^ level) with even | odd
      · rw [if_pos even, computeZeros, zerosFrom_getD poseidon2Hash depth level 0 (by omega)]
        exact ih (level + 1) (by omega) (climbing.left inDepth even)
      · have saved := climbing.kept level inDepth odd
        rw [if_neg (by omega), List.getD_eq_getElem?_getD, saved, Option.getD_some]
        exact ih (level + 1) (by omega) (climbing.right odd)

theorem replay_eq {leaves frontier : List Int} (rest : List Int) (root : Int)
    (saves : Saves (p2raw poseidon2Hash) 0 depth leaves frontier)
    (newest : root = HashTree.root (p2raw poseidon2Hash) 0 depth leaves)
    (fits : leaves.length + rest.length ≤ 2 ^ depth) :
    replay poseidon2Hash (computeZeros poseidon2Hash depth) depth leaves.length root frontier rest =
      HashTree.root (p2raw poseidon2Hash) 0 depth (leaves ++ rest.map reduceMod) := by
  induction rest generalizing leaves frontier root with
  | nil =>
      rw [List.map_nil, List.append_nil]
      exact newest
  | cons leaf rest ih =>
      rw [List.length_cons] at fits
      obtain ⟨cur, frontier', climbed, inserted⟩ :=
        insertLevels_climbing poseidon2Hash depth depth 0 (Nat.zero_add _)
          (saves.start (reduceMod leaf))
      have room : leaves.length < 2 ^ depth := by omega
      have grown : (leaves ++ [reduceMod leaf]).length = leaves.length + 1 := by
        rw [List.length_append, List.length_singleton]
      have next := ih cur climbed.saves (climbed.root_eq room) (by rw [grown]; omega)
      rw [grown] at next
      rw [replay, inserted, List.map_cons, List.append_cons]
      exact next

theorem rebuildRoot_eq (leaves : List Int) (fits : leaves.length ≤ 2 ^ depth) :
    rebuildRoot poseidon2Hash leaves depth =
      HashTree.root (p2raw poseidon2Hash) 0 depth (leaves.map reduceMod) := by
  have empty : (computeZeros poseidon2Hash depth).getD depth 0 =
      HashTree.root (p2raw poseidon2Hash) 0 depth [] := by
    rw [computeZeros, zerosFrom_getD poseidon2Hash depth depth 0 (Nat.le_refl _), root_nil]
  unfold rebuildRoot
  dsimp only
  split
  · rename_i none_
    rw [List.length_eq_zero_iff.mp none_, empty, List.map_nil]
  · have saves : Saves (p2raw poseidon2Hash) 0 depth [] (List.replicate depth 0) := by
      refine ⟨List.length_replicate, ?_⟩
      intro level _inDepth odd
      rw [List.length_nil, Nat.zero_div] at odd
      cases odd
    exact replay_eq poseidon2Hash depth leaves _ saves empty
      (by rw [List.length_nil, Nat.zero_add]; exact fits)

end Replay

/-! ### One function of the leaves -/

theorem toFr_bigint (scalar : Fr) : toFr (bigint scalar).toNat = scalar := by
  rw [bigint, Int.toNat_natCast, toFr_val_self]

theorem reduceMod_bigint (scalar : Fr) : reduceMod (bigint scalar) = bigint scalar := by
  have canonical := scalar.isLt
  have same : (bigint scalar).tmod fieldOrder = bigint scalar := by
    rw [bigint, ← Int.ofNat_tmod, Nat.mod_eq_of_lt canonical]
  rw [reduceMod, same]
  exact if_neg (Int.not_lt.mpr (Int.natCast_nonneg _))

theorem p2raw_bigint (poseidon2Hash : List Fr → Fr) (left right : Fr) :
    bigint (Circuit.hash2 poseidon2Hash left right) =
      p2raw poseidon2Hash (bigint left) (bigint right) := by
  rw [p2raw, reduceMod_bigint, reduceMod_bigint, toFr_bigint, toFr_bigint]
  rfl

theorem hash2_toBytes (host : Host) (left right : Fr) :
    Fr.toBytes (Circuit.hash2 host.poseidon2Hash left right) =
      ZkRecovery.hash2 host (Fr.toBytes left) (Fr.toBytes right) := by
  have word (scalar : Fr) : toFr (ZkRecovery.u256FromBytes32 (Fr.toBytes scalar)) = scalar := by
    rw [ZkRecovery.u256FromBytes32, Fr.toBytes_value, toFr_val_self]
  rw [ZkRecovery.hash2, ZkRecovery.p2, List.map_cons, List.map_cons, List.map_nil, word, word]
  rfl

theorem treeRoot_toBytes (host : Host) (leaves : List Fr) :
    ZkRecovery.treeRoot host (leaves.map Fr.toBytes) =
      Fr.toBytes (HashTree.root (Circuit.hash2 host.poseidon2Hash) 0 24 leaves) := by
  have zero : Fr.toBytes 0 = BytesN.zero 32 := by decide
  rw [root_map _ _ Fr.toBytes (hash2_toBytes host), zero]
  rfl

/-- Contract, client and indexer compute the root of one plain tree. -/
theorem roots_agree (host : Host) (config : ZkRecovery.RecoveryConfig) (leaves : List Fr)
    (fits : leaves.length ≤ 2 ^ 24) :
    let plain := HashTree.root (Circuit.hash2 host.poseidon2Hash) 0 24 leaves
    (∃ state,
      ZkRecovery.insertLeaves host (ZkRecovery.construct config) (leaves.map Fr.toBytes) =
        .ok state ∧
      ZkRecovery.currentRoot host state = .ok (Fr.toBytes plain)) ∧
    (Sdk.IncrementalTree.ofLeaves (leaves.map bigint)).root host.poseidon2Hash = bigint plain ∧
    rebuildRoot host.poseidon2Hash (leaves.map bigint) depth = bigint plain := by
  intro plain
  have zero : bigint 0 = 0 := rfl
  refine ⟨?_, ?_, ?_⟩
  · have fits' : (leaves.map Fr.toBytes).length ≤ 2 ^ 24 := by
      rw [List.length_map]
      exact fits
    obtain ⟨state, filled, holds⟩ :=
      ZkRecovery.filled_holds host config (leaves.map Fr.toBytes) fits'
    refine ⟨state, filled, ?_⟩
    rw [ZkRecovery.currentRoot_spec holds, treeRoot_toBytes]
  · rw [Sdk.IncrementalTree.root_eq, Sdk.IncrementalTree.ofLeaves_leaves,
      root_map _ _ bigint (p2Pair_bigint host.poseidon2Hash), zero]
    rfl
  · have reduced : (leaves.map bigint).map reduceMod = leaves.map bigint := by
      rw [List.map_map]
      exact List.map_congr_left (fun leaf _ => reduceMod_bigint leaf)
    rw [rebuildRoot_eq _ _ _ (by rw [List.length_map]; exact fits), reduced,
      root_map _ _ bigint (p2raw_bigint host.poseidon2Hash), zero]
    rfl

/-- Three leaves, the last of them zero like an empty place. -/
theorem roots_agree_three :
    (Sdk.IncrementalTree.ofLeaves ([toFr 5, toFr 7, toFr 0].map bigint)).root
        ZkRecovery.Reference.host.poseidon2Hash =
      rebuildRoot ZkRecovery.Reference.host.poseidon2Hash
        ([toFr 5, toFr 7, toFr 0].map bigint) depth := by
  obtain ⟨_, client, indexer⟩ := roots_agree ZkRecovery.Reference.host
    ZkRecovery.Reference.config [toFr 5, toFr 7, toFr 0] (by decide)
  rw [client, indexer]

end Nido.Indexer
