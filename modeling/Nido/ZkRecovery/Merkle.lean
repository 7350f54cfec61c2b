/-
The depth-24 incremental Merkle frontier and the 128-slot ring of recent roots.

The frontier keeps one saved left sibling per level; an insertion rewrites the
path of the new leaf only. `PoolHolds` says which list of leaves a storage
stands for, and the specifications below carry it through an insertion: the
root pushed into the ring is the root of the plain padded tree, and the ring
answers exactly for the last 128 of them.
-/

import Nido.Library.HashTree
import Nido.ZkRecovery.Hash
import Nido.ZkRecovery.Types

namespace Nido.ZkRecovery

open Contract HashTree

def depth : Nat := 24
def maxLeaves : UInt32 := 16777216
def ringSize : UInt32 := 128

def hash2 (host : Host) (left right : BytesN 32) : BytesN 32 :=
  p2 host [u256FromBytes32 left, u256FromBytes32 right]

def zeroChainFrom (host : Host) : (levels : Nat) → BytesN 32 → List (BytesN 32)
  | 0, cur => [cur]
  | levels + 1, cur => cur :: zeroChainFrom host levels (hash2 host cur cur)

def zeroChain (host : Host) : List (BytesN 32) := zeroChainFrom host depth (BytesN.zero 32)

/-- `Vec::get_unchecked`: an index outside the vector traps. -/
def fetch {α : Type} (items : List α) (index : Nat) : Contract α := orFail items[index]? .trap

/-- `Vec::set`: an index outside the vector traps. -/
def store {α : Type} (items : List α) (index : Nat) (value : α) : Contract (List α) :=
  if index < items.length then .ok (items.set index value) else .error .trap

def loadFrontier (state : RecoveryState) (zeroes : List (BytesN 32)) : List (BytesN 32) :=
  state.frontier.getD (zeroes.take depth)

def loadRing (state : RecoveryState) : List (BytesN 32) := state.rootRing.getD []

def nextIndex (state : RecoveryState) : UInt32 := state.nextIndex.getD 0

def ringHead (state : RecoveryState) : UInt32 := state.ringHead.getD 0

def currentRoot (host : Host) (state : RecoveryState) : Contract (BytesN 32) :=
  let head := ringHead state
  if head = 0 then fetch (zeroChain host) depth
  else fetch (loadRing state) ((head.toNat - 1) % ringSize.toNat)

/-- The scan runs from the newest slot backwards. -/
def scanRing (ring : List (BytesN 32)) (head : Nat) (root : BytesN 32) :
    (remaining i : Nat) → Contract Bool
  | 0, _ => pure false
  | remaining + 1, i => do
      let stored ← fetch ring ((head - 1 - i) % ringSize.toNat)
      if stored = root then pure true else scanRing ring head root remaining (i + 1)

def isKnownRoot (host : Host) (state : RecoveryState) (root : BytesN 32) : Contract Bool := do
  let head := ringHead state
  if head = 0 then
    let empty ← fetch (zeroChain host) depth
    pure (decide (root = empty))
  else
    scanRing (loadRing state) head.toNat root (min head ringSize).toNat 0

def insertLevels (host : Host) (zeroes : List (BytesN 32)) (idx : Nat) :
    (remaining level : Nat) → BytesN 32 → List (BytesN 32) →
      Contract (BytesN 32 × List (BytesN 32))
  | 0, _, cur, frontier => pure (cur, frontier)
  | remaining + 1, level, cur, frontier =>
      if (idx >>> level) &&& 1 = 0 then do
        let frontier ← store frontier level cur
        let z ← fetch zeroes level
        insertLevels host zeroes idx remaining (level + 1) (hash2 host cur z) frontier
      else do
        let left ← fetch frontier level
        insertLevels host zeroes idx remaining (level + 1) (hash2 host left cur) frontier

/-- `head + 1` and `idx + 1` on `u32`, with overflow checks. -/
def checkedSucc (number : UInt32) : Contract UInt32 :=
  if number.toNat + 1 < 2 ^ 32 then .ok (number + 1) else .error .trap

def pushRoot (ring : List (BytesN 32)) (head : UInt32) (root : BytesN 32) : List (BytesN 32) :=
  let slot := head.toNat % ringSize.toNat
  if slot < ring.length then ring.set slot root else ring ++ [root]

def insertLeaf (host : Host) (state : RecoveryState) (stored : BytesN 32) :
    Contract (UInt32 × RecoveryState) := do
  let idx := nextIndex state
  require (idx < maxLeaves) RecoveryError.treeFull.failure
  let zeroes := zeroChain host
  let (root, frontier) ←
    insertLevels host zeroes idx.toNat depth 0 stored (loadFrontier state zeroes)
  let ring := pushRoot (loadRing state) (ringHead state) root
  let head ← checkedSucc (ringHead state)
  let next ← checkedSucc idx
  pure (idx,
    { state with
      frontier := some frontier
      rootRing := some ring
      ringHead := some head
      nextIndex := some next })

/-! ### What a storage stands for -/

def treeRoot (host : Host) (leaves : List (BytesN 32)) : BytesN 32 :=
  root (hash2 host) (BytesN.zero 32) depth leaves

def treeNode (host : Host) (leaves : List (BytesN 32)) (level position : Nat) : BytesN 32 :=
  node (hash2 host) (padded (BytesN.zero 32) leaves) level position

/-- Wherever the number of leaves has a bit set, the frontier saves the full
left sibling of the next path at that level. -/
structure FrontierHolds (host : Host) (leaves frontier : List (BytesN 32)) : Prop where
  length : frontier.length = depth
  saved : ∀ level < depth, leaves.length / 2 ^ level % 2 = 1 →
    frontier[level]? = some (treeNode host leaves level (leaves.length / 2 ^ level - 1))

/-- The ring holds the roots after the last 128 insertions. -/
structure RingHolds (host : Host) (leaves ring : List (BytesN 32)) : Prop where
  length : ring.length = min leaves.length 128
  recent : ∀ count, 1 ≤ count → count ≤ leaves.length → leaves.length < count + 128 →
    ring[(count - 1) % 128]? = some (treeRoot host (leaves.take count))

structure PoolHolds (host : Host) (state : RecoveryState) (leaves : List (BytesN 32)) : Prop where
  capacity : leaves.length ≤ 2 ^ depth
  next : (nextIndex state).toNat = leaves.length
  head : (ringHead state).toNat = leaves.length
  frontier : FrontierHolds host leaves (loadFrontier state (zeroChain host))
  ring : RingHolds host leaves (loadRing state)

theorem zeroChainFrom_get (host : Host) (levels level : Nat) (cur : BytesN 32)
    (inside : level ≤ levels) :
    (zeroChainFrom host levels cur)[level]? = some (emptyNode (hash2 host) cur level) := by
  induction levels generalizing level cur with
  | zero =>
      have atEnd : level = 0 := Nat.le_zero.mp inside
      subst level
      rfl
  | succ levels ih =>
      cases level with
      | zero => rfl
      | succ level =>
          rw [zeroChainFrom, List.getElem?_cons_succ, ih level _ (Nat.le_of_succ_le_succ inside),
            emptyNode_shift]

theorem zeroChainFrom_length (host : Host) (levels : Nat) (cur : BytesN 32) :
    (zeroChainFrom host levels cur).length = levels + 1 := by
  induction levels generalizing cur with
  | zero => rfl
  | succ levels ih => rw [zeroChainFrom, List.length_cons, ih]

theorem fetch_zeroChain (host : Host) (level : Nat) (inside : level ≤ depth) :
    fetch (zeroChain host) level = .ok (emptyNode (hash2 host) (BytesN.zero 32) level) := by
  rw [fetch, orFail_eq_ok]
  exact zeroChainFrom_get host depth level _ inside

theorem PoolHolds.initial (host : Host) (state : RecoveryState) (frontier : state.frontier = none)
    (nextIndex : state.nextIndex = none) (rootRing : state.rootRing = none)
    (ringHead : state.ringHead = none) : PoolHolds host state [] where
  capacity := Nat.zero_le _
  next := by rw [ZkRecovery.nextIndex, nextIndex]; rfl
  head := by rw [ZkRecovery.ringHead, ringHead]; rfl
  frontier :=
    { length := by
        rw [loadFrontier, frontier, Option.getD_none, List.length_take, zeroChain,
          zeroChainFrom_length]
        exact Nat.min_eq_left (Nat.le_succ depth)
      saved := by
        intro level _inside odd
        simp at odd }
  ring :=
    { length := by rw [loadRing, rootRing]; rfl
      recent := by
        intro count positive within
        exact absurd (Nat.le_trans positive within) (by decide) }

/-! ### One insertion -/

private theorem insertLevels_step (host : Host) (leaves : List (BytesN 32)) (stored : BytesN 32)
    (remaining level : Nat) (bounded : level + (remaining + 1) = depth) (cur : BytesN 32)
    (frontier : List (BytesN 32))
    (climbing : Climbing (hash2 host) (BytesN.zero 32) depth leaves stored level cur frontier) :
    ∃ cur' frontier',
      Climbing (hash2 host) (BytesN.zero 32) depth leaves stored (level + 1) cur' frontier' ∧
      insertLevels host (zeroChain host) leaves.length (remaining + 1) level cur frontier =
        insertLevels host (zeroChain host) leaves.length remaining (level + 1) cur' frontier' := by
  have inDepth : level < depth := by omega
  rw [insertLevels, shift_bit]
  rcases Nat.mod_two_eq_zero_or_one (leaves.length / 2 ^ level) with even | odd
  · have stores : store frontier level cur = .ok (frontier.set level cur) :=
      if_pos (by rw [climbing.length]; exact inDepth)
    refine ⟨_, _, climbing.left inDepth even, ?_⟩
    rw [if_pos even, stores, fetch_zeroChain host level (Nat.le_of_lt inDepth)]
    rfl
  · have fetches : fetch frontier level =
        .ok (treeNode host leaves level (leaves.length / 2 ^ level - 1)) := by
      rw [fetch, orFail_eq_ok]
      exact climbing.kept level inDepth odd
    refine ⟨_, _, climbing.right odd, ?_⟩
    rw [if_neg (by omega), fetches]
    rfl

private theorem insertLevels_climbing (host : Host) (leaves : List (BytesN 32))
    (stored : BytesN 32) (remaining level : Nat) (bounded : level + remaining = depth)
    (cur : BytesN 32) (frontier : List (BytesN 32))
    (climbing : Climbing (hash2 host) (BytesN.zero 32) depth leaves stored level cur frontier) :
    ∃ root frontier',
      Climbing (hash2 host) (BytesN.zero 32) depth leaves stored depth root frontier' ∧
      insertLevels host (zeroChain host) leaves.length remaining level cur frontier =
        .ok (root, frontier') := by
  induction remaining generalizing level cur frontier with
  | zero =>
      have atTop : level = depth := bounded
      subst level
      exact ⟨cur, frontier, climbing, rfl⟩
  | succ remaining ih =>
      obtain ⟨cur', frontier', next, stepped⟩ :=
        insertLevels_step host leaves stored remaining level bounded cur frontier climbing
      rw [stepped]
      exact ih (level + 1) (by omega) cur' frontier' next

theorem FrontierHolds.saves {host : Host} {leaves frontier : List (BytesN 32)}
    (holds : FrontierHolds host leaves frontier) :
    Saves (hash2 host) (BytesN.zero 32) depth leaves frontier :=
  ⟨holds.length, holds.saved⟩

private theorem pushRoot_holds {host : Host} {leaves ring : List (BytesN 32)} {stored : BytesN 32}
    {head : UInt32} (holds : RingHolds host leaves ring) (atHead : head.toNat = leaves.length) :
    RingHolds host (leaves ++ [stored])
      (pushRoot ring head (treeRoot host (leaves ++ [stored]))) := by
  have length := holds.length
  have slots : ringSize.toNat = 128 := rfl
  rw [pushRoot, atHead, slots]
  refine ⟨?_, ?_⟩
  · split
    · rw [List.length_set, List.length_append, List.length_singleton]
      omega
    · rw [List.length_append, List.length_append, List.length_singleton, List.length_singleton]
      omega
  · intro count positive within recent
    rw [List.length_append, List.length_singleton] at within recent
    rcases Nat.lt_or_eq_of_le within with older | newest
    · -- an older root stands in another slot and is not overwritten
      have before := holds.recent count positive (by omega) (by omega)
      have bounded : (count - 1) % 128 < ring.length := (List.getElem?_eq_some_iff.mp before).1
      have unchanged : treeRoot host ((leaves ++ [stored]).take count) =
          treeRoot host (leaves.take count) := by
        rw [List.take_append_of_le_length (by omega)]
      rw [unchanged, ← before]
      split
      · exact List.getElem?_set_ne (by omega)
      · exact List.getElem?_append_left bounded
    · have whole : (leaves ++ [stored]).take count = leaves ++ [stored] :=
        List.take_of_length_le (by rw [List.length_append, List.length_singleton]; omega)
      have slot : count - 1 = leaves.length := by omega
      rw [whole, slot]
      split
      · rename_i inside
        exact List.getElem?_set_self inside
      · rename_i outside
        have fresh : leaves.length % 128 = ring.length := by omega
        rw [fresh, List.getElem?_append_right (Nat.le_refl _), Nat.sub_self]
        rfl

/-- `insert_leaf` succeeds below the capacity, returns the number of leaves
before it, and appends exactly the given leaf. -/
theorem insertLeaf_spec {host : Host} {state : RecoveryState} {leaves : List (BytesN 32)}
    (stored : BytesN 32) (holds : PoolHolds host state leaves)
    (room : leaves.length < 2 ^ depth) :
    ∃ index frontier ring head next,
      insertLeaf host state stored = .ok (index,
        { state with
          frontier := some frontier, rootRing := some ring,
          ringHead := some head, nextIndex := some next }) ∧
      index.toNat = leaves.length ∧
      PoolHolds host
        { state with
          frontier := some frontier, rootRing := some ring,
          ringHead := some head, nextIndex := some next }
        (leaves ++ [stored]) := by
  have capacity : leaves.length < 16777216 := room
  have accepted : nextIndex state < maxLeaves := by
    rw [UInt32.lt_iff_toNat_lt, holds.next]
    exact capacity
  obtain ⟨root, frontier, climbed, loop⟩ :=
    insertLevels_climbing host leaves stored depth 0 (Nat.zero_add _) stored _
      (holds.frontier.saves.start stored)
  have rootEq : root = treeRoot host (leaves ++ [stored]) := climbed.root_eq room
  have succeeds (number : UInt32) (same : number.toNat = leaves.length) :
      checkedSucc number = .ok (number + 1) ∧ (number + 1).toNat = leaves.length + 1 := by
    rw [checkedSucc, if_pos (by omega), UInt32.toNat_add, same]
    exact ⟨rfl, Nat.mod_eq_of_lt (by change leaves.length + 1 < 2 ^ 32; omega)⟩
  have headSucc := succeeds _ holds.head
  have nextSucc := succeeds _ holds.next
  refine ⟨nextIndex state, frontier, pushRoot (loadRing state) (ringHead state) root,
    ringHead state + 1, nextIndex state + 1, ?_, holds.next, ?_⟩
  · rw [insertLeaf, require, if_pos accepted, holds.next]
    dsimp only [bind, Except.bind]
    rw [loop]
    dsimp only
    rw [headSucc.1, nextSucc.1]
    rfl
  · refine
      { capacity := ?_
        next := ?_
        head := ?_
        frontier := ⟨climbed.saves.length, climbed.saves.saved⟩
        ring := ?_ }
    · rw [List.length_append, List.length_singleton]
      exact room
    · rw [List.length_append, List.length_singleton]
      exact nextSucc.2
    · rw [List.length_append, List.length_singleton]
      exact headSucc.2
    · rw [rootEq]
      exact pushRoot_holds holds.ring holds.head

/-- Whatever `insert_leaf` returns, it has written its four keys and no other. -/
theorem insertLeaf_eq_ok {host : Host} {state state' : RecoveryState} {stored : BytesN 32}
    {index : UInt32} (accepted : insertLeaf host state stored = .ok (index, state')) :
    (nextIndex state).toNat < 2 ^ depth ∧
      ∃ frontier ring head next, state' =
        { state with
          frontier := some frontier, rootRing := some ring,
          ringHead := some head, nextIndex := some next } := by
  simp only [insertLeaf, bind_eq_ok, pure_eq_ok, require_eq_ok, Prod.exists, Prod.mk.injEq]
    at accepted
  obtain ⟨_, room, _, frontier, _, head, _, next, _, _, rfl⟩ := accepted
  exact ⟨UInt32.lt_iff_toNat_lt.mp room, frontier, _, head, next, rfl⟩

theorem PoolHolds.congr {host : Host} {state state' : RecoveryState} {leaves : List (BytesN 32)}
    (holds : PoolHolds host state leaves) (frontier : state'.frontier = state.frontier)
    (next : state'.nextIndex = state.nextIndex) (ring : state'.rootRing = state.rootRing)
    (head : state'.ringHead = state.ringHead) : PoolHolds host state' leaves where
  capacity := holds.capacity
  next := by rw [nextIndex, next]; exact holds.next
  head := by rw [ringHead, head]; exact holds.head
  frontier := by rw [loadFrontier, frontier]; exact holds.frontier
  ring := by rw [loadRing, ring]; exact holds.ring

/-! ### The recent roots -/

/-- The last 128 trees of a pool; before the first insertion the empty one. -/
structure Recent (leaves : List (BytesN 32)) (count : Nat) : Prop where
  within : count ≤ leaves.length
  window : leaves.length < count + 128
  inserted : leaves = [] ∨ 1 ≤ count

theorem currentRoot_spec {host : Host} {state : RecoveryState} {leaves : List (BytesN 32)}
    (holds : PoolHolds host state leaves) :
    currentRoot host state = .ok (treeRoot host leaves) := by
  unfold currentRoot
  dsimp only
  split
  · rename_i atStart
    have empty : leaves = [] := by
      rw [← List.length_eq_zero_iff, ← holds.head, atStart]
      rfl
    rw [empty, fetch_zeroChain host depth (Nat.le_refl _), treeRoot, root_nil]
  · rename_i later
    have nonempty : leaves.length ≠ 0 := by
      intro empty
      exact later (UInt32.toNat_inj.mp (holds.head.trans empty))
    have newest := holds.ring.recent leaves.length (by omega) (Nat.le_refl _) (by omega)
    rw [List.take_length] at newest
    rw [fetch, orFail_eq_ok, holds.head]
    exact newest

private theorem scanRing_spec {host : Host} {leaves ring : List (BytesN 32)}
    (holds : RingHolds host leaves ring) (root : BytesN 32) (remaining i : Nat)
    (bounded : i + remaining = min leaves.length 128) :
    ∃ known, scanRing ring leaves.length root remaining i = .ok known ∧
      (known = true ↔ ∃ back, i ≤ back ∧ back < i + remaining ∧
        root = treeRoot host (leaves.take (leaves.length - back))) := by
  induction remaining generalizing i with
  | zero =>
      refine ⟨false, rfl, ?_⟩
      constructor
      · intro impossible
        cases impossible
      · rintro ⟨back, low, high, _⟩
        omega
  | succ remaining ih =>
      have slot := holds.recent (leaves.length - i) (by omega) (by omega) (by omega)
      have stored : fetch ring ((leaves.length - 1 - i) % ringSize.toNat) =
          .ok (treeRoot host (leaves.take (leaves.length - i))) := by
        rw [fetch, orFail_eq_ok, Nat.sub_right_comm]
        exact slot
      rw [scanRing, stored]
      dsimp only [bind, Except.bind]
      split
      · rename_i found
        exact ⟨true, rfl, fun _ => ⟨i, Nat.le_refl i, by omega, found.symm⟩, fun _ => rfl⟩
      · rename_i other
        obtain ⟨known, scanned, exact_⟩ := ih (i + 1) (by omega)
        refine ⟨known, scanned, exact_.trans ?_⟩
        constructor
        · rintro ⟨back, low, high, same⟩
          exact ⟨back, by omega, by omega, same⟩
        · rintro ⟨back, low, high, same⟩
          have later : i ≠ back := by
            rintro rfl
            exact other same.symm
          exact ⟨back, by omega, by omega, same⟩

/-- The ring answers, and exactly for the roots of the last 128 trees. -/
theorem isKnownRoot_spec {host : Host} {state : RecoveryState} {leaves : List (BytesN 32)}
    (holds : PoolHolds host state leaves) (root : BytesN 32) :
    ∃ known, isKnownRoot host state root = .ok known ∧
      (known = true ↔ ∃ count, Recent leaves count ∧ root = treeRoot host (leaves.take count)) := by
  unfold isKnownRoot
  by_cases atStart : ringHead state = 0
  · have empty : leaves = [] := by
      rw [← List.length_eq_zero_iff, ← holds.head, atStart]
      rfl
    subst empty
    dsimp only
    rw [if_pos atStart, fetch_zeroChain host depth (Nat.le_refl _)]
    refine ⟨_, rfl, decide_eq_true_iff.trans ?_⟩
    rw [← root_nil]
    constructor
    · intro same
      exact ⟨0, ⟨Nat.le_refl 0, by decide, Or.inl rfl⟩, same⟩
    · rintro ⟨count, _recent, same⟩
      rw [List.take_nil] at same
      exact same
  · have nonempty : leaves.length ≠ 0 := by
      intro empty
      exact atStart (UInt32.toNat_inj.mp (holds.head.trans empty))
    have count : (min (ringHead state) ringSize).toNat = min leaves.length 128 := by
      rw [← holds.head]
      change (if _ then _ else _ : UInt32).toNat = _
      split
      · rename_i smaller
        exact (Nat.min_eq_left (UInt32.le_iff_toNat_le.mp smaller)).symm
      · rename_i larger
        have least : 128 ≤ (ringHead state).toNat := by
          rw [UInt32.le_iff_toNat_le] at larger
          exact Nat.le_of_not_le larger
        exact (Nat.min_eq_right least).symm
    dsimp only
    rw [if_neg atStart, holds.head, count]
    obtain ⟨known, scanned, exact_⟩ := scanRing_spec holds.ring root _ 0 (Nat.zero_add _)
    refine ⟨known, scanned, exact_.trans ?_⟩
    constructor
    · rintro ⟨back, _low, high, same⟩
      rw [Nat.zero_add, Nat.lt_min] at high
      have within : leaves.length - back ≤ leaves.length := Nat.sub_le _ _
      have window : leaves.length < leaves.length - back + 128 := by omega
      have inserted : 1 ≤ leaves.length - back := by omega
      exact ⟨leaves.length - back, ⟨within, window, Or.inr inserted⟩, same⟩
    · rintro ⟨count, recent, same⟩
      have inserted : 1 ≤ count := by
        rcases recent.inserted with empty | inserted
        · rw [empty] at nonempty
          exact absurd rfl nonempty
        · exact inserted
      have within := recent.within
      have window := recent.window
      refine ⟨leaves.length - count, Nat.zero_le _, by omega, ?_⟩
      rw [Nat.sub_sub_self within]
      exact same

end Nido.ZkRecovery
