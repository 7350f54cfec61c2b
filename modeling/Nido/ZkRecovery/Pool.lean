/-
The constructor and the two insertions that bind a commitment to an account.

Both insertions wrap the commitment under the account whose authority was just
checked; a caller never hands over a leaf of its own making.
-/

import Nido.ZkRecovery.Merkle

namespace Nido.ZkRecovery

open Contract

/-- Big-endian bytes of the BN254 scalar field order. -/
def fieldOrderBe : BytesN 32 where
  data := [
    0x30, 0x64, 0x4e, 0x72, 0xe1, 0x31, 0xa0, 0x29, 0xb8, 0x50, 0x45, 0xb6, 0x81, 0x81, 0x58, 0x5d,
    0x28, 0x33, 0xe8, 0x48, 0x79, 0xb9, 0x70, 0x91, 0x43, 0xe1, 0xf5, 0x93, 0xf0, 0x00, 0x00, 0x01]
  size := rfl

theorem fieldOrderBe_value : fieldOrderBe.value = fieldOrder := by decide

/-- Rejects rather than reduces: two encodings of one element never become one leaf. -/
def requireCanonical (commitment : BytesN 32) : Contract Unit :=
  require (¬ fieldOrderBe.value ≤ commitment.value) RecoveryError.nonCanonicalCommitment.failure

def config (state : RecoveryState) : RecoveryConfig := state.config

def insertBound (host : Host) (state : RecoveryState) (account : Address)
    (commitment : BytesN 32) : Contract (UInt32 × RecoveryState) := do
  requireCanonical commitment
  let stored ← wrapLeaf host account commitment
  let (index, state) ← insertLeaf host state stored
  pure (index, state.publish (.leafInserted index stored))

/-- `__constructor`: the storage of a fresh instance holds the configuration only. -/
def construct (config : RecoveryConfig) : RecoveryState where
  config := config
  frontier := none
  nextIndex := none
  rootRing := none
  ringHead := none
  nullifier := fun _ => none
  pending := fun _ => none
  installed := fun _ => none
  cancels := fun _ => none
  nonce := fun _ => none
  rateWindow := fun _ => none
  lastCancel := fun _ => none
  events := []

/-- Genesis: the factory enrolls the account it has just created. -/
def insert (host : Host) (env : Env) (state : RecoveryState) (account : Address)
    (commitment : BytesN 32) : Contract (UInt32 × RecoveryState) := do
  env.requireAuth (config state).factory
  insertBound host state account commitment

/-- Migration: the account enrolls itself. -/
def insertFor (host : Host) (env : Env) (state : RecoveryState) (account : Address)
    (commitment : BytesN 32) : Contract (UInt32 × RecoveryState) := do
  env.requireAuth account
  insertBound host state account commitment

/-! ### What a successful insertion has done -/

theorem requireCanonical_eq_ok {commitment : BytesN 32} {result : Unit} :
    requireCanonical commitment = .ok result ↔ commitment.value < fieldOrder := by
  rw [requireCanonical, require_eq_ok, fieldOrderBe_value, Nat.not_le]

theorem PoolHolds.construct (host : Host) (config : RecoveryConfig) :
    PoolHolds host (construct config) [] :=
  PoolHolds.initial host _ rfl rfl rfl rfl

structure Inserted (host : Host) (state : RecoveryState) (account : Address)
    (commitment : BytesN 32) (state' : RecoveryState) (stored : BytesN 32) : Prop where
  canonical : commitment.value < fieldOrder
  wrapped : wrapLeaf host account commitment = .ok stored
  appends : ∀ leaves, PoolHolds host state leaves →
    leaves.length < 2 ^ depth ∧ PoolHolds host state' (leaves ++ [stored])
  after : ∃ frontier ring head next index,
    state' = { state with
      frontier := some frontier, rootRing := some ring, ringHead := some head,
      nextIndex := some next, events := state.events ++ [.leafInserted index stored] }

theorem insertBound_eq_ok {host : Host} {state state' : RecoveryState} {account : Address}
    {commitment : BytesN 32} {index : UInt32}
    (accepted : insertBound host state account commitment = .ok (index, state')) :
    ∃ stored, Inserted host state account commitment state' stored := by
  simp only [insertBound, bind_eq_ok, pure_eq_ok, requireCanonical_eq_ok, Prod.exists,
    Prod.mk.injEq] at accepted
  obtain ⟨_, canonical, stored, wrapped, index, state₁, leaf, rfl, rfl⟩ := accepted
  obtain ⟨room, frontier, ring, head, next, rfl⟩ := insertLeaf_eq_ok leaf
  refine ⟨stored, canonical, wrapped, ?_, frontier, ring, head, next, index, rfl⟩
  intro leaves holds
  rw [holds.next] at room
  obtain ⟨_, _, _, _, _, spec, _, appended⟩ := insertLeaf_spec stored holds room
  rw [spec, Except.ok.injEq, Prod.mk.injEq] at leaf
  rw [leaf.2] at appended
  exact ⟨room, appended.congr rfl rfl rfl rfl⟩

theorem insert_eq_ok {host : Host} {env : Env} {state state' : RecoveryState} {account : Address}
    {commitment : BytesN 32} {index : UInt32}
    (accepted : insert host env state account commitment = .ok (index, state')) :
    env.authorized state.config.factory = true ∧
      ∃ stored, Inserted host state account commitment state' stored := by
  simp only [insert, Env.requireAuth, bind_eq_ok, require_eq_ok] at accepted
  obtain ⟨_, authorized, bound⟩ := accepted
  exact ⟨authorized, insertBound_eq_ok bound⟩

theorem insertFor_eq_ok {host : Host} {env : Env} {state state' : RecoveryState}
    {account : Address} {commitment : BytesN 32} {index : UInt32}
    (accepted : insertFor host env state account commitment = .ok (index, state')) :
    env.authorized account = true ∧
      ∃ stored, Inserted host state account commitment state' stored := by
  simp only [insertFor, Env.requireAuth, bind_eq_ok, require_eq_ok] at accepted
  obtain ⟨_, authorized, bound⟩ := accepted
  exact ⟨authorized, insertBound_eq_ok bound⟩

end Nido.ZkRecovery
