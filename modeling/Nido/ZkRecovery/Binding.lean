/-
From an accepted proof back to the enrolment of the account.

The log of inserted leaves is the list that the pool stands for. An accepted
proof opens to a witness; its authorization hash fixes the account, its path
ends in one of the last roots, and the leaf under that root was inserted for
the same account with the commitment of the same secret. The hash is only
assumed to behave on the lists that were really hashed.
-/

import Mathlib.Data.List.Nodup
import Nido.ZkRecovery.Nullifiers

namespace Nido.ZkRecovery

open Circuit (Witness Satisfied)
open HashTree

/-! ### The inserted leaves -/

def RecoveryEvent.leaf : RecoveryEvent → Option (BytesN 32)
  | .leafInserted _ leaf => some leaf
  | _ => none

def storedLeaves (state : RecoveryState) : List (BytesN 32) :=
  state.events.filterMap RecoveryEvent.leaf

def Call.insertion : Call → Option (Address × BytesN 32)
  | .insert account commitment => some (account, commitment)
  | .insertFor account commitment => some (account, commitment)
  | _ => none

private theorem storedLeaves_append (state : RecoveryState) (event : RecoveryEvent)
    (other : event.leaf = none) :
    (state.events ++ [event]).filterMap RecoveryEvent.leaf = storedLeaves state := by
  rw [List.filterMap_append, List.filterMap_cons_none other, List.filterMap_nil, List.append_nil]
  rfl

/-- An accepted call inserts one leaf or leaves the pool as it was. -/
theorem Outcome.leaves_cases {host : Host} {env : Env} {state state' : RecoveryState} {call : Call}
    (outcome : Outcome host env state call state') :
    (storedLeaves state' = storedLeaves state ∧
      ∀ leaves, PoolHolds host state leaves → PoolHolds host state' leaves) ∨
    ∃ account commitment stored, Inserted host state account commitment state' stored ∧
      call.insertion = some (account, commitment) ∧
      (call = .insert account commitment ∧ env.authorized state.config.factory = true ∨
        call = .insertFor account commitment ∧ env.authorized account = true) ∧
      storedLeaves state' = storedLeaves state ++ [stored] := by
  have appended {account : Address} {commitment stored : BytesN 32}
      (inserted : Inserted host state account commitment state' stored) :
      storedLeaves state' = storedLeaves state ++ [stored] := by
    obtain ⟨_, _, _, _, _, after⟩ := inserted.after
    rw [storedLeaves, after, List.filterMap_append]
    rfl
  cases outcome with
  | insert authorized inserted =>
      exact Or.inr ⟨_, _, _, inserted, rfl, Or.inl ⟨rfl, authorized⟩, appended inserted⟩
  | insertFor authorized inserted =>
      exact Or.inr ⟨_, _, _, inserted, rfl, Or.inr ⟨rfl, authorized⟩, appended inserted⟩
  | initiate initiated =>
      obtain ⟨_, after⟩ := initiated.after
      left
      rw [storedLeaves, after]
      exact ⟨storedLeaves_append state _ rfl, fun leaves holds => holds.congr rfl rfl rfl rfl⟩
  | cancel cancelled =>
      obtain ⟨_, after⟩ := cancelled.after
      left
      rw [storedLeaves, after]
      exact ⟨storedLeaves_append state _ rfl, fun leaves holds => holds.congr rfl rfl rfl rfl⟩
  | burn burned =>
      left
      rw [storedLeaves, burned.after]
      exact ⟨storedLeaves_append state _ rfl, fun leaves holds => holds.congr rfl rfl rfl rfl⟩
  | install installed =>
      left
      rw [storedLeaves, installed.after]
      exact ⟨rfl, fun leaves holds => holds.congr rfl rfl rfl rfl⟩
  | complete completed =>
      left
      rw [storedLeaves, completed.after]
      exact ⟨storedLeaves_append state _ rfl, fun leaves holds => holds.congr rfl rfl rfl rfl⟩

namespace Deployment

variable {deployment : Deployment} {run : List Invocation}

theorem poolHolds_stateAt (deployment : Deployment) (run : List Invocation) (time : Nat) :
    PoolHolds deployment.host (deployment.stateAt run time)
      (storedLeaves (deployment.stateAt run time)) := by
  refine invariant (fun state => PoolHolds deployment.host state (storedLeaves state))
    (PoolHolds.construct deployment.host deployment.config) ?_ time
  intro time invocation accepted holds
  rcases accepted.outcome.leaves_cases with
    ⟨same, keeps⟩ | ⟨_, _, stored, inserted, _, _, appended⟩
  · rw [same]
    exact keeps _ holds
  · rw [appended]
    exact (inserted.appends _ holds).2

/-- Call number `time` has inserted a leaf at a position, for an account and
with a commitment, under the authority that such a call requires. -/
structure Enrols (deployment : Deployment) (run : List Invocation) (time index : Nat)
    (account : Address) (commitment leaf : BytesN 32) : Prop where
  accepted : ∃ invocation, deployment.Accepts run time invocation ∧
    (invocation.call = .insert account commitment ∧
        invocation.authorized deployment.config.factory = true ∨
      invocation.call = .insertFor account commitment ∧ invocation.authorized account = true)
  canonical : commitment.value < fieldOrder
  wrapped : wrapLeaf deployment.host account commitment = .ok leaf
  position : (storedLeaves (deployment.stateAt run time)).length = index

theorem leaf_origin {time index : Nat} {leaf : BytesN 32}
    (found : (storedLeaves (deployment.stateAt run time))[index]? = some leaf) :
    ∃ earlier < time, ∃ account commitment,
      Enrols deployment run earlier index account commitment leaf := by
  obtain ⟨earlier, before, invocation, accepted, absent, since⟩ :=
    established (fun state => (storedLeaves state)[index]? = some leaf)
      (fun impossible => by cases impossible) found
  have after := since (earlier + 1) (Nat.lt_succ_self earlier) before
  rcases accepted.outcome.leaves_cases with
    ⟨same, _⟩ | ⟨account, commitment, stored, inserted, _, authority, appended⟩
  · rw [same] at after
    exact absurd after absent
  · have length : (storedLeaves (deployment.stateAt run earlier)).length = index ∧
        stored = leaf := by
      rw [appended, List.getElem?_append] at after
      split at after
      · exact absurd after absent
      · rename_i beyond
        obtain ⟨inside, isLeaf⟩ := List.getElem?_eq_some_iff.mp after
        rw [List.length_singleton] at inside
        refine ⟨by omega, ?_⟩
        rw [← isLeaf, List.getElem_singleton]
    rw [config_stateAt] at authority
    obtain ⟨position, rfl⟩ := length
    exact ⟨earlier, before, account, commitment,
      ⟨⟨invocation, accepted, authority⟩, inserted.canonical, inserted.wrapped, position⟩⟩

end Deployment

/-! ### The contract's hashes, read as field elements -/

theorem hash2_toFr (host : Host) (left right : BytesN 32) :
    (hash2 host left right).toFr = Circuit.hash2 host.poseidon2Hash left.toFr right.toFr := by
  rw [hash2, p2, Fr.toBytes_toFr]
  rfl

theorem treeRoot_toFr (host : Host) (leaves : List (BytesN 32)) :
    (treeRoot host leaves).toFr =
      HashTree.root (Circuit.hash2 host.poseidon2Hash) 0 depth (leaves.map BytesN.toFr) := by
  have zero : (BytesN.zero 32).toFr = 0 := by decide
  rw [treeRoot, root_map _ _ BytesN.toFr (hash2_toFr host), zero]

def wrapInputs (id commitment : BytesN 32) : List Fr :=
  [domBind, (split16 id).1, (split16 id).2, u256FromBytes32 commitment].map toFr

def nullifierInputs (id secret : BytesN 32) : List Fr :=
  [domNull, (split16 id).1, (split16 id).2, u256FromBytes32 secret].map toFr

theorem wrapLeaf_toFr {host : Host} {id commitment leaf : BytesN 32}
    (wrapped : wrapLeaf host (.contract id) commitment = .ok leaf) :
    leaf.toFr = host.poseidon2Hash (wrapInputs id commitment) := by
  obtain ⟨id', same, isLeaf⟩ := wrapLeaf_eq_ok.mp wrapped
  cases same
  rw [isLeaf, p2, Fr.toBytes_toFr]
  rfl

theorem halves_injective {id id' : BytesN 32}
    (high : toFr (split16 id).1 = toFr (split16 id').1)
    (low : toFr (split16 id).2 = toFr (split16 id').2) : id = id' := by
  have canonical := split16_lt id
  have canonical' := split16_lt id'
  exact split16_injective
    (Prod.ext (toFr_inj canonical.1 canonical'.1 high) (toFr_inj canonical.2 canonical'.2 low))

/-! ### An ideal hash and an ideal proof system, as far as a run shows them -/

/-- Two queried lists of one length with one hash are one list. -/
def CollisionFreeOn (hash : List Fr → Fr) (queried : Set (List Fr)) : Prop :=
  ∀ left ∈ queried, ∀ right ∈ queried, left.length = right.length → hash left = hash right →
    left = right

/-- Every list that the contract or a prover has hashed is in `queried`. -/
structure IdealOn (deployment : Deployment) (run : List Invocation) (queried : Set (List Fr)) :
    Prop where
  collisionFree : CollisionFreeOn deployment.host.poseidon2Hash queried
  notEmptyLeaf : ∀ inputs ∈ queried, inputs.length = 4 → deployment.host.poseidon2Hash inputs ≠ 0
  trees : ∀ time count, PairsWithin (Circuit.hash2 deployment.host.poseidon2Hash)
    (fun pair => [pair.1, pair.2] ∈ queried)
    (padded 0 (((storedLeaves (deployment.stateAt run time)).take count).map BytesN.toFr)) depth
  wraps : ∀ time index id commitment leaf,
    deployment.Enrols run time index (.contract id) commitment leaf →
    wrapInputs id commitment ∈ queried
  hashes : deployment.authPreimages run ⊆ queried
  extracted : ∀ time invocation authorization proof authHash,
    deployment.Accepts run time invocation →
    invocation.call.authorization = some (authorization, proof) →
    authorization.authHash deployment.host deployment.self deployment.config = .ok authHash →
    ∃ witness, Satisfied deployment.host.poseidon2Hash authorization.root.toFr
        authorization.nullifier.toFr authHash.toFr witness ∧
      ∀ inputs ∈ witness.queries deployment.host.poseidon2Hash, inputs ∈ queried

section Opening

variable {deployment : Deployment} {run : List Invocation} {queried : Set (List Fr)}
  {witness : Witness} {root nullifier : Fr}

theorem account_bound (collisionFree : CollisionFreeOn deployment.host.poseidon2Hash queried)
    (hashes : deployment.authPreimages run ⊆ queried) {time : Nat}
    {invocation : Invocation} {authorization : Authorization} {proof : Bytes}
    {authHash : BytesN 32} (accepted : deployment.Accepts run time invocation)
    (carries : invocation.call.authorization = some (authorization, proof))
    (hashed : authorization.authHash deployment.host deployment.self deployment.config =
      .ok authHash)
    (satisfied : Satisfied deployment.host.poseidon2Hash root nullifier authHash.toFr witness)
    (asked : ∀ inputs ∈ witness.queries deployment.host.poseidon2Hash, inputs ∈ queried) :
    ∃ accountId, authorization.account = .contract accountId ∧
      witness.acctHi = toFr (split16 accountId).1 ∧ witness.acctLo = toFr (split16 accountId).2 := by
  obtain ⟨accountId, controllerId, isAccount, isController, isHash⟩ :=
    computeAuthHash_eq_ok.mp hashed
  have preimage := hashes ⟨time, invocation, authorization, proof, accountId, controllerId,
    accepted, carries, isAccount, isController, rfl⟩
  have query := asked witness.authInputs (by simp [Witness.queries])
  have sameHash := satisfied.2.2
  rw [isHash, p2, Fr.toBytes_toFr] at sameHash
  have lengths : witness.authInputs.length = 15 := rfl
  have same := collisionFree _ query _ preimage (by rw [lengths, List.length_map]; rfl)
    sameHash
  simp only [Witness.authInputs, authLimbs, List.map_cons, List.cons.injEq] at same
  exact ⟨accountId, isAccount, same.2.2.1, same.2.2.2.1⟩

/-- The path of the witness ends at an inserted leaf, which is its own. -/
theorem IdealOn.leaf_bound (ideal : IdealOn deployment run queried) {authHash : Fr} {time count : Nat}
    (satisfied : Satisfied deployment.host.poseidon2Hash
      (treeRoot deployment.host ((storedLeaves (deployment.stateAt run time)).take count)).toFr
      nullifier authHash witness)
    (asked : ∀ inputs ∈ witness.queries deployment.host.poseidon2Hash, inputs ∈ queried) :
    ∃ (index : Nat) (leaf : BytesN 32),
      ((storedLeaves (deployment.stateAt run time)).take count)[index]? = some leaf ∧
      leaf.toFr = witness.stored deployment.host.poseidon2Hash := by
  have pairs : Set.InjOn
      (fun pair : Fr × Fr => Circuit.hash2 deployment.host.poseidon2Hash pair.1 pair.2)
      (fun pair => [pair.1, pair.2] ∈ queried) := by
    intro left isLeft right isRight same
    have sameList := ideal.collisionFree _ isLeft _ isRight rfl same
    simp only [List.cons.injEq, and_true] at sameList
    exact Prod.ext sameList.1 sameList.2
  have onPath : ∀ pair ∈ climbPairs (Circuit.hash2 deployment.host.poseidon2Hash)
      (witness.stored deployment.host.poseidon2Hash) witness.path,
      [pair.1, pair.2] ∈ queried := by
    intro pair member
    apply asked
    rw [Witness.queries, List.mem_append, List.mem_map]
    exact Or.inr ⟨pair, member, rfl⟩
  have climbs := satisfied.climbs
  rw [treeRoot_toFr] at climbs
  have bottom := climb_binding _ pairs (ideal.trees time count) witness.path _ 0
    (by rw [Nat.zero_add, witness.path_length]; rfl) onPath climbs
  rw [node, padded, List.getD_eq_getElem?_getD, List.getElem?_map] at bottom
  cases found : ((storedLeaves (deployment.stateAt run time)).take count)[pathIndex
      witness.path]? with
  | none =>
      -- an empty leaf would be the hash of the witness
      rw [found] at bottom
      refine absurd bottom (ideal.notEmptyLeaf _ (asked _ ?_) rfl)
      simp [Witness.queries]
  | some leaf =>
      rw [found] at bottom
      exact ⟨pathIndex witness.path, leaf, found, bottom.symm⟩

/-- A leaf that is the witness's own was enrolled for the witness's account, with
the commitment of the witness's secret. -/
theorem IdealOn.enrolment_bound (ideal : IdealOn deployment run queried) {time index : Nat}
    {account : Address} {accountId commitment leaf : BytesN 32}
    (enrols : deployment.Enrols run time index account commitment leaf)
    (own : leaf.toFr = witness.stored deployment.host.poseidon2Hash)
    (high : witness.acctHi = toFr (split16 accountId).1)
    (low : witness.acctLo = toFr (split16 accountId).2)
    (asked : ∀ inputs ∈ witness.queries deployment.host.poseidon2Hash, inputs ∈ queried) :
    account = .contract accountId ∧
      commitment = leafInner deployment.host (Fr.toBytes witness.secret) := by
  obtain ⟨id, isAccount, _⟩ := wrapLeaf_eq_ok.mp enrols.wrapped
  subst account
  have wrapped := wrapLeaf_toFr enrols.wrapped
  rw [own] at wrapped
  have query := asked (witness.storedInputs deployment.host.poseidon2Hash)
    (by simp [Witness.queries])
  have lengths : (witness.storedInputs deployment.host.poseidon2Hash).length = 4 := rfl
  have same := ideal.collisionFree _ query _ (ideal.wraps time index id commitment leaf enrols)
    (by rw [lengths, wrapInputs, List.length_map]; rfl) wrapped
  simp only [Witness.storedInputs, wrapInputs, List.map_cons, List.cons.injEq] at same
  obtain ⟨_, sameHigh, sameLow, sameInner, _⟩ := same
  rw [high] at sameHigh
  rw [low] at sameLow
  refine ⟨by rw [halves_injective sameHigh sameLow], ?_⟩
  have secret : toFr (u256FromBytes32 (Fr.toBytes witness.secret)) = witness.secret :=
    Fr.toBytes_toFr witness.secret
  have inner : leafInner deployment.host (Fr.toBytes witness.secret) =
      Fr.toBytes (witness.inner deployment.host.poseidon2Hash) := by
    rw [leafInner, p2, List.map_cons, List.map_cons, List.map_nil, secret]
    rfl
  apply BytesN.value_injective
  rw [inner, sameInner, Fr.toBytes_value]
  exact (toFr_of_lt enrols.canonical).symm

theorem nullifier_bound {hash : List Fr → Fr} {authHash : Fr} {accountId : BytesN 32}
    (satisfied : Satisfied hash root nullifier authHash witness)
    (high : witness.acctHi = toFr (split16 accountId).1)
    (low : witness.acctLo = toFr (split16 accountId).2) :
    nullifier = hash (nullifierInputs accountId (Fr.toBytes witness.secret)) := by
  have secret : toFr (u256FromBytes32 (Fr.toBytes witness.secret)) = witness.secret :=
    Fr.toBytes_toFr witness.secret
  rw [← satisfied.2.1, Witness.nullifierInputs, nullifierInputs, List.map_cons, List.map_cons,
    List.map_cons, List.map_cons, List.map_nil, secret, high, low]
  rfl

end Opening

/-- The operation of call number `time` rests on an earlier enrolment of the same
account with the commitment of one secret. -/
structure RestsOn (deployment : Deployment) (run : List Invocation) (time : Nat)
    (authorization : Authorization) (secret : BytesN 32) (earlier index count : Nat)
    (leaf : BytesN 32) : Prop where
  before : earlier < time
  enrols : deployment.Enrols run earlier index authorization.account
    (leafInner deployment.host secret) leaf
  recent : Recent (storedLeaves (deployment.stateAt run time)) count
  root : authorization.root =
    treeRoot deployment.host ((storedLeaves (deployment.stateAt run time)).take count)
  inTree : ((storedLeaves (deployment.stateAt run time)).take count)[index]? = some leaf
  nullifier : ∃ word, computeNullifier deployment.host authorization.account secret = .ok word ∧
    authorization.nullifier.value % fieldOrder = word.value

theorem operation_rests_on_enrolment (deployment : Deployment) (run : List Invocation)
    (queried : Set (List Fr)) (ideal : IdealOn deployment run queried) (time : Nat)
    (invocation : Invocation) (authorization : Authorization) (proof : Bytes)
    (accepted : deployment.Accepts run time invocation)
    (carries : invocation.call.authorization = some (authorization, proof)) :
    ∃ secret earlier index count leaf,
      RestsOn deployment run time authorization secret earlier index count leaf := by
  have authorized := accepted.outcome.authorized carries
  have holds := deployment.poolHolds_stateAt run time
  obtain ⟨known, answers, exactly⟩ := isKnownRoot_spec holds authorization.root
  rw [authorized.knownRoot] at answers
  cases answers
  obtain ⟨count, recent, isRoot⟩ := exactly.mp rfl
  obtain ⟨authHash, hashed, _⟩ := authorized.verified
  rw [Deployment.config_stateAt] at hashed
  obtain ⟨witness, satisfied, asked⟩ :=
    ideal.extracted time invocation authorization proof authHash accepted carries hashed
  obtain ⟨accountId, isAccount, high, low⟩ :=
    account_bound ideal.collisionFree ideal.hashes accepted carries hashed satisfied asked
  have nullifier := nullifier_bound satisfied high low
  rw [isRoot] at satisfied
  obtain ⟨index, leaf, inTree, own⟩ := ideal.leaf_bound satisfied asked
  have stored : (storedLeaves (deployment.stateAt run time))[index]? = some leaf := by
    rw [List.getElem?_take] at inTree
    split at inTree
    · exact inTree
    · cases inTree
  obtain ⟨earlier, before, account, commitment, enrols⟩ := Deployment.leaf_origin stored
  obtain ⟨sameAccount, isCommitment⟩ := ideal.enrolment_bound enrols own high low asked
  rw [sameAccount, isCommitment, ← isAccount] at enrols
  refine ⟨Fr.toBytes witness.secret, earlier, index, count, leaf, before, enrols, recent, isRoot,
    inTree, ?_⟩
  refine ⟨_, computeNullifier_eq_ok.mpr ⟨accountId, isAccount, rfl⟩, ?_⟩
  rw [p2, Fr.toBytes_value]
  change _ = (deployment.host.poseidon2Hash (nullifierInputs accountId _)).val
  rw [← nullifier]
  rfl

/-! ### The recorded recovery is ideal -/

namespace Reference

def witness : Witness := decodeWitness (prove secret emptySiblings leftmost accountId initiating)

def queried : List (List Fr) :=
  emptySiblings.map (fun sibling => [sibling, sibling]) ++ witness.queries poseidon2Hash

theorem emptyNode_toFr (level : Nat) :
    (emptyNode (hash2 host) (BytesN.zero 32) level).toFr =
      emptyNode (Circuit.hash2 poseidon2Hash) 0 level := by
  induction level with
  | zero => decide
  | succ level ih => rw [emptyNode, hash2_toFr, ih, emptyNode]; rfl

theorem emptySiblings_eq :
    emptySiblings = (List.range' 0 depth).map (emptyNode (Circuit.hash2 poseidon2Hash) 0) := by
  apply List.ext_getElem?
  intro level
  rw [emptySiblings, List.getElem?_map, List.getElem?_map, List.getElem?_take]
  split
  · rename_i inDepth
    rw [zeroChain, zeroChainFrom_get host depth level _ (Nat.le_of_lt inDepth), Option.map_some,
      emptyNode_toFr, List.getElem?_range' inDepth]
    simp
  · rename_i beyond
    rw [List.getElem?_eq_none (by rw [List.length_range']; omega)]
    rfl

private theorem empties_queried (level : Nat) (inDepth : level < depth) :
    [emptyNode (Circuit.hash2 poseidon2Hash) 0 level,
      emptyNode (Circuit.hash2 poseidon2Hash) 0 level] ∈ queried := by
  rw [queried, List.mem_append, List.mem_map]
  refine Or.inl ⟨_, ?_, rfl⟩
  rw [emptySiblings_eq, List.mem_map]
  exact ⟨level, List.mem_range'_1.mpr ⟨Nat.zero_le _, by omega⟩, rfl⟩

private theorem spines_queried (level : Nat) (inDepth : level < depth) :
    [spine (Circuit.hash2 poseidon2Hash) 0 (witness.stored poseidon2Hash) level,
      emptyNode (Circuit.hash2 poseidon2Hash) 0 level] ∈ queried := by
  have path : witness.path = emptySiblings.map (fun sibling => (false, sibling)) := by
    decide +kernel
  rw [queried, List.mem_append]
  right
  rw [Witness.queries, List.mem_append, List.mem_map]
  refine Or.inr ⟨(_, _), ?_, rfl⟩
  rw [path, emptySiblings_eq, List.map_map]
  have pairs := climbPairs_spine (Circuit.hash2 poseidon2Hash) 0 (witness.stored poseidon2Hash) 0
    depth
  rw [spine] at pairs
  change _ ∈ climbPairs _ _ ((List.range' 0 depth).map
    (fun step => (false, emptyNode (Circuit.hash2 poseidon2Hash) 0 step)))
  rw [pairs, List.mem_map]
  exact ⟨level, List.mem_range'_1.mpr ⟨Nat.zero_le _, by omega⟩, rfl⟩

private theorem enrols_only {time index : Nat} {account' : Address} {commitment' leaf : BytesN 32}
    (enrols : deployment.Enrols recovery time index account' commitment' leaf) :
    time = 1 ∧ account' = account ∧ commitment' = commitment := by
  obtain ⟨invocation, accepted, authority⟩ := enrols.accepted
  have present := accepted.input_at
  match time, present with
  | 0, present =>
      cases present
      rcases authority with ⟨made, _⟩ | ⟨made, _⟩ <;> cases made
  | 1, present =>
      cases present
      rcases authority with ⟨made, _⟩ | ⟨made, _⟩
      · cases made
      · cases made
        exact ⟨rfl, rfl, rfl⟩
  | 2, present =>
      cases present
      rcases authority with ⟨made, _⟩ | ⟨made, _⟩ <;> cases made
  | 3, present =>
      cases present
      rcases authority with ⟨made, _⟩ | ⟨made, _⟩ <;> cases made
  | time + 4, present => cases present

private theorem carries_only {time : Nat} {invocation : Invocation}
    {authorization : Authorization} {proof : Bytes}
    (accepted : deployment.Accepts recovery time invocation)
    (carries : invocation.call.authorization = some (authorization, proof)) :
    authorization = initiating ∧ proof = prove secret emptySiblings leftmost accountId initiating := by
  have member := List.mem_of_getElem? accepted.input_at
  simp only [recovery, List.mem_cons, List.not_mem_nil, or_false] at member
  rcases member with rfl | rfl | rfl | rfl
  · cases carries
  · cases carries
  · cases carries
    exact ⟨rfl, rfl⟩
  · cases carries

private theorem leaf_only {time index : Nat} {leaf : BytesN 32}
    (found : (storedLeaves (deployment.stateAt recovery time))[index]? = some leaf) :
    index = 0 ∧ leaf.toFr = witness.stored poseidon2Hash := by
  obtain ⟨earlier, _, account', commitment', enrols⟩ := Deployment.leaf_origin found
  obtain ⟨rfl, rfl, rfl⟩ := enrols_only enrols
  have start : (storedLeaves (deployment.stateAt recovery 1)).length = 0 := by decide +kernel
  have inputs : wrapInputs accountId commitment = witness.storedInputs poseidon2Hash := by
    decide +kernel
  refine ⟨by rw [← enrols.position, start], ?_⟩
  rw [wrapLeaf_toFr enrols.wrapped, inputs]
  rfl

private theorem leaves_short (time count : Nat) :
    ((storedLeaves (deployment.stateAt recovery time)).take count).map BytesN.toFr = [] ∨
      ((storedLeaves (deployment.stateAt recovery time)).take count).map BytesN.toFr =
        [witness.stored poseidon2Hash] := by
  cases leaves : (storedLeaves (deployment.stateAt recovery time)).take count with
  | nil => exact Or.inl rfl
  | cons leaf rest =>
      have inside (index : Nat) (other : BytesN 32)
          (found : ((storedLeaves (deployment.stateAt recovery time)).take count)[index]? =
            some other) : index = 0 ∧ other.toFr = witness.stored poseidon2Hash := by
        rw [List.getElem?_take] at found
        split at found
        · exact leaf_only found
        · cases found
      have first := inside 0 leaf (by rw [leaves]; rfl)
      cases rest with
      | nil =>
          right
          rw [List.map_cons, first.2]
          rfl
      | cons second more =>
          have impossible := inside 1 second (by rw [leaves]; rfl)
          exact absurd impossible.1 (by decide)

theorem ideal : IdealOn deployment recovery (fun inputs => inputs ∈ queried) where
  collisionFree := by
    have distinct : (queried.map poseidon2Hash).Nodup := by decide +kernel
    intro left isLeft right isRight _lengths same
    exact List.inj_on_of_nodup_map distinct isLeft isRight same
  notEmptyLeaf := by
    have nonzero : ∀ inputs ∈ queried, poseidon2Hash inputs ≠ 0 := by decide +kernel
    intro inputs member _length
    exact nonzero inputs member
  trees := fun time count =>
    pairsWithin_of_single _ (leaves_short time count) empties_queried spines_queried
  wraps := by
    have member : wrapInputs accountId commitment ∈ queried := by decide +kernel
    intro time index id commitment' leaf enrols
    obtain ⟨_, sameAccount, rfl⟩ := enrols_only enrols
    cases sameAccount
    exact member
  hashes := by
    have member : authPreimage accountId initiating ∈ queried := by decide +kernel
    intro preimage hashed
    obtain ⟨time, invocation, authorization, proof, id, controller, accepted, carries, isAccount,
      isController, rfl⟩ := hashed
    obtain ⟨rfl, rfl⟩ := carries_only accepted carries
    cases isAccount
    cases isController
    exact member
  extracted := by
    intro time invocation authorization proof authHash accepted carries hashed
    obtain ⟨_, hashed', verified⟩ := (accepted.outcome.authorized carries).verified
    rw [Deployment.config_stateAt] at hashed'
    have sameHash := Except.ok.inj (hashed.symm.trans hashed')
    obtain ⟨isAuthorization, isProof⟩ := carries_only accepted carries
    rw [← sameHash, isProof] at verified
    refine ⟨witness, (verifies_iff _ _ _ authHash _).mp verified, ?_⟩
    intro inputs member
    exact List.mem_append_right _ member

end Reference

theorem operation_rests_on_enrolment_recovery :
    ∃ secret earlier index count leaf,
      RestsOn Reference.deployment Reference.recovery 2 Reference.initiating secret earlier index
        count leaf := by
  have accepted : Reference.deployment.Accepts Reference.recovery 2
      (Reference.anyone 200 Reference.initiation) :=
    Deployment.accepts_of_isSome rfl (by decide +kernel)
  exact operation_rests_on_enrolment Reference.deployment Reference.recovery
    (fun inputs => inputs ∈ Reference.queried) Reference.ideal 2 _ Reference.initiating _ accepted
    rfl

end Nido.ZkRecovery
