/-
What the frontend hands to the prover, and what the contract makes of it.

The three proof-carrying actions sync the pool, locate the caller's leaf, and
assemble the circuit's input map, every number written as a hex string. Reading
those strings back is the business of the prover's input parser, which is not
part of this repository; it enters as a parameter.
-/

import Nido.Sdk.PoolSync
import Nido.ZkRecovery.Reference

namespace Nido.Frontend

open Sdk HashTree

structure PoolWitness where
  index : Nat
  siblings : List Int
  bits : List Nat
  root : Int

/-- A snapshot that does not rebuild the contract's own root is refused. -/
def syncPoolAndLocate (poseidon2Hash : List Fr → Fr) (incoming : List Leaf) (onChainRoot : Int)
    (myStoredLeaf : Bytes) : Js (Option PoolWitness) := do
  let merged ← mergeLeaves [] incoming
  let verified ← verifyAgainstOnChainRoot poseidon2Hash merged onChainRoot
  if ¬ verified = true then
    .error ("syncPoolAndLocate: rebuilt Merkle root does not match the contract's on-chain " ++
      "root -- refusing to trust an unverified pool snapshot.")
  else do
    let located ← locateLeaf poseidon2Hash merged myStoredLeaf
    match located with
    | none => pure none
    | some located =>
        pure (some
          { index := located.index, siblings := located.siblings, bits := located.bits,
            root := onChainRoot })

structure PubkeyFields where
  pkPrefix : Int
  pkXHi : Int
  pkXLo : Int
  pkYHi : Int
  pkYLo : Int

def pubkeyFields (newPubkey65 : Option Bytes) : Js PubkeyFields :=
  match newPubkey65 with
  | none => .ok { pkPrefix := 0, pkXHi := 0, pkXLo := 0, pkYHi := 0, pkYLo := 0 }
  | some newPubkey65 =>
      if newPubkey65.length ≠ 65 then
        .error ("pubkeyFields: expected a 65-byte SEC1 uncompressed pubkey, got " ++
          toString newPubkey65.length)
      else do
        let pkPrefix ← u256FromU64 (newPubkey65.getD 0 0).toNat
        let (pkXHi, pkXLo) ← split16 ((newPubkey65.drop 1).take 32)
        let (pkYHi, pkYLo) ← split16 ((newPubkey65.drop 33).take 32)
        pure { pkPrefix, pkXHi, pkXLo, pkYHi, pkYLo }

/-- `x.toString(16)` of a bigint. -/
def toString16 (x : Int) : String :=
  (if x < 0 then "-" else "") ++ String.ofList (Nat.toDigits 16 x.natAbs)

def frToNoirField (x : Int) : String := "0x" ++ toString16 x

structure NoirInputMap where
  root : String
  nullifier : String
  authHash : String
  secret : String
  acctHi : String
  acctLo : String
  pathSiblings : List String
  pathBits : List String
  action : String
  npassHi : String
  npassLo : String
  ctrlHi : String
  ctrlLo : String
  pkPrefix : String
  pkXHi : String
  pkXLo : String
  pkYHi : String
  pkYLo : String
  nonce : String
  timelockSecs : String

structure AssembleInputsArgs where
  action : Int
  accountId32 : Bytes
  controllerId32 : Bytes
  secret : Int
  root : Int
  siblings : List Int
  bits : List Nat
  nullifier : Int
  newPubkey65 : Option Bytes
  nonce : Int
  timelockSecs : Int

section Client

variable (poseidon2Hash : List Fr → Fr) (sha256 : Bytes → BytesN 32) (networkPassphrase : String)

def assembleCircuitInputs (a : AssembleInputsArgs) : Js (NoirInputMap × Int) := do
  let (acctHi, acctLo) ← split16 a.accountId32
  let (ctrlHi, ctrlLo) ← split16 a.controllerId32
  let (npassHi, npassLo) ← split16 (sha256 networkPassphrase.toUTF8.toList).data
  let pubkey ← pubkeyFields a.newPubkey65
  let authHash ← (computeAuthHash poseidon2Hash sha256
    { action := a.action, accountId32 := a.accountId32, networkPassphrase,
      controllerId32 := a.controllerId32, newPubkey65 := a.newPubkey65, nonce := a.nonce,
      timelockSecs := a.timelockSecs }).map bigint
  let inputs : NoirInputMap :=
    { root := frToNoirField a.root
      nullifier := frToNoirField a.nullifier
      authHash := frToNoirField authHash
      secret := frToNoirField a.secret
      acctHi := frToNoirField acctHi
      acctLo := frToNoirField acctLo
      pathSiblings := a.siblings.map frToNoirField
      pathBits := a.bits.map (fun b : Nat => frToNoirField b)
      action := frToNoirField a.action
      npassHi := frToNoirField npassHi
      npassLo := frToNoirField npassLo
      ctrlHi := frToNoirField ctrlHi
      ctrlLo := frToNoirField ctrlLo
      pkPrefix := frToNoirField pubkey.pkPrefix
      pkXHi := frToNoirField pubkey.pkXHi
      pkXLo := frToNoirField pubkey.pkXLo
      pkYHi := frToNoirField pubkey.pkYHi
      pkYLo := frToNoirField pubkey.pkYLo
      nonce := frToNoirField a.nonce
      timelockSecs := frToNoirField a.timelockSecs }
  pure (inputs, authHash)

/-- What the prover is given, with the two words that the contract call repeats. -/
structure ProofRequest where
  inputs : NoirInputMap
  root : Bytes
  nullifier : Bytes

/-- What is common to the actions: `incoming`, `onChainRoot` and `nonce` are the
answers of the network. -/
def proofRequest (leafNotFound : String) (action : Int) (accountId32 controllerId32 : Bytes)
    (secret : Int) (newPubkey65 : Option Bytes) (timelockSecs : Int) (incoming : List Leaf)
    (onChainRoot nonce : Int) : Js ProofRequest := do
  let inner ← wrapLeafInner poseidon2Hash secret
  let storedLeaf ← wrapLeafStored poseidon2Hash accountId32 inner
  let myStoredLeaf ← fieldToBytes32 storedLeaf
  let located ← syncPoolAndLocate poseidon2Hash incoming onChainRoot myStoredLeaf
  match located with
  | none => .error leafNotFound
  | some located => do
      let nullifierFr ← computeNullifier poseidon2Hash accountId32 secret
      let (inputs, _) ← assembleCircuitInputs poseidon2Hash sha256 networkPassphrase
        { action, accountId32, controllerId32, secret, root := located.root,
          siblings := located.siblings, bits := located.bits, nullifier := nullifierFr,
          newPubkey65, nonce, timelockSecs }
      let root ← fieldToBytes32 located.root
      let nullifier ← fieldToBytes32 nullifierFr
      pure { inputs, root, nullifier }

def initiateZkRecovery (accountId32 controllerId32 : Bytes) (secret : Int) (newPubkey65 : Bytes)
    (timelockSecs : Int) (incoming : List Leaf) (onChainRoot nonce : Int) : Js ProofRequest :=
  if newPubkey65.length ≠ 65 then
    .error ("initiateZkRecovery: newPubkey65 must be 65 bytes, got " ++
      toString newPubkey65.length)
  else
    proofRequest poseidon2Hash sha256 networkPassphrase
      "initiateZkRecovery: this account's enrollment leaf was not found in the recovery pool."
      1 accountId32 controllerId32 secret (some newPubkey65) timelockSecs incoming onChainRoot
      nonce

/-- Cancelling is action 2, burning is action 3. -/
def buildOwnerAuthedProofTx (action : Int) (accountId32 controllerId32 : Bytes) (secret : Int)
    (incoming : List Leaf) (onChainRoot nonce : Int) : Js ProofRequest :=
  proofRequest poseidon2Hash sha256 networkPassphrase
    "this account's enrollment leaf was not found in the recovery pool."
    action accountId32 controllerId32 secret none 0 incoming onChainRoot nonce

end Client

section Reading

variable (noirField : String → Option Fr)

/-- The circuit's three public inputs and its witness, as the prover reads an input map. -/
def readInputs (inputs : NoirInputMap) : Option (Fr × Fr × Fr × Circuit.Witness) := do
  let root ← noirField inputs.root
  let nullifier ← noirField inputs.nullifier
  let authHash ← noirField inputs.authHash
  let secret ← noirField inputs.secret
  let acctHi ← noirField inputs.acctHi
  let acctLo ← noirField inputs.acctLo
  let pathSiblings ← inputs.pathSiblings.mapM noirField
  let pathBits ← inputs.pathBits.mapM noirField
  let action ← noirField inputs.action
  let npassHi ← noirField inputs.npassHi
  let npassLo ← noirField inputs.npassLo
  let ctrlHi ← noirField inputs.ctrlHi
  let ctrlLo ← noirField inputs.ctrlLo
  let pkPrefix ← noirField inputs.pkPrefix
  let pkXHi ← noirField inputs.pkXHi
  let pkXLo ← noirField inputs.pkXLo
  let pkYHi ← noirField inputs.pkYHi
  let pkYLo ← noirField inputs.pkYLo
  let nonce ← noirField inputs.nonce
  let timelockSecs ← noirField inputs.timelockSecs
  if sizes : pathSiblings.length = Circuit.depth ∧ pathBits.length = Circuit.depth then
    some (root, nullifier, authHash,
      { secret, acctHi, acctLo, pathSiblings, pathBits, action, npassHi, npassLo, ctrlHi, ctrlLo,
        pkPrefix, pkXHi, pkXLo, pkYHi, pkYLo, nonce, timelockSecs,
        siblings_length := sizes.1, bits_length := sizes.2 })
  else
    none

/-- A canonical number, written by the client, is read back. -/
def ReadsFields : Prop := ∀ scalar : Fr, noirField (frToNoirField (bigint scalar)) = some scalar

def writeInputs (root nullifier authHash : Fr) (witness : Circuit.Witness) : NoirInputMap :=
  let write (scalar : Fr) := frToNoirField (bigint scalar)
  { root := write root
    nullifier := write nullifier
    authHash := write authHash
    secret := write witness.secret
    acctHi := write witness.acctHi
    acctLo := write witness.acctLo
    pathSiblings := witness.pathSiblings.map write
    pathBits := witness.pathBits.map write
    action := write witness.action
    npassHi := write witness.npassHi
    npassLo := write witness.npassLo
    ctrlHi := write witness.ctrlHi
    ctrlLo := write witness.ctrlLo
    pkPrefix := write witness.pkPrefix
    pkXHi := write witness.pkXHi
    pkXLo := write witness.pkXLo
    pkYHi := write witness.pkYHi
    pkYLo := write witness.pkYLo
    nonce := write witness.nonce
    timelockSecs := write witness.timelockSecs }

theorem ReadsFields.list {noirField : String → Option Fr} (reads : ReadsFields noirField)
    (scalars : List Fr) :
    (scalars.map (fun scalar => frToNoirField (bigint scalar))).mapM noirField = some scalars := by
  induction scalars with
  | nil => rfl
  | cons scalar rest ih =>
      rw [List.map_cons, List.mapM_cons, reads scalar, ih]
      rfl

theorem ReadsFields.readInputs_write {noirField : String → Option Fr}
    (reads : ReadsFields noirField) (root nullifier authHash : Fr) (witness : Circuit.Witness) :
    readInputs noirField (writeInputs root nullifier authHash witness) =
      some (root, nullifier, authHash, witness) := by
  have sizes : witness.pathSiblings.length = Circuit.depth ∧
      witness.pathBits.length = Circuit.depth := ⟨witness.siblings_length, witness.bits_length⟩
  unfold readInputs writeInputs
  dsimp only
  simp only [reads _, reads.list, Option.bind_eq_bind, Option.bind_some, dif_pos sizes]

end Reading

/-! ### The honest witness -/

def honestWitness (poseidon2Hash : List Fr → Fr) (values : List Fr) (index : Nat) (secret : Fr)
    (tuple : AuthTuple) : Circuit.Witness :=
  let path := pathOf (Circuit.hash2 poseidon2Hash) (padded 0 values) Circuit.depth 0 index
  let x := ZkRecovery.split16 (ZkRecovery.coordinate tuple.pubkey 1 x_inside)
  let y := ZkRecovery.split16 (ZkRecovery.coordinate tuple.pubkey 33 y_inside)
  { secret
    acctHi := toFr (ZkRecovery.split16 tuple.account).1
    acctLo := toFr (ZkRecovery.split16 tuple.account).2
    pathSiblings := path.map Prod.snd
    pathBits := path.map (fun stage => if stage.1 then 1 else 0)
    action := toFr (ZkRecovery.u256FromU64 tuple.action.toUInt64)
    npassHi := toFr (ZkRecovery.split16 tuple.npassHash).1
    npassLo := toFr (ZkRecovery.split16 tuple.npassHash).2
    ctrlHi := toFr (ZkRecovery.split16 tuple.controller).1
    ctrlLo := toFr (ZkRecovery.split16 tuple.controller).2
    pkPrefix := toFr (ZkRecovery.u256FromU64 (tuple.pubkey.data.getD 0 0).toUInt64)
    pkXHi := toFr x.1
    pkXLo := toFr x.2
    pkYHi := toFr y.1
    pkYLo := toFr y.2
    nonce := toFr (ZkRecovery.u256FromU64 tuple.nonce)
    timelockSecs := toFr (ZkRecovery.u256FromU64 tuple.timelockSecs.toUInt64)
    siblings_length := by rw [List.length_map, pathOf_length]
    bits_length := by rw [List.length_map, pathOf_length] }

section Honest

variable (poseidon2Hash : List Fr → Fr) (values : List Fr) (index : Nat) (secret : Fr)
  (tuple : AuthTuple)

theorem honestWitness_levels :
    (honestWitness poseidon2Hash values index secret tuple).levels =
      (pathOf (Circuit.hash2 poseidon2Hash) (padded 0 values) Circuit.depth 0 index).map
        (fun stage => (stage.2, if stage.1 then 1 else 0)) := by
  unfold Circuit.Witness.levels honestWitness
  dsimp only
  rw [List.zip_map']

def storedLeaf (account : BytesN 32) : Fr :=
  poseidon2Hash [Circuit.domBind, toFr (ZkRecovery.split16 account).1,
    toFr (ZkRecovery.split16 account).2, poseidon2Hash [Circuit.domLeaf, secret]]

def nullifierOf (account : BytesN 32) : Fr :=
  poseidon2Hash [Circuit.domNull, toFr (ZkRecovery.split16 account).1,
    toFr (ZkRecovery.split16 account).2, secret]

/-- A place that holds the leaf, inside the tree, climbs to its root. -/
theorem honestWitness_satisfies
    (placed : values[index]? = some (storedLeaf poseidon2Hash secret tuple.account))
    (inside : index < 2 ^ Circuit.depth) :
    Circuit.Satisfied poseidon2Hash
      (HashTree.root (Circuit.hash2 poseidon2Hash) 0 Circuit.depth values)
      (nullifierOf poseidon2Hash secret tuple.account) (poseidon2Hash tuple.vector)
      (honestWitness poseidon2Hash values index secret tuple) := by
  refine ⟨?_, rfl, rfl⟩
  have leaf : (honestWitness poseidon2Hash values index secret tuple).stored poseidon2Hash =
      node (Circuit.hash2 poseidon2Hash) (padded 0 values) 0 index := by
    rw [node, padded, List.getD_eq_getElem?_getD, placed]
    rfl
  rw [honestWitness_levels, Circuit.computeRoot_path, leaf, climb_pathOf, Nat.zero_add,
    Nat.div_eq_of_lt inside]
  rfl

end Honest

/-! ### What the client assembles -/

theorem bigint_split16 (bytes : BytesN 32) :
    bigint (toFr (ZkRecovery.split16 bytes).1) = ((ZkRecovery.split16 bytes).1 : Nat) ∧
      bigint (toFr (ZkRecovery.split16 bytes).2) = ((ZkRecovery.split16 bytes).2 : Nat) :=
  ⟨bigint_toFr (ZkRecovery.split16_lt bytes).1, bigint_toFr (ZkRecovery.split16_lt bytes).2⟩

theorem bigint_u64 (number : UInt64) :
    bigint (toFr (ZkRecovery.u256FromU64 number)) = (number.toNat : Int) := by
  rw [bigint_toFr (ZkRecovery.u256FromU64_lt number), ZkRecovery.u256FromU64_toNat]

theorem pubkeyFields_eq (newPubkey : Option (BytesN 65)) :
    let pubkey := newPubkey.getD (BytesN.zero 65)
    let x := ZkRecovery.split16 (ZkRecovery.coordinate pubkey 1 x_inside)
    let y := ZkRecovery.split16 (ZkRecovery.coordinate pubkey 33 y_inside)
    pubkeyFields (newPubkey.map BytesN.data) =
      .ok
        { pkPrefix := ((pubkey.data.getD 0 0).toNat : Int)
          pkXHi := (x.1 : Nat)
          pkXLo := (x.2 : Nat)
          pkYHi := (y.1 : Nat)
          pkYLo := (y.2 : Nat) } := by
  cases newPubkey with
  | none => rfl
  | some pubkey =>
      intro whole x y
      have pkPrefix := u256FromU64_eq (pubkey.data.getD 0 0).toUInt64
      rw [UInt8.toNat_toUInt64, ZkRecovery.u256FromU64_toNat, UInt8.toNat_toUInt64] at pkPrefix
      have xHalves := split16_eq (ZkRecovery.coordinate pubkey 1 x_inside)
      have yHalves := split16_eq (ZkRecovery.coordinate pubkey 33 y_inside)
      simp only [ZkRecovery.coordinate] at xHalves yHalves
      simp only [Option.map_some, pubkeyFields, pubkey.size, ne_eq, not_true_eq_false, if_false,
        pkPrefix, xHalves, yHalves]
      rfl

section Assembled

variable (poseidon2Hash : List Fr → Fr) (sha256 : Bytes → BytesN 32) (networkPassphrase : String)
  (action : UInt32) (accountId controllerId : BytesN 32) (newPubkey : Option (BytesN 65))
  (nonce : UInt64) (timelockSecs : UInt32) (values : List Fr) (index : Nat) (secret : Fr)

theorem assembleCircuitInputs_eq (root nullifier : Fr) :
    let tuple := tupleFor sha256 action accountId controllerId networkPassphrase newPubkey nonce
      timelockSecs
    let path := pathOf (Circuit.hash2 poseidon2Hash) (padded 0 values) depth 0 index
    assembleCircuitInputs poseidon2Hash sha256 networkPassphrase
        { action := action.toNat
          accountId32 := accountId.data
          controllerId32 := controllerId.data
          secret := bigint secret
          root := bigint root
          siblings := path.map (fun stage => bigint stage.2)
          bits := path.map (fun stage => stage.1.toNat)
          nullifier := bigint nullifier
          newPubkey65 := newPubkey.map BytesN.data
          nonce := nonce.toNat
          timelockSecs := timelockSecs.toNat } =
      .ok (writeInputs root nullifier (poseidon2Hash tuple.vector)
          (honestWitness poseidon2Hash values index secret tuple),
        bigint (poseidon2Hash tuple.vector)) := by
  intro tuple path
  have authHash := computeAuthHash_vector poseidon2Hash sha256 action accountId controllerId
    networkPassphrase newPubkey nonce timelockSecs
  unfold paramsFor at authHash
  have siblings : (path.map (fun stage => bigint stage.2)).map frToNoirField =
      (path.map Prod.snd).map (fun scalar => frToNoirField (bigint scalar)) := by
    rw [List.map_map, List.map_map]
    rfl
  have bits : (path.map (fun stage => stage.1.toNat)).map (fun b : Nat => frToNoirField b) =
      (path.map (fun stage => if stage.1 then (1 : Fr) else 0)).map
        (fun scalar => frToNoirField (bigint scalar)) := by
    rw [List.map_map, List.map_map]
    apply List.map_congr_left
    intro stage _
    dsimp only [Function.comp]
    cases stage.1 <;> rfl
  unfold assembleCircuitInputs
  dsimp only
  rw [split16_eq, split16_eq, split16_eq, pubkeyFields_eq, authHash, siblings, bits]
  unfold writeInputs honestWitness
  dsimp only [bind, Except.bind, pure, Except.pure, Except.map]
  simp only [(bigint_split16 _).1, (bigint_split16 _).2, bigint_u64, UInt32.toNat_toUInt64,
    UInt8.toNat_toUInt64]
  rfl

/-- A snapshot of the pool is verified, and a leaf in it is located. -/
theorem syncPoolAndLocate_eq {incoming : List Leaf} {onChainRoot : Int} {mine : Fr}
    (lists : Lists incoming (values.map word))
    (current : rebuildRoot poseidon2Hash incoming = .ok onChainRoot) (enrolled : mine ∈ values) :
    ∃ index, values[index]? = some mine ∧
      syncPoolAndLocate poseidon2Hash incoming onChainRoot (word mine) =
        .ok (some
          { index
            siblings := (pathOf (Circuit.hash2 poseidon2Hash) (padded 0 values) depth 0 index).map
              (fun stage => bigint stage.2)
            bits := (pathOf (Circuit.hash2 poseidon2Hash) (padded 0 values) depth 0 index).map
              (fun stage => stage.1.toNat)
            root := onChainRoot }) := by
  have fits := rebuildRoot_fits poseidon2Hash lists current
  rw [List.length_map] at fits
  have merged := Lists.indexed (values.map word)
  obtain ⟨index, placed, located⟩ := locateLeaf_words poseidon2Hash fits merged enrolled
  refine ⟨index, placed, ?_⟩
  rw [rebuildRoot_words poseidon2Hash fits lists] at current
  rw [syncPoolAndLocate, merged_words fits lists]
  dsimp only [bind, Except.bind]
  rw [verifyAgainstOnChainRoot, rebuildRoot_words poseidon2Hash fits merged, current]
  dsimp only [bind, Except.bind, pure, Except.pure]
  rw [if_neg (by simp), located]

theorem proofRequest_eq {incoming : List Leaf} {onChainRoot : Int}
    (lists : Lists incoming (values.map word))
    (current : rebuildRoot poseidon2Hash incoming = .ok onChainRoot)
    (enrolled : storedLeaf poseidon2Hash secret accountId ∈ values) :
    let tuple := tupleFor sha256 action accountId controllerId networkPassphrase newPubkey nonce
      timelockSecs
    let root := HashTree.root (Circuit.hash2 poseidon2Hash) 0 depth values
    let nullifier := nullifierOf poseidon2Hash secret accountId
    ∃ index, values[index]? = some (storedLeaf poseidon2Hash secret accountId) ∧
      ∀ leafNotFound, proofRequest poseidon2Hash sha256 networkPassphrase leafNotFound
          action.toNat accountId.data controllerId.data (bigint secret)
          (newPubkey.map BytesN.data) timelockSecs.toNat incoming onChainRoot nonce.toNat =
        .ok
          { inputs := writeInputs root nullifier (poseidon2Hash tuple.vector)
              (honestWitness poseidon2Hash values index secret tuple)
            root := word root
            nullifier := word nullifier } := by
  intro tuple root nullifier
  obtain ⟨index, placed, synced⟩ :=
    syncPoolAndLocate_eq poseidon2Hash values lists current enrolled
  refine ⟨index, placed, ?_⟩
  intro leafNotFound
  have fits := rebuildRoot_fits poseidon2Hash lists current
  rw [List.length_map] at fits
  have rooted : onChainRoot = bigint root := by
    rw [rebuildRoot_words poseidon2Hash fits lists] at current
    exact (Except.ok.inj current).symm
  rw [rooted] at synced ⊢
  have stored : wrapLeafStored poseidon2Hash accountId.data
      (bigint (poseidon2Hash [toFr ZkRecovery.domLeaf, secret])) =
        .ok (bigint (storedLeaf poseidon2Hash secret accountId)) :=
    wrapLeafStored_bigint poseidon2Hash accountId _
  have nullified : computeNullifier poseidon2Hash accountId.data (bigint secret) =
      .ok (bigint nullifier) := computeNullifier_bigint poseidon2Hash accountId secret
  have assembled := assembleCircuitInputs_eq poseidon2Hash sha256 networkPassphrase action
    accountId controllerId newPubkey nonce timelockSecs values index secret root nullifier
  unfold word at synced
  rw [proofRequest, wrapLeafInner_bigint]
  dsimp only [bind, Except.bind]
  rw [stored]
  dsimp only
  rw [fieldToBytes32_bigint]
  dsimp only
  rw [synced]
  dsimp only
  rw [nullified]
  dsimp only
  dsimp only at assembled
  rw [assembled]
  dsimp only
  rw [fieldToBytes32_bigint, fieldToBytes32_bigint]
  rfl

end Assembled

theorem bigint_injective : Function.Injective bigint := by
  intro left right same
  exact Fin.ext (Int.ofNat_inj.mp same)

/-- A client whose leaf is in the pool always obtains inputs that satisfy the
circuit, and their public words are the ones that the contract assembles for the
same arguments. The pool never holds more leaves than its tree has places. -/
theorem honest_witness_fits (host : Host) (config : ZkRecovery.RecoveryConfig)
    (networkPassphrase : String)
    (sameNetwork : config.networkPassphrase = networkPassphrase.toUTF8.toList)
    (noirField : String → Option Fr) (reads : ReadsFields noirField)
    (accountId controllerId : BytesN 32) (secret mine : Fr)
    (wrapped :
      (do
        let inner ← wrapLeafInner host.poseidon2Hash (bigint secret)
        wrapLeafStored host.poseidon2Hash accountId.data inner) = .ok (bigint mine))
    (leaves : List Leaf) (values : List Fr) (lists : Lists leaves (values.map word))
    (fits : values.length ≤ 2 ^ depth) (enrolled : mine ∈ values) (onChainRoot : Int)
    (current : rebuildRoot host.poseidon2Hash leaves = .ok onChainRoot) (action : UInt32)
    (newPubkey : Option (BytesN 65)) (nonce : UInt64) (timelockSecs : UInt32) :
    ∃ (request : ProofRequest) (root nullifier authHash : Fr) (witness : Circuit.Witness)
        (rootWord nullifierWord authHashWord : BytesN 32),
      let authorization : ZkRecovery.Authorization :=
        { action, account := .contract accountId, newPubkey := newPubkey.getD (BytesN.zero 65),
          nonce, timelockSecs, root := rootWord, nullifier := nullifierWord }
      (∀ leafNotFound, proofRequest host.poseidon2Hash host.sha256 networkPassphrase leafNotFound
        action.toNat accountId.data controllerId.data (bigint secret)
        (newPubkey.map BytesN.data) timelockSecs.toNat leaves onChainRoot nonce.toNat =
          .ok request) ∧
      request.root = rootWord.data ∧ request.nullifier = nullifierWord.data ∧
      readInputs noirField request.inputs = some (root, nullifier, authHash, witness) ∧
      Circuit.Satisfied host.poseidon2Hash root nullifier authHash witness ∧
      authorization.authHash host (.contract controllerId) config = .ok authHashWord ∧
      word root ++ word nullifier ++ word authHash =
        ZkRecovery.assemblePublicInputs authorization.root authorization.nullifier authHashWord ∧
      (∀ pubkey, action = ZkRecovery.actionInitiate → newPubkey = some pubkey →
        initiateZkRecovery host.poseidon2Hash host.sha256 networkPassphrase accountId.data
            controllerId.data (bigint secret) pubkey.data timelockSecs.toNat leaves onChainRoot
            nonce.toNat = .ok request ∧
          authorization = .initiate (.contract accountId) pubkey nonce timelockSecs rootWord
            nullifierWord) ∧
      (action = ZkRecovery.actionCancel → newPubkey = none → timelockSecs = 0 →
        buildOwnerAuthedProofTx host.poseidon2Hash host.sha256 networkPassphrase 2 accountId.data
            controllerId.data (bigint secret) leaves onChainRoot nonce.toNat = .ok request ∧
          authorization = .cancel (.contract accountId) nonce rootWord nullifierWord) ∧
      (action = ZkRecovery.actionRevoke → newPubkey = none → timelockSecs = 0 →
        buildOwnerAuthedProofTx host.poseidon2Hash host.sha256 networkPassphrase 3 accountId.data
            controllerId.data (bigint secret) leaves onChainRoot nonce.toNat = .ok request ∧
          authorization = .revoke (.contract accountId) nonce rootWord nullifierWord) := by
  have stored : mine = storedLeaf host.poseidon2Hash secret accountId := by
    rw [wrapLeafInner_bigint] at wrapped
    have both := wrapped.symm.trans (wrapLeafStored_bigint host.poseidon2Hash accountId _)
    exact bigint_injective (Except.ok.inj both)
  subst mine
  obtain ⟨index, placed, requested⟩ := proofRequest_eq host.poseidon2Hash host.sha256
    networkPassphrase action accountId controllerId newPubkey nonce timelockSecs values secret
    lists current enrolled
  obtain ⟨inside, _⟩ := List.getElem?_eq_some_iff.mp placed
  have satisfied := honestWitness_satisfies host.poseidon2Hash values index secret
    (tupleFor host.sha256 action accountId controllerId networkPassphrase newPubkey nonce
      timelockSecs) placed (Nat.lt_of_lt_of_le inside fits)
  refine ⟨_, _, _, _, _, Fr.toBytes _, Fr.toBytes _, Fr.toBytes _, requested, rfl, rfl,
    reads.readInputs_write _ _ _ _, satisfied, ?_, rfl, ?_, ?_, ?_⟩
  · change ZkRecovery.computeAuthHash host action _ config.networkPassphrase _ _ nonce timelockSecs = _
    rw [sameNetwork]
    rfl
  · intro pubkey isInitiate key
    subst action newPubkey
    refine ⟨?_, rfl⟩
    rw [initiateZkRecovery, if_neg (not_not_intro pubkey.size)]
    exact requested _
  · intro isCancel noKey noTimelock
    subst action newPubkey timelockSecs
    exact ⟨requested _, rfl⟩
  · intro isRevoke noKey noTimelock
    subst action newPubkey timelockSecs
    exact ⟨requested _, rfl⟩

/-! ### A reader of hex strings -/

namespace Reference

def hexDigit (c : Char) : Option Nat :=
  if '0' ≤ c ∧ c ≤ '9' then some (c.toNat - '0'.toNat)
  else if 'a' ≤ c ∧ c ≤ 'f' then some (c.toNat - 'a'.toNat + 10)
  else none

def hexValue (digits : List Char) : Option Nat :=
  digits.foldlM (fun total c => (hexDigit c).map (total * 16 + ·)) 0

def noirField (text : String) : Option Fr :=
  match text.toList with
  | '0' :: 'x' :: digits => (hexValue digits).map toFr
  | _ => none

theorem hexValue_toDigits (number : Nat) : hexValue (Nat.toDigits 16 number) = some number := by
  induction number using Nat.strongRecOn with
  | ind number ih =>
      have digit : ∀ value < 16, hexDigit (Nat.digitChar value) = some value := by decide
      rw [Nat.toDigits_eq_if (by decide)]
      split
      · rename_i small
        rw [hexValue, List.foldlM_cons, digit number small, Nat.zero_mul]
        simp
      · rename_i large
        have upper := ih (number / 16) (by omega)
        unfold hexValue at upper ⊢
        rw [List.foldlM_append, upper]
        simp only [Option.bind_eq_bind, Option.bind_some, List.foldlM_cons, List.foldlM_nil,
          digit (number % 16) (Nat.mod_lt _ (by decide)), Option.map_some]
        congr 1
        omega

theorem readsFields : ReadsFields noirField := by
  intro scalar
  have sign : ¬ bigint scalar < 0 := by
    unfold bigint
    omega
  have text : (frToNoirField (bigint scalar)).toList =
      '0' :: 'x' :: Nat.toDigits 16 scalar.val := by
    unfold frToNoirField toString16
    rw [if_neg sign]
    simp [bigint]
  unfold noirField
  rw [text]
  change (hexValue (Nat.toDigits 16 scalar.val)).map toFr = some scalar
  rw [hexValue_toDigits, Option.map_some, toFr_val_self]

end Reference

/-- Two leaves of others around the client's. -/
theorem honest_witness_fits_between :
    let host := ZkRecovery.Reference.host
    let mine := storedLeaf host.poseidon2Hash ZkRecovery.Reference.secret
      ZkRecovery.Reference.accountId
    ∃ request root nullifier authHash witness,
      initiateZkRecovery host.poseidon2Hash host.sha256 "Test SDF Network ; September 2015"
          ZkRecovery.Reference.accountId.data ZkRecovery.Reference.controllerId.data
          (bigint ZkRecovery.Reference.secret) ZkRecovery.Reference.newPubkey.data 1209600
          (indexed ([toFr 5, mine, toFr 7].map word))
          (bigint (HashTree.root (Circuit.hash2 host.poseidon2Hash) 0 depth
            [toFr 5, mine, toFr 7])) 1 = .ok request ∧
      readInputs Reference.noirField request.inputs = some (root, nullifier, authHash, witness) ∧
      Circuit.Satisfied host.poseidon2Hash root nullifier authHash witness := by
  intro host mine
  have lists := Lists.indexed ([toFr 5, mine, toFr 7].map word)
  have wrapped :
      (do
        let inner ← wrapLeafInner host.poseidon2Hash (bigint ZkRecovery.Reference.secret)
        wrapLeafStored host.poseidon2Hash ZkRecovery.Reference.accountId.data inner) =
        .ok (bigint mine) := by
    rw [wrapLeafInner_bigint]
    exact wrapLeafStored_bigint host.poseidon2Hash ZkRecovery.Reference.accountId _
  obtain ⟨request, root, nullifier, authHash, witness, _, _, _, _, _, _, readBack, satisfied, _, _,
      initiates, _, _⟩ :=
    honest_witness_fits host ZkRecovery.Reference.config "Test SDF Network ; September 2015" rfl
      Reference.noirField Reference.readsFields ZkRecovery.Reference.accountId
      ZkRecovery.Reference.controllerId ZkRecovery.Reference.secret mine wrapped _
      [toFr 5, mine, toFr 7] lists (by simp [depth]) (by simp) _
      (rebuildRoot_words host.poseidon2Hash (by decide) lists) ZkRecovery.actionInitiate
      (some ZkRecovery.Reference.newPubkey) 1 1209600
  exact ⟨request, root, nullifier, authHash, witness, (initiates _ rfl rfl).1, readBack, satisfied⟩

end Nido.Frontend
