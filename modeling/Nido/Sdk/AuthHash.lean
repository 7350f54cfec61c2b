/-
The client's reconstruction of the authorization hash.

The client works on bigints and strings and throws where the contract's types
already exclude an input. On everything that the contract can be called with,
it hashes the contract's own vector of field elements, and that vector
determines every argument it was built from.
-/

import Nido.ZkRecovery.Hash

namespace Nido.Sdk

/-- A call that may throw; the texts are the client's. -/
abbrev Js (α : Type) := Except String α

def bytesToBigIntBE (bytes : Bytes) : Int :=
  ((bytes.foldl (fun x byte => x <<< 8 ||| byte.toNat) 0 : Nat) : Int)

def domAuth : Int := 0x2886eb8be3a3ff75b86ac004fdbe5c17fd2de6ab4fd416d38683a2e0e91d9906

def split16 (b32 : Bytes) : Js (Int × Int) :=
  if b32.length ≠ 32 then
    .error ("split16: expected 32 bytes, got " ++ toString b32.length)
  else
    .ok (bytesToBigIntBE (b32.take 16), bytesToBigIntBE ((b32.drop 16).take 16))

def u256FromU64 (n : Int) : Js Int :=
  if n < 0 ∨ n > 0xffffffffffffffff then
    .error ("u256FromU64: value out of u64 range: " ++ toString n)
  else
    .ok n

/-- `((x % r) + r) % r` with a remainder that takes the sign of the dividend. -/
def reduce (x : Int) : Fr := toFr (((x.tmod fieldOrder) + fieldOrder).tmod fieldOrder).toNat

def supportedArities : List Nat := [2, 4, 15]

def p2 (poseidon2Hash : List Fr → Fr) (inputs : List Int) : Js Fr :=
  if inputs.length ∉ supportedArities then
    .error ("p2: unsupported arity " ++ toString inputs.length ++ " (supported: 2, 4, 15)")
  else
    .ok (poseidon2Hash (inputs.map reduce))

/-- A canonical field element as the bigint that the programs in TypeScript use. -/
def bigint (scalar : Fr) : Int := (scalar.val : Int)

def domLeaf : Int := 0x10d2382af89f3c1732985422f0ba530d1dd0ed3066ecce5650b78f0c4ad8274a
def domBind : Int := 0x14fa8513f19a07697a83cf582b40cb80bb2176f890614912553b81cdff71ec81
def domNull : Int := 0x138891cc07f52d2ec29e835298ae2120acd9573ec4a83c573885abf9710b73b2

def wrapLeafInner (poseidon2Hash : List Fr → Fr) (secret : Int) : Js Int :=
  (p2 poseidon2Hash [domLeaf, secret]).map bigint

def wrapLeafStored (poseidon2Hash : List Fr → Fr) (accountId32 : Bytes) (inner : Int) :
    Js Int := do
  let (acctHi, acctLo) ← split16 accountId32
  (p2 poseidon2Hash [domBind, acctHi, acctLo, inner]).map bigint

def computeNullifier (poseidon2Hash : List Fr → Fr) (accountId32 : Bytes) (secret : Int) :
    Js Int := do
  let (acctHi, acctLo) ← split16 accountId32
  (p2 poseidon2Hash [domNull, acctHi, acctLo, secret]).map bigint

/-- Byte arrays may have any length here, and numbers any sign and size. -/
structure AuthHashParams where
  action : Int
  accountId32 : Bytes
  networkPassphrase : String
  controllerId32 : Bytes
  newPubkey65 : Option Bytes
  nonce : Int
  timelockSecs : Int

def pubkeyInputs (newPubkey65 : Option Bytes) : Js (List Int) :=
  match newPubkey65 with
  | none => .ok [0, 0, 0, 0, 0]
  | some newPubkey65 =>
      if newPubkey65.length ≠ 65 then
        .error ("computeAuthHash: newPubkey65 must be 65 bytes, got " ++
          toString newPubkey65.length)
      else do
        let pkPrefix ← u256FromU64 (newPubkey65.getD 0 0).toNat
        let (pkXHi, pkXLo) ← split16 ((newPubkey65.drop 1).take 32)
        let (pkYHi, pkYLo) ← split16 ((newPubkey65.drop 33).take 32)
        pure [pkPrefix, pkXHi, pkXLo, pkYHi, pkYLo]

def authInputs (sha256 : Bytes → BytesN 32) (p : AuthHashParams) : Js (List Int) := do
  let actionF ← u256FromU64 p.action
  let (acctHi, acctLo) ← split16 p.accountId32
  let npassHash := sha256 p.networkPassphrase.toUTF8.toList
  let (npassHi, npassLo) ← split16 npassHash.data
  let (ctrlHi, ctrlLo) ← split16 p.controllerId32
  let pubkey ← pubkeyInputs p.newPubkey65
  let nonceF ← u256FromU64 p.nonce
  let timelockF ← u256FromU64 p.timelockSecs
  pure ([domAuth, actionF, acctHi, acctLo, npassHi, npassLo, ctrlHi, ctrlLo] ++ pubkey ++
    [nonceF, timelockF])

def computeAuthHash (poseidon2Hash : List Fr → Fr) (sha256 : Bytes → BytesN 32)
    (p : AuthHashParams) : Js Fr := do
  let inputs ← authInputs sha256 p
  p2 poseidon2Hash inputs

/-! ### The client's encodings are the contract's -/

private theorem shift_byte (x : Nat) (byte : UInt8) :
    x <<< 8 ||| byte.toNat = x * 256 + byte.toNat := by
  rw [← Nat.shiftLeft_add_eq_or_of_lt byte.toNat_lt, Nat.shiftLeft_eq]

theorem bytesToBigIntBE_eq (bytes : Bytes) :
    bytesToBigIntBE bytes = (BigEndian.value bytes : Nat) := by
  have folded := BigEndian.foldl_value bytes 0
  rw [Nat.zero_mul, Nat.zero_add] at folded
  rw [bytesToBigIntBE, ← folded]
  simp only [shift_byte]

theorem split16_eq (bytes : BytesN 32) :
    split16 bytes.data =
      .ok (((ZkRecovery.split16 bytes).1 : Nat), ((ZkRecovery.split16 bytes).2 : Nat)) := by
  have low : (bytes.data.drop 16).take 16 = bytes.data.drop 16 :=
    List.take_of_length_le (by rw [List.length_drop, bytes.size])
  rw [split16, if_neg (fun other => other bytes.size), low, bytesToBigIntBE_eq, bytesToBigIntBE_eq,
    ZkRecovery.split16_fst, ZkRecovery.split16_snd]

theorem u256FromU64_eq (number : UInt64) :
    u256FromU64 (number.toNat : Int) = .ok ((ZkRecovery.u256FromU64 number : Nat) : Int) := by
  have bound := number.toNat_lt
  rw [u256FromU64, if_neg (by omega), ZkRecovery.u256FromU64_toNat]

theorem reduce_natCast (number : Nat) : reduce (number : Int) = toFr number := by
  have same : (((number : Int).tmod fieldOrder) + fieldOrder).tmod fieldOrder =
      ((number % fieldOrder + fieldOrder) % fieldOrder : Nat) := by
    rw [Int.ofNat_tmod, Int.natCast_add, Int.ofNat_tmod]
  apply Fin.ext
  rw [reduce, same, Int.toNat_natCast, toFr_val, toFr_val, Nat.add_mod_right, Nat.mod_mod,
    Nat.mod_mod]

theorem reduce_bigint (scalar : Fr) : reduce (bigint scalar) = scalar := by
  rw [bigint, reduce_natCast, toFr_val_self]

theorem bigint_toFr {number : Nat} (canonical : number < fieldOrder) :
    bigint (toFr number) = number := by
  rw [bigint, toFr_of_lt canonical]

theorem wrapLeafInner_bigint (poseidon2Hash : List Fr → Fr) (secret : Fr) :
    wrapLeafInner poseidon2Hash (bigint secret) =
      .ok (bigint (poseidon2Hash [toFr ZkRecovery.domLeaf, secret])) := by
  have domain : reduce domLeaf = toFr ZkRecovery.domLeaf := reduce_natCast ZkRecovery.domLeaf
  have supported : ¬ [domLeaf, bigint secret].length ∉ supportedArities := by
    change ¬ 2 ∉ supportedArities
    decide
  rw [wrapLeafInner, p2, if_neg supported, List.map_cons, List.map_cons, domain, reduce_bigint]
  rfl

private theorem p2_account (poseidon2Hash : List Fr → Fr) (domain : Nat) (accountId : BytesN 32)
    (scalar : Fr) :
    (do
      let (acctHi, acctLo) ← split16 accountId.data
      (p2 poseidon2Hash [(domain : Int), acctHi, acctLo, bigint scalar]).map bigint) =
      .ok (bigint (poseidon2Hash [toFr domain, toFr (ZkRecovery.split16 accountId).1,
        toFr (ZkRecovery.split16 accountId).2, scalar])) := by
  rw [split16_eq]
  dsimp only [bind, Except.bind]
  rw [p2, if_neg]
  · rw [List.map_cons, List.map_cons, List.map_cons, List.map_cons, reduce_natCast,
      reduce_natCast, reduce_natCast, reduce_bigint]
    rfl
  · change ¬ 4 ∉ supportedArities
    decide

theorem wrapLeafStored_bigint (poseidon2Hash : List Fr → Fr) (accountId : BytesN 32)
    (inner : Fr) :
    wrapLeafStored poseidon2Hash accountId.data (bigint inner) =
      .ok (bigint (poseidon2Hash [toFr ZkRecovery.domBind, toFr (ZkRecovery.split16 accountId).1,
        toFr (ZkRecovery.split16 accountId).2, inner])) :=
  p2_account poseidon2Hash ZkRecovery.domBind accountId inner

theorem computeNullifier_bigint (poseidon2Hash : List Fr → Fr) (accountId : BytesN 32)
    (secret : Fr) :
    computeNullifier poseidon2Hash accountId.data (bigint secret) =
      .ok (bigint (poseidon2Hash [toFr ZkRecovery.domNull, toFr (ZkRecovery.split16 accountId).1,
        toFr (ZkRecovery.split16 accountId).2, secret])) :=
  p2_account poseidon2Hash ZkRecovery.domNull accountId secret

theorem x_inside : 1 + 32 ≤ 65 := by decide

theorem y_inside : 33 + 32 ≤ 65 := by decide

def pubkeyLimbs (pubkey : BytesN 65) : List ZkRecovery.U256 :=
  let x := ZkRecovery.split16 (ZkRecovery.coordinate pubkey 1 x_inside)
  let y := ZkRecovery.split16 (ZkRecovery.coordinate pubkey 33 y_inside)
  [ZkRecovery.u256FromU64 (pubkey.data.getD 0 0).toUInt64, x.1, x.2, y.1, y.2]

theorem pubkeyInputs_eq (newPubkey : Option (BytesN 65)) :
    pubkeyInputs (newPubkey.map BytesN.data) =
      .ok ((pubkeyLimbs (newPubkey.getD (BytesN.zero 65))).map Nat.cast) := by
  cases newPubkey with
  | none => decide
  | some pubkey =>
      have pkPrefix := u256FromU64_eq (pubkey.data.getD 0 0).toUInt64
      rw [UInt8.toNat_toUInt64] at pkPrefix
      have x := split16_eq (ZkRecovery.coordinate pubkey 1 (by decide))
      have y := split16_eq (ZkRecovery.coordinate pubkey 33 (by decide))
      simp only [ZkRecovery.coordinate] at x y
      simp only [Option.map_some, pubkeyInputs, pubkey.size, ne_eq, not_true_eq_false, if_false,
        pkPrefix, x, y]
      rfl

/-- The arguments of one authorization hash, resolved to fixed-width words. -/
structure AuthTuple where
  action : UInt32
  account : BytesN 32
  npassHash : BytesN 32
  controller : BytesN 32
  pubkey : BytesN 65
  nonce : UInt64
  timelockSecs : UInt32

def AuthTuple.vector (tuple : AuthTuple) : List Fr :=
  (ZkRecovery.authLimbs tuple.action tuple.account tuple.npassHash tuple.controller tuple.pubkey
    tuple.nonce tuple.timelockSecs).map toFr

theorem AuthTuple.vector_injective : Function.Injective AuthTuple.vector := by
  intro left right same
  have sameLimbs := ZkRecovery.map_toFr_injective (ZkRecovery.authLimbs_canonical _ _ _ _ _ _ _)
    (ZkRecovery.authLimbs_canonical _ _ _ _ _ _ _) same
  obtain ⟨action, account, controller, npassHash, pubkey, nonce, timelock⟩ :=
    ZkRecovery.authLimbs_injective sameLimbs
  cases left
  cases right
  simp only at action account controller npassHash pubkey nonce timelock
  subst_vars
  rfl

def paramsFor (action : UInt32) (accountId controllerId : BytesN 32) (networkPassphrase : String)
    (newPubkey : Option (BytesN 65)) (nonce : UInt64) (timelockSecs : UInt32) :
    AuthHashParams where
  action := action.toNat
  accountId32 := accountId.data
  networkPassphrase := networkPassphrase
  controllerId32 := controllerId.data
  newPubkey65 := newPubkey.map BytesN.data
  nonce := nonce.toNat
  timelockSecs := timelockSecs.toNat

theorem authInputs_eq (sha256 : Bytes → BytesN 32) (action : UInt32)
    (accountId controllerId : BytesN 32) (networkPassphrase : String)
    (newPubkey : Option (BytesN 65)) (nonce : UInt64) (timelockSecs : UInt32) :
    authInputs sha256 (paramsFor action accountId controllerId networkPassphrase newPubkey nonce
        timelockSecs) =
      .ok ((ZkRecovery.authLimbs action accountId (sha256 networkPassphrase.toUTF8.toList)
        controllerId (newPubkey.getD (BytesN.zero 65)) nonce timelockSecs).map Nat.cast) := by
  have actionF := u256FromU64_eq action.toUInt64
  have timelockF := u256FromU64_eq timelockSecs.toUInt64
  rw [UInt32.toNat_toUInt64] at actionF timelockF
  simp only [authInputs, paramsFor, actionF, timelockF, split16_eq, pubkeyInputs_eq,
    u256FromU64_eq]
  rfl

def tupleFor (sha256 : Bytes → BytesN 32) (action : UInt32) (accountId controllerId : BytesN 32)
    (networkPassphrase : String) (newPubkey : Option (BytesN 65)) (nonce : UInt64)
    (timelockSecs : UInt32) : AuthTuple where
  action := action
  account := accountId
  npassHash := sha256 networkPassphrase.toUTF8.toList
  controller := controllerId
  pubkey := newPubkey.getD (BytesN.zero 65)
  nonce := nonce
  timelockSecs := timelockSecs

section Vector

variable (poseidon2Hash : List Fr → Fr) (sha256 : Bytes → BytesN 32) (action : UInt32)
  (accountId controllerId : BytesN 32) (networkPassphrase : String)
  (newPubkey : Option (BytesN 65)) (nonce : UInt64) (timelockSecs : UInt32)

theorem authInputs_vector :
    ∃ inputs, authInputs sha256 (paramsFor action accountId controllerId networkPassphrase
        newPubkey nonce timelockSecs) = .ok inputs ∧
      inputs.map reduce = (tupleFor sha256 action accountId controllerId networkPassphrase
        newPubkey nonce timelockSecs).vector := by
  refine ⟨_, authInputs_eq sha256 action accountId controllerId networkPassphrase newPubkey nonce
    timelockSecs, ?_⟩
  rw [List.map_map]
  exact List.map_congr_left (fun limb _ => reduce_natCast limb)

theorem computeAuthHash_vector :
    computeAuthHash poseidon2Hash sha256 (paramsFor action accountId controllerId
        networkPassphrase newPubkey nonce timelockSecs) =
      .ok (poseidon2Hash (tupleFor sha256 action accountId controllerId networkPassphrase
        newPubkey nonce timelockSecs).vector) := by
  obtain ⟨inputs, assembled, reduced⟩ := authInputs_vector sha256 action accountId controllerId
    networkPassphrase newPubkey nonce timelockSecs
  have limbs : inputs.length = 15 := by
    rw [← List.length_map reduce, reduced]
    rfl
  rw [computeAuthHash, assembled]
  dsimp only [bind, Except.bind]
  rw [p2, if_neg, reduced]
  rw [limbs]
  decide

end Vector

/-- Equal vectors come from equal arguments, and the client hashes the same
vector as the contract, element by element. -/
theorem authHash_vector_shared (host : Host) :
    Function.Injective AuthTuple.vector ∧
    ∀ (action : UInt32) (accountId controllerId : BytesN 32) (networkPassphrase : String)
      (newPubkey : Option (BytesN 65)) (nonce : UInt64) (timelockSecs : UInt32),
      let tuple : AuthTuple :=
        { action, account := accountId, npassHash := host.sha256 networkPassphrase.toUTF8.toList,
          controller := controllerId, pubkey := newPubkey.getD (BytesN.zero 65), nonce,
          timelockSecs }
      let params := paramsFor action accountId controllerId networkPassphrase newPubkey nonce
        timelockSecs
      ZkRecovery.computeAuthHash host action (.contract accountId) networkPassphrase.toUTF8.toList
          (.contract controllerId) (newPubkey.getD (BytesN.zero 65)) nonce timelockSecs =
        .ok (Fr.toBytes (host.poseidon2Hash tuple.vector)) ∧
      (∃ inputs, authInputs host.sha256 params = .ok inputs ∧
        inputs.map reduce = tuple.vector) ∧
      computeAuthHash host.poseidon2Hash host.sha256 params =
        .ok (host.poseidon2Hash tuple.vector) := by
  refine ⟨AuthTuple.vector_injective, ?_⟩
  intro action accountId controllerId networkPassphrase newPubkey nonce timelockSecs tuple params
  exact ⟨rfl, authInputs_vector _ _ _ _ _ _ _ _, computeAuthHash_vector _ _ _ _ _ _ _ _ _⟩

end Nido.Sdk
