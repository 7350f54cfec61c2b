/-
Host-side reconstruction of the circuit's Poseidon2 commitments: the leaf wrap,
the nullifier and the authorization hash.

Every limb that enters a sponge is a number below the field order except a raw
32-byte word, which the sponge reduces. The last part shows that the fifteen
limbs of the authorization hash determine every argument they were cut from.
-/

import Nido.Soroban.Host

namespace Nido.ZkRecovery

/-- Numbers of at most 256 bits; every one here is read from 32 bytes. -/
abbrev U256 := Nat

def domLeaf : U256 := 0x10d2382af89f3c1732985422f0ba530d1dd0ed3066ecce5650b78f0c4ad8274a
def domBind : U256 := 0x14fa8513f19a07697a83cf582b40cb80bb2176f890614912553b81cdff71ec81
def domNull : U256 := 0x138891cc07f52d2ec29e835298ae2120acd9573ec4a83c573885abf9710b73b2
def domAuth : U256 := 0x2886eb8be3a3ff75b86ac004fdbe5c17fd2de6ab4fd416d38683a2e0e91d9906

def u256FromBytes32 (bytes : BytesN 32) : U256 := bytes.value

/-- The sponge reduces each input by the field order before hashing. -/
def p2 (host : Host) (inputs : List U256) : BytesN 32 :=
  Fr.toBytes (host.poseidon2Hash (inputs.map toFr))

/-- Two zero-extended halves of a 32-byte string. -/
def split16 (bytes : BytesN 32) : U256 × U256 :=
  (BigEndian.value (List.replicate 16 0 ++ bytes.data.take 16),
   BigEndian.value (List.replicate 16 0 ++ bytes.data.drop 16))

/-- Only a contract address has a 32-byte id; splitting any other traps. -/
def contractId : Address → Contract (BytesN 32)
  | .contract id => .ok id
  | .account _ => .error .trap

def splitAddr (address : Address) : Contract (U256 × U256) := do
  let id ← contractId address
  pure (split16 id)

def u256FromU64 (number : UInt64) : U256 :=
  BigEndian.value (List.replicate 24 0 ++ BigEndian.encode 8 number.toNat)

def leafInner (host : Host) (secret : BytesN 32) : BytesN 32 :=
  p2 host [domLeaf, u256FromBytes32 secret]

def wrapLeaf (host : Host) (account : Address) (inner : BytesN 32) : Contract (BytesN 32) := do
  let (acctHi, acctLo) ← splitAddr account
  pure (p2 host [domBind, acctHi, acctLo, u256FromBytes32 inner])

def computeNullifier (host : Host) (account : Address) (secret : BytesN 32) :
    Contract (BytesN 32) := do
  let (acctHi, acctLo) ← splitAddr account
  pure (p2 host [domNull, acctHi, acctLo, u256FromBytes32 secret])

/-- Bytes `start` to `start + 32` of an uncompressed public key. -/
def coordinate (pubkey : BytesN 65) (start : Nat) (inside : start + 32 ≤ 65) : BytesN 32 :=
  ⟨(pubkey.data.drop start).take 32, by
    rw [List.length_take, List.length_drop, pubkey.size]
    omega⟩

/-- The limbs of `compute_auth_hash`, in the order they are absorbed, once the
two addresses are resolved to their ids and the passphrase is hashed. -/
def authLimbs (action : UInt32) (account npassHash controller : BytesN 32)
    (pubkey : BytesN 65) (nonce : UInt64) (timelockSecs : UInt32) : List U256 :=
  let (acctHi, acctLo) := split16 account
  let (npassHi, npassLo) := split16 npassHash
  let (ctrlHi, ctrlLo) := split16 controller
  let pkPrefix := u256FromU64 (pubkey.data.getD 0 0).toUInt64
  let (pkXHi, pkXLo) := split16 (coordinate pubkey 1 (by decide))
  let (pkYHi, pkYLo) := split16 (coordinate pubkey 33 (by decide))
  [domAuth, u256FromU64 action.toUInt64, acctHi, acctLo, npassHi, npassLo, ctrlHi, ctrlLo,
    pkPrefix, pkXHi, pkXLo, pkYHi, pkYLo, u256FromU64 nonce, u256FromU64 timelockSecs.toUInt64]

/-- Every consequential argument of a call enters the hash, so that a proof
made for other arguments carries another public input. -/
def computeAuthHash (host : Host) (action : UInt32) (account : Address)
    (networkPassphrase : Bytes) (controller : Address) (pubkey : BytesN 65)
    (nonce : UInt64) (timelockSecs : UInt32) : Contract (BytesN 32) := do
  let accountId ← contractId account
  let npassHash := host.sha256 networkPassphrase
  let controllerId ← contractId controller
  pure (p2 host (authLimbs action accountId npassHash controllerId pubkey nonce timelockSecs))

theorem contractId_eq_ok {address : Address} {id : BytesN 32} :
    contractId address = .ok id ↔ address = .contract id := by
  cases address <;> simp [contractId]

theorem wrapLeaf_eq_ok {host : Host} {account : Address} {inner stored : BytesN 32} :
    wrapLeaf host account inner = .ok stored ↔ ∃ id, account = .contract id ∧
      stored = p2 host [domBind, (split16 id).1, (split16 id).2, u256FromBytes32 inner] := by
  simp only [wrapLeaf, splitAddr, Contract.bind_eq_ok, Contract.pure_eq_ok, contractId_eq_ok]
  constructor
  · rintro ⟨_, ⟨id, same, rfl⟩, rfl⟩
    exact ⟨id, same, rfl⟩
  · rintro ⟨id, same, rfl⟩
    exact ⟨_, ⟨id, same, rfl⟩, rfl⟩

theorem computeNullifier_eq_ok {host : Host} {account : Address} {secret word : BytesN 32} :
    computeNullifier host account secret = .ok word ↔ ∃ id, account = .contract id ∧
      word = p2 host [domNull, (split16 id).1, (split16 id).2, u256FromBytes32 secret] := by
  simp only [computeNullifier, splitAddr, Contract.bind_eq_ok, Contract.pure_eq_ok,
    contractId_eq_ok]
  constructor
  · rintro ⟨_, ⟨id, same, rfl⟩, rfl⟩
    exact ⟨id, same, rfl⟩
  · rintro ⟨id, same, rfl⟩
    exact ⟨_, ⟨id, same, rfl⟩, rfl⟩

theorem computeAuthHash_eq_ok {host : Host} {action : UInt32} {account controller : Address}
    {networkPassphrase : Bytes} {pubkey : BytesN 65} {nonce : UInt64} {timelockSecs : UInt32}
    {authHash : BytesN 32} :
    computeAuthHash host action account networkPassphrase controller pubkey nonce timelockSecs =
        .ok authHash ↔
      ∃ accountId controllerId, account = .contract accountId ∧
        controller = .contract controllerId ∧
        authHash = p2 host (authLimbs action accountId (host.sha256 networkPassphrase)
          controllerId pubkey nonce timelockSecs) := by
  simp only [computeAuthHash, Contract.bind_eq_ok, Contract.pure_eq_ok, contractId_eq_ok]
  constructor
  · rintro ⟨accountId, isAccount, controllerId, isController, rfl⟩
    exact ⟨accountId, controllerId, isAccount, isController, rfl⟩
  · rintro ⟨accountId, controllerId, isAccount, isController, rfl⟩
    exact ⟨accountId, isAccount, controllerId, isController, rfl⟩

/-! ### The limbs are canonical and determine what they were cut from -/

theorem split16_fst (bytes : BytesN 32) :
    (split16 bytes).1 = BigEndian.value (bytes.data.take 16) :=
  BigEndian.value_zeros 16 _

theorem split16_snd (bytes : BytesN 32) :
    (split16 bytes).2 = BigEndian.value (bytes.data.drop 16) :=
  BigEndian.value_zeros 16 _

private theorem half_length (bytes : BytesN 32) :
    (bytes.data.take 16).length = 16 ∧ (bytes.data.drop 16).length = 16 := by
  rw [List.length_take, List.length_drop, bytes.size]
  decide

theorem split16_lt (bytes : BytesN 32) :
    (split16 bytes).1 < fieldOrder ∧ (split16 bytes).2 < fieldOrder := by
  have small : 256 ^ 16 < fieldOrder := by decide
  have high := BigEndian.value_lt (bytes.data.take 16)
  have low := BigEndian.value_lt (bytes.data.drop 16)
  rw [(half_length bytes).1] at high
  rw [(half_length bytes).2] at low
  rw [split16_fst, split16_snd]
  exact ⟨Nat.lt_trans high small, Nat.lt_trans low small⟩

theorem split16_injective {left right : BytesN 32} (same : split16 left = split16 right) :
    left = right := by
  have high := congrArg Prod.fst same
  have low := congrArg Prod.snd same
  rw [split16_fst, split16_fst] at high
  rw [split16_snd, split16_snd] at low
  have sameHigh := BigEndian.value_injective _ _
    ((half_length left).1.trans (half_length right).1.symm) high
  have sameLow := BigEndian.value_injective _ _
    ((half_length left).2.trans (half_length right).2.symm) low
  obtain ⟨leftData, leftSize⟩ := left
  obtain ⟨rightData, rightSize⟩ := right
  have sameData : leftData = rightData := by
    rw [← List.take_append_drop 16 leftData, sameHigh, sameLow, List.take_append_drop]
  subst rightData
  rfl

theorem u256FromU64_toNat (number : UInt64) : u256FromU64 number = number.toNat := by
  rw [u256FromU64, BigEndian.value_zeros]
  exact BigEndian.value_encode 8 _ number.toNat_lt

theorem u256FromU64_lt (number : UInt64) : u256FromU64 number < fieldOrder := by
  rw [u256FromU64_toNat]
  exact Nat.lt_trans number.toNat_lt (by decide)

theorem authLimbs_canonical (action : UInt32) (account npassHash controller : BytesN 32)
    (pubkey : BytesN 65) (nonce : UInt64) (timelockSecs : UInt32) :
    ∀ limb ∈ authLimbs action account npassHash controller pubkey nonce timelockSecs,
      limb < fieldOrder := by
  have domain : domAuth < fieldOrder := by decide
  simp only [authLimbs, List.forall_mem_cons, List.not_mem_nil, false_implies, implies_true,
    and_true]
  exact ⟨domain, u256FromU64_lt _, (split16_lt _).1, (split16_lt _).2, (split16_lt _).1,
    (split16_lt _).2, (split16_lt _).1, (split16_lt _).2, u256FromU64_lt _, (split16_lt _).1,
    (split16_lt _).2, (split16_lt _).1, (split16_lt _).2, u256FromU64_lt _, u256FromU64_lt _⟩

theorem map_toFr_injective {left right : List U256}
    (leftCanonical : ∀ limb ∈ left, limb < fieldOrder)
    (rightCanonical : ∀ limb ∈ right, limb < fieldOrder)
    (same : left.map toFr = right.map toFr) : left = right := by
  induction left generalizing right with
  | nil => exact (List.map_eq_nil_iff.mp same.symm).symm
  | cons limb rest ih =>
      cases right with
      | nil => cases same
      | cons other others =>
          rw [List.map_cons, List.map_cons, List.cons.injEq] at same
          rw [List.forall_mem_cons] at leftCanonical rightCanonical
          rw [toFr_inj leftCanonical.1 rightCanonical.1 same.1,
            ih leftCanonical.2 rightCanonical.2 same.2]

private theorem pubkey_parts (pubkey : BytesN 65) :
    pubkey.data = pubkey.data.getD 0 0 ::
      ((coordinate pubkey 1 (by decide)).data ++ (coordinate pubkey 33 (by decide)).data) := by
  obtain ⟨data, size⟩ := pubkey
  cases data with
  | nil => cases size
  | cons first rest =>
      have restSize : rest.length = 64 := Nat.succ.inj size
      have tail : (rest.drop 32).take 32 = rest.drop 32 :=
        List.take_of_length_le (by rw [List.length_drop, restSize])
      simp only [coordinate, List.drop_succ_cons, List.drop_zero, List.getD_cons_zero, tail,
        List.take_append_drop]

/-- The limbs of one authorization determine its action, account, passphrase
hash, controller, key, nonce and timelock. -/
theorem authLimbs_injective {action action' : UInt32}
    {account npassHash controller account' npassHash' controller' : BytesN 32}
    {pubkey pubkey' : BytesN 65} {nonce nonce' : UInt64} {timelockSecs timelockSecs' : UInt32}
    (same : authLimbs action account npassHash controller pubkey nonce timelockSecs =
      authLimbs action' account' npassHash' controller' pubkey' nonce' timelockSecs') :
    action = action' ∧ account = account' ∧ controller = controller' ∧ npassHash = npassHash' ∧
      pubkey = pubkey' ∧ nonce = nonce' ∧ timelockSecs = timelockSecs' := by
  simp only [authLimbs, List.cons.injEq, and_true, true_and] at same
  obtain ⟨sameAction, acctHi, acctLo, npassHi, npassLo, ctrlHi, ctrlLo, samePrefix,
    pkXHi, pkXLo, pkYHi, pkYLo, sameNonce, sameTimelock⟩ := same
  have sameX := split16_injective (Prod.ext pkXHi pkXLo)
  have sameY := split16_injective (Prod.ext pkYHi pkYLo)
  rw [u256FromU64_toNat, u256FromU64_toNat] at sameAction samePrefix sameNonce sameTimelock
  have samePubkey : pubkey = pubkey' := by
    have head : pubkey.data.getD 0 0 = pubkey'.data.getD 0 0 := UInt8.toNat_inj.mp samePrefix
    have data := pubkey_parts pubkey
    rw [head, sameX, sameY, ← pubkey_parts pubkey'] at data
    obtain ⟨bytes, size⟩ := pubkey
    obtain ⟨bytes', size'⟩ := pubkey'
    subst data
    rfl
  exact ⟨UInt32.toNat_inj.mp sameAction, split16_injective (Prod.ext acctHi acctLo),
    split16_injective (Prod.ext ctrlHi ctrlLo), split16_injective (Prod.ext npassHi npassLo),
    samePubkey, UInt64.toNat_inj.mp sameNonce, UInt32.toNat_inj.mp sameTimelock⟩

end Nido.ZkRecovery
