/-
A concrete host for concrete runs: the real sponge, the real digest, and a
verifier whose proofs are encoded witnesses. Such a verifier accepts public
inputs exactly when a witness for them exists, which is all that an ideal proof
system promises.
-/

import Nido.Circuits.ZkRecovery
import Nido.Library.Poseidon2
import Nido.Library.Sha256
import Nido.ZkRecovery.Machine

namespace Nido.ZkRecovery

open Circuit (Witness Satisfied)

/-- The verifier accepts some proof for three public words exactly when some
witness exists for those words reduced by the field order. -/
def VerifierIdeal (host : Host) (verifier : Address) : Prop :=
  ∀ root nullifier authHash : BytesN 32,
    (∃ proof, host.verifyProof verifier (assemblePublicInputs root nullifier authHash) proof = true)
      ↔ ∃ witness, Satisfied host.poseidon2Hash root.toFr nullifier.toFr authHash.toFr witness

namespace Reference

def poseidon2Hash (inputs : List Fr) : Fr := toFr (Poseidon2.sponge (inputs.map Fin.val))

def encodeFields (fields : List Fr) : Bytes := fields.flatMap (fun field => (Fr.toBytes field).data)

/-- Consecutive words of 32 bytes, each reduced by the field order. -/
def decodeFields : (count : Nat) → Bytes → List Fr
  | 0, _ => []
  | count + 1, bytes =>
      toFr (BigEndian.value (bytes.take 32)) :: decodeFields count (bytes.drop 32)

theorem decodeFields_cons (count : Nat) (word : BytesN 32) (rest : Bytes) :
    decodeFields (count + 1) (word.data ++ rest) = word.toFr :: decodeFields count rest := by
  rw [decodeFields, List.take_left' word.size, List.drop_left' word.size]
  rfl

theorem decodeFields_encodeFields (fields : List Fr) :
    decodeFields fields.length (encodeFields fields) = fields := by
  induction fields with
  | nil => rfl
  | cons field rest ih =>
      rw [List.length_cons, encodeFields, List.flatMap_cons, decodeFields_cons, Fr.toBytes_toFr]
      exact congrArg (field :: ·) ih

theorem decodeFields_publicInputs (root nullifier authHash : BytesN 32) :
    decodeFields 3 (assemblePublicInputs root nullifier authHash) =
      [root.toFr, nullifier.toFr, authHash.toFr] := by
  have whole : authHash.data = authHash.data ++ [] := (List.append_nil _).symm
  rw [assemblePublicInputs, List.append_assoc, decodeFields_cons, decodeFields_cons, whole,
    decodeFields_cons]
  rfl

theorem decodeFields_length (count : Nat) (bytes : Bytes) :
    (decodeFields count bytes).length = count := by
  induction count generalizing bytes with
  | zero => rfl
  | succ count ih => rw [decodeFields, List.length_cons, ih]

/-- The siblings, the bits, the secret, then the fifteen inputs of the
authorization hash. -/
def fieldsOf (witness : Witness) : List Fr :=
  witness.pathSiblings ++ (witness.pathBits ++ (witness.secret :: witness.authInputs))

def fieldCount : Nat := 64

def witnessOf (fields : List Fr) (size : fields.length = fieldCount) : Witness where
  secret := fields.getD 48 0
  acctHi := fields.getD 51 0
  acctLo := fields.getD 52 0
  pathSiblings := fields.take Circuit.depth
  pathBits := (fields.drop Circuit.depth).take Circuit.depth
  action := fields.getD 50 0
  npassHi := fields.getD 53 0
  npassLo := fields.getD 54 0
  ctrlHi := fields.getD 55 0
  ctrlLo := fields.getD 56 0
  pkPrefix := fields.getD 57 0
  pkXHi := fields.getD 58 0
  pkXLo := fields.getD 59 0
  pkYHi := fields.getD 60 0
  pkYLo := fields.getD 61 0
  nonce := fields.getD 62 0
  timelockSecs := fields.getD 63 0
  siblings_length := by rw [List.length_take, size]; rfl
  bits_length := by rw [List.length_take, List.length_drop, size]; rfl

theorem fieldsOf_length (witness : Witness) : (fieldsOf witness).length = fieldCount := by
  rw [fieldsOf, List.length_append, List.length_append, witness.siblings_length,
    witness.bits_length]
  rfl

theorem witnessOf_fieldsOf (witness : Witness) (size : (fieldsOf witness).length = fieldCount) :
    witnessOf (fieldsOf witness) size = witness := by
  have siblings : (fieldsOf witness).take Circuit.depth = witness.pathSiblings :=
    List.take_left' witness.siblings_length
  have rest : (fieldsOf witness).drop Circuit.depth =
      witness.pathBits ++ (witness.secret :: witness.authInputs) :=
    List.drop_left' witness.siblings_length
  have bits : ((fieldsOf witness).drop Circuit.depth).take Circuit.depth = witness.pathBits := by
    rw [rest]
    exact List.take_left' witness.bits_length
  have tail (index : Nat) : (fieldsOf witness).getD (48 + index) 0 =
      (witness.secret :: witness.authInputs).getD index 0 := by
    have halves : (witness.pathSiblings ++ witness.pathBits).length = 48 := by
      rw [List.length_append, witness.siblings_length, witness.bits_length]
      rfl
    rw [fieldsOf, ← List.append_assoc, List.getD_append_right _ _ _ _ (by omega), halves,
      Nat.add_sub_cancel_left]
  rw [witnessOf.eq_def]
  cases witness
  rw [Witness.mk.injEq]
  exact ⟨tail 0, tail 3, tail 4, siblings, bits, tail 2, tail 5, tail 6, tail 7, tail 8, tail 9,
    tail 10, tail 11, tail 12, tail 13, tail 14, tail 15⟩

def decodeWitness (proof : Bytes) : Witness :=
  witnessOf (decodeFields fieldCount proof) (decodeFields_length fieldCount proof)

theorem decodeWitness_encode (witness : Witness) :
    decodeWitness (encodeFields (fieldsOf witness)) = witness := by
  have fields := decodeFields_encodeFields (fieldsOf witness)
  rw [fieldsOf_length] at fields
  unfold decodeWitness
  simp only [fields]
  exact witnessOf_fieldsOf witness _

def verify (publicInputs proof : Bytes) : Bool :=
  match decodeFields 3 publicInputs with
  | [root, nullifier, authHash] =>
      decide (Satisfied poseidon2Hash root nullifier authHash (decodeWitness proof))
  | _ => false

def host : Host where
  poseidon2Hash := poseidon2Hash
  sha256 := fun message => BytesN.ofNat 32 (BigEndian.value (Sha256.digest message))
  verifyProof := fun _verifier publicInputs proof => verify publicInputs proof

theorem verify_publicInputs (root nullifier authHash : BytesN 32) (proof : Bytes) :
    verify (assemblePublicInputs root nullifier authHash) proof = true ↔
      Satisfied poseidon2Hash root.toFr nullifier.toFr authHash.toFr (decodeWitness proof) := by
  rw [verify, decodeFields_publicInputs]
  exact decide_eq_true_iff

theorem verifies_iff (verifier : Address) (root nullifier authHash : BytesN 32) (proof : Bytes) :
    host.verifyProof verifier (assemblePublicInputs root nullifier authHash) proof = true ↔
      Satisfied host.poseidon2Hash root.toFr nullifier.toFr authHash.toFr (decodeWitness proof) := by
  dsimp only [host]
  exact verify_publicInputs root nullifier authHash proof

theorem host_ideal (verifier : Address) : VerifierIdeal host verifier := by
  intro root nullifier authHash
  constructor
  · rintro ⟨proof, accepted⟩
    exact ⟨decodeWitness proof, (verifies_iff verifier root nullifier authHash proof).mp accepted⟩
  · rintro ⟨witness, satisfied⟩
    refine ⟨encodeFields (fieldsOf witness),
      (verifies_iff verifier root nullifier authHash _).mpr ?_⟩
    rw [decodeWitness_encode]
    exact satisfied

/-! ### One account, one controller, one secret -/

def accountId : BytesN 32 := ⟨List.replicate 32 0x11, rfl⟩
def controllerId : BytesN 32 := ⟨List.replicate 32 0x22, rfl⟩
def account : Address := .contract accountId
def secret : Fr := toFr 0xd80e5c7596cf3ed7868f8bc89b6cf93c

def config : RecoveryConfig where
  factory := .contract ⟨List.replicate 32 0x33, rfl⟩
  verifier := .contract ⟨List.replicate 32 0x44, rfl⟩
  delaySecs := 1209600
  completionWindowSecs := 604800
  maxCancels := 3
  timelockFloorSecs := 86400
  networkPassphrase := "Test SDF Network ; September 2015".toUTF8.toList
  webauthnVerifier := .contract ⟨List.replicate 32 0x55, rfl⟩

def deployment : Deployment where
  host := host
  self := .contract controllerId
  config := config

def newPubkey : BytesN 65 := BytesN.ofNat 65
  0x042bb2f07c58a9bacf9e794ba2b1589292716ca4b05a6d97b97eb293a160898b00f9fa128ee95baeceff2a25348632424406106595b3dd673db63bb3eef0815186

def authPreimage (accountId : BytesN 32) (authorization : Authorization) : List Fr :=
  (authLimbs authorization.action accountId (host.sha256 config.networkPassphrase) controllerId
    authorization.newPubkey authorization.nonce authorization.timelockSecs).map toFr

/-- The proof that knowledge of a secret and of the path of its leaf gives. -/
def prove (secret : Fr) (siblings bits : List Fr) (accountId : BytesN 32)
    (authorization : Authorization) : Bytes :=
  encodeFields (siblings ++ (bits ++ (secret :: authPreimage accountId authorization)))

/-- The siblings of the first leaf while it is the only one. -/
def emptySiblings : List Fr := ((zeroChain host).take depth).map BytesN.toFr

def leftmost : List Fr := List.replicate depth 0

def commitment : BytesN 32 := leafInner host (Fr.toBytes secret)

def root : BytesN 32 := BytesN.ofNat 32
  0x2d7fe2d38d95d1fcff89a94652adc57d0414cee707c72c0f744389025a937f03

def nullifier : BytesN 32 := BytesN.ofNat 32
  0x1b2c4afb313af3435729561fee62d1b065c4b3aad8e8fc6ca5447936a2f8edce

def authHash : BytesN 32 := BytesN.ofNat 32
  0x111ae1edc6e6854540153d3098793786fe1f37bd208992a95b9d9038d9c37baf

/-- The commitments of the recorded fixture. -/
example :
    wrapLeaf host account commitment = .ok (BytesN.ofNat 32
      0x27cfe62058beb8e80b7c27b5b43225643b3b062f300c3bd28f41ddd20de50880) ∧
    computeNullifier host account (Fr.toBytes secret) = .ok nullifier ∧
    (Authorization.initiate account newPubkey 1 1209600 root nullifier).authHash host
      deployment.self config = .ok authHash := by
  decide +kernel

def anyone (timestamp : UInt64) (call : Call) : Invocation :=
  { timestamp, authorized := fun _ => true, call }

def enrolment : Call := .insertFor account commitment

def initiating : Authorization := .initiate account newPubkey 1 1209600 root nullifier

def initiation : Call :=
  .initiateRecovery account newPubkey 1 1209600 root nullifier
    (prove secret emptySiblings leftmost accountId initiating)

def revoking (nonce : UInt64) (nullifier : BytesN 32) : Authorization :=
  .revoke account nonce root nullifier

def revocation (nonce : UInt64) (nullifier : BytesN 32) : Call :=
  .burnNullifier account nonce root nullifier
    (prove secret emptySiblings leftmost accountId (revoking nonce nullifier))

def secretTwo : Fr := toFr 7

def enrolmentTwo : Call := .insertFor account (leafInner host (Fr.toBytes secretTwo))

def rootTwo : BytesN 32 := BytesN.ofNat 32
  0x13b98637fd6c4fecee781d48181d6066f17c8c821d8c55c4b7df67c9930c21ca

def nullifierTwo : BytesN 32 := BytesN.ofNat 32
  0x0eeefb0fff1f99d93bf629f3fb45862337e0efa487bdf6557b26db15fb6b38de

/-- The proof of the second secret that a cancel needs; its leaf is the right
sibling of the first. -/
def cancellationProof : Bytes :=
  prove secretTwo
    (BytesN.toFr (BytesN.ofNat 32
      0x27cfe62058beb8e80b7c27b5b43225643b3b062f300c3bd28f41ddd20de50880) :: emptySiblings.drop 1)
    (1 :: leftmost.drop 1) accountId (.cancel account 2 rootTwo nullifierTwo)

def cancellation (nullifier : BytesN 32) : Call :=
  .cancelRecovery account 2 rootTwo nullifier cancellationProof

/-- The owner enrols and initiates; somebody else enrols another secret for the
account and cancels with it, naming some nullifier. -/
def stolen (nullifier : BytesN 32) : List Invocation :=
  [anyone 100 enrolment, anyone 200 initiation, anyone 300 enrolmentTwo,
    anyone 400 (cancellation nullifier)]

def completionContext : Context := .contract
  { contract := account
    fnName := "add_context_rule"
    args := [ContextRuleType.default.toScVal, .string "recovered", .void,
      .vec [(Signer.external config.webauthnVerifier newPubkey.data).toScVal], .map []] }

def recoveryRule : ContextRule where
  id := 7
  contextType := .callContract account
  name := "zk-recovery"
  signers := []
  signerIds := []
  policies := [.contract controllerId]
  policyIds := [0]
  validUntil := none

def installation : Call := .install ⟨1⟩ recoveryRule account

def completion : Call := .enforce completionContext [] recoveryRule account

def recovery : List Invocation :=
  [anyone 100 installation, anyone 100 enrolment, anyone 200 initiation,
    anyone 1209800 completion]

/-- Enrolled and initiated, then revoked while the recovery is in flight. -/
def revoked : List Invocation :=
  [anyone 100 enrolment, anyone 200 initiation, anyone 300 (revocation 2 nullifier)]

/-- Another word for the field element of the nullifier. -/
def nullifierAgain : BytesN 32 := BytesN.ofNat 32 (nullifier.value + fieldOrder)

def burnedTwice : List Invocation :=
  [anyone 100 enrolment, anyone 200 (revocation 1 nullifier),
    anyone 300 (revocation 2 nullifierAgain)]

end Reference

end Nido.ZkRecovery
