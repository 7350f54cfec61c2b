/-
A rotation that friends approve: what is staged, what a friend signs, and what is
put on the transaction in the end.

The staged transactions are kept by a third party under their hashes, and a friend
fetches them from there. An envelope names the recovery call twice, in the host
function that it runs and in the authorization entry of the account.
-/

import Nido.Frontend.WalletSign
import Nido.Library.Keyed
import Nido.Sdk.FriendSigning

namespace Nido.Frontend

open Sdk

/-! ### Staging -/

structure StagedRotationTx where
  txXdr : String
  refractorTxHash : String
  refractorTxUrl : String
  parentAuthDigestHex : String
  relayerTxId : Option String
  submittedHash : Option String
deriving DecidableEq

structure RotationStaging where
  account : String
  recoveryRuleId : UInt32
  threshold : Nat
  friends : List String
  txs : List StagedRotationTx
  lastLedger : Nat
  parentSignatureExpirationLedger : Nat
  description : String
  relayKey : String
  collected : Keyed String FriendSignature

def RotationStaging.contributors (staging : RotationStaging) : List FriendSignature :=
  staging.collected.entries.map Prod.snd

/-! ### The browser's storage -/

abbrev LocalStorage := String → Option RotationStaging

def stagingKey (account : String) : String := "nido." ++ account ++ ".recovery-rotation"

def loadStaging (storage : LocalStorage) (account : String) : Option RotationStaging :=
  storage (stagingKey account)

def saveStaging (storage : LocalStorage) (staging : RotationStaging) : LocalStorage :=
  fun key => if key = stagingKey staging.account then some staging else storage key

def clearStaging (storage : LocalStorage) (account : String) : LocalStorage :=
  fun key => if key = stagingKey account then none else storage key

@[simp] theorem loadStaging_saveStaging (storage : LocalStorage) (staging : RotationStaging) :
    loadStaging (saveStaging storage staging) staging.account = some staging :=
  if_pos rfl

@[simp] theorem loadStaging_clearStaging (storage : LocalStorage) (account : String) :
    loadStaging (clearStaging storage account) account = none :=
  if_pos rfl

/-- What a friend is told; the transactions are fetched by their hashes. -/
structure RotationHandoff where
  account : String
  recoveryRuleId : UInt32
  refractorTxHashes : List String
  parentSignatureExpirationLedger : Nat
  relayKey : String
  relayBaseUrl : String

/-! ### Envelopes -/

inductive TransactionEnvelope
  | txV0
  | tx (operations : List TxOperation)
  | feeBump

structure RecoveryRuleInfo where
  ruleId : UInt32
  threshold : Option Nat
  friends : List String

structure RefractorTransaction where
  network : String
  xdr : String

/-- The transaction library, the chain, the third-party store and the authenticator. -/
structure RotationEnvironment where
  stellar : Stellar
  envelopeFromXdr : String → Js TransactionEnvelope
  findRecoveryRules : String → Js (List RecoveryRuleInfo)
  loadCredential : String → Option StoredCredential
  fetchVerifierAddress : String → Js String
  latestLedger : Js Nat
  fetchRefractorTransaction : String → Js RefractorTransaction
  /-- The random number drawn for each of the approvals. -/
  randomNonce : Nat → String
  authenticator : AssertionRequest → Js PasskeySignature

def testnet : String := "Test SDF Network ; September 2015"

def parentExpirationOffset : Nat := 10000

section Rotation

variable (env : RotationEnvironment)

def envelopeInvocation (txXdr : String) : Js InvokeHostFunctionOp := do
  let envelope ← env.envelopeFromXdr txXdr
  match envelope with
  | .txV0 | .feeBump => .error "v1 not set"
  | .tx [] => .error "Cannot read properties of undefined (reading 'body')"
  | .tx (.other _ :: _) => .error "invokeHostFunctionOp not set"
  | .tx (.invokeHostFunction op :: _) => .ok op

def assembledRootAuthEntry (txXdr : String) : Js AuthEntry := do
  let ihf ← envelopeInvocation env txXdr
  match ihf.auth with
  | [] => .error "assembled rotation tx has no auth entry"
  | rootAuth :: _ => .ok rootAuth

def stageRotationTx (recoveryRuleId : UInt32) (parentSignatureExpirationLedger : Nat)
    (txXdr refractorTxHash refractorTxUrl : String) : Js StagedRotationTx := do
  let authEntry ← assembledRootAuthEntry env txXdr
  let signaturePayload ← buildAuthHashAt authEntry testnet parentSignatureExpirationLedger
  pure
    { txXdr
      refractorTxHash
      refractorTxUrl
      parentAuthDigestHex := buf2hex (computeAuthDigest signaturePayload [recoveryRuleId])
      relayerTxId := none
      submittedHash := none }

/-! ### The friend's side -/

def validateRecoveryInvocation (ihf : InvokeHostFunctionOp) (account : String) : Js AuthEntry :=
  match ihf.hostFunction with
  | .invokeContract invoke =>
      if env.stellar.addressToString invoke.contract ≠ account then
        .error "Refractor transaction targets a different account."
      else
        match ihf.auth with
        | [] => .error "Recovery transaction has no auth entry."
        | rootAuth :: _ =>
            match rootAuth.credentials with
            | .sourceAccount => .error "Recovery transaction auth is not account-scoped."
            | .address creds =>
                if env.stellar.addressToString creds.address ≠ account then
                  .error "Recovery transaction auth is for a different account."
                else
                  .ok rootAuth
  | _ => .error "Recovery transaction does not invoke a contract."

def validateRecoveryTxEnvelope (txXdr account : String) : Js AuthEntry := do
  let envelope ← env.envelopeFromXdr txXdr
  match envelope with
  | .txV0 | .feeBump => .error "v1 not set"
  | .tx [.other _] => .error "Recovery transaction is not a Soroban invocation."
  | .tx [.invokeHostFunction ihf] => validateRecoveryInvocation env ihf account
  | .tx operations =>
      .error ("Recovery transaction must have one operation, got " ++
        toString operations.length ++ ".")

/-- The digest that the recovering account will check, recomputed from the shared envelope. -/
def parentAuthDigest (handoff : RotationHandoff) (txXdr : String) : Js Bytes := do
  let parentRootAuth ← validateRecoveryTxEnvelope env txXdr handoff.account
  let parentSignaturePayload ←
    buildAuthHashAt parentRootAuth testnet handoff.parentSignatureExpirationLedger
  pure (computeAuthDigest parentSignaturePayload [handoff.recoveryRuleId])

/-- What the friend's own account will be asked to have signed. -/
def friendApprovalPayload (handoff : RotationHandoff) (txXdr nonce : String)
    (signatureExpirationLedger : Nat) : Js Bytes := do
  let parentAuthDigest ← parentAuthDigest env handoff txXdr
  friendSignaturePayload env.stellar
    { recoveringAccount := handoff.account
      parentAuthDigestHex := buf2hex parentAuthDigest
      networkPassphrase := testnet
      nonce
      signatureExpirationLedger }

def signRotationTx (handoff : RotationHandoff) (cred : StoredCredential) (latest : Nat)
    (nonce refractorTxHash : String) : Js FriendSignatureEntry := do
  let refractorTx ← env.fetchRefractorTransaction refractorTxHash
  if refractorTx.network ≠ "testnet" then
    .error ("Unsupported Refractor network: " ++ refractorTx.network)
  else do
    let signatureExpirationLedger := latest + parentExpirationOffset
    let friendPayload ←
      friendApprovalPayload env handoff refractorTx.xdr nonce signatureExpirationLedger
    let parsed ← env.authenticator
      { challenge := computeAuthDigest friendPayload [0], credentialId := some cred.credentialId }
    pure
      { authenticatorData := parsed.authenticatorData
        clientDataJson := parsed.clientDataJson
        signature := parsed.signature
        nonce
        signatureExpirationLedger }

def signRotationTxs (handoff : RotationHandoff) (cred : StoredCredential) (latest : Nat) :
    (i : Nat) → (refractorTxHashes : List String) → Js (List FriendSignatureEntry)
  | _, [] => pure []
  | i, refractorTxHash :: rest => do
      let entry ← signRotationTx env handoff cred latest (env.randomNonce i) refractorTxHash
      let entries ← signRotationTxs handoff cred latest (i + 1) rest
      pure (entry :: entries)

def requireRecoveryRule (account : String) (ruleId : UInt32) : Js RecoveryRuleInfo := do
  let rules ← env.findRecoveryRules account
  match rules.find? (fun rule => rule.ruleId == ruleId) with
  | none =>
      .error ("Recovery rule #" ++ toString ruleId ++ " was not found on " ++ account ++ ".")
  | some rule => .ok rule

/-- The signature that is sent back, before it is encoded. -/
def signRotationAsFriend (friendAccount : String) (handoff : RotationHandoff) :
    Js FriendSignature := do
  let rule ← requireRecoveryRule env handoff.account handoff.recoveryRuleId
  if friendAccount ∉ rule.friends then
    .error "This recovery request does not list your account as a friend."
  else
    match env.loadCredential friendAccount with
    | none => .error "No primary passkey registered for your account on this device."
    | some cred => do
        let verifierAddress ← env.fetchVerifierAddress friendAccount
        let latest ← env.latestLedger
        let entries ← signRotationTxs env handoff cred latest 0 handoff.refractorTxHashes
        pure
          { friendAccount
            verifierAddress
            publicKey := hex2buf cred.publicKey
            entries }

/-! ### The originator's side -/

def buildFriendAuthEntry (recoveringAccount : String) (fs : FriendSignature)
    (entry : FriendSignatureEntry) (parentAuthDigestHex : String) : Js AuthEntry := do
  let invocation ← buildFriendInvocation env.stellar recoveringAccount parentAuthDigestHex
  let friendAuthPayload ← buildAuthPayloadScVal env.stellar.addressOf
    { contextRuleIds := [0]
      signers := [.external fs.verifierAddress fs.publicKey
        { authenticatorData := entry.authenticatorData
          clientDataJson := entry.clientDataJson
          signature := entry.signature }] }
  let address ← env.stellar.addressOf fs.friendAccount
  let nonce ← env.stellar.int64FromString entry.nonce
  pure
    { credentials := .address
        { address
          nonce
          signatureExpirationLedger := entry.signatureExpirationLedger
          signature := friendAuthPayload }
      rootInvocation := invocation }

/-- One nested entry for each contributor, from its approval of transaction `i`. -/
def buildFriendAuthEntries (recoveringAccount parentAuthDigestHex : String) (i : Nat) :
    List FriendSignature → Js (List AuthEntry)
  | [] => pure []
  | fs :: rest =>
      match fs.entries[i]? with
      | none => .error "Cannot read properties of undefined (reading 'authenticatorData')"
      | some entry => do
          let nested ← buildFriendAuthEntry env recoveringAccount fs entry parentAuthDigestHex
          let others ← buildFriendAuthEntries recoveringAccount parentAuthDigestHex i rest
          pure (nested :: others)

/-- Transaction `i` with the account's payload on its own entry and the friends' entries
after it, as `submitRotation` ships it. -/
def authorizeStagedTx (staging : RotationStaging) (staged : StagedRotationTx) (i : Nat) :
    Js InvokeHostFunctionOp := do
  let parentAuthPayload ← buildAuthPayloadScVal env.stellar.addressOf
    { contextRuleIds := [staging.recoveryRuleId]
      signers := staging.contributors.map (fun fs => .delegated fs.friendAccount none) }
  let ihfOp ← envelopeInvocation env staged.txXdr
  match ihfOp.auth with
  | [] => .error "Cannot read properties of undefined (reading 'credentials')"
  | rootAuth :: _ =>
      match rootAuth.credentials with
      | .sourceAccount =>
          .error "Cannot read properties of undefined (reading 'signatureExpirationLedger')"
      | .address rootCreds => do
          let signedRoot : AuthEntry :=
            { rootAuth with
              credentials := .address
                { rootCreds with
                  signatureExpirationLedger := staging.parentSignatureExpirationLedger
                  signature := parentAuthPayload } }
          let friendEntries ← buildFriendAuthEntries env staging.account
            staged.parentAuthDigestHex i staging.contributors
          pure { ihfOp with auth := signedRoot :: friendEntries }

end Rotation

end Nido.Frontend
