/-
What a friend's signature covers.

The checks of a fetched envelope read the call of its host function; the digest
commits to the call of its first authorization entry. The digests on both sides
are taken of that entry, so they always agree, and the friend's own entry is the
one that was signed. What the friend approves is the validated call exactly when
the two copies of the call in the envelope are the same.
-/

import Nido.Frontend.RecoveryRotation

namespace Nido.Frontend

open Sdk

section Envelope

variable {env : RotationEnvironment} {txXdr account : String} {rootAuth : AuthEntry}

/-- An envelope that passes runs one contract call at the account, and its first entry has
the account's own credentials. -/
theorem validateRecoveryTxEnvelope_eq_ok
    (validated : validateRecoveryTxEnvelope env txXdr account = .ok rootAuth) :
    ∃ call creds invocation others,
      env.envelopeFromXdr txXdr = .ok (.tx [.invokeHostFunction
        { hostFunction := .invokeContract call
          auth := { credentials := .address creds, rootInvocation := invocation } :: others }]) ∧
      env.stellar.addressToString call.contract = account ∧
      env.stellar.addressToString creds.address = account ∧
      rootAuth = { credentials := .address creds, rootInvocation := invocation } := by
  unfold validateRecoveryTxEnvelope at validated
  obtain ⟨envelope, decoded, checked⟩ := Contract.bind_eq_ok.mp validated
  rw [decoded]
  split at checked
  next => cases checked
  next => cases checked
  next => cases checked
  next ihf =>
    obtain ⟨hostFunction, auth⟩ := ihf
    unfold validateRecoveryInvocation at checked
    dsimp only at checked
    split at checked
    next call =>
      split at checked
      · cases checked
      next target =>
        split at checked
        next => cases checked
        next first others =>
          obtain ⟨credentials, invocation⟩ := first
          dsimp only at checked
          split at checked
          next => cases checked
          next creds =>
            split at checked
            · cases checked
            next owner =>
              cases checked
              exact ⟨call, creds, invocation, others, rfl, not_not.mp target, not_not.mp owner,
                rfl⟩
    next => cases checked
  next => cases checked

def envelopeCall (env : RotationEnvironment) (txXdr : String) : Option ContractContext :=
  match envelopeInvocation env txXdr with
  | .ok { hostFunction := .invokeContract call, .. } => some call
  | _ => none

/-- The envelope's first entry authorizes, at its root, the call of the host function. -/
def CopiesAgree (env : RotationEnvironment) (txXdr : String) : Prop :=
  ∃ call rootAuth others,
    envelopeInvocation env txXdr =
      .ok { hostFunction := .invokeContract call, auth := rootAuth :: others } ∧
    rootAuth.rootInvocation.function = .contractFn call

structure SameRotation (handoff : RotationHandoff) (staging : RotationStaging) : Prop where
  account_same : staging.account = handoff.account
  ruleId_same : staging.recoveryRuleId = handoff.recoveryRuleId
  expiration_same :
    staging.parentSignatureExpirationLedger = handoff.parentSignatureExpirationLedger

theorem parentAuthDigest_eq_ok {handoff : RotationHandoff} {digest : Bytes}
    (recomputed : parentAuthDigest env handoff txXdr = .ok digest) :
    ∃ creds invocation others hostFunction,
      envelopeInvocation env txXdr = .ok
        { hostFunction
          auth := { credentials := .address creds, rootInvocation := invocation } :: others } ∧
      env.stellar.addressToString creds.address = handoff.account ∧
      handoff.parentSignatureExpirationLedger < 2 ^ 32 ∧
      digest = submittedDigest testnet
        { creds with signatureExpirationLedger := handoff.parentSignatureExpirationLedger }
        invocation [handoff.recoveryRuleId] := by
  unfold parentAuthDigest at recomputed
  obtain ⟨root, validated, rest⟩ := Contract.bind_eq_ok.mp recomputed
  obtain ⟨payload, hashed, done⟩ := Contract.bind_eq_ok.mp rest
  cases done
  obtain ⟨call, creds, invocation, others, decoded, -, owner, rfl⟩ :=
    validateRecoveryTxEnvelope_eq_ok validated
  obtain ⟨small, creds', given, rfl⟩ := buildAuthHashAt_eq_ok.mp hashed
  cases given
  refine ⟨creds, invocation, others, .invokeContract call, ?_, owner, small, rfl⟩
  rw [envelopeInvocation, decoded]
  rfl

/-- The shipped entry keeps the credentials' address and nonce and all of its calls; it gets
the staged expiration and a payload for the staged rule. -/
theorem authorizeStagedTx_eq_ok {staging : RotationStaging} {staged : StagedRotationTx} {i : Nat}
    {op : InvokeHostFunctionOp} (shipped : authorizeStagedTx env staging staged i = .ok op) :
    ∃ original creds invocation others signature nested,
      envelopeInvocation env staged.txXdr = .ok original ∧
      original.auth =
        { credentials := .address creds, rootInvocation := invocation } :: others ∧
      payloadRuleIds signature = some (contextRuleIdsVec [staging.recoveryRuleId]) ∧
      buildFriendAuthEntries env staging.account staged.parentAuthDigestHex i
        staging.contributors = .ok nested ∧
      op =
        { original with
          auth :=
            { credentials := .address
                { creds with
                  signatureExpirationLedger := staging.parentSignatureExpirationLedger
                  signature }
              rootInvocation := invocation } :: nested } := by
  unfold authorizeStagedTx at shipped
  obtain ⟨signature, built, rest⟩ := Contract.bind_eq_ok.mp shipped
  obtain ⟨original, decoded, spliced⟩ := Contract.bind_eq_ok.mp rest
  cases authCase : original.auth with
  | nil =>
      rw [authCase] at spliced
      cases spliced
  | cons root others =>
      obtain ⟨credentials, invocation⟩ := root
      rw [authCase] at spliced
      cases credentials with
      | sourceAccount => cases spliced
      | address creds =>
          obtain ⟨nested, nestedBuilt, done⟩ := Contract.bind_eq_ok.mp spliced
          cases done
          exact ⟨original, creds, invocation, others, signature, nested, decoded, authCase,
            buildAuthPayload_ruleIds built, nestedBuilt, rfl⟩

theorem buildFriendAuthEntry_eq_ok {recoveringAccount parentAuthDigestHex : String}
    {fs : FriendSignature} {entry : FriendSignatureEntry} {nested : AuthEntry}
    (built : buildFriendAuthEntry env recoveringAccount fs entry parentAuthDigestHex =
      .ok nested) :
    ∃ address nonce signature invocation,
      env.stellar.addressOf fs.friendAccount = .ok address ∧
      env.stellar.int64FromString entry.nonce = .ok nonce ∧
      payloadRuleIds signature = some (contextRuleIdsVec [0]) ∧
      buildFriendInvocation env.stellar recoveringAccount parentAuthDigestHex = .ok invocation ∧
      nested =
        { credentials := .address
            { address
              nonce
              signatureExpirationLedger := entry.signatureExpirationLedger
              signature }
          rootInvocation := invocation } := by
  unfold buildFriendAuthEntry at built
  obtain ⟨invocation, called, rest⟩ := Contract.bind_eq_ok.mp built
  obtain ⟨signature, signed, rest⟩ := Contract.bind_eq_ok.mp rest
  obtain ⟨address, parsed, rest⟩ := Contract.bind_eq_ok.mp rest
  obtain ⟨nonce, number, done⟩ := Contract.bind_eq_ok.mp rest
  cases done
  exact ⟨address, nonce, signature, invocation, parsed, number, buildAuthPayload_ruleIds signed,
    called, rfl⟩

/-- What is staged for an envelope is the digest that the friend recomputes from it. -/
theorem stageRotationTx_digest {handoff : RotationHandoff} {digest : Bytes}
    {refractorTxHash refractorTxUrl : String} {staged : StagedRotationTx}
    (recomputed : parentAuthDigest env handoff txXdr = .ok digest)
    (prepared : stageRotationTx env handoff.recoveryRuleId handoff.parentSignatureExpirationLedger
      txXdr refractorTxHash refractorTxUrl = .ok staged) :
    staged.parentAuthDigestHex = buf2hex digest := by
  obtain ⟨creds, invocation, others, hostFunction, decoded, -, -, rfl⟩ :=
    parentAuthDigest_eq_ok recomputed
  unfold stageRotationTx assembledRootAuthEntry at prepared
  rw [decoded] at prepared
  obtain ⟨root, first, rest⟩ := Contract.bind_eq_ok.mp prepared
  cases first
  obtain ⟨payload, hashed, done⟩ := Contract.bind_eq_ok.mp rest
  cases done
  obtain ⟨-, creds', given, rfl⟩ := buildAuthHashAt_eq_ok.mp hashed
  cases given
  rfl

theorem shipped_parent_digest {handoff : RotationHandoff} {staging : RotationStaging}
    {staged : StagedRotationTx} {i : Nat} {op : InvokeHostFunctionOp} {digest : Bytes}
    (recomputed : parentAuthDigest env handoff txXdr = .ok digest)
    (same : SameRotation handoff staging) (stagedText : staged.txXdr = txXdr)
    (shipped : authorizeStagedTx env staging staged i = .ok op) :
    ∃ creds invocation nested,
      op.auth = { credentials := .address creds, rootInvocation := invocation } :: nested ∧
      env.stellar.addressToString creds.address = handoff.account ∧
      payloadRuleIds creds.signature = some (contextRuleIdsVec [handoff.recoveryRuleId]) ∧
      submittedDigest testnet creds invocation [handoff.recoveryRuleId] = digest := by
  obtain ⟨creds, invocation, others, hostFunction, decoded, owner, -, rfl⟩ :=
    parentAuthDigest_eq_ok recomputed
  obtain ⟨original, creds', invocation', others', signature, nested, decoded', auth, ruleIds, -,
    rfl⟩ := authorizeStagedTx_eq_ok shipped
  rw [stagedText, decoded] at decoded'
  cases decoded'
  cases auth
  refine ⟨_, invocation, nested, rfl, owner, ?_, ?_⟩
  · rw [← same.ruleId_same]
    exact ruleIds
  · rw [same.expiration_same]
    rfl

/-- The nested entry asks the friend's account to check what the friend signed, and the call it
authorizes is the account's check of the digest. -/
theorem nested_entry_payload {handoff : RotationHandoff} {refractorTxHash refractorTxUrl : String}
    {staged : StagedRotationTx} {fs : FriendSignature} {entry : FriendSignatureEntry}
    {payload : Bytes} {nested : AuthEntry}
    (prepared : stageRotationTx env handoff.recoveryRuleId handoff.parentSignatureExpirationLedger
      txXdr refractorTxHash refractorTxUrl = .ok staged)
    (approved : friendApprovalPayload env handoff txXdr entry.nonce
      entry.signatureExpirationLedger = .ok payload)
    (built : buildFriendAuthEntry env handoff.account fs entry staged.parentAuthDigestHex =
      .ok nested) :
    ∃ digest contract creds,
      parentAuthDigest env handoff txXdr = .ok digest ∧
      env.stellar.addressOf handoff.account = .ok contract ∧
      nested.credentials = .address creds ∧
      nested.rootInvocation = .mk
        (.contractFn { contract, fnName := "__check_auth", args := [.bytes digest] }) [] ∧
      payloadRuleIds creds.signature = some (contextRuleIdsVec [0]) ∧
      Sdk.hash (creds.preimage (networkId testnet) nested.rootInvocation).toXdr = payload := by
  obtain ⟨digest, recomputed, hashed⟩ := Contract.bind_eq_ok.mp approved
  rw [stageRotationTx_digest recomputed prepared] at built
  obtain ⟨nonce, invocation, number, called, -, rfl⟩ := friendSignaturePayload_eq_ok hashed
  obtain ⟨address, nonce', signature, invocation', -, number', ruleIds, called', rfl⟩ :=
    buildFriendAuthEntry_eq_ok built
  rw [number] at number'
  cases number'
  rw [called] at called'
  cases called'
  obtain ⟨contract, parsed, shape⟩ := buildFriendInvocation_eq_ok called
  exact ⟨digest, contract, _, recomputed, parsed, rfl, shape, ruleIds, rfl⟩

end Envelope

/-- A friend's signature covers the call that was validated, and both sides agree on what
was signed. -/
structure ApprovalCovers (env : RotationEnvironment) (txXdr account : String)
    (rootAuth : AuthEntry) : Prop where
  /-- The entry authorizes the envelope's own call at the account. -/
  covers_call : ∃ call, envelopeCall env txXdr = some call ∧
    env.stellar.addressToString call.contract = account ∧
    rootAuth.rootInvocation.function = .contractFn call
  parent_digest : ∀ handoff staging staged i op digest,
    handoff.account = account → parentAuthDigest env handoff txXdr = .ok digest →
    SameRotation handoff staging → staged.txXdr = txXdr →
    authorizeStagedTx env staging staged i = .ok op →
    ∃ creds invocation nested,
      op.auth = { credentials := .address creds, rootInvocation := invocation } :: nested ∧
      env.stellar.addressToString creds.address = account ∧
      payloadRuleIds creds.signature = some (contextRuleIdsVec [handoff.recoveryRuleId]) ∧
      submittedDigest testnet creds invocation [handoff.recoveryRuleId] = digest
  nested_payload : ∀ handoff refractorTxHash refractorTxUrl staged fs entry payload nested,
    handoff.account = account →
    stageRotationTx env handoff.recoveryRuleId handoff.parentSignatureExpirationLedger txXdr
      refractorTxHash refractorTxUrl = .ok staged →
    friendApprovalPayload env handoff txXdr entry.nonce entry.signatureExpirationLedger =
      .ok payload →
    buildFriendAuthEntry env account fs entry staged.parentAuthDigestHex = .ok nested →
    ∃ digest contract creds,
      parentAuthDigest env handoff txXdr = .ok digest ∧
      env.stellar.addressOf account = .ok contract ∧
      nested.credentials = .address creds ∧
      nested.rootInvocation = .mk
        (.contractFn { contract, fnName := "__check_auth", args := [.bytes digest] }) [] ∧
      payloadRuleIds creds.signature = some (contextRuleIdsVec [0]) ∧
      Sdk.hash (creds.preimage (networkId testnet) nested.rootInvocation).toXdr = payload

/-- The validated call is the approved one exactly when the envelope's two copies agree; the
digests agree in every envelope. -/
theorem friend_approval_covers_iff {env : RotationEnvironment} {txXdr account : String}
    {rootAuth : AuthEntry}
    (validated : validateRecoveryTxEnvelope env txXdr account = .ok rootAuth) :
    ApprovalCovers env txXdr account rootAuth ↔ CopiesAgree env txXdr := by
  obtain ⟨call, creds, invocation, others, decoded, target, -, rfl⟩ :=
    validateRecoveryTxEnvelope_eq_ok validated
  have invoked : envelopeInvocation env txXdr = .ok
      { hostFunction := .invokeContract call
        auth := { credentials := .address creds, rootInvocation := invocation } :: others } := by
    rw [envelopeInvocation, decoded]
    rfl
  have called : envelopeCall env txXdr = some call := by
    rw [envelopeCall, invoked]
  constructor
  · intro covers
    obtain ⟨own, ownCall, -, root⟩ := covers.covers_call
    rw [called] at ownCall
    cases ownCall
    exact ⟨call, _, others, invoked, root⟩
  · rintro ⟨own, rootAuth, rest, same, root⟩
    rw [invoked] at same
    cases same
    refine ⟨⟨call, called, target, root⟩, ?_, ?_⟩
    · intro handoff staging staged i op digest isAccount recomputed rotation stagedText shipped
      rw [← isAccount]
      exact shipped_parent_digest recomputed rotation stagedText shipped
    · intro handoff refractorTxHash refractorTxUrl staged fs entry payload nested isAccount
        prepared approved built
      subst isAccount
      exact nested_entry_payload prepared approved built

/-! ### The removal of a lost passkey -/

namespace SampleRotation

def recovering : Address := .contract ⟨List.replicate 32 7, rfl⟩

def account : String := "CADQOBYHA4DQOBYHA4DQOBYHA4DQOBYHA4DQOBYHA4DQOBYHA4DQP5KR"

def removal (signerId : UInt32) : ContractContext where
  contract := recovering
  fnName := "remove_signer"
  args := [.u32 0, .u32 signerId]

def rootEntry (signerId : UInt32) : AuthEntry where
  credentials := .address
    { address := recovering, nonce := 123, signatureExpirationLedger := 0, signature := .void }
  rootInvocation := .mk (.contractFn (removal signerId)) []

/-- The host function removes signer 1; the entry authorizes the removal of another one or
of the same. -/
def envelope (authorized : UInt32) : TransactionEnvelope :=
  .tx [.invokeHostFunction
    { hostFunction := .invokeContract (removal 1), auth := [rootEntry authorized] }]

def envelopeStart : String :=
  "AAAAAgAAAAAFBQUFBQUFBQUFBQUFBQUFBQUFBQUFBQUFBQUFBQUFBQAAAGQAAAAAAAAAAQAAAAAAAAAAAAAAAQAAAAAA" ++
    "AAAYAAAAAAAAAAEHBwcHBwcHBwcHBwcHBwcHBwcHBwcHBwcHBwcHBwcHBwAAAA1yZW1vdmVfc2lnbmVyAAAAAAAAAgAA" ++
    "AAMAAAAAAAAAAwAAAAEAAAABAAAAAQAAAAEHBwcHBwcHBwcHBwcHBwcHBwcHBwcHBwcHBwcHBwcHBwAAAAAAAAB7AAAA" ++
    "AAAAAAEAAAAAAAAAAQcHBwcHBwcHBwcHBwcHBwcHBwcHBwcHBwcHBwcHBwcHAAAADXJlbW92ZV9zaWduZXIAAAAAAAAC" ++
    "AAAAAwAAAAAAAAADAAAAA"

def honestXdr : String := envelopeStart ++
  "QAAAAAAAAAAAAAAAA=="

def substitutedXdr : String := envelopeStart ++
  "AAAAAAAAAAAAAAAAA=="

def read (txXdr : String) (authorized : UInt32) (text : String) : Js TransactionEnvelope :=
  if text = txXdr then .ok (envelope authorized) else .error "XDR Read Error: invalid input"

def friendAccount : String := "CAEAQCAIBAEAQCAIBAEAQCAIBAEAQCAIBAEAQCAIBAEAQCAIBAEAQMCJ"

def verifierAddress : String := "CAEQSCIJBEEQSCIJBEEQSCIJBEEQSCIJBEEQSCIJBEEQSCIJBEEQTD2L"

def addressOf (text : String) : Js Address :=
  if text = account then .ok recovering
  else if text = friendAccount then .ok (.contract ⟨List.replicate 32 8, rfl⟩)
  else if text = verifierAddress then .ok (.contract ⟨List.replicate 32 9, rfl⟩)
  else .error ("Unsupported address type: " ++ text)

def int64FromString (text : String) : Js Int :=
  if text = "123" then .ok 123 else .error ("Cannot convert " ++ text ++ " to a BigInt")

def stellar : Stellar where
  addressOf := addressOf
  addressToString := fun address => if address = recovering then account else ""
  int64FromString := int64FromString

def env (txXdr : String) (authorized : UInt32) : RotationEnvironment where
  stellar := stellar
  envelopeFromXdr := read txXdr authorized
  findRecoveryRules := fun _ => .ok []
  loadCredential := fun _ => none
  fetchVerifierAddress := fun _ => .error "verifier unreadable"
  latestLedger := .ok 1000
  fetchRefractorTransaction := fun _ => .ok { network := "testnet", xdr := txXdr }
  randomNonce := fun i => toString i
  authenticator := fun _ => .error "Passkey signing was cancelled."

theorem reads (txXdr : String) (authorized : UInt32) :
    (env txXdr authorized).envelopeFromXdr txXdr = .ok (envelope authorized) :=
  if_pos rfl

theorem recovering_toString (txXdr : String) (authorized : UInt32) :
    (env txXdr authorized).stellar.addressToString recovering = account := by
  change (if recovering = recovering then account else "") = account
  exact if_pos rfl

theorem invokes (txXdr : String) (authorized : UInt32) :
    envelopeInvocation (env txXdr authorized) txXdr =
      .ok { hostFunction := .invokeContract (removal 1), auth := [rootEntry authorized] } := by
  rw [envelopeInvocation, reads]
  rfl

theorem validates (txXdr : String) (authorized : UInt32) :
    validateRecoveryTxEnvelope (env txXdr authorized) txXdr account =
      .ok (rootEntry authorized) := by
  have passes : validateRecoveryInvocation (env txXdr authorized)
      { hostFunction := .invokeContract (removal 1), auth := [rootEntry authorized] } account =
        .ok (rootEntry authorized) := by
    unfold validateRecoveryInvocation
    dsimp only [removal, rootEntry]
    rw [recovering_toString]
    rfl
  rw [validateRecoveryTxEnvelope, reads]
  exact passes

end SampleRotation

theorem friend_approval_covers_iff_honest :
    ApprovalCovers (SampleRotation.env SampleRotation.honestXdr 1) SampleRotation.honestXdr
      SampleRotation.account (SampleRotation.rootEntry 1) := by
  apply (friend_approval_covers_iff (SampleRotation.validates SampleRotation.honestXdr 1)).mpr
  exact ⟨SampleRotation.removal 1, SampleRotation.rootEntry 1, [],
    SampleRotation.invokes SampleRotation.honestXdr 1, rfl⟩

/-- The envelope removes signer 1, passes all checks, and has the friend approve the removal
of signer 0. -/
theorem friend_approval_substituted :
    validateRecoveryTxEnvelope (SampleRotation.env SampleRotation.substitutedXdr 0)
      SampleRotation.substitutedXdr SampleRotation.account =
        .ok (SampleRotation.rootEntry 0) ∧
    envelopeCall (SampleRotation.env SampleRotation.substitutedXdr 0)
      SampleRotation.substitutedXdr = some (SampleRotation.removal 1) ∧
    (SampleRotation.rootEntry 0).rootInvocation.function =
      .contractFn (SampleRotation.removal 0) ∧
    ¬ ApprovalCovers (SampleRotation.env SampleRotation.substitutedXdr 0)
      SampleRotation.substitutedXdr SampleRotation.account (SampleRotation.rootEntry 0) := by
  have called : envelopeCall (SampleRotation.env SampleRotation.substitutedXdr 0)
      SampleRotation.substitutedXdr = some (SampleRotation.removal 1) := by
    rw [envelopeCall, SampleRotation.invokes]
  refine ⟨SampleRotation.validates SampleRotation.substitutedXdr 0, called, rfl, ?_⟩
  intro covers
  obtain ⟨call, own, -, root⟩ := covers.covers_call
  rw [called] at own
  cases own
  have args : (SampleRotation.removal 0).args = (SampleRotation.removal 1).args := by
    have same := AuthorizedFunction.contractFn.inj root
    rw [same]
  exact absurd args (by decide)

end Nido.Frontend
