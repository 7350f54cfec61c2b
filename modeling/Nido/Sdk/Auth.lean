/-
Signing an authorization entry with passkeys.

What a passkey signs is a digest of the entry and of the ids of the context rules
that are to authorize it; what is put on the entry is a payload that lists the
same ids next to the signatures. The account recomputes the digest from the entry
as it was submitted.
-/

import Nido.Library.Sha256
import Nido.SmartAccount.Types
import Nido.Soroban.Xdr
import Nido.Sdk.AuthHash

namespace Nido.Sdk

/-- The Stellar library's `hash`, which `auth.ts` and `friendSigning.ts` describe as SHA-256 and
the contracts recompute with `env.crypto().sha256` (`crates/integration-tests/src/lib.rs`). -/
def hash (data : Bytes) : Bytes := Sha256.digest data

/-! ### Payloads with several signers -/

structure PasskeySignature where
  authenticatorData : Bytes
  clientDataJson : Bytes
  signature : Bytes

inductive SignerSignature
  | external (verifierAddress : String) (publicKey : Bytes) (passkeySignature : PasskeySignature)
  | delegated (address : String) (sigData : Option Bytes)

structure AuthPayloadSpec where
  contextRuleIds : List UInt32
  signers : List SignerSignature

def webAuthnSigDataBytes (sig : PasskeySignature) : Bytes :=
  (ScVal.map
    [(.symbol "authenticator_data", .bytes sig.authenticatorData),
      (.symbol "client_data", .bytes sig.clientDataJson),
      (.symbol "signature", .bytes sig.signature)]).toXdr

section Payload

variable (addressOf : String → Js Address)

def signerScVal : SignerSignature → Js ScVal
  | .external verifierAddress publicKey _ => do
      let verifier ← addressOf verifierAddress
      pure (Signer.external verifier publicKey).toScVal
  | .delegated address _ => do
      let account ← addressOf address
      pure (Signer.delegated account).toScVal

def sigDataScVal : SignerSignature → ScVal
  | .external _ _ passkeySignature => .bytes (webAuthnSigDataBytes passkeySignature)
  | .delegated _ sigData => .bytes (sigData.getD [])

def signerEntries : List SignerSignature → Js (List (ScVal × ScVal))
  | [] => pure []
  | signer :: rest => do
      let key ← signerScVal addressOf signer
      let entries ← signerEntries rest
      pure ((key, sigDataScVal signer) :: entries)

def sortEntries (entries : List (ScVal × ScVal)) : List (ScVal × ScVal) :=
  entries.mergeSort (fun left right => decide (¬ right.1.toXdr < left.1.toXdr))

def contextRuleIdsVec (contextRuleIds : List UInt32) : ScVal := .vec (contextRuleIds.map .u32)

def buildAuthPayloadScVal (spec : AuthPayloadSpec) : Js ScVal :=
  if spec.signers.length = 0 then
    .error "buildAuthPayloadScVal: at least one signer required"
  else do
    let entries ← signerEntries addressOf spec.signers
    pure (.map
      [(.symbol "context_rule_ids", contextRuleIdsVec spec.contextRuleIds),
        (.symbol "signers", .map (sortEntries entries))])

end Payload

/-! ### Digests -/

def networkId (networkPassphrase : String) : Bytes := hash networkPassphrase.toUTF8.toList

def defaultExpirationOffset : Nat := 10000

/-- Credentials of the source account carry nothing that could be read. -/
def buildAuthHashAt (authEntry : AuthEntry) (networkPassphrase : String)
    (signatureExpirationLedger : Nat) : Js Bytes :=
  match authEntry.credentials with
  | .sourceAccount => .error "Cannot read properties of undefined (reading 'nonce')"
  | .address creds =>
      if signatureExpirationLedger < 2 ^ 32 then
        .ok (hash (AuthorizationPreimage.toXdr
          { networkId := networkId networkPassphrase
            nonce := creds.nonce
            signatureExpirationLedger
            invocation := authEntry.rootInvocation }))
      else
        .error "XDR Write Error: invalid u32 value"

def buildAuthHash (authEntry : AuthEntry) (networkPassphrase : String) (lastLedger : Nat)
    (expirationLedgerOffset : Option Nat) : Js Bytes :=
  buildAuthHashAt authEntry networkPassphrase
    (lastLedger + expirationLedgerOffset.getD defaultExpirationOffset)

def computeAuthDigest (signaturePayload : Bytes) (contextRuleIds : List UInt32) : Bytes :=
  hash (signaturePayload ++ (contextRuleIdsVec contextRuleIds).toXdr)

/-! ### Entries of a simulation and of a transaction -/

structure SimulationSuccess where
  auth : Option (List AuthEntry)
  latestLedger : Nat

def getAuthEntry (simulation : SimulationSuccess) : Js AuthEntry :=
  match simulation.auth with
  | none | some [] => .error "No authorization entries in simulation result"
  | some (first :: _) => .ok first

section Inject

variable (addressOf : String → Js Address)

def injectSignedAuthPayload (op : InvokeHostFunctionOp) (signers : List SignerSignature)
    (lastLedger : Nat) (expirationLedgerOffset : Option Nat) (contextRuleIds : List UInt32) :
    Js InvokeHostFunctionOp :=
  match op.auth with
  | [] => .error "No authorization entries in transaction"
  | original :: others =>
      match original.credentials with
      | .sourceAccount =>
          .error "Cannot read properties of undefined (reading 'signatureExpirationLedger')"
      | .address creds => do
          let signature ← buildAuthPayloadScVal addressOf { contextRuleIds, signers }
          let signedEntry : AuthEntry :=
            { original with
              credentials := .address
                { creds with
                  signatureExpirationLedger :=
                    lastLedger + expirationLedgerOffset.getD defaultExpirationOffset
                  signature } }
          pure { op with auth := signedEntry :: others }

def injectPasskeySignature (op : InvokeHostFunctionOp) (passkeySignature : PasskeySignature)
    (verifierAddress : String) (publicKey : Bytes) (lastLedger : Nat)
    (expirationLedgerOffset : Option Nat) (contextRuleIds : List UInt32) :
    Js InvokeHostFunctionOp :=
  injectSignedAuthPayload addressOf op [.external verifierAddress publicKey passkeySignature]
    lastLedger expirationLedgerOffset contextRuleIds

end Inject

/-! ### The account's side -/

def payloadRuleIds : ScVal → Option ScVal
  | .map entries => (entries.find? (fun entry => entry.1.beq (.symbol "context_rule_ids"))).map
      Prod.snd
  | _ => none

/-- The digest that the account recomputes from a submitted entry and a list of ids. -/
def submittedDigest (networkPassphrase : String) (creds : AddressCredentials)
    (invocation : AuthorizedInvocation) (contextRuleIds : List UInt32) : Bytes :=
  hash (hash (creds.preimage (networkId networkPassphrase) invocation).toXdr ++
    (contextRuleIdsVec contextRuleIds).toXdr)

theorem contextRuleIdsVec_injective : Function.Injective contextRuleIdsVec := by
  intro left right same
  unfold contextRuleIdsVec at same
  injection same with items
  exact List.map_injective_iff.mpr (fun _ _ equal => by injection equal) items

theorem buildAuthPayload_ruleIds {addressOf : String → Js Address} {spec : AuthPayloadSpec}
    {payload : ScVal} (built : buildAuthPayloadScVal addressOf spec = .ok payload) :
    payloadRuleIds payload = some (contextRuleIdsVec spec.contextRuleIds) := by
  unfold buildAuthPayloadScVal at built
  split at built
  · cases built
  · obtain ⟨entries, _, rest⟩ := Contract.bind_eq_ok.mp built
    cases rest
    rfl

theorem getAuthEntry_eq_ok {simulation : SimulationSuccess} {entry : AuthEntry} :
    getAuthEntry simulation = .ok entry ↔ ∃ others, simulation.auth = some (entry :: others) := by
  unfold getAuthEntry
  split
  next absent => simp [absent]
  next empty => simp [empty]
  next first rest given =>
    rw [given]
    constructor
    · intro taken
      cases taken
      exact ⟨rest, rfl⟩
    · rintro ⟨others, same⟩
      cases same
      rfl

theorem buildAuthHashAt_eq_ok {entry : AuthEntry} {networkPassphrase : String}
    {signatureExpirationLedger : Nat} {payload : Bytes} :
    buildAuthHashAt entry networkPassphrase signatureExpirationLedger = .ok payload ↔
      signatureExpirationLedger < 2 ^ 32 ∧ ∃ creds, entry.credentials = .address creds ∧
        payload = hash (AddressCredentials.preimage (networkId networkPassphrase)
          { creds with signatureExpirationLedger } entry.rootInvocation).toXdr := by
  unfold buildAuthHashAt
  constructor
  · intro hashed
    cases given : entry.credentials with
    | sourceAccount =>
        rw [given] at hashed
        cases hashed
    | address creds =>
        rw [given] at hashed
        dsimp only at hashed
        split at hashed
        next small =>
          cases hashed
          exact ⟨small, creds, rfl, rfl⟩
        next => cases hashed
  · rintro ⟨small, creds, given, rfl⟩
    rw [given]
    exact if_pos small

theorem buildAuthHash_eq_ok {entry : AuthEntry} {networkPassphrase : String} {lastLedger : Nat}
    {offset : Option Nat} {payload : Bytes}
    (hashed : buildAuthHash entry networkPassphrase lastLedger offset = .ok payload) :
    ∃ creds, entry.credentials = .address creds ∧
      payload = hash (AddressCredentials.preimage (networkId networkPassphrase)
        { creds with
          signatureExpirationLedger := lastLedger + offset.getD defaultExpirationOffset }
        entry.rootInvocation).toXdr :=
  (buildAuthHashAt_eq_ok.mp hashed).2

/-- The payload goes on the first entry, which keeps its address, its nonce and its
calls; the other entries stay. -/
theorem injectSignedAuthPayload_eq_ok {addressOf : String → Js Address}
    {op signed : InvokeHostFunctionOp} {signers : List SignerSignature} {lastLedger : Nat}
    {offset : Option Nat} {contextRuleIds : List UInt32}
    (injected : injectSignedAuthPayload addressOf op signers lastLedger offset contextRuleIds =
      .ok signed) :
    ∃ creds invocation others signature,
      op.auth = { credentials := .address creds, rootInvocation := invocation } :: others ∧
      payloadRuleIds signature = some (contextRuleIdsVec contextRuleIds) ∧
      signed =
        { op with
          auth :=
            { credentials := .address
                { creds with
                  signatureExpirationLedger :=
                    lastLedger + offset.getD defaultExpirationOffset
                  signature }
              rootInvocation := invocation } :: others } := by
  unfold injectSignedAuthPayload at injected
  cases given : op.auth with
  | nil =>
      rw [given] at injected
      cases injected
  | cons original others =>
      obtain ⟨credentials, invocation⟩ := original
      rw [given] at injected
      cases credentials with
      | sourceAccount => cases injected
      | address creds =>
          obtain ⟨signature, built, rest⟩ := Contract.bind_eq_ok.mp injected
          cases rest
          exact ⟨creds, invocation, others, signature, rfl, buildAuthPayload_ruleIds built, rfl⟩

end Nido.Sdk
