/-
Signing a transaction that a dApp hands over.

The transaction is simulated without its authorizations, the passkeys sign a
digest of an entry that the simulation returned, and the payload goes on an entry
of the assembled transaction. The chain, the browser's authenticator and the
transaction library stand outside: what they answer is an input.
-/

import Mathlib.Data.List.Infix
import Nido.Sdk.Auth
import Nido.Sdk.Encoding

namespace Nido.Frontend

open Sdk

/-! ### What the ceremony reads -/

structure StoredCredential where
  credentialId : Bytes
  publicKey : String

structure ResolvedSignerRule where
  ruleId : UInt32
  verifier : String

structure ExternalSigner where
  verifier : String
  publicKey : Bytes

structure DefaultRuleAuthInfo where
  externalSigners : List ExternalSigner
  delegatedCount : Nat
  policyCount : Nat
  threshold : Option Nat

inductive TxOperation
  | invokeHostFunction (op : InvokeHostFunctionOp)
  | other (type : String)

structure Transaction where
  source : String
  fee : String
  operations : List TxOperation

inductive ParsedTransaction
  | transaction (tx : Transaction)
  | feeBump

inductive SimulationResponse
  | error (message : String)
  | success (simulation : SimulationSuccess)

/-- A call of `navigator.credentials.get`; without a credential id the user picks one. -/
structure AssertionRequest where
  challenge : Bytes
  credentialId : Option Bytes

inductive AssertionAnswer
  | assertion (sig : PasskeySignature)
  | cancelled
  | failed (message : String)

structure WalletEnvironment where
  addressOf : String → Js Address
  loadCredential : String → Option StoredCredential
  fromXdr : String → String → Js ParsedTransaction
  resolveSignerRule : String → String → Js (Option ResolvedSignerRule)
  fetchDefaultRuleAuthInfo : String → UInt32 → Js DefaultRuleAuthInfo
  getAccount : String → Js String
  simulateTransaction : Transaction → Js SimulationResponse
  simulateEnforced : Transaction → Js SimulationResponse
  assembleTransaction : Transaction → SimulationSuccess → Js Transaction
  /-- A clone with the resources that the second simulation found. -/
  refit : Transaction → SimulationSuccess → Transaction
  relayerEnabled : Bool
  /-- The answer may depend on what was asked before. -/
  authenticator : List AssertionRequest → AssertionRequest → AssertionAnswer
  p256Verify : (signature digest publicKey : Bytes) → Bool

def relayerExpirationOffset : Nat := 120

def requiredSignatureCount (info : DefaultRuleAuthInfo) : Nat :=
  if info.policyCount > 0 then max 1 (info.threshold.getD 1)
  else max 1 (info.externalSigners.length + info.delegatedCount)

def nOfNHelp (required total : Nat) : String :=
  "This account currently requires all " ++ toString required ++ " of its " ++ toString total ++
    " passkeys to approve together (no approval policy is installed on its signing rule). If " ++
    "you don't have all of them on this device, open the account's Security → \"Get back in\" " ++
    "page: your trusted friends can repair the account so any single passkey works again."

/-- The operation of a transaction that carries one contract invocation and nothing else. -/
def sorobanOperation (tx : Transaction) : Option InvokeHostFunctionOp :=
  match tx.operations with
  | [.invokeHostFunction op] => some op
  | _ => none

/-! ### Ceremonies -/

section Ceremony

variable (env : WalletEnvironment)

def runAssertionCeremony (asked : List AssertionRequest) (request : AssertionRequest) :
    Js PasskeySignature :=
  match env.authenticator asked request with
  | .assertion sig => .ok sig
  | .cancelled => .error "Passkey signing was cancelled."
  | .failed message => .error message

def identifyAssertionSigner (sig : PasskeySignature) (candidates : List Bytes) : Option Nat :=
  let digest := Sdk.hash (sig.authenticatorData ++ Sdk.hash sig.clientDataJson)
  candidates.findIdx? (fun candidate => env.p256Verify sig.signature digest candidate)

/-- A cancelled ceremony is explained by what is still missing. -/
def wrapCancel (collected required total : Nat) (run : Js PasskeySignature) :
    Js PasskeySignature :=
  match run with
  | .ok sig => .ok sig
  | .error message =>
      if "cancelled".toList <:+: message.toLower.toList then
        .error ("Signing stopped after " ++ toString collected ++ " of " ++ toString required ++
          " required passkey approvals. " ++ nOfNHelp required total)
      else
        .error message

/-- A later signer with the same key replaces the earlier one, in its place. -/
def setSigner (remaining : List (String × ExternalSigner)) (key : String)
    (signer : ExternalSigner) : List (String × ExternalSigner) :=
  match remaining with
  | [] => [(key, signer)]
  | (other, earlier) :: rest =>
      if other = key then (key, signer) :: rest else (other, earlier) :: setSigner rest key signer

def signerKey (signer : ExternalSigner) : String := (buf2hex signer.publicKey).toLower

def signerMap (signers : List ExternalSigner) : List (String × ExternalSigner) :=
  signers.foldl (fun remaining signer => setSigner remaining (signerKey signer) signer) []

def deleteSigner (remaining : List (String × ExternalSigner)) (key : String) :
    List (String × ExternalSigner) :=
  remaining.filter (fun entry => decide (entry.1 ≠ key))

structure Collected where
  signers : List SignerSignature
  asked : List AssertionRequest

def Collected.add (collected : Collected) (signer : ExternalSigner) (sig : PasskeySignature)
    (request : AssertionRequest) : Collected where
  signers := collected.signers ++ [.external signer.verifier signer.publicKey sig]
  asked := collected.asked ++ [request]

def collectDiscoverable (required total : Nat) (challengeBytes : Bytes)
    (remaining : List (String × ExternalSigner)) (collected : Collected) :
    Js (List (String × ExternalSigner) × Collected) := do
  let request : AssertionRequest := { challenge := challengeBytes, credentialId := none }
  let sig ← wrapCancel collected.signers.length required total
    (runAssertionCeremony env collected.asked request)
  match (identifyAssertionSigner env sig (remaining.map (·.2.publicKey))).bind
      (fun idx => remaining[idx]?) with
  | none =>
      .error ("That passkey is not one of this account's remaining signers (or was already " ++
        "used in this ceremony). " ++ nOfNHelp required total)
  | some (_, matched) =>
      .ok (deleteSigner remaining (signerKey matched), collected.add matched sig request)

def collectRemaining (required total : Nat) (challengeBytes : Bytes) : (missing : Nat) →
    List (String × ExternalSigner) → Collected → Js Collected
  | 0, _, collected => .ok collected
  | missing + 1, remaining, collected => do
      let (remaining, collected) ←
        collectDiscoverable env required total challengeBytes remaining collected
      collectRemaining required total challengeBytes missing remaining collected

/-- The stored credential signs first if the rule lists it. -/
def collectStored (ruleInfo : DefaultRuleAuthInfo) (required total : Nat) (challengeBytes : Bytes)
    (storedCred : StoredCredential) : Js (List (String × ExternalSigner) × Collected) :=
  let remaining := signerMap ruleInfo.externalSigners
  let storedHex := storedCred.publicKey.toLower
  match remaining.lookup storedHex with
  | none => .ok (remaining, { signers := [], asked := [] })
  | some storedSigner => do
      let request : AssertionRequest :=
        { challenge := challengeBytes, credentialId := some storedCred.credentialId }
      let sig ← wrapCancel 0 required total (runAssertionCeremony env [] request)
      pure (deleteSigner remaining storedHex,
        Collected.add { signers := [], asked := [] } storedSigner sig request)

def collectMultiPasskeySignatures (ruleInfo : DefaultRuleAuthInfo) (required : Nat)
    (challengeBytes : Bytes) (storedCred : StoredCredential) : Js Collected := do
  let total := ruleInfo.externalSigners.length + ruleInfo.delegatedCount
  let (remaining, collected) ←
    collectStored env ruleInfo required total challengeBytes storedCred
  collectRemaining env required total challengeBytes (required - collected.signers.length)
    remaining collected

/-! ### The signature step -/

def requiredSignatures : Option DefaultRuleAuthInfo → Nat
  | none => 1
  | some info => requiredSignatureCount info

/-- A rule that this ceremony cannot satisfy is refused before any prompt. -/
def preflight : Option DefaultRuleAuthInfo → Js Unit
  | none => .ok ()
  | some info =>
      let required := requiredSignatureCount info
      let total := info.externalSigners.length + info.delegatedCount
      if required > 1 ∧ (info.policyCount = 0 ∧ info.delegatedCount > 0 ∨
          required > info.externalSigners.length) then
        .error (nOfNHelp required total)
      else
        .ok ()

structure SignArgs where
  account : String
  txXdr : String
  networkPassphrase : Option String

def SignArgs.passphrase (args : SignArgs) : String :=
  args.networkPassphrase.getD "Test SDF Network ; September 2015"

def parseSorobanTx (args : SignArgs) : Js (Transaction × InvokeHostFunctionOp) := do
  let parsed ← env.fromXdr args.txXdr args.passphrase
  match parsed with
  | .feeBump =>
      .error "Fee-bump transactions are not supported by the Nido passkey signer."
  | .transaction tx =>
      match sorobanOperation tx with
      | none =>
          .error ("This transaction is not a Soroban contract invocation. A Nido smart account " ++
            "(a contract address) can only authorize Soroban operations, so there is nothing " ++
            "for the passkey to sign on a classic Stellar transaction.")
      | some op => .ok (tx, op)

/-- The transaction that is simulated carries no authorizations. -/
def simulationTx (source fee : String) (op : InvokeHostFunctionOp) : Transaction where
  source := source
  fee := fee
  operations := [.invokeHostFunction { hostFunction := op.hostFunction, auth := [] }]

def expectSuccess (failing : String) : SimulationResponse → Js SimulationSuccess
  | .error message => .error (failing ++ message)
  | .success simulation => .ok simulation

def expirationOffset : Option Nat :=
  if env.relayerEnabled then some relayerExpirationOffset else none

def onOperation (transaction : Transaction)
    (inject : InvokeHostFunctionOp → Js InvokeHostFunctionOp) : Js Transaction :=
  match transaction.operations with
  | .invokeHostFunction op :: rest => do
      let signed ← inject op
      pure { transaction with operations := .invokeHostFunction signed :: rest }
  | _ => .error "No authorization entries in transaction"

structure SignedTransaction where
  transaction : Transaction
  asked : List AssertionRequest

def signSimulated (passphrase : String) (cred : StoredCredential) (resolved : ResolvedSignerRule)
    (ruleInfo : Option DefaultRuleAuthInfo) (simTx : Transaction)
    (simulation : SimulationSuccess) : Js SignedTransaction := do
  let authEntry ← getAuthEntry simulation
  let lastLedger := simulation.latestLedger
  let signaturePayload ← buildAuthHash authEntry passphrase lastLedger (expirationOffset env)
  let contextRuleIds := [resolved.ruleId]
  let challengeBytes := computeAuthDigest signaturePayload contextRuleIds
  let assembledTx ← env.assembleTransaction simTx simulation
  if requiredSignatures ruleInfo ≤ 1 then do
    let request : AssertionRequest :=
      { challenge := challengeBytes, credentialId := some cred.credentialId }
    let parsedSig ← runAssertionCeremony env [] request
    let transaction ← onOperation assembledTx (fun op =>
      injectPasskeySignature env.addressOf op parsedSig resolved.verifier
        (hex2buf cred.publicKey) lastLedger (expirationOffset env) contextRuleIds)
    pure { transaction, asked := [request] }
  else
    match ruleInfo with
    | none => .error "Cannot read properties of null (reading 'externalSigners')"
    | some info => do
        let collected ←
          collectMultiPasskeySignatures env info (requiredSignatureCount info) challengeBytes cred
        let transaction ← onOperation assembledTx (fun op =>
          injectSignedAuthPayload env.addressOf op collected.signers lastLedger
            (expirationOffset env) contextRuleIds)
        pure { transaction, asked := collected.asked }

/-- `signTransactionXdr` up to the point where the payload is on the transaction. -/
def signatureStep (args : SignArgs) : Js SignedTransaction :=
  match env.loadCredential args.account with
  | none => .error "No passkey registered for this account."
  | some cred => do
      let (tx, op) ← parseSorobanTx env args
      let resolved ← env.resolveSignerRule args.account cred.publicKey
      match resolved with
      | none =>
          .error ("This passkey is not registered on any authorization rule of the account. If " ++
            "you just recovered, wait for the completion transaction to confirm and retry.")
      | some resolved => do
          let ruleInfo := (env.fetchDefaultRuleAuthInfo args.account resolved.ruleId).toOption
          preflight ruleInfo
          let sourceAccount ← env.getAccount tx.source
          let simTx := simulationTx sourceAccount tx.fee op
          let response ← env.simulateTransaction simTx
          let simulation ← expectSuccess "Simulation failed: " response
          signSimulated env args.passphrase cred resolved ruleInfo simTx simulation

/-- The transaction is simulated again, with the payload, and returned with the
resources that this run needed. -/
def signTransactionXdr (args : SignArgs) : Js Transaction := do
  let signed ← signatureStep env args
  let response ← env.simulateEnforced signed.transaction
  let simulation ← expectSuccess "Final simulation failed: " response
  pure (env.refit signed.transaction simulation)

end Ceremony

/-! ### Every ceremony is about the same challenge -/

/-- All that was asked is about one challenge, and every request brought a signature. -/
structure Collected.Sound (challenge : Bytes) (collected : Collected) : Prop where
  about : ∀ request ∈ collected.asked, request.challenge = challenge
  answered : collected.asked.length = collected.signers.length

theorem Collected.Sound.empty (challenge : Bytes) :
    Collected.Sound challenge { signers := [], asked := [] } where
  about := fun _ listed => (List.not_mem_nil listed).elim
  answered := rfl

theorem Collected.Sound.add {challenge : Bytes} {collected : Collected}
    (sound : collected.Sound challenge) (signer : ExternalSigner) (sig : PasskeySignature)
    {request : AssertionRequest} (same : request.challenge = challenge) :
    (collected.add signer sig request).Sound challenge where
  about := by
    intro asked listed
    obtain before | new := List.mem_append.mp listed
    · exact sound.about asked before
    · rw [List.mem_singleton.mp new]
      exact same
  answered := by
    unfold Collected.add
    dsimp only
    rw [List.length_append, List.length_append, sound.answered]
    rfl

section Rounds

variable {env : WalletEnvironment} {required total : Nat} {challengeBytes : Bytes}

theorem collectDiscoverable_sound {remaining others : List (String × ExternalSigner)}
    {collected next : Collected} (sound : collected.Sound challengeBytes)
    (round : collectDiscoverable env required total challengeBytes remaining collected =
      .ok (others, next)) :
    next.Sound challengeBytes ∧ next.signers.length = collected.signers.length + 1 := by
  unfold collectDiscoverable at round
  obtain ⟨sig, _, matching⟩ := Contract.bind_eq_ok.mp round
  split at matching
  · cases matching
  · cases matching
    exact ⟨sound.add _ sig rfl, List.length_append⟩

theorem collectRemaining_sound {missing : Nat} {remaining : List (String × ExternalSigner)}
    {collected result : Collected} (sound : collected.Sound challengeBytes)
    (loop : collectRemaining env required total challengeBytes missing remaining collected =
      .ok result) :
    result.Sound challengeBytes ∧
      result.signers.length = collected.signers.length + missing := by
  induction missing generalizing remaining collected with
  | zero =>
      cases loop
      exact ⟨sound, rfl⟩
  | succ missing ih =>
      unfold collectRemaining at loop
      obtain ⟨⟨others, next⟩, round, rest⟩ := Contract.bind_eq_ok.mp loop
      obtain ⟨nextSound, more⟩ := collectDiscoverable_sound sound round
      obtain ⟨resultSound, count⟩ := ih nextSound rest
      refine ⟨resultSound, ?_⟩
      omega

theorem collectStored_sound {ruleInfo : DefaultRuleAuthInfo} {storedCred : StoredCredential}
    {remaining : List (String × ExternalSigner)} {collected : Collected}
    (stored : collectStored env ruleInfo required total challengeBytes storedCred =
      .ok (remaining, collected)) : collected.Sound challengeBytes := by
  unfold collectStored at stored
  dsimp only at stored
  split at stored
  · cases stored
    exact Collected.Sound.empty challengeBytes
  · obtain ⟨sig, _, rest⟩ := Contract.bind_eq_ok.mp stored
    cases rest
    exact (Collected.Sound.empty challengeBytes).add _ sig rfl

theorem collectMultiPasskeySignatures_sound {ruleInfo : DefaultRuleAuthInfo}
    {storedCred : StoredCredential} {result : Collected}
    (done : collectMultiPasskeySignatures env ruleInfo required challengeBytes storedCred =
      .ok result) :
    result.Sound challengeBytes ∧ required ≤ result.signers.length := by
  unfold collectMultiPasskeySignatures at done
  obtain ⟨⟨remaining, collected⟩, stored, loop⟩ := Contract.bind_eq_ok.mp done
  obtain ⟨sound, count⟩ := collectRemaining_sound (collectStored_sound stored) loop
  refine ⟨sound, ?_⟩
  omega

end Rounds

/-! ### The payload on the transaction -/

/-- What the library documents: an operation without entries gets those of the
simulation. -/
def WalletEnvironment.Assembles (env : WalletEnvironment) : Prop :=
  ∀ tx op simulation assembled, tx.operations = [.invokeHostFunction op] → op.auth = [] →
    env.assembleTransaction tx simulation = .ok assembled →
    assembled.operations =
      [.invokeHostFunction { op with auth := simulation.auth.getD [] }]

theorem onOperation_eq_ok {transaction result : Transaction} {op : InvokeHostFunctionOp}
    {rest : List TxOperation} {inject : InvokeHostFunctionOp → Js InvokeHostFunctionOp}
    (shape : transaction.operations = .invokeHostFunction op :: rest)
    (done : onOperation transaction inject = .ok result) :
    ∃ signed, inject op = .ok signed ∧
      result.operations = .invokeHostFunction signed :: rest := by
  unfold onOperation at done
  rw [shape] at done
  obtain ⟨signed, injected, final⟩ := Contract.bind_eq_ok.mp done
  cases final
  exact ⟨signed, injected, rfl⟩

section Step

variable {env : WalletEnvironment} {passphrase : String} {simulation : SimulationSuccess}

/-- The payload is on the simulation's first entry, which keeps its calls and its
address, and the digest is that of the entry as it is submitted. -/
structure PayloadOn (passphrase : String) (contextRuleIds : List UInt32) (digest : Bytes)
    (simulation : SimulationSuccess) (transaction : Transaction)
    (creds submitted : AddressCredentials) (invocation : AuthorizedInvocation)
    (operation : InvokeHostFunctionOp) (others : List AuthEntry) : Prop where
  simulated : simulation.auth =
    some ({ credentials := .address creds, rootInvocation := invocation } :: others)
  operations : transaction.operations = [.invokeHostFunction operation]
  auth : operation.auth =
    { credentials := .address submitted, rootInvocation := invocation } :: others
  address : submitted.address = creds.address
  ruleIds : payloadRuleIds submitted.signature = some (contextRuleIdsVec contextRuleIds)
  commits : digest = submittedDigest passphrase submitted invocation contextRuleIds

theorem injected_entry (assembles : env.Assembles) {source fee : String}
    {op : InvokeHostFunctionOp} {assembledTx transaction : Transaction} {authEntry : AuthEntry}
    {signaturePayload : Bytes} {signers : List SignerSignature} {contextRuleIds : List UInt32}
    (found : getAuthEntry simulation = .ok authEntry)
    (hashed : buildAuthHash authEntry passphrase simulation.latestLedger (expirationOffset env) =
      .ok signaturePayload)
    (assembled : env.assembleTransaction (simulationTx source fee op) simulation =
      .ok assembledTx)
    (injected : onOperation assembledTx (fun op =>
      injectSignedAuthPayload env.addressOf op signers simulation.latestLedger
        (expirationOffset env) contextRuleIds) = .ok transaction) :
    ∃ creds submitted invocation operation others,
      PayloadOn passphrase contextRuleIds (computeAuthDigest signaturePayload contextRuleIds)
        simulation transaction creds submitted invocation operation others := by
  obtain ⟨others, entries⟩ := getAuthEntry_eq_ok.mp found
  obtain ⟨hashedCreds, addressed, rfl⟩ := buildAuthHash_eq_ok hashed
  have shape := assembles _ _ simulation assembledTx rfl rfl assembled
  obtain ⟨signed, onEntry, operations⟩ := onOperation_eq_ok shape injected
  obtain ⟨creds, invocation, rest, signature, auth, ids, rfl⟩ :=
    injectSignedAuthPayload_eq_ok onEntry
  -- the entry that was hashed and the one that is signed are both the first
  have same : authEntry :: others =
      { credentials := .address creds, rootInvocation := invocation } :: rest := by
    rw [← auth]
    dsimp only
    rw [entries, Option.getD_some]
  cases same
  cases addressed
  exact ⟨hashedCreds, _, invocation, _, others,
    { simulated := entries
      operations
      auth := rfl
      address := rfl
      ruleIds := ids
      commits := rfl }⟩

theorem signSimulated_eq_ok (assembles : env.Assembles) {cred : StoredCredential}
    {resolved : ResolvedSignerRule} {ruleInfo : Option DefaultRuleAuthInfo} {source fee : String}
    {op : InvokeHostFunctionOp} {signed : SignedTransaction}
    (done : signSimulated env passphrase cred resolved ruleInfo (simulationTx source fee op)
      simulation = .ok signed) :
    ∃ digest creds submitted invocation operation others,
      PayloadOn passphrase [resolved.ruleId] digest simulation signed.transaction creds submitted
        invocation operation others ∧
      signed.asked ≠ [] ∧ ∀ request ∈ signed.asked, request.challenge = digest := by
  unfold signSimulated at done
  obtain ⟨authEntry, found, done⟩ := Contract.bind_eq_ok.mp done
  obtain ⟨signaturePayload, hashed, done⟩ := Contract.bind_eq_ok.mp done
  obtain ⟨assembledTx, assembled, done⟩ := Contract.bind_eq_ok.mp done
  split at done
  next single =>
    obtain ⟨parsedSig, _, done⟩ := Contract.bind_eq_ok.mp done
    obtain ⟨transaction, injected, done⟩ := Contract.bind_eq_ok.mp done
    cases done
    obtain ⟨creds, submitted, invocation, operation, others, payload⟩ :=
      injected_entry assembles found hashed assembled injected
    refine ⟨_, creds, submitted, invocation, operation, others, payload, List.cons_ne_nil _ _, ?_⟩
    intro request listed
    rw [List.mem_singleton.mp listed]
  next several =>
    cases ruleInfo with
    | none => cases done
    | some info =>
        obtain ⟨collected, signatures, done⟩ := Contract.bind_eq_ok.mp done
        obtain ⟨transaction, injected, done⟩ := Contract.bind_eq_ok.mp done
        cases done
        obtain ⟨creds, submitted, invocation, operation, others, payload⟩ :=
          injected_entry assembles found hashed assembled injected
        obtain ⟨sound, enough⟩ := collectMultiPasskeySignatures_sound signatures
        refine ⟨_, creds, submitted, invocation, operation, others, payload, ?_, sound.about⟩
        -- the rule asks for several signatures, and each of them was asked for
        intro silent
        have unanswered : collected.asked.length = 0 := congrArg List.length silent
        have count := sound.answered
        unfold requiredSignatures at several
        dsimp only at several
        omega

end Step

/-! ### When the signature fits -/

def Simulated (env : WalletEnvironment) (args : SignArgs) (simulation : SimulationSuccess) : Prop :=
  ∃ tx op source, parseSorobanTx env args = .ok (tx, op) ∧ env.getAccount tx.source = .ok source ∧
    env.simulateTransaction (simulationTx source tx.fee op) = .ok (.success simulation)

/-- The entry with the payload is the account's, the payload lists one rule id for each
call of that entry, and what the passkeys signed is what the account recomputes. -/
def SignatureFits (env : WalletEnvironment) (args : SignArgs) (signed : SignedTransaction) : Prop :=
  ∃ operation submitted invocation others ids,
    signed.transaction.operations = [.invokeHostFunction operation] ∧
    operation.auth =
      { credentials := .address submitted, rootInvocation := invocation } :: others ∧
    payloadRuleIds submitted.signature = some (contextRuleIdsVec ids) ∧
    env.addressOf args.account = .ok submitted.address ∧
    ids.length = invocation.count ∧
    signed.asked ≠ [] ∧
    ∀ request ∈ signed.asked,
      request.challenge = submittedDigest args.passphrase submitted invocation ids

/-- The first entry of the simulation is the account's, and it authorizes a single call. -/
def OwnEntryFirst (env : WalletEnvironment) (account : String) (simulation : SimulationSuccess) :
    Prop :=
  ∃ creds invocation others,
    simulation.auth =
      some ({ credentials := .address creds, rootInvocation := invocation } :: others) ∧
    env.addressOf account = .ok creds.address ∧ invocation.subInvocations = []

theorem signatureStep_eq_ok {env : WalletEnvironment} {args : SignArgs}
    {simulation : SimulationSuccess} {signed : SignedTransaction}
    (simulated : Simulated env args simulation)
    (reached : signatureStep env args = .ok signed) :
    ∃ cred resolved ruleInfo source fee op,
      signSimulated env args.passphrase cred resolved ruleInfo (simulationTx source fee op)
        simulation = .ok signed := by
  obtain ⟨tx, op, source, parsed, sourced, answered⟩ := simulated
  unfold signatureStep at reached
  split at reached
  · cases reached
  · obtain ⟨found, foundParsed, reached⟩ := Contract.bind_eq_ok.mp reached
    rw [parsed] at foundParsed
    cases foundParsed
    obtain ⟨resolved, _, reached⟩ := Contract.bind_eq_ok.mp reached
    split at reached
    · cases reached
    · obtain ⟨_, _, reached⟩ := Contract.bind_eq_ok.mp reached
      obtain ⟨account, accountFound, reached⟩ := Contract.bind_eq_ok.mp reached
      obtain ⟨response, responded, reached⟩ := Contract.bind_eq_ok.mp reached
      obtain ⟨success, expected, reached⟩ := Contract.bind_eq_ok.mp reached
      rw [sourced] at accountFound
      cases accountFound
      rw [answered] at responded
      cases responded
      cases expected
      exact ⟨_, _, _, source, tx.fee, op, reached⟩

section Fits

variable {env : WalletEnvironment} {args : SignArgs} {simulation : SimulationSuccess}
  {signed : SignedTransaction}

theorem fits_of_own_entry (assembles : env.Assembles) (simulated : Simulated env args simulation)
    (reached : signatureStep env args = .ok signed)
    (own : OwnEntryFirst env args.account simulation) : SignatureFits env args signed := by
  obtain ⟨cred, resolved, ruleInfo, source, fee, op, done⟩ :=
    signatureStep_eq_ok simulated reached
  obtain ⟨digest, creds, submitted, invocation, operation, others, payload, asked, about⟩ :=
    signSimulated_eq_ok assembles done
  obtain ⟨ownCreds, ownInvocation, ownOthers, ownEntries, owner, flat⟩ := own
  rw [payload.simulated] at ownEntries
  cases ownEntries
  refine ⟨operation, submitted, invocation, others, [resolved.ruleId], payload.operations,
    payload.auth, payload.ruleIds, ?_, ?_, asked, ?_⟩
  · rw [owner, payload.address]
  · rw [invocation.count_eq_one.mpr flat]
    rfl
  · intro request listed
    rw [about request listed]
    exact payload.commits

theorem own_entry_of_fits (assembles : env.Assembles) (simulated : Simulated env args simulation)
    (reached : signatureStep env args = .ok signed) (fits : SignatureFits env args signed) :
    OwnEntryFirst env args.account simulation := by
  obtain ⟨cred, resolved, ruleInfo, source, fee, op, done⟩ :=
    signatureStep_eq_ok simulated reached
  obtain ⟨digest, creds, submitted, invocation, operation, others, payload, _, _⟩ :=
    signSimulated_eq_ok assembles done
  obtain ⟨foundOperation, found, foundInvocation, foundOthers, foundIds, onTransaction, onEntry,
    listed, owner, one_each, _⟩ := fits
  rw [payload.operations] at onTransaction
  cases onTransaction
  rw [payload.auth] at onEntry
  cases onEntry
  rw [payload.ruleIds] at listed
  have single := contextRuleIdsVec_injective (Option.some.inj listed)
  refine ⟨creds, invocation, others, payload.simulated, ?_, ?_⟩
  · rw [owner, payload.address]
  · apply invocation.count_eq_one.mp
    rw [← one_each, ← single]
    rfl

theorem signTransactionXdr_operations
    (refits : ∀ tx simulation, (env.refit tx simulation).operations = tx.operations)
    {returned : Transaction} (done : signTransactionXdr env args = .ok returned) :
    ∃ signed, signatureStep env args = .ok signed ∧
      returned.operations = signed.transaction.operations := by
  unfold signTransactionXdr at done
  obtain ⟨signed, reached, done⟩ := Contract.bind_eq_ok.mp done
  obtain ⟨response, _, done⟩ := Contract.bind_eq_ok.mp done
  obtain ⟨success, _, done⟩ := Contract.bind_eq_ok.mp done
  cases done
  exact ⟨signed, reached, refits signed.transaction success⟩

/-- A signature fits the entry it is put on exactly when the first entry of the
simulation is the account's and authorizes one call. -/
theorem signature_fits_iff (assembles : env.Assembles) (simulated : Simulated env args simulation)
    (reached : signatureStep env args = .ok signed) :
    SignatureFits env args signed ↔ OwnEntryFirst env args.account simulation := by
  constructor
  · exact own_entry_of_fits assembles simulated reached
  · exact fits_of_own_entry assembles simulated reached

end Fits

/-! ### A deposit into a vault -/

namespace SampleDeposit

def owner : Address := .contract ⟨List.replicate 32 4, rfl⟩

def vault : Address := .contract ⟨List.replicate 32 5, rfl⟩

def token : Address := .contract ⟨List.replicate 32 6, rfl⟩

def deposit : ContractContext where
  contract := vault
  fnName := "deposit"
  args := [.address owner, .i128 100]

def transfer : ContractContext where
  contract := token
  fnName := "transfer"
  args := [.address owner, .address vault, .i128 100]

def txXdr : String :=
  "AAAAAgAAAAADAwMDAwMDAwMDAwMDAwMDAwMDAwMDAwMDAwMDAwMDAwAAAGQAAAAAAAAAAQAAAAAAAAAAAAAAAQAAAAAAAA" ++
    "AYAAAAAAAAAAEFBQUFBQUFBQUFBQUFBQUFBQUFBQUFBQUFBQUFBQUFBQAAAAdkZXBvc2l0AAAAAAIAAAASAAAAAQQEBAQE" ++
    "BAQEBAQEBAQEBAQEBAQEBAQEBAQEBAQEBAQEAAAACgAAAAAAAAAAAAAAAAAAAGQAAAAAAAAAAAAAAAA="

def parsedTx : Transaction where
  source := "GABQGAYDAMBQGAYDAMBQGAYDAMBQGAYDAMBQGAYDAMBQGAYDAMBQHGPC"
  fee := "100"
  operations := [.invokeHostFunction { hostFunction := .invokeContract deposit, auth := [] }]

def read (text : String) : Js ParsedTransaction :=
  if text = txXdr then .ok (.transaction parsedTx) else .error "XDR Read Error: invalid input"

theorem read_txXdr : read txXdr = .ok (.transaction parsedTx) := by
  unfold read
  rw [if_pos rfl]

def entry (subInvocations : List AuthorizedInvocation) : AuthEntry where
  credentials := .address { address := owner, nonce := 7, signatureExpirationLedger := 0,
                            signature := .void }
  rootInvocation := .mk (.contractFn deposit) subInvocations

def simulation (subInvocations : List AuthorizedInvocation) : SimulationSuccess where
  auth := some [entry subInvocations]
  latestLedger := 500

def assemble (tx : Transaction) (simulation : SimulationSuccess) : Transaction :=
  { tx with
    operations := tx.operations.map (fun operation =>
      match operation with
      | .invokeHostFunction op =>
          match op.auth with
          | [] => .invokeHostFunction { op with auth := simulation.auth.getD [] }
          | _ :: _ => operation
      | .other _ => operation) }

def env (subInvocations : List AuthorizedInvocation) : WalletEnvironment where
  addressOf
    | "CACAIBAEAQCAIBAEAQCAIBAEAQCAIBAEAQCAIBAEAQCAIBAEAQCAINCW" => .ok owner
    | "CACQKBIFAUCQKBIFAUCQKBIFAUCQKBIFAUCQKBIFAUCQKBIFAUCQLC2U" => .ok vault
    | "CADAMBQGAYDAMBQGAYDAMBQGAYDAMBQGAYDAMBQGAYDAMBQGAYDAMSST" => .ok token
    | text => .error ("Unsupported address type: " ++ text)
  loadCredential := fun _ => some { credentialId := [1], publicKey := "04".pushn '1' 128 }
  fromXdr := fun text _ => read text
  resolveSignerRule := fun _ _ =>
    .ok (some
      { ruleId := 0
        verifier := "CACQKBIFAUCQKBIFAUCQKBIFAUCQKBIFAUCQKBIFAUCQKBIFAUCQLC2U" })
  fetchDefaultRuleAuthInfo := fun _ _ => .error "rule unreadable"
  getAccount := fun accountId => .ok accountId
  simulateTransaction := fun _ => .ok (.success (simulation subInvocations))
  simulateEnforced := fun _ => .ok (.success (simulation subInvocations))
  assembleTransaction := fun tx simulation => .ok (assemble tx simulation)
  refit := fun tx _ => tx
  relayerEnabled := true
  authenticator := fun _ _ =>
    .assertion
      { authenticatorData := List.replicate 37 0
        clientDataJson := [0x7b, 0x7d]
        signature := List.replicate 64 1 }
  p256Verify := fun _ _ _ => true

def args : SignArgs where
  account := "CACAIBAEAQCAIBAEAQCAIBAEAQCAIBAEAQCAIBAEAQCAIBAEAQCAINCW"
  txXdr := txXdr
  networkPassphrase := none

theorem assembles (subInvocations : List AuthorizedInvocation) :
    (env subInvocations).Assembles := by
  rintro tx ⟨hostFunction, auth⟩ simulation assembled shape bare done
  cases done
  cases bare
  unfold assemble
  dsimp only
  rw [shape]
  rfl

theorem parsed (subInvocations : List AuthorizedInvocation) :
    parseSorobanTx (env subInvocations) args =
      .ok (parsedTx, { hostFunction := .invokeContract deposit, auth := [] }) := by
  unfold parseSorobanTx env args
  dsimp only
  rw [read_txXdr]
  rfl

theorem simulated (subInvocations : List AuthorizedInvocation) :
    Simulated (env subInvocations) args (simulation subInvocations) :=
  ⟨parsedTx, _, _, parsed subInvocations, rfl, rfl⟩

theorem reached (subInvocations : List AuthorizedInvocation) :
    ∃ signed, signatureStep (env subInvocations) args = .ok signed := by
  unfold signatureStep
  rw [parsed]
  exact ⟨_, rfl⟩

end SampleDeposit

theorem signature_fits_iff_flat :
    ∃ signed, signatureStep (SampleDeposit.env []) SampleDeposit.args = .ok signed ∧
      SignatureFits (SampleDeposit.env []) SampleDeposit.args signed := by
  obtain ⟨signed, reached⟩ := SampleDeposit.reached []
  refine ⟨signed, reached, ?_⟩
  apply (signature_fits_iff (SampleDeposit.assembles []) (SampleDeposit.simulated []) reached).mpr
  exact ⟨_, _, _, rfl, rfl, rfl⟩

/-- The vault's deposit calls the token, and the payload lists one id for two calls. -/
theorem signature_not_always_fits :
    ¬ ∀ (env : WalletEnvironment) (args : SignArgs) (simulation : SimulationSuccess)
        (signed : SignedTransaction), env.Assembles → Simulated env args simulation →
        signatureStep env args = .ok signed → SignatureFits env args signed := by
  intro always
  let nested : List AuthorizedInvocation := [.mk (.contractFn SampleDeposit.transfer) []]
  obtain ⟨signed, reached⟩ := SampleDeposit.reached nested
  have fits := always (SampleDeposit.env nested) SampleDeposit.args
    (SampleDeposit.simulation nested) signed (SampleDeposit.assembles nested)
    (SampleDeposit.simulated nested) reached
  obtain ⟨creds, invocation, others, entries, _, flat⟩ :=
    own_entry_of_fits (SampleDeposit.assembles nested) (SampleDeposit.simulated nested) reached
      fits
  cases entries
  cases flat

end Nido.Frontend
