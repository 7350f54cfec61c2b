/-
Every operation that the wallet sends through the relayer, against the relayer's
gate.

The planner and the builders decide which contract functions are invoked; a list
kept by hand in another package decides which of them are let through. The two
differ in two functions, and the operation tells when one of these is invoked.
-/

import Nido.Frontend.OperationBuilders
import Nido.Frontend.ZkRecoveryActions
import Nido.Relayer.Allowlist
import Nido.Sdk.Recovery

namespace Nido.Frontend

open Sdk Relayer

/-- What the wallet submits through the relayer. -/
inductive WalletOperation
  | rotation (args : BuildRotationArgs)
  | installRecovery (account : String) (block : MultisigRecoveryBlock)
  | revokeRecovery (account : String) (ruleId : UInt32)
  | descriptor (d : OperationDescriptor) (account : String)
  | enroll (account : String)
  | insertFor (account : String) (secret : Int)
  | initiate (args : ProofArgs) (newPubkey65 : Bytes) (timelockSecs : UInt32)
  | cancel (args : ProofArgs)
  | burn (args : ProofArgs)
  | complete (args : CompleteRecoveryArgs)

/-- What the builders need from outside: the bindings, the registry and the hash. -/
structure Environment where
  bindings : Bindings
  fetchRegistryAddress : String → Js String
  poseidon2Hash : List Fr → Fr

section Build

variable (env : Environment)

def commitmentForCreation (secret : Int) : Js Bytes := do
  let inner ← wrapLeafInner env.poseidon2Hash secret
  fieldToBytes32 inner

def buildMigrationEnrollTx (account : String) (secret : Int) : Js TxBuild := do
  let controllerId ← env.fetchRegistryAddress "zk-recovery"
  let commitment ← commitmentForCreation env secret
  let owner ← env.bindings.addressOf account
  let operation ← contractCall env.bindings.addressOf controllerId "insert_for"
    [.address owner, .bytes commitment]
  pure { operations := [operation], description := "Enroll a new ZK-recovery secret" }

/-- The first of the two calls of an enrolment. -/
def enrollOperation (account : String) : Js InvokeHostFunctionOp := do
  let controllerId ← env.fetchRegistryAddress "zk-recovery"
  let controller ← env.bindings.addressOf controllerId
  contractCall env.bindings.addressOf account "enroll_zk_recovery" [.address controller]

/-- The policy is looked up under its name in the registry. -/
def installRecovery (account : String) (block : MultisigRecoveryBlock) : Js TxBuild :=
  buildInstall env.bindings account block (some (fun name =>
    env.fetchRegistryAddress (if name = "multisig" then "multisig-policy" else name)))

/-- The operations of the transactions, one operation each. -/
def WalletOperation.build : WalletOperation → Js (List InvokeHostFunctionOp)
  | .rotation args => (buildRotation env.bindings args).map (·.operations)
  | .installRecovery account block => (Frontend.installRecovery env account block).map (·.operations)
  | .revokeRecovery account ruleId => (buildRevoke env.bindings account ruleId).map (·.operations)
  | .descriptor d account => buildOperation env.bindings env.fetchRegistryAddress d account
  | .enroll account => (enrollOperation env account).map ([·])
  | .insertFor account secret => (buildMigrationEnrollTx env account secret).map (·.operations)
  | .initiate args newPubkey65 timelockSecs =>
      (buildInitiateRecovery env.bindings.addressOf args newPubkey65 timelockSecs).map
        (·.operations)
  | .cancel args => (buildCancelRecovery env.bindings.addressOf args).map (·.operations)
  | .burn args => (buildBurnNullifier env.bindings.addressOf args).map (·.operations)
  | .complete args => (buildCompleteRecovery env.bindings.addressOf args).map (·.operations)

end Build

/-! ### The functions that are invoked -/

theorem contractCall_functionNames {addressOf : String → Js Address} {contractId method : String}
    {args : List ScVal} {operation : InvokeHostFunctionOp}
    (built : contractCall addressOf contractId method args = .ok operation) :
    functionNames [operation] = [some method] := by
  obtain ⟨contract, _, rfl⟩ := (contractCall_eq_ok addressOf).mp built
  rfl

theorem buildOwnerCall_functionNames {addressOf : String → Js Address}
    {builder method description : String} {args : ProofArgs} {tx : TxBuild}
    (built : buildOwnerCall addressOf builder method description args = .ok tx) :
    functionNames tx.operations = [some method] := by
  obtain ⟨contract, account, _, _, _, _, operations⟩ := buildOwnerCall_eq_ok addressOf built
  rw [operations]
  rfl

def OperationDescriptor.method : OperationDescriptor → String
  | .register .. => "register"
  | .transfer .. => "execute"
  | .addContextRule .. => "add_context_rule"
  | .removeContextRule .. => "remove_context_rule"

/-- What the operation calls, one function for each of its transactions. A rotation
calls what its plan calls. -/
def WalletOperation.Calls (functions : List String) : WalletOperation → Prop
  | .rotation args => ∃ calls, planRotation args.request = .ok calls ∧
      functions = calls.map RotationCall.method
  | .installRecovery .. => functions = ["add_multisig_recovery"]
  | .revokeRecovery .. => functions = ["remove_context_rule"]
  | .descriptor d _ => functions = [d.method]
  | .enroll _ => functions = ["enroll_zk_recovery"]
  | .insertFor .. => functions = ["insert_for"]
  | .initiate .. => functions = ["initiate_recovery"]
  | .cancel _ => functions = ["cancel_recovery"]
  | .burn _ => functions = ["burn_nullifier"]
  | .complete _ => functions = ["add_context_rule"]

theorem buildRotation_functionNames {bindings : Bindings} {args : BuildRotationArgs}
    {tx : RotationTxBuild} (built : buildRotation bindings args = .ok tx) :
    ∃ calls, planRotation args.request = .ok calls ∧
      functionNames tx.operations = (calls.map RotationCall.method).map some := by
  simp only [buildRotation, Contract.bind_eq_ok, Contract.pure_eq_ok] at built
  obtain ⟨calls, planned, operations, callsBuilt, rfl⟩ := built
  refine ⟨calls, planned, ?_⟩
  rw [List.map_map]
  exact buildRotationCalls_functionNames callsBuilt

theorem buildInstall_functionNames {bindings : Bindings} {account : String}
    {block : MultisigRecoveryBlock} {policyAddress : Option (String → Js String)} {tx : TxBuild}
    (built : buildInstall bindings account block policyAddress = .ok tx) :
    functionNames tx.operations = [some "add_multisig_recovery"] := by
  cases policyAddress with
  | none => cases built
  | some fetch =>
      simp only [buildInstall, Contract.bind_eq_ok] at built
      obtain ⟨policy, _, built⟩ := built
      cases added : addMultisigRecovery bindings account block policy with
      | error msg =>
          rw [added] at built
          cases built
      | ok operations =>
          rw [added] at built
          cases built
          simp only [addMultisigRecovery, Contract.bind_eq_ok] at added
          obtain ⟨friends, _, address, _, called⟩ := added
          exact Bindings.call_functionNames called

theorem buildRevoke_functionNames {bindings : Bindings} {account : String} {ruleId : UInt32}
    {tx : TxBuild} (built : buildRevoke bindings account ruleId = .ok tx) :
    functionNames tx.operations = [some "remove_context_rule"] := by
  simp only [buildRevoke, Contract.bind_eq_ok, Contract.pure_eq_ok] at built
  obtain ⟨operations, called, rfl⟩ := built
  exact Bindings.call_functionNames called

theorem buildOperation_functionNames {bindings : Bindings}
    {fetchRegistryAddress : String → Js String} {d : OperationDescriptor} {account : String}
    {operations : List InvokeHostFunctionOp}
    (built : buildOperation bindings fetchRegistryAddress d account = .ok operations) :
    functionNames operations = [some d.method] := by
  cases d with
  | register name =>
      simp only [buildOperation, Contract.bind_eq_ok, Contract.pure_eq_ok] at built
      obtain ⟨registry, _, owner, _, operation, called, rfl⟩ := built
      exact contractCall_functionNames called
  | transfer token to_ amountRaw =>
      simp only [buildOperation, buildSendOperation, Contract.bind_eq_ok,
        Contract.pure_eq_ok] at built
      obtain ⟨amount, _, operation, ⟨_, _, _, _, _, _, called⟩, rfl⟩ := built
      exact contractCall_functionNames called
  | addContextRule target signerPublicKeyHex verifierAddress validUntil limit label =>
      simp only [buildOperation, Contract.bind_eq_ok] at built
      obtain ⟨policies, _, scope, _, verifier, _, called⟩ := built
      exact Bindings.call_functionNames called
  | removeContextRule ruleId =>
      exact Bindings.call_functionNames built

theorem WalletOperation.build_functionNames {env : Environment} {operation : WalletOperation}
    {operations : List InvokeHostFunctionOp} (built : operation.build env = .ok operations) :
    ∃ functions, operation.Calls functions ∧ functionNames operations = functions.map some := by
  cases operation with
  | rotation args =>
      obtain ⟨tx, rotated, rfl⟩ := Contract.map_eq_ok.mp built
      obtain ⟨calls, planned, names⟩ := buildRotation_functionNames rotated
      exact ⟨_, ⟨calls, planned, rfl⟩, names⟩
  | installRecovery account block =>
      obtain ⟨tx, installed, rfl⟩ := Contract.map_eq_ok.mp built
      exact ⟨_, rfl, buildInstall_functionNames installed⟩
  | revokeRecovery account ruleId =>
      obtain ⟨tx, revoked, rfl⟩ := Contract.map_eq_ok.mp built
      exact ⟨_, rfl, buildRevoke_functionNames revoked⟩
  | descriptor d account =>
      exact ⟨_, rfl, buildOperation_functionNames built⟩
  | enroll account =>
      obtain ⟨enrolled, called, rfl⟩ := Contract.map_eq_ok.mp built
      simp only [enrollOperation, Contract.bind_eq_ok] at called
      obtain ⟨_, _, _, _, called⟩ := called
      exact ⟨_, rfl, contractCall_functionNames called⟩
  | insertFor account secret =>
      obtain ⟨tx, inserted, rfl⟩ := Contract.map_eq_ok.mp built
      simp only [buildMigrationEnrollTx, Contract.bind_eq_ok, Contract.pure_eq_ok] at inserted
      obtain ⟨_, _, _, _, _, _, operation, called, rfl⟩ := inserted
      exact ⟨_, rfl, contractCall_functionNames called⟩
  | initiate args newPubkey65 timelockSecs =>
      obtain ⟨tx, initiated, rfl⟩ := Contract.map_eq_ok.mp built
      simp only [buildInitiateRecovery, Contract.bind_eq_ok, Contract.pure_eq_ok] at initiated
      obtain ⟨_, _, _, _, _, _, _, _, operation, called, rfl⟩ := initiated
      exact ⟨_, rfl, contractCall_functionNames called⟩
  | cancel args =>
      obtain ⟨tx, cancelled, rfl⟩ := Contract.map_eq_ok.mp built
      exact ⟨_, rfl, buildOwnerCall_functionNames cancelled⟩
  | burn args =>
      obtain ⟨tx, burnt, rfl⟩ := Contract.map_eq_ok.mp built
      exact ⟨_, rfl, buildOwnerCall_functionNames burnt⟩
  | complete args =>
      obtain ⟨tx, completed, rfl⟩ := Contract.map_eq_ok.mp built
      simp only [buildCompleteRecovery, Contract.bind_eq_ok, Contract.pure_eq_ok] at completed
      obtain ⟨_, _, _, _, operation, called, rfl⟩ := completed
      exact ⟨_, rfl, contractCall_functionNames called⟩

/-! ### The gate -/

/-- The two kinds of operation that call a function missing from the list: a rotation
that installs an approval policy, and the installation of a friends block. -/
def WalletOperation.Unlisted : WalletOperation → Prop
  | .rotation args => args.request.InstallsThreshold
  | .installRecovery .. => True
  | _ => False

theorem rotationCall_allowed (call : RotationCall) :
    call.method ∈ allowedFunctions ↔
      call.method = "add_signer" ∨ call.method = "remove_signer" := by
  cases call with
  | addSigner =>
      have listed : "add_signer" ∈ allowedFunctions := by decide
      exact ⟨fun _ => Or.inl rfl, fun _ => listed⟩
  | removeSigner =>
      have listed : "remove_signer" ∈ allowedFunctions := by decide
      exact ⟨fun _ => Or.inr rfl, fun _ => listed⟩
  | addPolicy =>
      change "add_policy" ∈ allowedFunctions ↔
        "add_policy" = "add_signer" ∨ "add_policy" = "remove_signer"
      decide

theorem OperationDescriptor.method_allowed (d : OperationDescriptor) :
    d.method ∈ allowedFunctions := by
  cases d with
  | register => exact (by decide : "register" ∈ allowedFunctions)
  | transfer => exact (by decide : "execute" ∈ allowedFunctions)
  | addContextRule => exact (by decide : "add_context_rule" ∈ allowedFunctions)
  | removeContextRule => exact (by decide : "remove_context_rule" ∈ allowedFunctions)

theorem single_allowed {functions : List String} {name : String} (calls : functions = [name])
    (listed : name ∈ allowedFunctions) :
    (∀ function ∈ functions, function ∈ allowedFunctions) ↔ ¬ False := by
  rw [calls, List.forall_mem_singleton]
  exact ⟨fun _ => not_false, fun _ => listed⟩

theorem WalletOperation.calls_allowed {operation : WalletOperation} {functions : List String}
    (calls : operation.Calls functions) :
    (∀ name ∈ functions, name ∈ allowedFunctions) ↔ ¬ operation.Unlisted := by
  cases operation with
  | rotation args =>
      obtain ⟨planned, plans, rfl⟩ := calls
      rw [WalletOperation.Unlisted, ← planRotation_method plans, List.forall_mem_map]
      exact forall₂_congr (fun call _ => rotationCall_allowed call)
  | installRecovery account block =>
      rw [calls, List.forall_mem_singleton]
      exact ⟨fun listed => absurd listed (by decide), fun kept => absurd trivial kept⟩
  | descriptor d account => exact single_allowed calls d.method_allowed
  | revokeRecovery account ruleId => exact single_allowed calls (by decide)
  | enroll account => exact single_allowed calls (by decide)
  | insertFor account secret => exact single_allowed calls (by decide)
  | initiate args newPubkey65 timelockSecs => exact single_allowed calls (by decide)
  | cancel args => exact single_allowed calls (by decide)
  | burn args => exact single_allowed calls (by decide)
  | complete args => exact single_allowed calls (by decide)

theorem gateRequest_all {codec : Xdr} {operations : List InvokeHostFunctionOp}
    {functions : List String} (names : functionNames operations = functions.map some)
    (readsBack : ∀ operation ∈ operations, codec.ReadsBack operation.hostFunction) :
    (∀ operation ∈ operations,
        gateRequest codec (Params.invoking codec operation.hostFunction) = .ok ()) ↔
      ∀ name ∈ functions, name ∈ allowedFunctions := by
  induction operations generalizing functions with
  | nil =>
      cases functions with
      | nil => exact ⟨fun _ _ listed => (List.not_mem_nil listed).elim,
          fun _ _ listed => (List.not_mem_nil listed).elim⟩
      | cons name rest => cases names
  | cons operation others ih =>
      cases functions with
      | nil => cases names
      | cons name rest =>
          obtain ⟨invoked, restNames⟩ := List.cons.inj names
          have called : operation.hostFunction.functionName = some name := invoked
          rw [List.forall_mem_cons, List.forall_mem_cons, gateRequest_submitted,
            assertAllowed_iff (readsBack operation (List.mem_cons_self ..)),
            ih restNames (fun other listed => readsBack other (List.mem_cons_of_mem _ listed)),
            called]
          simp

/-- The wallet's own operations, against the gate: all transactions of an operation are
let through unless it is one of the two unlisted kinds. -/
theorem relayed_iff {env : Environment} {operation : WalletOperation}
    {operations : List InvokeHostFunctionOp} (built : operation.build env = .ok operations)
    {codec : Xdr} (readsBack : ∀ op ∈ operations, codec.ReadsBack op.hostFunction) :
    (∀ op ∈ operations,
        gateRequest codec (Params.invoking codec op.hostFunction) = .ok ()) ↔
      ¬ operation.Unlisted := by
  obtain ⟨functions, calls, names⟩ := operation.build_functionNames built
  rw [gateRequest_all names readsBack]
  exact WalletOperation.calls_allowed calls

/-! ### A rotation of a rule with one signer and no policy -/

namespace SamplePlan

def bindings : Bindings where
  addressOf
    | "CAAAAAAAAAAAAAAAAAAAAAAAAAAAAAAAAAAAAAAAAAAAAAAAAAAABSC4" =>
        .ok (.contract ⟨List.replicate 32 0, rfl⟩)
    | "CAAQCAIBAEAQCAIBAEAQCAIBAEAQCAIBAEAQCAIBAEAQCAIBAEAQC526" =>
        .ok (.contract ⟨List.replicate 32 1, rfl⟩)
    | "CABAEAQCAIBAEAQCAIBAEAQCAIBAEAQCAIBAEAQCAIBAEAQCAIBAFNSZ" =>
        .ok (.contract ⟨List.replicate 32 2, rfl⟩)
    | text => .error ("Unsupported address type: " ++ text)
  simulate := fun _ => .ok []

def env : Environment where
  bindings := bindings
  fetchRegistryAddress := fun _ => .error "name not registered"
  poseidon2Hash := fun _ => 0

def passkey : NewPasskeySigner where
  verifierAddress := "CAAQCAIBAEAQCAIBAEAQCAIBAEAQCAIBAEAQCAIBAEAQCAIBAEAQC526"
  publicKey := 4 :: List.replicate 64 0

def rotation (policyCount : Int) : WalletOperation :=
  .rotation
    { account := "CAAAAAAAAAAAAAAAAAAAAAAAAAAAAAAAAAAAAAAAAAAAAAAAAAAABSC4"
      recoveryRuleId := 1
      request :=
        { defaultRuleId := 0
          addPasskey := some passkey
          removeSignerId := none
          ruleState := some { signerCount := 1, policyCount }
          thresholdPolicyAddress :=
            some "CABAEAQCAIBAEAQCAIBAEAQCAIBAEAQCAIBAEAQCAIBAEAQCAIBAFNSZ" } }

def addPolicy : HostFunction :=
  .invokeContract
    { contract := .contract ⟨List.replicate 32 0, rfl⟩
      fnName := "add_policy"
      args := [.u32 0, .address (.contract ⟨List.replicate 32 2, rfl⟩), thresholdInstallParam 1] }

def addSigner : HostFunction :=
  .invokeContract
    { contract := .contract ⟨List.replicate 32 0, rfl⟩
      fnName := "add_signer"
      args := [.u32 0,
        .vec [.symbol "External", .address (.contract ⟨List.replicate 32 1, rfl⟩),
          .bytes (4 :: List.replicate 64 0)]] }

def addPolicyXdr : String :=
  "AAAAAAAAAAEAAAAAAAAAAAAAAAAAAAAAAAAAAAAAAAAAAAAAAAAAAAAAAAphZGRfcG9saWN5AAAAAAADAAAAAwAAAAAAAA" ++
    "ASAAAAAQICAgICAgICAgICAgICAgICAgICAgICAgICAgICAgICAAAAEQAAAAEAAAABAAAADwAAAAl0aHJlc2hvbGQAAAAA" ++
    "AAADAAAAAQ=="

def addSignerXdr : String :=
  "AAAAAAAAAAEAAAAAAAAAAAAAAAAAAAAAAAAAAAAAAAAAAAAAAAAAAAAAAAphZGRfc2lnbmVyAAAAAAACAAAAAwAAAAAAAA" ++
    "AQAAAAAQAAAAMAAAAPAAAACEV4dGVybmFsAAAAEgAAAAEBAQEBAQEBAQEBAQEBAQEBAQEBAQEBAQEBAQEBAQEBAQAAAA0A" ++
    "AABBBAAAAAAAAAAAAAAAAAAAAAAAAAAAAAAAAAAAAAAAAAAAAAAAAAAAAAAAAAAAAAAAAAAAAAAAAAAAAAAAAAAAAAAAAA" ++
    "A="

def codec : Xdr where
  hostFunctionToXdr hostFunction := if hostFunction = addPolicy then addPolicyXdr else addSignerXdr
  hostFunctionFromXdr text :=
    if text = addPolicyXdr then some addPolicy
    else if text = addSignerXdr then some addSigner
    else none
  hostFunctionOfTransaction := fun _ => none

theorem build_bare : (rotation 0).build env =
    .ok [{ hostFunction := addPolicy, auth := [] }, { hostFunction := addSigner, auth := [] }] :=
  rfl

theorem build_guarded : (rotation 1).build env =
    .ok [{ hostFunction := addSigner, auth := [] }] :=
  rfl

theorem xdr_differ : addSignerXdr ≠ addPolicyXdr := by decide

theorem codec_addPolicy : codec.ReadsBack addPolicy := by
  unfold Xdr.ReadsBack codec
  dsimp only
  rw [if_pos rfl, if_pos rfl]

theorem codec_addSigner : codec.ReadsBack addSigner := by
  have differ : addSigner ≠ addPolicy := by decide
  unfold Xdr.ReadsBack codec
  dsimp only
  rw [if_neg differ, if_neg xdr_differ, if_pos rfl]

end SamplePlan

theorem relayed_iff_guarded :
    (SamplePlan.rotation 1).build SamplePlan.env =
        .ok [{ hostFunction := SamplePlan.addSigner, auth := [] }] ∧
      gateRequest SamplePlan.codec
        (Params.invoking SamplePlan.codec SamplePlan.addSigner) = .ok () := by
  refine ⟨SamplePlan.build_guarded, ?_⟩
  refine (relayed_iff SamplePlan.build_guarded ?_).mpr ?_
    { hostFunction := SamplePlan.addSigner, auth := [] } (List.mem_cons_self ..)
  · intro op listed
    rw [List.mem_singleton.mp listed]
    exact SamplePlan.codec_addSigner
  · rintro ⟨ruleState, address, given, _, _, bare, _⟩
    cases given
    exact absurd bare (by decide)

/-- The gate answers 403 to the first transaction of the rotation. -/
theorem relayed_not_always :
    ¬ ∀ (env : Environment) (operation : WalletOperation) (operations : List InvokeHostFunctionOp)
        (codec : Xdr), operation.build env = .ok operations →
        (∀ op ∈ operations, codec.ReadsBack op.hostFunction) →
        ∀ op ∈ operations,
          gateRequest codec (Params.invoking codec op.hostFunction) = .ok () := by
  intro always
  have passes := always SamplePlan.env (SamplePlan.rotation 0) _ SamplePlan.codec
    SamplePlan.build_bare
    (by
      intro op listed
      obtain rfl | listed := List.mem_cons.mp listed
      · exact SamplePlan.codec_addPolicy
      · rw [List.mem_singleton.mp listed]
        exact SamplePlan.codec_addSigner)
    { hostFunction := SamplePlan.addPolicy, auth := [] } (List.mem_cons_self ..)
  obtain ⟨name, called, listed⟩ := (assertAllowed_iff SamplePlan.codec_addPolicy).mp passes
  cases called
  exact absurd listed (by decide)

end Nido.Frontend
